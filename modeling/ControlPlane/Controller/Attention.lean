import ControlPlane.Controller.Walk
import ControlPlane.Interaction.Order

/-!
# What a pass owes to an answer

Some answers may not be left as they are: a status or an assignment that comes too late is followed
by a wake-up, and an error of `observe` is written to the Host. A pass pays such a debt before it
does anything else, whatever the other tasks do.
-/

namespace ControlPlane

open Interaction Controller

/-- A status or a Host assignment was discarded because its claim has changed. -/
def Stale : Event Effect Answer → Prop
  | ⟨.saveClaimStatus _, .ok false⟩ => True
  | ⟨.ensureHost _ _ _, .error (.conflict _ _ _)⟩ => True
  | ⟨.ensureHost _ _ _, .error (.notFound _ _)⟩ => True
  | _ => False

/-- What may come next where the last answer must not be left as it is. -/
def Owed : Happened → Effect → Prop
  | ⟨.saveClaimStatus _, .ok false⟩ :: _, effect => effect = .wake
  | ⟨.ensureHost _ _ _, .error (.conflict _ _ _)⟩ :: _, effect => effect = .wake
  | ⟨.ensureHost _ _ _, .error (.notFound _ _)⟩ :: _, effect => effect = .wake
  | ⟨.provider (.observe _), .error _⟩ :: _, effect =>
    effect = .nowTimestamp ∨ ∃ record, effect = .saveHost record
  | ⟨.nowTimestamp, _⟩ :: ⟨.provider (.observe _), .error _⟩ :: _, effect =>
    ∃ record, effect = .saveHost record
  | _, _ => True

/-- Nothing is owed. -/
def Settled (log : Happened) : Prop :=
  ∀ effect, Owed log effect

/-- What was discarded is owed a wake-up. -/
theorem wake_of_stale {event : Event Effect Answer} {log : Happened} {effect : Effect}
    (hstale : Stale event) (h : Owed (event :: log) effect) : effect = .wake := by
  unfold Stale at hstale
  split at hstale
  · exact h
  · exact h
  · exact h
  · cases hstale

theorem not_stale_of_settled {event : Event Effect Answer} {log : Happened}
    (h : Settled (event :: log)) : ¬ Stale event := by
  intro hstale
  have hwake := wake_of_stale hstale (h .nowUnixMs)
  cases hwake

/-- A method that leaves nothing owed. -/
def Attentive {α : Type} (method : Controller α) (log : Happened) : Prop :=
  method.run.Orderly Owed (fun _ log' => Settled log') log

namespace Attentive

variable {α β : Type} {log : Happened}

theorem pure (h : Settled log) (value : α) : Attentive (Pure.pure value) log := h

theorem throw (h : Settled log) (error : AppError) :
    Attentive (MonadExceptOf.throw error : Controller α) log := h

theorem ask {effect : Effect} {next : Answer effect → Controller α} (howed : Owed log effect)
    (h : ∀ answer, Attentive (next answer) (⟨effect, answer⟩ :: log)) :
    Attentive (Controller.ask effect >>= next) log := ⟨howed, h⟩

theorem bind {first : Controller α} {next : α → Controller β} (hfirst : Attentive first log)
    (hnext : ∀ value log', Settled log' → Attentive (next value) log') :
    Attentive (first >>= next) log := by
  unfold Attentive
  rw [run_bind]
  refine Program.Orderly.bind hfirst fun result log' hsettled => ?_
  cases result with
  | ok value => exact hnext value log' hsettled
  | error error => exact hsettled

end Attentive

variable {claim : HostClaimRecord} {host record : HostRecord} {nowMs : Int64} {log : Happened}

theorem attentive_getHost (h : Settled log) (hostId : HostId) :
    Attentive (Controller.getHost hostId) log :=
  ⟨h _, fun _ => fun _ => trivial⟩

theorem attentive_saveHost (h : Owed log (.saveHost record)) :
    Attentive (Controller.saveHost record) log :=
  ⟨h, fun _ => fun _ => trivial⟩

theorem attentive_finalizeClaim (h : Settled log) (claimId : HostClaimId) :
    Attentive (Controller.finalizeClaim claimId) log :=
  ⟨h _, fun _ => fun _ => trivial⟩

theorem attentive_persistClaimStatus (h : Settled log) (claim : HostClaimRecord) :
    Attentive (persistClaimStatus claim) log := by
  refine ⟨h _, fun answer => ?_⟩
  rcases answer with error | saved
  · exact fun _ => trivial
  · cases saved with
    | true => exact fun _ => trivial
    | false => exact ⟨rfl, fun _ => fun _ => trivial⟩

theorem attentive_publish {updated : HostClaimRecord × HostRecord}
    (h : Owed log (.saveHost updated.2)) : Attentive (publish updated) log :=
  (attentive_saveHost h).bind fun _ _ hsettled => attentive_persistClaimStatus hsettled _

/-- Publishing is the last a method does. -/
theorem attentive_publish_progress {updated : HostClaimRecord × HostRecord}
    {result : ReconcileResult} (h : Owed log (.saveHost updated.2)) :
    Attentive (do publish updated; return result) log :=
  (attentive_publish h).bind fun _ _ hsettled => .pure hsettled _

theorem attentive_reconcileUnboundClaim (h : Settled log) :
    Attentive (reconcileUnboundClaim claim nowMs) log := by
  refine .ask (h _) fun answer => ?_
  rcases answer with error | _ | plan
  · refine .ask trivial fun now => ?_
    exact Attentive.bind (attentive_persistClaimStatus (by exact fun _ => trivial) _)
      fun _ _ hsettled => .pure hsettled _
  · refine .ask trivial fun now => ?_
    dsimp only
    split
    · exact Attentive.bind (attentive_persistClaimStatus (by exact fun _ => trivial) _)
        fun _ _ hsettled => .pure hsettled _
    · exact .pure (by exact fun _ => trivial) _
  · refine .ask trivial fun answer => ?_
    rcases answer with error | host
    · cases error with
      | conflict => exact .ask rfl fun _ => .pure (by exact fun _ => trivial) _
      | notFound => exact .ask rfl fun _ => .pure (by exact fun _ => trivial) _
      | _ => exact .throw (by exact fun _ => trivial) _
    · exact .pure (by exact fun _ => trivial) _

theorem attentive_reconcileHost (h : Settled log) :
    Attentive (reconcileHost claim host nowMs) log := by
  refine .ask (h _) fun answer => ?_
  rcases answer with error | _ | resource
  · exact .ask (.inl rfl) fun now => attentive_publish_progress ⟨_, rfl⟩
  · dsimp only
    split
    · exact .ask trivial fun now => attentive_publish_progress trivial
    · refine Attentive.bind (attentive_saveHost (by trivial)) fun _ log' hsettled => ?_
      refine .ask (hsettled _) fun created => ?_
      exact .ask trivial fun now => attentive_publish_progress trivial
  · dsimp only
    split
    · exact .ask trivial fun now => attentive_publish_progress trivial
    · exact .ask trivial fun now => attentive_publish_progress trivial

theorem attentive_reconcileDeletingClaim (h : Settled log) :
    Attentive (reconcileDeletingClaim claim nowMs) log := by
  unfold reconcileDeletingClaim
  split
  · exact (attentive_finalizeClaim h _).bind fun _ _ hsettled => .pure hsettled _
  · refine (attentive_getHost h _).bind fun host log' hsettled => ?_
    dsimp only
    split
    · exact .pure hsettled _
    · refine .ask (hsettled _) fun answer => ?_
      rcases answer with error | _ | resource
      · exact Attentive.bind (attentive_saveHost (by exact .inr ⟨_, rfl⟩))
          fun _ _ hsettled => .pure hsettled _
      · exact Attentive.bind (attentive_finalizeClaim (by exact fun _ => trivial) _)
          fun _ _ hsettled => .pure hsettled _
      · dsimp only
        split
        · exact .ask trivial fun now => attentive_publish_progress trivial
        · refine .ask trivial fun now => ?_
          refine Attentive.bind (attentive_saveHost (by trivial)) fun _ log' hsettled => ?_
          refine .ask (hsettled _) fun deleted => ?_
          exact Attentive.bind (attentive_saveHost (by trivial))
            fun _ _ hsettled => .pure hsettled _

theorem attentive_reconcileDeletions (claims : List HostClaimRecord) {log : Happened}
    (h : Settled log) : Attentive (reconcileDeletions nowMs claims) log := by
  induction claims generalizing log with
  | nil => exact .pure h _
  | cons claim rest ih =>
    refine .ask (h _) fun _ => ?_
    refine Attentive.bind (attentive_reconcileDeletingClaim (by exact fun _ => trivial))
      fun result log' hsettled => ?_
    cases result with
    | progress => exact .pure hsettled _
    | idle => exact ih hsettled

theorem attentive_reconcileClaims (claims : List HostClaimRecord) {log : Happened}
    (h : Settled log) : Attentive (reconcileClaims nowMs claims) log := by
  induction claims generalizing log with
  | nil => exact .pure h _
  | cons claim rest ih =>
    unfold reconcileClaims
    split
    · refine (attentive_getHost h _).bind fun host log' hsettled => ?_
      split
      · exact ih hsettled
      · refine .ask (hsettled _) fun _ => ?_
        refine Attentive.bind (attentive_reconcileHost (by exact fun _ => trivial))
          fun result log' hsettled => ?_
        cases result with
        | progress => exact .pure hsettled _
        | idle => exact ih hsettled
    · split
      · exact ih h
      · refine .ask (h _) fun _ => ?_
        refine Attentive.bind (attentive_reconcileUnboundClaim (by exact fun _ => trivial))
          fun result log' hsettled => ?_
        cases result with
        | progress => exact .pure hsettled _
        | idle => exact ih hsettled

/-- How a pass ends: nothing is owed, and if it had nothing to do then it has read the claims. -/
def Attended (result : Except AppError ReconcileResult) (log : Happened) : Prop :=
  Settled log ∧ (result = .ok .idle → ∃ answer, ⟨.listClaims, answer⟩ ∈ log)

theorem reconcileOnce_orderly : reconcileOnce.Orderly Owed Attended [] := by
  refine ⟨trivial, fun nowMs => ⟨trivial, fun answer => ?_⟩⟩
  rcases answer with error | claims
  · exact ⟨fun _ => trivial, fun h => by cases h⟩
  · have hrest : Attentive
        (reconcileDeletions nowMs (dueDeletions nowMs claims) >>=
          thenTurns (reconcileClaims nowMs (liveClaims claims)))
        [⟨.listClaims, .ok claims⟩, ⟨.nowUnixMs, nowMs⟩] := by
      refine Attentive.bind (attentive_reconcileDeletions _ (by exact fun _ => trivial))
        fun result log' hsettled => ?_
      cases result with
      | progress => exact .pure hsettled _
      | idle => exact attentive_reconcileClaims _ hsettled
    refine Program.Orderly.weaken hrest.extends fun result log' hended => ?_
    obtain ⟨hsettled, hsuffix⟩ := hended
    exact ⟨hsettled, fun _ => ⟨_, hsuffix.subset List.mem_cons_self⟩⟩

end ControlPlane
