import ControlPlane.Controller.Attention
import ControlPlane.Controller.Changes

/-!
# Failures one after the other

The calls about a Host that the controller tries again after a Transient error, what the provider
may answer between two failures, and what is written to the Host for each of them. The attempt that
is written follows from the one stored at that moment, which is zero whenever the Host was saved
just before the call.
-/

namespace ControlPlane

open Interaction

variable {σ : Type} {P : ProviderModel σ}

/-- A call about a Host that is tried again. -/
inductive Retried where
  | observe
  | create
  | delete
  deriving DecidableEq

/-- The Host a call to the provider is about. -/
def askedAbout : Event Effect Answer → Option HostId
  | ⟨.provider (.observe hostId), _⟩ => some hostId
  | ⟨.provider (.create hostId _), _⟩ => some hostId
  | ⟨.provider (.delete hostId), _⟩ => some hostId
  | _ => none

namespace Retried

/-- The Host about which the call was answered with a Transient error. -/
def failedFor : Retried → Event Effect Answer → Option HostId
  | .observe, ⟨.provider (.observe hostId), .error (.transient _)⟩ => some hostId
  | .create, ⟨.provider (.create hostId _), .error (.transient _)⟩ => some hostId
  | .delete, ⟨.provider (.delete hostId), .error (.transient _)⟩ => some hostId
  | _, _ => none

/-- The call failed for the Host. -/
def Failure (hostId : HostId) (call : Retried) (event : Event Effect Answer) : Prop :=
  call.failedFor event = some hostId

instance (hostId : HostId) (call : Retried) : DecidablePred (call.Failure hostId) :=
  fun event => inferInstanceAs (Decidable (call.failedFor event = some hostId))

/-- What `observe` answers between two failures. -/
def Between (hostId : HostId) (db : Database) : Retried → Event Effect Answer → Prop
  | .create, ⟨.provider (.observe asked), .ok .absent⟩ => asked = hostId
  | .delete, ⟨.provider (.observe asked), .ok (.present resource)⟩ =>
    asked = hostId ∧ ∃ host, db.host? hostId = some host ∧
      host.resource.status.providerResourceId = some resource.id
  | _, _ => False

/-- The last answer is a failure that the Host has not been saved with. -/
inductive Unsaved (call : Retried) (hostId : HostId) : Happened → Prop where
  | answered {event log} : call.Failure hostId event → Unsaved call hostId (event :: log)
  | stamped {now event log} : call.Failure hostId event →
      Unsaved call hostId (⟨.nowTimestamp, now⟩ :: event :: log)

/-- The Host has just been saved with a failure. -/
def Written (call : Retried) (hostId : HostId) (log : Happened) : Prop :=
  ∃ record older, log = ⟨.saveHost record, .ok ()⟩ :: older ∧ call.Unsaved hostId older

/-- The attempt that the one written for a failure follows. -/
def before (stored : HostRecord) : Retried → UInt32
  | .observe => stored.retry.attempt
  | .create => 0
  | .delete => 0

end Retried

variable {call : Retried} {hostId : HostId} {record : HostRecord} {log : Happened} {db : Database}

theorem askedAbout_of_failure {event : Event Effect Answer} (h : call.Failure hostId event) :
    askedAbout event = some hostId := by
  unfold Retried.Failure Retried.failedFor at h
  split at h
  · exact h
  · exact h
  · exact h
  · cases h

theorem unsaved_cons {event : Event Effect Answer} :
    call.Unsaved hostId (event :: log) ↔ call.Failure hostId event ∨
      (∃ now, event = ⟨.nowTimestamp, now⟩) ∧
        ∃ failed older, log = failed :: older ∧ call.Failure hostId failed := by
  constructor
  · intro h
    cases h with
    | answered hfailure => exact .inl hfailure
    | stamped hfailure => exact .inr ⟨⟨_, rfl⟩, _, _, rfl, hfailure⟩
  · rintro (hfailure | ⟨⟨now, rfl⟩, failed, older, rfl, hfailure⟩)
    · exact .answered hfailure
    · exact .stamped hfailure

theorem Retried.Unsaved.failure (h : call.Unsaved hostId log) :
    ∃ event ∈ log, call.Failure hostId event := by
  cases h with
  | answered hfailure => exact ⟨_, .head _, hfailure⟩
  | stamped hfailure => exact ⟨_, .tail _ (.head _), hfailure⟩

theorem not_unsaved_nil : ¬ call.Unsaved hostId [] := nofun

theorem observe_failure {event : Event Effect Answer}
    (h : Retried.observe.Failure hostId event) :
    ∃ message, event = ⟨.provider (.observe hostId), .error (.transient message)⟩ := by
  unfold Retried.Failure Retried.failedFor at h
  split at h
  · cases h
    exact ⟨_, rfl⟩
  · contradiction
  · contradiction
  · cases h

/-- After a failure of `observe` a pass saves the Host, having read the clock at most. -/
theorem next_of_unsaved {effect : Effect} (h : Retried.observe.Unsaved hostId log)
    (howed : Owed log effect) :
    (effect = .nowTimestamp ∧
      ∃ failed older, log = failed :: older ∧ Retried.observe.Failure hostId failed) ∨
      ∃ record, effect = .saveHost record := by
  cases h with
  | answered hfailure =>
    have hfailed := hfailure
    obtain ⟨message, rfl⟩ := observe_failure hfailure
    rcases howed with hstamp | hsave
    · exact .inl ⟨hstamp, _, _, rfl, hfailed⟩
    · exact .inr hsave
  | stamped hfailure =>
    obtain ⟨message, rfl⟩ := observe_failure hfailure
    exact .inr howed

/-- A pass that owes nothing has saved the Host. -/
theorem not_unsaved_of_settled (h : Settled log) : ¬ Retried.observe.Unsaved hostId log := by
  intro hunsaved
  rcases next_of_unsaved hunsaved (h .wake) with ⟨hwake, -⟩ | ⟨record, hwake⟩
  · cases hwake
  · cases hwake

/-- Where `observe` has only failed for a Host, it is saved for such a failure. -/
theorem unsaved_of_asked (h : AwaitPoint log db (.saveHost record))
    (hasked : ∀ event ∈ log, askedAbout event = some record.resource.id →
      Retried.observe.Failure record.resource.id event) :
    Retried.observe.Unsaved record.resource.id log := by
  cases h with
  | saveDeletionConflict | saveDeletionIntent =>
    cases hasked _ (.tail _ (.head _)) rfl
  | saveIntent => cases hasked _ (.head _) rfl
  | @saveDeleted _ _ host resource now answer =>
    obtain ⟨retry, hretry⟩ := afterDelete_eq (deletionIntent host resource now) _ answer
    rw [hretry] at hasked
    cases hasked _ (.tail _ (.tail _ (.tail _ (.head _)))) rfl
  | saveRetryOnly => exact .answered (hasked _ (.head _) rfl)
  | @saveHost _ _ host _ _ _ _ _ _ turn _ publishing =>
    have hpublishes := publishing.publishes turn.truthful.typed turn.typed
    rw [← hpublishes.hostKept] at hasked ⊢
    cases publishing with
    | conflict | observed | absent => cases hasked _ (.tail _ (.head _)) rfl
    | created | createUnknown | createError =>
      cases hasked _ (.tail _ (.tail _ (.tail _ (.head _)))) rfl
    | observeError => exact .stamped (hasked _ (.tail _ (.head _)) rfl)

/-- A pass reads the clock first. -/
theorem Turn.first {nowMs : Int64} {claim : HostClaimRecord} (turn : Turn nowMs claim log db)
    {later : Happened} (hsuffix : log <:+ later) : later.getLast? = some ⟨.nowUnixMs, nowMs⟩ := by
  obtain ⟨claims, -, hbase⟩ := turn.snapshot
  obtain ⟨newer, rfl⟩ := hbase.trans hsuffix
  simp

/-- What is written to the Host for a failure. -/
structure Retries (call : Retried) (hostId : HostId) (log : Happened) (db : Database)
    (record : HostRecord) : Prop where
  id : record.resource.id = hostId
  schedule : ∃ stored nowMs, db.host? hostId = some stored ∧
    log.getLast? = some ⟨.nowUnixMs, nowMs⟩ ∧
    record.resource.status.providerResourceId = stored.resource.status.providerResourceId ∧
    record.retry.attempt = nextAttempt (call.before stored) ∧
    record.retry.nextReconcileAtUnixMs =
      some (retryDeadline nowMs (nextAttempt (call.before stored)))

/-- A Host saved while a failure is unsaved is saved with that failure. -/
theorem retries_of_unsaved (h : AwaitPoint log db (.saveHost record))
    (hunsaved : call.Unsaved hostId log) : Retries call hostId log db record := by
  cases hunsaved with
  | @answered event log hfailure =>
    cases h with
    | saveDeletionConflict | saveDeletionIntent | saveHost =>
      cases askedAbout_of_failure hfailure
    | saveIntent => cases call <;> cases hfailure
    | @saveRetryOnly _ _ host error _ _ turn =>
      obtain _ | message := error
      · cases call <;> cases hfailure
      · cases call with
        | observe =>
          cases hfailure
          exact ⟨rfl, host, _, turn.stored, turn.first ⟨[_, _, _], rfl⟩, rfl, rfl, rfl⟩
        | create | delete => cases hfailure
    | @saveDeleted _ _ host resource now answer _ _ turn =>
      cases call with
      | observe | create => cases hfailure
      | delete =>
        rcases answer with (_ | message) | _
        · cases hfailure
        · cases hfailure
          exact ⟨rfl, _, _, turn.stored, turn.first ⟨[_, _, _, _, _, _], rfl⟩, rfl, rfl, rfl⟩
        · cases hfailure
  | @stamped now event log hfailure =>
    cases h with
    | saveDeletionConflict | saveDeletionIntent => cases call <;> cases hfailure
    | saveHost turn _ publishing =>
      cases publishing with
      | conflict | observed | absent | created | createUnknown => cases call <;> cases hfailure
      | @observeError error =>
        obtain _ | message := error
        · cases call <;> cases hfailure
        · cases call with
          | observe =>
            cases hfailure
            exact ⟨rfl, _, _, turn.stored, turn.first ⟨[_, _, _, _], rfl⟩, rfl, rfl, rfl⟩
          | create | delete => cases hfailure
      | @createError error =>
        obtain _ | message := error
        · cases call <;> cases hfailure
        · cases call with
          | create =>
            cases hfailure
            exact ⟨rfl, _, _, turn.stored, turn.first ⟨[_, _, _, _, _, _], rfl⟩, rfl, rfl, rfl⟩
          | observe | delete => cases hfailure

end ControlPlane
