import ControlPlane.Controller.Discipline

/-!
# The walk through a pass

`reconcile_once` obeys the discipline: from any state that satisfies the invariant, whatever the
RPC handlers and the provider do along the way, every effect it comes to is at an await point.
One lemma for each method, and an induction for each of the two loops over the claims that are
still to be turned to.
-/

namespace ControlPlane

open Interaction

namespace Controller

variable {α β : Type}

/-! ## Methods as calls -/

theorem run_bind (first : Controller α) (next : α → Controller β) :
    (first >>= next).run = first.run >>= fun
      | .ok value => (next value).run
      | .error error => .done (.error error) := by
  change first.run >>= _ = _
  congr 1
  funext result
  cases result <;> rfl

theorem run_ask_bind (effect : Effect) (next : Answer effect → Controller α) :
    (ask effect >>= next).run = .call effect fun answer => (next answer).run := rfl

end Controller

open Controller

/-- The pass may turn to each of `rest`. -/
def Remaining (nowMs : Int64) (rest : List HostClaimRecord) (log : Happened) (db : Database) :
    Prop :=
  ∀ claim ∈ rest, Turn nowMs claim log db

/-- Two claims a pass turns to have different ids and different Hosts. -/
def Follows (claim other : HostClaimRecord) : Prop :=
  other.resource.id ≠ claim.resource.id ∧
    ∀ hostId, claim.resource.status.hostId = some hostId →
      other.resource.status.hostId ≠ some hostId

/-- The claims of `rest` and their Hosts are not those of `claim`. -/
def Apart (claim : HostClaimRecord) (rest : List HostClaimRecord) : Prop :=
  ∀ other ∈ rest, Follows claim other

section Remaining

variable {nowMs : Int64} {rest : List HostClaimRecord} {log : Happened} {db db' : Database}

theorem Remaining.rely (h : Remaining nowMs rest log db) (hrely : db.Rely db') :
    Remaining nowMs rest log db' :=
  fun claim hmem => (h claim hmem).rely hrely

theorem Turn.event {claim : HostClaimRecord} {event : Event Effect Answer}
    (turn : Turn nowMs claim log db)
    (hevent : ∀ hostId, claim.resource.status.hostId = some hostId →
      lookedAt event ≠ some hostId) : Turn nowMs claim (event :: log) db := by
  refine { turn with snapshot := ?_, unseen := ?_ }
  · obtain ⟨claims, hmem, hsuffix⟩ := turn.snapshot
    exact ⟨claims, hmem, hsuffix.trans (List.suffix_cons _ _)⟩
  · intro hostId hbound other hother
    rcases List.mem_cons.mp hother with rfl | hother
    · exact hevent hostId hbound
    · exact turn.unseen hostId hbound other hother

theorem Remaining.event {event : Event Effect Answer} (h : Remaining nowMs rest log db)
    (hevent : lookedAt event = none) : Remaining nowMs rest (event :: log) db := by
  intro claim hmem
  apply (h claim hmem).event
  intro hostId _
  rw [hevent]
  exact fun h => by cases h

/-- Looking at the Host of a claim that is not among the remaining ones. -/
theorem Remaining.looked {claim : HostClaimRecord} {hostId : HostId}
    {event : Event Effect Answer} (h : Remaining nowMs rest log db)
    (hapart : Apart claim rest) (hbound : claim.resource.status.hostId = some hostId)
    (hevent : lookedAt event = some hostId) : Remaining nowMs rest (event :: log) db := by
  intro other hmem
  apply (h other hmem).event
  intro hostId' hbound'
  rw [hevent]
  intro heq
  cases heq
  exact (hapart other hmem).2 hostId hbound hbound'

/-- What is stored for the remaining claims is untouched. -/
theorem Remaining.store (h : Remaining nowMs rest log db)
    (hsame : ∀ claim ∈ rest, db'.claim? claim.resource.id = db.claim? claim.resource.id) :
    Remaining nowMs rest log db' := by
  intro claim hmem
  refine { h claim hmem with fresh := ?_ }
  have hfresh := (h claim hmem).fresh
  unfold Database.Fresh at *
  rw [hsame claim hmem]
  exact hfresh

end Remaining

/-- How a save leaves a pass: quiet, and with the remaining claims still to be turned to. -/
def Saved {σ : Type} (nowMs : Int64) (rest : List HostClaimRecord) (result : Except AppError Unit)
    (log : Happened) (world : World σ) : Prop :=
  Quiet log ∧ (result = .ok () → Remaining nowMs rest log world.database)

/-- How a method leaves a pass: quiet, and with the remaining claims still to be turned to if it
    made no progress. -/
def Onward {σ : Type} (nowMs : Int64) (rest : List HostClaimRecord)
    (result : Except AppError ReconcileResult) (log : Happened) (world : World σ) : Prop :=
  Quiet log ∧ (result = .ok .idle → Remaining nowMs rest log world.database)

section Walk

variable {σ : Type} {P : ProviderModel σ} {nowMs : Int64} {rest : List HostClaimRecord}
  {claim : HostClaimRecord} {host stored : HostRecord} {log base : Happened} {world : World σ}

theorem safe_return {α : Type} {post : α → Happened → World σ → Prop} {value : α}
    (h : ∀ later, world.database.Rely later.database → post value log later) :
    Safe (discipline P) post (.done value) log world :=
  fun later _ hrely => h later hrely

theorem safe_progress (hquiet : Quiet log) :
    Safe (discipline P) (Onward nowMs rest) (.done (.ok .progress)) log world :=
  safe_return fun _ _ => ⟨hquiet, fun h => by cases h⟩

theorem safe_error (hquiet : Quiet log) (error : AppError) :
    Safe (discipline P) (Onward nowMs rest) (.done (.error error)) log world :=
  safe_return fun _ _ => ⟨hquiet, fun h => by cases h⟩

theorem safe_idle (hquiet : Quiet log) (hremaining : Remaining nowMs rest log world.database) :
    Safe (discipline P) (Onward nowMs rest) (.done (.ok .idle)) log world :=
  safe_return fun _ hrely => ⟨hquiet, fun _ => hremaining.rely hrely⟩

/-- The rule of sequencing, for methods. -/
theorem safe_bind {α β : Type} {between : Except AppError α → Happened → World σ → Prop}
    {post : Except AppError β → Happened → World σ → Prop} {first : Controller α}
    {next : α → Controller β} (hfirst : Safe (discipline P) between first.run log world)
    (hnext : ∀ value log' world', world'.database.Invariant → between (.ok value) log' world' →
      Safe (discipline P) post (next value).run log' world')
    (herror : ∀ error log' world', between (.error error) log' world' →
      ∀ later, post (.error error) log' later) :
    Safe (discipline P) post (first >>= next).run log world := by
  rw [run_bind]
  refine hfirst.bind fun result log' world' hinv hbetween => ?_
  cases result with
  | ok value => exact hnext value log' world' hinv hbetween
  | error error => exact fun later _ _ => herror error log' world' hbetween later

/-- Awaiting an effect. -/
theorem safe_ask {α : Type} {post : Except AppError α → Happened → World σ → Prop}
    {effect : Effect} {next : Answer effect → Controller α}
    (h : ∀ later, later.database.Invariant → world.database.Rely later.database →
      AwaitPoint log later.database effect ∧ ∀ answer world',
        answered P later effect answer world' →
          Safe (discipline P) post (next answer).run (⟨effect, answer⟩ :: log) world') :
    Safe (discipline P) post (ask effect >>= next).run log world := h

theorem safe_persistClaimStatus {record : HostClaimRecord}
    (hawait : ∀ later, world.database.Rely later →
      AwaitPoint log later (.saveClaimStatus record))
    (hremaining : Remaining nowMs rest log world.database)
    (hapart : ∀ other ∈ rest, other.resource.id ≠ record.resource.id) :
    Safe (discipline P) (Saved nowMs rest) (persistClaimStatus record).run log world := by
  intro later hinv hrely
  refine ⟨hawait later.database hrely, fun answer world' hanswered => ?_⟩
  have hlater := hremaining.rely hrely
  rcases answered_saveClaimStatus hanswered with ⟨saved, rfl, hsave⟩ | ⟨error, rfl, -⟩
  · have hafter : Remaining nowMs rest log world'.database := by
      apply hlater.store
      intro other hmem
      rcases Storage.saveClaimStatus_ok hinv.readable hsave with
        ⟨-, -, -, current, -, -, hclaim⟩ | ⟨-, hsame, -⟩
      · rw [hclaim, Function.update_of_ne (hapart other hmem)]
      · rw [hsame]
    have hsaved : Remaining nowMs rest (⟨.saveClaimStatus record, .ok saved⟩ :: log)
        world'.database := hafter.event rfl
    cases saved with
    | true => exact safe_return fun _ hrely => ⟨trivial, fun _ => hsaved.rely hrely⟩
    | false =>
      intro later' _ hrely'
      refine ⟨.wake trivial, fun _ world'' hwake => ?_⟩
      have hwoken : Remaining nowMs rest
          (⟨.wake, ()⟩ :: ⟨.saveClaimStatus record, .ok false⟩ :: log) world''.database := by
        rw [answered_reads rfl hwake]
        exact (hsaved.rely hrely').event rfl
      exact safe_return fun _ hrely'' => ⟨trivial, fun _ => hwoken.rely hrely''⟩
  · exact safe_return fun _ _ => ⟨trivial, fun h => by cases h⟩

theorem quiet_saveHost_error {record : HostRecord} {error : AppError} :
    Quiet (⟨.saveHost record, .error error⟩ :: log) := by
  cases log <;> trivial

/-- Saving the Host of a turn. -/
theorem safe_saveHost (record : HostRecord)
    (turn : HostTurn nowMs claim host stored base world.database)
    (hkept : host.withStatus record = record)
    (hawait : ∀ later, HostTurn nowMs claim host stored base later →
      AwaitPoint log later (.saveHost record))
    (hremaining : Remaining nowMs rest log world.database) :
    Safe (discipline P)
      (fun result log' world' =>
        (result = .ok () ∧ log' = ⟨.saveHost record, .ok ()⟩ :: log ∧
          HostTurn nowMs claim host record base world'.database ∧
          Remaining nowMs rest log' world'.database) ∨
        (∃ error, result = .error error) ∧ Quiet log')
      (saveHost record).run log world := by
  intro later hinv hrely
  have hturn := turn.rely hrely
  refine ⟨hawait later.database hturn, fun answer world' hanswered => ?_⟩
  rcases answered_saveHost hanswered with ⟨rfl, hsave⟩ | ⟨error, rfl, -⟩
  · obtain ⟨hsaved, hclaim⟩ := hturn.saved hkept hinv.readable hsave
    have hafter : Remaining nowMs rest (⟨.saveHost record, .ok ()⟩ :: log) world'.database :=
      ((hremaining.rely hrely).store fun other _ => by rw [hclaim]).event rfl
    exact safe_return fun _ hrely' => .inl ⟨rfl, rfl, hsaved.rely hrely', hafter.rely hrely'⟩
  · exact safe_return fun _ _ => .inr ⟨⟨error, rfl⟩, quiet_saveHost_error⟩

/-- Publishing a Host and its claim. -/
theorem safe_publish {updated : HostClaimRecord × HostRecord}
    (turn : HostTurn nowMs claim host stored base world.database)
    (hclaimKept : claim.withStatus updated.1 = updated.1)
    (hhostKept : host.withStatus updated.2 = updated.2)
    (hsave : ∀ later, HostTurn nowMs claim host stored base later →
      AwaitPoint log later (.saveHost updated.2))
    (hpersist : ∀ later, HostTurn nowMs claim host updated.2 base later →
      AwaitPoint (⟨.saveHost updated.2, .ok ()⟩ :: log) later (.saveClaimStatus updated.1))
    (hremaining : Remaining nowMs rest log world.database) (hapart : Apart claim rest) :
    Safe (discipline P) (Saved nowMs rest) (publish updated).run log world := by
  refine safe_bind (safe_saveHost updated.2 turn hhostKept hsave hremaining) ?_ ?_
  · rintro ⟨⟩ log' world' hinv (⟨-, rfl, hsaved, hafter⟩ | ⟨⟨error, herror⟩, -⟩)
    · refine safe_persistClaimStatus (fun later hrely => ?_) hafter fun other hmem => ?_
      · exact hpersist later (hsaved.rely hrely)
      · rw [← hclaimKept]
        exact (hapart other hmem).1
    · cases herror
  · rintro error log' world' (⟨herror, -⟩ | ⟨-, hquiet⟩) later
    · cases herror
    · exact ⟨hquiet, fun h => by cases h⟩

/-- Publishing and making progress. -/
theorem safe_publish_progress {updated : HostClaimRecord × HostRecord}
    (hpublish : Safe (discipline P) (Saved nowMs rest) (publish updated).run log world) :
    Safe (discipline P) (Onward nowMs rest)
      (publish updated >>= fun _ => pure ReconcileResult.progress).run log world := by
  refine safe_bind hpublish ?_ ?_
  · intro _ log' world' _ hsaved
    exact safe_progress hsaved.1
  · intro error log' world' hsaved later
    exact ⟨hsaved.1, fun h => by cases h⟩

/-- Reading the clock after a call of the provider, while something stands that the others leave
    as it is. -/
theorem safe_nowTimestamp {call : ProviderCall} {answer : Answer (.provider call)}
    {next : Timestamp → Controller ReconcileResult} {stands : Database → Prop}
    (hstands : ∀ later, world.database.Rely later → stands later)
    (hremaining : Remaining nowMs rest (⟨.provider call, answer⟩ :: log) world.database)
    (hnext : ∀ now world', stands world'.database →
      Remaining nowMs rest (⟨.nowTimestamp, now⟩ :: ⟨.provider call, answer⟩ :: log)
        world'.database →
      Safe (discipline P) (Onward nowMs rest) (next now).run
        (⟨.nowTimestamp, now⟩ :: ⟨.provider call, answer⟩ :: log) world') :
    Safe (discipline P) (Onward nowMs rest) (ask .nowTimestamp >>= next).run
      (⟨.provider call, answer⟩ :: log) world := by
  refine safe_ask fun later hinv hrely => ⟨.nowTimestamp trivial, fun now world' hanswered => ?_⟩
  have hsame := answered_reads rfl hanswered
  refine hnext now world' ?_ ?_
  · rw [hsame]
    exact hstands _ hrely
  · rw [hsame]
    exact (hremaining.rely hrely).event rfl

theorem safe_reconcileHost (turn : HostTurn nowMs claim host host log world.database)
    (hlive : claim.resource.deletionTimestamp = none)
    (hnotFailed : host.resource.status.phase ≠ .failed)
    (hremaining : Remaining nowMs rest (hostOpened claim host log) world.database)
    (hapart : Apart claim rest) :
    Safe (discipline P) (Onward nowMs rest) (reconcileHost claim host nowMs).run
      (hostOpened claim host log) world := by
  have hpublish : ∀ {now stored events updated} {world : World σ},
      Publishing claim host nowMs now (hostOpened claim host log) events stored updated →
      HostTurn nowMs claim host stored log world.database →
      Remaining nowMs rest (⟨.nowTimestamp, now⟩ :: events) world.database →
      Safe (discipline P) (Saved nowMs rest) (publish updated).run
        (⟨.nowTimestamp, now⟩ :: events) world := by
    intro now stored events updated world publishing hturn hrest
    have hpublishes := publishing.publishes turn.truthful.typed turn.typed
    exact safe_publish hturn hpublishes.claimKept hpublishes.hostKept
      (fun _ hlater => .saveHost hlater hlive publishing hnotFailed)
      (fun _ hlater => .saveClaimStatus hlater hlive publishing) hrest hapart
  unfold reconcileHost
  refine safe_ask fun later hinv hrely => ⟨.observe (turn.rely hrely) hlive, ?_⟩
  intro answer world' hanswered
  have hsame := answered_reads rfl hanswered
  have hturn : HostTurn nowMs claim host host log world'.database := by
    rw [hsame]
    exact turn.rely hrely
  have hrest : Remaining nowMs rest
      (⟨.provider (.observe host.resource.id), answer⟩ :: hostOpened claim host log)
      world'.database := by
    rw [hsame]
    exact (hremaining.rely hrely).looked hapart turn.bound rfl
  rcases answer with error | _ | resource
  · exact safe_nowTimestamp (fun _ => hturn.rely) hrest fun now _ hturn hrest =>
      safe_publish_progress (hpublish .observeError hturn hrest)
  · dsimp only
    split
    · rename_i hguard
      exact safe_nowTimestamp (fun _ => hturn.rely) hrest fun now _ hturn hrest =>
        safe_publish_progress (hpublish (.absent hguard) hturn hrest)
    · rename_i hguard
      simp only [ne_eq, not_or, not_not, Option.not_isSome_iff_eq_none] at hguard
      obtain ⟨hunrecorded, hpending⟩ := hguard
      refine safe_bind (safe_saveHost (provisioningIntent host) hturn rfl
        (fun _ hlater => .saveIntent hlater hlive hunrecorded hpending) hrest) ?_ ?_
      · rintro ⟨⟩ log' world' hinv (⟨-, rfl, hsaved, hafter⟩ | ⟨⟨error, herror⟩, -⟩)
        · refine safe_ask fun later hinv hrely => ⟨.create (hsaved.rely hrely) hlive hunrecorded
            hpending, ?_⟩
          intro created world'' hcreated
          have hsame := answered_reads rfl hcreated
          have hturn : HostTurn nowMs claim host (provisioningIntent host) log
              world''.database := by
            rw [hsame]
            exact hsaved.rely hrely
          have hrest : Remaining nowMs rest
              (⟨.provider (.create host.resource.id host.providerPlanId), created⟩ ::
                ⟨.saveHost (provisioningIntent host), .ok ()⟩ ::
                ⟨.provider (.observe host.resource.id), .ok .absent⟩ ::
                hostOpened claim host log) world''.database := by
            rw [hsame]
            exact (hafter.rely hrely).event rfl
          rcases created with error | resource | _
          · exact safe_nowTimestamp (fun _ => hturn.rely) hrest fun now _ hturn hrest =>
              safe_publish_progress (hpublish .createError hturn hrest)
          · exact safe_nowTimestamp (fun _ => hturn.rely) hrest fun now _ hturn hrest =>
              safe_publish_progress (hpublish .created hturn hrest)
          · exact safe_nowTimestamp (fun _ => hturn.rely) hrest fun now _ hturn hrest =>
              safe_publish_progress (hpublish .createUnknown hturn hrest)
        · cases herror
      · rintro error log' world' (⟨herror, -⟩ | ⟨-, hquiet⟩) later
        · cases herror
        · exact ⟨hquiet, fun h => by cases h⟩
  · dsimp only
    cases helsewhere : recordedElsewhere host resource with
    | some expected =>
      exact safe_nowTimestamp (fun _ => hturn.rely) hrest fun now _ hturn hrest =>
        safe_publish_progress (hpublish (.conflict helsewhere) hturn hrest)
    | none =>
      refine safe_nowTimestamp (fun _ => hturn.rely) hrest fun now _ hturn hrest => ?_
      refine safe_bind (hpublish (.observed helsewhere) hturn hrest) ?_ ?_
      · intro _ log' world' _ hsaved
        split
        · exact safe_idle hsaved.1 (hsaved.2 rfl)
        · exact safe_progress hsaved.1
      · intro error log' world' hsaved later
        exact ⟨hsaved.1, fun h => by cases h⟩

/-- A save that ends a method. -/
theorem safe_saveHost_progress {record : HostRecord} {event : Event Effect Answer}
    (turn : HostTurn nowMs claim host stored base world.database)
    (hkept : host.withStatus record = record)
    (hawait : ∀ later, HostTurn nowMs claim host stored base later →
      AwaitPoint (event :: log) later (.saveHost record))
    (hevent : ∀ now, event ≠ ⟨.nowTimestamp, now⟩)
    (hremaining : Remaining nowMs rest (event :: log) world.database) :
    Safe (discipline P) (Onward nowMs rest)
      (saveHost record >>= fun _ => pure ReconcileResult.progress).run (event :: log) world := by
  have hquiet : Quiet (⟨.saveHost record, .ok ()⟩ :: event :: log) := by
    obtain ⟨effect, answer⟩ := event
    cases effect with
    | nowTimestamp => exact absurd rfl (hevent answer)
    | _ => trivial
  refine safe_bind (safe_saveHost record turn hkept hawait hremaining) ?_ ?_
  · rintro ⟨⟩ log' world' hinv (⟨-, rfl, -⟩ | ⟨⟨error, herror⟩, -⟩)
    · exact safe_progress hquiet
    · cases herror
  · rintro error log' world' (⟨herror, -⟩ | ⟨-, hquiet'⟩) later
    · cases herror
    · exact ⟨hquiet', fun h => by cases h⟩

/-- Finalizing a claim. -/
theorem safe_finalizeClaim {claimId : HostClaimId}
    (hawait : ∀ later, world.database.Rely later →
      AwaitPoint log later (.finalizeClaim claimId)) :
    Safe (discipline P) (Onward nowMs rest)
      (finalizeClaim claimId >>= fun _ => pure ReconcileResult.progress).run log world := by
  intro later hinv hrely
  refine ⟨hawait later.database hrely, fun answer world' _ => ?_⟩
  cases answer with
  | ok value =>
    apply safe_progress
    trivial
  | error error =>
    apply safe_error
    trivial

/-- Reading the Host of a claim that is still as the pass read it. -/
theorem safe_getHost {after : List HostClaimRecord} {hostId : HostId}
    {next : HostRecord → Controller ReconcileResult} (turn : Turn nowMs claim base world.database)
    (hbound : claim.resource.status.hostId = some hostId)
    (hawait : ∀ later, world.database.Rely later → AwaitPoint log later (.getHost hostId))
    (hremaining : Remaining nowMs rest log world.database) (hapart : Apart claim rest)
    (hnext : ∀ host world', world'.database.Invariant → host.resource.id = hostId →
      host.resource.claimId = claim.resource.id → host.Typed →
      world'.database.host? hostId = some host → Turn nowMs claim base world'.database →
      Remaining nowMs rest (⟨.getHost hostId, .ok host⟩ :: log) world'.database →
      Safe (discipline P) (Onward nowMs after) (next host).run
        (⟨.getHost hostId, .ok host⟩ :: log) world') :
    Safe (discipline P) (Onward nowMs after) (getHost hostId >>= next).run log world := by
  intro later hinv hrely
  refine ⟨hawait later.database hrely, fun answer world' hanswered => ?_⟩
  obtain ⟨hsame, hread⟩ := answered_getHost hanswered
  cases answer with
  | error error =>
    apply safe_error
    trivial
  | ok host =>
    have hhost := hread host rfl
    have hturn := turn.rely hrely
    obtain ⟨current, hcurrent, hcurrentHost⟩ := hturn.fresh.isSome
    rw [hbound] at hcurrentHost
    obtain ⟨host', hhost', howner⟩ :=
      (Database.claim?_hostId hinv.readable hcurrent).mp hcurrentHost
    rw [hhost] at hhost'
    cases hhost'
    refine hnext host world' ?_ (Database.host?_id hhost) howner (hinv.hosts hhost) ?_ ?_ ?_
    · rw [hsame]
      exact hinv
    · rw [hsame]
      exact hhost
    · rw [hsame]
      exact hturn
    · rw [hsame]
      exact (hremaining.rely hrely).looked hapart hbound rfl

theorem safe_reconcileDeletingClaim (turn : Turn nowMs claim log world.database)
    (hdeleting : claim.resource.deletionTimestamp.isSome)
    (hremaining : Remaining nowMs rest
      (⟨.enterSpan (.reconcileHostClaimDeletion claim.resource.id), ()⟩ :: log) world.database)
    (hapart : Apart claim rest) :
    Safe (discipline P) (Onward nowMs rest) (reconcileDeletingClaim claim nowMs).run
      (⟨.enterSpan (.reconcileHostClaimDeletion claim.resource.id), ()⟩ :: log) world := by
  unfold reconcileDeletingClaim
  cases hbound : claim.resource.status.hostId with
  | none =>
    exact safe_finalizeClaim fun _ hrely => .finalizeUnbound (turn.rely hrely) hdeleting hbound
  | some hostId =>
    refine safe_getHost turn hbound (fun _ hrely => .readDeletingHost (turn.rely hrely) hdeleting
      hbound) hremaining hapart ?_
    rintro host world' hinv rfl howner htyped hhost turn hremaining
    split
    · apply safe_idle
      · trivial
      · exact hremaining
    rename_i hdue
    have hturn : HostTurn nowMs claim host host log world'.database :=
      { turn with
        due := by simpa using hdue
        bound := hbound
        owner := howner
        typed := htyped
        kept := rfl
        stored := hhost }
    refine safe_ask fun later hinv hrely => ⟨.observeDeleting (hturn.rely hrely) hdeleting, ?_⟩
    intro answer world'' hanswered
    have hsame := answered_reads rfl hanswered
    have hturn : HostTurn nowMs claim host host log world''.database := by
      rw [hsame]
      exact hturn.rely hrely
    have hrest : Remaining nowMs rest
        (⟨.provider (.observe host.resource.id), answer⟩ :: deletionOpened claim host log)
        world''.database := by
      rw [hsame]
      exact (hremaining.rely hrely).looked hapart hbound rfl
    rcases answer with error | _ | resource
    · exact safe_saveHost_progress hturn rfl
        (fun _ hlater => .saveRetryOnly hlater hdeleting) (fun _ => by simp) hrest
    · exact safe_finalizeClaim fun _ hrely => .finalizeAbsent (hturn.rely hrely) hdeleting
    · dsimp only
      cases helsewhere : recordedElsewhere host resource with
      | some expected =>
        refine safe_nowTimestamp (fun _ => hturn.rely) hrest fun now _ hturn hrest => ?_
        have hconflict : claim.withStatus (deletionConflict claim host expected resource.id now).1
            = (deletionConflict claim host expected resource.id now).1 := rfl
        exact safe_publish_progress (safe_publish hturn hconflict rfl
          (fun _ hlater => .saveDeletionConflict hlater hdeleting helsewhere)
          (fun _ hlater => .publishDeletionConflict hlater hdeleting helsewhere) hrest hapart)
      | none =>
        refine safe_nowTimestamp (fun _ => hturn.rely) hrest fun now _ hturn hrest => ?_
        refine safe_bind (safe_saveHost (deletionIntent host resource now) hturn rfl
          (fun _ hlater => .saveDeletionIntent hlater hdeleting helsewhere) hrest) ?_ ?_
        · rintro ⟨⟩ log' world' hinv (⟨-, rfl, hsaved, hafter⟩ | ⟨⟨error, herror⟩, -⟩)
          · refine safe_ask fun later hinv hrely => ⟨.delete (hsaved.rely hrely) hdeleting
              helsewhere, ?_⟩
            intro deleted world'' hdeleted
            have hsame := answered_reads rfl hdeleted
            have hturn : HostTurn nowMs claim host (deletionIntent host resource now) log
                world''.database := by
              rw [hsame]
              exact hsaved.rely hrely
            have hkept : host.withStatus
                (afterDelete (deletionIntent host resource now) nowMs deleted) =
                afterDelete (deletionIntent host resource now) nowMs deleted := by
              obtain ⟨retry, hretry⟩ := afterDelete_eq (deletionIntent host resource now) nowMs
                deleted
              rw [hretry]
              rfl
            refine safe_saveHost_progress hturn hkept
              (fun _ hlater => .saveDeleted hlater hdeleting helsewhere) (fun _ => by simp) ?_
            rw [hsame]
            exact (hafter.rely hrely).event rfl
          · cases herror
        · rintro error log' world' (⟨herror, -⟩ | ⟨-, hquiet⟩) later
          · cases herror
          · exact ⟨hquiet, fun h => by cases h⟩

/-- Saving the status of a claim without a Host, and making progress. -/
theorem safe_persistClaimStatus_progress {record : HostClaimRecord}
    (hawait : ∀ later, world.database.Rely later →
      AwaitPoint log later (.saveClaimStatus record))
    (hremaining : Remaining nowMs rest log world.database)
    (hapart : ∀ other ∈ rest, other.resource.id ≠ record.resource.id) :
    Safe (discipline P) (Onward nowMs rest)
      (persistClaimStatus record >>= fun _ => pure ReconcileResult.progress).run log world := by
  refine safe_bind (safe_persistClaimStatus hawait hremaining hapart) ?_ ?_
  · intro _ log' world' _ hsaved
    exact safe_progress hsaved.1
  · intro error log' world' hsaved later
    exact ⟨hsaved.1, fun h => by cases h⟩

theorem safe_reconcileUnboundClaim (turn : Turn nowMs claim log world.database)
    (hlive : claim.resource.deletionTimestamp = none)
    (hunbound : claim.resource.status.hostId = none)
    (hremaining : Remaining nowMs rest (claimOpened claim log) world.database)
    (hapart : Apart claim rest) :
    Safe (discipline P) (Onward nowMs rest) (reconcileUnboundClaim claim nowMs).run
      (claimOpened claim log) world := by
  unfold reconcileUnboundClaim
  refine safe_ask fun later hinv hrely => ⟨.selectPlan (turn.rely hrely) hlive hunbound, ?_⟩
  intro answer world' hanswered
  have hsame := answered_reads rfl hanswered
  have hturn : Turn nowMs claim log world'.database := by
    rw [hsame]
    exact turn.rely hrely
  have hrest : Remaining nowMs rest
      (⟨.provider (.selectPlan claim.resource.spec.resources), answer⟩ :: claimOpened claim log)
      world'.database := by
    rw [hsame]
    exact (hremaining.rely hrely).event rfl
  rcases answer with error | _ | plan
  · refine safe_nowTimestamp (fun _ => hturn.rely) hrest fun now _ hturn hrest => ?_
    refine safe_persistClaimStatus_progress
      (fun _ hrely => .saveProviderError (hturn.rely hrely) hlive hunbound) hrest ?_
    intro other hmem
    rw [← kept_scheduleClaimProviderError]
    exact (hapart other hmem).1
  · refine safe_nowTimestamp (fun _ => hturn.rely) hrest fun now _ hturn hrest => ?_
    dsimp only
    split
    · exact safe_persistClaimStatus_progress
        (fun _ hrely => .saveUnsatisfiable (hturn.rely hrely) hlive hunbound) hrest
        fun other hmem => (hapart other hmem).1
    · apply safe_idle
      · trivial
      · exact hrest
  · refine safe_ask fun later hinv hrely => ⟨.ensureHost (hturn.rely hrely) hlive hunbound, ?_⟩
    intro answer world'' hanswered
    rcases answered_ensureHost hanswered with ⟨host, _, _, rfl, -⟩ | ⟨error, rfl, hsame⟩
    · apply safe_progress
      trivial
    · have hrest : Remaining nowMs rest
          (⟨.ensureHost claim.resource.id plan.id plan.resources, .error error⟩ ::
            ⟨.provider (.selectPlan claim.resource.spec.resources), .ok (some plan)⟩ ::
            claimOpened claim log) world''.database := by
        rw [hsame]
        exact (hrest.rely hrely).event rfl
      cases error with
      | conflict | notFound =>
        refine safe_ask fun later hinv hrely => ⟨.wake trivial, fun answer world' hwake => ?_⟩
        apply safe_idle
        · trivial
        · rw [answered_reads rfl hwake]
          exact (hrest.rely hrely).event rfl
      | invalidArgument | internal =>
        apply safe_error
        trivial

/-! ## The loops -/

theorem safe_reconcileDeletions (claims : List HostClaimRecord) {log : Happened}
    {world : World σ} (hquiet : Quiet log)
    (hremaining : Remaining nowMs (claims ++ rest) log world.database)
    (hfollows : (claims ++ rest).Pairwise Follows)
    (hdeleting : ∀ claim ∈ claims, claim.resource.deletionTimestamp.isSome) :
    Safe (discipline P) (Onward nowMs rest) (reconcileDeletions nowMs claims).run log world := by
  induction claims generalizing log world with
  | nil => exact safe_idle hquiet hremaining
  | cons claim claims ih =>
    obtain ⟨hapart, hfollows⟩ := List.pairwise_cons.mp hfollows
    have hclaim := hdeleting claim List.mem_cons_self
    have hturn := hremaining claim List.mem_cons_self
    have hothers : Remaining nowMs (claims ++ rest) log world.database :=
      fun other hmem => hremaining other (List.mem_cons_of_mem _ hmem)
    refine safe_ask fun later hinv hrely => ⟨.enterDeletion (hturn.rely hrely) hquiet hclaim, ?_⟩
    intro answer world' hanswered
    have hsame := answered_reads rfl hanswered
    have hstep : Safe (discipline P) (Onward nowMs (claims ++ rest))
        (reconcileDeletingClaim claim nowMs).run
        (⟨.enterSpan (.reconcileHostClaimDeletion claim.resource.id), answer⟩ :: log) world' := by
      apply safe_reconcileDeletingClaim _ hclaim _ hapart
      · rw [hsame]
        exact hturn.rely hrely
      · rw [hsame]
        exact (hothers.rely hrely).event rfl
    refine safe_bind hstep ?_ ?_
    · intro result log' world'' _ honward
      cases result with
      | progress => exact safe_progress honward.1
      | idle =>
        exact ih honward.1 (honward.2 rfl) hfollows
          fun other hmem => hdeleting other (List.mem_cons_of_mem _ hmem)
    · intro error log' world'' honward later
      exact ⟨honward.1, fun h => by cases h⟩

theorem safe_reconcileClaims (claims : List HostClaimRecord) {log : Happened} {world : World σ}
    (hquiet : Quiet log) (hremaining : Remaining nowMs claims log world.database)
    (hfollows : claims.Pairwise Follows)
    (hlive : ∀ claim ∈ claims, claim.resource.deletionTimestamp = none) :
    Safe (discipline P) (Onward nowMs []) (reconcileClaims nowMs claims).run log world := by
  induction claims generalizing log world with
  | nil => exact safe_idle hquiet hremaining
  | cons claim claims ih =>
    obtain ⟨hapart, hfollows⟩ := List.pairwise_cons.mp hfollows
    have hclaim := hlive claim List.mem_cons_self
    have hturn := hremaining claim List.mem_cons_self
    have hothers : Remaining nowMs claims log world.database :=
      fun other hmem => hremaining other (List.mem_cons_of_mem _ hmem)
    have hlives : ∀ other ∈ claims, other.resource.deletionTimestamp = none :=
      fun other hmem => hlive other (List.mem_cons_of_mem _ hmem)
    have hnext : ∀ {step : Controller ReconcileResult} {log' : Happened} {world' : World σ},
        Safe (discipline P) (Onward nowMs claims) step.run log' world' →
        Safe (discipline P) (Onward nowMs [])
          (step >>= thenTurns (reconcileClaims nowMs claims)).run log' world' := by
      intro step log' world' hstep
      refine safe_bind hstep ?_ ?_
      · intro result log'' world'' _ honward
        cases result with
        | progress => exact safe_progress honward.1
        | idle => exact ih honward.1 (honward.2 rfl) hfollows hlives
      · intro error log'' world'' honward later
        exact ⟨honward.1, fun h => by cases h⟩
    unfold reconcileClaims
    cases hbound : claim.resource.status.hostId with
    | some hostId =>
      refine safe_getHost hturn hbound
        (fun _ hrely => .readHost (hturn.rely hrely) hquiet hclaim hbound) hothers hapart ?_
      rintro host world' hinv rfl howner htyped hhost hturn hothers
      split
      · refine ih ?_ hothers hfollows hlives
        trivial
      rename_i hdue
      simp only [Bool.not_eq_true', not_or, Bool.not_eq_false] at hdue
      have hturn : HostTurn nowMs claim host host log world'.database :=
        { hturn with
          due := hdue.1
          bound := hbound
          owner := howner
          typed := htyped
          kept := rfl
          stored := hhost }
      refine safe_ask fun later hinv hrely => ⟨.enterHost (hturn.rely hrely) hclaim, ?_⟩
      intro answer world'' hanswered
      have hsame := answered_reads rfl hanswered
      apply hnext
      apply safe_reconcileHost _ hclaim hdue.2 _ hapart
      · rw [hsame]
        exact hturn.rely hrely
      · have hentered := hothers.rely hrely
        rw [← hsame] at hentered
        exact hentered.event rfl
    | none =>
      dsimp only
      split
      · exact ih hquiet hothers hfollows hlives
      refine safe_ask fun later hinv hrely =>
        ⟨.enterClaim (hturn.rely hrely) hquiet hclaim hbound, ?_⟩
      intro answer world' hanswered
      have hsame := answered_reads rfl hanswered
      apply hnext
      apply safe_reconcileUnboundClaim _ hclaim hbound _ hapart
      · rw [hsame]
        exact hturn.rely hrely
      · rw [hsame]
        exact (hothers.rely hrely).event rfl

/-- Two different stored claims follow each other in any order. -/
theorem follows_of_stored {db : Database} {claim other : HostClaimRecord}
    (hclaim : db.claim? claim.resource.id = some claim)
    (hother : db.claim? other.resource.id = some other)
    (hne : claim.resource.id ≠ other.resource.id) : Follows claim other := by
  refine ⟨hne.symm, fun hostId hbound hbound' => hne ?_⟩
  obtain ⟨row, hmem, howner, hid⟩ := (Database.claim?_hostId_row hclaim).mp hbound
  obtain ⟨row', hmem', howner', hid'⟩ := (Database.claim?_hostId_row hother).mp hbound'
  have hsame : row = row' :=
    List.inj_on_of_nodup_map db.schema.hostIds hmem hmem' (hid.trans hid'.symm)
  rw [← howner, ← howner', hsame]

/-- The order in which a pass turns to the claims it has listed. -/
theorem pairwise_follows {db : Database} {claims : List HostClaimRecord}
    (hlisted : Storage.listClaims db = .ok claims) :
    (dueDeletions nowMs claims ++ liveClaims claims).Pairwise Follows := by
  obtain ⟨hnodup, hstored⟩ := Database.listClaims_ok hlisted
  have hpairwise : claims.Pairwise Follows := by
    refine (List.pairwise_map.mp hnodup).imp_of_mem fun hmem hmem' hne => ?_
    exact follows_of_stored ((hstored _).mp hmem) ((hstored _).mp hmem') hne
  refine List.pairwise_append.mpr ⟨hpairwise.filter _, hpairwise.filter _, ?_⟩
  intro claim hclaim other hother
  obtain ⟨hmem, hdeleting⟩ := List.mem_filter.mp hclaim
  obtain ⟨hmem', hlive⟩ := List.mem_filter.mp hother
  refine follows_of_stored ((hstored _).mp hmem) ((hstored _).mp hmem') fun heq => ?_
  have hsame : claim = other := by
    have hclaim := (hstored _).mp hmem
    rw [heq, (hstored _).mp hmem'] at hclaim
    exact (Option.some_inj.mp hclaim).symm
  rw [hsame] at hdeleting
  cases hdeletion : other.resource.deletionTimestamp <;> simp [hdeletion] at hdeleting hlive

/-- The pass may turn to every claim it has just listed. -/
theorem turn_of_listed {db : Database} {claims : List HostClaimRecord} (hinv : db.Invariant)
    (hlisted : Storage.listClaims db = .ok claims) (hmem : claim ∈ claims) :
    Turn nowMs claim [⟨.listClaims, .ok claims⟩, ⟨.nowUnixMs, nowMs⟩] db := by
  have hstored := ((Database.listClaims_ok hlisted).2 claim).mp hmem
  refine ⟨⟨claims, hmem, List.suffix_refl _⟩, fun hostId _ event hevent => ?_,
    hinv.claims hstored, .inl hstored⟩
  rcases List.mem_pair.mp hevent with rfl | rfl <;> exact fun h => by cases h

/-- A pass obeys the discipline, and ends quietly. -/
theorem safe_reconcileOnce (world : World σ) :
    Safe (discipline P) (fun _ log _ => Quiet log) reconcileOnce [] world := by
  refine safe_ask fun later hinv hrely => ⟨.nowUnixMs, fun nowMs world' _ => ?_⟩
  intro later hinv hrely
  refine ⟨.listClaims, fun answer world' hanswered => ?_⟩
  obtain ⟨hsame, hlisted⟩ := answered_listClaims hanswered
  cases answer with
  | error error => exact safe_return fun _ _ => trivial
  | ok claims =>
    have hlisted := hlisted claims rfl
    have hturn : ∀ claim ∈ claims,
        Turn nowMs claim [⟨.listClaims, .ok claims⟩, ⟨.nowUnixMs, nowMs⟩] world'.database := by
      intro claim hmem
      rw [hsame]
      exact turn_of_listed hinv hlisted hmem
    have hfollows : (dueDeletions nowMs claims ++ liveClaims claims).Pairwise Follows :=
      pairwise_follows hlisted
    have hdeletions : Safe (discipline P) (Onward nowMs (liveClaims claims))
        (reconcileDeletions nowMs (dueDeletions nowMs claims)).run
        [⟨.listClaims, .ok claims⟩, ⟨.nowUnixMs, nowMs⟩] world' := by
      refine safe_reconcileDeletions _ trivial (fun claim hmem => ?_) hfollows fun claim hmem => ?_
      · rcases List.mem_append.mp hmem with hmem | hmem
        · exact hturn claim (List.mem_filter.mp hmem).1
        · exact hturn claim (List.mem_filter.mp hmem).1
      · have hfilter := (List.mem_filter.mp hmem).2
        rw [Bool.and_eq_true] at hfilter
        exact hfilter.1
    refine safe_bind hdeletions ?_ ?_
    · intro result log' world'' _ honward
      cases result with
      | progress => exact safe_return fun _ _ => honward.1
      | idle =>
        refine (safe_reconcileClaims (liveClaims claims) honward.1 (honward.2 rfl)
          (List.pairwise_append.mp hfollows).2.1 ?_).weaken fun _ _ _ _ hend => hend.1
        intro claim hmem
        simpa using (List.mem_filter.mp hmem).2
    · intro error log' world'' honward later
      exact honward.1

/-- The daemon obeys the discipline. -/
theorem daemon_obeys (P : ProviderModel σ) :
    System.Obeys (daemon P) reconcileOnce (discipline P) (fun _ log _ => Quiet log) where
  exec _ _ _ _ := Iff.rfl
  interfere world world' hinv hother := by
    cases hother with
    | createClaim id spec now => exact Database.invariant_createClaim hinv id spec now
    | markClaimDeleting id now => exact Database.invariant_markClaimDeleting hinv id now
    | wake => exact ⟨hinv, Database.Rely.refl _⟩
    | drift => exact ⟨hinv, Database.Rely.refl _⟩
  keep _ _ _ _ _ hinv hissue hanswered := hissue.keeps hinv hanswered
  crash world pending world' hinv hcrash := by
    obtain ⟨provider, -, rfl⟩ := hcrash
    exact hinv
  main world _ := safe_reconcileOnce world

/-- What holds of every state of the running daemon: the invariant of the stored state, and that
    the pass in progress, if any, only comes to await points. -/
theorem Reachable.sound {allowed : Daemon σ → Label → Daemon σ → Prop} {provider : σ}
    {c : Daemon σ} (h : Reachable P allowed provider c) :
    System.Sound (discipline P) (fun _ log _ => Quiet log) c := by
  have hinv : (discipline P).inv (World.initial provider) := Database.invariant_empty
  exact System.Reach.sound (daemon_obeys P) hinv h

/-- A step of the daemon: either the stored records change, if at all, as others may change
    them, or an effect awaited at an await point is answered. -/
theorem step_cases {c c' : Daemon σ} {label : Label}
    (sound : System.Sound (discipline P) (fun _ log _ => Quiet log) c)
    (hstep : (daemon P).Step reconcileOnce c label c') :
    c.world.database.Rely c'.world.database ∨
      ∃ effect answer, c.pending = some effect ∧ AwaitPoint c.log c.world.database effect ∧
        answered P c.world effect answer c'.world ∧ c'.log = ⟨effect, answer⟩ :: c.log := by
  cases hstep with
  | interfere hother => exact .inl ((daemon_obeys P).interfere _ _ sound.inv hother).2
  | start => exact .inl (Database.Rely.refl _)
  | finish => exact .inl (Database.Rely.refl _)
  | crash hcrash =>
    obtain ⟨provider, -, rfl⟩ := hcrash
    exact .inl (Database.Rely.refl _)
  | perform hexec => exact .inr ⟨_, _, rfl, sound.issue rfl, .inl hexec, rfl⟩
  | fault hfault => exact .inr ⟨_, _, rfl, sound.issue rfl, .inr hfault, rfl⟩

end Walk

end ControlPlane
