import ControlPlane.Controller.AwaitPoints

/-!
# The discipline of the controller

The rely-guarantee discipline of `reconcile_once`: every state satisfies the invariant, the
others only outdate snapshots by deletion requests, and every effect is awaited at an await
point. An effect awaited there keeps the invariant.
-/

namespace ControlPlane

open Interaction

variable {σ : Type} {P : ProviderModel σ} {world world' : World σ} {log : Happened}

/-- An effect done and answered, or a storage call that failed. -/
def answered (P : ProviderModel σ) (world : World σ) (effect : Effect) (answer : Answer effect)
    (world' : World σ) : Prop :=
  World.exec P world effect answer world' ∨ World.fault world effect answer world'

/-- The discipline of the controller. -/
def discipline (P : ProviderModel σ) : Discipline Effect Answer (World σ) where
  exec := answered P
  inv world := world.database.Invariant
  rely world world' := world.database.Rely world'.database
  rely_refl world := Database.Rely.refl world.database
  rely_trans := Database.Rely.trans
  issue log world effect := AwaitPoint log world.database effect

/-! ## What an answered effect does to the database -/

theorem answered_commits {α : Type} {operation : Database → Except AppError (α × Database)}
    {answer : Except AppError α}
    (h : World.commits operation world answer world' ∨
      (∃ text, answer = .error (.internal text)) ∧ world' = world) :
    (∃ value, answer = .ok value ∧ operation world.database = .ok (value, world'.database)) ∨
      ∃ error, answer = .error error ∧ world'.database = world.database := by
  rcases h with ⟨hanswer, hworld⟩ | ⟨⟨text, htext⟩, rfl⟩
  · cases hoperation : operation world.database with
    | ok result =>
      left
      refine ⟨result.1, ?_, ?_⟩
      · rw [hanswer, Storage.run, hoperation]
      · rw [hworld, Storage.run, hoperation]
    | error error =>
      right
      refine ⟨error, ?_, ?_⟩
      · rw [hanswer, Storage.run, hoperation]
      · rw [hworld, Storage.run, hoperation]
  · exact .inr ⟨_, htext, rfl⟩

theorem answered_saveHost {record : HostRecord} {answer : Answer (.saveHost record)}
    (h : answered P world (.saveHost record) answer world') :
    (answer = .ok () ∧
      Storage.saveHost record world.database = .ok ((), world'.database)) ∨
      ∃ error, answer = .error error ∧ world'.database = world.database := by
  rcases answered_commits h with ⟨value, hvalue, hsave⟩ | h
  · exact .inl ⟨hvalue, hsave⟩
  · exact .inr h

theorem answered_saveClaimStatus {record : HostClaimRecord}
    {answer : Answer (.saveClaimStatus record)}
    (h : answered P world (.saveClaimStatus record) answer world') :
    (∃ saved, answer = .ok saved ∧
      Storage.saveClaimStatus record world.database = .ok (saved, world'.database)) ∨
      ∃ error, answer = .error error ∧ world'.database = world.database :=
  answered_commits h

theorem answered_finalizeClaim {claimId : HostClaimId} {answer : Answer (.finalizeClaim claimId)}
    (h : answered P world (.finalizeClaim claimId) answer world') :
    (answer = .ok () ∧
      Storage.finalizeClaim claimId world.database = .ok ((), world'.database)) ∨
      ∃ error, answer = .error error ∧ world'.database = world.database := by
  rcases answered_commits h with ⟨value, hvalue, hsave⟩ | h
  · exact .inl ⟨hvalue, hsave⟩
  · exact .inr h

theorem answered_ensureHost {claimId : HostClaimId} {planId : String} {resources : HostResources}
    {answer : Answer (.ensureHost claimId planId resources)}
    (h : answered P world (.ensureHost claimId planId resources) answer world') :
    (∃ host hostId now, answer = .ok host ∧ (∀ row ∈ world.database.hosts, row.id ≠ hostId) ∧
      Storage.ensureHost claimId planId resources hostId now world.database =
        .ok (host, world'.database)) ∨
      ∃ error, answer = .error error ∧ world'.database = world.database := by
  rcases h with ⟨hostId, now, hfresh, hcommits⟩ | hfault
  · rcases answered_commits (.inl hcommits) with ⟨host, hhost, hensure⟩ | h
    · exact .inl ⟨host, hostId, now, hhost, hfresh, hensure⟩
    · exact .inr h
  · obtain ⟨⟨text, htext⟩, rfl⟩ := hfault
    exact .inr ⟨_, htext, rfl⟩

theorem answered_listClaims {answer : Answer .listClaims}
    (h : answered P world .listClaims answer world') :
    world'.database = world.database ∧
      ∀ claims, answer = .ok claims → Storage.listClaims world.database = .ok claims := by
  rcases h with ⟨rfl, rfl⟩ | ⟨⟨text, rfl⟩, rfl⟩
  · exact ⟨rfl, fun _ => id⟩
  · exact ⟨rfl, fun _ h => by cases h⟩

theorem answered_getHost {hostId : HostId} {answer : Answer (.getHost hostId)}
    (h : answered P world (.getHost hostId) answer world') :
    world'.database = world.database ∧
      ∀ host, answer = .ok host → world.database.host? hostId = some host := by
  rcases h with ⟨rfl, rfl⟩ | ⟨⟨text, rfl⟩, rfl⟩
  · exact ⟨rfl, fun _ => Database.getHost_eq_ok.mp⟩
  · exact ⟨rfl, fun _ h => by cases h⟩

/-- The effects that leave the database alone. -/
def Effect.reads : Effect → Bool
  | .ensureHost _ _ _ | .saveHost _ | .saveClaimStatus _ | .finalizeClaim _ => false
  | _ => true

theorem answered_reads {effect : Effect} {answer : Answer effect} (hreads : effect.reads = true)
    (h : answered P world effect answer world') : world'.database = world.database := by
  cases effect with
  | ensureHost => cases hreads
  | saveHost => cases hreads
  | saveClaimStatus => cases hreads
  | finalizeClaim => cases hreads
  | listClaims => exact (answered_listClaims h).1
  | getHost => exact (answered_getHost h).1
  | nowUnixMs =>
    rcases h with ⟨-, rfl⟩ | hfault
    · rfl
    · cases hfault
  | nowTimestamp =>
    rcases h with rfl | hfault
    · rfl
    · cases hfault
  | wake =>
    rcases h with rfl | hfault
    · rfl
    · cases hfault
  | enterSpan =>
    rcases h with rfl | hfault
    · rfl
    · cases hfault
  | provider =>
    rcases h with ⟨_, -, rfl⟩ | hfault
    · rfl
    · cases hfault

/-! ## What an answered effect does to the provider -/

/-- An effect that is not a call leaves the provider alone. -/
theorem provider_of_other {effect : Effect} {answer : Answer effect}
    (hother : ∀ call, effect ≠ .provider call) (h : World.exec P world effect answer world') :
    world'.provider = world.provider := by
  cases effect with
  | provider call => exact absurd rfl (hother call)
  | nowUnixMs | listClaims | getHost => rw [h.2]
  | nowTimestamp | wake | enterSpan => rw [show world' = _ from h]
  | ensureHost =>
    obtain ⟨_, _, -, -, rfl⟩ := h
    rfl
  | saveHost | saveClaimStatus | finalizeClaim => rw [h.2]

/-- A storage call that failed changed nothing. -/
theorem fault_world {effect : Effect} {answer : Answer effect}
    (h : World.fault world effect answer world') : world' = world := by
  cases effect with
  | listClaims | getHost | ensureHost | saveHost | saveClaimStatus | finalizeClaim => exact h.2
  | nowUnixMs | nowTimestamp | wake | enterSpan | provider => cases h

/-! ## Await points keep the invariant -/

section Keeps

variable {nowMs : Int64} {claim : HostClaimRecord} {host stored : HostRecord} {db db' : Database}

/-- Saving the Host of a deleting claim. -/
theorem HostTurn.invariant_deleting {record : HostRecord}
    (turn : HostTurn nowMs claim host stored log db) (h : db.Invariant)
    (hdeleting : claim.resource.deletionTimestamp.isSome)
    (hkept : host.withStatus record = record) (htyped : record.Typed)
    (hsave : Storage.saveHost record db = .ok ((), db')) : db'.Invariant := by
  refine Database.invariant_saveHost h hsave htyped fun current claim' hcurrent hclaim hlive => ?_
  have hid : record.resource.id = host.resource.id := by
    rw [← hkept]
    rfl
  rw [hid, turn.stored] at hcurrent
  cases hcurrent
  have howner : stored.resource.claimId = claim.resource.id := by
    rw [← turn.kept]
    exact turn.owner
  rw [howner, turn.stored_of_deleting hdeleting] at hclaim
  cases hclaim
  rw [hlive] at hdeleting
  cases hdeleting

/-- Saving the Host of a live claim. -/
theorem HostTurn.invariant_live {record : HostRecord}
    (turn : HostTurn nowMs claim host stored log db) (h : db.Invariant)
    (hkept : host.withStatus record = record) (htyped : record.Typed)
    (hconsistent : stored.Consistent → record.Consistent)
    (hsave : Storage.saveHost record db = .ok ((), db')) : db'.Invariant := by
  refine Database.invariant_saveHost h hsave htyped fun current claim' hcurrent hclaim hlive => ?_
  have hid : record.resource.id = host.resource.id := by
    rw [← hkept]
    rfl
  rw [hid, turn.stored] at hcurrent
  cases hcurrent
  have hrecord : stored.withStatus record = record := by
    rw [← turn.kept]
    exact hkept
  rw [hrecord]
  exact hconsistent (h.consistent turn.stored hclaim hlive)

/-- The intent to create keeps readiness and phase in agreement. -/
theorem consistent_provisioningIntent (h : host.Consistent)
    (hphase : host.resource.status.phase = .pending) : (provisioningIntent host).Consistent := by
  have hnotReady : (provisioningIntent host).reports "Ready" ≠ some .true := by
    intro hready
    have hphase' := (h.ready.mp hready).1
    rw [hphase] at hphase'
    cases hphase'
  exact ⟨⟨fun hready => absurd hready hnotReady, fun hphase' => by cases hphase'.1⟩,
    fun hready => absurd hready hnotReady⟩

/-- Saving a claim status computed from the snapshot of a turn. -/
theorem Turn.invariant_saveClaimStatus {record : HostClaimRecord} {saved : Bool}
    (turn : Turn nowMs claim log db) (h : db.Invariant)
    (hkept : claim.withStatus record = record) (htruthful : record.Truthful)
    (hsave : Storage.saveClaimStatus record db = .ok (saved, db')) : db'.Invariant := by
  refine Database.invariant_saveClaimStatus h hsave fun current hcurrent hdeletion => ?_
  rw [turn.stored_eq hkept hcurrent hdeletion, hkept]
  exact htruthful

theorem truthful_publishing {updated : HostClaimRecord × HostRecord}
    (turn : HostTurn nowMs claim host stored log db)
    (hlive : claim.resource.deletionTimestamp = none)
    (hpublishes : Publishes claim host updated) : updated.1.Truthful := by
  apply truthful_of_publishes turn.truthful hpublishes
  · rw [turn.bound]
    rfl
  · rw [hlive]
    intro h
    cases h

/-- What an ownership conflict writes to a claim being deleted. -/
theorem truthful_deletionConflict {expected found : String} {now : Timestamp}
    (turn : HostTurn nowMs claim host stored log db)
    (hdeleting : claim.resource.deletionTimestamp.isSome) :
    (deletionConflict claim host expected found now).1.Truthful ∧
      (deletionConflict claim host expected found now).2.Typed := by
  have hpublishes := publishes_markHostFailed turn.truthful.typed turn.typed
    "ProviderOwnershipConflict" (ownershipConflictMessage expected found) now
  have hmem : "Ready" ∈ claimConditionTypes := by decide
  refine ⟨?_, hpublishes.hostTyped⟩
  apply truthful_of_publishes turn.truthful hpublishes
  · rw [turn.bound]
    rfl
  · intro _
    exact ⟨HostClaimRecord.reports_setCondition turn.truthful.typed hmem,
      (turn.truthful.deleting hdeleting).2⟩

/-- An effect awaited at an await point keeps the invariant. -/
theorem AwaitPoint.keeps {effect : Effect} {answer : Answer effect}
    (h : AwaitPoint log world.database effect) (hinv : world.database.Invariant)
    (hanswered : answered P world effect answer world') : world'.database.Invariant := by
  by_cases hreads : effect.reads = true
  · rw [answered_reads hreads hanswered]
    exact hinv
  cases h with
  | finalizeUnbound | finalizeAbsent =>
    rcases answered_finalizeClaim hanswered with ⟨-, hfinalize⟩ | ⟨_, -, hsame⟩
    · exact Database.invariant_finalizeClaim hinv hfinalize
    · rw [hsame]
      exact hinv
  | saveDeletionConflict turn hdeleting =>
    rcases answered_saveHost hanswered with ⟨-, hsave⟩ | ⟨_, -, hsame⟩
    · exact turn.invariant_deleting hinv hdeleting rfl (truthful_deletionConflict turn hdeleting).2
        hsave
    · rw [hsame]
      exact hinv
  | publishDeletionConflict turn hdeleting =>
    rcases answered_saveClaimStatus hanswered with ⟨saved, -, hsave⟩ | ⟨_, -, hsame⟩
    · exact turn.toTurn.invariant_saveClaimStatus hinv rfl
        (truthful_deletionConflict turn hdeleting).1 hsave
    · rw [hsame]
      exact hinv
  | saveDeletionIntent turn hdeleting =>
    rcases answered_saveHost hanswered with ⟨-, hsave⟩ | ⟨_, -, hsame⟩
    · exact turn.invariant_deleting hinv hdeleting rfl (by exact turn.typed) hsave
    · rw [hsame]
      exact hinv
  | saveDeleted turn hdeleting =>
    rcases answered_saveHost hanswered with ⟨-, hsave⟩ | ⟨_, -, hsame⟩
    · obtain ⟨retry, hretry⟩ := afterDelete_eq (deletionIntent _ _ _) _ _
      rw [hretry] at hsave
      exact turn.invariant_deleting hinv hdeleting rfl (by exact turn.typed) hsave
    · rw [hsame]
      exact hinv
  | saveRetryOnly turn hdeleting =>
    rcases answered_saveHost hanswered with ⟨-, hsave⟩ | ⟨_, -, hsame⟩
    · exact turn.invariant_deleting hinv hdeleting rfl (by exact turn.typed) hsave
    · rw [hsame]
      exact hinv
  | saveIntent turn _ _ hphase =>
    rcases answered_saveHost hanswered with ⟨-, hsave⟩ | ⟨_, -, hsame⟩
    · exact turn.invariant_live hinv rfl (by exact turn.typed)
        (fun hconsistent => consistent_provisioningIntent hconsistent hphase) hsave
    · rw [hsame]
      exact hinv
  | saveHost turn _ publishing =>
    have hpublishes := publishing.publishes turn.truthful.typed turn.typed
    rcases answered_saveHost hanswered with ⟨-, hsave⟩ | ⟨_, -, hsame⟩
    · exact turn.invariant_live hinv hpublishes.hostKept hpublishes.hostTyped
        (fun _ => hpublishes.consistent) hsave
    · rw [hsame]
      exact hinv
  | saveClaimStatus turn hlive publishing =>
    have hpublishes := publishing.publishes turn.truthful.typed turn.typed
    rcases answered_saveClaimStatus hanswered with ⟨saved, -, hsave⟩ | ⟨_, -, hsame⟩
    · exact turn.toTurn.invariant_saveClaimStatus hinv hpublishes.claimKept
        (truthful_publishing turn hlive hpublishes) hsave
    · rw [hsame]
      exact hinv
  | ensureHost turn =>
    rcases answered_ensureHost hanswered with ⟨_, _, _, -, -, hensure⟩ | ⟨_, -, hsame⟩
    · exact Database.invariant_ensureHost hinv hensure
    · rw [hsame]
      exact hinv
  | saveUnsatisfiable turn hlive hunbound =>
    rcases answered_saveClaimStatus hanswered with ⟨saved, -, hsave⟩ | ⟨_, -, hsame⟩
    · exact turn.invariant_saveClaimStatus hinv rfl
        (truthful_markUnsatisfiable turn.truthful hlive hunbound _).1 hsave
    · rw [hsame]
      exact hinv
  | saveProviderError turn hlive hunbound =>
    rcases answered_saveClaimStatus hanswered with ⟨saved, -, hsave⟩ | ⟨_, -, hsame⟩
    · exact turn.invariant_saveClaimStatus hinv (kept_scheduleClaimProviderError _ _ _ _)
        (truthful_scheduleClaimProviderError turn.truthful hlive hunbound _ _ _) hsave
    · rw [hsame]
      exact hinv
  | _ => exact absurd rfl hreads

end Keeps

end ControlPlane
