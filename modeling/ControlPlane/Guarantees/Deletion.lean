import ControlPlane.Controller.Changes
import ControlPlane.Controller.Scenario

/-!
# A deletion request is never lost

Once `mark_claim_deleting` has committed, the timestamp it stored stays until the row is removed,
and no status computed from an older snapshot reaches the row: `save_claim_status` compares
deletion timestamps, and a pass lists a claim as being deleted only after the request.
-/

namespace ControlPlane

open Interaction

variable {σ : Type} {P : ProviderModel σ} {provider : σ} {c c' : Daemon σ} {label : Label}

/-- What a claim row says from the deletion request on, and that the first loop of a pass goes
    through it. -/
structure DeletionRecorded (db : Database) (id : HostClaimId) (requestedAt : Timestamp) :
    Prop where
  readable : db.Readable
  recorded : ∀ {claim}, db.claim? id = some claim →
    claim.resource.deletionTimestamp = some requestedAt ∧
      claim.reports "Ready" = some .false ∧ claim.retry.nextReconcileAtUnixMs = none
  listed : ∀ {claim nowMs claims}, db.claim? id = some claim →
    Storage.listClaims db = .ok claims → claim ∈ Controller.dueDeletions nowMs claims

/-- How a step may treat a claim being deleted: leave it, write a status computed from a snapshot
    that has the request, or remove it once its Host is gone. -/
inductive DeletingStep (c : Daemon σ) (before : HostClaimRecord) :
    Option HostClaimRecord → Prop where
  | kept : DeletingStep c before (some before)
  | written {record claims snapshot} : c.pending = some (.saveClaimStatus record) →
      ⟨.listClaims, .ok claims⟩ ∈ c.log → snapshot ∈ claims →
      snapshot.resource.id = before.resource.id →
      snapshot.resource.deletionTimestamp = before.resource.deletionTimestamp →
      snapshot.withStatus record = record →
      DeletingStep c before (some (before.withStatus record))
  | removed : c.pending = some (.finalizeClaim before.resource.id) → DeletingStep c before none

/-- Every step of the daemon treats a claim being deleted in one of these ways. -/
theorem deletingStep_of_change {before : HostClaimRecord} {after : Option HostClaimRecord}
    (h : ClaimChange c before after) (hdeleting : before.resource.deletionTimestamp.isSome) :
    DeletingStep c before after := by
  have hnotLive : before.resource.deletionTimestamp ≠ none :=
    Option.isSome_iff_ne_none.mp hdeleting
  cases h with
  | kept => exact .kept
  | requested hlive => exact absurd hlive hnotLive
  | assigned hlive => exact absurd hlive hnotLive
  | written hpending hid hdeletion hawait =>
    obtain ⟨nowMs, snapshot, base, turn, hsuffix, hkept⟩ := hawait.saveClaimStatus_turn
    obtain ⟨claims, hmem, hlisted⟩ := turn.snapshot
    rw [← hkept] at hid hdeletion
    exact .written hpending ((hlisted.trans hsuffix).subset List.mem_cons_self) hmem hid.symm
      hdeletion.symm hkept
  | removed hpending => exact .removed hpending

/-- What is recorded from the moment `mark_claim_deleting` returns. -/
theorem deletionRecorded_of_invariant {db : Database} {id : HostClaimId} {requestedAt : Timestamp}
    (hinv : db.Invariant)
    (hrecorded : ∀ claim, db.claim? id = some claim →
      claim.resource.deletionTimestamp = some requestedAt) :
    DeletionRecorded db id requestedAt := by
  have htruthful : ∀ {claim}, db.claim? id = some claim →
      claim.resource.deletionTimestamp = some requestedAt ∧
        claim.reports "Ready" = some .false ∧ claim.retry.nextReconcileAtUnixMs = none := by
    intro claim hclaim
    have hdeletion := hrecorded claim hclaim
    exact ⟨hdeletion, (hinv.claims hclaim).deleting (by rw [hdeletion]; rfl)⟩
  refine ⟨hinv.readable, htruthful, fun {claim nowMs claims} hclaim hlisted => ?_⟩
  obtain ⟨hdeletion, -, hretry⟩ := htruthful hclaim
  have hid := Database.claim?_id hclaim
  refine List.mem_filter.mpr ⟨((Database.listClaims_ok hlisted).2 claim).mpr ?_, ?_⟩
  · rw [hid, hclaim]
  · simp [hdeletion, RetryState.isDue, hretry]

/-- What `mark_claim_deleting` returns is what it leaves stored. -/
theorem markClaimDeleting_stored {db db' : Database} {id : HostClaimId} {now : Timestamp}
    {claim : HostClaim} (hinv : db.Invariant)
    (hmark : Storage.markClaimDeleting id now db = .ok (claim, db')) :
    ∃ stored requestedAt, db'.claim? id = some stored ∧ stored.resource = claim ∧
      claim.deletionTimestamp = some requestedAt := by
  obtain ⟨stored, hstored, hcases⟩ := Storage.markClaimDeleting_ok hinv.readable hmark
  rcases hcases with ⟨hdeleting, rfl, rfl⟩ | ⟨-, rfl, -, -, hclaim⟩
  · obtain ⟨requestedAt, hrequestedAt⟩ := Option.isSome_iff_exists.mp hdeleting
    exact ⟨stored, requestedAt, hstored, rfl, hrequestedAt⟩
  · exact ⟨_, now, by rw [hclaim, Function.update_self], rfl, rfl⟩

/-- A run of the daemon that never removes a deleting claim keeps its deletion timestamp. -/
theorem deletionTimestamp_of_reach {id : HostClaimId} {requestedAt : Timestamp}
    (h : Reachable P System.anyStep provider c)
    (hstored : ∃ stored, c.world.database.claim? id = some stored ∧
      stored.resource.deletionTimestamp = some requestedAt)
    (hlater : (daemon P).Reach reconcileOnce
      (fun _ _ next => (next.world.database.claim? id).isSome) c c') :
    Reachable P System.anyStep provider c' ∧
      ∃ stored, c'.world.database.claim? id = some stored ∧
        stored.resource.deletionTimestamp = some requestedAt := by
  have hreach : ∀ {last}, (daemon P).Reach reconcileOnce
      (fun _ _ next => (next.world.database.claim? id).isSome) c last →
      Reachable P System.anyStep provider last := fun hlast => h.trans hlast.any
  refine ⟨hreach hlater, ?_⟩
  refine hlater.invariant (fun last => ∃ stored,
    last.world.database.claim? id = some stored ∧
      stored.resource.deletionTimestamp = some requestedAt) hstored ?_
  rintro first label second hfirst hstep hpresent ⟨before, hbefore, hdeletion⟩
  obtain ⟨after, hafter⟩ := Option.isSome_iff_exists.mp hpresent
  have hchange := claim_change (hreach hfirst).sound hstep hbefore
  rw [hafter] at hchange
  refine ⟨after, hafter, ?_⟩
  rw [deletionTimestamp_of_change hchange (by rw [hdeletion]; rfl), hdeletion]

/-- A deletion request is never lost. From the commit of `mark_claim_deleting` on, as long as the
    row is there, it says so; no status computed from a snapshot without the request is written
    to the row; and the row is removed only after a request, and only when the claim has no Host
    or its Host was just observed to be Absent. -/
theorem deletion_request_is_never_lost (h : Reachable P System.anyStep provider c) :
    (∀ id now claim db', Storage.markClaimDeleting id now c.world.database = .ok (claim, db') →
      ∃ requestedAt, claim.deletionTimestamp = some requestedAt ∧
        ∀ later, (daemon P).Reach reconcileOnce
            (fun _ _ next => (next.world.database.claim? id).isSome)
            { c with world := { c.world with database := db' } } later →
          DeletionRecorded later.world.database id requestedAt) ∧
    (∀ label c', (daemon P).Step reconcileOnce c label c' → ∀ id before,
      c.world.database.claim? id = some before → before.resource.deletionTimestamp.isSome →
      DeletingStep c before (c'.world.database.claim? id)) ∧
    (∀ label c', (daemon P).Step reconcileOnce c label c' → ∀ id before,
      c.world.database.claim? id = some before → c'.world.database.claim? id = none →
      before.resource.deletionTimestamp.isSome ∧
        ((∀ host ∈ c.world.database.hosts, host.claimId ≠ id) ∨
          ∃ host ∈ c.world.database.hosts, host.claimId = id ∧
            ⟨.provider (.observe host.id), .ok .absent⟩ ∈ c.log.head?)) := by
  have hinv : c.world.database.Invariant := h.sound.inv
  refine ⟨fun id now claim db' hmark => ?_, fun label c' hstep id before hbefore hdeleting => ?_,
    fun label c' hstep id before hbefore hremoved => ?_⟩
  · obtain ⟨stored, requestedAt, hstored, rfl, hrequestedAt⟩ := markClaimDeleting_stored hinv hmark
    refine ⟨requestedAt, hrequestedAt, fun later hlater => ?_⟩
    have hcommit : Reachable P System.anyStep provider
        { c with world := { c.world with database := db' } } := by
      have hother : World.Interfere P c.world _ := .markClaimDeleting id now
      rw [Storage.run, hmark] at hother
      exact System.Reach.step h (.interfere hother) trivial
    obtain ⟨hreachable, last, hlast, hdeletion⟩ :=
      deletionTimestamp_of_reach hcommit ⟨stored, hstored, hrequestedAt⟩ hlater
    apply deletionRecorded_of_invariant hreachable.sound.inv
    intro claim hclaim
    rw [hlast] at hclaim
    cases hclaim
    exact hdeletion
  · exact deletingStep_of_change (claim_change h.sound hstep hbefore) hdeleting
  · have hchange := claim_change h.sound hstep hbefore
    rw [hremoved] at hchange
    cases hchange with
    | removed hpending hawait =>
      obtain ⟨claim, hclaim, hdeleting, hcases⟩ := hawait.finalizeClaim_cases
      have hid := Database.claim?_id hbefore
      rw [hid, hbefore] at hclaim
      cases hclaim
      refine ⟨hdeleting, ?_⟩
      rcases hcases with hunbound | ⟨hostId, hbound, habsent⟩
      · left
        intro host hmem howner
        have hbound := (Database.claim?_hostId_row hbefore).mpr ⟨host, hmem, howner, rfl⟩
        rw [hunbound] at hbound
        cases hbound
      · right
        obtain ⟨host, hmem, howner, rfl⟩ := (Database.claim?_hostId_row hbefore).mp hbound
        exact ⟨host, hmem, howner, habsent⟩

/-- A request for a claim with a Ready Host is recorded at once. -/
theorem deletion_request_of_readied :
    ∃ claim db', Storage.markClaimDeleting Script.claimId ⟨1⟩
        (Script.played .willing Script.readied).world.database = .ok (claim, db') ∧
      ∃ requestedAt, claim.deletionTimestamp = some requestedAt ∧
        DeletionRecorded db' Script.claimId requestedAt := by
  have hmarked : (Storage.markClaimDeleting Script.claimId ⟨1⟩
      (Script.played .willing Script.readied).world.database).isOk = true := by decide +kernel
  generalize hmark : Storage.markClaimDeleting Script.claimId ⟨1⟩
    (Script.played .willing Script.readied).world.database = marked at hmarked
  rcases marked with error | ⟨claim, db'⟩
  · cases hmarked
  · obtain ⟨requestedAt, hrequested, hrecorded⟩ :=
      (deletion_request_is_never_lost (Script.reachable .willing Script.readied)).1 _ _ _ _ hmark
    exact ⟨claim, db', rfl, requestedAt, hrequested, hrecorded _ .refl⟩

end ControlPlane
