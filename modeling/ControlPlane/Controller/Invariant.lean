import ControlPlane.Controller.Records

/-!
# The invariant of the stored state

`Database.Invariant` is what every committed state satisfies, whatever the provider answers and
wherever a crash falls. `Database.Rely` is all that the RPC handlers can do to the records the
controller holds a snapshot of, and `Database.Fresh` is what is left of a snapshot when they
have.
-/

namespace ControlPlane

open Storage

/-- The invariant of the stored state. -/
structure Database.Invariant (db : Database) : Prop where
  readable : db.Readable
  claims : ∀ {id claim}, db.claim? id = some claim → claim.Truthful
  hosts : ∀ {hostId host}, db.host? hostId = some host → host.Typed
  consistent : ∀ {hostId host claim}, db.host? hostId = some host →
    db.claim? host.resource.claimId = some claim → claim.resource.deletionTimestamp = none →
    host.Consistent

/-- A snapshot of a claim that is outdated, if at all, by a deletion request only. -/
def Database.Fresh (db : Database) (claim : HostClaimRecord) : Prop :=
  db.claim? claim.resource.id = some claim ∨
    claim.resource.deletionTimestamp = none ∧
      ∃ now, db.claim? claim.resource.id = some (requestDeletion claim now)

/-- What other tasks may do to the stored records. -/
structure Database.Rely (db db' : Database) : Prop where
  hosts : db'.host? = db.host?
  claims : ∀ {id claim}, db.claim? id = some claim → db'.Fresh claim

namespace Database

variable {db db' db'' : Database} {claim : HostClaimRecord}

@[simp] theorem requestDeletion_deletionTimestamp (claim : HostClaimRecord) (now : Timestamp) :
    (requestDeletion claim now).resource.deletionTimestamp = some now := rfl

@[simp] theorem requestDeletion_id (claim : HostClaimRecord) (now : Timestamp) :
    (requestDeletion claim now).resource.id = claim.resource.id := rfl

theorem Fresh.rely (h : db.Fresh claim) (hrely : db.Rely db') : db'.Fresh claim := by
  rcases h with h | ⟨hlive, now, h⟩
  · exact hrely.claims h
  · rcases hrely.claims h with h' | ⟨hlive', -⟩
    · exact .inr ⟨hlive, now, h'⟩
    · cases hlive'

/-- The snapshot of a claim being deleted is exact. -/
theorem Fresh.stored_of_deleting (h : db.Fresh claim)
    (hdeleting : claim.resource.deletionTimestamp.isSome) :
    db.claim? claim.resource.id = some claim := by
  rcases h with h | ⟨hlive, -⟩
  · exact h
  · rw [hlive] at hdeleting
    cases hdeleting

/-- A stored claim with the deletion timestamp of a snapshot is that snapshot. -/
theorem Fresh.eq_of_deletionTimestamp {stored : HostClaimRecord} (h : db.Fresh claim)
    (hstored : db.claim? claim.resource.id = some stored)
    (hdeletion : stored.resource.deletionTimestamp = claim.resource.deletionTimestamp) :
    stored = claim := by
  rcases h with h | ⟨hlive, now, h⟩
  · rw [h] at hstored
    exact (Option.some_inj.mp hstored).symm
  · rw [h] at hstored
    rw [← Option.some_inj.mp hstored, hlive] at hdeletion
    cases hdeletion

theorem Fresh.isSome (h : db.Fresh claim) :
    ∃ stored, db.claim? claim.resource.id = some stored ∧
      stored.resource.status.hostId = claim.resource.status.hostId := by
  rcases h with h | ⟨-, now, h⟩
  · exact ⟨claim, h, rfl⟩
  · exact ⟨_, h, rfl⟩

theorem Rely.refl (db : Database) : db.Rely db :=
  ⟨rfl, fun {id claim} h => .inl (by rw [claim?_id h, h])⟩

theorem Rely.trans (first : db.Rely db') (second : db'.Rely db'') : db.Rely db'' :=
  ⟨second.hosts.trans first.hosts, fun h => (first.claims h).rely second⟩

/-! ## The invariant and the views -/

theorem invariant_empty : Database.empty.Invariant :=
  ⟨readable_empty, by simp, by simp, by simp⟩

/-- Another record of one claim. -/
theorem Invariant.of_claim {id : HostClaimId} {next : HostClaimRecord} (h : db.Invariant)
    (readable : db'.Readable) (hhost : db'.host? = db.host?)
    (hclaim : db'.claim? = Function.update db.claim? id (some next)) (htruthful : next.Truthful)
    (hconsistent : next.resource.deletionTimestamp = none → ∀ hostId host,
      db.host? hostId = some host → host.resource.claimId = id → host.Consistent) :
    db'.Invariant := by
  refine ⟨readable, fun {id' claim} hsome => ?_, fun {hostId host} hsome => ?_,
    fun {hostId host claim} hsome hstored hlive => ?_⟩
  · rw [hclaim] at hsome
    by_cases hid : id' = id
    · rw [hid, Function.update_self] at hsome
      cases hsome
      exact htruthful
    · rw [Function.update_of_ne hid] at hsome
      exact h.claims hsome
  · rw [hhost] at hsome
    exact h.hosts hsome
  · rw [hhost] at hsome
    rw [hclaim] at hstored
    by_cases hid : host.resource.claimId = id
    · rw [hid, Function.update_self] at hstored
      cases hstored
      exact hconsistent hlive hostId host hsome hid
    · rw [Function.update_of_ne hid] at hstored
      exact h.consistent hsome hstored hlive

/-- Another record of one Host. -/
theorem Invariant.of_host {hostId : HostId} {next : HostRecord} (h : db.Invariant)
    (readable : db'.Readable) (hclaim : db'.claim? = db.claim?)
    (hhost : db'.host? = Function.update db.host? hostId (some next)) (htyped : next.Typed)
    (hconsistent : ∀ claim, db.claim? next.resource.claimId = some claim →
      claim.resource.deletionTimestamp = none → next.Consistent) : db'.Invariant := by
  refine ⟨readable, fun {id claim} hsome => ?_, fun {hostId' host} hsome => ?_,
    fun {hostId' host claim} hsome hstored hlive => ?_⟩
  · rw [hclaim] at hsome
    exact h.claims hsome
  · rw [hhost] at hsome
    by_cases hid : hostId' = hostId
    · rw [hid, Function.update_self] at hsome
      cases hsome
      exact htyped
    · rw [Function.update_of_ne hid] at hsome
      exact h.hosts hsome
  · rw [hhost] at hsome
    rw [hclaim] at hstored
    by_cases hid : hostId' = hostId
    · rw [hid, Function.update_self] at hsome
      cases hsome
      exact hconsistent claim hstored hlive
    · rw [Function.update_of_ne hid] at hsome
      exact h.consistent hsome hstored hlive

/-! ## The mutators -/

section Mutators

theorem invariant_saveHost {record : HostRecord} (h : db.Invariant)
    (hsave : saveHost record db = .ok ((), db'))
    (htyped : record.Typed)
    (hconsistent : ∀ stored claim, db.host? record.resource.id = some stored →
      db.claim? stored.resource.claimId = some claim → claim.resource.deletionTimestamp = none →
      (stored.withStatus record).Consistent) : db'.Invariant := by
  obtain ⟨stored, hstored, hreadable, hclaim, hhost⟩ := saveHost_ok h.readable hsave
  exact h.of_host hreadable hclaim hhost htyped fun claim hsome hlive =>
    hconsistent stored claim hstored hsome hlive

theorem invariant_saveClaimStatus {record : HostClaimRecord} {saved : Bool} (h : db.Invariant)
    (hsave : saveClaimStatus record db = .ok (saved, db'))
    (htruthful : ∀ stored, db.claim? record.resource.id = some stored →
      stored.resource.deletionTimestamp = record.resource.deletionTimestamp →
      (stored.withStatus record).Truthful) : db'.Invariant := by
  rcases saveClaimStatus_ok h.readable hsave with
    ⟨-, hreadable, hhost, stored, hstored, hdeletion, hclaim⟩ | ⟨-, rfl, -⟩
  · refine h.of_claim hreadable hhost hclaim (htruthful stored hstored hdeletion) ?_
    intro hlive hostId host hsome hid
    rw [← hid] at hstored
    exact h.consistent hsome hstored hlive
  · exact h

theorem invariant_finalizeClaim {claimId : HostClaimId} (h : db.Invariant)
    (hfinalize : finalizeClaim claimId db = .ok ((), db')) : db'.Invariant := by
  obtain ⟨-, hreadable, hclaim, hhost⟩ := finalizeClaim_ok h.readable hfinalize
  have hclaimOf : ∀ {id claim}, db'.claim? id = some claim → db.claim? id = some claim := by
    intro id claim hsome
    rw [hclaim] at hsome
    by_cases hid : id = claimId
    · rw [hid, Function.update_self] at hsome
      cases hsome
    · rwa [Function.update_of_ne hid] at hsome
  have hhostOf : ∀ {hostId host}, db'.host? hostId = some host → db.host? hostId = some host := by
    intro hostId host hsome
    rw [hhost, Option.filter_eq_some_iff] at hsome
    exact hsome.1
  exact ⟨hreadable, fun hsome => h.claims (hclaimOf hsome), fun hsome => h.hosts (hhostOf hsome),
    fun hsome hstored => h.consistent (hhostOf hsome) (hclaimOf hstored)⟩

/-- A Host just inserted is not ready and has no provider resource. -/
theorem consistent_newHost (claimId : HostClaimId) (providerPlanId : String)
    (resources : HostResources) (hostId : HostId) (now : Timestamp) :
    (newHost claimId providerPlanId resources hostId now).Typed ∧
      (newHost claimId providerPlanId resources hostId now).reports "Ready" = some .false ∧
      (newHost claimId providerPlanId resources hostId now).Consistent := by
  have hreports : (newHost claimId providerPlanId resources hostId now).reports "Ready" =
      some .false := rfl
  refine ⟨rfl, hreports, ⟨?_, ?_⟩⟩
  · rw [hreports]
    exact ⟨fun h => (by cases h), fun h => (by cases h.1)⟩
  · rw [hreports]
    exact fun h => (by cases h)

theorem invariant_ensureHost {claimId : HostClaimId} {providerPlanId : String}
    {resources : HostResources} {hostId : HostId} {now : Timestamp} {host : HostRecord}
    (h : db.Invariant)
    (hensure : ensureHost claimId providerPlanId resources hostId now db = .ok (host, db')) :
    db'.Invariant := by
  obtain ⟨claim, hstored, hlive, hcases⟩ := ensureHost_ok h.readable hensure
  rcases hcases with ⟨rfl, -⟩ | ⟨-, hreadable, rfl, hhost, hclaim⟩
  · exact h
  · obtain ⟨htyped, -, hconsistent⟩ :=
      consistent_newHost claimId providerPlanId resources hostId now
    have htruthful := (truthful_assignHost (h.claims hstored).typed hlive hostId now).1
    refine ⟨hreadable, fun {id claim'} hsome => ?_, fun {hostId' host} hsome => ?_,
      fun {hostId' host claim'} hsome hstored' hlive' => ?_⟩
    · rw [hclaim] at hsome
      by_cases hid : id = claimId
      · rw [hid, Function.update_self] at hsome
        cases hsome
        exact htruthful
      · rw [Function.update_of_ne hid] at hsome
        exact h.claims hsome
    · rw [hhost] at hsome
      by_cases hid : hostId' = hostId
      · rw [hid, Function.update_self] at hsome
        cases hsome
        exact htyped
      · rw [Function.update_of_ne hid] at hsome
        exact h.hosts hsome
    · rw [hhost] at hsome
      by_cases hid : hostId' = hostId
      · rw [hid, Function.update_self] at hsome
        cases hsome
        exact hconsistent
      · rw [Function.update_of_ne hid] at hsome
        rw [hclaim] at hstored'
        by_cases hcid : host.resource.claimId = claimId
        · rw [← hcid] at hstored
          exact h.consistent hsome hstored hlive
        · rw [Function.update_of_ne hcid] at hstored'
          exact h.consistent hsome hstored' hlive'

/-! ## The RPC handlers -/

theorem rely_of_claim {id : HostClaimId} {next : HostClaimRecord} (hhost : db'.host? = db.host?)
    (hclaim : db'.claim? = Function.update db.claim? id (some next))
    (hnext : ∀ claim, db.claim? id = some claim →
      claim.resource.deletionTimestamp = none ∧ ∃ now, next = requestDeletion claim now) :
    db.Rely db' := by
  refine ⟨hhost, fun {id' claim} hsome => ?_⟩
  have hid := claim?_id hsome
  unfold Fresh
  rw [hclaim, hid]
  by_cases hid' : id' = id
  · subst hid'
    obtain ⟨hlive, now, rfl⟩ := hnext claim hsome
    exact .inr ⟨hlive, now, Function.update_self ..⟩
  · rw [Function.update_of_ne hid']
    exact .inl hsome

/-- `create_claim` keeps the invariant and outdates no snapshot. -/
theorem invariant_createClaim (h : db.Invariant) (id : HostClaimId) (spec : HostClaimSpec)
    (now : Timestamp) :
    (run (createClaim id spec now) db).2.Invariant ∧
      db.Rely (run (createClaim id spec now) db).2 := by
  unfold run
  cases hcreate : createClaim id spec now db with
  | error error => exact ⟨h, Rely.refl db⟩
  | ok answer =>
    obtain ⟨claim, db'⟩ := answer
    rcases createClaim_ok h.readable hcreate with
      ⟨_, _, _, rfl⟩ | ⟨hnone, -, hreadable, hhost, hclaim⟩
    · exact ⟨h, Rely.refl _⟩
    · constructor
      · refine h.of_claim hreadable hhost hclaim (truthful_initialClaim id spec now) ?_
        intro _ hostId host hsome hid
        obtain ⟨claim', hsome', -⟩ := host?_claim h.readable hsome
        rw [hid, hnone] at hsome'
        cases hsome'
      · apply rely_of_claim hhost hclaim
        intro claim' hsome'
        rw [hnone] at hsome'
        cases hsome'

/-- `mark_claim_deleting` keeps the invariant and outdates a snapshot by its request only. -/
theorem invariant_markClaimDeleting (h : db.Invariant) (id : HostClaimId) (now : Timestamp) :
    (run (markClaimDeleting id now) db).2.Invariant ∧
      db.Rely (run (markClaimDeleting id now) db).2 := by
  unfold run
  cases hmark : markClaimDeleting id now db with
  | error error => exact ⟨h, Rely.refl db⟩
  | ok answer =>
    obtain ⟨claim, db'⟩ := answer
    obtain ⟨stored, hstored, hcases⟩ := markClaimDeleting_ok h.readable hmark
    rcases hcases with ⟨-, -, rfl⟩ | ⟨hlive, -, hreadable, hhost, hclaim⟩
    · exact ⟨h, Rely.refl _⟩
    · constructor
      · refine h.of_claim hreadable hhost hclaim
          (truthful_requestDeletion (h.claims hstored) now) ?_
        intro hlive'
        cases hlive'
      · apply rely_of_claim hhost hclaim
        intro claim' hsome
        rw [hstored] at hsome
        cases hsome
        exact ⟨hlive, now, rfl⟩

end Mutators

end Database

end ControlPlane
