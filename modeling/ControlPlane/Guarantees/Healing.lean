import ControlPlane.Controller.Visits
import ControlPlane.Guarantees.Agreement

/-!
# What a pass heals

A crash may come between the save of a Host and the save of its claim. The next idle pass gives
every live claim the readiness of its Host again, except for the Hosts in phase failed: the pass
skips these, so their claims stay as they were left.
-/

namespace ControlPlane

open Interaction Controller

variable {σ : Type} {P : ProviderModel σ} {provider : σ} {c : Daemon σ}

/-! ## What an idle pass does to a claim -/

section Pass

variable {nowMs : Int64} {claim : HostClaimRecord} {claims : List HostClaimRecord}
  {log log' : Happened} {db db' : Database} {s s' : σ} {hostId : HostId}

/-- What the turn of a live claim with a due Host leaves behind: the claim of a failed Host as it
    was, and every other claim with the readiness of its Host. -/
inductive Healed (claim : HostClaimRecord) (hostId : HostId) (db db' : Database) : Prop where
  | skipped {host} : db.host? hostId = some host → host.resource.status.phase = .failed →
      db'.claim? claim.resource.id = some claim → db'.host? hostId = some host →
      Healed claim hostId db db'
  | observed {host claim' host'} : db.host? hostId = some host →
      host.resource.status.phase ≠ .failed → db'.claim? claim.resource.id = some claim' →
      db'.host? hostId = some host' → claim'.reports "Ready" = host'.reports "Ready" →
      Healed claim hostId db db'

theorem IdleTurn.healed (h : IdleTurn P nowMs claim log db s db' s' log')
    (hstored : db.claim? claim.resource.id = some claim)
    (hlive : claim.resource.deletionTimestamp = none)
    (hbound : claim.resource.status.hostId = some hostId) (htyped : claim.Typed)
    (hhosts : ∀ host, db.host? hostId = some host →
      host.Typed ∧ host.retry.isDue nowMs = true) : Healed claim hostId db db' := by
  cases h with
  | releasePostponed hdeleting =>
    rw [hlive] at hdeleting
    cases hdeleting
  | postponed _ hunbound =>
    rw [hbound] at hunbound
    cases hunbound
  | assignStale unbound | unsatisfiable unbound =>
    have hunbound := unbound.unbound
    rw [hbound] at hunbound
    cases hunbound
  | @skipped host _ opened hskip =>
    have hid : hostId = host.resource.id := Option.some_inj.mp (hbound.symm.trans opened.bound)
    have hhost : db.host? hostId = some host := by
      rw [hid]
      exact Database.getHost_eq_ok.mp opened.stored
    rcases hskip with hpostponed | hfailed
    · rw [(hhosts host hhost).2] at hpostponed
      cases hpostponed
    · exact .skipped hhost hfailed hstored hhost
  | @observed host resource now _ middle saved _ _ usable _ _ _ hsave hpersist =>
    obtain rfl : host.resource.id = hostId :=
      Option.some_inj.mp (usable.bound.symm.trans hbound)
    have hhost : db.host? host.resource.id = some host := Database.getHost_eq_ok.mp usable.stored
    have hpublishes := publishes_applyProviderObservation htyped (hhosts host hhost).1 resource now
    obtain ⟨hclaims, hhosts'⟩ := Storage.saveHost_records hsave hhost
    have hmiddle : middle.claim? claim.resource.id = some claim := by
      rw [hclaims]
      exact hstored
    obtain ⟨-, hsame, hclaims'⟩ := Storage.saveClaimStatus_records hpersist hmiddle rfl
    rw [hpublishes.claimKept] at hclaims'
    rw [hpublishes.hostKept] at hhosts'
    refine .observed hhost usable.notFailed ?_ ?_ hpublishes.agree
    · rw [hclaims']
      exact Function.update_self ..
    · rw [hsame, hhosts']
      exact Function.update_self ..

/-- A chain of idle turns heals every live claim of it with a due Host. -/
theorem Idled.healed (h : Idled P nowMs claims log db s db' s' log')
    (hfollows : claims.Pairwise Follows) (hmem : claim ∈ claims) (hinv : db.Invariant)
    (hdue : ∀ host, db.host? hostId = some host → host.retry.isDue nowMs = true)
    (hstored : db.claim? claim.resource.id = some claim)
    (hlive : claim.resource.deletionTimestamp = none)
    (hbound : claim.resource.status.hostId = some hostId) : Healed claim hostId db db' := by
  obtain ⟨db₁, s₁, log₁, db₂, s₂, log₂, hturn, hbefore, hafter, -⟩ := h.turn_of_mem hfollows hmem
  have hhost₁ := hbefore.2 hostId hbound
  have hhealed : Healed claim hostId db₁ db₂ := by
    refine hturn.healed (hbefore.1.trans hstored) hlive hbound (hinv.claims hstored).typed ?_
    intro host hhost
    rw [hhost₁] at hhost
    exact ⟨hinv.hosts hhost, hdue host hhost⟩
  cases hhealed with
  | skipped hhost hfailed hclaim hkept =>
    exact .skipped (hhost₁ ▸ hhost) hfailed (hafter.1.trans hclaim)
      ((hafter.2 hostId hbound).trans hkept)
  | observed hhost hnotFailed hclaim hkept hagree =>
    exact .observed (hhost₁ ▸ hhost) hnotFailed (hafter.1.trans hclaim)
      ((hafter.2 hostId hbound).trans hkept) hagree

/-- An idle pass heals every live claim with a due Host. -/
theorem PassOutcome.healed {id : HostClaimId}
    (h : PassOutcome P nowMs db s (.ok .idle) db' s' log) (hinv : db.Invariant)
    (hclaim : db.claim? id = some claim) (hlive : claim.resource.deletionTimestamp = none)
    (hbound : claim.resource.status.hostId = some hostId)
    (hdue : ∀ host, db.host? hostId = some host → host.retry.isDue nowMs = true) :
    Healed claim hostId db db' := by
  cases h with
  | listed hlisted hvisits =>
  cases hvisits with
  | stopped _ _ _ hne => exact absurd rfl hne
  | idle hidled =>
  have hid := Database.claim?_id hclaim
  have hstored : db.claim? claim.resource.id = some claim := by
    rw [hid]
    exact hclaim
  have hmem : claim ∈ liveClaims _ := List.mem_filter.mpr
    ⟨((Database.listClaims_ok hlisted).2 claim).mpr hstored, by rw [hlive]; rfl⟩
  exact hidled.healed (pairwise_follows hlisted) (List.mem_append_right _ hmem) hinv hdue hstored
    hlive hbound

theorem PassOutcome.traced (h : PassOutcome P nowMs db s (.ok .idle) db' s' log)
    (readable : db.Readable) : Traced db db' := by
  cases h with
  | listed hlisted hvisits =>
  cases hvisits with
  | stopped _ _ _ hne => exact absurd rfl hne
  | idle hidled => exact (hidled.traced readable).2

/-- After an idle pass with all Hosts due every live claim agrees with its Host exactly if those
    of the failed Hosts did before. -/
theorem PassOutcome.agree_iff (h : PassOutcome P nowMs db s (.ok .idle) db' s' log)
    (hinv : db.Invariant)
    (hdue : ∀ hostId host, db.host? hostId = some host → host.retry.isDue nowMs = true) :
    StoredAgree (fun _ => True) db' ↔
      StoredAgree (fun host => host.resource.status.phase = .failed) db := by
  have hheal : ∀ {id claim hostId}, db.claim? id = some claim →
      claim.resource.deletionTimestamp = none → claim.resource.status.hostId = some hostId →
      Healed claim hostId db db' :=
    fun hclaim hlive hbound => h.healed hinv hclaim hlive hbound (hdue _)
  constructor
  · intro hagree id claim hostId host hclaim hlive hbound hhost hfailed
    obtain rfl := Database.claim?_id hclaim
    cases hheal hclaim hlive hbound with
    | skipped hhost' _ hclaim' hkept =>
      rw [hhost] at hhost'
      cases hhost'
      exact hagree _ _ _ _ hclaim' hlive hbound hkept trivial
    | observed hhost' hnotFailed =>
      rw [hhost] at hhost'
      cases hhost'
      exact absurd hfailed hnotFailed
  · intro hagree id claim hostId host hclaim hlive hbound hhost _
    obtain ⟨stored, hstored, hdeletion, hsame⟩ := h.traced hinv.readable id claim hclaim
    obtain rfl := Database.claim?_id hstored
    have hlive' := hdeletion.trans hlive
    have hbound' := hsame.trans hbound
    cases hheal hstored hlive' hbound' with
    | skipped hhost' hfailed hclaim' hkept =>
      rw [hclaim] at hclaim'
      rw [hhost] at hkept
      cases hclaim'
      cases hkept
      exact hagree _ _ _ _ hstored hlive' hbound' hhost' hfailed
    | observed _ _ hclaim' hkept hagree' =>
      rw [hclaim] at hclaim'
      rw [hhost] at hkept
      cases hclaim'
      cases hkept
      exact hagree'

end Pass

/-! ## Idle passes of a run -/

/-- An undisturbed pass that found all Hosts due and returned Idle, so that it met no error. -/
def QuietPass (P : ProviderModel σ) (world world' : World σ) : Prop :=
  ∃ nowMs log, Pass P world (.ok .idle) world' log ∧ log.getLast? = some ⟨.nowUnixMs, nowMs⟩ ∧
    ∀ hostId host, world.database.host? hostId = some host → host.retry.isDue nowMs = true

/-- Every live claim has the readiness of its Host, and none is Ready while its Host is in phase
    failed. -/
def ReadinessHealed (db : Database) : Prop :=
  ReadyMatches (fun _ => True) db ∧
    ∀ claim ∈ db.hostClaims, claim.deletionTimestamp = none →
      ∀ host ∈ db.hosts, host.claimId = claim.id → host.phase = "failed" →
        conditionStatus claim.conditionsJson "Ready" ≠ some .true

/-- Where every live claim has the readiness of its Host, no claim of a failed Host is Ready. -/
theorem readinessHealed_iff {db : Database} (hinv : db.Invariant) :
    ReadinessHealed db ↔ ReadyMatches (fun _ => True) db := by
  refine ⟨And.left, fun hmatches => ⟨hmatches, ?_⟩⟩
  intro claimRow hclaimMem hlive hostRow hhostMem howner hfailed hready
  rw [hmatches claimRow hclaimMem hlive hostRow hhostMem howner trivial] at hready
  have hphase := (hinv.ready_row hclaimMem hlive hhostMem howner hready).1
  rw [hfailed] at hphase
  exact absurd hphase (by decide)

/-- A crash or a storage failure takes the place of the save of the claim of a failed Host. -/
def TornFailure (c : Daemon σ) (label : Label) (_ : Daemon σ) : Prop :=
  Torn (fun host => host.resource.status.phase = .failed) c label

/-- Nothing else than a torn failure. -/
def Mendable (c : Daemon σ) (label : Label) (c' : Daemon σ) : Prop :=
  ¬ TornFailure c label c'

/-- A quiet pass heals the readiness of the claims exactly if the claims of the failed Hosts need
    no healing, and so it does in every run in which no failure is torn from its claim. -/
theorem quiet_pass_heals {world' : World σ} (h : Reachable P System.anyStep provider c)
    (hidle : c.task = none) (hpass : QuietPass P c.world world') :
    (ReadinessHealed world'.database ↔
      ReadyMatches (fun host => host.phase = "failed") c.world.database) ∧
    (Reachable P Mendable provider c → ReadinessHealed world'.database) := by
  obtain ⟨nowMs, log, hruns, hclock, hdue⟩ := hpass
  have hinv : c.world.database.Invariant := h.sound.inv
  have hinv' : world'.database.Invariant := by
    obtain ⟨world, task, log⟩ := c
    subst hidle
    have hreach : Reachable P System.anyStep provider (.idle world') :=
      h.of_main hruns fun _ _ _ _ => trivial
    exact hreach.sound.inv
  have hiff : ReadinessHealed world'.database ↔
      ReadyMatches (fun host => host.phase = "failed") c.world.database := by
    rw [readinessHealed_iff hinv', readyMatches_iff hinv' fun _ _ _ => Iff.rfl,
      readyMatches_iff hinv fun _ _ hdecode => (hostColumns hdecode).failed_iff]
    exact (hruns.outcome_at hclock).agree_iff hinv hdue
  refine ⟨hiff, fun hmended => ?_⟩
  rw [hiff, readyMatches_iff hinv fun _ _ hdecode => (hostColumns hdecode).failed_iff]
  have hagreed : AgreedOn (fun host => host.resource.status.phase = .failed) c := by
    refine agreedOn_of_reachable hmended (fun host hintent => by cases hintent) ?_
    exact fun _ _ _ hmendable => hmendable
  exact hagreed.stored hidle

namespace Script

/-- A scripted pass that returns Idle is quiet where no Host has a deadline. -/
theorem quietPass_ran {world : World Script} (hresult : (ran world).1 = .ok .idle)
    (hdue : ∀ row ∈ world.database.hosts, row.nextReconcileAtUnixMs = none) :
    QuietPass model world (ran world).2.1 := by
  have hpass := pass_ran world
  rw [hresult] at hpass
  obtain ⟨nowMs, -, houtcome⟩ := hpass.outcome
  refine ⟨nowMs, _, hpass, houtcome.clock, fun hostId host hhost => ?_⟩
  obtain ⟨row, hmem, -, hdecode⟩ := Database.host?_eq_some.mp hhost
  unfold RetryState.isDue
  rw [(hostColumns hdecode).nextReconcileAt, hdue row hmem]

/-- The provider once it has lost the resource for good. -/
def lost : Script :=
  { willing with observation := .error (.definitive "gone") }

/-- A Host that was Ready fails, and the daemon crashes before it saves the claim. -/
def failedHalfway : List (Move Script) :=
  readied ++ .drift lost :: .start :: (List.replicate 7 (.perform .epoch) ++ [.crash])

/-- A Host becomes Ready, and the daemon crashes before it saves the claim. -/
def readiedHalfway : List (Move Script) :=
  .createClaim claimId ⟨⟨1, 1, 1⟩⟩ ⟨0⟩ ::
    (Move.pass 5 .epoch ++
      .start :: (List.replicate 9 (.perform .epoch) ++ [.crash, .drift (holding .ready)]))

end Script

/-- A crash after the save of a failed Host leaves its claim Ready, and a quiet pass later it is
    still Ready. -/
theorem claim_of_failed_host_stays_ready :
    Reachable Script.model System.anyStep .willing
        (Script.played .willing Script.failedHalfway) ∧
      (Script.played .willing Script.failedHalfway).task = none ∧
      QuietPass Script.model (Script.played .willing Script.failedHalfway).world
        (Script.ran (Script.played .willing Script.failedHalfway).world).2.1 ∧
      ∃ claim ∈ (Script.ran
          (Script.played .willing Script.failedHalfway).world).2.1.database.hostClaims,
        claim.deletionTimestamp = none ∧
        conditionStatus claim.conditionsJson "Ready" = some .true ∧
        ∃ host ∈ (Script.ran
            (Script.played .willing Script.failedHalfway).world).2.1.database.hosts,
          host.claimId = claim.id ∧ host.phase = "failed" ∧
          conditionStatus host.conditionsJson "Ready" = some .false := by
  refine ⟨Script.reachable _ _, rfl, Script.quietPass_ran ?_ ?_, ?_⟩
  · decide +kernel
  · decide +kernel
  · decide +kernel

/-- A crash after the save of a Host that became Ready leaves its claim not Ready, and a quiet
    pass later it is Ready. -/
theorem claim_of_ready_host_becomes_ready :
    ReadinessHealed
        (Script.ran (Script.played .willing Script.readiedHalfway).world).2.1.database ∧
      (∃ claim ∈ (Script.played .willing Script.readiedHalfway).world.database.hostClaims,
        conditionStatus claim.conditionsJson "Ready" = some .false) ∧
      ∃ claim ∈ (Script.ran
          (Script.played .willing Script.readiedHalfway).world).2.1.database.hostClaims,
        conditionStatus claim.conditionsJson "Ready" = some .true := by
  have hreach : Reachable Script.model Mendable .willing
      (Script.played .willing Script.readiedHalfway) := by
    refine Script.reachable_played
      (fun c move => move.label ≠ .crash ∨ ∀ row ∈ c.world.database.hosts, row.phase ≠ "failed")
      ?_ (by decide +kernel)
    rintro c move hmove ⟨hlabel, record, claim, hostId, host, -, -, -, -, hhost, hfailed, -⟩
    rcases of_decide_eq_true hmove with hcrash | hphase
    · rcases hlabel with hlabel | hlabel
      · exact hcrash hlabel
      · cases move <;> cases hlabel
    · obtain ⟨row, hmem, -, hdecode⟩ := Database.host?_eq_some.mp hhost
      exact hphase row hmem ((hostColumns hdecode).failed_iff.mpr hfailed)
  have hpass : QuietPass Script.model (Script.played .willing Script.readiedHalfway).world
      (Script.ran (Script.played .willing Script.readiedHalfway).world).2.1 :=
    Script.quietPass_ran (by decide +kernel) (by decide +kernel)
  refine ⟨(quiet_pass_heals (Script.reachable _ _) rfl hpass).2 hreach, ?_, ?_⟩
  · decide +kernel
  · decide +kernel

end ControlPlane
