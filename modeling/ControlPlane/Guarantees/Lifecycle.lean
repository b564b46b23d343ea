import ControlPlane.Guarantees.Courses
import ControlPlane.Guarantees.Ownership
import ControlPlane.Ledger

/-!
# The life of a claim

With the fake provider, the daemon is a ledger: whatever is interleaved, whichever faults are
injected and wherever it crashes, each of its steps does nothing to the ledger or one action. So a
claim goes from its submission through its grant and its withdrawal to its end in this order, a
Host has one machine at most in its life, and a machine goes only after its claim was withdrawn.
-/

namespace ControlPlane

open Interaction FakeProvider

/-- The ledger of the daemon. -/
abbrev HostLedger :=
  Ledger HostClaimId HostId (HostClaimSpec × Timestamp) Timestamp (String × HostResources)

/-- A stored claim as a demand. -/
def HostClaimRecord.demand (claim : HostClaimRecord) :
    Demand (HostClaimSpec × Timestamp) Timestamp HostId :=
  ⟨(claim.resource.spec, claim.resource.createdAt), claim.resource.deletionTimestamp,
    claim.resource.status.hostId⟩

/-- For whom a Host is stored, and on which terms. -/
def HostRecord.deal (host : HostRecord) : HostClaimId × String × HostResources :=
  (host.resource.claimId, host.providerPlanId, host.resource.allocatableResources)

/-- For whom a lease is, and on which terms. -/
def Lease.deal {ι π : Type} (lease : Lease ι π) : ι × π :=
  (lease.owner, lease.terms)

variable {c c' : Daemon FakeState} {label : Label} {ledger : HostLedger} {id : HostClaimId}
  {hostId : HostId} {provider : FakeState}

/-- What a step does to the provider resources: what the call in it may do, if there is one. -/
theorem resource_change
    (sound : System.Sound (discipline fakeProvider) (fun _ log _ => Quiet log) c)
    (hstep : (daemon fakeProvider).Step reconcileOnce c label c') :
    ∃ draw call, ResourceChange draw (resourceRows c) call (resourceRows c') ∧
      ∀ called, call = some called → AwaitPoint c.log c.world.database (.provider called) ∧
        c'.world.database = c.world.database := by
  have hother : ∀ {rows : List ProviderResourceRow}, rows = resourceRows c →
      ∃ draw call, ResourceChange draw (resourceRows c) call rows ∧
        ∀ called, call = some called → AwaitPoint c.log c.world.database (.provider called) ∧
          c'.world.database = c.world.database := by
    rintro rows rfl
    exact ⟨⟨"", ⟨0⟩⟩, none, .kept, fun _ hnone => by cases hnone⟩
  have hanswered : ∀ {effect : Effect} {answer : Answer effect}, c.pending = some effect →
      World.exec fakeProvider c.world effect answer c'.world →
      ∃ draw call, ResourceChange draw (resourceRows c) call (resourceRows c') ∧
        ∀ called, call = some called → AwaitPoint c.log c.world.database (.provider called) ∧
          c'.world.database = c.world.database := by
    intro effect answer hpending hexec
    have hawait := sound.issue hpending
    by_cases hcall : ∃ call, effect = .provider call
    · obtain ⟨call, rfl⟩ := hcall
      have hdatabase : c'.world.database = c.world.database :=
        answered_reads rfl (.inl hexec : answered fakeProvider c.world _ answer c'.world)
      obtain ⟨state, hanswers, hworld⟩ := hexec
      obtain ⟨draw, -, -, hchange⟩ := fakeProvider_answers hanswers
      refine ⟨draw, some call, ?_, fun called hcalled => ?_⟩
      · unfold resourceRows
        rw [hworld]
        exact hchange
      · cases hcalled
        exact ⟨hawait, hdatabase⟩
    · apply hother
      unfold resourceRows
      rw [provider_of_other (fun call heq => hcall ⟨call, heq⟩) hexec]
  cases hstep with
  | interfere hstep =>
    apply hother
    cases hstep with
    | drift provider hdrift => exact hdrift.1
    | createClaim | markClaimDeleting | wake => rfl
  | start | finish => exact hother rfl
  | perform hexec => exact hanswered rfl hexec
  | fault hfault =>
    apply hother
    unfold resourceRows
    rw [fault_world hfault]
  | @crash world task log world' hcrash =>
    obtain ⟨state, hprovider, rfl⟩ := hcrash
    obtain ⟨draw, -, -, hchange⟩ := fakeProvider_crash hprovider
    refine ⟨draw, _, hchange, fun called hcalled => ⟨?_, rfl⟩⟩
    cases hpending : task.bind Program.pending with
    | none =>
      rw [hpending] at hcalled
      cases hcalled
    | some effect =>
      have hawait : AwaitPoint log world.database effect := sound.issue hpending
      rw [hpending] at hcalled
      cases effect with
      | provider call =>
        cases hcalled
        exact hawait
      | _ => cases hcalled

/-- The ledger tells what is stored. A machine that was released stays so: the claim of its Host is
    being deleted, and no pass remembers it otherwise. -/
structure Tracks (c : Daemon FakeState) (ledger : HostLedger) : Prop where
  demand : ledger.demand = fun id => (c.world.database.claim? id).map HostClaimRecord.demand
  lease : ∀ hostId, (ledger.lease hostId).map Lease.deal =
    (c.world.database.host? hostId).map HostRecord.deal
  occupied : ∀ hostId lease, ledger.lease hostId = some lease →
    (lease.tenure = .occupied ↔ ∃ row ∈ resourceRows c, row.hostId = hostId)
  vacated : ∀ hostId lease, ledger.lease hostId = some lease → lease.tenure = .vacated →
    (∃ demand, ledger.demand lease.owner = some demand ∧ demand.withdrawn.isSome) ∧
      ListedDeleting lease.owner c.log

/-- What is done to a ledger in one step of the daemon. -/
abbrev Entered (ledger : HostLedger) (c' : Daemon FakeState) : Prop :=
  ∃ action, Simulated (Ledger.machine _ _ _ _ _) Tracks ledger c' action

theorem Tracks.demand_of_claim (h : Tracks c ledger) {claim : HostClaimRecord}
    (hclaim : c.world.database.claim? id = some claim) : ledger.demand id = some claim.demand := by
  rw [h.demand]
  simp only [hclaim, Option.map_some]

theorem Tracks.lease_of_host (h : Tracks c ledger) {host : HostRecord}
    (hhost : c.world.database.host? hostId = some host) :
    ∃ lease, ledger.lease hostId = some lease ∧ lease.deal = host.deal := by
  have hsame := h.lease hostId
  rw [hhost, Option.map_some] at hsame
  exact Option.map_eq_some_iff.mp hsame

theorem Tracks.lease_eq_none (h : Tracks c ledger)
    (hhost : c.world.database.host? hostId = none) : ledger.lease hostId = none := by
  have hsame := h.lease hostId
  rw [hhost, Option.map_none] at hsame
  exact Option.map_eq_none_iff.mp hsame

/-- What a step leaves to be remembered of released machines. -/
theorem Tracks.remembered (h : Tracks c ledger)
    (hstep : (daemon fakeProvider).Step reconcileOnce c label c')
    {lease : Lease HostClaimId (String × HostResources)} (hlease : ledger.lease hostId = some lease)
    (hvacated : lease.tenure = .vacated) : ListedDeleting lease.owner c'.log := by
  obtain ⟨⟨demand, hdemand, hwithdrawn⟩, hlisted⟩ := h.vacated hostId lease hlease hvacated
  refine hlisted.step hstep fun stored hstored => ?_
  rw [h.demand_of_claim hstored] at hdemand
  cases hdemand
  exact hwithdrawn

/-- A step that changes nothing the ledger tells. -/
theorem Tracks.stutter (h : Tracks c ledger)
    (hstep : (daemon fakeProvider).Step reconcileOnce c label c')
    (hclaims : ∀ id, (c'.world.database.claim? id).map HostClaimRecord.demand =
      (c.world.database.claim? id).map HostClaimRecord.demand)
    (hhosts : ∀ hostId, (c'.world.database.host? hostId).map HostRecord.deal =
      (c.world.database.host? hostId).map HostRecord.deal)
    (hrows : resourceRows c' = resourceRows c) : Entered ledger c' := by
  refine ⟨none, .stutter ⟨?_, fun hostId => (h.lease hostId).trans (hhosts hostId).symm, ?_, ?_⟩⟩
  · rw [h.demand]
    funext id
    exact (hclaims id).symm
  · intro hostId lease hlease
    rw [h.occupied hostId lease hlease, hrows]
  · intro hostId lease hlease hvacated
    exact ⟨(h.vacated hostId lease hlease hvacated).1, h.remembered hstep hlease hvacated⟩

/-- A lease that is entered in another tenure. -/
theorem Tracks.setLease {owner : HostClaimId} {terms : String × HostResources}
    {before tenure : Tenure} (h : Tracks c ledger)
    (hstep : (daemon fakeProvider).Step reconcileOnce c label c')
    (hdatabase : c'.world.database = c.world.database)
    (hlease : ledger.lease hostId = some ⟨owner, terms, before⟩)
    (hrows : ∀ other, other ≠ hostId →
      ((∃ row ∈ resourceRows c', row.hostId = other) ↔ ∃ row ∈ resourceRows c, row.hostId = other))
    (hoccupied : tenure = .occupied ↔ ∃ row ∈ resourceRows c', row.hostId = hostId)
    (hvacated : tenure = .vacated →
      (∃ demand, ledger.demand owner = some demand ∧ demand.withdrawn.isSome) ∧
        ListedDeleting owner c'.log) :
    Tracks c' (ledger.setLease hostId ⟨owner, terms, tenure⟩) := by
  refine ⟨?_, fun other => ?_, fun other lease hother => ?_, fun other lease hother hgone => ?_⟩
  · rw [Ledger.setLease_demand, h.demand, hdatabase]
  · rw [Ledger.setLease_lease, hdatabase, ← h.lease other]
    by_cases hsame : other = hostId
    · rw [hsame, Function.update_self, hlease]
      rfl
    · rw [Function.update_of_ne hsame]
  · rw [Ledger.setLease_lease] at hother
    by_cases hsame : other = hostId
    · rw [hsame, Function.update_self] at hother
      cases hother
      rw [hsame]
      exact hoccupied
    · rw [Function.update_of_ne hsame] at hother
      rw [h.occupied other lease hother, hrows other hsame]
  · rw [Ledger.setLease_lease] at hother
    by_cases hsame : other = hostId
    · rw [hsame, Function.update_self] at hother
      cases hother
      exact hvacated hgone
    · rw [Function.update_of_ne hsame] at hother
      exact ⟨(h.vacated other lease hother hgone).1, h.remembered hstep hother hgone⟩

/-- A call to the provider, answered or cut short, provisions a machine, releases one, or does
    nothing. -/
theorem Tracks.call {call : ProviderCall} {draw : Draw} (h : Tracks c ledger)
    (hreach : Reachable fakeProvider System.anyStep provider c)
    (hstep : (daemon fakeProvider).Step reconcileOnce c label c')
    (hdatabase : c'.world.database = c.world.database)
    (hawait : AwaitPoint c.log c.world.database (.provider call))
    (hchange : ResourceChange draw (resourceRows c) (some call) (resourceRows c')) :
    Entered ledger c' := by
  have hstutter : resourceRows c' = resourceRows c → Entered ledger c' := fun hsame =>
    h.stutter hstep (fun _ => by rw [hdatabase]) (fun _ => by rw [hdatabase]) hsame
  generalize hrows : resourceRows c' = rows at hchange
  cases hchange with
  | kept => exact hstutter hrows
  | @created hostId planId hnone =>
    generalize hlog : c.log = log at hawait
    cases hawait with
    | @create nowMs claim host base db turn hlive =>
      obtain ⟨⟨owner, terms, tenure⟩, hlease, hdeal⟩ := h.lease_of_host turn.stored
      have howner : owner = claim.resource.id := (Prod.mk.inj hdeal).1.trans turn.owner
      have hvacant : tenure = .vacant := by
        cases htenure : tenure with
        | vacant => rfl
        | occupied =>
          obtain ⟨row, hmem, hhost⟩ := (h.occupied _ _ hlease).mp htenure
          exact absurd hhost (hnone row hmem)
        | vacated =>
          have hlisted := (h.vacated _ _ hlease htenure).2
          have hsuffix : base <:+ c.log := by
            rw [hlog]
            exact List.suffix_append [_, _, _, _] base
          obtain ⟨claims, hclaims, hmem⟩ := turn.toTurn.listed hsuffix
          have hdeleting := hlisted claims hclaims claim hmem howner.symm
          rw [hlive] at hdeleting
          cases hdeleting
      subst hvacant
      refine ⟨_, .action (.provision hlease) (h.setLease hstep hdatabase hlease ?_ ?_ ?_)⟩
      · intro other hne
        rw [hrows]
        constructor
        · rintro ⟨row, hmem, rfl⟩
          rcases List.mem_append.mp hmem with hmem | hmem
          · exact ⟨row, hmem, rfl⟩
          · rw [List.mem_singleton.mp hmem] at hne
            exact absurd rfl hne
        · rintro ⟨row, hmem, hhost⟩
          exact ⟨row, List.mem_append_left _ hmem, hhost⟩
      · rw [hrows]
        exact iff_of_true rfl ⟨_, List.mem_append_right _ List.mem_cons_self, rfl⟩
      · exact fun hvacated => by cases hvacated
  | @deleted hostId =>
    by_cases hstored : ∃ row ∈ resourceRows c, row.hostId = hostId
    swap
    · refine hstutter (hrows.trans (List.filter_eq_self.mpr fun row hmem => ?_))
      exact decide_eq_true fun hhost => hstored ⟨row, hmem, hhost⟩
    generalize hlog : c.log = log at hawait
    cases hawait with
    | @delete nowMs claim host resource now base db turn hdeleting =>
      obtain ⟨⟨owner, terms, tenure⟩, hlease, hdeal⟩ := h.lease_of_host turn.stored
      have howner : owner = claim.resource.id := (Prod.mk.inj hdeal).1.trans turn.owner
      subst howner
      have hoccupied : tenure = .occupied := (h.occupied _ _ hlease).mpr hstored
      subst hoccupied
      have hdemand := h.demand_of_claim (turn.stored_of_deleting hdeleting)
      have hlisted : ListedDeleting claim.resource.id c'.log := by
        refine (turn.toTurn.listedDeleting hreach ?_ hdeleting).step hstep fun stored hstored => ?_
        · rw [hlog]
          exact List.suffix_append [_, _, _, _, _] base
        · rw [turn.stored_of_deleting hdeleting] at hstored
          cases hstored
          exact hdeleting
      refine ⟨_, .action (.release hlease hdemand hdeleting)
        (h.setLease hstep hdatabase hlease ?_ ?_ fun _ => ⟨⟨_, hdemand, hdeleting⟩, hlisted⟩)⟩
      · intro other hne
        rw [hrows]
        constructor
        · rintro ⟨row, hmem, hhost⟩
          exact ⟨row, (List.mem_filter.mp hmem).1, hhost⟩
        · rintro ⟨row, hmem, rfl⟩
          exact ⟨row, List.mem_filter.mpr ⟨hmem, decide_eq_true hne⟩, rfl⟩
      · rw [hrows]
        refine iff_of_false (by simp) ?_
        rintro ⟨row, hmem, hhost⟩
        exact of_decide_eq_true (List.mem_filter.mp hmem).2 hhost

/-- A claim that is stored anew, or in another state. -/
theorem Tracks.setDemand {claim : HostClaimRecord} (h : Tracks c ledger)
    (hstep : (daemon fakeProvider).Step reconcileOnce c label c')
    (hclaim : c'.world.database.claim? =
      Function.update c.world.database.claim? id (some claim))
    (hhosts : c'.world.database.host? = c.world.database.host?)
    (hrows : resourceRows c' = resourceRows c)
    (hwithdrawn : ∀ before, ledger.demand id = some before → before.withdrawn.isSome →
      claim.resource.deletionTimestamp.isSome) :
    Tracks c' (ledger.setDemand id claim.demand) := by
  refine ⟨?_, fun hostId => ?_, fun hostId lease hlease => ?_, fun hostId lease hlease hgone => ?_⟩
  · rw [Ledger.setDemand_demand, h.demand, hclaim]
    funext other
    by_cases hid : other = id
    · simp [hid]
    · simp [Function.update_of_ne hid]
  · rw [Ledger.setDemand_lease, h.lease, hhosts]
  · rw [hrows]
    exact h.occupied hostId lease hlease
  · obtain ⟨⟨before, hbefore, hdeleting⟩, -⟩ := h.vacated hostId lease hlease hgone
    refine ⟨?_, h.remembered hstep hlease hgone⟩
    rw [Ledger.setDemand_demand]
    by_cases hid : lease.owner = id
    · rw [hid] at hbefore ⊢
      exact ⟨_, Function.update_self .., hwithdrawn before hbefore hdeleting⟩
    · exact ⟨before, by rw [Function.update_of_ne hid, hbefore], hdeleting⟩

/-- What the other tasks of the daemon, and the provider on its own, enter. -/
theorem Tracks.interfere {world world' : World FakeState}
    {task : Option (Program Effect Answer (Except AppError ReconcileResult))} {log : Happened}
    (h : Tracks ⟨world, task, log⟩ ledger) (hinv : world.database.Invariant)
    (hother : World.Interfere fakeProvider world world') : Entered ledger ⟨world', task, log⟩ := by
  have hstep : (daemon fakeProvider).Step reconcileOnce ⟨world, task, log⟩ .interfere
      ⟨world', task, log⟩ := .interfere hother
  cases hother with
  | createClaim id spec now =>
    unfold Storage.run at hstep ⊢
    split at hstep
    · rename_i claim db' hcreate
      rcases Storage.createClaim_ok hinv.readable hcreate with
        ⟨-, -, -, rfl⟩ | ⟨hnone, -, -, hhosts, hclaim⟩
      · exact h.stutter hstep (fun _ => rfl) (fun _ => rfl) rfl
      · have hfree : ledger.demand id = none := by
          rw [h.demand]
          simp only [hnone, Option.map_none]
        refine ⟨_, .action (.submit hfree) (h.setDemand hstep hclaim hhosts rfl ?_)⟩
        intro before hbefore
        rw [hfree] at hbefore
        cases hbefore
    · exact h.stutter hstep (fun _ => rfl) (fun _ => rfl) rfl
  | markClaimDeleting id now =>
    unfold Storage.run at hstep ⊢
    split at hstep
    · rename_i claim db' hmark
      obtain ⟨stored, hstored, hcases⟩ := Storage.markClaimDeleting_ok hinv.readable hmark
      rcases hcases with ⟨-, -, rfl⟩ | ⟨hlive, -, -, hhosts, hclaim⟩
      · exact h.stutter hstep (fun _ => rfl) (fun _ => rfl) rfl
      · have hdemand : ledger.demand id =
            some ⟨(stored.resource.spec, stored.resource.createdAt), none,
              stored.resource.status.hostId⟩ := by
          rw [h.demand_of_claim hstored, ← hlive]
          rfl
        exact ⟨_, .action (.withdraw hdemand) (h.setDemand hstep hclaim hhosts rfl
          fun _ _ _ => rfl)⟩
    · exact h.stutter hstep (fun _ => rfl) (fun _ => rfl) rfl
  | wake => exact h.stutter hstep (fun _ => rfl) (fun _ => rfl) rfl
  | drift provider hdrift => exact h.stutter hstep (fun _ => rfl) (fun _ => rfl) hdrift.1

/-- A Host that is stored for a live claim without one. -/
theorem Tracks.ensureHost {claimId : HostClaimId} {planId : String} {resources : HostResources}
    {now : Timestamp} {claim : HostClaimRecord} (h : Tracks c ledger) (hownership : Ownership c)
    (hstep : (daemon fakeProvider).Step reconcileOnce c label c')
    (hstored : c.world.database.claim? claimId = some claim)
    (hlive : claim.resource.deletionTimestamp = none)
    (hunbound : claim.resource.status.hostId = none)
    (hfresh : c.world.database.host? hostId = none)
    (hhosts : c'.world.database.host? = Function.update c.world.database.host? hostId
      (some (Storage.newHost claimId planId resources hostId now)))
    (hclaims : c'.world.database.claim? =
      Function.update c.world.database.claim? claimId (some (Storage.assignHost claim hostId now)))
    (hrows : resourceRows c' = resourceRows c) : Entered ledger c' := by
  have hfree := h.lease_eq_none hfresh
  have hdemand : ledger.demand claimId =
      some ⟨(claim.resource.spec, claim.resource.createdAt), none, none⟩ := by
    rw [h.demand_of_claim hstored]
    simp only [HostClaimRecord.demand, hlive, hunbound]
  have hassigned : (Storage.assignHost claim hostId now).demand =
      ⟨(claim.resource.spec, claim.resource.createdAt), none, some hostId⟩ := by
    rw [← hlive]
    rfl
  have hgrant : Ledger.Step ledger (.grant claimId hostId)
      ((ledger.setDemand claimId _).setLease hostId ⟨claimId, (planId, resources), .vacant⟩) :=
    .grant hdemand hfree
  refine ⟨_, .action hgrant ⟨?_, fun other => ?_, fun other lease hother => ?_,
    fun other lease hother hgone => ?_⟩⟩
  · rw [Ledger.setLease_demand, Ledger.setDemand_demand, h.demand, hclaims]
    funext other
    by_cases hid : other = claimId
    · simp [hid, hassigned]
    · simp [Function.update_of_ne hid]
  · rw [Ledger.setLease_lease, Ledger.setDemand_lease, hhosts]
    by_cases hid : other = hostId
    · subst hid
      rw [Function.update_self, Function.update_self]
      rfl
    · rw [Function.update_of_ne hid, Function.update_of_ne hid, h.lease]
  · rw [Ledger.setLease_lease, Ledger.setDemand_lease] at hother
    rw [hrows]
    by_cases hid : other = hostId
    · subst hid
      rw [Function.update_self] at hother
      cases hother
      refine iff_of_false (by simp) ?_
      rintro ⟨row, hmem, rfl⟩
      obtain ⟨host, hhost, -⟩ := hownership.owned row hmem
      rw [hfresh] at hhost
      cases hhost
    · rw [Function.update_of_ne hid] at hother
      exact h.occupied other lease hother
  · rw [Ledger.setLease_lease, Ledger.setDemand_lease] at hother
    by_cases hid : other = hostId
    · subst hid
      rw [Function.update_self] at hother
      cases hother
      cases hgone
    · rw [Function.update_of_ne hid] at hother
      obtain ⟨⟨demand, hbefore, hwithdrawn⟩, -⟩ := h.vacated other lease hother hgone
      refine ⟨⟨demand, ?_, hwithdrawn⟩, h.remembered hstep hother hgone⟩
      have hne : lease.owner ≠ claimId := by
        intro heq
        rw [heq, hdemand] at hbefore
        cases hbefore
        cases hwithdrawn
      rw [Ledger.setLease_demand, Ledger.setDemand_demand, Function.update_of_ne hne, hbefore]

/-- A claim that is removed with its Host. -/
theorem Tracks.finalizeClaim {claim : HostClaimRecord} (h : Tracks c ledger)
    (hstep : (daemon fakeProvider).Step reconcileOnce c label c')
    (hstored : c.world.database.claim? id = some claim)
    (hdeleting : claim.resource.deletionTimestamp.isSome)
    (hvacant : ∀ hostId, claim.resource.status.hostId = some hostId →
      ∀ row ∈ resourceRows c, row.hostId ≠ hostId)
    (hclaims : c'.world.database.claim? = Function.update c.world.database.claim? id none)
    (hhosts : ∀ hostId, c'.world.database.host? hostId =
      (c.world.database.host? hostId).filter fun host => host.resource.claimId ≠ id)
    (hrows : resourceRows c' = resourceRows c) : Entered ledger c' := by
  have hdemand := h.demand_of_claim hstored
  have hempty : ∀ hostId, claim.demand.lease = some hostId → ¬ledger.Occupied hostId := by
    rintro hostId hbound ⟨lease, hlease, hoccupied⟩
    obtain ⟨row, hmem, hhost⟩ := (h.occupied hostId lease hlease).mp hoccupied
    exact hvacant hostId hbound row hmem hhost
  have hclose := Ledger.Step.close hdemand hdeleting hempty
  refine ⟨_, .action hclose ⟨?_, fun hostId => ?_, fun hostId lease hlease => ?_,
    fun hostId lease hlease hgone => ?_⟩⟩
  · rw [Ledger.strike_demand, h.demand, hclaims]
    funext other
    by_cases hid : other = id
    · simp [hid]
    · simp [Function.update_of_ne hid]
  · have hsame := h.lease hostId
    rw [Ledger.strike_lease, hhosts]
    cases hlease : ledger.lease hostId with
    | none =>
      rw [hlease] at hsame
      rw [Option.map_eq_none_iff.mp hsame.symm]
      rfl
    | some lease =>
      rw [hlease] at hsame
      obtain ⟨host, hhost, hdeal⟩ := Option.map_eq_some_iff.mp hsame.symm
      have howner : host.resource.claimId = lease.owner := (Prod.mk.inj hdeal).1
      rw [hhost]
      by_cases hid : lease.owner = id
      · simp [Option.filter, howner, hid]
      · simp [Option.filter, howner, hid, hdeal]
  · rw [hrows]
    exact h.occupied hostId lease (Option.filter_eq_some_iff.mp hlease).1
  · obtain ⟨hlease, hne⟩ := Option.filter_eq_some_iff.mp hlease
    obtain ⟨⟨demand, hbefore, hwithdrawn⟩, -⟩ := h.vacated hostId lease hlease hgone
    refine ⟨⟨demand, ?_, hwithdrawn⟩, h.remembered hstep hlease hgone⟩
    rw [Ledger.strike_demand, Function.update_of_ne (of_decide_eq_true hne), hbefore]

/-- What an answered effect enters. -/
theorem Tracks.answered {effect : Effect} {answer : Answer effect} (h : Tracks c ledger)
    (hinv : c.world.database.Invariant) (hownership : Ownership c)
    (hstep : (daemon fakeProvider).Step reconcileOnce c label c')
    (hawait : AwaitPoint c.log c.world.database effect)
    (hanswered : answered fakeProvider c.world effect answer c'.world)
    (hrows : resourceRows c' = resourceRows c) : Entered ledger c' := by
  have hkept : c'.world.database = c.world.database → Entered ledger c' := fun hsame =>
    h.stutter hstep (fun _ => by rw [hsame]) (fun _ => by rw [hsame]) hrows
  by_cases hreads : effect.reads = true
  · exact hkept (answered_reads hreads hanswered)
  cases effect with
  | ensureHost claimId planId resources =>
    rcases answered_ensureHost hanswered with ⟨_, hostId, now, -, hfresh, hensure⟩ | ⟨_, -, hsame⟩
    · obtain ⟨claim, hclaim, hlive, hcases⟩ := Storage.ensureHost_ok hinv.readable hensure
      rcases hcases with ⟨hsame, -⟩ | ⟨hunbound, -, rfl, hhosts, hclaims⟩
      · exact hkept hsame
      · exact h.ensureHost hownership hstep hclaim hlive hunbound
          ((Database.host?_eq_none hinv.readable).mpr hfresh) hhosts hclaims hrows
    · exact hkept hsame
  | saveHost record =>
    rcases answered_saveHost hanswered with ⟨-, hsave⟩ | ⟨_, -, hsame⟩
    · obtain ⟨stored, hstored, -, hclaims, hhosts⟩ := Storage.saveHost_ok hinv.readable hsave
      refine h.stutter hstep (fun _ => by rw [hclaims]) (fun hostId => ?_) hrows
      rw [hhosts]
      by_cases hid : hostId = record.resource.id
      · rw [hid, Function.update_self, hstored]
        rfl
      · rw [Function.update_of_ne hid]
    · exact hkept hsame
  | saveClaimStatus record =>
    rcases answered_saveClaimStatus hanswered with ⟨saved, -, hsave⟩ | ⟨_, -, hsame⟩
    · rcases Storage.saveClaimStatus_ok hinv.readable hsave with
        ⟨-, -, hhosts, stored, hstored, -, hclaims⟩ | ⟨-, hsame, -⟩
      · refine h.stutter hstep (fun id => ?_) (fun _ => by rw [hhosts]) hrows
        rw [hclaims]
        by_cases hid : id = record.resource.id
        · rw [hid, Function.update_self, hstored]
          rfl
        · rw [Function.update_of_ne hid]
      · exact hkept hsame
    · exact hkept hsame
  | finalizeClaim claimId =>
    rcases answered_finalizeClaim hanswered with ⟨-, hfinalize⟩ | ⟨_, -, hsame⟩
    · obtain ⟨-, -, hclaims, hhosts⟩ := Storage.finalizeClaim_ok hinv.readable hfinalize
      obtain ⟨claim, hclaim, hdeleting, hcases⟩ := hawait.finalizeClaim_cases
      refine h.finalizeClaim hstep hclaim hdeleting (fun hostId hbound => ?_) hclaims hhosts hrows
      rcases hcases with hunbound | ⟨observed, hobserved, hhead⟩
      · rw [hbound] at hunbound
        cases hunbound
      · rw [hbound] at hobserved
        cases hobserved
        have hrecalled := hownership.recalled
        cases hlog : c.log with
        | nil =>
          rw [hlog] at hhead
          cases hhead
        | cons event events =>
          rw [hlog] at hhead hrecalled
          cases hhead
          exact hrecalled
    · exact hkept hsame
  | _ => exact absurd rfl hreads

/-- Every step of the daemon enters one action or none. -/
theorem Tracks.step (h : Tracks c ledger)
    (hreach : Reachable fakeProvider System.anyStep provider c) (hownership : Ownership c)
    (hstep : (daemon fakeProvider).Step reconcileOnce c label c') : Entered ledger c' := by
  have sound := Reachable.sound hreach
  obtain ⟨draw, call, hchange, hcall⟩ := resource_change sound hstep
  cases call with
  | some called =>
    obtain ⟨hawait, hdatabase⟩ := hcall called rfl
    exact h.call hreach hstep hdatabase hawait hchange
  | none =>
    have hrows := hchange.eq_of_none
    cases hstep with
    | interfere hother => exact h.interfere sound.inv hother
    | start => exact h.stutter .start (fun _ => rfl) (fun _ => rfl) hrows
    | finish => exact h.stutter .finish (fun _ => rfl) (fun _ => rfl) hrows
    | crash hcrash =>
      obtain ⟨state, -, rfl⟩ := id hcrash
      exact h.stutter (.crash hcrash) (fun _ => rfl) (fun _ => rfl) hrows
    | perform hexec =>
      exact h.answered sound.inv hownership (.perform hexec) (sound.issue rfl) (.inl hexec) hrows
    | fault hfault =>
      exact h.answered sound.inv hownership (.fault hfault) (sound.issue rfl) (.inr hfault) hrows

/-! ## What follows for the daemon -/

theorem tracks_initial : Tracks (.idle (World.initial provider)) Ledger.empty := by
  refine ⟨rfl, fun _ => rfl, fun hostId lease hlease => ?_, fun hostId lease hlease => ?_⟩
  · cases hlease
  · cases hlease

/-- Some ledger tracks the daemon. -/
theorem tracked {provider : FakeState} (hempty : provider.database.providerResources = [])
    (h : Reachable fakeProvider System.anyStep provider c) :
    ∃ actions ledger,
      (Ledger.machine HostClaimId HostId (HostClaimSpec × Timestamp) Timestamp
        (String × HostResources)).Trace Ledger.empty actions ledger ∧ Tracks c ledger :=
  System.Reach.simulated h tracks_initial fun _ _ _ _ hreach hstep _ htracks =>
    htracks.step hreach (ownership_of_reachable hempty hreach) hstep

/-- Every provider resource is the machine of a lease. -/
theorem Tracks.occupied_of_row (h : Tracks c ledger) (hownership : Ownership c)
    {row : ProviderResourceRow} (hrow : row ∈ resourceRows c) : ledger.Occupied row.hostId := by
  obtain ⟨host, hhost, -⟩ := hownership.owned row hrow
  obtain ⟨lease, hlease, -⟩ := h.lease_of_host hhost
  exact ⟨lease, hlease, (h.occupied row.hostId lease hlease).mpr ⟨row, hrow, rfl⟩⟩

/-- The daemon refines the ledger, moment by moment: whatever is interleaved, whichever faults are
    injected and wherever it crashes, every step of a run from empty databases does one action to
    the ledger or none, and the claims, Hosts and provider resources are those of the ledger at
    every moment; every resource is the machine of a lease. -/
theorem refines_ledger {provider : FakeState} (hempty : provider.database.providerResources = [])
    {configs : Nat → Daemon FakeState} (hstart : configs 0 = .idle (World.initial provider))
    (hrun : System.History (daemon fakeProvider) reconcileOnce configs) :
    ∃ ledgers : Nat → HostLedger, ledgers 0 = Ledger.empty ∧
      (Ledger.machine HostClaimId HostId (HostClaimSpec × Timestamp) Timestamp
        (String × HostResources)).History ledgers ∧
      ∀ moment, Tracks (configs moment) (ledgers moment) ∧ (ledgers moment).Coherent ∧
        ∀ row ∈ resourceRows (configs moment), (ledgers moment).Occupied row.hostId := by
  have hreach : ∀ {c}, (daemon fakeProvider).Reach reconcileOnce System.anyStep (configs 0) c →
      Reachable fakeProvider System.anyStep provider c := by
    intro c hreach
    rw [hstart] at hreach
    exact hreach
  have hinitial : Tracks (configs 0) Ledger.empty := by
    rw [hstart]
    exact tracks_initial
  obtain ⟨ledgers, hledger, hhistory, htracks⟩ :=
    hrun.simulated hinitial fun first label second before hfirst hstep htracks =>
      htracks.step (hreach hfirst) (ownership_of_reachable hempty (hreach hfirst)) hstep
  refine ⟨ledgers, hledger, hhistory, fun moment => ⟨htracks moment, ?_, fun row hrow => ?_⟩⟩
  · exact hhistory.invariant Ledger.Coherent (by rw [hledger]; exact Ledger.coherent_empty)
      (fun _ _ _ hstep hcoherent => hcoherent.step hstep) moment
  · exact (htracks moment).occupied_of_row
      (ownership_of_reachable hempty (hreach (hrun.reach moment))) hrow

/-- The claim of a scenario is submitted and granted a Host, for which a machine is provisioned. -/
theorem refines_ledger_of_created : ∃ ledgers : Nat → HostLedger, ledgers 0 = Ledger.empty ∧
    (Ledger.machine HostClaimId HostId (HostClaimSpec × Timestamp) Timestamp
      (String × HostResources)).History ledgers ∧
    (ledgers FakeState.created.length).Occupied ⟨"h"⟩ := by
  have hplain : ∀ move ∈ FakeState.created, move.plain = true := by decide
  have hrun := Daemon.history_playAll (P := fakeProvider)
    (fun move hmem c => Daemon.play_step_plain FakeState.provides c (hplain move hmem))
    (.idle (World.initial FakeState.seeded))
  obtain ⟨ledgers, hledger, hhistory, hall⟩ := refines_ledger rfl rfl hrun
  have hrow : ∃ row ∈ resourceRows (FakeState.played FakeState.created), row.hostId = ⟨"h"⟩ := by
    decide +kernel
  obtain ⟨row, hrow, hid⟩ := hrow
  refine ⟨ledgers, hledger, hhistory, ?_⟩
  rw [← hid]
  refine (hall FakeState.created.length).2.2 row ?_
  rw [List.take_length]
  exact hrow

/-- The provider has a resource for a Host. -/
def Provided (c : Daemon FakeState) (hostId : HostId) : Prop :=
  ∃ row ∈ resourceRows c, row.hostId = hostId

instance (c : Daemon FakeState) (hostId : HostId) : Decidable (Provided c hostId) :=
  inferInstanceAs (Decidable (∃ row ∈ resourceRows c, _))

/-- A Host stays stored. -/
def KeepsHost (hostId : HostId) (_ : Daemon FakeState) (_ : Label) (after : Daemon FakeState) :
    Prop :=
  (after.world.database.host? hostId).isSome

/-- A Host gets a resource. -/
def GetsResource (hostId : HostId) (before : Daemon FakeState) (_ : Label)
    (after : Daemon FakeState) : Prop :=
  ¬Provided before hostId ∧ Provided after hostId

instance (hostId : HostId) (before : Daemon FakeState) (label : Label) (after : Daemon FakeState) :
    Decidable (GetsResource hostId before label after) :=
  inferInstanceAs (Decidable (_ ∧ _))

/-- There is a machine for a lease in the ledger if the provider has it. -/
theorem Tracks.occupiedBy_iff (h : Tracks c ledger)
    {lease : Lease HostClaimId (String × HostResources)}
    (hlease : ledger.lease hostId = some lease) :
    ledger.OccupiedBy lease.owner hostId ↔ Provided c hostId := by
  unfold Provided
  rw [← h.occupied hostId lease hlease]
  constructor
  · rintro ⟨found, hfound, -, hoccupied⟩
    rw [hlease] at hfound
    cases hfound
    exact hoccupied
  · exact fun hoccupied => ⟨lease, hlease, rfl, hoccupied⟩

/-- The ledger tells what is stored, also of a Host of a given claim. -/
def TracksHost (owner : HostClaimId) (hostId : HostId) (c : Daemon FakeState)
    (ledger : HostLedger) : Prop :=
  Tracks c ledger ∧ ∃ lease, ledger.lease hostId = some lease ∧ lease.owner = owner

/-- As long as a Host is stored, its claim is not closed, and it gets a resource when a machine is
    provisioned for it. -/
theorem TracksHost.step {owner : HostClaimId} (h : TracksHost owner hostId c ledger)
    (hreach : Reachable fakeProvider System.anyStep provider c) (hownership : Ownership c)
    (hstep : (daemon fakeProvider).Step reconcileOnce c label c')
    (hkept : KeepsHost hostId c label c') :
    ∃ action,
      Simulated (Ledger.machine _ _ _ _ _) (TracksHost owner hostId) ledger c' action ∧
      (∀ taken, action = some taken → taken ≠ .close owner) ∧
      (GetsResource hostId c label c' ↔ action = some (.provision owner hostId)) := by
  obtain ⟨htracks, lease, hlease, howner⟩ := h
  obtain ⟨action, hsimulated⟩ := htracks.step hreach hownership hstep
  obtain ⟨host, hhost⟩ := Option.isSome_iff_exists.mp hkept
  unfold GetsResource
  rw [← htracks.occupiedBy_iff hlease, howner]
  cases hsimulated with
  | stutter hafter =>
    refine ⟨none, .stutter ⟨hafter, lease, hlease, howner⟩, fun _ hnone => (by cases hnone), ?_⟩
    rw [← hafter.occupiedBy_iff hlease, howner]
    simp
  | @action taken after haction hafter =>
    obtain ⟨lease', hlease', -⟩ := hafter.lease_of_host hhost
    have howner' := (haction.owner hlease hlease').trans howner
    refine ⟨_, .action haction ⟨hafter, lease', hlease', howner'⟩, ?_, ?_⟩
    · rintro _ ⟨⟩ rfl
      cases haction
      exact of_decide_eq_true (Option.filter_eq_some_iff.mp hlease').2 howner'
    · rw [← hafter.occupiedBy_iff hlease', howner', Option.some_inj]
      exact haction.occupiedBy_iff

/-- As long as a Host is stored the provider creates a resource for it at most once: in any run in
    which the Host stays stored, one that is gone is never created again. -/
theorem resource_once {provider : FakeState} (hempty : provider.database.providerResources = [])
    (h : Reachable fakeProvider System.anyStep provider c)
    (hstored : (c.world.database.host? hostId).isSome) {count : Nat}
    (hrun : System.Counted (daemon fakeProvider) reconcileOnce (KeepsHost hostId)
      (GetsResource hostId) c count c') :
    count ≤ 1 := by
  obtain ⟨_, ledger, -, htracks⟩ := tracked hempty h
  obtain ⟨host, hhost⟩ := Option.isSome_iff_exists.mp hstored
  obtain ⟨lease, hlease, -⟩ := htracks.lease_of_host hhost
  obtain ⟨actions, last, htrace, -, hopen, hcount⟩ : ∃ actions last,
      (Ledger.machine _ _ _ _ _).Trace ledger actions last ∧ TracksHost lease.owner hostId c' last ∧
      (∀ action ∈ actions, action ≠ .close lease.owner) ∧
      actions.count (.provision lease.owner hostId) = count := by
    refine System.Counted.simulated hrun ⟨htracks, lease, hlease, rfl⟩ ?_
    rintro first label second before hreach hstep hkept htracks
    have hreach := h.trans hreach.any
    exact htracks.step hreach (ownership_of_reachable hempty hreach) hstep hkept
  rw [← hcount]
  exact Ledger.provisioned_once htrace hopen

/-- The state just before the Host of a scenario gets its resource. -/
def FakeState.creating : Daemon FakeState :=
  FakeState.played (FakeState.bound ++ .start :: List.replicate 6 (.perform .epoch))

/-- The state after that. -/
def FakeState.createdOnce : Daemon FakeState :=
  FakeState.creating.play FakeState.provide (.perform .epoch)

/-- The Host of a scenario gets its resource in one step, and that is all it will get. -/
theorem resource_once_of_creating :
    ∃ count, System.Counted (daemon fakeProvider) reconcileOnce (KeepsHost ⟨"h"⟩)
      (GetsResource ⟨"h"⟩) FakeState.creating count FakeState.createdOnce ∧
      0 < count ∧ count ≤ 1 := by
  have hgets : GetsResource ⟨"h"⟩ FakeState.creating .perform FakeState.createdOnce := by
    decide +kernel
  have hplain : (Move.perform .epoch : Move FakeState).plain = true := rfl
  have hstep : (daemon fakeProvider).Step reconcileOnce FakeState.creating .perform
      FakeState.createdOnce := by
    refine (Daemon.play_step_plain FakeState.provides FakeState.creating hplain).resolve_right ?_
    intro hsame
    rw [show FakeState.createdOnce = FakeState.creating from hsame] at hgets
    exact hgets.1 hgets.2
  have hkept : KeepsHost ⟨"h"⟩ FakeState.creating .perform FakeState.createdOnce :=
    show (FakeState.createdOnce.world.database.host? ⟨"h"⟩).isSome by decide +kernel
  have hrun := System.Counted.one .refl hstep hkept hgets
  exact ⟨_, hrun, Nat.zero_lt_one,
    resource_once rfl (FakeState.reachable (by decide)) (by decide +kernel) hrun⟩

/-- A Host of a claim that stays live keeps its resource, whatever else happens. -/
theorem resource_kept {provider : FakeState} (hempty : provider.database.providerResources = [])
    (h : Reachable fakeProvider System.anyStep provider c) {row : ProviderResourceRow}
    (hrow : row ∈ resourceRows c) {host : HostRecord}
    (hhost : c.world.database.host? row.hostId = some host)
    (hrun : (daemon fakeProvider).Reach reconcileOnce (KeepsLive host.resource.claimId) c c') :
    row ∈ resourceRows c' ∧ ∃ host', c'.world.database.host? row.hostId = some host' ∧
      host'.resource.claimId = host.resource.claimId := by
  refine hrun.invariant (fun c => row ∈ resourceRows c ∧ ∃ host',
    c.world.database.host? row.hostId = some host' ∧
      host'.resource.claimId = host.resource.claimId) ⟨hrow, host, hhost, rfl⟩ ?_
  rintro first label second hfirst hstep ⟨claim, hclaim, hlive⟩ ⟨hrow, stored, hstored, howner⟩
  have hreach := h.trans hfirst.any
  have sound := Reachable.sound hreach
  have hkept : row ∈ resourceRows second := by
    obtain ⟨draw, call, hchange, hcall⟩ := resource_change sound hstep
    generalize resourceRows second = rows at hchange
    cases hchange with
    | kept => exact hrow
    | created => exact List.mem_append_left _ hrow
    | @deleted hostId =>
      refine List.mem_filter.mpr ⟨hrow, decide_eq_true fun hsame => ?_⟩
      obtain ⟨hawait, hdatabase⟩ := hcall _ rfl
      generalize first.log = log at hawait
      cases hawait with
      | @delete nowMs deleted found resource now base db turn hdeleting =>
        rw [hsame, turn.stored] at hstored
        cases hstored
        rw [hdatabase, ← howner, show (deletionIntent found resource now).resource.claimId =
          deleted.resource.id from turn.owner, turn.stored_of_deleting hdeleting] at hclaim
        cases hclaim
        rw [hlive] at hdeleting
        cases hdeleting
  refine ⟨hkept, ?_⟩
  have hownership := ownership_of_reachable hempty (System.Reach.step hreach hstep trivial)
  obtain ⟨host', hhost', -⟩ := hownership.owned row hkept
  refine ⟨host', hhost', ?_⟩
  have hchange := host_change sound hstep row.hostId
  rw [hstored, hhost'] at hchange
  cases hchange with
  | kept => exact howner
  | saved => exact howner

/-- The pass goes on to its end, a second claim is created, and the next pass gives it a Host. -/
def FakeState.afterwards : List (Move FakeState) :=
  List.replicate 3 (.perform .epoch) ++ .finish ::
    .createClaim ⟨"second"⟩ ⟨⟨1, 1, 1⟩⟩ ⟨0⟩ :: Move.pass 13 .epoch

/-- The state after that. -/
def FakeState.createdLater : Daemon FakeState :=
  Daemon.playAll FakeState.provide FakeState.createdOnce FakeState.afterwards

/-- The Host of a scenario keeps its resource while a second claim gets its Host. -/
theorem resource_kept_of_createdOnce :
    ∃ row ∈ resourceRows FakeState.createdOnce, row ∈ resourceRows FakeState.createdLater ∧
      FakeState.createdLater.world.database.hosts.length = 2 := by
  have hprovided : Provided FakeState.createdOnce ⟨"h"⟩ := by decide +kernel
  obtain ⟨row, hrow, hid⟩ := hprovided
  have hhost : (FakeState.createdOnce.world.database.host? ⟨"h"⟩).map (·.resource.claimId) =
      some ⟨"claim"⟩ := by decide +kernel
  obtain ⟨host, hhost, howner⟩ := Option.map_eq_some_iff.mp hhost
  have hrun : (daemon fakeProvider).Reach reconcileOnce (KeepsLive ⟨"claim"⟩)
      FakeState.createdOnce FakeState.createdLater := by
    refine Daemon.reach_along (fun c move => move.plain &&
      ((c.play FakeState.provide move).world.database.claim? ⟨"claim"⟩).any
        (·.resource.deletionTimestamp.isNone)) (fun c move hkeeps => ?_) (fun c move hkeeps => ?_)
      FakeState.afterwards (by decide +kernel)
    · exact Daemon.play_step_plain FakeState.provides c ((Bool.and_eq_true _ _).mp hkeeps).1
    · obtain ⟨claim, hclaim, hlive⟩ :=
        (Option.any_eq_true _ _).mp ((Bool.and_eq_true _ _).mp hkeeps).2
      exact ⟨claim, hclaim, Option.isNone_iff_eq_none.mp hlive⟩
  rw [← howner] at hrun
  have hreach : Reachable fakeProvider System.anyStep FakeState.seeded FakeState.createdOnce := by
    have hmoves : FakeState.createdOnce = FakeState.played (FakeState.bound ++ .start ::
        List.replicate 7 (.perform .epoch)) := rfl
    rw [hmoves]
    exact FakeState.reachable (by decide)
  exact ⟨row, hrow, (resource_kept rfl hreach hrow (by rw [hid, hhost]) hrun).1,
    by decide +kernel⟩

end ControlPlane
