import ControlPlane.Controller.Walk

/-!
# What one step changes

A step of the daemon seen from one stored claim and from one stored Host. Every way the records
of a running daemon come to change is listed here once.
-/

namespace ControlPlane

open Interaction

variable {σ : Type} {P : ProviderModel σ} {c c' : Daemon σ} {label : Label}

/-- A step that adds an event to the log answered that effect. -/
theorem answered_of_log (sound : System.Sound (discipline P) (fun _ log _ => Quiet log) c)
    (hstep : (daemon P).Step reconcileOnce c label c') {effect : Effect} {answer : Answer effect}
    (hlog : c'.log = ⟨effect, answer⟩ :: c.log) :
    AwaitPoint c.log c.world.database effect ∧ answered P c.world effect answer c'.world ∧
      ∃ program, c'.task = some program := by
  cases hstep with
  | interfere => exact absurd hlog.symm (List.cons_ne_self _ _)
  | start => cases hlog
  | finish => cases hlog
  | crash => cases hlog
  | perform hexec =>
    cases hlog
    exact ⟨sound.issue rfl, .inl hexec, _, rfl⟩
  | fault hfault =>
    cases hlog
    exact ⟨sound.issue rfl, .inr hfault, _, rfl⟩

/-- What a step makes of a stored claim. -/
inductive ClaimChange (c : Daemon σ) (before : HostClaimRecord) :
    Option HostClaimRecord → Prop where
  | kept : ClaimChange c before (some before)
  | requested {now} : before.resource.deletionTimestamp = none →
      ClaimChange c before (some (Storage.requestDeletion before now))
  | assigned {hostId now} : before.resource.deletionTimestamp = none →
      before.resource.status.hostId = none →
      ClaimChange c before (some (Storage.assignHost before hostId now))
  | written {record} : c.pending = some (.saveClaimStatus record) →
      before.resource.id = record.resource.id →
      before.resource.deletionTimestamp = record.resource.deletionTimestamp →
      AwaitPoint c.log c.world.database (.saveClaimStatus record) →
      ClaimChange c before (some (before.withStatus record))
  | removed : c.pending = some (.finalizeClaim before.resource.id) →
      AwaitPoint c.log c.world.database (.finalizeClaim before.resource.id) →
      ClaimChange c before none

theorem claimChange_of_rely {id : HostClaimId} {before : HostClaimRecord}
    (hrely : c.world.database.Rely c'.world.database)
    (hbefore : c.world.database.claim? id = some before) :
    ClaimChange c before (c'.world.database.claim? id) := by
  have hfresh := hrely.claims hbefore
  unfold Database.Fresh at hfresh
  rw [Database.claim?_id hbefore] at hfresh
  rcases hfresh with hsame | ⟨hlive, now, hrequested⟩
  · rw [hsame]
    exact .kept
  · rw [hrequested]
    exact .requested hlive

/-- A step changes a stored claim in one of these ways. -/
theorem claim_change (sound : System.Sound (discipline P) (fun _ log _ => Quiet log) c)
    (hstep : (daemon P).Step reconcileOnce c label c') {id : HostClaimId}
    {before : HostClaimRecord} (hbefore : c.world.database.claim? id = some before) :
    ClaimChange c before (c'.world.database.claim? id) := by
  have hinv : c.world.database.Invariant := sound.inv
  have hid := Database.claim?_id hbefore
  have hkept : ∀ {db' : Database}, db'.claim? id = c.world.database.claim? id →
      ClaimChange c before (db'.claim? id) := by
    intro db' hsame
    rw [hsame, hbefore]
    exact .kept
  rcases step_cases sound hstep with hrely | ⟨effect, answer, hpending, hawait, hanswered, -⟩
  · exact claimChange_of_rely hrely hbefore
  by_cases hreads : effect.reads = true
  · exact hkept (by rw [answered_reads hreads hanswered])
  cases effect with
  | saveHost record =>
    rcases answered_saveHost hanswered with ⟨-, hsave⟩ | ⟨_, -, hsame⟩
    · obtain ⟨-, -, -, hclaim, -⟩ := Storage.saveHost_ok hinv.readable hsave
      exact hkept (by rw [hclaim])
    · exact hkept (by rw [hsame])
  | ensureHost claimId planId resources =>
    rcases answered_ensureHost hanswered with ⟨_, hostId, now, -, -, hensure⟩ | ⟨_, -, hsame⟩
    · obtain ⟨claim, hclaim, hlive, hcases⟩ :=
        Storage.ensureHost_ok hinv.readable hensure
      rcases hcases with ⟨hsame, -⟩ | ⟨hunbound, -, -, -, hupdate⟩
      · exact hkept (by rw [hsame])
      · by_cases heq : id = claimId
        · rw [← heq, hbefore] at hclaim
          cases hclaim
          rw [hupdate, ← heq, Function.update_self]
          exact .assigned hlive hunbound
        · exact hkept (by rw [hupdate, Function.update_of_ne heq])
    · exact hkept (by rw [hsame])
  | saveClaimStatus record =>
    rcases answered_saveClaimStatus hanswered with ⟨saved, -, hsave⟩ | ⟨_, -, hsame⟩
    · rcases Storage.saveClaimStatus_ok hinv.readable hsave with
        ⟨-, -, -, stored, hstored, hdeletion, hclaim⟩ | ⟨-, hsame, -⟩
      · by_cases heq : id = record.resource.id
        · rw [← heq, hbefore] at hstored
          cases hstored
          rw [hclaim, ← heq, Function.update_self]
          exact .written hpending (hid.trans heq) hdeletion hawait
        · exact hkept (by rw [hclaim, Function.update_of_ne heq])
      · exact hkept (by rw [hsame])
    · exact hkept (by rw [hsame])
  | finalizeClaim claimId =>
    rcases answered_finalizeClaim hanswered with ⟨-, hfinalize⟩ | ⟨_, -, hsame⟩
    · obtain ⟨-, -, hclaim, -⟩ := Storage.finalizeClaim_ok hinv.readable hfinalize
      by_cases heq : id = claimId
      · rw [hclaim, ← heq, Function.update_self]
        rw [← heq, ← hid] at hpending hawait
        exact .removed hpending hawait
      · exact hkept (by rw [hclaim, Function.update_of_ne heq])
    · exact hkept (by rw [hsame])
  | _ => exact absurd rfl hreads

/-- A deletion timestamp is for ever. -/
theorem deletionTimestamp_of_change {before after : HostClaimRecord}
    (h : ClaimChange c before (some after))
    (hdeleting : before.resource.deletionTimestamp.isSome) :
    after.resource.deletionTimestamp = before.resource.deletionTimestamp := by
  cases h with
  | kept => rfl
  | requested hlive | assigned hlive => simp [hlive] at hdeleting
  | written => rfl

/-- A claim that a step adds is an initial claim. -/
theorem claim_appears (sound : System.Sound (discipline P) (fun _ log _ => Quiet log) c)
    (hstep : (daemon P).Step reconcileOnce c label c') {id : HostClaimId}
    {after : HostClaimRecord} (hbefore : c.world.database.claim? id = none)
    (hafter : c'.world.database.claim? id = some after) :
    ∃ spec now, after = { resource := initialClaim id spec now, retry := RetryState.default } := by
  have hinv : c.world.database.Invariant := sound.inv
  have hkept : ∀ {db' : Database}, db'.claim? = c.world.database.claim? → db'.claim? id = none := by
    intro db' hsame
    rw [hsame, hbefore]
  have hupdated : ∀ {db' : Database} {claimId : HostClaimId} {stored : HostClaimRecord}
      {next : Option HostClaimRecord}, c.world.database.claim? claimId = some stored →
      db'.claim? = Function.update c.world.database.claim? claimId next → db'.claim? id = none := by
    intro db' claimId stored next hstored hclaim
    have hne : id ≠ claimId := by
      rintro rfl
      rw [hbefore] at hstored
      cases hstored
    rw [hclaim, Function.update_of_ne hne, hbefore]
  have hanswered : ∀ {effect : Effect} {answer : Answer effect} {world' : World σ},
      answered P c.world effect answer world' → world'.database.claim? id = none := by
    intro effect answer world' hanswered
    by_cases hreads : effect.reads = true
    · exact hkept (by rw [answered_reads hreads hanswered])
    cases effect with
    | saveHost record =>
      rcases answered_saveHost hanswered with ⟨-, hsave⟩ | ⟨_, -, hsame⟩
      · obtain ⟨-, -, -, hclaim, -⟩ := Storage.saveHost_ok hinv.readable hsave
        exact hkept hclaim
      · exact hkept (by rw [hsame])
    | ensureHost claimId planId resources =>
      rcases answered_ensureHost hanswered with ⟨_, _, _, -, -, hensure⟩ | ⟨_, -, hsame⟩
      · obtain ⟨claim, hclaim, -, hcases⟩ := Storage.ensureHost_ok hinv.readable hensure
        rcases hcases with ⟨hsame, -⟩ | ⟨-, -, -, -, hupdate⟩
        · exact hkept (by rw [hsame])
        · exact hupdated hclaim hupdate
      · exact hkept (by rw [hsame])
    | saveClaimStatus record =>
      rcases answered_saveClaimStatus hanswered with ⟨saved, -, hsave⟩ | ⟨_, -, hsame⟩
      · rcases Storage.saveClaimStatus_ok hinv.readable hsave with
          ⟨-, -, -, stored, hstored, -, hclaim⟩ | ⟨-, hsame, -⟩
        · exact hupdated hstored hclaim
        · exact hkept (by rw [hsame])
      · exact hkept (by rw [hsame])
    | finalizeClaim claimId =>
      rcases answered_finalizeClaim hanswered with ⟨-, hfinalize⟩ | ⟨_, -, hsame⟩
      · obtain ⟨⟨claim, hstored⟩, -, hclaim, -⟩ :=
          Storage.finalizeClaim_ok hinv.readable hfinalize
        exact hupdated hstored hclaim
      · exact hkept (by rw [hsame])
    | _ => exact absurd rfl hreads
  cases hstep with
  | interfere hother =>
    cases hother with
    | createClaim claimId spec now =>
      unfold Storage.run at hafter
      split at hafter
      · rename_i claim db' hcreate
        rcases Storage.createClaim_ok hinv.readable hcreate with
          ⟨stored, -, -, hsame⟩ | ⟨-, -, -, -, hclaim⟩
        · rw [hkept (by rw [hsame])] at hafter
          cases hafter
        · dsimp only at hafter
          by_cases hid : id = claimId
          · subst hid
            rw [hclaim, Function.update_self] at hafter
            exact ⟨spec, now, (Option.some_inj.mp hafter).symm⟩
          · rw [hclaim, Function.update_of_ne hid, hbefore] at hafter
            cases hafter
      · rw [hkept rfl] at hafter
        cases hafter
    | markClaimDeleting claimId now =>
      unfold Storage.run at hafter
      split at hafter
      · rename_i claim db' hmark
        obtain ⟨stored, hstored, hcases⟩ := Storage.markClaimDeleting_ok hinv.readable hmark
        rcases hcases with ⟨-, -, hsame⟩ | ⟨-, -, -, -, hclaim⟩
        · rw [hkept (by rw [hsame])] at hafter
          cases hafter
        · rw [hupdated hstored hclaim] at hafter
          cases hafter
      · rw [hkept rfl] at hafter
        cases hafter
    | wake | drift => exact absurd (hbefore.symm.trans hafter) nofun
  | start | finish => exact absurd (hbefore.symm.trans hafter) nofun
  | crash hcrash =>
    obtain ⟨provider, -, rfl⟩ := hcrash
    exact absurd (hbefore.symm.trans hafter) nofun
  | perform hexec =>
    rw [hanswered (.inl hexec)] at hafter
    cases hafter
  | fault hfault =>
    rw [hanswered (.inr hfault)] at hafter
    cases hafter

/-- What a step makes of what is stored for a Host. -/
inductive HostChange (c c' : Daemon σ) (hostId : HostId) :
    Option HostRecord → Option HostRecord → Prop where
  | kept {stored} : HostChange c c' hostId stored stored
  | inserted {claimId providerPlanId resources now claim} :
      c.pending = some (.ensureHost claimId providerPlanId resources) →
      c.world.database.claim? claimId = some claim →
      claim.resource.deletionTimestamp = none → claim.resource.status.hostId = none →
      HostChange c c' hostId none
        (some (Storage.newHost claimId providerPlanId resources hostId now))
  | saved {before record} : c.pending = some (.saveHost record) →
      c'.log = ⟨.saveHost record, .ok ()⟩ :: c.log → hostId = record.resource.id →
      AwaitPoint c.log c.world.database (.saveHost record) →
      HostChange c c' hostId (some before) (some (before.withStatus record))
  | removed {before} : c.pending = some (.finalizeClaim before.resource.claimId) →
      HostChange c c' hostId (some before) none

/-- A step changes a stored Host in one of these ways. -/
theorem host_change (sound : System.Sound (discipline P) (fun _ log _ => Quiet log) c)
    (hstep : (daemon P).Step reconcileOnce c label c') (hostId : HostId) :
    HostChange c c' hostId (c.world.database.host? hostId) (c'.world.database.host? hostId) := by
  have hinv : c.world.database.Invariant := sound.inv
  have hkept : ∀ {db' : Database}, db'.host? hostId = c.world.database.host? hostId →
      HostChange c c' hostId (c.world.database.host? hostId) (db'.host? hostId) := by
    intro db' hsame
    rw [hsame]
    exact .kept
  rcases step_cases sound hstep with hrely | ⟨effect, answer, hpending, hawait, hanswered, hlog⟩
  · exact hkept (by rw [hrely.hosts])
  by_cases hreads : effect.reads = true
  · exact hkept (by rw [answered_reads hreads hanswered])
  cases effect with
  | saveHost record =>
    rcases answered_saveHost hanswered with ⟨rfl, hsave⟩ | ⟨_, -, hsame⟩
    · obtain ⟨stored, hstored, -, -, hhost⟩ := Storage.saveHost_ok hinv.readable hsave
      by_cases heq : hostId = record.resource.id
      · rw [hhost, heq, Function.update_self, hstored]
        exact .saved hpending hlog rfl hawait
      · exact hkept (by rw [hhost, Function.update_of_ne heq])
    · exact hkept (by rw [hsame])
  | ensureHost claimId planId resources =>
    rcases answered_ensureHost hanswered with ⟨_, newId, now, -, hfresh, hensure⟩ | ⟨_, -, hsame⟩
    · obtain ⟨claim, hclaim, hlive, hcases⟩ :=
        Storage.ensureHost_ok hinv.readable hensure
      rcases hcases with ⟨hsame, -⟩ | ⟨hunbound, -, rfl, hhost, -⟩
      · exact hkept (by rw [hsame])
      · by_cases heq : hostId = newId
        · have hnone := (Database.host?_eq_none hinv.readable).mpr hfresh
          rw [hhost, heq, Function.update_self, hnone]
          exact .inserted hpending hclaim hlive hunbound
        · exact hkept (by rw [hhost, Function.update_of_ne heq])
    · exact hkept (by rw [hsame])
  | saveClaimStatus record =>
    rcases answered_saveClaimStatus hanswered with ⟨saved, -, hsave⟩ | ⟨_, -, hsame⟩
    · rcases Storage.saveClaimStatus_ok hinv.readable hsave with ⟨-, -, hhost, -⟩ | ⟨-, hsame, -⟩
      · exact hkept (by rw [hhost])
      · exact hkept (by rw [hsame])
    · exact hkept (by rw [hsame])
  | finalizeClaim claimId =>
    rcases answered_finalizeClaim hanswered with ⟨-, hfinalize⟩ | ⟨_, -, hsame⟩
    · obtain ⟨-, -, -, hhost⟩ := Storage.finalizeClaim_ok hinv.readable hfinalize
      rw [hhost]
      cases hstored : c.world.database.host? hostId with
      | none => exact .kept
      | some host =>
        by_cases howner : host.resource.claimId = claimId
        · rw [← howner] at hpending
          simp only [Option.filter, howner, ne_eq, not_true_eq_false, decide_false]
          exact .removed hpending
        · simp only [Option.filter, howner, ne_eq, not_false_eq_true, decide_true]
          exact .kept
    · exact hkept (by rw [hsame])
  | _ => exact absurd rfl hreads

end ControlPlane
