import ControlPlane.Controller.Scenario
import ControlPlane.Controller.Walk

/-!
# Intent before every external mutation

Where the daemon comes to `create` or `delete`, the Host row already says so, and what the pass
observed of the Host is what allows the call.
-/

namespace ControlPlane

open Interaction

variable {σ : Type} {P : ProviderModel σ} {provider : σ} {c : Daemon σ}

/-- The pass observed the Host once, and was answered `answer`. -/
def ObservedAs (log : Happened) (hostId : HostId)
    (answer : Except ProviderError ProviderObservation) : Prop :=
  ⟨.provider (.observe hostId), answer⟩ ∈ log ∧
    ∀ other, ⟨.provider (.observe hostId), other⟩ ∈ log → other = answer

/-- The pass read the Host once, as `host`. -/
def ReadAs (log : Happened) (hostId : HostId) (host : HostRecord) : Prop :=
  ⟨.getHost hostId, .ok host⟩ ∈ log ∧ ∀ other, ⟨.getHost hostId, .ok other⟩ ∈ log → other = host

/-- What is stored and known where `create` is called. -/
structure CreateIntended (db : Database) (log : Happened) (hostId : HostId) (planId : String) :
    Prop where
  row : ∃ row ∈ db.hosts, row.id = hostId ∧ row.providerPlanId = planId ∧
    row.phase = "provisioning" ∧ row.providerResourceId = none
  observed : ObservedAs log hostId (.ok .absent)

/-- What is stored and known where `delete` is called. -/
structure DeleteIntended (db : Database) (log : Happened) (hostId : HostId) : Prop where
  row : ∃ row ∈ db.hosts, row.id = hostId ∧ row.phase = "deleting" ∧
    (∃ claim ∈ db.hostClaims, claim.id = row.claimId ∧ claim.deletionTimestamp.isSome) ∧
    ∃ resource, ObservedAs log hostId (.ok (.present resource)) ∧
      row.providerResourceId = some resource.id ∧
      ∃ host, ReadAs log hostId host ∧
        ∀ expected, host.resource.status.providerResourceId = some expected →
          expected = resource.id

theorem recordedElsewhere_eq_none {host : HostRecord} {resource : ProviderResource}
    (h : recordedElsewhere host resource = none) {expected : String}
    (hexpected : host.resource.status.providerResourceId = some expected) :
    expected = resource.id := by
  unfold recordedElsewhere at h
  rw [hexpected] at h
  simpa [Option.filter] using h

section

variable {nowMs : Int64} {claim : HostClaimRecord} {host stored : HostRecord} {log : Happened}
  {db : Database}

/-- Nothing of what happened before a turn is about its Host. -/
theorem HostTurn.unseen_event (turn : HostTurn nowMs claim host stored log db)
    {event : Event Effect Answer} (hmem : event ∈ log) :
    lookedAt event ≠ some host.resource.id :=
  turn.toTurn.unseen _ turn.bound event hmem

theorem AwaitPoint.createIntended {hostId : HostId} {planId : String}
    (h : AwaitPoint log db (.provider (.create hostId planId))) :
    CreateIntended db log hostId planId := by
  cases h with
  | @create nowMs claim host log db turn hlive hunrecorded hpending =>
    obtain ⟨row, hmem, hid, hdecode⟩ := Database.host?_eq_some.mp turn.stored
    have hcolumns := hostColumns hdecode
    refine ⟨⟨row, hmem, hid, ?_, hostPhaseFromDb_eq_ok hcolumns.phase, ?_⟩, ?_, ?_⟩
    · exact hcolumns.providerPlanId.symm
    · exact hcolumns.providerResourceId.symm.trans hunrecorded
    · exact List.mem_cons_of_mem _ List.mem_cons_self
    · intro other hother
      simp only [hostOpened, List.mem_cons] at hother
      rcases hother with h | h | h | h | h
      · cases h
      · cases h
        rfl
      · cases h
      · cases h
      · exact absurd rfl (turn.unseen_event h)

theorem AwaitPoint.deleteIntended {hostId : HostId}
    (h : AwaitPoint log db (.provider (.delete hostId))) : DeleteIntended db log hostId := by
  cases h with
  | @delete nowMs claim host resource now log db turn hdeleting helsewhere =>
    obtain ⟨row, hmem, hid, hdecode⟩ := Database.host?_eq_some.mp turn.stored
    have hcolumns := hostColumns hdecode
    have howner : row.claimId = claim.resource.id := by
      rw [← turn.owner]
      exact hcolumns.claimId.symm
    obtain ⟨claimRow, hclaimMem, hclaimId, hclaimDecode⟩ :=
      Database.claim?_eq_some.mp (turn.stored_of_deleting hdeleting)
    have hdeletion := (claimColumns hclaimDecode).deletionTimestamp
    rw [hdeletion] at hdeleting
    refine ⟨⟨row, hmem, hid, hostPhaseFromDb_eq_ok hcolumns.phase,
      ⟨claimRow, hclaimMem, hclaimId.trans howner.symm, hdeleting⟩, resource, ⟨?_, ?_⟩,
      hcolumns.providerResourceId.symm, host, ⟨?_, ?_⟩,
      fun _ => recordedElsewhere_eq_none helsewhere⟩⟩
    · simp
    · intro other hother
      simp only [deletionOpened, List.mem_cons] at hother
      rcases hother with h | h | h | h | h | h
      · cases h
      · cases h
      · cases h
        rfl
      · cases h
      · cases h
      · exact absurd rfl (turn.unseen_event h)
    · simp [deletionOpened]
    · intro other hother
      simp only [deletionOpened, List.mem_cons] at hother
      rcases hother with h | h | h | h | h | h
      · cases h
      · cases h
      · cases h
      · cases h
        rfl
      · cases h
      · exact absurd rfl (turn.unseen_event h)

end

/-- Intent is persisted before every external mutation. Where `create` is called, the Host row
    records the plan and the phase `provisioning` without a provider resource, and the pass
    observed the Host to be Absent. Where `delete` is called, the claim is being deleted, and the
    Host row records the phase `deleting` and the resource the pass observed, which is the one
    recorded before if there was one. So a pass that observed another resource than the recorded
    one calls neither for that Host. -/
theorem intent_is_persisted (h : Reachable P System.anyStep provider c) :
    (∀ hostId planId, c.pending = some (.provider (.create hostId planId)) →
      CreateIntended c.world.database c.log hostId planId) ∧
    (∀ hostId, c.pending = some (.provider (.delete hostId)) →
      DeleteIntended c.world.database c.log hostId) ∧
    (∀ hostId host resource expected,
      ⟨.getHost hostId, .ok host⟩ ∈ c.log →
      ⟨.provider (.observe hostId), .ok (.present resource)⟩ ∈ c.log →
      host.resource.status.providerResourceId = some expected → expected ≠ resource.id →
      (∀ planId, c.pending ≠ some (.provider (.create hostId planId))) ∧
        c.pending ≠ some (.provider (.delete hostId))) := by
  have hcreate : ∀ hostId planId, c.pending = some (.provider (.create hostId planId)) →
      CreateIntended c.world.database c.log hostId planId := by
    intro hostId planId hpending
    have hissue : AwaitPoint c.log c.world.database (.provider (.create hostId planId)) :=
      h.sound.issue hpending
    exact hissue.createIntended
  have hdelete : ∀ hostId, c.pending = some (.provider (.delete hostId)) →
      DeleteIntended c.world.database c.log hostId := by
    intro hostId hpending
    have hissue : AwaitPoint c.log c.world.database (.provider (.delete hostId)) :=
      h.sound.issue hpending
    exact hissue.deleteIntended
  refine ⟨hcreate, hdelete, fun hostId host resource expected hread hobserved hrecorded hne =>
    ⟨fun planId hpending => ?_, fun hpending => ?_⟩⟩
  · have habsent := (hcreate hostId planId hpending).observed.2 _ hobserved
    cases habsent
  · obtain ⟨row, -, -, -, -, found, hfound, -, asRead, hasRead, hexpected⟩ :=
      (hdelete hostId hpending).row
    cases hfound.2 _ hobserved
    rw [hasRead.2 host hread] at hrecorded
    exact hne (hexpected expected hrecorded)

/-- The intent to delete is stored where `delete` is called. -/
theorem intent_is_persisted_of_intending :
    DeleteIntended (Script.played .willing Script.intending).world.database
      (Script.played .willing Script.intending).log ⟨"h"⟩ :=
  (intent_is_persisted (Script.reachable _ _)).2.1 _ (by decide +kernel)

end ControlPlane
