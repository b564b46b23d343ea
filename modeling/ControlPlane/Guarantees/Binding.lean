import ControlPlane.Controller.Scenario
import ControlPlane.Controller.Walk

/-!
# Bound and Accepted tell the truth

In every stored state of a running daemon a claim says that it is Bound, and that it is Accepted,
exactly when a Host row of the claim exists, and a bound claim has been observed at its current
generation.
-/

namespace ControlPlane

open Interaction

variable {σ : Type} {P : ProviderModel σ} {provider : σ}

/-- A row decoded under the invariant belongs to a truthful claim, bound exactly when a Host row
    refers to it. -/
theorem Database.Invariant.claim_of_row {db : Database} (h : db.Invariant) {row : HostClaimRow}
    (hmem : row ∈ db.hostClaims) :
    ∃ claim, claimRecordFromRow (Storage.joinHost db row) = .ok claim ∧ claim.Truthful ∧
      (claim.resource.status.hostId.isSome ↔ ∃ host ∈ db.hosts, host.claimId = row.id) := by
  obtain ⟨claim, hclaim, hdecode⟩ := h.readable.claim_of_row hmem
  refine ⟨claim, hdecode, h.claims hclaim, ?_⟩
  have hjoined := (claimColumns hdecode).hostId
  rw [hjoined, Option.isSome_iff_exists]
  constructor
  · rintro ⟨hostId, hhostId⟩
    obtain ⟨host, hhost, howner, -⟩ := Database.joinHost_hostId.mp hhostId
    exact ⟨host, hhost, howner⟩
  · rintro ⟨host, hhost, howner⟩
    exact ⟨host.id, Database.joinHost_hostId.mpr ⟨host, hhost, howner, rfl⟩⟩

/-- In every reachable stored state, for every claim: `Bound` is True, and `Accepted` is True,
    exactly when a Host row of the claim exists, and then the claim has been observed at its
    generation. -/
theorem bound_and_accepted_iff_host {c : Daemon σ}
    (h : Reachable P System.anyStep provider c) :
    ∀ row ∈ c.world.database.hostClaims,
      (conditionStatus row.conditionsJson "Bound" = some .true ↔
        ∃ host ∈ c.world.database.hosts, host.claimId = row.id) ∧
      (conditionStatus row.conditionsJson "Accepted" = some .true ↔
        ∃ host ∈ c.world.database.hosts, host.claimId = row.id) ∧
      ((∃ host ∈ c.world.database.hosts, host.claimId = row.id) →
        row.observedGeneration = row.generation) := by
  intro row hmem
  have hinv : c.world.database.Invariant := h.sound.inv
  obtain ⟨claim, hdecode, htruthful, hhost⟩ := hinv.claim_of_row hmem
  have hcolumns := claimColumns hdecode
  have hconditions : claim.resource.status.conditions = row.conditionsJson :=
    hcolumns.conditions
  rw [← hconditions, ← hhost]
  refine ⟨htruthful.bound.symm, htruthful.accepted.symm, fun hbound => ?_⟩
  have hobserved := hcolumns.observedGeneration
  rw [htruthful.observed hbound] at hobserved
  exact toU64_injective hobserved hcolumns.generation

/-- A claim with a Ready Host says that it is bound and observed. -/
theorem bound_and_accepted_of_readied :
    ∃ row ∈ (Script.played .willing Script.readied).world.database.hostClaims,
      conditionStatus row.conditionsJson "Bound" = some .true ∧
        conditionStatus row.conditionsJson "Accepted" = some .true ∧
        row.observedGeneration = row.generation := by
  have hhost : ∃ row ∈ (Script.played .willing Script.readied).world.database.hostClaims,
      ∃ host ∈ (Script.played .willing Script.readied).world.database.hosts,
        host.claimId = row.id := by decide +kernel
  obtain ⟨row, hmem, hhost⟩ := hhost
  obtain ⟨hbound, haccepted, hobserved⟩ :=
    bound_and_accepted_iff_host (Script.reachable _ _) row hmem
  exact ⟨row, hmem, hbound.mpr hhost, haccepted.mpr hhost, hobserved hhost⟩

end ControlPlane
