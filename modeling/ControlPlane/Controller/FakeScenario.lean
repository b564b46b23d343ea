import ControlPlane.Controller.Scenario
import ControlPlane.Provider.FakeModel

/-!
# Scenarios with the fake provider

The fake provider as a function of its state, so that a list of moves computes a state the daemon
reaches with it.
-/

namespace ControlPlane

open Interaction

namespace FakeState

/-- A UUID that has not been drawn: it is longer than all of them together. -/
def unusedUuid (state : FakeState) : String :=
  String.ofList (List.replicate ((state.drawn.map String.length).sum + 1) 'u')

theorem unusedUuid_notMem (state : FakeState) : state.unusedUuid ∉ state.drawn := by
  intro hmem
  have hle : state.unusedUuid.length ≤ (state.drawn.map String.length).sum :=
    List.single_le_sum (fun _ _ => Nat.zero_le _) _ (List.mem_map_of_mem hmem)
  simp only [unusedUuid, String.length_ofList, List.length_replicate] at hle
  omega

/-- What a call draws. -/
def draw (state : FakeState) : Draw :=
  ⟨state.unusedUuid, ⟨0⟩⟩

/-- The answer to a call. -/
def provide (state : FakeState) (call : ProviderCall) : ProviderAnswer call × FakeState :=
  ((FakeProvider.perform state.draw call state.database).1,
    { database := (FakeProvider.perform state.draw call state.database).2
      drawn := state.draw.uuid :: state.drawn })

theorem provides : fakeProvider.Provides provide :=
  fun state _ => ⟨state.draw, state.unusedUuid_notMem, rfl, rfl⟩

/-- The fake provider once it has connected for the first time. -/
def seeded : FakeState where
  database :=
    { plans := FakeProvider.seedPlans, providerResources := [], faults := [],
      schema := by decide +kernel }
  drawn := []

/-- The state a scenario ends in, from empty databases. -/
def played (moves : List (Move FakeState)) : Daemon FakeState :=
  Daemon.playAll provide (.idle (World.initial seeded)) moves

theorem reachable {moves : List (Move FakeState)} (hplain : ∀ move ∈ moves, move.plain = true) :
    Reachable fakeProvider System.anyStep seeded (played moves) :=
  Daemon.reachable_plain provides (fun _ _ _ => trivial) hplain .refl

/-- A claim is created and gets a Host. -/
def bound : List (Move FakeState) :=
  .createClaim ⟨"claim"⟩ ⟨⟨1, 1, 1⟩⟩ ⟨0⟩ :: Move.pass 5 .epoch

/-- Its Host then gets a resource. -/
def created : List (Move FakeState) :=
  bound ++ Move.pass 10 .epoch

end FakeState

end ControlPlane
