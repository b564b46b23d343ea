import ControlPlane.Interaction.Refinement
import Mathlib.Logic.Function.Basic

/-!
# A ledger of demands and leases

What a broker of machines is for. A client submits a demand, is granted a lease of one machine for
it, and withdraws it. The machine of a lease is provisioned and released; a demand is closed, and
its lease with it, once nothing is left to pay for.
-/

namespace ControlPlane

open Interaction

/-- A demand: what was asked for, when it was withdrawn, and the machine it was granted. -/
structure Demand (δ τ ρ : Type) where
  spec : δ
  withdrawn : Option τ
  lease : Option ρ

/-- Whether there is a machine for a lease. -/
inductive Tenure where
  /-- not yet -/
  | vacant
  | occupied
  /-- not any more -/
  | vacated
  deriving DecidableEq, Repr

/-- How many machines a lease has had. -/
def Tenure.provisioned : Tenure → Nat
  | .vacant => 0
  | .occupied | .vacated => 1

/-- A lease: the demand it was granted for, and on which terms. -/
structure Lease (ι π : Type) where
  owner : ι
  terms : π
  tenure : Tenure

/-- All demands and leases. -/
@[ext]
structure Ledger (ι ρ δ τ π : Type) where
  demand : ι → Option (Demand δ τ ρ)
  lease : ρ → Option (Lease ι π)

namespace Ledger

variable {ι ρ δ τ π : Type}

/-- What can be done to a ledger. -/
inductive Action (ι ρ : Type) where
  | submit (id : ι)
  | grant (id : ι) (machine : ρ)
  | withdraw (id : ι)
  | provision (owner : ι) (machine : ρ)
  | release (owner : ι) (machine : ρ)
  | close (id : ι)
  deriving DecidableEq, Repr

/-- Nothing was ever asked for. -/
def empty : Ledger ι ρ δ τ π := ⟨fun _ => none, fun _ => none⟩

/-- There is a machine for a lease. -/
def Occupied (ledger : Ledger ι ρ δ τ π) (machine : ρ) : Prop :=
  ∃ lease, ledger.lease machine = some lease ∧ lease.tenure = .occupied

/-- Demands and leases refer to each other. -/
structure Coherent (ledger : Ledger ι ρ δ τ π) : Prop where
  granted : ∀ {id demand m}, ledger.demand id = some demand → demand.lease = some m →
    ∃ lease, ledger.lease m = some lease ∧ lease.owner = id
  owned : ∀ {m lease}, ledger.lease m = some lease →
    ∃ demand, ledger.demand lease.owner = some demand ∧ demand.lease = some m

theorem coherent_empty : Coherent (empty : Ledger ι ρ δ τ π) :=
  ⟨fun h => (by cases h), fun h => (by cases h)⟩

section Demand

variable [DecidableEq ι] (ledger : Ledger ι ρ δ τ π) (id : ι) (demand : Demand δ τ ρ)

/-- A demand in another state. -/
def setDemand : Ledger ι ρ δ τ π :=
  { ledger with demand := Function.update ledger.demand id (some demand) }

@[simp] theorem setDemand_demand :
    (ledger.setDemand id demand).demand = Function.update ledger.demand id (some demand) := rfl

@[simp] theorem setDemand_lease : (ledger.setDemand id demand).lease = ledger.lease := rfl

/-- A demand struck out with its lease. -/
def strike : Ledger ι ρ δ τ π where
  demand := Function.update ledger.demand id none
  lease machine := (ledger.lease machine).filter fun lease => lease.owner ≠ id

@[simp] theorem strike_demand :
    (ledger.strike id).demand = Function.update ledger.demand id none := rfl

@[simp] theorem strike_lease (machine : ρ) :
    (ledger.strike id).lease machine =
      (ledger.lease machine).filter fun lease => lease.owner ≠ id := rfl

end Demand

section Lease

variable [DecidableEq ρ] (ledger : Ledger ι ρ δ τ π) (machine : ρ) (lease : Lease ι π)

/-- A lease in another state. -/
def setLease : Ledger ι ρ δ τ π :=
  { ledger with lease := Function.update ledger.lease machine (some lease) }

@[simp] theorem setLease_demand : (ledger.setLease machine lease).demand = ledger.demand := rfl

@[simp] theorem setLease_lease :
    (ledger.setLease machine lease).lease =
      Function.update ledger.lease machine (some lease) := rfl

end Lease

variable [DecidableEq ι] [DecidableEq ρ]

/-- What every action does. Only a live demand without a lease is granted one, a machine is
    provisioned once for a lease and released only after the demand was withdrawn, and no demand
    is closed while there is a machine for it. -/
inductive Step (ledger : Ledger ι ρ δ τ π) : Action ι ρ → Ledger ι ρ δ τ π → Prop where
  | submit {id spec} : ledger.demand id = none →
      Step ledger (.submit id) (ledger.setDemand id ⟨spec, none, none⟩)
  | grant {id spec machine terms} : ledger.demand id = some ⟨spec, none, none⟩ →
      ledger.lease machine = none →
      Step ledger (.grant id machine)
        ((ledger.setDemand id ⟨spec, none, some machine⟩).setLease machine ⟨id, terms, .vacant⟩)
  | withdraw {id spec machine time} : ledger.demand id = some ⟨spec, none, machine⟩ →
      Step ledger (.withdraw id) (ledger.setDemand id ⟨spec, some time, machine⟩)
  | provision {machine owner terms} : ledger.lease machine = some ⟨owner, terms, .vacant⟩ →
      Step ledger (.provision owner machine) (ledger.setLease machine ⟨owner, terms, .occupied⟩)
  | release {machine owner terms demand} : ledger.lease machine = some ⟨owner, terms, .occupied⟩ →
      ledger.demand owner = some demand → demand.withdrawn.isSome →
      Step ledger (.release owner machine) (ledger.setLease machine ⟨owner, terms, .vacated⟩)
  | close {id demand} : ledger.demand id = some demand → demand.withdrawn.isSome →
      (∀ machine, demand.lease = some machine → ¬ledger.Occupied machine) →
      Step ledger (.close id) (ledger.strike id)

/-- The ledger as a machine. -/
def machine (ι ρ δ τ π : Type) [DecidableEq ι] [DecidableEq ρ] :
    Machine (Action ι ρ) (Ledger ι ρ δ τ π) :=
  ⟨Step⟩

section Lemmas

variable {ledger ledger' : Ledger ι ρ δ τ π} {action : Action ι ρ} {id other : ι}
  {m : ρ} {demand : Demand δ τ ρ} {lease : Lease ι π}

omit [DecidableEq ρ] in
/-- A demand that keeps its lease. -/
theorem Coherent.setDemand {before : Demand δ τ ρ} (h : Coherent ledger)
    (hbefore : ledger.demand id = some before) (hkept : demand.lease = before.lease) :
    Coherent (ledger.setDemand id demand) := by
  constructor
  · intro other found m hfound hlease
    rw [setDemand_demand] at hfound
    by_cases hid : other = id
    · subst hid
      rw [Function.update_self] at hfound
      cases hfound
      exact h.granted hbefore (hkept ▸ hlease)
    · rw [Function.update_of_ne hid] at hfound
      exact h.granted hfound hlease
  · intro m lease hlease
    obtain ⟨found, hfound, hm⟩ := h.owned hlease
    by_cases hid : lease.owner = id
    · rw [hid, hbefore] at hfound
      cases hfound
      exact ⟨demand, by rw [setDemand_demand, hid, Function.update_self], hkept.trans hm⟩
    · exact ⟨found, by rw [setDemand_demand, Function.update_of_ne hid, hfound], hm⟩

omit [DecidableEq ι] in
/-- A lease that keeps its owner. -/
theorem Coherent.setLease {before : Lease ι π} (h : Coherent ledger)
    (hbefore : ledger.lease m = some before) (hkept : lease.owner = before.owner) :
    Coherent (ledger.setLease m lease) := by
  constructor
  · intro id found other hfound hlease
    obtain ⟨held, hheld, howner⟩ := h.granted hfound hlease
    by_cases hm : other = m
    · subst hm
      rw [hbefore] at hheld
      cases hheld
      exact ⟨lease, by rw [setLease_lease, Function.update_self], hkept.trans howner⟩
    · exact ⟨held, by rw [setLease_lease, Function.update_of_ne hm, hheld], howner⟩
  · intro other held hheld
    rw [setLease_lease] at hheld
    by_cases hm : other = m
    · subst hm
      rw [Function.update_self] at hheld
      cases hheld
      obtain ⟨found, hfound, hlease⟩ := h.owned hbefore
      exact ⟨found, hkept ▸ hfound, hlease⟩
    · rw [Function.update_of_ne hm] at hheld
      exact h.owned hheld

/-- Every action keeps a ledger coherent. -/
theorem Coherent.step (h : Coherent ledger) (hstep : Step ledger action ledger') :
    Coherent ledger' := by
  cases hstep with
  | @submit id spec hnone =>
    constructor
    · intro other found m hfound hlease
      rw [setDemand_demand] at hfound
      by_cases hid : other = id
      · rw [hid, Function.update_self] at hfound
        cases hfound
        cases hlease
      · rw [Function.update_of_ne hid] at hfound
        exact h.granted hfound hlease
    · intro m lease hlease
      obtain ⟨found, hfound, hm⟩ := h.owned hlease
      have hid : lease.owner ≠ id := by
        intro heq
        rw [heq, hnone] at hfound
        cases hfound
      exact ⟨found, by rw [setDemand_demand, Function.update_of_ne hid, hfound], hm⟩
  | @grant id spec granted terms hdemand hfree =>
    constructor
    · intro other found m hfound hlease
      rw [setLease_demand, setDemand_demand] at hfound
      rw [setLease_lease, setDemand_lease]
      by_cases hid : other = id
      · subst hid
        rw [Function.update_self] at hfound
        cases hfound
        cases hlease
        exact ⟨_, Function.update_self .., rfl⟩
      · rw [Function.update_of_ne hid] at hfound
        obtain ⟨held, hheld, howner⟩ := h.granted hfound hlease
        have hm : m ≠ granted := by
          intro heq
          rw [heq, hfree] at hheld
          cases hheld
        exact ⟨held, by rw [Function.update_of_ne hm, hheld], howner⟩
    · intro m held hheld
      rw [setLease_lease, setDemand_lease] at hheld
      rw [setLease_demand, setDemand_demand]
      by_cases hm : m = granted
      · subst hm
        rw [Function.update_self] at hheld
        cases hheld
        exact ⟨_, Function.update_self .., rfl⟩
      · rw [Function.update_of_ne hm] at hheld
        obtain ⟨found, hfound, hlease⟩ := h.owned hheld
        have hid : held.owner ≠ id := by
          intro heq
          rw [heq, hdemand] at hfound
          cases hfound
          cases hlease
        exact ⟨found, by rw [Function.update_of_ne hid, hfound], hlease⟩
  | withdraw hdemand => exact h.setDemand hdemand rfl
  | provision hlease => exact h.setLease hlease rfl
  | release hlease => exact h.setLease hlease rfl
  | @close id demand =>
    constructor
    · intro other found m hfound hlease
      have hid : other ≠ id := by
        rintro rfl
        rw [strike_demand, Function.update_self] at hfound
        cases hfound
      rw [strike_demand, Function.update_of_ne hid] at hfound
      obtain ⟨held, hheld, howner⟩ := h.granted hfound hlease
      exact ⟨held, by simp [hheld, Option.filter, howner, hid], howner⟩
    · intro m held hheld
      obtain ⟨hheld, hid⟩ := Option.filter_eq_some_iff.mp hheld
      obtain ⟨found, hfound, hlease⟩ := h.owned hheld
      have hne : held.owner ≠ id := of_decide_eq_true hid
      exact ⟨found, by rw [strike_demand, Function.update_of_ne hne, hfound], hlease⟩

/-! ## How often a lease is provisioned -/

/-- There is a machine for a demand. -/
def OccupiedBy (id : ι) (m : ρ) (ledger : Ledger ι ρ δ τ π) : Prop :=
  ∃ lease, ledger.lease m = some lease ∧ lease.owner = id ∧ lease.tenure = .occupied

/-- How many machines a demand has had on a lease. -/
def provisioned (id : ι) (m : ρ) (ledger : Ledger ι ρ δ τ π) : Nat :=
  match ledger.lease m with
  | none => 0
  | some lease => if lease.owner = id then lease.tenure.provisioned else 0

omit [DecidableEq ρ] in
theorem provisioned_of_lease (hlease : ledger.lease m = some lease) (howner : lease.owner = id) :
    ledger.provisioned id m = lease.tenure.provisioned := by
  unfold provisioned
  rw [hlease]
  exact if_pos howner

omit [DecidableEq ρ] in
theorem provisioned_congr (h : ledger'.lease m = ledger.lease m) :
    ledger'.provisioned id m = ledger.provisioned id m := by
  unfold provisioned
  rw [h]

omit [DecidableEq ρ] in
theorem provisioned_le (id : ι) (m : ρ) (ledger : Ledger ι ρ δ τ π) :
    ledger.provisioned id m ≤ 1 := by
  unfold provisioned
  split
  · exact Nat.zero_le 1
  · rename_i lease _
    split
    · cases lease.tenure <;> decide
    · exact Nat.zero_le 1

/-- A lease keeps count of its machines until its demand is closed. -/
theorem Step.provisioned (h : Step ledger action ledger') (hopen : action ≠ .close id) :
    ledger.provisioned id m + (if action = .provision id m then 1 else 0) ≤
      ledger'.provisioned id m := by
  cases h with
  | submit | withdraw => exact Nat.le_refl _
  | @grant other spec granted terms hdemand hfree =>
    by_cases hm : m = granted
    · subst hm
      have hbefore : ledger.provisioned id m = 0 := by
        unfold Ledger.provisioned
        rw [hfree]
      rw [hbefore]
      exact Nat.zero_le _
    · rw [if_neg (by simp), Nat.add_zero]
      refine Nat.le_of_eq (provisioned_congr ?_).symm
      rw [setLease_lease, Function.update_of_ne hm, setDemand_lease]
  | @provision provisioned owner terms hlease =>
    by_cases hm : m = provisioned
    · subst hm
      by_cases howner : owner = id
      · subst howner
        have hafter : (ledger.setLease m ⟨owner, terms, .occupied⟩).lease m =
            some ⟨owner, terms, .occupied⟩ := Function.update_self ..
        rw [provisioned_of_lease hlease rfl, provisioned_of_lease hafter rfl, if_pos rfl]
        exact Nat.le_refl 1
      · have hbefore : ledger.provisioned id m = 0 := by
          unfold Ledger.provisioned
          rw [hlease]
          exact if_neg howner
        rw [hbefore, if_neg (by simp [howner])]
        exact Nat.zero_le _
    · rw [if_neg (by simp [Ne.symm hm]), Nat.add_zero]
      refine Nat.le_of_eq (provisioned_congr ?_).symm
      rw [setLease_lease, Function.update_of_ne hm]
  | @release released owner terms demand hlease =>
    rw [if_neg (by simp), Nat.add_zero]
    by_cases hm : m = released
    · subst hm
      unfold Ledger.provisioned
      rw [hlease, setLease_lease, Function.update_self]
      exact Nat.le_refl _
    · refine Nat.le_of_eq (provisioned_congr ?_).symm
      rw [setLease_lease, Function.update_of_ne hm]
  | @close other =>
    rw [if_neg (by simp), Nat.add_zero]
    have hne : other ≠ id := fun heq => hopen (congrArg _ heq)
    unfold Ledger.provisioned
    rw [strike_lease]
    cases hlease : ledger.lease m with
    | none => exact Nat.le_refl 0
    | some lease =>
      by_cases howner : lease.owner = id
      · simp [Option.filter, howner, hne.symm]
      · simp [howner]

/-- In a trace that does not close a demand, a machine is provisioned for it at most once. -/
theorem provisioned_once {actions : List (Action ι ρ)}
    (h : (machine ι ρ δ τ π).Trace ledger actions ledger')
    (hopen : ∀ action ∈ actions, action ≠ .close id) :
    actions.count (.provision id m) ≤ 1 := by
  have hcounts := h.counts (provisioned id m) (.provision id m) hopen
    fun _ _ _ hstep hallowed => hstep.provisioned hallowed
  have hle := provisioned_le id m ledger'
  omega

/-- A demand gets a machine when one is provisioned for it. -/
theorem Step.occupiedBy_iff (h : Step ledger action ledger') :
    ¬ledger.OccupiedBy id m ∧ ledger'.OccupiedBy id m ↔ action = .provision id m := by
  have hkept : ∀ {next : Ledger ι ρ δ τ π}, next.lease m = ledger.lease m →
      ¬(¬ledger.OccupiedBy id m ∧ next.OccupiedBy id m) := by
    rintro next hsame ⟨hbefore, lease, hlease, hrest⟩
    exact hbefore ⟨lease, hsame ▸ hlease, hrest⟩
  have hset : ∀ {set : ρ} {lease : Lease ι π} {next : Ledger ι ρ δ τ π},
      next.lease = Function.update ledger.lease set (some lease) → lease.tenure ≠ .occupied →
      ¬(¬ledger.OccupiedBy id m ∧ next.OccupiedBy id m) := by
    rintro set lease next hnext hfree ⟨hbefore, found, hfound, howner, htenure⟩
    by_cases hm : m = set
    · rw [hnext, hm, Function.update_self] at hfound
      cases hfound
      exact hfree htenure
    · rw [hnext, Function.update_of_ne hm] at hfound
      exact hbefore ⟨found, hfound, howner, htenure⟩
  cases h with
  | submit | withdraw => exact iff_of_false (hkept rfl) (by simp)
  | grant => exact iff_of_false (hset rfl (by simp)) (by simp)
  | release => exact iff_of_false (hset rfl (by simp)) (by simp)
  | @provision set owner terms hlease =>
    constructor
    · rintro ⟨hbefore, found, hfound, howner, htenure⟩
      by_cases hm : m = set
      · subst hm
        rw [setLease_lease, Function.update_self] at hfound
        cases hfound
        rw [← howner]
      · rw [setLease_lease, Function.update_of_ne hm] at hfound
        exact absurd ⟨found, hfound, howner, htenure⟩ hbefore
    · intro haction
      cases haction
      refine ⟨?_, _, Function.update_self .., rfl, rfl⟩
      rintro ⟨found, hfound, -, htenure⟩
      rw [hlease] at hfound
      cases hfound
      cases htenure
  | close =>
    refine iff_of_false ?_ (by simp)
    rintro ⟨hbefore, found, hfound, hrest⟩
    exact hbefore ⟨found, (Option.filter_eq_some_iff.mp hfound).1, hrest⟩

/-- A lease keeps its owner as long as there is one. -/
theorem Step.owner (h : Step ledger action ledger') {lease' : Lease ι π}
    (hlease : ledger.lease m = some lease) (hlease' : ledger'.lease m = some lease') :
    lease'.owner = lease.owner := by
  have hset : ∀ {set : ρ} {before after : Lease ι π}, ledger.lease set = some before →
      Function.update ledger.lease set (some after) m = some lease' → after.owner = before.owner →
      lease'.owner = lease.owner := by
    intro set before after hbefore hafter howner
    by_cases hm : m = set
    · rw [hm, Function.update_self] at hafter
      rw [hm, hbefore] at hlease
      cases hlease
      cases hafter
      exact howner
    · rw [Function.update_of_ne hm, hlease] at hafter
      cases hafter
      rfl
  cases h with
  | submit | withdraw =>
    rw [setDemand_lease, hlease] at hlease'
    cases hlease'
    rfl
  | @grant _ _ granted _ _ hfree =>
    have hm : m ≠ granted := by
      rintro rfl
      rw [hlease] at hfree
      cases hfree
    rw [setLease_lease, setDemand_lease, Function.update_of_ne hm, hlease] at hlease'
    cases hlease'
    rfl
  | provision hbefore => exact hset hbefore hlease' rfl
  | release hbefore => exact hset hbefore hlease' rfl
  | close =>
    rw [strike_lease] at hlease'
    have hkept := (Option.filter_eq_some_iff.mp hlease').1
    rw [hlease] at hkept
    cases hkept
    rfl

end Lemmas

end Ledger

end ControlPlane
