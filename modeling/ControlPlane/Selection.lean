import Mathlib.Data.List.Sort

/-!
# The first row in an order

`SELECT .. ORDER BY .. LIMIT 1` over a list of rows: the rows are sorted by a key and the first
one is taken. Where no two rows share a key the result is the one least row, whatever order the
rows are stored in.
-/

namespace ControlPlane.Selection

variable {ρ κ : Type} [LinearOrder κ] {key : ρ → κ} {rows rows' : List ρ} {row row' : ρ}

/-- The first of the rows sorted by `key`, if there is any. -/
def first (key : ρ → κ) (rows : List ρ) : Option ρ :=
  (rows.insertionSort fun left right => key left ≤ key right).head?

theorem first_eq_none : first key rows = none ↔ rows = [] := by
  unfold first
  rw [List.head?_eq_none_iff, ← List.length_eq_zero_iff, List.length_insertionSort,
    List.length_eq_zero_iff]

theorem mem_of_first (h : first key rows = some row) : row ∈ rows :=
  (List.mem_insertionSort _).mp (List.mem_of_mem_head? h)

/-- No row comes before the first one. -/
theorem first_le (h : first key rows = some row) (hmem : row' ∈ rows) : key row ≤ key row' := by
  have hsorted := List.pairwise_insertionSort (fun left right : ρ => key left ≤ key right) rows
  have hmem' := (List.mem_insertionSort fun left right : ρ => key left ≤ key right).mpr hmem
  unfold first at h
  cases hrows : rows.insertionSort fun left right => key left ≤ key right with
  | nil =>
    rw [hrows] at h
    cases h
  | cons head tail =>
    rw [hrows] at h hsorted hmem'
    cases h
    rcases List.mem_cons.mp hmem' with rfl | htail
    · exact le_refl _
    · exact (List.pairwise_cons.mp hsorted).1 row' htail

/-- Something is found among rows that include the first of others. -/
theorem first_isSome (key : ρ → κ) (hmem : row ∈ rows) : ∃ found, first key rows = some found := by
  cases hfirst : first key rows with
  | none =>
    rw [first_eq_none.mp hfirst] at hmem
    cases hmem
  | some found => exact ⟨found, rfl⟩

/-- Where no two rows share a key, the first row is the one before every other. -/
theorem first_lt (injective : ∀ left ∈ rows, ∀ right ∈ rows, key left = key right → left = right)
    (h : first key rows = some row) (hmem : row' ∈ rows) (hne : row' ≠ row) :
    key row < key row' := by
  apply lt_of_le_of_ne (first_le h hmem)
  intro heq
  exact hne (injective row' hmem row (mem_of_first h) heq.symm)

/-- The first row does not depend on the order in which the rows are stored. -/
theorem first_perm (injective : ∀ left ∈ rows, ∀ right ∈ rows, key left = key right → left = right)
    (hperm : rows.Perm rows') : first key rows = first key rows' := by
  cases h : first key rows with
  | none =>
    have hempty : rows' = [] := List.nil_perm.mp (first_eq_none.mp h ▸ hperm)
    exact (first_eq_none.mpr hempty).symm
  | some row =>
    obtain ⟨row', h'⟩ := first_isSome key (hperm.mem_iff.mp (mem_of_first h))
    have hmem' := hperm.mem_iff.mpr (mem_of_first h')
    have hle : key row ≤ key row' := first_le h hmem'
    have hge : key row' ≤ key row := first_le h' (hperm.mem_iff.mp (mem_of_first h))
    rw [h', injective row (mem_of_first h) row' hmem' (le_antisymm hle hge)]

end ControlPlane.Selection
