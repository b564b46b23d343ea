import Mathlib.Data.List.Nodup

/-!
# Lists of rows with a unique key

Lookup, update, deletion and insertion on a list of rows in which no key occurs twice: the
lemmas a primary key is good for.
-/

namespace ControlPlane.Keyed

variable {ρ κ : Type} [DecidableEq κ] {key : ρ → κ} {rows : List ρ} {k : κ}

/-- A row is found under its key, and only there. -/
theorem find?_eq_some_iff (nodup : (rows.map key).Nodup) {row : ρ} :
    rows.find? (fun r => decide (key r = k)) = some row ↔ row ∈ rows ∧ key row = k := by
  constructor
  · intro h
    exact ⟨List.mem_of_find?_eq_some h, by simpa using List.find?_some h⟩
  · rintro ⟨hmem, rfl⟩
    cases hfind : rows.find? fun r => decide (key r = key row) with
    | none =>
      have := List.find?_eq_none.mp hfind row hmem
      simp at this
    | some found =>
      have hkey : key found = key row := by simpa using List.find?_some hfind
      rw [List.inj_on_of_nodup_map nodup (List.mem_of_find?_eq_some hfind) hmem hkey]

theorem find?_eq_none_iff :
    rows.find? (fun r => decide (key r = k)) = none ↔ ∀ row ∈ rows, key row ≠ k := by
  simp [List.find?_eq_none]

/-- An update that keeps the keys is seen by every lookup. -/
theorem find?_map {f : ρ → ρ} (keep : ∀ row, key (f row) = key row) :
    (rows.map f).find? (fun r => decide (key r = k)) =
      (rows.find? fun r => decide (key r = k)).map f := by
  rw [List.find?_map]
  congr 2
  funext row
  simp [keep]

/-- A deletion is seen by every lookup. -/
theorem find?_filter (nodup : (rows.map key).Nodup) (p : ρ → Bool) :
    (rows.filter p).find? (fun r => decide (key r = k)) =
      (rows.find? fun r => decide (key r = k)).filter p := by
  induction rows with
  | nil => rfl
  | cons row rows ih =>
    simp only [List.map_cons, List.nodup_cons] at nodup
    by_cases hp : p row = true
    · rw [List.filter_cons_of_pos hp, List.find?_cons, List.find?_cons]
      split
      · simp [Option.filter, hp]
      · exact ih nodup.2
    · rw [List.filter_cons_of_neg hp, List.find?_cons, ih nodup.2]
      split
      · rename_i heq
        have hrest : rows.find? (fun r => decide (key r = k)) = none := by
          rw [find?_eq_none_iff]
          intro r hr hk
          apply nodup.1
          rw [of_decide_eq_true heq, ← hk]
          exact List.mem_map_of_mem hr
        simp [hrest, Option.filter, hp]
      · rfl

/-- An insertion is seen under its own key. -/
theorem find?_append_self {row : ρ} (fresh : ∀ r ∈ rows, key r ≠ key row) :
    (rows ++ [row]).find? (fun r => decide (key r = key row)) = some row := by
  rw [List.find?_append, find?_eq_none_iff.mpr fresh]
  simp

theorem find?_append_ne {row : ρ} (hne : key row ≠ k) :
    (rows ++ [row]).find? (fun r => decide (key r = k)) =
      rows.find? fun r => decide (key r = k) := by
  rw [List.find?_append]
  simp [hne]

/-- At most one row has a given key. -/
theorem countP_key_le_one (nodup : (rows.map key).Nodup) (p : ρ → Bool) :
    rows.countP (fun r => decide (key r = k) && p r) ≤ 1 := by
  induction rows with
  | nil => simp
  | cons row rows ih =>
    simp only [List.map_cons, List.nodup_cons] at nodup
    rw [List.countP_cons]
    by_cases hk : key row = k
    · have hrest : rows.countP (fun r => decide (key r = k) && p r) = 0 := by
        rw [List.countP_eq_zero]
        intro r hr hkey
        simp only [Bool.and_eq_true, decide_eq_true_eq] at hkey
        apply nodup.1
        rw [hk, ← hkey.1]
        exact List.mem_map_of_mem hr
      rw [hrest]
      split <;> simp
    · have := ih nodup.2
      simp only [hk, decide_false, Bool.false_and]
      simpa using this

/-- Exactly one row has the key of a row that is there. -/
theorem countP_key_eq_one (nodup : (rows.map key).Nodup) {row : ρ} (hmem : row ∈ rows)
    (hkey : key row = k) : rows.countP (fun r => decide (key r = k)) = 1 := by
  have hle := countP_key_le_one (k := k) nodup fun _ => true
  have hpos : 0 < rows.countP fun r => decide (key r = k) :=
    List.countP_pos_iff.mpr ⟨row, hmem, decide_eq_true hkey⟩
  simp only [Bool.and_true] at hle
  omega

end ControlPlane.Keyed
