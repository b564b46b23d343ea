import ControlPlane.Keyed
import Mathlib.Data.List.Sort

/-!
# Lists in the order of their keys

A list of rows whose keys strictly increase is a sorted map: every key occurs once, and the list is
determined by its rows.
-/

namespace ControlPlane

variable {ρ κ : Type} [LinearOrder κ] {key : ρ → κ} {rows rows' : List ρ} {row : ρ}

/-- The keys strictly increase. -/
def Ascending (key : ρ → κ) (rows : List ρ) : Prop :=
  (rows.map key).Pairwise (· < ·)

namespace Ascending

theorem nodup (h : Ascending key rows) : (rows.map key).Nodup :=
  h.imp fun hlt => hlt.ne

theorem pairwise (h : Ascending key rows) :
    rows.Pairwise fun first second => key first < key second :=
  List.pairwise_map.mp h

/-- Two rows with one key are the same row. -/
theorem unique (h : Ascending key rows) {other : ρ} (hmem : row ∈ rows) (hother : other ∈ rows)
    (hkey : key row = key other) : row = other :=
  List.inj_on_of_nodup_map h.nodup hmem hother hkey

/-- The order of the rows is the order of the keys. -/
theorem eq_of_perm (h : Ascending key rows) (h' : Ascending key rows') (hperm : rows.Perm rows') :
    rows = rows' :=
  hperm.eq_of_pairwise (fun _ _ _ _ hlt hgt => absurd hgt hlt.asymm) h.pairwise h'.pairwise

theorem filter (h : Ascending key rows) (p : ρ → Bool) : Ascending key (rows.filter p) :=
  List.pairwise_map.mpr (h.pairwise.filter p)

/-- Rows with different keys are ascending once they are sorted. -/
theorem of_insertionSort (hnodup : (rows.map key).Nodup) :
    Ascending key (rows.insertionSort fun first second => key first ≤ key second) := by
  have hsorted := List.pairwise_insertionSort (fun first second : ρ => key first ≤ key second) rows
  have hperm := List.perm_insertionSort (fun first second : ρ => key first ≤ key second) rows
  have hdistinct : (List.map key
      (rows.insertionSort fun first second => key first ≤ key second)).Nodup :=
    (hperm.map key).nodup_iff.mpr hnodup
  refine List.pairwise_map.mpr ((hsorted.and (List.pairwise_map.mp hdistinct)).imp ?_)
  rintro first second ⟨hle, hne⟩
  exact lt_of_le_of_ne hle hne

theorem nodup_append (h : Ascending key rows) (hnew : ∀ other ∈ rows, key other ≠ key row) :
    ((rows ++ [row]).map key).Nodup := by
  rw [List.map_append, List.map_singleton]
  refine List.Nodup.append h.nodup (List.nodup_singleton _) ?_
  intro k hk hrow
  obtain ⟨other, hmem, rfl⟩ := List.mem_map.mp hk
  exact hnew other hmem (List.mem_singleton.mp hrow)

/-- Sorting a new row into an ascending list leaves the others as they are. -/
theorem filter_insertionSort (h : Ascending key rows) (hnew : ∀ other ∈ rows, key other ≠ key row) :
    ((rows ++ [row]).insertionSort fun first second => key first ≤ key second).filter
      (fun other => key other ≠ key row) = rows := by
  refine eq_of_perm ((of_insertionSort (h.nodup_append hnew)).filter _) h ?_
  have hperm := (List.perm_insertionSort
    (fun first second : ρ => key first ≤ key second) (rows ++ [row])).filter
      fun other => decide (key other ≠ key row)
  refine hperm.trans ?_
  rw [List.filter_append]
  have hkept : rows.filter (fun other => decide (key other ≠ key row)) = rows :=
    List.filter_eq_self.mpr fun other hmem => decide_eq_true (hnew other hmem)
  rw [hkept]
  simp

end Ascending

end ControlPlane
