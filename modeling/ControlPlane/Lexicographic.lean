import Mathlib.Data.List.DropRight
import Mathlib.Data.List.Lex
import Mathlib.Order.Lattice

/-!
# Lexicographic order of lists

How blocks of a fixed length compare, and what is left of the order of two lists of one length when
the copies of the least letter at their ends are dropped.
-/

namespace ControlPlane.Lexicographic

section Blocks

variable {α : Type} [LT α] {xs ys us vs : List α}

/-- The first of two blocks of one length decides. -/
theorem append_lt_append (hlength : xs.length = ys.length) (h : xs < ys) : xs ++ us < ys ++ vs := by
  induction xs generalizing ys with
  | nil =>
    cases ys with
    | nil => exact absurd h (List.not_lt_nil _)
    | cons y ys => cases hlength
  | cons x xs ih =>
    cases ys with
    | nil => cases hlength
    | cons y ys =>
      rw [List.cons_append, List.cons_append, List.cons_lt_cons_iff]
      rcases List.cons_lt_cons_iff.mp h with hhead | ⟨hhead, htail⟩
      · exact .inl hhead
      · exact .inr ⟨hhead, ih (Nat.succ.inj hlength) htail⟩

/-- Blocks of the same lengths compare one after the other. -/
theorem flatten_lt_flatten {blocks others : List (List α)}
    (hlength : blocks.map List.length = others.map List.length) (h : blocks < others) :
    blocks.flatten < others.flatten := by
  induction blocks generalizing others with
  | nil =>
    cases others with
    | nil => exact absurd h (List.not_lt_nil _)
    | cons other others => cases hlength
  | cons block blocks ih =>
    cases others with
    | nil => cases hlength
    | cons other others =>
      obtain ⟨hhead, htail⟩ := List.cons.inj hlength
      rw [List.flatten_cons, List.flatten_cons]
      rcases List.cons_lt_cons_iff.mp h with hlt | ⟨rfl, hlt⟩
      · exact append_lt_append hhead hlt
      · exact List.append_left_lt (ih htail hlt)

/-- A list that ends with a letter greater than all others comes after its own extensions. -/
theorem prefix_lt {last : α} (hgreatest : ∀ y ∈ ys, y < last) (hpre : xs <+: ys)
    (hne : xs ≠ ys) : ys ++ us < xs ++ [last] := by
  obtain ⟨rest, rfl⟩ := hpre
  cases rest with
  | nil => exact absurd (List.append_nil xs).symm hne
  | cons y rest =>
    rw [List.append_assoc]
    apply List.append_left_lt
    rw [List.cons_append, List.cons_lt_cons_iff]
    exact .inl (hgreatest y (List.mem_append_right _ List.mem_cons_self))

end Blocks

section Trimmed

variable {α : Type} [LinearOrder α] {least : α} {xs ys : List α}

theorem rdropWhile_cons {β : Type} (p : β → Bool) (x : β) (xs : List β) :
    (x :: xs).rdropWhile p =
      if xs.rdropWhile p = [] ∧ p x then [] else x :: xs.rdropWhile p := by
  unfold List.rdropWhile
  rw [List.reverse_cons, List.dropWhile_append]
  by_cases hrest : xs.reverse.dropWhile p = []
  · rw [hrest]
    by_cases hx : p x
    · simp [hx]
    · simp [hx]
  · have hempty : (xs.reverse.dropWhile p).isEmpty = false := by simpa using hrest
    rw [hempty]
    simp [hrest]

theorem rdropWhile_ne_nil (hleast : ∀ y ∈ xs, least ≤ y) (h : xs < ys)
    (hlength : xs.length = ys.length) : ys.rdropWhile (· = least) ≠ [] := by
  induction xs generalizing ys with
  | nil =>
    cases ys with
    | nil => exact absurd h (List.not_lt_nil _)
    | cons y ys => cases hlength
  | cons x xs ih =>
    cases ys with
    | nil => cases hlength
    | cons y ys =>
      rw [rdropWhile_cons]
      rcases List.cons_lt_cons_iff.mp h with hhead | ⟨-, htail⟩
      · have hne : y ≠ least := ((hleast x List.mem_cons_self).trans_lt hhead).ne'
        rw [if_neg fun hnil => hne (of_decide_eq_true hnil.2)]
        exact List.cons_ne_nil _ _
      · have hrest := ih (fun z hz => hleast z (List.mem_cons_of_mem _ hz)) htail
          (Nat.succ.inj hlength)
        rw [if_neg fun hnil => hrest hnil.1]
        exact List.cons_ne_nil _ _

/-- Of two lists of one length, the trimmed lesser one is a proper prefix of the trimmed greater
    one, or they differ where both still have a letter. -/
theorem rdropWhile_prefix_or_lt (hleast : ∀ y ∈ xs, least ≤ y) (h : xs < ys)
    (hlength : xs.length = ys.length) :
    (xs.rdropWhile (· = least) <+: ys.rdropWhile (· = least) ∧
        xs.rdropWhile (· = least) ≠ ys.rdropWhile (· = least)) ∨
      ∀ us vs, xs.rdropWhile (· = least) ++ us < ys.rdropWhile (· = least) ++ vs := by
  induction xs generalizing ys with
  | nil => exact .inl ⟨List.nil_prefix, (rdropWhile_ne_nil hleast h hlength).symm⟩
  | cons x xs ih =>
    cases ys with
    | nil => cases hlength
    | cons y ys =>
      have hne := rdropWhile_ne_nil hleast h hlength
      have hrest : ∀ z ∈ xs, least ≤ z := fun z hz => hleast z (List.mem_cons_of_mem _ hz)
      rw [rdropWhile_cons _ x]
      split
      · exact .inl ⟨List.nil_prefix, hne.symm⟩
      rw [rdropWhile_cons] at hne ⊢
      rw [if_neg fun hnil => hne (if_pos hnil)]
      rcases List.cons_lt_cons_iff.mp h with hhead | ⟨rfl, htail⟩
      · refine .inr fun us vs => ?_
        rw [List.cons_append, List.cons_append, List.cons_lt_cons_iff]
        exact .inl hhead
      · rcases ih hrest htail (Nat.succ.inj hlength) with ⟨hpre, hother⟩ | hlt
        · exact .inl ⟨List.cons_prefix_cons.mpr ⟨rfl, hpre⟩,
            fun heq => hother (List.cons.inj heq).2⟩
        · refine .inr fun us vs => ?_
          rw [List.cons_append, List.cons_append, List.cons_lt_cons_iff]
          exact .inr ⟨rfl, hlt us vs⟩

end Trimmed

end ControlPlane.Lexicographic
