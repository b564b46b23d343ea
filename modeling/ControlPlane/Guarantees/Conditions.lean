import ControlPlane.Ascending
import ControlPlane.Controller.Scenario
import ControlPlane.Controller.Walk

/-!
# Condition lists are sorted maps

`set_condition` keeps a list with one entry for each type, in the order of the types, such a list.
It changes the entry of the type it sets and no other, and reports a change exactly where there is
one. The lists of a running daemon have the types they started with.
-/

namespace ControlPlane

open Interaction

/-- The types of a condition list are distinct and in order. -/
def Ordered (conditions : List Condition) : Prop :=
  Ascending Condition.conditionType conditions

/-- The conditions of the other types. -/
def otherThan (conditionType : String) (conditions : List Condition) : List Condition :=
  conditions.filter fun condition => condition.conditionType ≠ conditionType

/-- What the current condition of a type becomes when `next` is set. -/
def Condition.amended (current next : Condition) : Condition :=
  if current.status = next.status ∧ current.reason = next.reason then
    { current with message := next.message, observedGeneration := next.observedGeneration }
  else
    next

/-- An entry says what `next` says, and dates it to the last change of its status or reason. -/
structure Carries (before : List Condition) (next entry : Condition) : Prop where
  conditionType : entry.conditionType = next.conditionType
  status : entry.status = next.status
  reason : entry.reason = next.reason
  message : entry.message = next.message
  observedGeneration : entry.observedGeneration = next.observedGeneration
  kept : ∀ old ∈ before, old.conditionType = next.conditionType → old.status = next.status →
    old.reason = next.reason → entry.lastTransitionAt = old.lastTransitionAt
  moved : (∀ old ∈ before, old.conditionType = next.conditionType →
    ¬(old.status = next.status ∧ old.reason = next.reason)) →
      entry.lastTransitionAt = next.lastTransitionAt

/-- What setting `next` may do to the list `before`. -/
structure Updated (before : List Condition) (next : Condition) (after : List Condition)
    (changed : Bool) : Prop where
  ordered : Ordered after
  entry : ∃ entry ∈ after, Carries before next entry
  others : otherThan next.conditionType after = otherThan next.conditionType before
  reported : changed = false ↔ after = before
  settled : ∀ now, setCondition after { next with lastTransitionAt := now } = (after, false)

section amended

variable {current next : Condition}

theorem amended_conditionType (h : current.conditionType = next.conditionType) :
    (current.amended next).conditionType = next.conditionType := by
  unfold Condition.amended
  split
  · exact h
  · rfl

/-- Nothing is left to do for a condition that has been set, whatever time it is set at. -/
theorem amended_amended (now : Timestamp) :
    (current.amended next).amended { next with lastTransitionAt := now } =
      current.amended next := by
  unfold Condition.amended
  by_cases hsame : current.status = next.status ∧ current.reason = next.reason
  · simp [hsame]
  · simp [hsame]

/-- An amended condition carries what was set, if it is the only one of its type. -/
theorem carries_amended {conditions : List Condition} (hmem : current ∈ conditions)
    (honly : ∀ old ∈ conditions, old.conditionType = next.conditionType → old = current)
    (h : current.conditionType = next.conditionType) :
    Carries conditions next (current.amended next) := by
  unfold Condition.amended
  by_cases hsame : current.status = next.status ∧ current.reason = next.reason
  · rw [if_pos hsame]
    refine ⟨h, hsame.1, hsame.2, rfl, rfl, ?_, ?_⟩
    · intro old hold htype _ _
      rw [honly old hold htype]
    · intro hmoved
      exact absurd hsame (hmoved current hmem h)
  · rw [if_neg hsame]
    refine ⟨rfl, rfl, rfl, rfl, rfl, ?_, fun _ => rfl⟩
    intro old hold htype hstatus hreason
    rw [honly old hold htype] at hstatus hreason
    exact absurd ⟨hstatus, hreason⟩ hsame

end amended

section setCondition

variable {conditions before after : List Condition} {current next : Condition}

theorem updateFirst_append {α : Type} {p : α → Bool} {f : α → α} {xs ys : List α} {x : α}
    (hxs : ∀ other ∈ xs, p other = false) (hx : p x = true) :
    updateFirst p f (xs ++ x :: ys) = xs ++ f x :: ys := by
  induction xs with
  | nil => simp [updateFirst, hx]
  | cons other xs ih =>
    have hother : p other = false := hxs other (.head _)
    simp only [List.cons_append, updateFirst, hother]
    rw [ih fun later hmem => hxs later (.tail _ hmem)]
    rfl

/-- The first condition of a type is amended in its place. -/
theorem setCondition_of_split (hbefore : ∀ other ∈ before, other.conditionType ≠ next.conditionType)
    (hcurrent : current.conditionType = next.conditionType) :
    setCondition (before ++ current :: after) next =
      (before ++ current.amended next :: after, decide (current.amended next ≠ current)) := by
  have hfind : (before ++ current :: after).find?
      (fun condition => decide (condition.conditionType = next.conditionType)) = some current := by
    rw [List.find?_append]
    have hnone : before.find?
        (fun condition => decide (condition.conditionType = next.conditionType)) = none := by
      simpa using hbefore
    simp [hnone, hcurrent]
  have hskip : ∀ other ∈ before,
      decide (other.conditionType = next.conditionType) = false := by
    intro other hmem
    exact decide_eq_false (hbefore other hmem)
  simp only [setCondition, hfind]
  by_cases hsame : current.status = next.status ∧ current.reason = next.reason
  · have hamended : current.amended next =
        { current with message := next.message, observedGeneration := next.observedGeneration } :=
      if_pos hsame
    rw [hamended]
    by_cases hunchanged : current.message = next.message ∧
        current.observedGeneration = next.observedGeneration
    · obtain ⟨hmessage, hgeneration⟩ := hunchanged
      rw [if_pos ⟨hsame.1, hsame.2, hmessage, hgeneration⟩, ← hmessage, ← hgeneration]
      simp
    · have hne : ({ current with
          message := next.message, observedGeneration := next.observedGeneration } : Condition) ≠
          current := by
        intro heq
        refine hunchanged ⟨?_, ?_⟩
        · exact (congrArg Condition.message heq).symm
        · exact (congrArg Condition.observedGeneration heq).symm
      rw [if_neg fun h => hunchanged h.2.2, if_pos hsame,
        updateFirst_append hskip (decide_eq_true hcurrent), decide_eq_true hne]
  · have hamended : current.amended next = next := if_neg hsame
    have hne : next ≠ current := by
      rintro rfl
      exact hsame ⟨rfl, rfl⟩
    rw [if_neg (fun h => hsame ⟨h.1, h.2.1⟩), if_neg hsame,
      updateFirst_append hskip (decide_eq_true hcurrent), hamended]
    simp [hne]

/-- A condition of a new type is sorted in. -/
theorem setCondition_of_new (h : ∀ other ∈ conditions, other.conditionType ≠ next.conditionType) :
    setCondition conditions next =
      ((conditions ++ [next]).insertionSort fun left right =>
        left.conditionType ≤ right.conditionType, true) := by
  have hfind : conditions.find?
      (fun condition => decide (condition.conditionType = next.conditionType)) = none := by
    simpa using h
  simp [setCondition, hfind]

/-- A list has no condition of a type, or is split at the first one. -/
theorem exists_split (conditions : List Condition) (conditionType : String) :
    (∀ other ∈ conditions, other.conditionType ≠ conditionType) ∨
      ∃ before current after, conditions = before ++ current :: after ∧
        current.conditionType = conditionType ∧
        ∀ other ∈ before, other.conditionType ≠ conditionType := by
  cases hfind : conditions.find?
      fun condition => decide (condition.conditionType = conditionType) with
  | none =>
    left
    simpa using hfind
  | some current =>
    right
    obtain ⟨htype, before, after, hsplit, hbefore⟩ := List.find?_eq_some_iff_append.mp hfind
    exact ⟨before, current, after, hsplit, of_decide_eq_true htype, by simpa using hbefore⟩

/-- Exactly the conditions that are published leave a list as it is. -/
theorem setCondition_settled (hbefore : ∀ other ∈ before, other.conditionType ≠ next.conditionType)
    (hcurrent : current.conditionType = next.conditionType)
    (hamended : current.amended next = current) :
    setCondition (before ++ current :: after) next = (before ++ current :: after, false) := by
  rw [setCondition_of_split hbefore hcurrent, hamended]
  simp

/-- Amending the one condition of a type. -/
theorem updated_of_split (h : Ordered (before ++ current :: after))
    (hcurrent : current.conditionType = next.conditionType)
    (hbefore : ∀ other ∈ before, other.conditionType ≠ next.conditionType) :
    Updated (before ++ current :: after) next (before ++ current.amended next :: after)
      (decide (current.amended next ≠ current)) := by
  have htype := amended_conditionType hcurrent
  have hmem : current ∈ before ++ current :: after := List.mem_append_right _ (.head _)
  constructor
  · unfold Ordered Ascending at *
    simpa [htype, hcurrent] using h
  · refine ⟨current.amended next, List.mem_append_right _ (.head _), ?_⟩
    refine carries_amended hmem (fun old hold holdType => ?_) hcurrent
    exact Ascending.unique h hold hmem (holdType.trans hcurrent.symm)
  · simp [otherThan, List.filter_append, htype, hcurrent]
  · simp
  · intro now
    exact setCondition_settled hbefore htype (amended_amended now)

/-- Sorting in a condition of a new type. -/
theorem updated_of_new (h : Ordered conditions)
    (hnew : ∀ other ∈ conditions, other.conditionType ≠ next.conditionType) :
    Updated conditions next
      ((conditions ++ [next]).insertionSort fun left right =>
        left.conditionType ≤ right.conditionType) true := by
  have hperm := List.perm_insertionSort
    (fun left right : Condition => left.conditionType ≤ right.conditionType) (conditions ++ [next])
  have hordered : Ordered ((conditions ++ [next]).insertionSort fun left right =>
      left.conditionType ≤ right.conditionType) :=
    Ascending.of_insertionSort (Ascending.nodup_append h hnew)
  have hmem : next ∈ (conditions ++ [next]).insertionSort fun left right =>
      left.conditionType ≤ right.conditionType :=
    hperm.mem_iff.mpr (by simp)
  constructor
  · exact hordered
  · refine ⟨next, hmem, rfl, rfl, rfl, rfl, rfl, ?_, fun _ => rfl⟩
    intro old hold htype
    exact absurd htype (hnew old hold)
  · have hothers := Ascending.filter_insertionSort h hnew
    have hall : otherThan next.conditionType conditions = conditions :=
      List.filter_eq_self.mpr fun other hother => decide_eq_true (hnew other hother)
    rw [hall]
    exact hothers
  · constructor
    · intro hfalse
      cases hfalse
    · intro hsame
      rw [hsame] at hmem
      exact absurd rfl (hnew next hmem)
  · intro now
    rcases exists_split ((conditions ++ [next]).insertionSort fun left right =>
        left.conditionType ≤ right.conditionType) next.conditionType with
      hnone | ⟨before, current, after, hsplit, hcurrent, hbefore⟩
    · exact absurd rfl (hnone next hmem)
    · have hcurrentMem : current ∈ (conditions ++ [next]).insertionSort fun left right =>
          left.conditionType ≤ right.conditionType := by
        rw [hsplit]
        exact List.mem_append_right _ (.head _)
      have heq : current = next := Ascending.unique hordered hcurrentMem hmem hcurrent
      rw [hsplit, heq]
      refine setCondition_settled hbefore rfl ?_
      simp [Condition.amended]

/-- `set_condition` on a sorted map. -/
theorem setCondition_updated (h : Ordered conditions) :
    Updated conditions next (setCondition conditions next).1 (setCondition conditions next).2 := by
  rcases exists_split conditions next.conditionType with
    hnew | ⟨before, current, after, rfl, hcurrent, hbefore⟩
  · rw [setCondition_of_new hnew]
    exact updated_of_new h hnew
  · rw [setCondition_of_split hbefore hcurrent]
    exact updated_of_split h hcurrent hbefore

end setCondition

section Stored

variable {σ : Type} {P : ProviderModel σ} {provider : σ}

theorem ordered_of_typed {conditions : List Condition} {types : List String}
    (h : conditionTypes conditions = types) (hsorted : types.Pairwise (· < ·)) :
    Ordered conditions := by
  unfold Ordered Ascending
  rw [show conditions.map Condition.conditionType = types from h]
  exact hsorted

/-- The stored claims and Hosts have the condition types they were created with. -/
theorem Database.Invariant.conditionTypes {db : Database} (h : db.Invariant) :
    (∀ row ∈ db.hostClaims, ControlPlane.conditionTypes row.conditionsJson = claimConditionTypes) ∧
      ∀ row ∈ db.hosts, ControlPlane.conditionTypes row.conditionsJson = ["Ready"] := by
  constructor
  · intro row hmem
    obtain ⟨claim, hclaim, hdecode⟩ := h.readable.claim_of_row hmem
    have hconditions : claim.resource.status.conditions = row.conditionsJson :=
      (claimColumns hdecode).conditions
    rw [← hconditions]
    exact (h.claims hclaim).typed
  · intro row hmem
    obtain ⟨host, hhost, hdecode⟩ := h.readable.host_of_row hmem
    have hconditions : host.resource.status.conditions = row.conditionsJson :=
      (hostColumns hdecode).conditions
    rw [← hconditions]
    exact h.hosts hhost

end Stored

/-- `set_condition` keeps a sorted map with distinct types a sorted map, sets the one entry with
    the time of its last transition, leaves the others, reports exactly a changed list and is
    settled afterwards; and in every reachable stored state every claim has the conditions
    Accepted, Bound, Ready in this order and every Host has Ready. -/
theorem conditions_are_sorted_maps :
    (∀ conditions next, Ordered conditions →
      Updated conditions next (setCondition conditions next).1 (setCondition conditions next).2) ∧
    ∀ {σ : Type} {P : ProviderModel σ} {provider : σ} {c : Daemon σ},
      Reachable P System.anyStep provider c →
        (∀ row ∈ c.world.database.hostClaims,
          conditionTypes row.conditionsJson = ["Accepted", "Bound", "Ready"]) ∧
        ∀ row ∈ c.world.database.hosts, conditionTypes row.conditionsJson = ["Ready"] := by
  constructor
  · intro conditions next h
    exact setCondition_updated h
  · intro σ P provider c h
    have hinv : c.world.database.Invariant := h.sound.inv
    exact hinv.conditionTypes

/-- Setting a condition of a claim just created, and the rows of a claim with a Ready Host. -/
theorem sorted_maps_of_readied :
    Updated (initialClaim ⟨""⟩ ⟨⟨1, 1, 1⟩⟩ ⟨0⟩).status.conditions
      (newCondition "Progressing" .true "Created" "" 1 ⟨1⟩)
      (setCondition (initialClaim ⟨""⟩ ⟨⟨1, 1, 1⟩⟩ ⟨0⟩).status.conditions
        (newCondition "Progressing" .true "Created" "" 1 ⟨1⟩)).1 true ∧
    (∃ row ∈ (Script.played .willing Script.readied).world.database.hostClaims,
      conditionTypes row.conditionsJson = ["Accepted", "Bound", "Ready"]) ∧
    ∃ row ∈ (Script.played .willing Script.readied).world.database.hosts,
      conditionTypes row.conditionsJson = ["Ready"] := by
  have hordered : Ordered (initialClaim ⟨""⟩ ⟨⟨1, 1, 1⟩⟩ ⟨0⟩).status.conditions :=
    ordered_of_typed (rfl : _ = claimConditionTypes) (by decide)
  have hclaim : ∃ row, row ∈ (Script.played .willing Script.readied).world.database.hostClaims :=
    List.exists_mem_of_ne_nil _ (by decide +kernel)
  have hhost : ∃ row, row ∈ (Script.played .willing Script.readied).world.database.hosts :=
    List.exists_mem_of_ne_nil _ (by decide +kernel)
  obtain ⟨claim, hclaim⟩ := hclaim
  obtain ⟨host, hhost⟩ := hhost
  obtain ⟨hclaims, hhosts⟩ :=
    conditions_are_sorted_maps.2 (Script.reachable .willing Script.readied)
  exact ⟨conditions_are_sorted_maps.1 _ _ hordered, ⟨claim, hclaim, hclaims claim hclaim⟩,
    ⟨host, hhost, hhosts host hhost⟩⟩

end ControlPlane
