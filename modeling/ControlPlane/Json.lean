import Mathlib.Data.List.Nodup
import Mathlib.Data.List.Zip

/-!
# JSON trees and what is read from them

A text as the tree it denotes, and the rules by which typed values are read from trees: a record
from an object whose members are its fields, each once and no others, or from an array of all of
them in order; a variant without data by its name. Absent is not the same as `null`, except where a
field is optional, and the order of members does not matter at any depth. A wire is how the values
of one type are written and read.
-/

namespace ControlPlane

/-- A JSON text. The members of an object are those of the text, in its order and as often as they
    occur there. -/
inductive Json where
  | null
  | bool (value : Bool)
  | integer (value : Int)
  /-- every other number, `-0` among them -/
  | decimal (text : String)
  | string (value : String)
  | array (items : List Json)
  | object (members : List (String × Json))

namespace Json

/-! ## Records -/

/-- The members a record with these fields is read from. -/
def fields (names : List String) : Json → Option (List (String × Json))
  | .object members =>
    if (∀ name ∈ members.map Prod.fst, name ∈ names) ∧ (members.map Prod.fst).Nodup then
      some members
    else none
  | .array items => if items.length = names.length then some (names.zip items) else none
  | _ => none

/-- A field that must be there. -/
def required {α : Type} (read : Json → Option α) (name : String) (members : List (String × Json)) :
    Option α :=
  (members.lookup name).bind read

/-- A field that may be absent or `null`. -/
def optional {α : Type} (read : Json → Option α) (name : String)
    (members : List (String × Json)) : Option (Option α) :=
  match members.lookup name with
  | none => some none
  | some .null => some none
  | some json => (read json).map some

/-- A variant without data, by its name. -/
def variant : Json → Option String
  | .string name => some name
  | .object [(name, .null)] => some name
  | _ => none

section Fields

variable {α : Type} {names : List String} {read : Json → Option α} {name : String}
  {json value : Json} {members : List (String × Json)}

/-- An object with the fields in order is read as such. -/
theorem fields_object (h : members.map Prod.fst = names) (hnodup : names.Nodup) :
    fields names (.object members) = some members := by
  refine if_pos ?_
  rw [h]
  exact ⟨fun _ => id, hnodup⟩

/-- An array of all values is read as the object that names them. -/
theorem fields_array {items : List Json} (h : items.length = names.length) :
    fields names (.array items) = some (names.zip items) :=
  if_pos h

/-- A record has no members but its fields, each at most once. -/
theorem fields_ok (h : fields names json = some members) (hnodup : names.Nodup) :
    (∀ name ∈ members.map Prod.fst, name ∈ names) ∧ (members.map Prod.fst).Nodup := by
  unfold fields at h
  split at h
  · split at h
    · rename_i hmembers
      cases h
      exact hmembers
    · cases h
  · split at h
    · rename_i hlength
      cases h
      rw [List.map_fst_zip (Nat.le_of_eq hlength.symm)]
      exact ⟨fun _ => id, hnodup⟩
    · cases h
  · cases h

@[simp] theorem required_cons_self :
    required read name ((name, value) :: members) = read value := by
  unfold required
  rw [List.lookup_cons_self]
  rfl

theorem required_cons_of_ne {other : String} (h : name ≠ other) :
    required read name ((other, value) :: members) = required read name members := by
  unfold required
  rw [List.lookup_cons, beq_false_of_ne h]

theorem optional_cons_of_ne {other : String} (h : name ≠ other) :
    optional read name ((other, value) :: members) = optional read name members := by
  unfold optional
  rw [List.lookup_cons, beq_false_of_ne h]

@[simp] theorem optional_cons_null :
    optional read name ((name, .null) :: members) = some none := by
  unfold optional
  rw [List.lookup_cons_self]

theorem optional_cons_self (h : value ≠ .null) :
    optional read name ((name, value) :: members) = (read value).map some := by
  unfold optional
  rw [List.lookup_cons_self]
  cases value <;> first | rfl | exact absurd rfl h

/-- A required field is there. -/
theorem mem_of_required {a : α} (h : required read name members = some a) :
    ∃ value, (name, value) ∈ members ∧ read value = some a := by
  obtain ⟨value, hlookup, hread⟩ := Option.bind_eq_some_iff.mp h
  obtain ⟨before, after, hmembers, -⟩ := List.lookup_eq_some_iff.mp hlookup
  rw [hmembers]
  exact ⟨value, List.mem_append_right _ List.mem_cons_self, hread⟩

variable {canonical : List (String × Json)}

/-- The members of an object may come in any order. -/
theorem lookup_perm (h : members.Perm canonical) (hnodup : (canonical.map Prod.fst).Nodup) :
    members.lookup name = canonical.lookup name := by
  induction h with
  | nil => rfl
  | @cons member rest others _ ih =>
    obtain ⟨key, value⟩ := member
    rw [List.map_cons, List.nodup_cons] at hnodup
    rw [List.lookup_cons, List.lookup_cons, ih hnodup.2]
  | swap first second rest =>
    obtain ⟨key, value⟩ := first
    obtain ⟨key', value'⟩ := second
    rw [List.map_cons, List.map_cons, List.nodup_cons, List.mem_cons, not_or] at hnodup
    simp only [List.lookup_cons]
    cases hfirst : name == key with
    | true =>
      have hne : (name == key') = false := by
        rw [eq_of_beq hfirst]
        exact beq_false_of_ne hnodup.1.1
      rw [hne]
    | false => rfl
  | @trans members middle canonical _ hsecond ih ih' =>
    rw [ih ((hsecond.map Prod.fst).nodup_iff.mpr hnodup), ih' hnodup]

theorem required_perm (h : members.Perm canonical) (hnodup : (canonical.map Prod.fst).Nodup) :
    required read name members = required read name canonical := by
  unfold required
  rw [lookup_perm h hnodup]

theorem optional_perm (h : members.Perm canonical) (hnodup : (canonical.map Prod.fst).Nodup) :
    optional read name members = optional read name canonical := by
  unfold optional
  rw [lookup_perm h hnodup]

theorem fields_perm (h : members.Perm canonical) (hnodup : (canonical.map Prod.fst).Nodup)
    (hnames : ∀ name ∈ canonical.map Prod.fst, name ∈ names) :
    fields names (.object members) = some members := by
  have hkeys := h.map Prod.fst
  exact if_pos ⟨fun name hmem => hnames name (hkeys.mem_iff.mp hmem), hkeys.nodup_iff.mpr hnodup⟩

end Fields

/-! ## The order of members -/

/-- The same tree but for the order of the members of its objects, at any depth. -/
inductive Reordered : Json → Json → Prop where
  | refl {json} : Reordered json json
  | trans {first second third} : Reordered first second → Reordered second third →
      Reordered first third
  | members {members members'} : members.Perm members' →
      Reordered (.object members) (.object members')
  | member (before after name) {value value'} : Reordered value value' →
      Reordered (.object (before ++ (name, value) :: after))
        (.object (before ++ (name, value') :: after))
  | item (before after) {value value'} : Reordered value value' →
      Reordered (.array (before ++ value :: after)) (.array (before ++ value' :: after))

/-- A reader to which the order of members does not matter. -/
def Unordered {α : Type} (read : Json → Option α) : Prop :=
  ∀ json json', Reordered json json' → read json = read json'

/-- Members with the same names, whose values are the same but for the order of members. -/
def SameMembers (members members' : List (String × Json)) : Prop :=
  ∀ name, Option.Rel Reordered (members.lookup name) (members'.lookup name)

section Order

variable {α β : Type} {names : List String} {read : Json → Option α} {name : String}
  {json json' : Json} {members members' : List (String × Json)}

theorem Reordered.null_iff (h : Reordered json json') : json = .null ↔ json' = .null := by
  induction h with
  | refl => exact .rfl
  | trans _ _ ih ih' => exact ih.trans ih'
  | members | member | item => exact iff_of_false (fun h => by cases h) (fun h => by cases h)

theorem SameMembers.of_lookup (h : ∀ name, members.lookup name = members'.lookup name) :
    SameMembers members members' := by
  intro name
  rw [h name]
  cases members'.lookup name with
  | none => exact .none
  | some value => exact .some .refl

/-- A member whose value is the same but for the order of members. -/
theorem SameMembers.member (before after : List (String × Json)) (key : String)
    {value value' : Json} (h : Reordered value value') :
    SameMembers (before ++ (key, value) :: after) (before ++ (key, value') :: after) := by
  intro name
  rw [List.lookup_append, List.lookup_append, List.lookup_cons, List.lookup_cons]
  cases before.lookup name with
  | some found => exact .some .refl
  | none =>
    cases name == key with
    | true => exact .some h
    | false => exact SameMembers.of_lookup (fun _ => rfl) name

/-- An item whose value is the same but for the order of members, under the name of its field. -/
theorem SameMembers.item {before after : List Json} {value value' : Json}
    (h : Reordered value value') :
    SameMembers (names.zip (before ++ value :: after)) (names.zip (before ++ value' :: after)) := by
  induction before generalizing names with
  | nil =>
    cases names with
    | nil => exact .of_lookup fun _ => rfl
    | cons key names => exact .member [] (names.zip after) key h
  | cons first before ih =>
    cases names with
    | nil => exact .of_lookup fun _ => rfl
    | cons key names =>
      intro name
      rw [List.cons_append, List.cons_append, List.zip_cons_cons, List.zip_cons_cons,
        List.lookup_cons, List.lookup_cons]
      cases name == key with
      | true => exact .some .refl
      | false => exact ih name

/-- A text, a number or the like has no members. -/
theorem Unordered.of_leaf (hobject : ∀ members, read (.object members) = none)
    (harray : ∀ items, read (.array items) = none) : Unordered read := by
  intro json json' h
  induction h with
  | refl => rfl
  | trans _ _ ih ih' => exact ih.trans ih'
  | members | member => rw [hobject, hobject]
  | item => rw [harray, harray]

theorem Unordered.bind (h : Unordered read) (next : α → Option β) :
    Unordered fun json => (read json).bind next := by
  intro json json' hsame
  dsimp only
  rw [h _ _ hsame]

theorem Unordered.required (h : Unordered read) (hsame : SameMembers members members') :
    required read name members = required read name members' := by
  have hname := hsame name
  unfold Json.required
  generalize members.lookup name = first at hname
  generalize members'.lookup name = second at hname
  cases hname with
  | none => rfl
  | some hvalue => exact h _ _ hvalue

theorem Unordered.optional (h : Unordered read) (hsame : SameMembers members members') :
    optional read name members = optional read name members' := by
  have hname := hsame name
  unfold Json.optional
  generalize members.lookup name = first at hname
  generalize members'.lookup name = second at hname
  cases hname with
  | none => rfl
  | @some value value' hvalue =>
    have hread := h _ _ hvalue
    by_cases hnull : value = .null
    · rw [hnull, hvalue.null_iff.mp hnull]
    · have hnull' : value' ≠ .null := fun heq => hnull (hvalue.null_iff.mpr heq)
      have hpresent : ∀ {json : Json}, json ≠ .null →
          (match some json with
            | none => some none
            | some .null => some none
            | some json => (read json).map some) = (read json).map some := by
        intro json hjson
        cases json <;> first | rfl | exact absurd rfl hjson
      rw [hpresent hnull, hpresent hnull', hread]

/-- A record whose fields are read without regard to the order of members. -/
theorem Unordered.fields {next : List (String × Json) → Option α}
    (h : ∀ {members members'}, SameMembers members members' → next members = next members') :
    Unordered fun json => (fields names json).bind next := by
  have hkeys : ∀ {members members' : List (String × Json)},
      (members.map Prod.fst).Perm (members'.map Prod.fst) →
      ((members'.map Prod.fst).Nodup → SameMembers members members') →
      (Json.fields names (.object members)).bind next =
        (Json.fields names (.object members')).bind next := by
    intro members members' hperm hsame
    have hknown : ((∀ name ∈ members.map Prod.fst, name ∈ names) ∧ (members.map Prod.fst).Nodup) ↔
        ((∀ name ∈ members'.map Prod.fst, name ∈ names) ∧ (members'.map Prod.fst).Nodup) :=
      and_congr (forall_congr' fun name => imp_congr_left hperm.mem_iff) hperm.nodup_iff
    by_cases hread : (∀ name ∈ members'.map Prod.fst, name ∈ names) ∧
        (members'.map Prod.fst).Nodup
    · have hfirst : Json.fields names (.object members) = some members :=
        if_pos (hknown.mpr hread)
      have hsecond : Json.fields names (.object members') = some members' := if_pos hread
      rw [hfirst, hsecond]
      exact h (hsame hread.2)
    · have hfirst : Json.fields names (.object members) = none := if_neg (mt hknown.mp hread)
      have hsecond : Json.fields names (.object members') = none := if_neg hread
      rw [hfirst, hsecond]
  intro json json' hjson
  dsimp only
  induction hjson with
  | refl => rfl
  | trans _ _ ih ih' => exact ih.trans ih'
  | members hperm =>
    exact hkeys (hperm.map Prod.fst) fun hnodup => .of_lookup fun _ => lookup_perm hperm hnodup
  | member before after _ hvalue =>
    refine hkeys ?_ fun _ => .member before after _ hvalue
    rw [List.map_append, List.map_append]
    rfl
  | @item before after value value' hvalue =>
    have hlength : (before ++ value :: after).length = (before ++ value' :: after).length := by
      rw [List.length_append, List.length_append]
      rfl
    by_cases hread : (before ++ value' :: after).length = names.length
    · rw [fields_array hread, fields_array (hlength.trans hread)]
      exact h (.item hvalue)
    · have hfirst : Json.fields names (.array (before ++ value :: after)) = none :=
        if_neg fun heq => hread (hlength.symm.trans heq)
      have hsecond : Json.fields names (.array (before ++ value' :: after)) = none := if_neg hread
      rw [hfirst, hsecond]

theorem variant_of_length (h : members.length ≠ 1) : variant (.object members) = none := by
  unfold variant
  split
  · cases ‹Json.object _ = _›
  · rename_i hmembers
    cases hmembers
    exact absurd rfl h
  · rfl

theorem unordered_variant : Unordered variant := by
  intro json json' h
  induction h with
  | refl => rfl
  | trans _ _ ih ih' => exact ih.trans ih'
  | @members members members' hperm =>
    by_cases hlength : members.length = 1
    · obtain ⟨member, rfl⟩ := List.length_eq_one_iff.mp hlength
      rw [List.singleton_perm.mp hperm]
    · rw [variant_of_length hlength, variant_of_length (hperm.length_eq ▸ hlength)]
  | @member before after name value value' hvalue =>
    by_cases hlength : before.length + after.length = 0
    · obtain ⟨hbefore, hafter⟩ := Nat.add_eq_zero_iff.mp hlength
      rw [List.length_eq_zero_iff.mp hbefore, List.length_eq_zero_iff.mp hafter]
      by_cases hnull : value = .null
      · rw [hnull, hvalue.null_iff.mp hnull]
      · have hnull' : value' ≠ .null := fun heq => hnull (hvalue.null_iff.mpr heq)
        have hnone : ∀ {json : Json}, json ≠ .null → variant (.object [(name, json)]) = none := by
          intro json hjson
          cases json <;> first | rfl | exact absurd rfl hjson
        exact (hnone hnull).trans (hnone hnull').symm
    · have hmany : ∀ {json : Json}, (before ++ (name, json) :: after).length ≠ 1 := by
        intro json
        rw [List.length_append, List.length_cons]
        omega
      rw [variant_of_length hmany, variant_of_length hmany]
  | item => rfl

end Order

end Json

/-! ## Wires -/

/-- How the values of a type are written and read; what is not accepted reads as `none`. -/
structure Wire (α : Type) where
  encode : α → Json
  decode : Json → Option α

namespace Wire

variable {α : Type}

/-- A value is read as it was written, and not as an absent one. -/
structure Carries (wire : Wire α) (value : α) : Prop where
  decode_encode : wire.decode (wire.encode value) = some value
  encode_ne_null : wire.encode value ≠ .null

/-- `null`, or a value. -/
def option (wire : Wire α) : Wire (Option α) where
  encode
    | none => .null
    | some value => wire.encode value
  decode
    | .null => some none
    | json => (wire.decode json).map some

/-- A list. -/
def list (wire : Wire α) : Wire (List α) where
  encode values := .array (values.map wire.encode)
  decode
    | .array items => items.mapM wire.decode
    | _ => none

/-- Strings. -/
def string : Wire String where
  encode := .string
  decode
    | .string value => some value
    | _ => none

/-- An integer within bounds. -/
def integerWithin (low high : Int) : Json → Option Int
  | .integer value => if low ≤ value ∧ value < high then some value else none
  | _ => none

/-- Unsigned integers of 32 bits. -/
def uint32 : Wire UInt32 where
  encode value := .integer value.toNat
  decode json := (integerWithin 0 4294967296 json).map fun value => UInt32.ofNat value.toNat

/-- Unsigned integers of 64 bits. -/
def uint64 : Wire UInt64 where
  encode value := .integer value.toNat
  decode json :=
    (integerWithin 0 18446744073709551616 json).map fun value => UInt64.ofNat value.toNat

/-- Signed integers of 32 bits. -/
def int32 : Wire Int32 where
  encode value := .integer value.toInt
  decode json := (integerWithin (-2147483648) 2147483648 json).map Int32.ofInt

theorem carries_string (value : String) : string.Carries value :=
  ⟨rfl, fun h => by cases h⟩

theorem integerWithin_integer {low high value : Int} (hlow : low ≤ value) (hhigh : value < high) :
    integerWithin low high (.integer value) = some value :=
  if_pos ⟨hlow, hhigh⟩

theorem carries_uint32 (value : UInt32) : uint32.Carries value := by
  refine ⟨?_, fun h => by cases h⟩
  have hlt : (value.toNat : Int) < 4294967296 := Int.ofNat_lt.mpr value.toNat_lt
  unfold uint32
  dsimp only
  rw [integerWithin_integer (Int.natCast_nonneg _) hlt]
  simp

theorem carries_uint64 (value : UInt64) : uint64.Carries value := by
  refine ⟨?_, fun h => by cases h⟩
  have hlt : (value.toNat : Int) < 18446744073709551616 := Int.ofNat_lt.mpr value.toNat_lt
  unfold uint64
  dsimp only
  rw [integerWithin_integer (Int.natCast_nonneg _) hlt]
  simp

theorem carries_int32 (value : Int32) : int32.Carries value := by
  refine ⟨?_, fun h => by cases h⟩
  unfold int32
  dsimp only
  have hlow : (-2147483648 : Int) ≤ value.toInt := value.le_toInt
  have hhigh : value.toInt < (2147483648 : Int) := value.toInt_lt
  rw [integerWithin_integer hlow hhigh]
  simp

variable {wire : Wire α}

/-- A list whose items are carried. -/
theorem list_carries {values : List α} (h : ∀ a ∈ values, wire.Carries a) :
    (list wire).Carries values := by
  refine ⟨?_, fun h => by cases h⟩
  show (values.map wire.encode).mapM wire.decode = some values
  induction values with
  | nil => rfl
  | cons a values ih =>
    rw [List.map_cons, List.mapM_cons, (h a List.mem_cons_self).decode_encode,
      ih fun b hmem => h b (List.mem_cons_of_mem _ hmem)]
    rfl

theorem list_unordered (h : Json.Unordered wire.decode) : Json.Unordered (list wire).decode := by
  intro json json' hsame
  induction hsame with
  | refl => rfl
  | trans _ _ ih ih' => exact ih.trans ih'
  | members | member => rfl
  | @item before after value value' hvalue =>
    show (before ++ value :: after).mapM wire.decode = (before ++ value' :: after).mapM wire.decode
    induction before with
    | nil => rw [List.nil_append, List.nil_append, List.mapM_cons, List.mapM_cons,
        h _ _ hvalue]
    | cons first before ih =>
      rw [List.cons_append, List.cons_append, List.mapM_cons, List.mapM_cons, ih]

/-- An optional field that is carried. -/
theorem optional_encode {name : String} {value : Option α} {members : List (String × Json)}
    (h : ∀ a ∈ value, wire.Carries a) :
    Json.optional wire.decode name ((name, (option wire).encode value) :: members) =
      some value := by
  cases value with
  | none => exact Json.optional_cons_null
  | some a =>
    have ha := h a rfl
    show Json.optional wire.decode name ((name, wire.encode a) :: members) = _
    rw [Json.optional_cons_self ha.encode_ne_null, ha.decode_encode]
    rfl

end Wire

end ControlPlane
