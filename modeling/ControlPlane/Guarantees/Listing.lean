import ControlPlane.Storage.Reached
import ControlPlane.Timestamps
import Mathlib.Data.String.Basic

/-!
# The order of the lists

`list_claims` and `list_hosts` order by the text of the creation time. That is the order of
creation except where an instant overtakes an earlier one in its text, as `…:00.5Z` does `…:00Z`.
-/

namespace ControlPlane

open Storage Database Interaction

/-- What a list is ordered by. -/
structure Created where
  createdAt : Timestamp
  id : String
  deriving DecidableEq

/-- The order of creation: earlier instants first, equal ones by id. -/
def CreatedBefore (left right : Created) : Prop :=
  left.createdAt.unixNanos < right.createdAt.unixNanos ∨
    left.createdAt = right.createdAt ∧ left.id ≤ right.id

instance : DecidableRel CreatedBefore := fun _ _ => inferInstanceAs (Decidable (_ ∨ _))

/-- The order `ORDER BY created_at ASC, id ASC` asks for. -/
def ListedBefore (left right : Created) : Prop :=
  listedBefore left.createdAt left.id right.createdAt right.id

instance : DecidableRel ListedBefore := fun _ _ => inferInstanceAs (Decidable (_ ∨ _))

def HostClaimRow.created (row : HostClaimRow) : Created := ⟨row.createdAt, row.id.text⟩

def HostRow.created (row : HostRow) : Created := ⟨row.createdAt, row.id.text⟩

def HostClaimRecord.created (claim : HostClaimRecord) : Created :=
  ⟨claim.resource.createdAt, claim.resource.id.text⟩

def HostRecord.created (host : HostRecord) : Created :=
  ⟨host.resource.createdAt, host.resource.id.text⟩

/-! ## The two orders -/

instance : Std.Total ListedBefore where
  total left right := by
    unfold ListedBefore listedBefore
    rcases lt_trichotomy left.createdAt.text right.createdAt.text with hlt | heq | hgt
    · exact .inl (.inl hlt)
    · rcases le_total left.id right.id with hle | hle
      · exact .inl (.inr ⟨heq, hle⟩)
      · exact .inr (.inr ⟨heq.symm, hle⟩)
    · exact .inr (.inl hgt)

theorem listedBefore_trans {first second third : Created} (h : ListedBefore first second)
    (h' : ListedBefore second third) : ListedBefore first third := by
  unfold ListedBefore listedBefore at *
  rcases h with hlt | ⟨heq, hle⟩
  · rcases h' with hlt' | ⟨heq', -⟩
    · exact .inl (hlt.trans hlt')
    · rw [heq'] at hlt
      exact .inl hlt
  · rw [heq]
    rcases h' with hlt' | ⟨heq', hle'⟩
    · exact .inl hlt'
    · exact .inr ⟨heq', hle.trans hle'⟩

instance : IsTrans Created ListedBefore where
  trans _ _ _ := listedBefore_trans

/-- Two rows that are listed in an order were created in it, unless one overtakes the other. -/
theorem createdBefore_of_listedBefore {left right : Created}
    (hleft : left.createdAt.Representable) (hright : right.createdAt.Representable)
    (hnot : ¬ Timestamp.Overtaken right.createdAt left.createdAt)
    (h : ListedBefore left right) : CreatedBefore left right := by
  rcases lt_trichotomy left.createdAt.unixNanos right.createdAt.unixNanos with hlt | heq | hgt
  · exact .inl hlt
  · have hsame := Timestamp.eq_of_unixNanos heq
    rcases h with hlt | ⟨-, hle⟩
    · rw [hsame] at hlt
      exact absurd hlt (lt_irrefl _)
    · exact .inr ⟨hsame, hle⟩
  · have hlt := Timestamp.text_lt_of_not_overtaken hright hleft hgt hnot
    rcases h with hlt' | ⟨heq, -⟩
    · exact absurd (hlt.trans hlt') (lt_irrefl _)
    · rw [heq] at hlt
      exact absurd hlt (lt_irrefl _)

/-- A list in the order of the texts is in the order of creation exactly if no instant in it
    overtakes another. -/
theorem pairwise_createdBefore_iff {rows : List Created} (hlisted : rows.Pairwise ListedBefore)
    (hrepresentable : ∀ row ∈ rows, row.createdAt.Representable) :
    rows.Pairwise CreatedBefore ↔
      ∀ left ∈ rows, ∀ right ∈ rows,
        ¬ Timestamp.Overtaken left.createdAt right.createdAt := by
  constructor
  · intro hcreated left hleft right hright hovertaken
    have hbefore := hovertaken.before
    have hlt := Timestamp.text_lt_of_overtaken (hrepresentable left hleft) hbefore hovertaken
    -- of two rows of the list one is listed and created before the other
    have hboth : ∀ x ∈ rows, ∀ y ∈ rows, (ListedBefore x y ∧ CreatedBefore x y) ∨
        (ListedBefore y x ∧ CreatedBefore y x) := by
      have hpairs := (List.pairwise_and_iff.mpr ⟨hlisted, hcreated⟩)
      refine List.Pairwise.forall_of_forall_of_flip (fun x _ => .inl ⟨.inr ⟨rfl, le_refl _⟩,
        .inr ⟨rfl, le_refl _⟩⟩) (hpairs.imp .inl) (hpairs.imp .inr)
    rcases hboth left hleft right hright with ⟨hlist, -⟩ | ⟨-, hcreate⟩
    · rcases hlist with hlt' | ⟨heq, -⟩
      · exact lt_irrefl _ (hlt.trans hlt')
      · rw [heq] at hlt
        exact lt_irrefl _ hlt
    · rcases hcreate with hlt' | ⟨heq, -⟩
      · exact lt_irrefl _ (hbefore.trans hlt')
      · rw [heq] at hbefore
        exact lt_irrefl _ hbefore
  · intro hnot
    refine hlisted.imp_of_mem fun {left right} hleft hright hlist => ?_
    exact createdBefore_of_listedBefore (hrepresentable left hleft) (hrepresentable right hright)
      (hnot right hright left hleft) hlist

/-! ## The lists -/

variable {db : Database}

/-- Decoding keeps what the decoder keeps of every row. -/
theorem map_eq_of_decoded {ρ α κ : Type} {decode : ρ → Except String α} {ofRow : ρ → κ}
    {ofRecord : α → κ} (hkeeps : ∀ row record, decode row = .ok record →
      ofRecord record = ofRow row) {rows : List ρ} {records : List α}
    (h : rows.mapM decode = .ok records) : records.map ofRecord = rows.map ofRow := by
  have hdecoded := mapM_eq_ok.mp h
  clear h
  induction hdecoded with
  | nil => rfl
  | cons hrow _ ih => rw [List.map_cons, List.map_cons, ih, hkeeps _ _ hrow]

theorem created_of_listClaims {claims : List HostClaimRecord} (h : listClaims db = .ok claims) :
    claims.map HostClaimRecord.created = (orderedClaims db).map HostClaimRow.created := by
  refine map_eq_of_decoded (fun row record hdecode => ?_) (internal_eq_ok.mp h)
  have hcolumns := claimColumns hdecode
  unfold HostClaimRecord.created HostClaimRow.created
  rw [hcolumns.createdAt, hcolumns.id]
  rfl

theorem created_of_listHosts {hosts : List HostRecord} (h : listHosts db = .ok hosts) :
    hosts.map HostRecord.created = (orderedHosts db).map HostRow.created := by
  refine map_eq_of_decoded (fun row record hdecode => ?_) (internal_eq_ok.mp h)
  have hcolumns := hostColumns hdecode
  unfold HostRecord.created HostRow.created
  rw [hcolumns.createdAt, hcolumns.id]

/-- The rows of a list are in the order it asks for. -/
theorem pairwise_listedBefore {ρ : Type} (created : ρ → Created) (rows : List ρ) :
    ((rows.insertionSort fun left right => ListedBefore (created left) (created right)).map
      created).Pairwise ListedBefore := by
  rw [List.map_insertionSort _ ListedBefore created rows fun _ _ _ _ => Iff.rfl]
  exact List.pairwise_insertionSort _ _

/-- Rows sorted by their texts are in the order of creation exactly if no stored instant overtakes
    another. -/
theorem sorted_createdBefore_iff {ρ : Type} (created : ρ → Created) (rows : List ρ)
    (hrepresentable : ∀ row ∈ rows, (created row).createdAt.Representable) :
    ((rows.insertionSort fun left right =>
        ListedBefore (created left) (created right)).map created).Pairwise CreatedBefore ↔
      ∀ left ∈ rows, ∀ right ∈ rows,
        ¬ Timestamp.Overtaken (created left).createdAt (created right).createdAt := by
  rw [pairwise_createdBefore_iff (pairwise_listedBefore created rows)]
  · simp [List.mem_insertionSort]
  · intro row hmem
    obtain ⟨old, hold, rfl⟩ := List.mem_map.mp hmem
    exact hrepresentable old ((List.mem_insertionSort _).mp hold)

/-- The lists are in the order of creation, equal instants by id, exactly if no stored creation
    time overtakes another in its text. -/
theorem lists_in_creation_order_iff
    (hclaims : ∀ row ∈ db.hostClaims, row.createdAt.Representable)
    (hhosts : ∀ row ∈ db.hosts, row.createdAt.Representable) :
    (∀ claims, listClaims db = .ok claims →
      ((claims.map HostClaimRecord.created).Pairwise CreatedBefore ↔
        ∀ left ∈ db.hostClaims, ∀ right ∈ db.hostClaims,
          ¬ Timestamp.Overtaken left.createdAt right.createdAt)) ∧
    (∀ hosts, listHosts db = .ok hosts →
      ((hosts.map HostRecord.created).Pairwise CreatedBefore ↔
        ∀ left ∈ db.hosts, ∀ right ∈ db.hosts,
          ¬ Timestamp.Overtaken left.createdAt right.createdAt)) := by
  refine ⟨fun claims h => ?_, fun hosts h => ?_⟩
  · rw [created_of_listClaims h]
    exact sorted_createdBefore_iff HostClaimRow.created db.hostClaims hclaims
  · rw [created_of_listHosts h]
    exact sorted_createdBefore_iff HostRow.created db.hosts hhosts

/-! ## Two claims created in one second -/

/-- A claim created on a second, and one created at a time in it. -/
def twoCreated (second : Timestamp) : Database :=
  Mutation.apply (Mutation.apply .empty (.createClaim ⟨"first"⟩ ⟨⟨1, 1, 1⟩⟩ ⟨0⟩))
    (.createClaim ⟨"second"⟩ ⟨⟨1, 1, 1⟩⟩ second)

theorem reached_twoCreated (second : Timestamp) : Reached (twoCreated second) := by
  unfold twoCreated
  exact .apply _ (.apply _ .empty)

/-- A second apart, the list is in order. -/
theorem lists_in_order_of_twoCreated :
    ∃ claims, listClaims (twoCreated ⟨1000000000⟩) = .ok claims ∧
      (claims.map HostClaimRecord.created).Pairwise CreatedBefore := by
  obtain ⟨claims, hclaims⟩ := listClaims_of_readable (reached_twoCreated ⟨1000000000⟩).readable
  exact ⟨claims, hclaims, ((lists_in_creation_order_iff (by decide +kernel)
    (by decide +kernel)).1 claims hclaims).mpr (by decide +kernel)⟩

/-- A claim created half a second later is listed first. -/
theorem half_a_second_later_is_listed_first :
    Reached (twoCreated ⟨500000000⟩) ∧
      (∀ row ∈ (twoCreated ⟨500000000⟩).hostClaims, row.createdAt.Representable) ∧
      ∃ claims, listClaims (twoCreated ⟨500000000⟩) = .ok claims ∧
        claims.map HostClaimRecord.created = [⟨⟨500000000⟩, "second"⟩, ⟨⟨0⟩, "first"⟩] ∧
        ¬(claims.map HostClaimRecord.created).Pairwise CreatedBefore := by
  obtain ⟨claims, hclaims⟩ := listClaims_of_readable (reached_twoCreated ⟨500000000⟩).readable
  have hcreated : claims.map HostClaimRecord.created =
      [⟨⟨500000000⟩, "second"⟩, ⟨⟨0⟩, "first"⟩] := by
    rw [created_of_listClaims hclaims]
    decide +kernel
  refine ⟨reached_twoCreated _, by decide +kernel, claims, hclaims, hcreated, ?_⟩
  rw [hcreated]
  decide

end ControlPlane
