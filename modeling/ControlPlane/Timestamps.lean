import ControlPlane.Calendar
import ControlPlane.Lexicographic
import Mathlib.Data.Char

/-!
# The order of instants and of their texts

Two timestamps print in the order of their instants, with two exceptions: in one second, an instant
whose fraction continues the digits of an earlier one prints before it, as the `Z` of the shorter
text is greater than every digit and than the point; and negative years print in reverse.
-/

namespace ControlPlane.Timestamp

open Lexicographic

/-! ## Digits -/

theorem digitChar_lt : ∀ digit < 10, ∀ later < 10, digit < later →
    Nat.digitChar digit < Nat.digitChar later := by
  decide

theorem digitChar_bounds : ∀ digit < 10, '0' ≤ Nat.digitChar digit ∧ Nat.digitChar digit < 'Z' := by
  decide

@[simp] theorem length_digits (width n : Nat) : (digits width n).length = width := by
  induction width generalizing n with
  | zero => rfl
  | succ width ih =>
    unfold digits
    rw [List.length_append, ih]
    rfl

theorem digits_bounds {width n : Nat} {char : Char} (h : char ∈ digits width n) :
    '0' ≤ char ∧ char < 'Z' := by
  induction width generalizing n with
  | zero => cases h
  | succ width ih =>
    rcases List.mem_append.mp h with hhigh | hlow
    · exact ih hhigh
    · rw [List.mem_singleton.mp hlow]
      exact digitChar_bounds _ (Nat.mod_lt _ (by decide))

/-- Numbers of one width compare as their digits. -/
theorem digits_lt {width m n : Nat} (h : m < n) (hn : n < 10 ^ width) :
    digits width m < digits width n := by
  induction width generalizing m n with
  | zero => omega
  | succ width ih =>
    unfold digits
    rw [Nat.pow_succ] at hn
    by_cases hhigh : m / 10 < n / 10
    · exact append_lt_append (by simp) (ih hhigh (by omega))
    · have hsame : m / 10 = n / 10 := by omega
      have hlow := digitChar_lt (m % 10) (Nat.mod_lt _ (by decide)) (n % 10)
        (Nat.mod_lt _ (by decide)) (by omega)
      rw [hsame]
      exact List.append_left_lt (List.cons_lt_cons_iff.mpr (.inl hlow))

/-! ## Date and time -/

/-- The parts of a printed date and time. -/
def dateTimeBlocks (seconds : Int) : List (List Char) :=
  let (year, month, day) := civilDate (seconds.fdiv 86400)
  let secondOfDay := (seconds.fmod 86400).toNat
  [yearText year, '-' :: digits 2 month, '-' :: digits 2 day, 'T' :: digits 2 (secondOfDay / 3600),
    ':' :: digits 2 (secondOfDay / 60 % 60), ':' :: digits 2 (secondOfDay % 60)]

theorem flatten_dateTimeBlocks (seconds : Int) :
    (dateTimeBlocks seconds).flatten = dateTimeText seconds := by
  simp [dateTimeBlocks, dateTimeText]

/-- The year a second is in. -/
def yearOf (seconds : Int) : Int :=
  (civilDate (seconds.fdiv 86400)).1

theorem block_lt {mark : Char} {width m n : Nat} {rest others : List (List Char)}
    (hn : n < 10 ^ width) (h : m < n ∨ m = n ∧ rest < others) :
    (mark :: digits width m) :: rest < (mark :: digits width n) :: others := by
  rw [List.cons_lt_cons_iff]
  rcases h with hlt | ⟨rfl, hrest⟩
  · refine .inl (List.cons_lt_cons_iff.mpr (.inr ⟨rfl, digits_lt hlt hn⟩))
  · exact .inr ⟨rfl, hrest⟩

/-- The parts of a second and of a later one of the same day. -/
theorem time_before {second later : Nat} (h : second < later) :
    second / 3600 < later / 3600 ∨ second / 3600 = later / 3600 ∧
      (second / 60 % 60 < later / 60 % 60 ∨ second / 60 % 60 = later / 60 % 60 ∧
        second % 60 < later % 60) := by
  omega

/-- Years with four digits print in order. -/
theorem yearText_lt {year later : Int} (h : year < later) (hyear : 0 ≤ year)
    (hlater : later ≤ 9999) :
    (yearText year).length = (yearText later).length ∧ yearText year < yearText later := by
  unfold yearText
  rw [if_pos hyear, if_pos (by omega)]
  exact ⟨by simp, digits_lt (by omega) (by omega)⟩

/-- Where the years print in order, so do the dates and times. -/
theorem dateTimeBlocks_lt {seconds later : Int} (h : seconds < later)
    (hyear : yearOf seconds = yearOf later ∨ yearText (yearOf seconds) < yearText (yearOf later)) :
    dateTimeBlocks seconds < dateTimeBlocks later := by
  have hdays := Int.fdiv_eq_ediv_of_nonneg seconds (show (0 : Int) ≤ 86400 by decide)
  have hdays' := Int.fdiv_eq_ediv_of_nonneg later (show (0 : Int) ≤ 86400 by decide)
  have hrest := Int.fmod_eq_emod_of_nonneg seconds (show (0 : Int) ≤ 86400 by decide)
  have hrest' := Int.fmod_eq_emod_of_nonneg later (show (0 : Int) ≤ 86400 by decide)
  obtain ⟨-, hmonth, hday⟩ := civilDate_bounds (later.fdiv 86400)
  have hmonth : (civilDate (later.fdiv 86400)).2.1 < 10 ^ 2 := by omega
  have hday : (civilDate (later.fdiv 86400)).2.2 < 10 ^ 2 := by omega
  unfold yearOf at hyear
  unfold dateTimeBlocks
  dsimp only
  rw [List.cons_lt_cons_iff]
  rcases hyear with hyear | hyear
  · refine .inr ⟨by rw [hyear], ?_⟩
    by_cases hsame : seconds.fdiv 86400 = later.fdiv 86400
    · -- on one day, the time decides
      have htime := time_before
        (show (seconds.fmod 86400).toNat < (later.fmod 86400).toNat by omega)
      have hlt : (later.fmod 86400).toNat < 86400 := by omega
      rw [hsame]
      refine block_lt hmonth (.inr ⟨rfl, block_lt hday (.inr ⟨rfl, ?_⟩)⟩)
      refine block_lt (by omega) (htime.imp_right fun htime => ⟨htime.1, ?_⟩)
      refine block_lt (by omega) (htime.2.imp_right fun htime => ⟨htime.1, ?_⟩)
      exact block_lt (by omega) (.inl htime.2)
    · have hbefore := civilDate_before
        (show seconds.fdiv 86400 < later.fdiv 86400 by omega)
      rcases hbefore with hlt | ⟨-, hdate⟩
      · omega
      · refine block_lt hmonth (hdate.imp_right fun hdate => ⟨hdate.1, ?_⟩)
        exact block_lt hday (.inl hdate.2)
  · exact .inl hyear

/-- A later second of the same year, or of a later year with four digits, prints later. -/
theorem dateTimeText_lt {seconds later : Int} (h : seconds < later)
    (hyear : yearOf seconds = yearOf later ∨
      yearOf seconds < yearOf later ∧ 0 ≤ yearOf seconds ∧ yearOf later ≤ 9999)
    (us vs : List Char) : dateTimeText seconds ++ us < dateTimeText later ++ vs := by
  have hlength : (dateTimeBlocks seconds).map List.length =
      (dateTimeBlocks later).map List.length := by
    have hlengthYear : (yearText (yearOf seconds)).length = (yearText (yearOf later)).length := by
      rcases hyear with hyear | ⟨hlt, hpos, hle⟩
      · rw [hyear]
      · exact (yearText_lt hlt hpos hle).1
    unfold yearOf at hlengthYear
    simp [dateTimeBlocks, hlengthYear]
  have hblocks : dateTimeBlocks seconds < dateTimeBlocks later := by
    refine dateTimeBlocks_lt h (hyear.imp_right ?_)
    rintro ⟨hlt, hpos, hle⟩
    exact (yearText_lt hlt hpos hle).2
  rw [← flatten_dateTimeBlocks, ← flatten_dateTimeBlocks]
  refine append_lt_append ?_ (flatten_lt_flatten hlength hblocks)
  rw [List.length_flatten, List.length_flatten, hlength]

/-! ## Fractions -/

theorem fractionText_eq {nanos : Nat} (h : nanos ≠ 0) :
    fractionText nanos = '.' :: (digits 9 nanos).rdropWhile (· = '0') := by
  unfold fractionText
  rw [if_neg h]
  rfl

theorem fractionText_lt_Z {nanos : Nat} {char : Char} (h : char ∈ fractionText nanos) :
    char < 'Z' := by
  unfold fractionText at h
  split at h
  · cases h
  · rcases List.mem_cons.mp h with rfl | hdigit
    · decide
    · have hmem := List.dropWhile_sublist _ |>.subset (List.mem_reverse.mp hdigit)
      exact (digits_bounds (List.mem_reverse.mp hmem)).2

/-- The fraction of an earlier instant of a second is continued by that of a later one, or prints
    before it. -/
theorem fractionText_prefix_or_lt {nanos later : Nat} (h : nanos < later)
    (hlater : later < 1000000000) :
    (fractionText nanos <+: fractionText later ∧ fractionText nanos ≠ fractionText later) ∨
      ∀ us vs, fractionText nanos ++ us < fractionText later ++ vs := by
  have hlaterNe : later ≠ 0 := by omega
  rw [fractionText_eq hlaterNe]
  by_cases hzero : nanos = 0
  · subst hzero
    exact .inl ⟨List.nil_prefix, nofun⟩
  rw [fractionText_eq hzero]
  have hdigits : digits 9 nanos < digits 9 later := digits_lt h hlater
  rcases rdropWhile_prefix_or_lt (fun char hmem => (digits_bounds hmem).1) hdigits
    (by simp) with ⟨hpre, hne⟩ | hlt
  · exact .inl ⟨List.cons_prefix_cons.mpr ⟨rfl, hpre⟩, fun heq => hne (List.cons.inj heq).2⟩
  · refine .inr fun us vs => ?_
    rw [List.cons_append, List.cons_append, List.cons_lt_cons_iff]
    exact .inr ⟨rfl, hlt us vs⟩

/-! ## Timestamps -/

/-- The second an instant is in. -/
def second (t : Timestamp) : Int :=
  t.unixNanos.fdiv 1000000000

/-- The nanoseconds of that second before it. -/
def nanos (t : Timestamp) : Nat :=
  (t.unixNanos.fmod 1000000000).toNat

/-- Its year. -/
def year (t : Timestamp) : Int :=
  yearOf t.second

/-- `Timestamp::MIN` and `Timestamp::MAX`: what a `jiff::Timestamp` can be. -/
def Representable (t : Timestamp) : Prop :=
  -377705023201000000000 ≤ t.unixNanos ∧ t.unixNanos ≤ 253402207200999999999

instance (t : Timestamp) : Decidable t.Representable :=
  inferInstanceAs (Decidable (_ ∧ _))

/-- The text of the later instant comes before that of the earlier one: in one second its fraction
    continues the digits of the earlier one, or it is in a later one of the negative years. -/
def Overtaken (earlier later : Timestamp) : Prop :=
  earlier.second = later.second ∧ earlier.nanos ≠ later.nanos ∧
      fractionText earlier.nanos <+: fractionText later.nanos ∨
    earlier.year < later.year ∧ later.year < 0

instance : DecidableRel Overtaken := fun _ _ => inferInstanceAs (Decidable (_ ∨ _))

variable {earlier later : Timestamp}

theorem text_eq (t : Timestamp) :
    t.text = String.ofList (dateTimeText t.second ++ (fractionText t.nanos ++ ['Z'])) := by
  rw [← List.append_assoc]
  rfl

theorem text_lt_iff : earlier.text < later.text ↔
    dateTimeText earlier.second ++ (fractionText earlier.nanos ++ ['Z']) <
      dateTimeText later.second ++ (fractionText later.nanos ++ ['Z']) := by
  rw [text_eq, text_eq, String.lt_iff, String.toList_ofList, String.toList_ofList]

theorem nanos_lt (t : Timestamp) : t.nanos < 1000000000 := by
  have hmod := Int.fmod_eq_emod_of_nonneg t.unixNanos (show (0 : Int) ≤ 1000000000 by decide)
  unfold nanos
  omega

/-- The second and the nanoseconds of an earlier instant. -/
theorem second_before (h : earlier.unixNanos < later.unixNanos) :
    earlier.second < later.second ∨
      earlier.second = later.second ∧ earlier.nanos < later.nanos := by
  have hdiv := Int.fdiv_eq_ediv_of_nonneg earlier.unixNanos
    (show (0 : Int) ≤ 1000000000 by decide)
  have hdiv' := Int.fdiv_eq_ediv_of_nonneg later.unixNanos (show (0 : Int) ≤ 1000000000 by decide)
  have hmod := Int.fmod_eq_emod_of_nonneg earlier.unixNanos
    (show (0 : Int) ≤ 1000000000 by decide)
  have hmod' := Int.fmod_eq_emod_of_nonneg later.unixNanos (show (0 : Int) ≤ 1000000000 by decide)
  unfold second nanos
  omega

theorem yearOf_mono {seconds later : Int} (h : seconds ≤ later) :
    yearOf seconds ≤ yearOf later := by
  have hdiv := Int.fdiv_eq_ediv_of_nonneg seconds (show (0 : Int) ≤ 86400 by decide)
  have hdiv' := Int.fdiv_eq_ediv_of_nonneg later (show (0 : Int) ≤ 86400 by decide)
  unfold yearOf
  by_cases hsame : seconds.fdiv 86400 = later.fdiv 86400
  · rw [hsame]
  · have hbefore := civilDate_before (show seconds.fdiv 86400 < later.fdiv 86400 by omega)
    rcases hbefore with hlt | ⟨heq, -⟩
    · exact hlt.le
    · exact heq.le

/-- Years have at most four digits. -/
theorem Representable.year_bounds {t : Timestamp} (h : t.Representable) :
    -9999 ≤ t.year ∧ t.year ≤ 9999 := by
  obtain ⟨hmin, hmax⟩ := h
  have hdiv := Int.fdiv_eq_ediv_of_nonneg t.unixNanos (show (0 : Int) ≤ 1000000000 by decide)
  have hfirst := yearOf_mono (show -377705023201 ≤ t.second by unfold second; omega)
  have hlast := yearOf_mono (show t.second ≤ 253402207200 by unfold second; omega)
  have hyearFirst : yearOf (-377705023201) = -9999 := by decide +kernel
  have hyearLast : yearOf 253402207200 = 9999 := by decide +kernel
  unfold year
  omega

/-- Among negative years the later one prints first. -/
theorem yearText_negative_lt {year later : Int} (h : year < later) (hlater : later < 0)
    (hyear : -9999 ≤ year) :
    (yearText later).length = (yearText year).length ∧ yearText later < yearText year := by
  unfold yearText
  rw [if_neg (by omega), if_neg (by omega)]
  exact ⟨by simp, List.cons_lt_cons_iff.mpr (.inr ⟨rfl, digits_lt (by omega) (by omega)⟩)⟩

/-- A negative year prints before every other. -/
theorem yearText_sign_lt {year later : Int} (hyear : year < 0) (hlater : 0 ≤ later)
    (us vs : List Char) : yearText year ++ us < yearText later ++ vs := by
  unfold yearText
  rw [if_neg (by omega), if_pos hlater]
  have hlength := length_digits 4 later.toNat
  cases hdigits : digits 4 later.toNat with
  | nil =>
    rw [hdigits] at hlength
    cases hlength
  | cons char rest =>
    have hmem : char ∈ digits 4 later.toNat := hdigits ▸ List.mem_cons_self
    have hlt : '-' < char := lt_of_lt_of_le (by decide) (digits_bounds hmem).1
    exact List.cons_lt_cons_iff.mpr (.inl hlt)

theorem dateTimeText_eq (seconds : Int) :
    dateTimeText seconds =
      yearText (yearOf seconds) ++ (dateTimeBlocks seconds).tail.flatten := by
  rw [← flatten_dateTimeBlocks]
  rfl

/-- An instant that is not overtaken prints before every later one. -/
theorem text_lt_of_not_overtaken (hearlier : earlier.Representable) (hlater : later.Representable)
    (h : earlier.unixNanos < later.unixNanos) (hnot : ¬ Overtaken earlier later) :
    earlier.text < later.text := by
  unfold Overtaken at hnot
  rw [not_or] at hnot
  have hmin := hearlier.year_bounds
  have hmax := hlater.year_bounds
  rw [text_lt_iff]
  rcases second_before h with hsecond | ⟨hsecond, hnanos⟩
  · have hmono : earlier.year ≤ later.year := yearOf_mono hsecond.le
    by_cases hsign : earlier.year < 0 ∧ 0 ≤ later.year
    · rw [dateTimeText_eq, dateTimeText_eq, List.append_assoc, List.append_assoc]
      exact yearText_sign_lt hsign.1 hsign.2 _ _
    · refine dateTimeText_lt hsecond ?_ _ _
      show earlier.year = later.year ∨
        earlier.year < later.year ∧ 0 ≤ earlier.year ∧ later.year ≤ 9999
      omega
  · rw [hsecond]
    apply List.append_left_lt
    rcases fractionText_prefix_or_lt hnanos (nanos_lt later) with ⟨hpre, -⟩ | hlt
    · exact absurd ⟨hsecond, hnanos.ne, hpre⟩ hnot.1
    · exact hlt _ _

/-- An overtaken instant prints after the one that overtakes it. -/
theorem text_lt_of_overtaken (hearlier : earlier.Representable)
    (h : earlier.unixNanos < later.unixNanos) (hovertaken : Overtaken earlier later) :
    later.text < earlier.text := by
  rw [text_lt_iff]
  rcases hovertaken with ⟨hsecond, hne, hpre⟩ | ⟨hyear, hnegative⟩
  · have hnanos : earlier.nanos < later.nanos := by
      rcases second_before h with hlt | ⟨-, hlt⟩
      · exact absurd hsecond hlt.ne
      · exact hlt
    rw [hsecond]
    apply List.append_left_lt
    rcases fractionText_prefix_or_lt hnanos (nanos_lt later) with ⟨-, hother⟩ | hlt
    · exact prefix_lt (fun char => fractionText_lt_Z) hpre hother
    · obtain ⟨rest, hrest⟩ := hpre
      have habsurd := hlt rest []
      rw [hrest, List.append_nil] at habsurd
      exact absurd habsurd (List.lt_irrefl _)
  · obtain ⟨hlength, hlt⟩ := yearText_negative_lt hyear hnegative hearlier.year_bounds.1
    rw [dateTimeText_eq, dateTimeText_eq, List.append_assoc, List.append_assoc]
    exact append_lt_append hlength hlt

/-- Only later instants overtake. -/
theorem Overtaken.before (h : Overtaken earlier later) : earlier.unixNanos < later.unixNanos := by
  rcases h with ⟨hsecond, hne, hpre⟩ | ⟨hyear, -⟩
  · by_contra hnot
    have hother : later.unixNanos ≠ earlier.unixNanos := by
      intro hsame
      rw [nanos, nanos, hsame] at hne
      exact hne rfl
    rcases second_before (show later.unixNanos < earlier.unixNanos by omega) with
      hlt | ⟨-, hnanos⟩
    · exact hlt.ne hsecond.symm
    · rcases fractionText_prefix_or_lt hnanos (nanos_lt earlier) with ⟨hback, hne'⟩ | hlt
      · exact hne' (hback.eq_of_length_le hpre.length_le)
      · obtain ⟨rest, hrest⟩ := hpre
        have habsurd := hlt [] rest
        rw [hrest, List.append_nil] at habsurd
        exact List.lt_irrefl _ habsurd
  · by_contra hnot
    have hdiv := Int.fdiv_eq_ediv_of_nonneg earlier.unixNanos
      (show (0 : Int) ≤ 1000000000 by decide)
    have hdiv' := Int.fdiv_eq_ediv_of_nonneg later.unixNanos
      (show (0 : Int) ≤ 1000000000 by decide)
    have hmono : later.year ≤ earlier.year :=
      yearOf_mono (show later.second ≤ earlier.second by unfold second; omega)
    omega

/-- Equal instants are equal. -/
theorem eq_of_unixNanos (h : earlier.unixNanos = later.unixNanos) : earlier = later := by
  cases earlier
  cases later
  cases h
  rfl

end ControlPlane.Timestamp
