import Mathlib.Data.List.DropRight
import Mathlib.Data.Int.Init
import LookupEngine.Proofs.Term.Shorthand
import LookupEngine.Sequence.Spec
/-!
# The values of a sequence

A cursor adds the stride until it passes the end or leaves the range of a word, while the
number of values is found by one division.  Both speak of the same progression: a word that
cannot be reached lies behind the end, since the end is a word.  What a term is read as has
only words in it and never more values than the limit.
-/

namespace LookupEngine.Sequence

open Integer

namespace Cursor

/-- How many values a cursor has ahead of it when `value` comes next. -/
def ahead (cursor : Cursor) (value : Int) : Nat :=
  if cursor.reaches value then (cursor.last - value).natAbs / cursor.stride.natAbs + 1 else 0

theorem reaches_iff (cursor : Cursor) (value : Int) :
    cursor.reaches value = true ↔
      (0 < cursor.stride ∧ value ≤ cursor.last) ∨ (cursor.stride ≤ 0 ∧ cursor.last ≤ value) := by
  rw [reaches]
  split <;> simp only [decide_eq_true_eq, ge_iff_le, gt_iff_lt] at * <;> omega

theorem ahead_of_not_reaches {cursor : Cursor} {value : Int}
    (h : ¬ cursor.reaches value = true) : cursor.ahead value = 0 := by
  rw [ahead, if_neg h]

/-- Every value before the end leaves one less ahead. -/
theorem ahead_eq_succ {cursor : Cursor} {value : Int} (hstride : cursor.stride ≠ 0)
    (h : cursor.reaches value = true) :
    cursor.ahead value = cursor.ahead (value + cursor.stride) + 1 := by
  have hpos : 0 < cursor.stride.natAbs := Int.natAbs_pos.2 hstride
  rw [ahead, if_pos h]
  rw [reaches_iff] at h
  by_cases hnext : cursor.reaches (value + cursor.stride) = true
  · rw [ahead, if_pos hnext]
    rw [reaches_iff] at hnext
    have hsplit : (cursor.last - value).natAbs =
        (cursor.last - (value + cursor.stride)).natAbs + cursor.stride.natAbs := by omega
    rw [hsplit, Nat.add_div_right _ hpos]
  · rw [ahead_of_not_reaches hnext]
    rw [reaches_iff] at hnext
    have hshort : (cursor.last - value).natAbs < cursor.stride.natAbs := by omega
    rw [Nat.div_eq_of_lt hshort]

theorem ahead_le (cursor : Cursor) (value : Int) :
    cursor.ahead value ≤ (cursor.last - value).natAbs + 1 := by
  rw [ahead]
  split
  · exact Nat.succ_le_succ (Nat.div_le_self _ _)
  · exact Nat.zero_le _

theorem ahead_le_one {cursor : Cursor} {value : Int}
    (h : cursor.reaches value = true → cursor.last = value) : cursor.ahead value ≤ 1 := by
  rw [ahead]
  split
  · next hreach => simp [h hreach]
  · exact Nat.zero_le _

theorem gather_eq_append (most : Nat) (cursor : Cursor) (found : List Int) :
    gather most cursor found = gather most cursor [] ++ found := by
  induction most generalizing cursor found with
  | zero => rfl
  | succ most ih =>
    rcases hstep : cursor.step with ⟨_ | value, next⟩
    · simp only [gather, hstep, List.nil_append]
    · simp only [gather, hstep]
      rw [ih next (value :: found), ih next [value]]
      simp

@[simp]
theorem take_zero (cursor : Cursor) : cursor.take 0 = [] := rfl

theorem take_succ (most : Nat) (cursor : Cursor) :
    cursor.take (most + 1) =
      match cursor.step with
      | (none, _) => []
      | (some value, next) => value :: next.take most := by
  rcases hstep : cursor.step with ⟨_ | value, next⟩
  · simp only [take, gather, hstep, List.reverse_nil]
  · simp only [take, gather, hstep]
    rw [gather_eq_append, List.reverse_append]
    rfl

theorem take_of_next_none (most : Nat) (last stride : Int) :
    (⟨none, last, stride⟩ : Cursor).take most = [] := by
  cases most with
  | zero => rfl
  | succ most => rw [take_succ]; rfl

/-- A word that an unreachable sum would have been lies behind the end, so that the cursor stops
there in any case. -/
theorem not_reaches_of_not_fits {cursor : Cursor} {value : Int} (hvalue : Fits value)
    (hlast : Fits cursor.last) (h : ¬ Fits (value + cursor.stride)) :
    ¬ cursor.reaches (value + cursor.stride) = true := by
  rw [reaches_iff]
  simp only [Fits, least, greatest] at *
  omega

/-- A cursor yields the terms of a progression. -/
theorem take_eq_map_range (most : Nat) {value last stride : Int} (hstride : stride ≠ 0)
    (hvalue : Fits value) (hlast : Fits last) :
    (⟨some value, last, stride⟩ : Cursor).take most =
      (List.range (min most ((⟨some value, last, stride⟩ : Cursor).ahead value))).map
        fun i : Nat => value + i * stride := by
  induction most generalizing value with
  | zero => simp
  | succ most ih =>
    rw [take_succ]
    by_cases hreach : (⟨some value, last, stride⟩ : Cursor).reaches value = true
    · have hahead := ahead_eq_succ hstride hreach
      simp only [step, hreach, if_true]
      rw [hahead, Nat.succ_min_succ, List.range_succ_eq_map, List.map_cons, List.map_map]
      by_cases hfits : Fits (value + stride)
      · rw [checked, if_pos hfits, ih hfits]
        have hsame : (⟨some (value + stride), last, stride⟩ : Cursor).ahead (value + stride) =
            (⟨some value, last, stride⟩ : Cursor).ahead (value + stride) := rfl
        rw [hsame]
        congr 1
        · simp
        · apply List.map_congr_left
          intro i _
          simp only [Function.comp_apply, Nat.succ_eq_add_one, Int.natCast_add, Int.add_mul]
          omega
      · have hbehind : ¬ (⟨some value, last, stride⟩ : Cursor).reaches (value + stride) = true :=
          not_reaches_of_not_fits hvalue hlast hfits
        rw [checked, if_neg hfits, take_of_next_none, ahead_of_not_reaches hbehind]
        simp
    · simp only [step, hreach, Bool.false_eq_true, if_false]
      rw [ahead_of_not_reaches hreach]
      simp

end Cursor

namespace Spec

/-- The terms of the progression, as many as there are values. -/
def progression (spec : Spec) : List Int :=
  (List.range spec.valueCount).map fun i : Nat => spec.start + i * spec.stride

@[simp]
theorem length_progression (spec : Spec) : spec.progression.length = spec.valueCount := by
  simp [progression]

theorem sign_differs_iff (span : Int) {stride : Int} (hstride : stride ≠ 0) :
    (stride = 0 ∨ (span ≠ 0 ∧ span.sign ≠ stride.sign)) ↔
      ¬ ((0 < stride ∧ 0 ≤ span) ∨ (stride ≤ 0 ∧ span ≤ 0)) := by
  rcases Int.lt_trichotomy span 0 with hspan | hspan | hspan <;>
    rcases Int.lt_or_gt_of_ne hstride with hneg | hpos <;>
    simp [Int.sign_eq_one_of_pos, Int.sign_eq_neg_one_of_neg, *] <;> omega

/-- Where the signs agree, the quotient is that of the magnitudes. -/
theorem toNat_tdiv_add_one {span stride : Int}
    (h : (0 < stride ∧ 0 ≤ span) ∨ (stride ≤ 0 ∧ span ≤ 0)) :
    (Int.tdiv span stride + 1).toNat = span.natAbs / stride.natAbs + 1 := by
  have hnonneg : 0 ≤ Int.tdiv span stride := by
    rcases h with ⟨hstride, hspan⟩ | ⟨hstride, hspan⟩
    · exact Int.tdiv_nonneg hspan (by omega)
    · rw [← Int.neg_tdiv_neg]
      exact Int.tdiv_nonneg (by omega) (by omega)
  have hmagnitude : (Int.tdiv span stride).natAbs = span.natAbs / stride.natAbs :=
    Int.natAbs_tdiv span stride
  omega

/-- The division counts what the cursor has ahead of it. -/
theorem valueCount_eq (spec : Spec) (hstride : spec.stride ≠ 0) :
    spec.valueCount = min (spec.cursor.ahead spec.start) greatestUnsigned := by
  have hreach : spec.cursor.reaches spec.start = true ↔
      (0 < spec.stride ∧ 0 ≤ spec.last - spec.start) ∨
        (spec.stride ≤ 0 ∧ spec.last - spec.start ≤ 0) := by
    rw [Cursor.reaches_iff]
    simp only [cursor]
    omega
  have hsign := sign_differs_iff (spec.last - spec.start) hstride
  rw [← hreach] at hsign
  simp only [valueCount]
  by_cases h : spec.cursor.reaches spec.start = true
  · rw [if_neg (fun hdiffers => hsign.1 hdiffers h), Cursor.ahead, if_pos h,
      toNat_tdiv_add_one (hreach.1 h)]
    rfl
  · rw [if_pos (hsign.2 h), Cursor.ahead_of_not_reaches h, Nat.zero_min]

/-- The numbers of a sequence are words. -/
structure InWords (spec : Spec) : Prop where
  start : Fits spec.start
  last : Fits spec.last
  stride : Fits spec.stride

theorem inWords_ofRange (term : Term) : (ofRange term).InWords := by
  have hone : Fits 1 := by decide
  rw [ofRange]
  split
  · exact ⟨hone, hone, hone⟩
  · next range hrange =>
    obtain ⟨hstart, hlast, hstride⟩ := Term.inWords_of_range? hrange
    constructor
    · cases hs : range.start with
      | none => exact hone
      | some n => exact hstart n hs
    · exact hlast
    · cases hs : range.stride with
      | none => exact hone
      | some n => exact hstride n hs

theorem fits_getD_integer? {term : Term} (key : String) {otherwise : Int}
    (h : Fits otherwise) : Fits ((term.integer? key).getD otherwise) := by
  cases hread : term.integer? key with
  | none => exact h
  | some n => exact Term.fits_integer? hread

theorem inWords_stated (term : Term) : (stated term).InWords := by
  obtain ⟨hstart, hlast, hstride⟩ := inWords_ofRange term
  exact ⟨fits_getD_integer? "start" hstart, fits_getD_integer? "end" hlast,
    fits_getD_integer? "stride" hstride⟩

theorem check_eq_ok {spec found : Spec} (h : check spec = .ok found) :
    found = spec ∧ spec.valueCount ≤ limit := by
  rw [check] at h
  split at h
  · cases h
  split at h
  · cases h
  split at h
  · cases h
  · next hcount =>
    cases h
    exact ⟨rfl, Nat.le_of_not_lt hcount⟩

/-- The end that stands for no values lies one step before the start, or on it where there is
no such word. -/
theorem valueCount_le_one {spec : Spec} (hwords : spec.InWords) (hstride : spec.stride ≠ 0) :
    ({ spec with last := saturated (spec.start - spec.stride.sign) } : Spec).valueCount ≤ 1 := by
  have hstart := hwords.start
  rw [valueCount_eq { spec with last := saturated (spec.start - spec.stride.sign) } hstride]
  apply Nat.le_trans (Nat.min_le_left _ _)
  apply Cursor.ahead_le_one
  rw [Cursor.reaches_iff]
  simp only [cursor, Fits, saturated, least, greatest] at hstart ⊢
  rcases Int.lt_or_gt_of_ne hstride with hneg | hpos
  · rw [Int.sign_eq_neg_one_of_neg hneg]
    omega
  · rw [Int.sign_eq_one_of_pos hpos]
    omega

theorem withCount_eq_ok {spec found : Spec} {count : Int} (hwords : spec.InWords)
    (hstride : spec.stride ≠ 0) (h : withCount spec count = .ok found) :
    found.InWords ∧ found.stride = spec.stride ∧ found.valueCount ≤ limit := by
  rw [withCount] at h
  split at h
  · cases h
  split at h
  · cases h
    have hsmall := valueCount_le_one hwords hstride
    exact ⟨⟨hwords.start, fits_saturated _, hwords.stride⟩, rfl,
      Nat.le_trans hsmall (by decide)⟩
  split at h
  · cases h
  split at h
  · cases h
  · next last hlast =>
    obtain ⟨rfl, hcount⟩ := check_eq_ok h
    exact ⟨⟨hwords.start, fits_of_checked hlast, hwords.stride⟩, rfl, hcount⟩

/-- What a term is read as: words, a stride that moves, and no more values than the limit. -/
theorem ofTerm_eq_ok {term : Term} {spec : Spec} (h : ofTerm term = .ok spec) :
    spec.InWords ∧ spec.stride ≠ 0 ∧ spec.valueCount ≤ limit := by
  have hwords := inWords_stated term
  simp only [ofTerm] at h
  by_cases hstride : (stated term).stride = 0
  · rw [if_pos hstride] at h
    cases h
  rw [if_neg hstride] at h
  split at h
  · obtain ⟨rfl, hcount⟩ := check_eq_ok h
    exact ⟨hwords, hstride, hcount⟩
  split at h
  · cases h
  · obtain ⟨hfound, hsame, hcount⟩ := withCount_eq_ok hwords hstride h
    exact ⟨hfound, hsame ▸ hstride, hcount⟩

/-- The values are the terms of the progression, as many as the cursor has ahead of it. -/
theorem values_eq_map_range {spec : Spec} (hwords : spec.InWords) (hstride : spec.stride ≠ 0) :
    spec.values =
      (List.range (spec.cursor.ahead spec.start)).map
        fun i : Nat => spec.start + i * spec.stride := by
  have hfuel : spec.cursor.ahead spec.start ≤ (spec.last - spec.start).natAbs + 1 :=
    spec.cursor.ahead_le spec.start
  rw [values]
  rw [show spec.cursor = ⟨some spec.start, spec.last, spec.stride⟩ from rfl] at hfuel ⊢
  rw [Cursor.take_eq_map_range _ hstride hwords.start hwords.last, Nat.min_eq_right hfuel]

/-- The cursor yields as many values as the division counts, each where the progression has
it. -/
theorem values_eq_progression {spec : Spec} (hwords : spec.InWords) (hstride : spec.stride ≠ 0)
    (hcount : spec.valueCount < greatestUnsigned) : spec.values = spec.progression := by
  have hahead : spec.valueCount = spec.cursor.ahead spec.start := by
    have := valueCount_eq spec hstride
    omega
  rw [values_eq_map_range hwords hstride, progression, hahead]

theorem values_of_parse {text : String} {spec : Spec} (h : parse text = .ok spec) :
    spec.values = spec.progression := by
  obtain ⟨hwords, hstride, hcount⟩ := ofTerm_eq_ok h
  exact values_eq_progression hwords hstride (Nat.lt_of_le_of_lt hcount (by decide))

end Spec

end LookupEngine.Sequence
