import LookupEngine.Proofs.Sequence.Acceptance
import LookupEngine.Proofs.Term.Writing
/-!
# Sequences of a given count

A term may say how many values it wants instead of where they end.  The count is kept as the end
that it leads to, so the values are counted again from there.  This gives the same count, except
where no values are wanted: their end is the word before the start, and there is none if the
start is the first word in the direction of the stride.  The end is then the start itself, which
becomes a value.
-/

namespace LookupEngine

open Integer

theorem Term.isOption_of_standsFor {key numeral : String} {n : Int}
    (hkey : Term.IsOption key "") (h : StandsFor numeral n) : Term.IsOption key numeral where
  key_ne_nil := hkey.key_ne_nil
  key_solid := hkey.key_solid
  value_solid c hc := by
    refine ⟨h.solid c hc, ?_⟩
    rintro rfl
    exact h.not_mem (by decide) hc

namespace Sequence.Spec

/-- The term that gives a start, a stride and a count. -/
def countTerm (start stride count : String) : String :=
  Term.ofOptions [("start", start), ("stride", stride), ("count", count)]

example : countTerm "8" "-2" "3" = "start=8 stride=-2 count=3" := by decide

/-- The first word in the direction of the stride. -/
def Cornered (start stride : Int) : Prop :=
  (0 < stride ∧ start = least) ∨ (stride < 0 ∧ start = greatest)

instance (start stride : Int) : Decidable (Cornered start stride) :=
  inferInstanceAs (Decidable (_ ∨ _))

/-- As many values as a count says, from the start on. -/
def counted (start stride : Int) (count : Nat) : List Int :=
  (List.range count).map fun i : Nat => start + i * stride

/-- A count that a start and a stride can have: either there are no values, or the last of them
is a word that a word leads to, and there are not too many. -/
def Countable (start stride : Int) (count : Nat) : Prop :=
  count = 0 ∨ (count ≤ limit ∧ Fits ((count - 1) * stride) ∧ Fits (start + (count - 1) * stride))

instance (start stride : Int) (count : Nat) : Decidable (Countable start stride count) :=
  inferInstanceAs (Decidable (_ ∨ _ ∧ _))

section

variable {pairs : List (String × String)} (h : ∀ pair ∈ pairs, Term.IsOption pair.1 pair.2)

include h

theorem integer?_ofOptions (key : String) :
    (Term.parse (Term.ofOptions pairs)).integer? key =
      (Entries.lastValue pairs key).bind read? := by
  rw [Term.integer?, Term.get?_ofOptions h]

/-- Options alone leave no word for a shorthand. -/
theorem stated_ofOptions :
    stated (Term.parse (Term.ofOptions pairs)) =
      ⟨((Entries.lastValue pairs "start").bind read?).getD 1,
        ((Entries.lastValue pairs "end").bind read?).getD 1,
        ((Entries.lastValue pairs "stride").bind read?).getD 1,
        Entries.lastValue pairs "format"⟩ := by
  have hrange : (Term.parse (Term.ofOptions pairs)).range? = none := by
    rw [Term.range?, Term.parse_ofOptions h]
    split <;> rfl
  simp only [stated, ofRange, hrange, integer?_ofOptions h, Term.get?_ofOptions h, default,
    Option.or_none]

end

section

variable {start stride count : String} {s d : Int} {n : Nat}

/-- A term of three numerals is read as just these numbers. -/
theorem parse_countTerm (hstart : StandsFor start s) (hstride : StandsFor stride d)
    (hcount : StandsFor count n) (hmoves : d ≠ 0) :
    parse (countTerm start stride count) = withCount ⟨s, 1, d, none⟩ n := by
  have hfirst : Term.IsOption "start" start := Term.isOption_of_standsFor (by decide) hstart
  have hsecond : Term.IsOption "stride" stride := Term.isOption_of_standsFor (by decide) hstride
  have hthird : Term.IsOption "count" count := Term.isOption_of_standsFor (by decide) hcount
  have hoptions : ∀ pair ∈ [("start", start), ("stride", stride), ("count", count)],
      Term.IsOption pair.1 pair.2 := by
    rw [List.forall_mem_cons, List.forall_mem_cons, List.forall_mem_singleton]
    exact ⟨hfirst, hsecond, hthird⟩
  have hstated : stated (Term.parse (countTerm start stride count)) = ⟨s, 1, d, none⟩ := by
    rw [countTerm, stated_ofOptions hoptions]
    simp [Entries.lastValue, hstart.read, hstride.read]
  have hasked : (Term.parse (countTerm start stride count)).integer? "count" = some (n : Int) := by
    rw [countTerm, integer?_ofOptions hoptions]
    simp [Entries.lastValue, hcount.read]
  have hnoEnd : (Term.parse (countTerm start stride count)).has "end" = false := by
    show ((Term.parse (countTerm start stride count)).get? "end").isSome = false
    rw [countTerm, Term.get?_ofOptions hoptions]
    rfl
  simp only [parse, ofTerm, hstated, hasked, hnoEnd, if_neg hmoves, Bool.false_eq_true, if_false]

/-- The end that a count leads to is never on the wrong side. -/
theorem directed_of_last (s d : Int) (hcount : n ≠ 0) :
    (0 < d ∧ s ≤ s + (n - 1) * d) ∨ (d ≤ 0 ∧ s + (n - 1) * d ≤ s) := by
  have hsteps : (0 : Int) ≤ n - 1 := by omega
  rcases Int.lt_or_le 0 d with hpos | hneg
  · have hon : 0 ≤ (n - 1) * d := Int.mul_nonneg hsteps (Int.le_of_lt hpos)
    omega
  · have hback : (n - 1) * d ≤ 0 := Int.mul_nonpos_of_nonneg_of_nonpos hsteps hneg
    omega

/-- The end that a count leads to is as many values away. -/
theorem natAbs_of_last (s : Int) (hmoves : d ≠ 0) (hcount : n ≠ 0) :
    (s + (n - 1) * d - s).natAbs / d.natAbs + 1 = n := by
  have hspan : s + (n - 1) * d - s = (n - 1) * d := by omega
  have hsteps : ((n : Int) - 1).natAbs + 1 = n := by omega
  rw [hspan, Int.natAbs_mul, Nat.mul_div_cancel _ (Int.natAbs_pos.2 hmoves), hsteps]

theorem valueCount_of_last (hmoves : d ≠ 0) (hcount : n ≠ 0) (format : Option String) :
    (⟨s, s + (n - 1) * d, d, format⟩ : Spec).valueCount = min n greatestUnsigned := by
  rw [valueCount_of_directed hmoves (directed_of_last s d hcount)]
  exact congrArg (min · greatestUnsigned) (natAbs_of_last s hmoves hcount)

/-- The end that stands for no values is behind the start, unless there is no word behind it. -/
theorem valueCount_of_none (hstart : Fits s) (hmoves : d ≠ 0) (format : Option String) :
    (⟨s, saturated (s - d.sign), d, format⟩ : Spec).valueCount =
      if Cornered s d then 1 else 0 := by
  have hreach : (⟨some s, saturated (s - d.sign), d⟩ : Cursor).reaches s = true ↔
      Cornered s d := by
    rw [Cursor.reaches_iff]
    dsimp only
    simp only [Cornered, Fits, saturated, least, greatest] at hstart ⊢
    rcases Int.lt_or_gt_of_ne hmoves with hneg | hpos
    · rw [Int.sign_eq_neg_one_of_neg hneg]
      omega
    · rw [Int.sign_eq_one_of_pos hpos]
      omega
  have hahead : (⟨some s, saturated (s - d.sign), d⟩ : Cursor).ahead s =
      if Cornered s d then 1 else 0 := by
    by_cases hcorner : Cornered s d
    · have hlast : saturated (s - d.sign) = s := by
        rcases hcorner with ⟨hpos, rfl⟩ | ⟨hneg, rfl⟩
        · rw [Int.sign_eq_one_of_pos hpos]
          decide
        · rw [Int.sign_eq_neg_one_of_neg hneg]
          decide
      rw [Cursor.ahead, if_pos (hreach.2 hcorner), if_pos hcorner]
      dsimp only
      rw [hlast, Int.sub_self, Int.natAbs_zero, Nat.zero_div]
    · rw [Cursor.ahead_of_not_reaches (mt hreach.1 hcorner), if_neg hcorner]
  have hsmall : (if Cornered s d then 1 else 0) ≤ greatestUnsigned := by
    split <;> decide
  rw [valueCount_eq _ hmoves]
  exact (congrArg (min · greatestUnsigned) hahead).trans (Nat.min_eq_left hsmall)

theorem withCount_of_zero (s d : Int) :
    withCount ⟨s, 1, d, none⟩ (0 : Nat) = .ok ⟨s, saturated (s - d.sign), d, none⟩ := rfl

/-- Of the values up to an end that a count leads to only the number matters. -/
theorem check_of_last (hmoves : d ≠ 0) (hcount : n ≠ 0) (format : Option String) (spec : Spec) :
    check ⟨s, s + (n - 1) * d, d, format⟩ = .ok spec ↔
      n ≤ limit ∧ spec = ⟨s, s + (n - 1) * d, d, format⟩ := by
  have hdirected := directed_of_last s d hcount
  have hsteps := natAbs_of_last s hmoves hcount
  have hadmissible : (⟨s, s + (n - 1) * d, d, format⟩ : Spec).IsAdmissible ↔ n ≤ limit := by
    constructor
    · rintro ⟨-, -, hfew⟩
      dsimp only at hfew
      rwa [hsteps] at hfew
    · intro hfew
      refine ⟨hmoves, ?_, ?_⟩ <;> dsimp only
      · omega
      · rwa [hsteps]
  rw [check_eq_ok_iff hmoves, hadmissible]

/-- A count other than zero is accepted where it is possible, and is kept as its end. -/
theorem withCount_of_ne_zero (hmoves : d ≠ 0) (hcount : n ≠ 0) (spec : Spec) :
    withCount ⟨s, 1, d, none⟩ n = .ok spec ↔
      Countable s d n ∧ spec = ⟨s, s + (n - 1) * d, d, none⟩ := by
  have hcountable : Countable s d n ↔
      n ≤ limit ∧ Fits ((n - 1) * d) ∧ Fits (s + (n - 1) * d) := or_iff_right hcount
  rw [withCount, if_neg (by omega), if_neg (by omega), hcountable]
  dsimp only
  by_cases hoffset : Fits ((n - 1) * d)
  · rw [checked, if_pos hoffset]
    dsimp only
    by_cases hlast : Fits (s + (n - 1) * d)
    · rw [checked, if_pos hlast]
      dsimp only
      rw [check_of_last hmoves hcount]
      exact and_congr_left' (iff_self_and.2 fun _ => ⟨hoffset, hlast⟩)
    · rw [checked, if_neg hlast]
      constructor
      · intro heq
        cases heq
      · exact fun h => absurd h.1.2.2 hlast
  · rw [checked, if_neg hoffset]
    constructor
    · intro heq
      cases heq
    · exact fun h => absurd h.1.2.1 hoffset

/-- What a start, a stride and a count come to: as many values as the count says, or the start
alone where there is no end for no values. -/
theorem values_of_withCount (hstart : Fits s) (hstride : Fits d) (hmoves : d ≠ 0) {spec : Spec}
    (h : withCount ⟨s, 1, d, none⟩ n = .ok spec) :
    spec.valueCount = (if n = 0 ∧ Cornered s d then 1 else n) ∧
      spec.values = counted s d spec.valueCount := by
  have hone : Fits 1 := by decide
  have hwords : (⟨s, 1, d, none⟩ : Spec).InWords := ⟨hstart, hone, hstride⟩
  obtain ⟨hfound, hsame, hfew⟩ := withCount_eq_ok hwords hmoves h
  have hvalues : spec.values = spec.progression :=
    values_eq_progression hfound (hsame ▸ hmoves) (Nat.lt_of_le_of_lt hfew (by decide))
  by_cases hcount : n = 0
  · subst hcount
    rw [withCount_of_zero] at h
    cases h
    refine ⟨?_, hvalues⟩
    rw [valueCount_of_none hstart hmoves]
    by_cases hcorner : Cornered s d
    · rw [if_pos hcorner, if_pos ⟨rfl, hcorner⟩]
    · rw [if_neg hcorner, if_neg (fun hboth => hcorner hboth.2)]
  · obtain ⟨hcountable, rfl⟩ := (withCount_of_ne_zero hmoves hcount spec).1 h
    have hlimit : n ≤ limit := (hcountable.resolve_left hcount).1
    refine ⟨?_, hvalues⟩
    rw [valueCount_of_last hmoves hcount, if_neg (fun hboth => hcount hboth.1)]
    exact Nat.min_eq_left (Nat.le_trans hlimit (by decide))

/-- A term that gives a start, a stride and a count is a sequence exactly where the count is
possible.  The sequence has the values that the count asks for, unless no values are asked for
and the start is the first word in the direction of the stride: then the start is a value. -/
theorem count_is_kept_iff (hstart : StandsFor start s) (hstride : StandsFor stride d)
    (hcount : StandsFor count n) (hmoves : d ≠ 0) :
    ((∃ spec, parse (countTerm start stride count) = .ok spec) ↔ Countable s d n) ∧
      ∀ spec, parse (countTerm start stride count) = .ok spec →
        ((spec.valueCount = n ∧ spec.values = counted s d n) ↔ ¬ (n = 0 ∧ Cornered s d)) ∧
          (n = 0 ∧ Cornered s d → spec.valueCount = 1 ∧ spec.values = [s]) := by
  rw [parse_countTerm hstart hstride hcount hmoves]
  constructor
  · by_cases hzero : n = 0
    · subst hzero
      exact ⟨fun _ => .inl rfl, fun _ => ⟨_, withCount_of_zero s d⟩⟩
    · constructor
      · rintro ⟨spec, hspec⟩
        exact ((withCount_of_ne_zero hmoves hzero spec).1 hspec).1
      · intro hcountable
        exact ⟨_, (withCount_of_ne_zero hmoves hzero _).2 ⟨hcountable, rfl⟩⟩
  · intro spec hspec
    obtain ⟨hfound, hvalues⟩ := values_of_withCount hstart.fits hstride.fits hmoves hspec
    by_cases hcorner : n = 0 ∧ Cornered s d
    · rw [if_pos hcorner] at hfound
      rw [hfound] at hvalues
      have hone : counted s d 1 = [s] := by simp [counted]
      refine ⟨⟨?_, fun h => absurd hcorner h⟩, fun _ => ⟨hfound, hvalues.trans hone⟩⟩
      rintro ⟨hsame, -⟩
      omega
    · rw [if_neg hcorner] at hfound
      rw [hfound] at hvalues
      exact ⟨⟨fun _ => hcorner, fun _ => ⟨hfound, hvalues⟩⟩, fun h => absurd h hcorner⟩

end

/-- Three values that go down from the greatest word, in three notations. -/
theorem count_is_kept_three_down :
    StandsFor "0x7fffffffffffffff" greatest ∧ StandsFor "-0o2" (-2) ∧ StandsFor "+3" (3 : Nat) ∧
      ∃ spec, parse (countTerm "0x7fffffffffffffff" "-0o2" "+3") = .ok spec ∧
        spec.valueCount = 3 ∧ spec.values = [greatest, greatest - 2, greatest - 4] := by
  have hstart : StandsFor "0x7fffffffffffffff" greatest := .of_all (by decide) (by decide)
  have hstride : StandsFor "-0o2" (-2) := .of_all (by decide) (by decide)
  have hcount : StandsFor "+3" (3 : Nat) := .of_all (by decide) (by decide)
  obtain ⟨haccepts, hkept⟩ := count_is_kept_iff hstart hstride hcount (by decide)
  obtain ⟨spec, hspec⟩ := haccepts.2 (by decide)
  obtain ⟨hfound, hvalues⟩ := (hkept spec hspec).1.2 (by decide)
  exact ⟨hstart, hstride, hcount, spec, hspec, hfound, hvalues⟩

/-- No values are asked for, and the greatest word is given. -/
theorem no_values_down_from_greatest :
    ∃ spec, parse "start=9223372036854775807 stride=-1 count=0" = .ok spec ∧
      spec.valueCount = 1 ∧ spec.values = [greatest] :=
  ⟨⟨greatest, greatest, -1, none⟩, by decide +kernel, by decide, by decide⟩

end Sequence.Spec

end LookupEngine
