import LookupEngine.Proofs.Sequence.Values
/-!
# Walking over a sequence

A cursor is asked for one value after the other.  As long as the number that the stride has led to
lies between the start and the end it is the answer, and from then on there is none: either the
cursor has seen a number behind the end, or the next number would not be a word, and then it would
lie behind the end as well.  Between the least and the greatest word there is room for one number
more than an unsigned word can count.
-/

namespace LookupEngine.Sequence

open Integer

namespace Cursor

/-- The position after some calls. -/
def after (cursor : Cursor) : Nat → Cursor
  | 0 => cursor
  | calls + 1 => (cursor.after calls).step.2

/-- What a call answers when some calls came before it. -/
def answer (cursor : Cursor) (calls : Nat) : Option Int := (cursor.after calls).step.1

theorem step_of_reaches {last stride value : Int}
    (h : (⟨some value, last, stride⟩ : Cursor).reaches value = true) :
    (⟨some value, last, stride⟩ : Cursor).step =
      (some value, ⟨checked (value + stride), last, stride⟩) := by
  simp only [step, h, if_true]

theorem step_of_not_reaches {last stride value : Int}
    (h : ¬ (⟨some value, last, stride⟩ : Cursor).reaches value = true) :
    (⟨some value, last, stride⟩ : Cursor).step = (none, ⟨none, last, stride⟩) := by
  simp only [step, h, Bool.false_eq_true, if_false]

theorem step_of_next_none (last stride : Int) :
    (⟨none, last, stride⟩ : Cursor).step = (none, ⟨none, last, stride⟩) := rfl

/-- What lies further along the stride lies behind the end if anything before it does. -/
theorem reaches_of_reaches_add {cursor : Cursor} {value : Int}
    (h : cursor.reaches (value + cursor.stride) = true) : cursor.reaches value = true := by
  rw [reaches_iff] at h ⊢
  omega

end Cursor

namespace Spec

/-- The number that the stride leads to in some steps. -/
def reached (spec : Spec) (steps : Nat) : Int := spec.start + steps * spec.stride

/-- The number lies between the start and the end, on the side to which the stride leads. -/
def Spans (spec : Spec) (n : Int) : Prop :=
  (0 < spec.stride ∧ spec.start ≤ n ∧ n ≤ spec.last) ∨
    (spec.stride < 0 ∧ spec.last ≤ n ∧ n ≤ spec.start)

instance (spec : Spec) (n : Int) : Decidable (spec.Spans n) := inferInstanceAs (Decidable (_ ∨ _))

@[simp]
theorem reached_zero (spec : Spec) : spec.reached 0 = spec.start := by
  simp [reached]

theorem reached_succ (spec : Spec) (steps : Nat) :
    spec.reached (steps + 1) = spec.reached steps + spec.stride := by
  rw [reached, reached, Int.natCast_add, Int.natCast_one, Int.add_mul, Int.one_mul, Int.add_assoc]

section

variable {spec : Spec} (hmoves : spec.stride ≠ 0)

include hmoves

/-- The cursor looks at the end only, since the stride never leads to the other side. -/
theorem reaches_reached_iff (steps : Nat) :
    spec.cursor.reaches (spec.reached steps) = true ↔ spec.Spans (spec.reached steps) := by
  rw [Cursor.reaches_iff, Spans, reached]
  dsimp only [cursor]
  rcases Int.lt_or_gt_of_ne hmoves with hneg | hpos
  · have hback : steps * spec.stride ≤ 0 :=
      Int.mul_nonpos_of_nonneg_of_nonpos (Int.natCast_nonneg steps) (Int.le_of_lt hneg)
    omega
  · have hon : 0 ≤ steps * spec.stride :=
      Int.mul_nonneg (Int.natCast_nonneg steps) (Int.le_of_lt hpos)
    omega

/-- Just as many steps as the cursor has values ahead of it lead to a number that counts. -/
theorem spans_reached_iff_lt (steps : Nat) :
    spec.Spans (spec.reached steps) ↔ steps < spec.cursor.ahead spec.start := by
  rw [← reaches_reached_iff hmoves, reached]
  -- The first of several steps moves the start, so the induction is over every start.
  generalize spec.start = value
  induction steps generalizing value with
  | zero =>
    rw [Int.natCast_zero, Int.zero_mul, Int.add_zero, Cursor.ahead]
    split
    · next hreach => exact iff_of_true hreach (Nat.succ_pos _)
    · next hreach => exact iff_of_false hreach (Nat.not_lt_zero 0)
  | succ steps ih =>
    have hfirst : value + ((steps + 1 : Nat) : Int) * spec.stride =
        value + spec.stride + steps * spec.stride := by
      rw [Int.natCast_add, Int.natCast_one, Int.add_mul, Int.one_mul]
      omega
    rw [hfirst, ih]
    by_cases hreach : spec.cursor.reaches value = true
    · rw [Cursor.ahead_eq_succ hmoves hreach]
      exact Nat.succ_lt_succ_iff.symm
    · have hnext : ¬ spec.cursor.reaches (value + spec.stride) = true :=
        fun h => hreach (Cursor.reaches_of_reaches_add h)
      rw [Cursor.ahead_of_not_reaches hreach, Cursor.ahead_of_not_reaches hnext]
      exact iff_of_false (Nat.not_lt_zero _) (Nat.not_lt_zero _)

end

/-- Where a cursor stands after some calls: at the number that as many steps lead to, or at no
number, and then those that further steps lead to do not count. -/
inductive Stands (spec : Spec) (calls : Nat) : Cursor → Prop
  | number (hword : Fits (spec.reached calls)) :
      Stands spec calls ⟨some (spec.reached calls), spec.last, spec.stride⟩
  | nowhere (hbehind : ¬ spec.Spans (spec.reached calls)) :
      Stands spec calls ⟨none, spec.last, spec.stride⟩

section

variable {spec : Spec} (hwords : spec.InWords) (hmoves : spec.stride ≠ 0)

include hwords hmoves

theorem Stands.step {calls : Nat} {cursor : Cursor} (h : Stands spec calls cursor) :
    cursor.step.1 =
        (if spec.Spans (spec.reached calls) then some (spec.reached calls) else none) ∧
      Stands spec (calls + 1) cursor.step.2 := by
  have hends : ¬ spec.Spans (spec.reached calls) → ¬ spec.Spans (spec.reached (calls + 1)) := by
    rw [spans_reached_iff_lt hmoves, spans_reached_iff_lt hmoves]
    omega
  cases h with
  | number hword =>
    by_cases hspans : spec.Spans (spec.reached calls)
    · have hreach : (⟨some (spec.reached calls), spec.last, spec.stride⟩ : Cursor).reaches
          (spec.reached calls) = true := (reaches_reached_iff hmoves calls).2 hspans
      rw [Cursor.step_of_reaches hreach, if_pos hspans, ← reached_succ]
      refine ⟨rfl, ?_⟩
      -- A next number that is no word is dropped, and it would not have counted.
      by_cases hfits : Fits (spec.reached (calls + 1))
      · rw [checked, if_pos hfits]
        exact .number hfits
      · rw [checked, if_neg hfits]
        refine .nowhere ?_
        rw [← reaches_reached_iff hmoves, reached_succ]
        rw [reached_succ] at hfits
        exact Cursor.not_reaches_of_not_fits hword hwords.last hfits
    · have hreach : ¬ (⟨some (spec.reached calls), spec.last, spec.stride⟩ : Cursor).reaches
          (spec.reached calls) = true := mt (reaches_reached_iff hmoves calls).1 hspans
      rw [Cursor.step_of_not_reaches hreach, if_neg hspans]
      exact ⟨rfl, .nowhere (hends hspans)⟩
  | nowhere hbehind =>
    rw [Cursor.step_of_next_none, if_neg hbehind]
    exact ⟨rfl, .nowhere (hends hbehind)⟩

theorem stands_after (calls : Nat) : Stands spec calls (spec.cursor.after calls) := by
  induction calls with
  | zero =>
    have hstart : Stands spec 0 ⟨some (spec.reached 0), spec.last, spec.stride⟩ := by
      refine .number ?_
      rw [reached_zero]
      exact hwords.start
    rwa [reached_zero] at hstart
  | succ calls ih => exact (ih.step hwords hmoves).2

end

theorem ahead_le_two_pow {spec : Spec} (hwords : spec.InWords) :
    spec.cursor.ahead spec.start ≤ 2 ^ 64 := by
  have hroom : spec.cursor.ahead spec.start ≤ (spec.last - spec.start).natAbs + 1 :=
    spec.cursor.ahead_le spec.start
  have hstart := hwords.start
  have hlast := hwords.last
  simp only [Fits, least, greatest] at hstart hlast
  omega

/-- Asked again and again, the cursor of a sequence answers with each number that the stride leads
to while it lies between the start and the end, and with nothing from then on.  The values of the
sequence are just these, and the division counts them, up to the greatest unsigned word. -/
theorem cursor_answers_span {spec : Spec} (hwords : spec.InWords) (hmoves : spec.stride ≠ 0) :
    (∀ calls : Nat, spec.cursor.answer calls =
        if spec.Spans (spec.reached calls) then some (spec.reached calls) else none) ∧
      ∃ count : Nat, count ≤ 2 ^ 64 ∧
        (∀ calls : Nat, spec.cursor.answer calls = none ↔ count ≤ calls) ∧
        spec.values = (List.range count).map spec.reached ∧
        spec.valueCount = if count = 2 ^ 64 then greatestUnsigned else count := by
  have hanswer : ∀ calls : Nat, spec.cursor.answer calls =
      if spec.Spans (spec.reached calls) then some (spec.reached calls) else none :=
    fun calls => ((stands_after hwords hmoves calls).step hwords hmoves).1
  have hroom := ahead_le_two_pow hwords
  refine ⟨hanswer, spec.cursor.ahead spec.start, hroom, ?_, values_eq_map_range hwords hmoves, ?_⟩
  · intro calls
    rw [hanswer, ← Nat.not_lt, ← spans_reached_iff_lt hmoves]
    split
    · next hspans => exact iff_of_false (fun h => by cases h) (not_not_intro hspans)
    · next hspans => exact iff_of_true rfl hspans
  · rw [valueCount_eq spec hmoves]
    simp only [greatestUnsigned]
    split <;> omega

/-- All words in order. -/
theorem cursor_answers_span_all_words :
    (⟨least, greatest, 1, none⟩ : Spec).InWords ∧
      (⟨least, greatest, 1, none⟩ : Spec).cursor.answer (2 ^ 64 - 1) = some greatest ∧
      (⟨least, greatest, 1, none⟩ : Spec).cursor.answer (2 ^ 64) = none ∧
      (⟨least, greatest, 1, none⟩ : Spec).valueCount = greatestUnsigned := by
  have hwords : (⟨least, greatest, 1, none⟩ : Spec).InWords :=
    ⟨by decide, by decide, by decide⟩
  obtain ⟨hanswer, count, hroom, hends, -, hcount⟩ := cursor_answers_span hwords (by decide)
  have hlast : (⟨least, greatest, 1, none⟩ : Spec).cursor.answer (2 ^ 64 - 1) = some greatest := by
    rw [hanswer, if_pos (by decide)]
    decide
  have hnone : (⟨least, greatest, 1, none⟩ : Spec).cursor.answer (2 ^ 64) = none := by
    rw [hanswer, if_neg (by decide)]
  have hmany : count = 2 ^ 64 := by
    have hmore : ¬ count ≤ 2 ^ 64 - 1 := by
      rw [← hends, hlast]
      exact Option.some_ne_none greatest
    omega
  exact ⟨hwords, hlast, hnone, hcount.trans (if_pos hmany)⟩

end Spec

end LookupEngine.Sequence
