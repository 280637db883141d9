import Mathlib.Data.List.TakeDrop
import LookupEngine.Json.Printer
import LookupEngine.Json.Reader
import LookupEngine.Proofs.Number.Digits
/-!
# Integers in texts

The integers of values lie between the least signed and the greatest unsigned word.  Each of them
is read back from its digits, on both sides of zero, and no numeral stands for any other integer.
-/

namespace LookupEngine

/-- `n` is a signed or an unsigned word. -/
def Integer.IsWord (n : Int) : Prop := least ≤ n ∧ n ≤ greatestUnsigned

instance (n : Int) : Decidable (Integer.IsWord n) :=
  inferInstanceAs (Decidable (_ ≤ n ∧ n ≤ _))

namespace Json

/-- The numeral that an integer is written as. -/
def numeralOf (n : Int) : Numeral := ⟨decide (n < 0), Digits.write 10 n.natAbs, none, none⟩

/-- The characters that numerals start with. -/
def StartsNumber (c : Char) : Prop := c = '-' ∨ Digits.isDecimal c = true

theorem exists_writeChars_eq_cons (n : Int) :
    ∃ c rest, Integer.writeChars n = c :: rest ∧ StartsNumber c := by
  rw [Integer.writeChars]
  split
  · exact ⟨_, _, rfl, .inl rfl⟩
  · obtain ⟨c, rest, hwrite, hdigit, -⟩ := Digits.exists_write_eq_cons n.natAbs
    exact ⟨c, rest, hwrite, .inr hdigit⟩

/-- No numeral starts as a blank, as another value or as the end of an array does. -/
theorem ne_of_startsNumber {c other : Char} (h : StartsNumber c)
    (hother : other ∈
      [' ', '\n', '\t', '\r', ']', 'n', 't', 'f', '\x22', '[', '\x7b']) : c ≠ other := by
  rintro rfl
  rcases h with rfl | hdigit
  · exact absurd hother (by decide)
  · simp only [List.mem_cons, List.not_mem_nil, or_false] at hother
    rcases hother with rfl | rfl | rfl | rfl | rfl | rfl | rfl | rfl | rfl | rfl | rfl <;>
      exact absurd hdigit (by decide)

theorem isBlank_of_startsNumber {c : Char} (h : StartsNumber c) : isBlank c = false := by
  have hother : ∀ other ∈ [' ', '\n', '\t', '\r'], decide (c = other) = false :=
    fun other hother => decide_eq_false (ne_of_startsNumber h (List.mem_append_left _ hother))
  rw [isBlank, hother ' ' (by decide), hother '\n' (by decide), hother '\t' (by decide),
    hother '\r' (by decide)]
  rfl

/-- Text that does not go on with the number before it. -/
inductive EndsNumber : List Char → Prop
  | nil : EndsNumber []
  | cons {c : Char} {rest : List Char} (hdigit : Digits.isDecimal c = false) (hpoint : c ≠ '.')
      (hexponent : ¬ (c = 'e' ∨ c = 'E')) : EndsNumber (c :: rest)

theorem digits_append {found tail : List Char} (hfound : ∀ c ∈ found, Digits.isDecimal c = true)
    (htail : EndsNumber tail) : digits (found ++ tail) = (found, tail) := by
  rw [digits, List.span_eq_takeWhile_dropWhile, List.takeWhile_append_of_pos hfound,
    List.dropWhile_append_of_pos hfound]
  cases htail with
  | nil => simp
  | cons hdigit hpoint hexponent => simp [hdigit]

namespace Numeral

theorem fraction?_of_ends {tail : List Char} (htail : EndsNumber tail) :
    fraction? tail = some (none, tail) := by
  cases htail with
  | nil => rfl
  | cons hdigit hpoint hexponent =>
    rw [fraction?]
    exact fun rest hsame => hpoint (List.cons.inj hsame).1

theorem exponent?_of_ends {tail : List Char} (htail : EndsNumber tail) :
    exponent? tail = some (none, tail) := by
  cases htail with
  | nil => rfl
  | cons hdigit hpoint hexponent =>
    rw [exponent?.eq_def]
    dsimp only
    rw [if_neg hexponent]

/-- A numeral has no zero in front of other digits, so the digits of a number are all taken. -/
theorem whole?_write (n : Nat) {tail : List Char} (htail : EndsNumber tail) :
    whole? (Digits.write 10 n ++ tail) = some (Digits.write 10 n, tail) := by
  by_cases hzero : n = 0
  · subst hzero
    rfl
  obtain ⟨c, rest, hwrite, -, hc⟩ := Digits.exists_write_eq_cons n
  have hdigits := digits_append (fun c => Digits.isDecimal_of_mem_write (n := n)) htail
  rw [hwrite] at hdigits ⊢
  rw [whole?.eq_def]
  split
  · next heq => exact absurd (List.cons.inj heq).1 (hc hzero)
  · rw [hdigits]
    rfl

theorem read?_writeChars (n : Int) {tail : List Char} (htail : EndsNumber tail) :
    read? (Integer.writeChars n ++ tail) = some (numeralOf n, tail) := by
  have hwhole := whole?_write n.natAbs htail
  by_cases hnegative : n < 0
  · rw [Integer.writeChars, if_pos hnegative, List.cons_append, read?]
    simp only [hwhole, fraction?_of_ends htail, exponent?_of_ends htail, numeralOf, hnegative,
      decide_true]
  · obtain ⟨c, rest, hwrite, hdigit, -⟩ := Digits.exists_write_eq_cons n.natAbs
    have hminus : c ≠ '-' := by
      rintro rfl
      exact absurd hdigit (by decide)
    rw [Integer.writeChars, if_neg hnegative]
    rw [hwrite, List.cons_append] at hwhole ⊢
    simp [read?, hminus, hwhole, fraction?_of_ends htail, exponent?_of_ends htail, numeralOf,
      hnegative, hwrite]

end Numeral

/-- Digits of a number that is an unsigned word are all read. -/
theorem absorb_eq_of_le {high : Nat} {cs : List Char}
    (h : Digits.valueFrom 10 high cs ≤ Integer.greatestUnsigned) :
    Numeral.absorb high cs = (Digits.valueFrom 10 high cs, []) := by
  induction cs generalizing high with
  | nil => rfl
  | cons c rest ih =>
    rw [Digits.valueFrom] at h ⊢
    have hnext := Nat.le_trans (Digits.le_valueFrom (by decide) _ rest) h
    rw [Numeral.absorb, if_neg (Nat.not_lt.2 hnext)]
    exact ih h

theorem absorb_le {high : Nat} (h : high ≤ Integer.greatestUnsigned) (cs : List Char) :
    (Numeral.absorb high cs).1 ≤ Integer.greatestUnsigned := by
  induction cs generalizing high with
  | nil => exact h
  | cons c rest ih =>
    rw [Numeral.absorb]
    split
    · exact h
    · next hnext => exact ih (Nat.not_lt.1 hnext)

/-- The numeral of an integer stands for it. -/
theorem number?_numeralOf {n : Int} (h : Integer.IsWord n) :
    (numeralOf n).number? = some (.integer n) := by
  obtain ⟨hleast, hgreatest⟩ := h
  rw [Integer.least] at hleast
  rw [Integer.greatestUnsigned] at hgreatest
  have hvalue : Digits.valueFrom 10 0 (Digits.write 10 n.natAbs) = n.natAbs :=
    Digits.value_write n.natAbs
  have habsorb : Numeral.absorb 0 (Digits.write 10 n.natAbs) = (n.natAbs, []) := by
    rw [absorb_eq_of_le, hvalue]
    rw [hvalue, Integer.greatestUnsigned]
    omega
  rw [Numeral.number?, numeralOf]
  simp only [habsorb, Option.isNone_none, List.isEmpty_nil, Bool.and_self, if_true]
  by_cases hnegative : n < 0
  · have hinside : ¬ (n.natAbs = 0 ∨ (n.natAbs : Int) > -Integer.least) := by
      rw [Integer.least]
      omega
    rw [if_pos (decide_eq_true hnegative), if_neg hinside, show -(n.natAbs : Int) = n by omega]
  · rw [if_neg (by simpa using hnegative), show (n.natAbs : Int) = n by omega]

/-- No numeral stands for an integer that is no word: such a number is a floating-point one. -/
theorem isWord_of_number? {numeral : Numeral} {n : Int}
    (h : numeral.number? = some (.integer n)) : Integer.IsWord n := by
  have hleading := absorb_le (Nat.zero_le _) numeral.whole
  have hfloat : ∀ (found : Option Binary64) (float : Binary64 → Binary64),
      found.map (fun x => Number.float (float x)) ≠ some (.integer n) := by
    intro found float hmap
    obtain ⟨x, -, hx⟩ := Option.map_eq_some_iff.1 hmap
    cases hx
  rw [Numeral.number?] at h
  dsimp only at h
  rw [Integer.IsWord, Integer.least]
  rw [Integer.greatestUnsigned] at hleading ⊢
  split at h
  · split at h
    · split at h
      · exact absurd h (hfloat _ _)
      · next hinside =>
        cases h
        rw [Integer.least] at hinside
        omega
    · cases h
      omega
  · exact absurd h (hfloat _ _)

end Json

end LookupEngine
