import LookupEngine.Proofs.Number.Digits
import LookupEngine.Proofs.Number.Numerals
/-!
# How numbers are spelled

A numeral without a sign is a run of decimal digits, or a run of hexadecimal or octal digits
after the mark of its base.  It stands for the value of its digits, as long as that is a word, and
the reader finds just this value.  A minus sign before a numeral turns the value around, so every
word but the least one has a numeral, its decimal form among others.
-/

namespace LookupEngine

namespace Digits

theorem isNumber_iff_all {base : Nat} {cs : List Char} :
    (!cs.isEmpty && cs.all (isDigitOf base)) = true ↔ IsNumber base cs := by
  simp only [Bool.and_eq_true, Bool.not_eq_true', List.isEmpty_eq_false_iff, List.all_eq_true]
  exact ⟨fun h => ⟨h.1, h.2⟩, fun h => ⟨h.ne_nil, h.digits⟩⟩

instance (base : Nat) (cs : List Char) : Decidable (IsNumber base cs) :=
  decidable_of_iff _ isNumber_iff_all

theorem read?_eq_some_iff {base n : Nat} {cs : List Char} :
    read? base cs = some n ↔ IsNumber base cs ∧ value base cs = n := by
  rw [read?, ← isNumber_iff_all]
  split
  · next hall => rw [Option.some.injEq, and_iff_right hall]
  · next hall => simp only [reduceCtorEq, hall, false_and]

theorem isDigitOf_mono {base greater : Nat} (hle : base ≤ greater) {c : Char}
    (h : isDigitOf base c = true) : isDigitOf greater c = true := by
  rw [isDigitOf] at h ⊢
  cases hvalue : digitValue? c with
  | none =>
    rw [hvalue] at h
    cases h
  | some d =>
    rw [hvalue] at h
    exact decide_eq_true (Nat.lt_of_lt_of_le (of_decide_eq_true h) hle)

/-- A digit is a character between `0` and `f`. -/
theorem toNat_of_isDigitOf {base : Nat} {c : Char} (h : isDigitOf base c = true) :
    48 ≤ c.toNat ∧ c.toNat ≤ 102 := by
  have hsome : digitValue? c ≠ none := by
    intro hnone
    rw [isDigitOf, hnone] at h
    cases h
  unfold digitValue? at hsome
  split at hsome
  · next hdigit =>
    rw [Bool.and_eq_true, decide_eq_true_eq, decide_eq_true_eq] at hdigit
    exact ⟨hdigit.1, Nat.le_trans hdigit.2 (by decide)⟩
  split at hsome
  · next hlower =>
    rw [Bool.and_eq_true, decide_eq_true_eq, decide_eq_true_eq] at hlower
    exact ⟨Nat.le_trans (by decide) hlower.1, hlower.2⟩
  split at hsome
  · next hupper =>
    rw [Bool.and_eq_true, decide_eq_true_eq, decide_eq_true_eq] at hupper
    exact ⟨Nat.le_trans (by decide) hupper.1, Nat.le_trans hupper.2 (by decide)⟩
  · exact absurd rfl hsome

theorem IsNumber.mono {base greater : Nat} (hle : base ≤ greater) {cs : List Char}
    (h : IsNumber base cs) : IsNumber greater cs :=
  ⟨h.ne_nil, fun c hc => isDigitOf_mono hle (h.digits c hc)⟩

theorem isNumber_write (n : Nat) : IsNumber 10 (write 10 n) :=
  isNumber_writeInto (isAlphabet_lowerDigit (by decide)) (by decide) n

end Digits

namespace Integer

open Digits

/-- The letters that mark a base after a zero. -/
inductive Marks : Char → Nat → Prop
  | hexadecimal : Marks 'x' 16
  | capitalHexadecimal : Marks 'X' 16
  | octal : Marks 'o' 8
  | capitalOctal : Marks 'O' 8

/-- The numerals without a sign, and the numbers that they name, words or not. -/
inductive Names : List Char → Nat → Prop
  | decimal {digits : List Char} (hdigits : IsNumber 10 digits) : Names digits (value 10 digits)
  | marked {mark : Char} {base : Nat} {digits : List Char} (hmark : Marks mark base)
      (hdigits : IsNumber base digits) : Names ('0' :: mark :: digits) (value base digits)

/-- The numerals without a sign, and the words that they stand for. -/
inductive Spells : List Char → Int → Prop
  | decimal {digits : List Char} (hdigits : IsNumber 10 digits)
      (hword : (value 10 digits : Int) ≤ greatest) : Spells digits (value 10 digits)
  | marked {mark : Char} {base : Nat} {digits : List Char} (hmark : Marks mark base)
      (hdigits : IsNumber base digits) (hword : (value base digits : Int) ≤ greatest) :
      Spells ('0' :: mark :: digits) (value base digits)

/-- The numerals that may have a minus sign. -/
inductive SpellsSigned : List Char → Int → Prop
  | plain {cs : List Char} {n : Int} (h : Spells cs n) : SpellsSigned cs n
  | minus {cs : List Char} {n : Int} (h : Spells cs n) : SpellsSigned ('-' :: cs) (-n)

/-- The numeral begins with a zero and the mark of a base. -/
def IsMarked (cs : List Char) : Prop :=
  ∃ mark base digits, Marks mark base ∧ cs = '0' :: mark :: digits

section

variable {mark : Char} {base : Nat} (hmark : Marks mark base)

include hmark

theorem Marks.base_le : base ≤ 16 := by
  cases hmark <;> decide

theorem Marks.mem : mark ∈ ['x', 'X', 'o', 'O'] := by
  cases hmark <;> decide

theorem Marks.isDigitOf_eq_false : isDigitOf 16 mark = false := by
  cases hmark <;> decide

theorem readMagnitude?_of_marks (digits : List Char) :
    readMagnitude? ('0' :: mark :: digits) = readSigned? base digits := by
  cases hmark <;> rfl

end

theorem readMagnitude?_of_not_isMarked {cs : List Char} (h : ¬ IsMarked cs) :
    readMagnitude? cs = (Digits.read? 10 cs).bind fun n => checked n := by
  unfold readMagnitude?
  split
  · exact absurd ⟨_, _, _, .hexadecimal, rfl⟩ h
  · exact absurd ⟨_, _, _, .capitalHexadecimal, rfl⟩ h
  · exact absurd ⟨_, _, _, .octal, rfl⟩ h
  · exact absurd ⟨_, _, _, .capitalOctal, rfl⟩ h
  · rfl

/-- Digits alone hold no mark of a base. -/
theorem not_isMarked_of_isNumber {cs : List Char} (h : IsNumber 16 cs) : ¬ IsMarked cs := by
  rintro ⟨mark, base, digits, hmark, rfl⟩
  have hdigit := h.digits mark (List.mem_cons_of_mem _ List.mem_cons_self)
  rw [hmark.isDigitOf_eq_false] at hdigit
  cases hdigit

/-- A sign is no digit, so digits are read as they are. -/
theorem readSigned?_of_digits {base : Nat} {cs : List Char}
    (h : ∀ c ∈ cs, isDigitOf 16 c = true) :
    readSigned? base cs = (Digits.read? base cs).bind fun n => checked n := by
  unfold readSigned?
  split
  · exact absurd (h '-' List.mem_cons_self) (by decide)
  · exact absurd (h '+' List.mem_cons_self) (by decide)
  · rfl

theorem readChars?_of_head_digit {cs : List Char}
    (h : ∀ c, cs.head? = some c → isDigitOf 16 c = true) : readChars? cs = readMagnitude? cs := by
  unfold readChars?
  split
  · exact absurd (h '-' rfl) (by decide)
  · exact absurd (h '+' rfl) (by decide)
  · rfl

theorem fits_natCast {n : Nat} : Fits n ↔ (n : Int) ≤ greatest := by
  simp only [Fits, least, greatest]
  omega

theorem checked_eq_some_iff {n m : Int} : checked n = some m ↔ Fits n ∧ n = m := by
  rw [checked]
  split
  · next hfits => rw [Option.some.injEq, and_iff_right hfits]
  · next hfits => simp only [reduceCtorEq, hfits, false_and]

/-- What the digits of a base are read as. -/
theorem bind_checked_eq_some_iff {base : Nat} {cs : List Char} {n : Int} :
    ((Digits.read? base cs).bind fun m => checked m) = some n ↔
      IsNumber base cs ∧ (value base cs : Int) ≤ greatest ∧ value base cs = n := by
  rw [Option.bind_eq_some_iff]
  constructor
  · rintro ⟨m, hread, hchecked⟩
    obtain ⟨hdigits, rfl⟩ := read?_eq_some_iff.1 hread
    obtain ⟨hfits, heq⟩ := checked_eq_some_iff.1 hchecked
    exact ⟨hdigits, fits_natCast.1 hfits, heq⟩
  · rintro ⟨hdigits, hword, heq⟩
    exact ⟨_, read?_eq_some_iff.2 ⟨hdigits, rfl⟩,
      checked_eq_some_iff.2 ⟨fits_natCast.2 hword, heq⟩⟩

section

variable {cs : List Char} {m : Nat}

/-- A numeral is read as what it names, if that is a word. -/
theorem Names.readMagnitude? (h : Names cs m) : readMagnitude? cs = checked m := by
  cases h with
  | decimal hdigits =>
    rw [readMagnitude?_of_not_isMarked (not_isMarked_of_isNumber (hdigits.mono (by decide))),
      read?_eq_some_iff.2 ⟨hdigits, rfl⟩, Option.bind_some]
  | marked hmark hdigits =>
    rw [readMagnitude?_of_marks hmark, readSigned?_of_digits (hdigits.mono hmark.base_le).digits,
      read?_eq_some_iff.2 ⟨hdigits, rfl⟩, Option.bind_some]

theorem Names.head_digit (h : Names cs m) {c : Char} (hc : cs.head? = some c) :
    isDigitOf 16 c = true := by
  cases h with
  | decimal hdigits =>
    exact isDigitOf_mono (by decide) (hdigits.digits c (List.mem_of_mem_head? hc))
  | marked _ _ =>
    obtain rfl := Option.some.inj hc
    decide

/-- The characters that numerals are made of. -/
theorem Names.digit_or_mark (h : Names cs m) {c : Char} (hc : c ∈ cs) :
    isDigitOf 16 c = true ∨ c ∈ ['x', 'X', 'o', 'O'] := by
  cases h with
  | decimal hdigits => exact .inl (isDigitOf_mono (by decide) (hdigits.digits c hc))
  | marked hmark hdigits =>
    rcases List.mem_cons.1 hc with rfl | hc
    · exact .inl (by decide)
    rcases List.mem_cons.1 hc with rfl | hc
    · exact .inr hmark.mem
    · exact .inl (isDigitOf_mono hmark.base_le (hdigits.digits c hc))

theorem Names.solid (h : Names cs m) : ∀ c ∈ cs, Text.isBlank c = false := by
  intro c hc
  rcases h.digit_or_mark hc with hdigit | hmark
  · have hrange := toNat_of_isDigitOf hdigit
    simp only [Text.isBlank, Bool.or_eq_false_iff, Bool.and_eq_false_iff, decide_eq_false_iff_not]
    omega
  · simp only [List.mem_cons, List.not_mem_nil, or_false] at hmark
    rcases hmark with rfl | rfl | rfl | rfl <;> decide

end

section

variable {cs : List Char} {n : Int}

/-- What stands for a word names it. -/
theorem Spells.exists_names (h : Spells cs n) : ∃ m : Nat, Names cs m ∧ (m : Int) = n := by
  cases h with
  | decimal hdigits _ => exact ⟨_, .decimal hdigits, rfl⟩
  | marked hmark hdigits _ => exact ⟨_, .marked hmark hdigits, rfl⟩

theorem Spells.nonneg (h : Spells cs n) : 0 ≤ n := by
  cases h <;> exact Int.natCast_nonneg _

theorem Spells.le_greatest (h : Spells cs n) : n ≤ greatest := by
  cases h with
  | decimal _ hword => exact hword
  | marked _ _ hword => exact hword

theorem Spells.fits (h : Spells cs n) : Fits n :=
  ⟨Int.le_trans (by decide) h.nonneg, h.le_greatest⟩

theorem Spells.readMagnitude? (h : Spells cs n) : readMagnitude? cs = some n := by
  obtain ⟨m, hnames, rfl⟩ := h.exists_names
  rw [hnames.readMagnitude?, checked_eq_some_iff]
  exact ⟨h.fits, rfl⟩

theorem Spells.head_digit (h : Spells cs n) {c : Char} (hc : cs.head? = some c) :
    isDigitOf 16 c = true := by
  obtain ⟨m, hnames, -⟩ := h.exists_names
  exact hnames.head_digit hc

theorem Spells.readChars? (h : Spells cs n) : readChars? cs = some n := by
  rw [readChars?_of_head_digit fun c => h.head_digit, h.readMagnitude?]

theorem negate_of_nonneg {n : Int} (h : 0 ≤ n) : negate n = -n := by
  rw [negate, if_neg]
  simp only [least]
  omega

theorem SpellsSigned.readChars? (h : SpellsSigned cs n) : readChars? cs = some n := by
  cases h with
  | plain h => exact h.readChars?
  | minus h =>
    rw [Integer.readChars?, h.readMagnitude?, Option.map_some, negate_of_nonneg h.nonneg]

theorem SpellsSigned.fits (h : SpellsSigned cs n) : Fits n := fits_readChars? h.readChars?

theorem Spells.digit_or_mark (h : Spells cs n) {c : Char} (hc : c ∈ cs) :
    isDigitOf 16 c = true ∨ c ∈ ['x', 'X', 'o', 'O'] := by
  obtain ⟨m, hnames, -⟩ := h.exists_names
  exact hnames.digit_or_mark hc

theorem Spells.solid (h : Spells cs n) : ∀ c ∈ cs, Text.isBlank c = false := by
  obtain ⟨m, hnames, -⟩ := h.exists_names
  exact hnames.solid

end

/-- Every number that is a word is spelled by its decimal digits. -/
theorem spells_write {n : Nat} (h : (n : Int) ≤ greatest) : Spells (Digits.write 10 n) n := by
  have hspells := Spells.decimal (isNumber_write n)
  rw [value_write] at hspells
  exact hspells h

theorem spells_writeChars {n : Int} (hnonneg : 0 ≤ n) (hword : n ≤ greatest) :
    Spells (writeChars n) n := by
  obtain ⟨m, rfl⟩ := Int.eq_ofNat_of_zero_le hnonneg
  rw [writeChars, if_neg (by omega), Int.natAbs_natCast]
  exact spells_write hword

/-- A word with a decimal form that can be read: any but the least one. -/
def HasDecimal (n : Int) : Prop := least < n ∧ n ≤ greatest

instance (n : Int) : Decidable (HasDecimal n) := inferInstanceAs (Decidable (_ ∧ _))

theorem spellsSigned_writeChars {n : Int} (h : HasDecimal n) : SpellsSigned (writeChars n) n := by
  obtain ⟨hleast, hword⟩ := h
  by_cases hneg : n < 0
  · -- Only here the least word matters: its magnitude would be too great.
    have hword : (n.natAbs : Int) ≤ greatest := by
      simp only [least, greatest] at hleast ⊢
      omega
    have hsame : -(n.natAbs : Int) = n := by omega
    have hminus := SpellsSigned.minus (spells_write hword)
    rw [hsame] at hminus
    rwa [writeChars, if_pos hneg]
  · exact .plain (spells_writeChars (Int.not_lt.1 hneg) hword)

theorem SpellsSigned.solid {cs : List Char} {n : Int} (h : SpellsSigned cs n) :
    ∀ c ∈ cs, Text.isBlank c = false := by
  cases h with
  | plain h => exact h.solid
  | minus h => exact List.forall_mem_cons.2 ⟨by decide, h.solid⟩

/-- Whatever spells a word can stand for it in a term. -/
theorem SpellsSigned.standsFor {numeral : String} {n : Int}
    (h : SpellsSigned numeral.toList n) : StandsFor numeral n := by
  refine ⟨?_, h.solid⟩
  rw [read?, (Text.trimChars_eq_self_iff _).2 (Text.isTrimmed_of_forall_not_blank h.solid)]
  exact h.readChars?

theorem standsFor_write {n : Int} (h : HasDecimal n) : StandsFor (write n) n := by
  apply SpellsSigned.standsFor
  rw [write, String.toList_ofList]
  exact spellsSigned_writeChars h

end Integer

end LookupEngine
