import LookupEngine.Options
import LookupEngine.Proofs.Text.Blank
import LookupEngine.Term
/-!
# Numerals stay in the range of a word

Whatever reads as an integer, in a term or among the options, is a signed word.  Each reader
checks its result, and the negative of a word is a word again because the least one stays as it
is.
-/

namespace LookupEngine

namespace Integer

theorem fits_of_checked {n m : Int} (h : checked n = some m) : Fits m := by
  rw [checked] at h
  split at h
  · next hfits =>
    cases h
    exact hfits
  · cases h

theorem fits_saturated (n : Int) : Fits (saturated n) := by
  simp only [Fits, saturated, least, greatest]
  omega

theorem fits_negate {n : Int} (h : Fits n) : Fits (negate n) := by
  rw [negate]
  split
  · decide
  · simp only [Fits, least, greatest] at *
    omega

theorem fits_of_bind_checked {read : Option Nat} {f : Nat → Int} {n : Int}
    (h : (read.bind fun m => checked (f m)) = some n) : Fits n := by
  obtain ⟨m, _, hchecked⟩ := Option.bind_eq_some_iff.1 h
  exact fits_of_checked hchecked

theorem fits_readSigned? {base : Nat} {cs : List Char} {n : Int}
    (h : readSigned? base cs = some n) : Fits n := by
  unfold readSigned? at h
  split at h <;> exact fits_of_bind_checked h

theorem fits_readMagnitude? {cs : List Char} {n : Int} (h : readMagnitude? cs = some n) :
    Fits n := by
  unfold readMagnitude? at h
  split at h
  · exact fits_readSigned? h
  · exact fits_readSigned? h
  · exact fits_readSigned? h
  · exact fits_readSigned? h
  · exact fits_of_bind_checked h

theorem fits_readChars? {cs : List Char} {n : Int} (h : readChars? cs = some n) : Fits n := by
  unfold readChars? at h
  split at h
  · obtain ⟨m, hread, rfl⟩ := Option.map_eq_some_iff.1 h
    exact fits_negate (fits_readMagnitude? hread)
  · exact fits_readMagnitude? h
  · exact fits_readMagnitude? h

theorem fits_read? {s : String} {n : Int} (h : read? s = some n) : Fits n :=
  fits_readChars? h

/-- A character that no numeral holds: it is no digit, no sign and no mark of a base. -/
def IsForeign (c : Char) : Prop :=
  Digits.digitValue? c = none ∧ c ∉ ['-', '+', 'x', 'X', 'o', 'O']

instance (c : Char) : Decidable (IsForeign c) := inferInstanceAs (Decidable (_ ∧ _))

section

variable {mark : Char} (hmark : IsForeign mark)

include hmark

theorem IsForeign.ne_of_digit {base : Nat} {c : Char} (h : Digits.isDigitOf base c = true) :
    c ≠ mark := by
  rintro rfl
  rw [Digits.isDigitOf, hmark.1] at h
  cases h

theorem IsForeign.ne_of_mem {c : Char} (h : c ∈ ['-', '+', 'x', 'X', 'o', 'O']) : mark ≠ c := by
  rintro rfl
  exact hmark.2 h

theorem not_mem_of_bind_checked {base : Nat} {cs : List Char} {f : Nat → Int} {n : Int}
    (h : ((Digits.read? base cs).bind fun m => checked (f m)) = some n) : mark ∉ cs := by
  obtain ⟨m, hread, _⟩ := Option.bind_eq_some_iff.1 h
  rw [Digits.read?] at hread
  split at hread
  · next hdigits =>
    rw [Bool.and_eq_true, List.all_eq_true] at hdigits
    intro hmem
    exact hmark.ne_of_digit (hdigits.2 mark hmem) rfl
  · cases hread

theorem not_mem_of_readSigned? {base : Nat} {cs : List Char} {n : Int}
    (h : readSigned? base cs = some n) : mark ∉ cs := by
  unfold readSigned? at h
  split at h
  · exact List.not_mem_cons_of_ne_of_not_mem (hmark.ne_of_mem (by decide))
      (not_mem_of_bind_checked hmark h)
  · exact List.not_mem_cons_of_ne_of_not_mem (hmark.ne_of_mem (by decide))
      (not_mem_of_bind_checked hmark h)
  · exact not_mem_of_bind_checked hmark h

/-- The mark of a base is a zero and a letter. -/
theorem not_mem_base {letter : Char} {base : Nat} {cs : List Char} {n : Int}
    (hletter : letter ∈ ['-', '+', 'x', 'X', 'o', 'O']) (h : readSigned? base cs = some n) :
    mark ∉ '0' :: letter :: cs :=
  List.not_mem_cons_of_ne_of_not_mem
    (Ne.symm (hmark.ne_of_digit (show Digits.isDigitOf 10 '0' = true by decide)))
    (List.not_mem_cons_of_ne_of_not_mem (hmark.ne_of_mem hletter)
      (not_mem_of_readSigned? hmark h))

theorem not_mem_of_readMagnitude? {cs : List Char} {n : Int} (h : readMagnitude? cs = some n) :
    mark ∉ cs := by
  unfold readMagnitude? at h
  split at h
  · exact not_mem_base hmark (by decide) h
  · exact not_mem_base hmark (by decide) h
  · exact not_mem_base hmark (by decide) h
  · exact not_mem_base hmark (by decide) h
  · exact not_mem_of_bind_checked hmark h

theorem not_mem_of_readChars? {cs : List Char} {n : Int} (h : readChars? cs = some n) :
    mark ∉ cs := by
  unfold readChars? at h
  split at h
  · obtain ⟨m, hread, -⟩ := Option.map_eq_some_iff.1 h
    exact List.not_mem_cons_of_ne_of_not_mem (hmark.ne_of_mem (by decide))
      (not_mem_of_readMagnitude? hmark hread)
  · exact List.not_mem_cons_of_ne_of_not_mem (hmark.ne_of_mem (by decide))
      (not_mem_of_readMagnitude? hmark h)
  · exact not_mem_of_readMagnitude? hmark h

end

/-- A numeral that a word can hold: it reads as an integer, and there is no blank in it. -/
structure StandsFor (numeral : String) (n : Int) : Prop where
  read : read? numeral = some n
  solid : ∀ c ∈ numeral.toList, Text.isBlank c = false

theorem StandsFor.of_all {numeral : String} {n : Int} (hread : read? numeral = some n)
    (hsolid : numeral.toList.all (fun c => !Text.isBlank c) = true) : StandsFor numeral n where
  read := hread
  solid c hc := by simpa using List.all_eq_true.1 hsolid c hc

theorem StandsFor.fits {numeral : String} {n : Int} (h : StandsFor numeral n) : Fits n :=
  fits_read? h.read

theorem StandsFor.not_mem {numeral : String} {n : Int} (h : StandsFor numeral n) {mark : Char}
    (hmark : IsForeign mark) : mark ∉ numeral.toList := by
  have hread := h.read
  rw [read?, (Text.trimChars_eq_self_iff _).2 (Text.isTrimmed_of_forall_not_blank h.solid)] at hread
  exact not_mem_of_readChars? hmark hread

end Integer

open Integer

theorem Term.fits_integer? {term : Term} {key : String} {n : Int}
    (h : term.integer? key = some n) : Fits n := by
  obtain ⟨text, _, hread⟩ := Option.bind_eq_some_iff.1 h
  exact fits_read? hread

theorem le_greatest_of_bind_toNat {read : Option Int} {n : Nat}
    (hfits : ∀ m, read = some m → Fits m)
    (h : (read.bind fun m => if 0 ≤ m then some m.toNat else none) = some n) :
    (n : Int) ≤ greatest := by
  obtain ⟨m, hread, hn⟩ := Option.bind_eq_some_iff.1 h
  split at hn
  · next hnonneg =>
    cases hn
    rw [Int.toNat_of_nonneg hnonneg]
    exact (hfits m hread).2
  · cases hn

theorem Term.natural?_le {term : Term} {key : String} {n : Nat}
    (h : term.natural? key = some n) : (n : Int) ≤ greatest :=
  le_greatest_of_bind_toNat (fun _ => fits_integer?) h

namespace Options

theorem fits_integer? {options : Options} {key : String} {n : Int}
    (h : options.integer? key = some n) : Fits n := by
  unfold integer? at h
  split at h
  · next found _ =>
    cases found with
    | integer m => exact fits_of_checked h
    | float x => cases h
  · exact fits_read? h
  · cases h

theorem natural?_le {options : Options} {key : String} {n : Nat}
    (h : options.natural? key = some n) : (n : Int) ≤ greatest :=
  le_greatest_of_bind_toNat (fun _ => fits_integer?) h

/-- A number that is a word is read as it is. -/
theorem natural?_of_find? {options : Options} {key : String} {n : Nat}
    (h : options.find? key = some (.nat n)) (hn : (n : Int) ≤ greatest) :
    options.natural? key = some n := by
  have hfits : Fits n := ⟨by simp [least], hn⟩
  have hinteger : options.integer? key = some (n : Int) := by
    simp only [integer?, h, Value.nat, Value.int, Number.signed?, checked, if_pos hfits]
  rw [natural?, hinteger]
  simp

end Options

end LookupEngine
