import LookupEngine.Options
import LookupEngine.Proofs.Number.Spelling
import LookupEngine.Proofs.Text.Words
/-!
# Numerals at the limits of a word

Every number has a numeral in each base, with a sign or without one.  A numeral of a word is read as
this word, whatever blanks stand around it, since its magnitude is a word as well.  Only the least
word is smaller than that: its magnitude is one more than the greatest word, so none of its numerals
is read, although the word itself is an integer like any other among the options.
-/

namespace LookupEngine

namespace Integer

open Digits

/-- The numerals with a sign or without one, and the numbers that they name, words or not. -/
inductive NamesSigned : List Char → Int → Prop
  | plain {cs : List Char} {m : Nat} (h : Names cs m) : NamesSigned cs m
  | plus {cs : List Char} {m : Nat} (h : Names cs m) : NamesSigned ('+' :: cs) m
  | minus {cs : List Char} {m : Nat} (h : Names cs m) : NamesSigned ('-' :: cs) (-m)

/-- The numeral that writes a number after the mark of a base. -/
def markedNumeral (mark : Char) (base : Nat) (n : Int) : List Char :=
  if n < 0 then '-' :: '0' :: mark :: Digits.write base n.natAbs
  else '0' :: mark :: Digits.write base n.natAbs

theorem Names.ne_nil {cs : List Char} {m : Nat} (h : Names cs m) : cs ≠ [] := by
  cases h with
  | decimal hdigits => exact hdigits.ne_nil
  | marked _ _ => exact List.cons_ne_nil _ _

theorem NamesSigned.ne_nil {cs : List Char} {n : Int} (h : NamesSigned cs n) : cs ≠ [] := by
  cases h with
  | plain h => exact h.ne_nil
  | plus _ => exact List.cons_ne_nil _ _
  | minus _ => exact List.cons_ne_nil _ _

theorem NamesSigned.solid {cs : List Char} {n : Int} (h : NamesSigned cs n) :
    ∀ c ∈ cs, Text.isBlank c = false := by
  cases h with
  | plain h => exact h.solid
  | plus h => exact List.forall_mem_cons.2 ⟨by decide, h.solid⟩
  | minus h => exact List.forall_mem_cons.2 ⟨by decide, h.solid⟩

/-- A number has the sign that its numeral has in front of a numeral for the magnitude. -/
theorem namesSigned_of_natAbs {cs : List Char} {n : Int} (h : Names cs n.natAbs) :
    NamesSigned (if n < 0 then '-' :: cs else cs) n := by
  split
  · next hneg =>
    have hminus := NamesSigned.minus h
    rwa [show -(n.natAbs : Int) = n by omega] at hminus
  · next hnonneg =>
    have hplain := NamesSigned.plain h
    rwa [show (n.natAbs : Int) = n by omega] at hplain

theorem namesSigned_writeChars (n : Int) : NamesSigned (writeChars n) n := by
  have hnames := Names.decimal (isNumber_write n.natAbs)
  rw [value_write] at hnames
  exact namesSigned_of_natAbs hnames

theorem namesSigned_markedNumeral {mark : Char} {base : Nat} (hmark : Marks mark base) (n : Int) :
    NamesSigned (markedNumeral mark base n) n := by
  have halphabet : IsAlphabet base lowerDigit := isAlphabet_lowerDigit hmark.base_le
  have hmany : 2 ≤ base := by cases hmark <;> decide
  have hnames := Names.marked hmark (isNumber_writeInto halphabet (by omega) n.natAbs)
  rw [value_writeInto halphabet hmany] at hnames
  exact namesSigned_of_natAbs hnames

/-- The magnitude is read before the sign is put on it, so it has to be a word by itself. -/
theorem NamesSigned.readChars? {cs : List Char} {n : Int} (h : NamesSigned cs n) (hword : Fits n) :
    readChars? cs = if n = least then none else some n := by
  cases h with
  | plain h =>
    rw [readChars?_of_head_digit fun c => h.head_digit, h.readMagnitude?, checked, if_pos hword,
      if_neg]
    simp only [least]
    omega
  | plus h =>
    rw [Integer.readChars?, h.readMagnitude?, checked, if_pos hword, if_neg]
    simp only [least]
    omega
  | @minus _ m h =>
    have hmagnitude : Fits m ↔ -(m : Int) ≠ least := by
      simp only [Fits, least, greatest] at hword ⊢
      omega
    rw [Integer.readChars?, h.readMagnitude?, checked]
    by_cases hleast : -(m : Int) = least
    · rw [if_neg (mt hmagnitude.1 (not_not_intro hleast)), if_pos hleast, Option.map_none]
    · rw [if_pos (hmagnitude.2 hleast), if_neg hleast, Option.map_some,
        negate_of_nonneg (Int.natCast_nonneg m)]

/-- A numeral among blanks is read as the word that it names, unless this is the least one. -/
theorem NamesSigned.read? {before numeral after : List Char} {n : Int} (hword : Fits n)
    (hbefore : Text.IsGap before) (h : NamesSigned numeral n) (hafter : Text.IsGap after) :
    read? (String.ofList (before ++ numeral ++ after)) = if n = least then none else some n := by
  have htrimmed : Text.IsTrimmed numeral := Text.isTrimmed_of_forall_not_blank h.solid
  rw [Integer.read?, String.toList_ofList,
    Text.trimChars_append_append hbefore htrimmed h.ne_nil hafter, h.readChars? hword]

theorem read?_write {n : Int} (hword : Fits n) :
    read? (write n) = if n = least then none else some n := by
  have hgap : Text.IsGap [] := by decide
  have hread := (namesSigned_writeChars n).read? hword hgap hgap
  rwa [List.append_nil, List.nil_append] at hread

end Integer

namespace Options

open Integer

theorem integer?_of_find?_int {options : Options} {key : String} {n : Int}
    (h : options.find? key = some (.int n)) (hword : Fits n) :
    options.integer? key = some n := by
  simp only [integer?, h, Value.int, Number.signed?]
  rw [checked, if_pos hword]

theorem integer?_of_find?_string {options : Options} {key text : String}
    (h : options.find? key = some (.string text)) : options.integer? key = read? text := by
  simp only [integer?, h]

end Options

namespace Integer

/-- Every number has its decimal numeral and one after each mark of a base.  A word is read from
each of its numerals, and an option gives the same integer for the word and for its decimal
numeral, exactly if the word is not the least one. -/
theorem numerals_read_back_iff {n : Int} (hword : Fits n) :
    NamesSigned (writeChars n) n ∧
      (∀ mark base, Marks mark base → NamesSigned (markedNumeral mark base n) n) ∧
      (∀ before numeral after, Text.IsGap before → NamesSigned numeral n → Text.IsGap after →
        (read? (String.ofList (before ++ numeral ++ after)) = some n ↔ n ≠ least) ∧
          (n = least → read? (String.ofList (before ++ numeral ++ after)) = none)) ∧
      ∀ (options others : Options) (key other : String), options.find? key = some (.int n) →
        others.find? other = some (.string (write n)) →
          options.integer? key = some n ∧
            (options.integer? key = others.integer? other ↔ n ≠ least) := by
  have hiff : (if n = least then none else some n) = some n ↔ n ≠ least := by
    split
    · next hleast => exact iff_of_false (fun heq => by cases heq) (not_not_intro hleast)
    · next hleast => exact iff_of_true rfl hleast
  refine ⟨namesSigned_writeChars n, fun mark base hmark => namesSigned_markedNumeral hmark n,
    ?_, ?_⟩
  · intro before numeral after hbefore hnumeral hafter
    rw [hnumeral.read? hword hbefore hafter]
    exact ⟨hiff, fun hleast => if_pos hleast⟩
  · intro options others key other hoption hother
    rw [Options.integer?_of_find?_int hoption hword, Options.integer?_of_find?_string hother,
      read?_write hword]
    exact ⟨rfl, eq_comm.trans hiff⟩

/-- The greatest word in capital digits among blanks, and a negative one in octal digits. -/
theorem numerals_read_back_in_two_bases :
    Fits greatest ∧ read? " \t+0X7FFFFFFFFFFFFFFF\n" = some greatest ∧ Fits (-9) ∧
      read? "-0o011 " = some (-9) := by
  have hgreatest : Fits greatest := by decide
  have hnegative : Fits (-9) := by decide
  obtain ⟨-, -, hcapital, -⟩ := numerals_read_back_iff hgreatest
  obtain ⟨-, -, hoctal, -⟩ := numerals_read_back_iff hnegative
  have hplus : NamesSigned "+0X7FFFFFFFFFFFFFFF".toList greatest :=
    .plus (.marked .capitalHexadecimal (by decide))
  have hminus : NamesSigned "-0o011".toList (-9) := .minus (.marked .octal (by decide))
  refine ⟨hgreatest, ?_, hnegative, ?_⟩
  · exact (hcapital [' ', '\t'] _ ['\n'] (by decide) hplus (by decide)).1.2 (by decide)
  · exact (hoctal [] _ [' '] (by decide) hminus (by decide)).1.2 (by decide)

/-- The decimal numeral of the least word. -/
theorem least_numeral_is_not_read :
    Fits least ∧ NamesSigned "-9223372036854775808".toList least ∧
      read? "-9223372036854775808" = none := by
  have hmagnitude : Names "9223372036854775808".toList 9223372036854775808 :=
    .decimal (by decide)
  exact ⟨by decide, .minus hmagnitude, by decide⟩

end Integer

end LookupEngine
