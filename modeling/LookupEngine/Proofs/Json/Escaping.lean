import LookupEngine.Json.Printer
import LookupEngine.Json.Reader
import LookupEngine.Proofs.Number.Digits
/-!
# Escaped strings

Whatever characters a string has, the grammar reads its escaped form up to the closing quote, and
the escapes stand for the characters of the string.
-/

namespace LookupEngine.Json

/-- Four hexadecimal digits are read as the number that they were written for. -/
theorem hex4_spec {n : Nat} (h : n < 0x10000) :
    ∃ a b c d, hex4 n = [a, b, c, d] ∧ unit a b c d = n ∧
      [a, b, c, d].all (Digits.isDigitOf 16) = true := by
  have hdigit : ∀ m, m % 16 < 16 := fun m => Nat.mod_lt m (by decide)
  refine ⟨_, _, _, _, rfl, ?_, ?_⟩
  · simp only [unit, Digits.value, Digits.valueFrom, Digits.digitValue?_lowerDigit (hdigit _),
      Option.getD_some]
    omega
  · have hall : ∀ m, Digits.isDigitOf 16 (Digits.lowerDigit (m % 16)) = true :=
      fun m => (Digits.isAlphabet_lowerDigit (Nat.le_refl 16)).isDigitOf (hdigit m)
    simp only [List.all_cons, List.all_nil, hall, Bool.and_self]

/-- The letters of the grammar that stand after a backslash for one character. -/
def letters : List Char := ['\x22', '\\', '/', 'b', 'f', 'n', 'r', 't']

theorem ne_of_mem_letters {c : Char} (h : letters.contains c = true) : c ≠ 'u' := by
  rintro rfl
  exact absurd h (by decide)

/-- The forms that a character has in an escaped string. -/
inductive Escaped (c : Char) : List Char → Prop
  | letter {letter : Char} (hplain : plainEscape? letter = some c)
      (hletter : letters.contains letter = true) : Escaped c ['\\', letter]
  | digits (hcontrol : c.toNat < 0x20) : Escaped c ('\\' :: 'u' :: hex4 c.toNat)
  | itself (hquote : c ≠ '\x22') (hbackslash : c ≠ '\\') (hcontrol : ¬ c.toNat < 0x20) :
      Escaped c [c]

theorem escaped_escapeChar (c : Char) : Escaped c (escapeChar c) := by
  unfold escapeChar
  by_cases hquote : c = '\x22'
  · subst hquote
    exact .letter rfl rfl
  rw [if_neg hquote]
  by_cases hbackslash : c = '\\'
  · subst hbackslash
    exact .letter rfl rfl
  rw [if_neg hbackslash]
  split
  · next h =>
    subst h
    exact .letter rfl rfl
  split
  · next h =>
    subst h
    exact .letter rfl rfl
  split
  · next h =>
    subst h
    exact .letter rfl rfl
  split
  · next h =>
    subst h
    exact .letter rfl rfl
  split
  · next h =>
    subst h
    exact .letter rfl rfl
  split
  · next h => exact .digits h
  · next h => exact .itself hquote hbackslash h

theorem quoted?_append_of_escaped {c : Char} {form : List Char} (h : Escaped c form)
    (rest : List Char) :
    quoted? (form ++ rest) = (quoted? rest).map fun (text, rest) => (form ++ text, rest) := by
  cases h with
  | @letter letter hplain hletter =>
    have hu := ne_of_mem_letters hletter
    rw [letters] at hletter
    show quoted? ('\\' :: letter :: rest) = _
    rw [quoted?, if_pos hletter]
    · rfl
    · intro a b c d rest hsame
      exact absurd hsame hu
  | digits hcontrol =>
    obtain ⟨a, b, c, d, hform, -, hdigits⟩ := hex4_spec (n := c.toNat) (by omega)
    rw [hform]
    show quoted? ('\\' :: 'u' :: a :: b :: c :: d :: rest) = _
    rw [quoted?, if_pos hdigits]
    rfl
  | itself hquote hbackslash hcontrol =>
    show quoted? (c :: rest) = _
    rw [quoted?, if_neg hquote, if_neg (not_or.2 ⟨hbackslash, hcontrol⟩)]
    · rfl
    · intro a b c d rest hsame
      exact absurd hsame hbackslash
    · intro c rest hsame
      exact absurd hsame hbackslash

/-- The grammar reads an escaped string up to the closing quote. -/
theorem quoted?_escape (cs tail : List Char) :
    quoted? (escape cs ++ '\x22' :: tail) = some (escape cs, tail) := by
  induction cs with
  | nil => rfl
  | cons c rest ih =>
    rw [escape, List.flatMap_cons, List.append_assoc,
      quoted?_append_of_escaped (escaped_escapeChar c), ← escape, ih]
    rfl

/-- A code unit that is no surrogate is a character, whatever follows it. -/
theorem unescape?_unit {a b c d : Char} (hleading : isLeading (unit a b c d) = false)
    (htrailing : isTrailing (unit a b c d) = false) (rest : List Char) :
    unescape? ('\\' :: 'u' :: a :: b :: c :: d :: rest) =
      (unescape? rest).map fun text => Char.ofNat (unit a b c d) :: text := by
  rw [unescape?.eq_def]
  split
  · next h => cases h
  · next h =>
    cases h
    simp only [hleading, htrailing, Bool.false_eq_true, if_false]
  · next h =>
    cases h
    simp only [hleading, htrailing, Bool.or_self, Bool.false_eq_true, if_false]
  · next hunit h =>
    cases h
    exact (hunit _ _ _ _ _ rfl rfl).elim
  · next hunit h =>
    cases h
    exact (hunit _ _ rfl rfl).elim

theorem unescape?_append_of_escaped {c : Char} {form : List Char} (h : Escaped c form)
    (rest : List Char) :
    unescape? (form ++ rest) = (unescape? rest).map fun text => c :: text := by
  cases h with
  | @letter letter hplain hletter =>
    have hu := ne_of_mem_letters hletter
    show unescape? ('\\' :: letter :: rest) = _
    rw [unescape?, hplain]
    · intro a b c d e f g h rest hsame
      exact absurd hsame hu
    · intro a b c d rest hsame
      exact absurd hsame hu
  | digits hcontrol =>
    obtain ⟨a, b, c', d, hform, hunit, -⟩ := hex4_spec (n := c.toNat) (by omega)
    rw [hform]
    have hleading : isLeading c.toNat = false := by
      rw [isLeading, Bool.and_eq_false_iff]
      exact .inl (decide_eq_false (by omega))
    have htrailing : isTrailing c.toNat = false := by
      rw [isTrailing, Bool.and_eq_false_iff]
      exact .inl (decide_eq_false (by omega))
    have hread := unescape?_unit (hunit ▸ hleading) (hunit ▸ htrailing) rest
    rwa [hunit, Char.ofNat_toNat] at hread
  | itself hquote hbackslash hcontrol =>
    show unescape? (c :: rest) = _
    rw [unescape?]
    · intro a b c d e f g h rest hsame
      exact absurd hsame hbackslash
    · intro a b c d rest hsame
      exact absurd hsame hbackslash
    · intro c rest hsame
      exact absurd hsame hbackslash

/-- The escapes of a string stand for its characters. -/
theorem unescape?_escape (cs : List Char) : unescape? (escape cs) = some cs := by
  induction cs with
  | nil => rfl
  | cons c rest ih =>
    rw [escape, List.flatMap_cons, unescape?_append_of_escaped (escaped_escapeChar c), ← escape,
      ih]
    rfl

theorem text?_escape (s : String) : text? (escape s.toList) = some s := by
  rw [text?, unescape?_escape, Option.map_some, String.ofList_toList]

end LookupEngine.Json
