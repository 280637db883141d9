import Mathlib.Data.List.Forall2
import LookupEngine.Lookup.Progression
import LookupEngine.Proofs.Number.Spelling
import LookupEngine.Proofs.Sequence.Grammar
/-!
# The field of a template

A template that is filled is its literal text around one field.  A field has the sign, the mark of
the base and the digits of the value in this order, and fills up to its width with spaces at either
end or with zeros before the digits.  Spaces are dropped when a field is read, and zeros in front of
digits do not change what they stand for, so each value is read back from its field, and no two
values have the same field.
-/

namespace LookupEngine.Sequence

open Digits

namespace Conversion

/-- A numeral without the mark of its base, if it has one. -/
def dropMark (conversion : Conversion) (cs : List Char) : List Char :=
  if conversion.baseMark.isPrefixOf cs then cs.drop conversion.baseMark.length else cs

/-- Reads a magnitude: digits of the base, perhaps after its mark. -/
def readMagnitude? (conversion : Conversion) (cs : List Char) : Option Nat :=
  Digits.read? conversion.base (conversion.dropMark cs)

/-- Reads a magnitude that may have a sign. -/
def readSigned? (conversion : Conversion) : List Char → Option Int
  | '-' :: cs => (conversion.readMagnitude? cs).map Int.negOfNat
  | '+' :: cs => (conversion.readMagnitude? cs).map Int.ofNat
  | cs => (conversion.readMagnitude? cs).map Int.ofNat

/-- Reads a field, whose spaces do not matter. -/
def readField? (conversion : Conversion) (field : List Char) : Option Int :=
  conversion.readSigned? (field.filter (· ≠ ' '))

end Conversion

namespace Directive

/-- The mark of the base, where the alternate form asks for it. -/
def mark (directive : Directive) : List Char :=
  if directive.flags.alternate then directive.conversion.baseMark else []

def digits (directive : Directive) (value : Int) : List Char :=
  directive.conversion.digits value.natAbs

/-- The value with nothing added for the width. -/
def bare (directive : Directive) (value : Int) : List Char :=
  sign directive.flags value ++ directive.mark ++ directive.digits value

/-- How a field is laid out: as wide as the directive asks, or wider if the value needs it, with
spaces at the end, zeros before the digits or spaces at the start. -/
structure LaysOut (directive : Directive) (value : Int) (field : List Char) : Prop where
  length : field.length = max directive.width (directive.bare value).length
  left : directive.flags.left = true →
    ∃ gap, field = directive.bare value ++ List.replicate gap ' '
  zeros : directive.flags.left = false → directive.flags.zero = true →
    directive.conversion ≠ .text →
      ∃ gap, field = sign directive.flags value ++ directive.mark ++ List.replicate gap '0' ++
        directive.digits value
  right : directive.flags.left = false →
    directive.flags.zero = false ∨ directive.conversion = .text →
      ∃ gap, field = List.replicate gap ' ' ++ directive.bare value

end Directive

namespace Conversion

theorem two_le_base (conversion : Conversion) : 2 ≤ conversion.base := by
  cases conversion <;> decide

theorem base_pos (conversion : Conversion) : 0 < conversion.base :=
  Nat.lt_of_lt_of_le Nat.zero_lt_two conversion.two_le_base

/-- The digits of every conversion are written in its base, with letters in either case. -/
theorem exists_alphabet (conversion : Conversion) :
    ∃ digit, IsAlphabet conversion.base digit ∧
      ∀ n, conversion.digits n = writeInto conversion.base digit (n + 1) n [] := by
  cases conversion with
  | decimal => exact ⟨lowerDigit, isAlphabet_lowerDigit (by decide), fun _ => rfl⟩
  | text => exact ⟨lowerDigit, isAlphabet_lowerDigit (by decide), fun _ => rfl⟩
  | lowerHex => exact ⟨lowerDigit, isAlphabet_lowerDigit (by decide), fun _ => rfl⟩
  | upperHex => exact ⟨upperDigit, isAlphabet_upperDigit (by decide), fun _ => rfl⟩
  | octal => exact ⟨lowerDigit, isAlphabet_lowerDigit (by decide), fun _ => rfl⟩

theorem isNumber_digits (conversion : Conversion) (n : Nat) :
    IsNumber conversion.base (conversion.digits n) := by
  obtain ⟨digit, halphabet, hdigits⟩ := conversion.exists_alphabet
  rw [hdigits]
  exact isNumber_writeInto halphabet conversion.base_pos n

theorem value_digits (conversion : Conversion) (n : Nat) :
    value conversion.base (conversion.digits n) = n := by
  obtain ⟨digit, halphabet, hdigits⟩ := conversion.exists_alphabet
  rw [hdigits]
  exact value_writeInto halphabet conversion.two_le_base n

theorem dropMark_append (conversion : Conversion) (cs : List Char) :
    conversion.dropMark (conversion.baseMark ++ cs) = cs := by
  rw [dropMark, if_pos (List.isPrefixOf_iff_prefix.2 (List.prefix_append _ _)), List.drop_left]

/-- Digits alone do not begin with a mark, since its letter is none of them. -/
theorem dropMark_of_isNumber {conversion : Conversion} {cs : List Char}
    (h : IsNumber conversion.base cs) : conversion.dropMark cs = cs := by
  rw [dropMark]
  split
  · next hmark =>
    obtain ⟨rest, rfl⟩ := List.isPrefixOf_iff_prefix.1 hmark
    cases conversion with
    | decimal => rfl
    | text => rfl
    | lowerHex => exact absurd (h.digits 'x' (by simp [baseMark])) (by decide)
    | upperHex => exact absurd (h.digits 'X' (by simp [baseMark])) (by decide)
    | octal => exact absurd (h.digits 'o' (by simp [baseMark])) (by decide)
  · rfl

/-- Zeros in front of digits are digits that change nothing. -/
theorem isNumber_zeros_append {base : Nat} (hbase : 0 < base) (gap : Nat) {cs : List Char}
    (h : IsNumber base cs) : IsNumber base (List.replicate gap '0' ++ cs) where
  ne_nil hnil := h.ne_nil (List.append_eq_nil_iff.1 hnil).2
  digits c hc := by
    rcases List.mem_append.1 hc with hzero | hdigit
    · rw [(List.mem_replicate.1 hzero).2]
      exact decide_eq_true hbase
    · exact h.digits c hdigit

end Conversion

namespace Directive

/-- What follows the sign when zeros fill the field up. -/
def magnitude (directive : Directive) (value : Int) (gap : Nat) : List Char :=
  directive.mark ++ (List.replicate gap '0' ++ directive.digits value)

/-- Neither a space nor a sign is part of a magnitude, so both can be told from it. -/
theorem ne_of_mem_magnitude {directive : Directive} {value : Int} {gap : Nat} {c : Char}
    (h : c ∈ directive.magnitude value gap) : c ≠ ' ' ∧ c ≠ '-' ∧ c ≠ '+' := by
  rw [magnitude, List.mem_append, List.mem_append] at h
  rcases h with hmark | hzero | hdigit
  · rw [mark] at hmark
    split at hmark
    · have hall : ∀ conversion : Conversion, ∀ c ∈ conversion.baseMark,
          c ≠ ' ' ∧ c ≠ '-' ∧ c ≠ '+' := by
        intro conversion
        cases conversion <;> simp [Conversion.baseMark]
      exact hall _ c hmark
    · cases hmark
  · rw [(List.mem_replicate.1 hzero).2]
    decide
  · have hdigitOf := (directive.conversion.isNumber_digits value.natAbs).digits c hdigit
    have hne : ∀ other, digitValue? other = none → c ≠ other := by
      rintro other hnone rfl
      rw [isDigitOf, hnone] at hdigitOf
      cases hdigitOf
    exact ⟨hne ' ' (by decide), hne '-' (by decide), hne '+' (by decide)⟩

/-- Neither the mark nor zeros change what the digits stand for. -/
theorem readMagnitude?_magnitude (directive : Directive) (value : Int) (gap : Nat) :
    directive.conversion.readMagnitude? (directive.magnitude value gap) = some value.natAbs := by
  have hnumber : IsNumber directive.conversion.base
      (List.replicate gap '0' ++ directive.digits value) :=
    Conversion.isNumber_zeros_append directive.conversion.base_pos gap
      (directive.conversion.isNumber_digits value.natAbs)
  have hvalue : Digits.value directive.conversion.base
      (List.replicate gap '0' ++ directive.digits value) = value.natAbs := by
    rw [value_zeros_append _ fun c hc => (List.mem_replicate.1 hc).2, digits,
      Conversion.value_digits]
  have hdrop : directive.conversion.dropMark (directive.magnitude value gap) =
      List.replicate gap '0' ++ directive.digits value := by
    rw [magnitude, mark]
    split
    · exact directive.conversion.dropMark_append _
    · exact Conversion.dropMark_of_isNumber hnumber
  rw [Conversion.readMagnitude?, hdrop, read?_eq_some_iff]
  exact ⟨hnumber, hvalue⟩

theorem bare_eq (directive : Directive) (value : Int) :
    directive.bare value = sign directive.flags value ++ directive.magnitude value 0 := by
  rw [bare, magnitude, List.replicate_zero, List.nil_append, List.append_assoc]

theorem zeros_or_spaces (directive : Directive) :
    (directive.flags.zero = true ∧ directive.conversion ≠ .text) ∨
      (directive.flags.zero = false ∨ directive.conversion = .text) := by
  by_cases htext : directive.conversion = .text
  · exact .inr (.inr htext)
  · cases hzero : directive.flags.zero with
    | false => exact .inr (.inl rfl)
    | true => exact .inl ⟨rfl, htext⟩

/-- How much the width asks for beyond what the value needs. -/
def gap (directive : Directive) (value : Int) : Nat :=
  directive.width - (directive.bare value).length

theorem field_of_left {directive : Directive} (hleft : directive.flags.left = true)
    (value : Int) : directive.field value =
      directive.bare value ++ List.replicate (directive.gap value) ' ' := by
  rw [field]
  exact if_pos hleft

theorem field_of_zeros {directive : Directive} (hleft : directive.flags.left = false)
    (hzeros : directive.flags.zero = true ∧ directive.conversion ≠ .text) (value : Int) :
    directive.field value = sign directive.flags value ++
      directive.magnitude value (directive.gap value) := by
  rw [magnitude, ← List.append_assoc, ← List.append_assoc, field, hleft, hzeros.1,
    decide_eq_true hzeros.2]
  rfl

theorem field_of_spaces {directive : Directive} (hleft : directive.flags.left = false)
    (hspaces : directive.flags.zero = false ∨ directive.conversion = .text) (value : Int) :
    directive.field value =
      List.replicate (directive.gap value) ' ' ++ directive.bare value := by
  have hnot : (directive.flags.zero && decide (directive.conversion ≠ .text)) = false := by
    rcases hspaces with hzero | htext
    · rw [hzero, Bool.false_and]
    · rw [htext]
      exact Bool.and_false _
  rw [bare, ← List.append_assoc, ← List.append_assoc, field, hleft, hnot]
  rfl

theorem length_field (directive : Directive) (value : Int) :
    (directive.field value).length = max directive.width (directive.bare value).length := by
  have hgap : (directive.bare value).length + directive.gap value =
      max directive.width (directive.bare value).length := by
    rw [gap]
    omega
  rw [← hgap]
  cases hleft : directive.flags.left with
  | true => rw [field_of_left hleft, List.length_append, List.length_replicate]
  | false =>
    rcases directive.zeros_or_spaces with hzeros | hspaces
    · rw [field_of_zeros hleft hzeros, bare_eq]
      simp only [magnitude, List.length_append, List.length_replicate]
      omega
    · rw [field_of_spaces hleft hspaces, List.length_append, List.length_replicate, Nat.add_comm]

theorem laysOut_field (directive : Directive) (value : Int) :
    directive.LaysOut value (directive.field value) where
  length := directive.length_field value
  left hleft := ⟨_, field_of_left hleft value⟩
  zeros hleft hzero htext := by
    refine ⟨directive.gap value, ?_⟩
    rw [field_of_zeros hleft ⟨hzero, htext⟩, magnitude, ← List.append_assoc, ← List.append_assoc]
  right hleft hspaces := ⟨_, field_of_spaces hleft hspaces value⟩

theorem filter_spaces (gap : Nat) : (List.replicate gap ' ').filter (· ≠ ' ') = [] :=
  List.filter_replicate_of_neg (by decide)

/-- Without its spaces a field is a sign and a magnitude. -/
theorem LaysOut.filter_eq {directive : Directive} {value : Int} {field : List Char}
    (h : directive.LaysOut value field) :
    ∃ gap, field.filter (· ≠ ' ') =
      (sign directive.flags value).filter (· ≠ ' ') ++ directive.magnitude value gap := by
  have hsolid (gap : Nat) : (directive.magnitude value gap).filter (· ≠ ' ') =
      directive.magnitude value gap :=
    List.filter_eq_self.2 fun c hc => decide_eq_true (ne_of_mem_magnitude hc).1
  cases hleft : directive.flags.left with
  | true =>
    obtain ⟨gap, rfl⟩ := h.left hleft
    refine ⟨0, ?_⟩
    rw [List.filter_append, bare_eq, List.filter_append, hsolid, filter_spaces, List.append_nil]
  | false =>
    rcases directive.zeros_or_spaces with hzeros | hspaces
    · obtain ⟨gap, rfl⟩ := h.zeros hleft hzeros.1 hzeros.2
      refine ⟨gap, ?_⟩
      rw [← hsolid, ← List.filter_append, magnitude, List.append_assoc, List.append_assoc]
    · obtain ⟨gap, rfl⟩ := h.right hleft hspaces
      refine ⟨0, ?_⟩
      rw [List.filter_append, bare_eq, List.filter_append, hsolid, filter_spaces, List.nil_append]

/-- A magnitude is read as the number itself, since it does not begin with a sign. -/
theorem readSigned?_magnitude (directive : Directive) (value : Int) (gap : Nat) :
    directive.conversion.readSigned? (directive.magnitude value gap) =
      some (Int.ofNat value.natAbs) := by
  have hsigns : ∀ c ∈ directive.magnitude value gap, c ≠ '-' ∧ c ≠ '+' :=
    fun c hc => (ne_of_mem_magnitude hc).2
  rw [Conversion.readSigned?, readMagnitude?_magnitude, Option.map_some]
  · exact fun cs heq => (hsigns '-' (heq ▸ List.mem_cons_self)).1 rfl
  · exact fun cs heq => (hsigns '+' (heq ▸ List.mem_cons_self)).2 rfl

/-- A space is no sign to the reader. -/
theorem filter_sign (flags : Flags) (value : Int) :
    (sign flags value).filter (· ≠ ' ') =
      if value < 0 then ['-'] else if flags.plus then ['+'] else [] := by
  rw [sign]
  split
  · rfl
  · split
    · rfl
    · split <;> rfl

theorem readSigned?_sign_append (directive : Directive) (value : Int) (gap : Nat) :
    directive.conversion.readSigned?
      ((sign directive.flags value).filter (· ≠ ' ') ++ directive.magnitude value gap) =
        some value := by
  have hmagnitude := directive.readMagnitude?_magnitude value gap
  rw [filter_sign]
  split
  · next hnegative =>
    have hvalue : Int.negOfNat value.natAbs = value := by
      rw [Int.negOfNat_eq, Int.ofNat_eq_natCast]
      omega
    rw [List.singleton_append, Conversion.readSigned?, hmagnitude, Option.map_some, hvalue]
  · next hnatural =>
    have hvalue : Int.ofNat value.natAbs = value := by
      rw [Int.ofNat_eq_natCast]
      omega
    split
    · rw [List.singleton_append, Conversion.readSigned?, hmagnitude, Option.map_some, hvalue]
    · rw [List.nil_append, readSigned?_magnitude, hvalue]

/-- A value is read back from every field that is laid out for it. -/
theorem LaysOut.readField?_eq {directive : Directive} {value : Int} {field : List Char}
    (h : directive.LaysOut value field) : directive.conversion.readField? field = some value := by
  obtain ⟨gap, hfilter⟩ := h.filter_eq
  rw [Conversion.readField?, hfilter, readSigned?_sign_append]

theorem field_injective (directive : Directive) : Function.Injective directive.field := by
  intro value other heq
  have hread := (directive.laysOut_field value).readField?_eq
  rw [heq, (directive.laysOut_field other).readField?_eq] at hread
  exact (Option.some.inj hread).symm

end Directive

namespace Template

theorem render_injective (template : Template) : Function.Injective template.render := by
  intro value other heq
  have hchars := String.ofList_injective heq
  exact template.directive.field_injective
    (List.append_cancel_left (List.append_cancel_right hchars))

/-- A text that is a template is filled with every value, its literal text around a field that is
laid out as the directive says and that the value is read back from, and different values fill it
to different texts. -/
theorem filled_field_reads_back {text : String} (h : ∃ value out, filled text value = .ok out) :
    ∃ (before after : List Char) (wording : Wording) (directive : Directive),
      wording.Denotes directive ∧
      text.toList = escape before ++ wording.text ++ escape after ∧
      (∀ value, ∃ field, filled text value = .ok (String.ofList (before ++ field ++ after)) ∧
        directive.LaysOut value field ∧ directive.conversion.readField? field = some value) ∧
      ∀ value other out, filled text value = .ok out → filled text other = .ok out →
        value = other := by
  obtain ⟨_, _, hout⟩ := h
  obtain ⟨template, hparse, -⟩ := filled_eq_ok_iff.1 hout
  obtain ⟨wording, hdenotes, htext⟩ := parse_eq_ok_iff.1 hparse
  have hfilled (value : Int) : filled text value = .ok (template.render value) :=
    filled_eq_ok_iff.2 ⟨template, hparse, rfl⟩
  refine ⟨template.before, template.after, wording, template.directive, hdenotes, htext, ?_, ?_⟩
  · intro value
    have hlayout := template.directive.laysOut_field value
    exact ⟨_, hfilled value, hlayout, hlayout.readField?_eq⟩
  · intro value other out hvalue hother
    rw [hfilled] at hvalue hother
    exact template.render_injective ((Except.ok.inj hvalue).trans (Except.ok.inj hother).symm)

/-- The magnitude of the least integer is written in full between zeros and other text. -/
theorem filled_field_reads_back_at_least :
    filled "%%%+#024x|" Integer.least = .ok "%-0x000008000000000000000|" ∧
      ∃ (before after : List Char) (wording : Wording) (directive : Directive),
        wording.Denotes directive ∧
        "%%%+#024x|".toList = escape before ++ wording.text ++ escape after ∧
        (∀ value, ∃ field,
          filled "%%%+#024x|" value = .ok (String.ofList (before ++ field ++ after)) ∧
          directive.LaysOut value field ∧ directive.conversion.readField? field = some value) ∧
        ∀ value other out, filled "%%%+#024x|" value = .ok out →
          filled "%%%+#024x|" other = .ok out → value = other := by
  have hvalid : (⟨['+', '#', '0'], ['2', '4'], 'x'⟩ : Wording).IsValid := by decide
  have hparse : parse "%%%+#024x|" =
      .ok ⟨['%'], ⟨⟨false, true, true, false, true⟩, 24, .lowerHex⟩, ['|']⟩ :=
    parse_eq_ok_iff.2 ⟨_, ⟨hvalid, rfl, rfl, by decide⟩, by decide⟩
  have hfilled : filled "%%%+#024x|" Integer.least = .ok "%-0x000008000000000000000|" :=
    filled_eq_ok_iff.2 ⟨_, hparse, by decide +kernel⟩
  exact ⟨hfilled, filled_field_reads_back ⟨_, _, hfilled⟩⟩

end Template

end LookupEngine.Sequence

namespace LookupEngine.Lookup.Progression

open Sequence

/-- A sequence with a format fills it with each of its values. -/
theorem valuesOf_eq_ok_iff_filled {spec : Spec} {format : String}
    (hformat : spec.format = some format) {values : List Value} :
    valuesOf spec = .ok values ↔
      List.Forall₂ (fun n value => ∃ out, Template.filled format n = .ok out ∧
        .string out = value) spec.values values := by
  rw [valuesOf]
  cases hvalues : spec.values with
  | nil => rw [List.forall₂_nil_left_iff, Except.ok.injEq, eq_comm]
  | cons first rest =>
    simp only [Spec.template?, hformat, Template.filled]
    cases htemplate : Template.parse format with
    | error problem =>
      simp only [Except.map, reduceCtorEq, false_and, exists_false, false_iff]
      intro hall
      cases hall with
      | cons hfirst _ => exact hfirst
    | ok template =>
      simp only [Except.map, Except.ok.injEq, exists_eq_left', ← List.forall₂_map_left_iff,
        List.forall₂_eq_eq_eq]

end LookupEngine.Lookup.Progression
