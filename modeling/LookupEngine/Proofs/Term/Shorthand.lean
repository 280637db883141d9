import LookupEngine.Proofs.Number.Spelling
import LookupEngine.Proofs.Term.Writing
import LookupEngine.Term.Range
/-!
# The grammar of the range shorthand

A shorthand is written `[start-]end[/stride][:format]`.  Only a stride has a sign and only a format
holds other characters than numerals do, so each mark is the first of its kind in what is left of
the text.  The reader cuts the text there.  It accepts exactly the texts of the grammar, and no
text has the form of the grammar in two ways.
-/

namespace LookupEngine

namespace Text

variable {mark : Char} {cs before after : List Char}

/-- A part that may be missing, and the mark behind it. -/
def leading (mark : Char) : Option (List Char) → List Char
  | none => []
  | some part => part ++ [mark]

/-- A part that may be missing, and the mark before it. -/
def following (mark : Char) : Option (List Char) → List Char
  | none => []
  | some part => mark :: part

/-- A text is cut at its first mark in one way only. -/
theorem append_following_inj {other : List Char} {part back : Option (List Char)}
    (hbefore : mark ∉ before) (hother : mark ∉ other)
    (h : before ++ following mark part = other ++ following mark back) :
    before = other ∧ part = back := by
  have hcut : ∀ {front : List Char} {rest : Option (List Char)}, mark ∉ front →
      splitOnce mark (front ++ following mark rest) = rest.map fun after => (front, after) := by
    intro front rest hfront
    cases rest with
    | none => rwa [following, List.append_nil, Option.map_none, splitOnce_eq_none_iff]
    | some after => exact splitOnce_append hfront after
  have hsame := (hcut hbefore).symm.trans ((congrArg (splitOnce mark) h).trans (hcut hother))
  cases part with
  | none =>
    cases back with
    | none => simpa [following] using h
    | some after => cases hsame
  | some after =>
    cases back with
    | none => cases hsame
    | some rest =>
      obtain ⟨rfl, rfl⟩ := Prod.mk.inj (Option.some.inj hsame)
      exact ⟨rfl, rfl⟩

/-- A mark between a part that may be missing and one that may not is the first of its kind in
either case. -/
theorem leading_append (mark : Char) (part : Option (List Char)) (cs : List Char) :
    leading mark part ++ cs = part.getD cs ++ following mark (part.map fun _ => cs) := by
  cases part with
  | none => exact (List.append_nil cs).symm
  | some front => exact List.append_assoc front [mark] cs

theorem not_mem_getD {part : Option (List Char)} (hpart : ∀ front ∈ part, mark ∉ front)
    (hcs : mark ∉ cs) : mark ∉ part.getD cs := by
  cases part with
  | none => exact hcs
  | some front => exact hpart front rfl

theorem leading_append_inj {part other : Option (List Char)} {rest : List Char}
    (hpart : ∀ front ∈ part, mark ∉ front) (hother : ∀ front ∈ other, mark ∉ front)
    (hcs : mark ∉ cs) (hrest : mark ∉ rest)
    (h : leading mark part ++ cs = leading mark other ++ rest) : part = other ∧ cs = rest := by
  rw [leading_append, leading_append] at h
  obtain ⟨hfront, hback⟩ := append_following_inj (not_mem_getD hpart hcs)
    (not_mem_getD hother hrest) h
  cases part with
  | none =>
    cases other with
    | none => exact ⟨rfl, hfront⟩
    | some back => cases hback
  | some front =>
    cases other with
    | none => cases hback
    | some back => exact ⟨congrArg some hfront, Option.some.inj hback⟩

end Text

namespace Range

open Integer Text

/-- What stands between the marks of a shorthand. -/
structure Parts where
  start : Option (List Char)
  last : List Char
  stride : Option (List Char)
  format : Option (List Char)
deriving Repr, DecidableEq

namespace Parts

/-- The bounds with the mark between them. -/
def bounds (parts : Parts) : List Char := leading '-' parts.start ++ parts.last

/-- Everything that stands before the format. -/
def numbers (parts : Parts) : List Char := parts.bounds ++ following '/' parts.stride

/-- The whole shorthand. -/
def text (parts : Parts) : List Char := parts.numbers ++ following ':' parts.format

end Parts

/-- A text that can be a format: there is something in it, and it is one line. -/
def IsFormat (cs : List Char) (format : String) : Prop :=
  cs ≠ [] ∧ '\n' ∉ cs ∧ String.ofList cs = format

/-- The parts stand for the fields of a range, and a part is missing where its field is. -/
structure Parts.Denotes (parts : Parts) (range : Range) : Prop where
  start : Option.Rel Spells parts.start range.start
  last : Spells parts.last range.last
  stride : Option.Rel SpellsSigned parts.stride range.stride
  format : Option.Rel IsFormat parts.format range.format

theorem isNumeral_iff {cs : List Char} :
    isNumeral cs = true ↔ Digits.IsNumber 16 (digitsOf cs) := Digits.isNumber_iff_all

theorem digitsOf_of_marks {mark : Char} {base : Nat} (hmark : Marks mark base)
    (digits : List Char) : digitsOf ('0' :: mark :: digits) = digits := by
  cases hmark <;> rfl

theorem digitsOf_of_not_isMarked {cs : List Char} (h : ¬ IsMarked cs) : digitsOf cs = cs := by
  unfold digitsOf
  split
  · next c rest =>
    rw [if_neg]
    rintro (rfl | rfl | rfl | rfl)
    · exact h ⟨_, _, _, .hexadecimal, rfl⟩
    · exact h ⟨_, _, _, .capitalHexadecimal, rfl⟩
    · exact h ⟨_, _, _, .octal, rfl⟩
    · exact h ⟨_, _, _, .capitalOctal, rfl⟩
  · rfl

theorem head_digit_of_isNumeral {cs : List Char} (h : isNumeral cs = true) :
    ∀ c, cs.head? = some c → Digits.isDigitOf 16 c = true := by
  rw [isNumeral_iff] at h
  intro c hc
  by_cases hmarked : IsMarked cs
  · obtain ⟨mark, base, digits, hmark, rfl⟩ := hmarked
    obtain rfl := Option.some.inj hc
    decide
  · rw [digitsOf_of_not_isMarked hmarked] at h
    exact h.digits c (List.mem_of_mem_head? hc)

/-- A numeral has the form of one, which is generous with digits, and it is read as a number,
which is strict with them but would let a sign stand after the mark of a base. -/
theorem spells_iff {cs : List Char} {n : Int} :
    Spells cs n ↔ isNumeral cs = true ∧ readMagnitude? cs = some n := by
  rw [isNumeral_iff]
  constructor
  · intro h
    refine ⟨?_, h.readMagnitude?⟩
    cases h with
    | decimal hdigits _ =>
      have hnumber := hdigits.mono (show 10 ≤ 16 by decide)
      rwa [digitsOf_of_not_isMarked (not_isMarked_of_isNumber hnumber)]
    | marked hmark hdigits _ =>
      rw [digitsOf_of_marks hmark]
      exact hdigits.mono hmark.base_le
  · rintro ⟨hform, hread⟩
    by_cases hmarked : IsMarked cs
    · obtain ⟨mark, base, digits, hmark, rfl⟩ := hmarked
      rw [digitsOf_of_marks hmark] at hform
      rw [readMagnitude?_of_marks hmark, readSigned?_of_digits hform.digits] at hread
      obtain ⟨hdigits, hword, rfl⟩ := bind_checked_eq_some_iff.1 hread
      exact .marked hmark hdigits hword
    · rw [readMagnitude?_of_not_isMarked hmarked] at hread
      obtain ⟨hdigits, hword, rfl⟩ := bind_checked_eq_some_iff.1 hread
      exact .decimal hdigits hword

theorem bound?_eq_some_iff {cs : List Char} {n : Int} : bound? cs = some n ↔ Spells cs n := by
  rw [bound?, spells_iff]
  split
  · next hform =>
    rw [readChars?_of_head_digit (head_digit_of_isNumeral hform), and_iff_right hform]
  · next hform => simp only [reduceCtorEq, hform, false_and]

theorem stride?_eq_some_iff {cs : List Char} {n : Int} :
    stride? cs = some n ↔ SpellsSigned cs n := by
  constructor
  · intro h
    unfold stride? at h
    split at h
    · next rest =>
      split at h
      · next hform =>
        obtain ⟨m, hread, rfl⟩ := Option.map_eq_some_iff.1 h
        have hspells := spells_iff.2 ⟨hform, hread⟩
        rw [negate_of_nonneg hspells.nonneg]
        exact .minus hspells
      · cases h
    · exact .plain (bound?_eq_some_iff.1 h)
  · intro h
    have hread := h.readChars?
    cases h with
    | plain h =>
      unfold stride?
      split
      · exact absurd (h.head_digit rfl) (by decide)
      · exact bound?_eq_some_iff.2 h
    | minus h => rw [stride?, if_pos (spells_iff.1 h).1, hread]

section

variable {cs : List Char} {start stride : Option Int} {last : Int}

theorem not_mem_of_spells {n : Int} (h : Spells cs n) (mark : Char)
    (hmark : mark ∈ ['-', '/', ':']) : mark ∉ cs := by
  intro hmem
  have hmade := h.digit_or_mark hmem
  simp only [List.mem_cons, List.not_mem_nil, or_false] at hmark
  rcases hmark with rfl | rfl | rfl <;> exact absurd hmade (by decide)

theorem not_mem_of_spellsSigned {n : Int} (h : SpellsSigned cs n) (mark : Char)
    (hmark : mark ∈ ['/', ':']) : mark ∉ cs := by
  have hplain : mark ∈ ['-', '/', ':'] := List.mem_cons_of_mem _ hmark
  cases h with
  | plain h => exact not_mem_of_spells h mark hplain
  | minus h =>
    refine List.not_mem_cons_of_ne_of_not_mem ?_ (not_mem_of_spells h mark hplain)
    rintro rfl
    exact absurd hmark (by decide)

theorem bounds?_eq_some_iff :
    bounds? cs = some (start, last) ↔
      ∃ first second, Option.Rel Spells first start ∧ Spells second last ∧
        cs = leading '-' first ++ second := by
  rw [bounds?]
  constructor
  · intro h
    split at h
    · obtain ⟨n, hbound, heq⟩ := Option.map_eq_some_iff.1 h
      cases heq
      exact ⟨none, cs, .none, bound?_eq_some_iff.1 hbound, rfl⟩
    · next first second hsplit =>
      split at h
      · next hfirst hsecond =>
        cases h
        refine ⟨some first, second, .some (bound?_eq_some_iff.1 hfirst),
          bound?_eq_some_iff.1 hsecond, ?_⟩
        rw [splitOnce_eq_some hsplit, leading, List.append_assoc, List.singleton_append]
      · cases h
  · rintro ⟨first, second, hfirst, hsecond, rfl⟩
    cases hfirst with
    | none =>
      have hnone := splitOnce_eq_none_iff.2 (not_mem_of_spells hsecond '-' (by decide))
      simp only [leading, List.nil_append, hnone, bound?_eq_some_iff.2 hsecond, Option.map_some]
    | some hfirst =>
      have hmark := not_mem_of_spells hfirst '-' (by decide)
      simp only [leading, List.append_assoc, List.singleton_append, splitOnce_append hmark,
        bound?_eq_some_iff.2 hfirst, bound?_eq_some_iff.2 hsecond]

theorem not_mem_of_bounds? (h : bounds? cs = some (start, last)) (mark : Char)
    (hmark : mark ∈ ['/', ':']) : mark ∉ cs := by
  obtain ⟨first, second, hfirst, hsecond, rfl⟩ := bounds?_eq_some_iff.1 h
  have hplain : mark ∈ ['-', '/', ':'] := List.mem_cons_of_mem _ hmark
  rw [List.mem_append, not_or]
  refine ⟨?_, not_mem_of_spells hsecond mark hplain⟩
  cases hfirst with
  | none => exact List.not_mem_nil
  | some hfirst =>
    rw [leading, List.mem_append, List.mem_singleton, not_or]
    refine ⟨not_mem_of_spells hfirst mark hplain, ?_⟩
    rintro rfl
    exact absurd hmark (by decide)

theorem numbers?_eq_some_iff :
    numbers? cs = some (start, last, stride) ↔
      ∃ front part, bounds? front = some (start, last) ∧ Option.Rel SpellsSigned part stride ∧
        cs = front ++ following '/' part := by
  rw [numbers?]
  constructor
  · intro h
    split at h
    · obtain ⟨⟨first, second⟩, hbounds, heq⟩ := Option.map_eq_some_iff.1 h
      cases heq
      exact ⟨cs, none, hbounds, .none, (List.append_nil cs).symm⟩
    · next front part hsplit =>
      split at h
      · next hbounds hstride =>
        cases h
        exact ⟨front, some part, hbounds, .some (stride?_eq_some_iff.1 hstride),
          splitOnce_eq_some hsplit⟩
      · cases h
  · rintro ⟨front, part, hbounds, hpart, rfl⟩
    have hmark := not_mem_of_bounds? hbounds '/' (by decide)
    cases hpart with
    | none =>
      simp only [following, List.append_nil, splitOnce_eq_none_iff.2 hmark, hbounds,
        Option.map_some]
    | some hpart =>
      simp only [following, splitOnce_append hmark, hbounds, stride?_eq_some_iff.2 hpart]

theorem not_mem_of_numbers? (h : numbers? cs = some (start, last, stride)) : ':' ∉ cs := by
  obtain ⟨front, part, hbounds, hpart, rfl⟩ := numbers?_eq_some_iff.1 h
  rw [List.mem_append, not_or]
  refine ⟨not_mem_of_bounds? hbounds ':' (by decide), ?_⟩
  cases hpart with
  | none => exact List.not_mem_nil
  | some hpart =>
    exact List.not_mem_cons_of_ne_of_not_mem (by decide)
      (not_mem_of_spellsSigned hpart ':' (by decide))

end

theorem isFormat_iff {cs : List Char} {format : String} :
    IsFormat cs format ↔
      (cs.isEmpty || cs.contains '\n') = false ∧ String.ofList cs = format := by
  simp only [IsFormat, Bool.or_eq_false_iff, List.isEmpty_eq_false_iff, List.contains_eq_mem,
    decide_eq_false_iff_not, and_assoc]

theorem parseChars?_eq_some_iff {cs : List Char} {range : Range} :
    parseChars? cs = some range ↔
      ∃ front part, numbers? front = some (range.start, range.last, range.stride) ∧
        Option.Rel IsFormat part range.format ∧ cs = front ++ following ':' part := by
  obtain ⟨start, last, stride, format⟩ := range
  rw [parseChars?]
  constructor
  · intro h
    split at h
    · obtain ⟨⟨first, second, third⟩, hnumbers, heq⟩ := Option.map_eq_some_iff.1 h
      cases heq
      exact ⟨cs, none, hnumbers, .none, (List.append_nil cs).symm⟩
    · next front part hsplit =>
      split at h
      · cases h
      · next hfine =>
        obtain ⟨⟨first, second, third⟩, hnumbers, heq⟩ := Option.map_eq_some_iff.1 h
        cases heq
        have hformat := isFormat_iff.2 ⟨Bool.eq_false_of_not_eq_true hfine, rfl⟩
        exact ⟨front, some part, hnumbers, .some hformat, splitOnce_eq_some hsplit⟩
  · rintro ⟨front, part, hnumbers, hpart, rfl⟩
    have hmark := not_mem_of_numbers? hnumbers
    cases hpart with
    | none =>
      simp only [following, List.append_nil, splitOnce_eq_none_iff.2 hmark, hnumbers,
        Option.map_some]
    | some hpart =>
      obtain ⟨hfine, rfl⟩ := isFormat_iff.1 hpart
      simp only [following, splitOnce_append hmark, hfine, Bool.false_eq_true, if_false, hnumbers,
        Option.map_some]

namespace Parts

variable {parts other : Parts} {range found : Range}

theorem Denotes.bounds? (h : parts.Denotes range) :
    bounds? parts.bounds = some (range.start, range.last) :=
  bounds?_eq_some_iff.2 ⟨_, _, h.start, h.last, rfl⟩

theorem Denotes.numbers? (h : parts.Denotes range) :
    numbers? parts.numbers = some (range.start, range.last, range.stride) :=
  numbers?_eq_some_iff.2 ⟨_, _, h.bounds?, h.stride, rfl⟩

theorem Denotes.parseChars? (h : parts.Denotes range) : parseChars? parts.text = some range :=
  parseChars?_eq_some_iff.2 ⟨_, _, h.numbers?, h.format, rfl⟩

/-- What is read was written from parts. -/
theorem exists_denotes {cs : List Char} (h : Range.parseChars? cs = some range) :
    ∃ parts : Parts, parts.Denotes range ∧ parts.text = cs := by
  obtain ⟨front, format, hnumbers, hformat, rfl⟩ := parseChars?_eq_some_iff.1 h
  obtain ⟨front, stride, hbounds, hstride, rfl⟩ := numbers?_eq_some_iff.1 hnumbers
  obtain ⟨start, last, hstart, hlast, rfl⟩ := bounds?_eq_some_iff.1 hbounds
  exact ⟨⟨start, last, stride, format⟩, ⟨hstart, hlast, hstride, hformat⟩, rfl⟩

theorem Denotes.not_mem_start (h : parts.Denotes range) : ∀ front ∈ parts.start, '-' ∉ front := by
  have hrel : ∀ {part : Option (List Char)} {n : Option Int}, Option.Rel Spells part n →
      ∀ front ∈ part, '-' ∉ front := by
    rintro _ _ (hspells | _) front ⟨⟩
    exact not_mem_of_spells hspells '-' (by decide)
  exact hrel h.start

/-- The marks of a shorthand show what its parts are. -/
theorem Denotes.eq_of_text_eq (h : parts.Denotes range) (hother : other.Denotes found)
    (htext : parts.text = other.text) : parts = other := by
  -- The format is cut off first, since it may hold the other marks as well.
  obtain ⟨hnumbers, hformat⟩ := append_following_inj (not_mem_of_numbers? h.numbers?)
    (not_mem_of_numbers? hother.numbers?) htext
  obtain ⟨hbounds, hstride⟩ := append_following_inj
    (not_mem_of_bounds? h.bounds? '/' (by decide))
    (not_mem_of_bounds? hother.bounds? '/' (by decide)) hnumbers
  obtain ⟨hstart, hlast⟩ := leading_append_inj h.not_mem_start hother.not_mem_start
    (not_mem_of_spells h.last '-' (by decide)) (not_mem_of_spells hother.last '-' (by decide))
    hbounds
  cases parts
  cases other
  exact (Parts.mk.injEq ..).mpr ⟨hstart, hlast, hstride, hformat⟩

/-- A field that a part stands for is a word if every such number is one. -/
theorem fits_of_rel {r : List Char → Int → Prop} (hr : ∀ {cs n}, r cs n → Fits n)
    {part : Option (List Char)} {field : Option Int} (h : Option.Rel r part field) :
    ∀ n ∈ field, Fits n := by
  rintro n hn
  cases h with
  | none => cases hn
  | some hrel =>
    cases hn
    exact hr hrel

end Parts

/-- The numbers of a range are words. -/
structure InWords (range : Range) : Prop where
  start : ∀ n ∈ range.start, Fits n
  last : Fits range.last
  stride : ∀ n ∈ range.stride, Fits n

theorem Parts.Denotes.inWords {parts : Parts} {range : Range} (h : parts.Denotes range) :
    range.InWords where
  start := fits_of_rel Spells.fits h.start
  last := h.last.fits
  stride := fits_of_rel SpellsSigned.fits h.stride

/-- The parts of the decimal form of a range. -/
def decimalParts (range : Range) : Parts where
  start := range.start.map writeChars
  last := writeChars range.last
  stride := range.stride.map writeChars
  format := range.format.map String.toList

/-- The shorthand that gives the fields of a range in decimal. -/
def write (range : Range) : String := String.ofList range.decimalParts.text

example : write ⟨some 4, 16, some (-2), some "host%02d"⟩ = "4-16/-2:host%02d" := by decide

/-- A range that has a shorthand: its bounds are not negative, its stride is not the least word,
and its format is a line with something in it. -/
structure IsWritable (range : Range) : Prop where
  start : ∀ n ∈ range.start, 0 ≤ n ∧ n ≤ greatest
  last : 0 ≤ range.last ∧ range.last ≤ greatest
  stride : ∀ n ∈ range.stride, HasDecimal n
  format : ∀ format ∈ range.format, format ≠ "" ∧ '\n' ∉ format.toList

theorem rel_map_of_forall {α β : Type} {r : α → β → Prop} {f : β → α} {value : Option β}
    (h : ∀ b ∈ value, r (f b) b) : Option.Rel r (value.map f) value := by
  cases value with
  | none => exact .none
  | some b => exact .some (h b rfl)

theorem IsWritable.denotes {range : Range} (h : range.IsWritable) :
    range.decimalParts.Denotes range where
  start := rel_map_of_forall fun n hn => spells_writeChars (h.start n hn).1 (h.start n hn).2
  last := spells_writeChars h.last.1 h.last.2
  stride := rel_map_of_forall fun n hn => spellsSigned_writeChars (h.stride n hn)
  format := rel_map_of_forall fun format hformat => by
    obtain ⟨hne, hline⟩ := h.format format hformat
    exact ⟨by simpa using hne, hline, String.ofList_toList⟩

/-- A word is a range shorthand exactly where it has the parts of one, and then it says what its
parts stand for.  It has them in one way, so the decimal form of a range is read back. -/
theorem parse?_iff_shorthand :
    (∀ (token : String) (range : Range), parse? token = some range ↔
      ∃ parts : Parts, parts.Denotes range ∧ parts.text = token.toList) ∧
    (∀ (parts other : Parts) (range found : Range), parts.Denotes range → other.Denotes found →
      parts.text = other.text → parts = other ∧ range = found) ∧
    ∀ range : Range, range.IsWritable → parse? (write range) = some range := by
  refine ⟨fun token range => ⟨Parts.exists_denotes, ?_⟩, ?_, ?_⟩
  · rintro ⟨parts, hdenotes, htext⟩
    rw [parse?, ← htext]
    exact hdenotes.parseChars?
  · intro parts other range found h hother htext
    refine ⟨h.eq_of_text_eq hother htext, ?_⟩
    have hsame := h.parseChars?.symm.trans (htext ▸ hother.parseChars?)
    exact Option.some.inj hsame
  · intro range hrange
    rw [parse?, write, String.toList_ofList]
    exact hrange.denotes.parseChars?

/-- Bounds in two bases, a stride that goes back, and a format that holds every mark. -/
def mixed : Range := ⟨some 10, 16, some (-3), some "h-%d/:"⟩

def mixedParts : Parts :=
  ⟨some ['0', 'x', '0', 'a'], ['0', 'O', '2', '0'], some ['-', '0', '3'],
    some ['h', '-', '%', 'd', '/', ':']⟩

theorem parse?_iff_shorthand_mixed :
    mixedParts.Denotes mixed ∧ parse? "0x0a-0O20/-03:h-%d/:" = some mixed ∧ mixed.IsWritable ∧
      parse? (write mixed) = some mixed := by
  have hdenotes : mixedParts.Denotes mixed := by
    refine ⟨.some ?_, ?_, .some (.minus ?_), .some ⟨by decide, by decide, by decide⟩⟩
    · exact Spells.marked .hexadecimal (by decide) (by decide)
    · exact Spells.marked .capitalOctal (by decide) (by decide)
    · exact Spells.decimal (by decide) (by decide)
  have hwritable : mixed.IsWritable := by
    refine ⟨?_, by decide, ?_, ?_⟩
    · rintro n ⟨⟩
      decide
    · rintro n ⟨⟩
      decide
    · rintro format ⟨⟩
      decide
  obtain ⟨hgrammar, -, hwritten⟩ := parse?_iff_shorthand
  exact ⟨hdenotes, (hgrammar _ _).2 ⟨mixedParts, hdenotes, by decide⟩, hwritable,
    hwritten mixed hwritable⟩

end Range

theorem Term.inWords_of_range? {term : Term} {range : Range} (h : term.range? = some range) :
    range.InWords := by
  rw [Term.range?] at h
  split at h
  · cases h
  · obtain ⟨token, -, hparse⟩ := Option.bind_eq_some_iff.1 h
    obtain ⟨parts, hdenotes, -⟩ := Range.Parts.exists_denotes hparse
    exact hdenotes.inWords

end LookupEngine
