import Mathlib.Data.List.Basic
import Mathlib.Data.List.TakeWhile
import LookupEngine.Proofs.Number.Digits
import LookupEngine.Sequence.Template
/-!
# How directives are written

A directive is a percent sign, flags, perhaps a width and the letter of a conversion.  The reader
takes the longest run of flags and then the longest run of digits, so zeros in front of a width are
flags, whichever way the text is cut.  What it reads is exactly what some wording stands for.
-/

namespace LookupEngine.Sequence

open Digits

/-- What a directive is written with after its percent sign. -/
structure Wording where
  flags : List Char
  width : List Char
  conversion : Char
deriving Repr, DecidableEq

/-- Whether a character is a flag. -/
def isFlag (c : Char) : Bool := ['-', '0', '+', ' ', '#'].contains c

namespace Flags

/-- The flags that stand among some characters. -/
def among (cs : List Char) : Flags :=
  ⟨cs.contains '-', cs.contains '0', cs.contains '+', cs.contains ' ', cs.contains '#'⟩

/-- The flags that are set in one place or the other. -/
def union (flags others : Flags) : Flags :=
  ⟨flags.left || others.left, flags.zero || others.zero, flags.plus || others.plus,
    flags.space || others.space, flags.alternate || others.alternate⟩

end Flags

namespace Conversion

/-- The letters that ask for a conversion. -/
def letters : Conversion → List Char
  | decimal => ['d', 'i', 'u']
  | text => ['s']
  | lowerHex => ['x']
  | upperHex => ['X']
  | octal => ['o']

/-- The base of the digits. -/
def base : Conversion → Nat
  | decimal => 10
  | text => 10
  | lowerHex => 16
  | upperHex => 16
  | octal => 8

end Conversion

namespace Wording

/-- Everything after the percent sign. -/
def body (wording : Wording) : List Char :=
  wording.flags ++ (wording.width ++ [wording.conversion])

/-- The directive as it stands in a template. -/
def text (wording : Wording) : List Char := '%' :: wording.body

/-- Flags in any number and order, a width that is not too great, and one of seven letters. -/
structure IsValid (wording : Wording) : Prop where
  flags : ∀ c ∈ wording.flags, c ∈ ['-', '0', '+', ' ', '#']
  width : ∀ c ∈ wording.width, isDecimal c = true
  narrow : value 10 wording.width ≤ 1024
  conversion : wording.conversion ∈ ['d', 'i', 'u', 'x', 'X', 'o', 's']

/-- The zeros in front of the width, which are flags. -/
def zeros (wording : Wording) : List Char := wording.width.takeWhile (· = '0')

/-- The wording stands for the directive. -/
structure Denotes (wording : Wording) (directive : Directive) : Prop where
  valid : wording.IsValid
  flags : directive.flags = Flags.among (wording.flags ++ wording.zeros)
  width : directive.width = value 10 wording.width
  conversion : wording.conversion ∈ directive.conversion.letters

end Wording

/-- A run is taken as a whole if what follows does not go on with it. -/
theorem span_append {p : Char → Bool} {run rest : List Char} (hrun : ∀ c ∈ run, p c = true)
    (hrest : ∀ c, rest.head? = some c → p c = false) :
    (run ++ rest).takeWhile p = run ∧ (run ++ rest).dropWhile p = rest := by
  rw [List.takeWhile_append_of_pos hrun, List.dropWhile_append_of_pos hrun]
  cases rest with
  | nil => exact ⟨List.append_nil run, rfl⟩
  | cons c rest =>
    have hc := hrest c rfl
    rw [List.takeWhile_cons_of_neg (by simp [hc]), List.dropWhile_cons_of_neg (by simp [hc])]
    exact ⟨List.append_nil run, rfl⟩

namespace Flags

theorem union_among_append (flags : Flags) (cs others : List Char) :
    flags.union (among (cs ++ others)) = (flags.union (among cs)).union (among others) := by
  simp only [union, among, List.contains_append, Bool.or_assoc]

theorem union_among_nil (flags : Flags) : flags.union (among []) = flags := by
  simp [union, among]

theorem none_union (flags : Flags) : none.union flags = flags := by
  simp [union, none]

theorem set?_of_isFlag {c : Char} (h : isFlag c = true) (flags : Flags) :
    flags.set? c = some (flags.union (among [c])) := by
  simp only [isFlag, List.contains_eq_mem, decide_eq_true_eq, List.mem_cons, List.not_mem_nil,
    or_false] at h
  rcases h with rfl | rfl | rfl | rfl | rfl <;> simp [set?, union, among]

theorem set?_of_not_isFlag {c : Char} (h : isFlag c = false) (flags : Flags) :
    flags.set? c = Option.none := by
  unfold set?
  split
  · cases h
  · cases h
  · cases h
  · cases h
  · cases h
  · rfl

/-- The reader takes every flag at the start. -/
theorem read_eq (flags : Flags) (cs : List Char) :
    flags.read cs = (flags.union (among (cs.takeWhile isFlag)), cs.dropWhile isFlag) := by
  induction cs generalizing flags with
  | nil => rw [read, List.takeWhile_nil, List.dropWhile_nil, union_among_nil]
  | cons c rest ih =>
    rw [read]
    cases hc : isFlag c with
    | true =>
      rw [set?_of_isFlag hc, List.takeWhile_cons_of_pos hc, List.dropWhile_cons_of_pos hc]
      dsimp only
      rw [ih, ← union_among_append, List.singleton_append]
    | false =>
      have hnot : ¬ isFlag c = true := by rw [hc]; exact Bool.false_ne_true
      rw [set?_of_not_isFlag hc, List.takeWhile_cons_of_neg hnot, List.dropWhile_cons_of_neg hnot,
        union_among_nil]

end Flags

namespace Conversion

theorem ofChar?_eq_some_iff {c : Char} {conversion : Conversion} :
    ofChar? c = some conversion ↔ c ∈ conversion.letters := by
  constructor
  · intro h
    unfold ofChar? at h
    split at h <;> cases h <;> decide
  · intro h
    have hall : conversion.letters.all (fun letter => ofChar? letter = some conversion) = true := by
      cases conversion <;> decide
    exact of_decide_eq_true (List.all_eq_true.1 hall c h)

theorem exists_mem_letters_iff {c : Char} :
    (∃ conversion : Conversion, c ∈ conversion.letters) ↔
      c ∈ ['d', 'i', 'u', 'x', 'X', 'o', 's'] := by
  constructor
  · rintro ⟨conversion, h⟩
    have hall : conversion.letters.all (['d', 'i', 'u', 'x', 'X', 'o', 's'].contains ·) = true := by
      cases conversion <;> decide
    exact List.contains_iff_mem.1 (List.all_eq_true.1 hall c h)
  · intro h
    have hsome : ['d', 'i', 'u', 'x', 'X', 'o', 's'].all (fun c => (ofChar? c).isSome) = true := by
      decide
    obtain ⟨conversion, hconversion⟩ :=
      Option.isSome_iff_exists.1 (List.all_eq_true.1 hsome c h)
    exact ⟨conversion, ofChar?_eq_some_iff.1 hconversion⟩

end Conversion

namespace Wording

variable {wording : Wording} {directive : Directive}

theorem IsValid.exists_denotes (h : wording.IsValid) :
    ∃ directive, wording.Denotes directive := by
  obtain ⟨conversion, hconversion⟩ := Conversion.exists_mem_letters_iff.2 h.conversion
  exact ⟨⟨Flags.among (wording.flags ++ wording.zeros), value 10 wording.width, conversion⟩,
    h, rfl, rfl, hconversion⟩

/-- A conversion ends the flags and the digits before it. -/
theorem IsValid.conversion_ends (h : wording.IsValid) :
    isFlag wording.conversion = false ∧ isDecimal wording.conversion = false := by
  have hall : ['d', 'i', 'u', 'x', 'X', 'o', 's'].all
      (fun c => !isFlag c && !isDecimal c) = true := by decide
  simpa using List.all_eq_true.1 hall _ h.conversion

theorem isFlag_iff {c : Char} : isFlag c = true ↔ c ∈ ['-', '0', '+', ' ', '#'] := by
  rw [isFlag, List.contains_eq_mem, decide_eq_true_eq]

theorem isValid_iff_all :
    (wording.flags.all isFlag = true ∧ wording.width.all isDecimal = true ∧
      value 10 wording.width ≤ 1024 ∧ wording.conversion ∈ ['d', 'i', 'u', 'x', 'X', 'o', 's']) ↔
        wording.IsValid := by
  simp only [List.all_eq_true, isFlag_iff]
  exact ⟨fun ⟨hflags, hwidth, hnarrow, hconversion⟩ => ⟨hflags, hwidth, hnarrow, hconversion⟩,
    fun h => ⟨h.flags, h.width, h.narrow, h.conversion⟩⟩

instance (wording : Wording) : Decidable wording.IsValid := decidable_of_iff _ isValid_iff_all

/-- Of the digits only zero is a flag. -/
theorem isFlag_of_isDecimal {c : Char} (h : isDecimal c = true) (hzero : c ≠ '0') :
    isFlag c = false := by
  rw [← Bool.not_eq_true, isFlag_iff]
  intro hflag
  simp only [List.mem_cons, List.not_mem_nil, or_false] at hflag
  rcases hflag with rfl | rfl | rfl | rfl | rfl
  · exact absurd h (by decide)
  · exact hzero rfl
  · exact absurd h (by decide)
  · exact absurd h (by decide)
  · exact absurd h (by decide)

theorem mem_zeros {c : Char} (h : c ∈ wording.zeros) : c = '0' := by
  rw [zeros] at h
  have hzero := List.mem_takeWhile_imp h
  exact of_decide_eq_true hzero

/-- The width without the zeros in front of it. -/
def digits (wording : Wording) : List Char := wording.width.dropWhile (· = '0')

theorem zeros_append_digits (wording : Wording) : wording.zeros ++ wording.digits = wording.width :=
  List.takeWhile_append_dropWhile

theorem value_digits (wording : Wording) : value 10 wording.digits = value 10 wording.width := by
  rw [← wording.zeros_append_digits, value_zeros_append 10 fun _ => mem_zeros]

theorem IsValid.isDecimal_of_mem_digits (h : wording.IsValid) {c : Char}
    (hc : c ∈ wording.digits) : isDecimal c = true :=
  h.width c ((List.dropWhile_suffix _).mem hc)

theorem head?_digits_ne_zero {c : Char} (h : wording.digits.head? = some c) : c ≠ '0' := by
  have hnot := List.head?_dropWhile_not (fun c => decide (c = '0')) wording.width
  rw [← digits, h] at hnot
  simpa using hnot

/-- The flags and the zeros behind them are one run of flags. -/
theorem IsValid.span_flags (h : wording.IsValid) (left : List Char) :
    (wording.body ++ left).takeWhile isFlag = wording.flags ++ wording.zeros ∧
      (wording.body ++ left).dropWhile isFlag =
        wording.digits ++ wording.conversion :: left := by
  have hbody : wording.body ++ left =
      (wording.flags ++ wording.zeros) ++ (wording.digits ++ wording.conversion :: left) := by
    rw [body, ← wording.zeros_append_digits]
    simp only [List.append_assoc, List.cons_append, List.nil_append]
  rw [hbody]
  apply span_append
  · intro c hc
    rcases List.mem_append.1 hc with hflag | hzero
    · exact isFlag_iff.2 (h.flags c hflag)
    · rw [mem_zeros hzero]
      decide
  · intro c hc
    cases hdigits : wording.digits with
    | nil =>
      rw [hdigits] at hc
      obtain rfl := Option.some.inj hc
      exact h.conversion_ends.1
    | cons first rest =>
      rw [hdigits] at hc
      obtain rfl := Option.some.inj hc
      have hmem : first ∈ wording.digits := hdigits ▸ List.mem_cons_self
      have hfirst : wording.digits.head? = some first := hdigits ▸ rfl
      exact isFlag_of_isDecimal (h.isDecimal_of_mem_digits hmem) (head?_digits_ne_zero hfirst)

theorem IsValid.span_digits (h : wording.IsValid) (left : List Char) :
    (wording.digits ++ wording.conversion :: left).takeWhile isDecimal = wording.digits ∧
      (wording.digits ++ wording.conversion :: left).dropWhile isDecimal =
        wording.conversion :: left := by
  apply span_append
  · exact fun c => h.isDecimal_of_mem_digits
  · intro c hc
    obtain rfl := Option.some.inj hc
    exact h.conversion_ends.2

/-- The runs that the reader takes are a wording of what it has read. -/
theorem isValid_of_spans {cs : List Char} {c : Char}
    (hnarrow : value 10 ((cs.dropWhile isFlag).takeWhile isDecimal) ≤ 1024)
    (hconversion : ∃ conversion : Conversion, c ∈ conversion.letters) :
    (⟨cs.takeWhile isFlag, (cs.dropWhile isFlag).takeWhile isDecimal, c⟩ : Wording).IsValid where
  flags _ hc := isFlag_iff.1 (List.mem_takeWhile_imp hc)
  width _ hc := List.mem_takeWhile_imp hc
  narrow := hnarrow
  conversion := Conversion.exists_mem_letters_iff.1 hconversion

/-- After the longest run of flags there is no zero. -/
theorem zeros_of_spans (cs : List Char) (c : Char) :
    (⟨cs.takeWhile isFlag, (cs.dropWhile isFlag).takeWhile isDecimal, c⟩ : Wording).zeros = [] := by
  have hnot := List.head?_dropWhile_not isFlag cs
  rw [zeros]
  cases hrest : cs.dropWhile isFlag with
  | nil => rfl
  | cons first rest =>
    rw [hrest] at hnot
    have hzero : first ≠ '0' := by
      rintro rfl
      cases hnot
    rw [List.takeWhile_cons]
    split
    · exact List.takeWhile_cons_of_neg (by simpa using hzero)
    · rfl

end Wording

namespace Directive

open Wording

/-- The reader takes a wording of the directive and leaves the rest. -/
theorem read_eq_ok_iff {cs left : List Char} {directive : Directive} :
    read cs = .ok (directive, left) ↔
      ∃ wording : Wording, wording.Denotes directive ∧ cs = wording.body ++ left := by
  simp only [read, Flags.read_eq, Flags.none_union, widest]
  constructor
  · intro h
    split at h
    · cases h
    · next hnarrow =>
      split at h
      · cases h
      · next c rest hrest =>
        split at h
        · next conversion hconversion =>
          cases h
          rw [Conversion.ofChar?_eq_some_iff] at hconversion
          have hvalid := isValid_of_spans (Nat.le_of_not_lt hnarrow) ⟨conversion, hconversion⟩
          refine ⟨_, ⟨hvalid, ?_, rfl, hconversion⟩, ?_⟩
          · rw [zeros_of_spans, List.append_nil]
          · rw [body, List.append_assoc, List.append_assoc, List.singleton_append, ← hrest,
              List.takeWhile_append_dropWhile, List.takeWhile_append_dropWhile]
        · cases h
  · rintro ⟨wording, hdenotes, rfl⟩
    obtain ⟨hflags, hafterFlags⟩ := hdenotes.valid.span_flags left
    obtain ⟨hdigits, hafterDigits⟩ := hdenotes.valid.span_digits left
    have hnarrow : ¬ value 10 wording.digits > 1024 := by
      rw [value_digits]
      exact Nat.not_lt.2 hdenotes.valid.narrow
    have hconversion := Conversion.ofChar?_eq_some_iff.2 hdenotes.conversion
    simp only [hflags, hafterFlags, hdigits, hafterDigits, if_neg hnarrow, hconversion]
    rw [← hdenotes.flags, value_digits, ← hdenotes.width]

end Directive

end LookupEngine.Sequence
