import LookupEngine.Number.Integer
/-!
# Templates for one integer

A template is literal text around exactly one directive: `%`, flags, an optional
width and a conversion.  `%%` is a literal percent sign.  Whether a text is a
template does not depend on the value, so reading one and filling it are two
functions.
-/

namespace LookupEngine.Sequence

/-- The base in which a directive writes the value, and what stands for the base. -/
inductive Conversion where
  | decimal
  | text
  | lowerHex
  | upperHex
  | octal
deriving Repr, DecidableEq

structure Flags where
  left : Bool
  zero : Bool
  plus : Bool
  space : Bool
  alternate : Bool
deriving Repr, DecidableEq

structure Directive where
  flags : Flags
  width : Nat
  conversion : Conversion
deriving Repr, DecidableEq

/-- One part of a template. -/
inductive Piece where
  | literal (c : Char)
  | field (directive : Directive)
deriving Repr, DecidableEq

/-- Literal text around one directive. -/
structure Template where
  before : List Char
  directive : Directive
  after : List Char
deriving Repr, DecidableEq

/-- Why a text is no template. -/
inductive TemplateProblem where
  | widthTooLarge (width : Nat)
  | incomplete
  | unsupported (conversion : Char)
  | noConversion
  | severalConversions
deriving Repr, DecidableEq

namespace TemplateProblem

/-- What is wrong with `template`. -/
def message (template : String) : TemplateProblem → String
  | widthTooLarge width => s!"field width {width} too large in '{template}'"
  | incomplete => s!"incomplete format directive in '{template}'"
  | unsupported conversion => s!"unsupported conversion '%{conversion}' in '{template}'"
  | noConversion => s!"format '{template}' has no conversion for the value"
  | severalConversions => s!"format '{template}' has more than one conversion"

end TemplateProblem

namespace Conversion

def ofChar? : Char → Option Conversion
  | 'd' => some decimal
  | 'i' => some decimal
  | 'u' => some decimal
  | 's' => some text
  | 'x' => some lowerHex
  | 'X' => some upperHex
  | 'o' => some octal
  | _ => none

/-- The digits of a magnitude. -/
def digits : Conversion → Nat → List Char
  | decimal, n => Digits.write 10 n
  | text, n => Digits.write 10 n
  | lowerHex, n => Digits.write 16 n
  | upperHex, n => Digits.writeUpper 16 n
  | octal, n => Digits.write 8 n

/-- What stands for the base under the alternate form. -/
def baseMark : Conversion → List Char
  | decimal => []
  | text => []
  | lowerHex => ['0', 'x']
  | upperHex => ['0', 'X']
  | octal => ['0', 'o']

end Conversion

namespace Flags

def none : Flags := ⟨false, false, false, false, false⟩

/-- Sets the flag that a character stands for. -/
def set? (flags : Flags) : Char → Option Flags
  | '-' => some { flags with left := true }
  | '0' => some { flags with zero := true }
  | '+' => some { flags with plus := true }
  | ' ' => some { flags with space := true }
  | '#' => some { flags with alternate := true }
  | _ => Option.none

/-- Reads flags as long as there are any. -/
def read (flags : Flags) : List Char → Flags × List Char
  | [] => (flags, [])
  | c :: rest =>
    match flags.set? c with
    | some flags => read flags rest
    | Option.none => (flags, c :: rest)

theorem length_read (flags : Flags) (cs : List Char) : (read flags cs).2.length ≤ cs.length := by
  induction cs generalizing flags with
  | nil => simp [read]
  | cons c rest ih =>
    unfold read
    split
    · next flags' _ => exact Nat.le_succ_of_le (ih flags')
    · simp

end Flags

namespace Directive

/-- The widest field a directive may ask for. -/
def widest : Nat := 1024

/-- Reads what follows the percent sign of a directive. -/
def read (cs : List Char) : Except TemplateProblem (Directive × List Char) :=
  let (flags, cs) := Flags.none.read cs
  let width := Digits.value 10 (cs.takeWhile Digits.isDecimal)
  if width > widest then .error (.widthTooLarge (min width Integer.greatestUnsigned))
  else
    match cs.dropWhile Digits.isDecimal with
    | [] => .error .incomplete
    | c :: rest =>
      match Conversion.ofChar? c with
      | some conversion => .ok (⟨flags, width, conversion⟩, rest)
      | none => .error (.unsupported c)

theorem length_read {cs rest : List Char} {directive : Directive}
    (h : read cs = .ok (directive, rest)) : rest.length < cs.length := by
  have hf := Flags.length_read Flags.none cs
  unfold read at h
  have hd : ∀ l : List Char, (l.dropWhile Digits.isDecimal).length ≤ l.length := by
    intro l
    induction l with
    | nil => simp
    | cons a l ih =>
      rw [List.dropWhile_cons]
      split
      · simp only [List.length_cons]; omega
      · simp
  revert h
  generalize Flags.none.read cs = flagged at hf
  obtain ⟨flags, left⟩ := flagged
  simp only at hf ⊢
  have hl := hd left
  intro h
  split at h
  · simp at h
  · split at h
    · simp at h
    · next c r hr =>
      rw [hr] at hl
      simp only [List.length_cons] at hl
      split at h
      · simp only [Except.ok.injEq, Prod.mk.injEq] at h
        obtain ⟨_, rfl⟩ := h
        omega
      · simp at h

/-- What stands before the digits: the sign and the mark of the base. -/
def sign (flags : Flags) (value : Int) : List Char :=
  if value < 0 then ['-'] else if flags.plus then ['+'] else if flags.space then [' '] else []

/-- Writes `value`, at least as wide as the directive asks. -/
def field (directive : Directive) (value : Int) : List Char :=
  let flags := directive.flags
  let front := sign flags value
  let mark := if flags.alternate then directive.conversion.baseMark else []
  let digits := directive.conversion.digits value.natAbs
  let gap := directive.width - (front ++ mark ++ digits).length
  if flags.left then front ++ mark ++ digits ++ List.replicate gap ' '
  else if flags.zero && directive.conversion ≠ .text then
    front ++ mark ++ List.replicate gap '0' ++ digits
  else List.replicate gap ' ' ++ front ++ mark ++ digits

end Directive

namespace Template

/-- The parts of a text in order. -/
def pieces (cs : List Char) : Except TemplateProblem (List Piece) :=
  match cs with
  | [] => .ok []
  | '%' :: '%' :: rest => (pieces rest).map (.literal '%' :: ·)
  | '%' :: rest =>
    match h : Directive.read rest with
    | .error problem => .error problem
    | .ok (directive, left) =>
      have := Directive.length_read h
      (pieces left).map (.field directive :: ·)
  | c :: rest => (pieces rest).map (.literal c :: ·)
termination_by cs.length
decreasing_by all_goals simp_wf <;> omega

/-- Some parts with exactly one directive among them. -/
def ofPieces (literal : List Char) : List Piece → Except TemplateProblem Template
  | [] => .error .noConversion
  | .literal c :: rest => ofPieces (literal ++ [c]) rest
  | .field directive :: rest => (after rest).map fun tail => ⟨literal, directive, tail⟩
where
  after : List Piece → Except TemplateProblem (List Char)
    | [] => .ok []
    | .literal c :: rest => (after rest).map (c :: ·)
    | .field _ :: _ => .error .severalConversions

/-- Reads a template. -/
def parse (text : String) : Except TemplateProblem Template :=
  (pieces text.toList).bind (ofPieces [])

/-- Fills a template. -/
def render (template : Template) (value : Int) : String :=
  String.ofList (template.before ++ template.directive.field value ++ template.after)

end Template

end LookupEngine.Sequence
