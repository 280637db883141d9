import LookupEngine.Sequence.Template
import LookupEngine.Term.Range
/-!
# Sequences

A sequence is a first value, a last value and a stride, all signed words.  A term
gives them by a range shorthand and by the options `start`, `end`, `stride` and
`count`; what it leaves out is one.  A cursor walks over the values without leaving
the range of a word.
-/

namespace LookupEngine.Sequence

/-- The most values that one lookup produces. -/
def limit : Nat := 1000000

structure Spec where
  start : Int
  last : Int
  stride : Int
  format : Option String
deriving Repr, DecidableEq

/-- Why a term is no sequence. -/
inductive Problem where
  | strideZero
  | countAndEnd
  | countNegative
  | countOverflows
  | endBeforeStart
  | endAfterStart
  | tooManyValues (count : Nat)
  | tooManyInTotal
  | badTemplate (template : String) (problem : TemplateProblem)
deriving Repr, DecidableEq

namespace Problem

def message : Problem → String
  | strideZero => "stride must not be zero"
  | countAndEnd => "can't specify both count and end"
  | countNegative => "count must not be negative"
  | countOverflows => "count overflows the range"
  | endBeforeStart => "to count backwards make stride negative"
  | endAfterStart => "to count forward don't make stride negative"
  | tooManyValues count => s!"sequence has {count} values, more than the limit of {limit}"
  | tooManyInTotal => s!"terms produce more than {limit} values"
  | badTemplate template problem => problem.message template

end Problem

/-- A position in a sequence: the value that comes next, while it is a word. -/
structure Cursor where
  next : Option Int
  last : Int
  stride : Int
deriving Repr, DecidableEq

namespace Cursor

/-- Whether a value lies before the end, in the direction of the stride. -/
def reaches (cursor : Cursor) (value : Int) : Bool :=
  if cursor.stride > 0 then value ≤ cursor.last else value ≥ cursor.last

/-- The next value and the position after it. -/
def step (cursor : Cursor) : Option Int × Cursor :=
  match cursor.next with
  | none => (none, cursor)
  | some value =>
    if cursor.reaches value then
      (some value, { cursor with next := Integer.checked (value + cursor.stride) })
    else (none, { cursor with next := none })

/-- Puts the next values, at most `most`, in front of `found`, the latest first. -/
def gather : Nat → Cursor → List Int → List Int
  | 0, _, found => found
  | most + 1, cursor, found =>
    match cursor.step with
    | (none, _) => found
    | (some value, cursor) => gather most cursor (value :: found)

/-- The next values in order, at most `most`. -/
def take (most : Nat) (cursor : Cursor) : List Int := (gather most cursor []).reverse

end Cursor

namespace Spec

/-- The sequence of a term that says nothing. -/
def default : Spec := ⟨1, 1, 1, none⟩

/-- The number of values, as far as an unsigned word can tell. -/
def valueCount (spec : Spec) : Nat :=
  let span := spec.last - spec.start
  if spec.stride = 0 ∨ (span ≠ 0 ∧ span.sign ≠ spec.stride.sign) then 0
  else min (Int.tdiv span spec.stride + 1).toNat Integer.greatestUnsigned

def cursor (spec : Spec) : Cursor := ⟨some spec.start, spec.last, spec.stride⟩

/-- The values in order.  A stride other than zero moves by at least one, so there are
no more of them than numbers from `start` to `last`. -/
def values (spec : Spec) : List Int :=
  spec.cursor.take ((spec.last - spec.start).natAbs + 1)

/-- What the range shorthand of a term says, over the default. -/
def ofRange (term : Term) : Spec :=
  match term.range? with
  | none => default
  | some range =>
    ⟨range.start.getD default.start, range.last, range.stride.getD default.stride, range.format⟩

/-- What a term says of start, end, stride and format. -/
def stated (term : Term) : Spec :=
  let spec := ofRange term
  { start := (term.integer? "start").getD spec.start
    last := (term.integer? "end").getD spec.last
    stride := (term.integer? "stride").getD spec.stride
    format := (term.get? "format").or spec.format }

/-- Refuses a sequence that runs away from its end or has too many values. -/
def check (spec : Spec) : Except Problem Spec :=
  if spec.stride > 0 ∧ spec.last < spec.start then .error .endBeforeStart
  else if spec.stride < 0 ∧ spec.last > spec.start then .error .endAfterStart
  else if spec.valueCount > limit then .error (.tooManyValues spec.valueCount)
  else .ok spec

/-- The sequence of `count` values.  For none of them the end is one step before the
start. -/
def withCount (spec : Spec) (count : Int) : Except Problem Spec :=
  if count < 0 then .error .countNegative
  else if count = 0 then
    .ok { spec with last := Integer.saturated (spec.start - spec.stride.sign) }
  else
    match Integer.checked ((count - 1) * spec.stride) with
    | none => .error .countOverflows
    | some offset =>
      match Integer.checked (spec.start + offset) with
      | none => .error .countOverflows
      | some last => check { spec with last }

def ofTerm (term : Term) : Except Problem Spec :=
  let spec := stated term
  if spec.stride = 0 then .error .strideZero
  else
    match term.integer? "count" with
    | none => check spec
    | some count =>
      if term.has "end" then .error .countAndEnd else withCount spec count

/-- Reads a term. -/
def parse (text : String) : Except Problem Spec := ofTerm (Term.parse text)

/-- The template of a sequence that has one. -/
def template? (spec : Spec) : Except Problem (Option Template) :=
  match spec.format with
  | none => .ok none
  | some format =>
    match Template.parse format with
    | .ok template => .ok (some template)
    | .error problem => .error (.badTemplate format problem)

end Spec

end LookupEngine.Sequence
