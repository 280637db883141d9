import LookupEngine.Term
/-!
# Range shorthand

`[start-]end[/stride][:format]`, with numbers in decimal, after `0x` or after `0o`.
A format is not empty and holds no line feed.  No numeral holds one of the marks
`-`, `/` and `:`, so the parts of a shorthand are fixed by its first marks.
-/

namespace LookupEngine

/-- What a range shorthand says. -/
structure Range where
  start : Option Int
  last : Int
  stride : Option Int
  format : Option String
deriving Repr, DecidableEq

namespace Range

/-- The digits of a numeral, without the mark of its base. -/
def digitsOf : List Char → List Char
  | '0' :: c :: rest => if c = 'x' ∨ c = 'X' ∨ c = 'o' ∨ c = 'O' then rest else '0' :: c :: rest
  | cs => cs

/-- Hexadecimal digits, perhaps after the mark of a base. -/
def isNumeral (cs : List Char) : Bool :=
  let digits := digitsOf cs
  !digits.isEmpty && digits.all (Digits.isDigitOf 16)

def bound? (cs : List Char) : Option Int :=
  if isNumeral cs then Integer.readChars? cs else none

def stride? : List Char → Option Int
  | '-' :: rest => if isNumeral rest then Integer.readChars? ('-' :: rest) else none
  | cs => bound? cs

/-- The bounds before the stride: `end` or `start-end`. -/
def bounds? (cs : List Char) : Option (Option Int × Int) :=
  match Text.splitOnce '-' cs with
  | none => (bound? cs).map fun last => (none, last)
  | some (start, last) =>
    match bound? start, bound? last with
    | some start, some last => some (some start, last)
    | _, _ => none

/-- Everything before the format. -/
def numbers? (cs : List Char) : Option (Option Int × Int × Option Int) :=
  match Text.splitOnce '/' cs with
  | none => (bounds? cs).map fun (start, last) => (start, last, none)
  | some (before, stride) =>
    match bounds? before, stride? stride with
    | some (start, last), some stride => some (start, last, some stride)
    | _, _ => none

/-- Reads a shorthand. -/
def parseChars? (cs : List Char) : Option Range :=
  match Text.splitOnce ':' cs with
  | none => (numbers? cs).map fun (start, last, stride) => ⟨start, last, stride, none⟩
  | some (before, format) =>
    if format.isEmpty || format.contains '\n' then none
    else (numbers? before).map fun (start, last, stride) =>
      ⟨start, last, stride, some (String.ofList format)⟩

def parse? (token : String) : Option Range := parseChars? token.toList

end Range

/-- The shorthand in the positional word, which counts only where neither `start=`
nor `end=` is given. -/
def Term.range? (term : Term) : Option Range :=
  if term.has "start" || term.has "end" then none else term.positional.bind Range.parse?

end LookupEngine
