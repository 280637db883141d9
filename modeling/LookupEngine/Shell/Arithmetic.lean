import LookupEngine.Number.Integer
import LookupEngine.Text.Scan
/-!
# Shell arithmetic

Integer expressions over variables, with the operators of C in their usual order.  Numbers are
decimal, hexadecimal after `0x` or octal after `0`, and a name stands for the number that its
variable holds.
-/

namespace LookupEngine.Shell.Arithmetic

open Text (Scan)

/-- Why an expression has no value. -/
inductive Problem where
  | missingOperand
  | strayText
  | divisionByZero
  | noNumber (text : String)
deriving Repr, DecidableEq

/-- What is wrong with `expression`. -/
def Problem.message (expression : String) : Problem → String
  | missingOperand => s!"arithmetic expression: expecting primary: \x22{expression}\x22"
  | strayText => s!"arithmetic expression: expecting EOF: \x22{expression}\x22"
  | divisionByZero => s!"arithmetic expression: division by zero: \x22{expression}\x22"
  | noNumber text => s!"Illegal number: {text}"

/-- A result, unless something on the way has none. -/
abbrev Result := Except Problem Int

/-- What an expression reads the variables by. -/
abbrev Values := List Char → Result

def isBlank (c : Char) : Bool := c = ' ' || c = '\t' || c = '\n'

def blanks : Scan Unit := do
  let _ ← Scan.while_ isBlank

/-- A sign of an operator, unless it goes on as another one. -/
def operator (text : String) (not : List Char) : Scan Unit := do
  blanks
  Scan.word text
  match ← Scan.peek? with
  | some c => if not.contains c then Scan.fail else pure ()
  | none => pure ()

/-- The number that digits stand for. -/
def number? (digits : List Char) : Option Int :=
  let found := match digits with
    | '0' :: 'x' :: rest => Digits.read? 16 rest
    | '0' :: 'X' :: rest => Digits.read? 16 rest
    | ['0'] => some 0
    | '0' :: rest => Digits.read? 8 rest
    | rest => Digits.read? 10 rest
  found.map Int.ofNat

/-- The number in the text of a variable; an empty text counts as zero. -/
def ofText (text : List Char) : Result :=
  let trimmed := text.dropWhile isBlank
  let found := match trimmed with
    | [] => some 0
    | '-' :: digits => (number? digits).map fun n => -n
    | digits => number? digits
  match found with
  | some n => .ok n
  | none => .error (.noNumber (String.ofList text))

def truth (b : Bool) : Int := if b then 1 else 0

structure Operator where
  sign : String
  /-- Characters that must not follow the sign. -/
  not : List Char
  apply : Int → Int → Result

/-- The binary operators by their level, the loosest first. -/
def operators : List (List Operator) :=
  [[⟨"||", [], fun a b => .ok (truth (a ≠ 0 || b ≠ 0))⟩],
    [⟨"&&", [], fun a b => .ok (truth (a ≠ 0 && b ≠ 0))⟩],
    [⟨"==", [], fun a b => .ok (truth (a = b))⟩, ⟨"!=", [], fun a b => .ok (truth (a ≠ b))⟩],
    [⟨"<=", [], fun a b => .ok (truth (a ≤ b))⟩, ⟨">=", [], fun a b => .ok (truth (a ≥ b))⟩,
      ⟨"<", ['<'], fun a b => .ok (truth (a < b))⟩, ⟨">", ['>'], fun a b => .ok (truth (a > b))⟩],
    [⟨"<<", [], fun a b => .ok (a * Nat.pow 2 (b.toNat % 64))⟩,
      ⟨">>", [], fun a b => .ok (a / Nat.pow 2 (b.toNat % 64))⟩],
    [⟨"+", [], fun a b => .ok (a + b)⟩, ⟨"-", [], fun a b => .ok (a - b)⟩],
    [⟨"*", [], fun a b => .ok (a * b)⟩,
      ⟨"/", [], fun a b => if b = 0 then .error .divisionByZero else .ok (Int.tdiv a b)⟩,
      ⟨"%", [], fun a b => if b = 0 then .error .divisionByZero else .ok (Int.tmod a b)⟩]]

/-- The result as a signed word. -/
def wrapped (result : Result) : Result := result.map fun n => Int.bmod n (Integer.greatestUnsigned + 1)

mutual

/-- An expression of operators at some levels. -/
def expression (values : Values) : Nat → List (List Operator) → Scan Result
  | 0, _ => Scan.fail
  | fuel + 1, [] => unary values fuel
  | fuel + 1, level :: tighter => do
    further values fuel level tighter (← expression values fuel tighter)

/-- Goes on with operators of one level. -/
def further (values : Values) : Nat → List Operator → List (List Operator) → Result → Scan Result
  | 0, _, _, _ => Scan.fail
  | fuel + 1, level, tighter, left => do
    let cs ← Scan.rest
    match level.find? fun op => (operator op.sign op.not cs).isSome with
    | none => pure left
    | some op =>
      operator op.sign op.not
      let right ← expression values fuel tighter
      let result : Result := do op.apply (← left) (← right)
      further values fuel level tighter (wrapped result)

/-- A number, a name, or an expression in parentheses, behind signs. -/
def unary (values : Values) : Nat → Scan Result
  | 0 => Scan.fail
  | fuel + 1 => do
    blanks
    match ← Scan.rest with
    | '-' :: rest => do set rest; return wrapped ((← unary values fuel).map fun n => -n)
    | '+' :: rest => do set rest; unary values fuel
    | '!' :: rest => do set rest; return (← unary values fuel).map fun n => truth (n = 0)
    | '(' :: rest => do
      set rest
      let inside ← expression values fuel operators
      blanks
      Scan.char ')'
      pure inside
    | '$' :: rest => do set rest; unary values fuel
    | _ => do
      let found ← Scan.while1 fun c => c.isAlphanum || c = '_'
      if (found.headD ' ').isDigit then
        match number? found with
        | some n => pure (wrapped (.ok n))
        | none => Scan.fail
      else pure (values found)

end

/-- The value of an expression, as a signed word; an empty one is zero. -/
def eval (values : Values) (cs : List Char) : Result :=
  if cs.all isBlank then .ok 0
  else
    let whole : Scan Result := do
      let result ← expression values (16 * cs.length + 16) operators
      blanks
      pure result
    match whole cs with
    | none => .error .missingOperand
    | some (_, _ :: _) => .error .strayText
    | some (result, []) => result

end LookupEngine.Shell.Arithmetic
