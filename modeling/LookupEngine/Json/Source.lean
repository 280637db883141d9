import LookupEngine.Json.Value
/-!
# The grammar of JSON texts

A text read by the grammar alone: numbers keep their digits, strings their escapes
and objects all of their fields in order.  Whether a number is in range, whether
the escapes of a string are characters and how deep containers may nest are
questions to whoever wants the value, because a field that nobody reads is never
asked.
-/

namespace LookupEngine.Json

/-- A number as it is written. -/
structure Numeral where
  negative : Bool
  whole : List Char
  fraction : Option (List Char)
  exponent : Option (Bool × List Char)
deriving Repr, DecidableEq

inductive Source where
  | null
  | bool (b : Bool)
  | number (numeral : Numeral)
  | string (escaped : List Char)
  | array (items : List Source)
  | object (fields : List (List Char × Source))
deriving Repr

/-- The four blanks of the grammar. -/
def isBlank (c : Char) : Bool := c = ' ' || c = '\n' || c = '\t' || c = '\r'

def skipBlanks (cs : List Char) : List Char := cs.dropWhile isBlank

/-- Digits as far as they go. -/
def digits (cs : List Char) : List Char × List Char := cs.span Digits.isDecimal

namespace Numeral

/-- The digits before the point: a zero alone, or digits that start with another. -/
def whole? (cs : List Char) : Option (List Char × List Char) :=
  match cs with
  | '0' :: rest => some (['0'], rest)
  | cs =>
    let (found, rest) := digits cs
    if found.isEmpty then none else some (found, rest)

/-- The digits after the point, if there is one. -/
def fraction? : List Char → Option (Option (List Char) × List Char)
  | '.' :: rest =>
    let (found, rest) := digits rest
    if found.isEmpty then none else some (some found, rest)
  | rest => some (none, rest)

/-- The exponent with whether it is negative, if there is one. -/
def exponent? : List Char → Option (Option (Bool × List Char) × List Char)
  | c :: rest =>
    if c = 'e' ∨ c = 'E' then
      let (negative, rest) := match rest with
        | '-' :: rest => (true, rest)
        | '+' :: rest => (false, rest)
        | rest => (false, rest)
      let (found, rest) := digits rest
      if found.isEmpty then none else some (some (negative, found), rest)
    else some (none, c :: rest)
  | [] => some (none, [])

/-- Reads a number. -/
def read? (cs : List Char) : Option (Numeral × List Char) :=
  let (negative, cs) := match cs with
    | '-' :: rest => (true, rest)
    | rest => (false, rest)
  match whole? cs with
  | none => none
  | some (whole, rest) =>
    match fraction? rest with
    | none => none
    | some (fraction, rest) =>
      match exponent? rest with
      | none => none
      | some (exponent, rest) => some (⟨negative, whole, fraction, exponent⟩, rest)

end Numeral

/-- What stands between the quotes of a string, after the first of them.  Control
characters are refused, and after a backslash only the letters of the grammar stand. -/
def quoted? : List Char → Option (List Char × List Char)
  | [] => none
  | '\\' :: 'u' :: a :: b :: c :: d :: rest =>
    if [a, b, c, d].all (Digits.isDigitOf 16) then
      (quoted? rest).map fun (text, rest) => ('\\' :: 'u' :: a :: b :: c :: d :: text, rest)
    else none
  | '\\' :: c :: rest =>
    if ['\x22', '\\', '/', 'b', 'f', 'n', 'r', 't'].contains c then
      (quoted? rest).map fun (text, rest) => ('\\' :: c :: text, rest)
    else none
  | c :: rest =>
    if c = '\x22' then some ([], rest)
    else if c = '\\' ∨ c.toNat < 0x20 then none
    else (quoted? rest).map fun (text, rest) => (c :: text, rest)

namespace Source

mutual

/-- Reads a value after blanks.  Every step to a part of it uses up fuel. -/
def value? : Nat → List Char → Option (Source × List Char)
  | 0, _ => none
  | fuel + 1, cs =>
    match skipBlanks cs with
    | [] => none
    | 'n' :: 'u' :: 'l' :: 'l' :: rest => some (.null, rest)
    | 't' :: 'r' :: 'u' :: 'e' :: rest => some (.bool true, rest)
    | 'f' :: 'a' :: 'l' :: 's' :: 'e' :: rest => some (.bool false, rest)
    | '\x22' :: rest => (quoted? rest).map fun (text, rest) => (.string text, rest)
    | '[' :: rest =>
      match skipBlanks rest with
      | ']' :: rest => some (.array [], rest)
      | rest => (items? fuel rest []).map fun (items, rest) => (.array items, rest)
    | '\x7b' :: rest =>
      match skipBlanks rest with
      | '\x7d' :: rest => some (.object [], rest)
      | rest => (fields? fuel rest []).map fun (fields, rest) => (.object fields, rest)
    | cs => (Numeral.read? cs).map fun (numeral, rest) => (.number numeral, rest)

/-- Reads values up to the closing bracket; `done` holds those before, the latest first. -/
def items? : Nat → List Char → List Source → Option (List Source × List Char)
  | 0, _, _ => none
  | fuel + 1, cs, done =>
    match value? fuel cs with
    | none => none
    | some (item, rest) =>
      match skipBlanks rest with
      | ']' :: rest => some ((item :: done).reverse, rest)
      | ',' :: rest => items? fuel rest (item :: done)
      | _ => none

/-- Reads fields up to the closing brace; `done` holds those before, the latest first. -/
def fields? : Nat → List Char → List (List Char × Source) →
    Option (List (List Char × Source) × List Char)
  | 0, _, _ => none
  | fuel + 1, cs, done =>
    match skipBlanks cs with
    | '\x22' :: rest =>
      match quoted? rest with
      | none => none
      | some (key, rest) =>
        match skipBlanks rest with
        | ':' :: rest =>
          match value? fuel rest with
          | none => none
          | some (item, rest) =>
            match skipBlanks rest with
            | '\x7d' :: rest => some (((key, item) :: done).reverse, rest)
            | ',' :: rest => fields? fuel rest ((key, item) :: done)
            | _ => none
        | _ => none
    | _ => none

end

/-- Reads a whole text.  A part starts at least one character after what it is part of,
so fuel of twice the length never runs out. -/
def parse? (text : String) : Option Source :=
  let cs := text.toList
  match value? (2 * cs.length + 2) cs with
  | none => none
  | some (source, rest) => if (skipBlanks rest).isEmpty then some source else none

end Source

end LookupEngine.Json
