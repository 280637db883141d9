import LookupEngine.Json.Value
/-!
# JSON texts of values

The compact text has no blanks, the laid-out one puts every item on a line of its own,
indented by two spaces for each open container.  Of the characters of a string only
the quote, the backslash and control characters are escaped.
-/

namespace LookupEngine.Json

/-- Four hexadecimal digits of a small number. -/
def hex4 (n : Nat) : List Char :=
  [Digits.lowerDigit (n / 4096 % 16), Digits.lowerDigit (n / 256 % 16),
    Digits.lowerDigit (n / 16 % 16), Digits.lowerDigit (n % 16)]

def escapeChar (c : Char) : List Char :=
  if c = '\x22' then ['\\', '\x22']
  else if c = '\\' then ['\\', '\\']
  else if c = '\x08' then ['\\', 'b']
  else if c = '\x0c' then ['\\', 'f']
  else if c = '\n' then ['\\', 'n']
  else if c = '\r' then ['\\', 'r']
  else if c = '\t' then ['\\', 't']
  else if c.toNat < 0x20 then '\\' :: 'u' :: hex4 c.toNat
  else [c]

/-- The characters of a string between its quotes. -/
def escape (cs : List Char) : List Char := cs.flatMap escapeChar

/-- A string in quotes, in front of `tail`. -/
def quoteInto (s : String) (tail : List Char) : List Char :=
  '\x22' :: (escape s.toList ++ '\x22' :: tail)

mutual

/-- Writes a value in front of `tail`. -/
def writeInto : Value → List Char → List Char
  | .null, tail => 'n' :: 'u' :: 'l' :: 'l' :: tail
  | .bool true, tail => 't' :: 'r' :: 'u' :: 'e' :: tail
  | .bool false, tail => 'f' :: 'a' :: 'l' :: 's' :: 'e' :: tail
  | .number n, tail => n.write ++ tail
  | .string s, tail => quoteInto s tail
  | .array items, tail => '[' :: writeItems items (']' :: tail)
  | .object fields, tail => '\x7b' :: writeFields fields ('\x7d' :: tail)

def writeItems : List Value → List Char → List Char
  | [], tail => tail
  | [item], tail => writeInto item tail
  | item :: next :: rest, tail => writeInto item (',' :: writeItems (next :: rest) tail)

def writeFields : List (String × Value) → List Char → List Char
  | [], tail => tail
  | [(key, item)], tail => quoteInto key (':' :: writeInto item tail)
  | (key, item) :: next :: rest, tail =>
    quoteInto key (':' :: writeInto item (',' :: writeFields (next :: rest) tail))

end

/-- A line break and the indentation of `level` open containers. -/
def newLine (level : Nat) (tail : List Char) : List Char :=
  '\n' :: (List.replicate (2 * level) ' ' ++ tail)

mutual

/-- Lays a value out in front of `tail`, with `level` containers open. -/
def layoutInto (level : Nat) : Value → List Char → List Char
  | .array [], tail => '[' :: ']' :: tail
  | .array (item :: rest), tail =>
    '[' :: layoutItems (level + 1) (item :: rest) (newLine level (']' :: tail))
  | .object [], tail => '\x7b' :: '\x7d' :: tail
  | .object (field :: rest), tail =>
    '\x7b' :: layoutFields (level + 1) (field :: rest) (newLine level ('\x7d' :: tail))
  | .null, tail => writeInto .null tail
  | .bool b, tail => writeInto (.bool b) tail
  | .number n, tail => writeInto (.number n) tail
  | .string s, tail => writeInto (.string s) tail

def layoutItems (level : Nat) : List Value → List Char → List Char
  | [], tail => tail
  | [item], tail => newLine level (layoutInto level item tail)
  | item :: next :: rest, tail =>
    newLine level (layoutInto level item (',' :: layoutItems level (next :: rest) tail))

def layoutFields (level : Nat) : List (String × Value) → List Char → List Char
  | [], tail => tail
  | [(key, item)], tail =>
    newLine level (quoteInto key (':' :: ' ' :: layoutInto level item tail))
  | (key, item) :: next :: rest, tail =>
    newLine level (quoteInto key (':' :: ' ' ::
      layoutInto level item (',' :: layoutFields level (next :: rest) tail)))

end

/-- The compact text of a value. -/
def print (v : Value) : String := String.ofList (writeInto v [])

/-- The laid-out text of a value. -/
def printLayout (v : Value) : String := String.ofList (layoutInto 0 v [])

end LookupEngine.Json

namespace LookupEngine.Value

/-- The text of a value as an option or a template shows it: a string is its own text,
null has none, everything else is written as JSON. -/
def toText : Value → String
  | .string s => s
  | .null => ""
  | v => Json.print v

end LookupEngine.Value
