import LookupEngine.Number.Digits
import LookupEngine.Text.Blank
import LookupEngine.Text.Split
/-!
# Integers of sixty-four bits

The range of a signed word, arithmetic that stops at its ends, and the numerals
that terms and options hold: decimal, hexadecimal after `0x` and octal after
`0o`, each after an optional sign.
-/

namespace LookupEngine.Integer

/-- The least signed word. -/
def least : Int := -9223372036854775808

/-- The greatest signed word. -/
def greatest : Int := 9223372036854775807

/-- The greatest unsigned word. -/
def greatestUnsigned : Nat := 18446744073709551615

/-- `n` is a signed word. -/
def Fits (n : Int) : Prop := least ≤ n ∧ n ≤ greatest

instance (n : Int) : Decidable (Fits n) := inferInstanceAs (Decidable (_ ∧ _))

/-- `n`, if it is a signed word. -/
def checked (n : Int) : Option Int := if Fits n then some n else none

/-- The signed word nearest to `n`. -/
def saturated (n : Int) : Int := max least (min greatest n)

/-- A number of `base` with a sign of its own, inside the range of a word. -/
def readSigned? (base : Nat) (cs : List Char) : Option Int :=
  match cs with
  | '-' :: digits => (Digits.read? base digits).bind fun n => checked (-n)
  | '+' :: digits => (Digits.read? base digits).bind fun n => checked n
  | digits => (Digits.read? base digits).bind fun n => checked n

/-- The number that follows the sign: hexadecimal after `0x` and octal after `0o`,
where the digits may have a sign again, else decimal digits alone. -/
def readMagnitude? : List Char → Option Int
  | '0' :: 'x' :: digits => readSigned? 16 digits
  | '0' :: 'X' :: digits => readSigned? 16 digits
  | '0' :: 'o' :: digits => readSigned? 8 digits
  | '0' :: 'O' :: digits => readSigned? 8 digits
  | digits => (Digits.read? 10 digits).bind fun n => checked n

/-- The negative of a signed word.  The least one has none and stays as it is. -/
def negate (n : Int) : Int := if n = least then least else -n

/-- The integer that a numeral without blanks stands for. -/
def readChars? : List Char → Option Int
  | '-' :: rest => (readMagnitude? rest).map negate
  | '+' :: rest => readMagnitude? rest
  | rest => readMagnitude? rest

/-- The integer that a text stands for.  Blanks around the numeral do not matter. -/
def read? (s : String) : Option Int := readChars? (Text.trimChars s.toList)

/-- Decimal digits after an optional plus sign, with a value below `limit + 1`. -/
def readUnsigned? (limit : Nat) (cs : List Char) : Option Nat :=
  let digits := match cs with
    | '+' :: rest => rest
    | rest => rest
  (Digits.read? 10 digits).filter (· ≤ limit)

/-- The decimal form of an integer. -/
def writeChars (n : Int) : List Char :=
  if n < 0 then '-' :: Digits.write 10 n.natAbs else Digits.write 10 n.natAbs

def write (n : Int) : String := String.ofList (writeChars n)

end LookupEngine.Integer
