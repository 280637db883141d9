import LookupEngine.Json.Source
/-!
# Values of JSON texts

What a text of the grammar means: the number of a numeral, the characters of a
string and the value of a text whose containers nest no deeper than allowed.
-/

namespace LookupEngine.Json

namespace Numeral

/-- Appends digits to a number as long as it stays an unsigned word, and gives the
digits that are left. -/
def absorb : Nat → List Char → Nat × List Char
  | n, [] => (n, [])
  | n, c :: rest =>
    let next := n * 10 + (Digits.digitValue? c).getD 0
    if next > Integer.greatestUnsigned then (n, c :: rest) else absorb next rest

def signed (negative : Bool) (x : Binary64) : Binary64 := if negative then x.neg else x

/-- The value of an exponent. -/
def exponentValue : Option (Bool × List Char) → Int
  | none => 0
  | some (true, digits) => -Digits.value 10 digits
  | some (false, digits) => Digits.value 10 digits

/-- The number that a numeral stands for, unless it is out of range.  Digits that do not
fit a word count as zeros. -/
def number? (numeral : Numeral) : Option Number :=
  let (leading, left) := absorb 0 numeral.whole
  if numeral.fraction.isNone && numeral.exponent.isNone && left.isEmpty then
    if numeral.negative then
      if leading = 0 ∨ (leading : Int) > -Integer.least then
        (Binary64.ofDecimal? leading 0).map fun x => .float x.neg
      else some (.integer (-leading))
    else some (.integer leading)
  else
    let fraction := numeral.fraction.getD []
    let (significand, unread) := absorb leading fraction
    let exponent : Int := (left.length : Int) - ((fraction.length - unread.length : Nat) : Int)
    (Binary64.ofDecimal? significand (exponent + exponentValue numeral.exponent)).map fun x =>
      .float (signed numeral.negative x)

end Numeral

/-- The character that a letter after a backslash stands for. -/
def plainEscape? : Char → Option Char
  | '\x22' => some '\x22'
  | '\\' => some '\\'
  | '/' => some '/'
  | 'b' => some '\x08'
  | 'f' => some '\x0c'
  | 'n' => some '\n'
  | 'r' => some '\r'
  | 't' => some '\t'
  | _ => none

/-- The code unit of four hexadecimal digits. -/
def unit (a b c d : Char) : Nat := Digits.value 16 [a, b, c, d]

def isLeading (n : Nat) : Bool := 0xD800 ≤ n && n < 0xDC00

def isTrailing (n : Nat) : Bool := 0xDC00 ≤ n && n < 0xE000

/-- The characters of a string.  A surrogate that stands alone is none. -/
def unescape? : List Char → Option (List Char)
  | [] => some []
  | '\\' :: 'u' :: a :: b :: c :: d :: '\\' :: 'u' :: e :: f :: g :: h :: rest =>
    let high := unit a b c d
    let low := unit e f g h
    if isLeading high then
      if isTrailing low then
        (unescape? rest).map fun text =>
          Char.ofNat (0x10000 + (high - 0xD800) * 0x400 + (low - 0xDC00)) :: text
      else none
    else if isTrailing high then none
    else
      (unescape? ('\\' :: 'u' :: e :: f :: g :: h :: rest)).map fun text => Char.ofNat high :: text
  | '\\' :: 'u' :: a :: b :: c :: d :: rest =>
    let n := unit a b c d
    if isLeading n || isTrailing n then none
    else (unescape? rest).map fun text => Char.ofNat n :: text
  | '\\' :: c :: rest =>
    match plainEscape? c with
    | some c => (unescape? rest).map fun text => c :: text
    | none => none
  | c :: rest => (unescape? rest).map fun text => c :: text

def text? (escaped : List Char) : Option String := (unescape? escaped).map String.ofList

/-- The most containers that may be open at once. -/
def deepest : Nat := 127

namespace Source

mutual

/-- The value of a text, with at most `depth` more containers open at once. -/
def toValue? (depth : Nat) : Source → Option Value
  | .null => some .null
  | .bool b => some (.bool b)
  | .number numeral => numeral.number?.map .number
  | .string escaped => (text? escaped).map .string
  | .array items =>
    match depth with
    | 0 => none
    | depth + 1 => (itemsToValues? depth items).map .array
  | .object fields =>
    match depth with
    | 0 => none
    | depth + 1 => (fieldsToValues? depth fields []).map .object

def itemsToValues? (depth : Nat) : List Source → Option (List Value)
  | [] => some []
  | item :: rest =>
    match toValue? depth item with
    | none => none
    | some item => (itemsToValues? depth rest).map (item :: ·)

/-- Adds fields to those read before; the last of several with one key counts. -/
def fieldsToValues? (depth : Nat) :
    List (List Char × Source) → Entries Value → Option (Entries Value)
  | [], done => some done
  | (key, item) :: rest, done =>
    match text? key with
    | none => none
    | some key =>
      match toValue? depth item with
      | none => none
      | some item => fieldsToValues? depth rest (Entries.insert key item done)

end

end Source

/-- The value of a JSON text. -/
def parse? (text : String) : Option Value := (Source.parse? text).bind (Source.toValue? deepest)

end LookupEngine.Json
