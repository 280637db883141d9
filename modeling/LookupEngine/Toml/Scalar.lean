import LookupEngine.Number.Binary64
import LookupEngine.Text.Scan
import LookupEngine.Toml.Value
/-!
# TOML scalars

Strings in four kinds of quotes, numbers, truth values, dates and times.  Digits may be kept
apart by single underscores.
-/

namespace LookupEngine.Toml

open Text (Scan)

def isSpace (c : Char) : Bool := c = ' ' || c = '\t'

/-- Characters that a comment or a string may hold, the marks of the string apart. -/
def isShown (c : Char) : Bool := c = '\t' || (c.toNat ≥ 0x20 && c.toNat ≠ 0x7F)

def quote : Char := '\x22'

/-- A line break, which is a line feed alone or after a carriage return. -/
def newline : Scan Unit := Scan.orElse (Scan.char '\n') (Scan.word "\r\n")

/-- The character of a code point that is written in hexadecimal digits. -/
def codePoint (digits : List Char) : Scan Char :=
  let n := Digits.value 16 digits
  if n ≤ 0x10FFFF ∧ ¬(0xD800 ≤ n ∧ n ≤ 0xDFFF) then pure (Char.ofNat n) else Scan.fail

/-- The character after a backslash. -/
def escaped : Scan Char := do
  match ← Scan.next with
  | 'b' => pure '\x08'
  | 't' => pure '\t'
  | 'n' => pure '\n'
  | 'f' => pure '\x0c'
  | 'r' => pure '\r'
  | '\x22' => pure '\x22'
  | '\\' => pure '\\'
  | 'u' => do codePoint (← Scan.exactly 4 (Digits.isDigitOf 16))
  | 'U' => do codePoint (← Scan.exactly 8 (Digits.isDigitOf 16))
  | _ => Scan.fail

/-- The rest of a string on one line. -/
def basicString : Nat → Scan (List Char)
  | 0 => Scan.fail
  | fuel + 1 => do
    let c ← Scan.next
    if c = quote then pure []
    else if c = '\\' then
      let e ← escaped
      return e :: (← basicString fuel)
    else if isShown c then return c :: (← basicString fuel)
    else Scan.fail

/-- The rest of a string on one line that has no escapes. -/
def literalString : Scan (List Char) := do
  let text ← Scan.while_ fun c => c ≠ '\x27' && isShown c
  Scan.char '\x27'
  pure text

/-- Blanks and line breaks after a backslash that ends a line. -/
def skipLineEnd : Scan Unit := do
  let _ ← Scan.while_ isSpace
  newline
  let _ ← Scan.while_ fun c => isSpace c || c = '\n' || c = '\r'

/-- Closing marks: three of them end the string, and up to two in front of those belong to it. -/
def closing (mark : Char) : Scan (Option (List Char)) := do
  let run := (← Scan.rest).takeWhile (· = mark)
  if run.length < 3 then pure none
  else if run.length > 5 then Scan.fail
  else
    let _ ← Scan.exactly run.length (· = mark)
    pure (some (run.drop 3))

/-- The rest of a string over several lines. -/
def longString (mark : Char) : Nat → Scan (List Char)
  | 0 => Scan.fail
  | fuel + 1 => do
    match ← closing mark with
    | some text => pure text
    | none =>
      match ← Scan.optional newline with
      | some () => return '\n' :: (← longString mark fuel)
      | none =>
        let c ← Scan.next
        if c = '\\' && mark = quote then
          match ← Scan.optional skipLineEnd with
          | some () => longString mark fuel
          | none =>
            let e ← escaped
            return e :: (← longString mark fuel)
        else if isShown c then return c :: (← longString mark fuel)
        else Scan.fail

/-- A string in any quotes. -/
def string : Scan String := do
  let fuel := (← Scan.rest).length + 1
  let mark ← Scan.next
  let long ← Scan.optional (Scan.exactly 2 (· = mark))
  let text ← match long with
    | some _ => do
      let _ ← Scan.optional newline
      longString mark fuel
    | none => if mark = quote then basicString fuel else literalString
  pure (String.ofList text)

/-- Digits of a base, with single underscores between them. -/
def digitsOf (base : Nat) : Scan (List Char) := do
  let run ← Scan.while1 fun c => Digits.isDigitOf base c || c = '_'
  let groups := Text.splitAny (· = '_') run
  if groups.any List.isEmpty then Scan.fail else pure groups.flatten

/-- Decimal digits without a leading zero. -/
def plainDigits : Scan (List Char) := do
  let found ← digitsOf 10
  if found.length > 1 && found.head? = some '0' then Scan.fail else pure found

def sign : Scan (Option Char) := do
  match (← Scan.rest).head? with
  | some '+' => do Scan.char '+'; pure (some '+')
  | some '-' => do Scan.char '-'; pure (some '-')
  | _ => pure none

/-- An integer in the range of a word. -/
def integer : Scan Value := do
  let base : Option Nat := match ← Scan.rest with
    | '0' :: 'x' :: _ => some 16
    | '0' :: 'o' :: _ => some 8
    | '0' :: 'b' :: _ => some 2
    | _ => none
  let n : Int ← match base with
    | some base => do
      let _ ← Scan.next
      let _ ← Scan.next
      pure (Digits.value base (← digitsOf base) : Int)
    | none => do
      let mark ← sign
      let n := Digits.value 10 (← plainDigits)
      pure (if mark = some '-' then -(n : Int) else n)
  if Integer.Fits n then pure (.integer n) else Scan.fail

def exponent : Scan Int := do
  let _ ← Scan.satisfying fun c => c = 'e' || c = 'E'
  let mark ← sign
  let n := Digits.value 10 (← digitsOf 10)
  pure (if mark = some '-' then -(n : Int) else n)

/-- Whether a number rounds to one beyond the greatest.  `digits` are those before and after
the point, and `scale` is the exponent of the last one.  Only a number near the greatest has to
be computed. -/
def overflows (digits : List Char) (scale : Int) : Bool :=
  let significant := digits.dropWhile (· = '0')
  let size := (significant.length : Int) + scale
  if significant.isEmpty || size < 309 then false
  else if size > 309 then true
  else
    (Binary64.round? false (Digits.value 10 significant * Binary64.tenTo scale)
      (Binary64.tenTo (-scale))).isNone

/-- A number with a fraction or an exponent, or one of the names of those that have none. -/
def float : Scan Value := do
  let mark ← sign
  match ← Scan.optional (Scan.orElse (Scan.word "inf") (Scan.word "nan")) with
  | some () => pure .float
  | none =>
    let whole ← plainDigits
    let fraction ← Scan.optional do Scan.char '.'; digitsOf 10
    let power ← Scan.optional exponent
    if fraction.isNone && power.isNone then Scan.fail
    else if mark ≠ some '-' &&
        overflows (whole ++ fraction.getD []) (power.getD 0 - (fraction.getD []).length) then
      Scan.fail
    else pure .float

def twoDigits (least most : Nat) : Scan Nat := do
  let n := Digits.value 10 (← Scan.exactly 2 Digits.isDecimal)
  if least ≤ n ∧ n ≤ most then pure n else Scan.fail

def daysIn (year month : Nat) : Nat :=
  if month = 2 then
    if year % 4 = 0 ∧ (year % 100 ≠ 0 ∨ year % 400 = 0) then 29 else 28
  else if [4, 6, 9, 11].contains month then 30 else 31

def date : Scan Unit := do
  let year := Digits.value 10 (← Scan.exactly 4 Digits.isDecimal)
  Scan.char '-'
  let month ← twoDigits 1 12
  Scan.char '-'
  let _ ← twoDigits 1 (daysIn year month)

def time : Scan Unit := do
  let _ ← twoDigits 0 23
  Scan.char ':'
  let _ ← twoDigits 0 59
  Scan.char ':'
  let _ ← twoDigits 0 60
  let _ ← Scan.optional do Scan.char '.'; Scan.while1 Digits.isDecimal

/-- The distance from universal time. -/
def offset : Scan Unit := do
  let c ← Scan.next
  if c = 'Z' || c = 'z' then pure ()
  else if c = '+' || c = '-' then
    let _ ← twoDigits 0 23
    Scan.char ':'
    let _ ← twoDigits 0 59
  else Scan.fail

/-- A date, a time or both. -/
def moment : Scan Value := do
  match ← Scan.optional date with
  | some () =>
    let withTime ← Scan.optional do
      let _ ← Scan.satisfying fun c => c = 'T' || c = 't' || c = ' '
      time
    if withTime.isSome then
      let _ ← Scan.optional offset
    pure .moment
  | none => do
    time
    pure .moment

/-- A scalar that is not in quotes. -/
def bare : Scan Value := do
  match (← Scan.rest).head? with
  | some 't' => do Scan.word "true"; pure (.boolean true)
  | some 'f' => do Scan.word "false"; pure (.boolean false)
  | some 'i' => do Scan.word "inf"; pure .float
  | some 'n' => do Scan.word "nan"; pure .float
  | _ => Scan.orElse moment (Scan.orElse float integer)

end LookupEngine.Toml
