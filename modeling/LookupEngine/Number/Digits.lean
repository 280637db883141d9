/-!
# Digits

Reading and writing natural numbers in a base up to sixteen.  A numeral is a list
of characters; its value is the usual sum of powers.
-/

namespace LookupEngine.Digits

/-- The value of a hexadecimal digit, in either case. -/
def digitValue? (c : Char) : Option Nat :=
  if '0' ≤ c && c ≤ '9' then some (c.toNat - '0'.toNat)
  else if 'a' ≤ c && c ≤ 'f' then some (c.toNat - 'a'.toNat + 10)
  else if 'A' ≤ c && c ≤ 'F' then some (c.toNat - 'A'.toNat + 10)
  else none

/-- Whether `c` is a digit of `base`. -/
def isDigitOf (base : Nat) (c : Char) : Bool :=
  match digitValue? c with
  | some d => d < base
  | none => false

def isDecimal (c : Char) : Bool := isDigitOf 10 c

/-- The value of digits that follow digits of value `high`. -/
def valueFrom (base : Nat) : Nat → List Char → Nat
  | high, [] => high
  | high, c :: rest => valueFrom base (high * base + (digitValue? c).getD 0) rest

/-- The value of a list of digits. -/
def value (base : Nat) (cs : List Char) : Nat := valueFrom base 0 cs

/-- The number that a non-empty list of digits of `base` stands for. -/
def read? (base : Nat) (cs : List Char) : Option Nat :=
  if !cs.isEmpty && cs.all (isDigitOf base) then some (value base cs) else none

def lowerDigit (d : Nat) : Char := if d < 10 then Char.ofNat (48 + d) else Char.ofNat (87 + d)

def upperDigit (d : Nat) : Char := if d < 10 then Char.ofNat (48 + d) else Char.ofNat (55 + d)

/-- Writes `n` in front of `tail`, most significant digit first.  Every step divides
by a base of at least two, so `n + 1` steps are enough. -/
def writeInto (base : Nat) (digit : Nat → Char) : Nat → Nat → List Char → List Char
  | 0, _, tail => tail
  | steps + 1, n, tail =>
    let tail := digit (n % base) :: tail
    if n < base then tail else writeInto base digit steps (n / base) tail

/-- The digits of `n` in `base`. -/
def write (base : Nat) (n : Nat) : List Char := writeInto base lowerDigit (n + 1) n []

def writeUpper (base : Nat) (n : Nat) : List Char := writeInto base upperDigit (n + 1) n []

end LookupEngine.Digits
