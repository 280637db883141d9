import LookupEngine.Number.Binary64
/-!
# The shortest decimal that reads back

A floating-point number is written with the fewest decimal digits that round to it,
and with the nearest of those.  Where the point stands and when an exponent is
written is a choice of the format, made in `Layout`.
-/

namespace LookupEngine.Binary64

/-- `digits * 10 ^ exponent`. -/
structure Decimal where
  digits : Nat
  exponent : Int
deriving Repr, DecidableEq

/-- The exponent of the leading decimal digit of `numerator / denominator`, found by
going up or down from a guess. -/
def leadingExponent (numerator denominator : Nat) : Int :=
  let up (k : Int) : Bool := denominator * tenTo k ≤ numerator * tenTo (-k)
  let guess : Int :=
    ((Nat.log2 numerator : Int) - (Nat.log2 denominator : Int)) * 30103 / 100000
  if up (guess + 2) then guess + 2
  else if up (guess + 1) then guess + 1
  else if up guess then guess
  else if up (guess - 1) then guess - 1
  else guess - 2

/-- Whether a decimal rounds to the magnitude of `x`. -/
def readsBack (x : Binary64) (decimal : Decimal) : Bool :=
  round? x.negative (decimal.digits * tenTo decimal.exponent) (tenTo (-decimal.exponent)) = some x

/-- The decimal on the grid `10 ^ exponent` that rounds to `x`, the nearer of two. -/
def onGrid? (x : Binary64) (exponent : Int) : Option Decimal :=
  let numerator := x.numerator * tenTo (-exponent)
  let denominator := x.denominator * tenTo exponent
  let low : Decimal := ⟨numerator / denominator, exponent⟩
  let high : Decimal := ⟨numerator / denominator + 1, exponent⟩
  let rest := 2 * (numerator % denominator)
  let lowFirst := rest < denominator || (rest = denominator && low.digits % 2 = 0)
  let (near, far) := if lowFirst then (low, high) else (high, low)
  if x.readsBack near then some near else if x.readsBack far then some far else none

/-- The first hit on grids of one digit more each time. -/
def search (x : Binary64) (lead : Int) : Nat → Nat → Decimal
  | 0, _ => ⟨x.numerator / x.denominator, 0⟩
  | steps + 1, digits =>
    match x.onGrid? (lead - digits) with
    | some decimal => decimal
    | none => search x lead steps (digits + 1)

/-- The shortest decimal of a number other than zero.  Seventeen digits always do. -/
def shortest (x : Binary64) : Decimal :=
  search x (leadingExponent x.numerator x.denominator) 18 0

/-- How a decimal is laid out: the positions of the point, counted from before the first
digit, at which no exponent is written. -/
structure Layout where
  leastPoint : Int
  greatestPoint : Int
deriving Repr, DecidableEq

/-- Plain decimals reach from `0.00001` to below `10 ^ 16`. -/
def plainLayout : Layout := ⟨-4, 16⟩

def dropTrailingZeros (digits : List Char) : List Char :=
  (digits.reverse.dropWhile (· = '0')).reverse

/-- Writes digits with the point at `point`, with at least one digit on either side. -/
def writePlain (digits : List Char) (point : Int) : List Char :=
  if point ≤ 0 then '0' :: '.' :: (List.replicate (-point).toNat '0' ++ digits)
  else if digits.length ≤ point.toNat then
    digits ++ List.replicate (point.toNat - digits.length) '0' ++ ['.', '0']
  else digits.take point.toNat ++ '.' :: digits.drop point.toNat

/-- Writes digits with one before the point, and an exponent with its sign. -/
def writeExponent (digits : List Char) (point : Int) : List Char :=
  let exponent := point - 1
  let tail := Digits.write 10 exponent.natAbs
  let signed := 'e' :: (if exponent < 0 then '-' else '+') :: tail
  match digits with
  | [] => signed
  | [d] => d :: signed
  | d :: rest => d :: '.' :: (rest ++ signed)

def writeDecimal (layout : Layout) (decimal : Decimal) : List Char :=
  let written := Digits.write 10 decimal.digits
  let digits := dropTrailingZeros written
  let point := (written.length : Int) + decimal.exponent
  if layout.leastPoint ≤ point ∧ point ≤ layout.greatestPoint then writePlain digits point
  else writeExponent digits point

/-- The text of a number. -/
def write (x : Binary64) : List Char :=
  let magnitude := if x.isZero then ['0', '.', '0'] else writeDecimal plainLayout x.shortest
  if x.negative then '-' :: magnitude else magnitude

end LookupEngine.Binary64
