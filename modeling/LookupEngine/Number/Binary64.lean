import LookupEngine.Number.Digits
/-!
# Floating-point numbers of sixty-four bits

The finite numbers of the binary format with fifty-three bits of significand, held
exactly: a sign, a significand and the exponent of two.  Rounding goes to the
nearest such number, and to the even significand where two are equally near.
-/

namespace LookupEngine

/-- The number `± significand * 2 ^ exponent`. -/
structure Binary64 where
  negative : Bool
  significand : Nat
  exponent : Int
deriving Repr, DecidableEq

namespace Binary64

/-- The exponent of the finest grid. -/
def finest : Int := -1074

/-- The exponent of the coarsest grid. -/
def coarsest : Int := 971

def zero (negative : Bool) : Binary64 := ⟨negative, 0, finest⟩

/-- `10 ^ k`, or one where `k` is negative. -/
def tenTo (k : Int) : Nat := Nat.pow 10 k.toNat

/-- `2 ^ k`, or one where `k` is negative. -/
def twoTo (k : Int) : Nat := Nat.pow 2 k.toNat

/-- The least significand of a number on a grid that is not the finest. -/
def leastSignificand : Nat := 4503599627370496

/-- The integer nearest to `numerator / denominator`, the even one of two. -/
def nearest (numerator denominator : Nat) : Nat :=
  let low := numerator / denominator
  let rest := 2 * (numerator % denominator)
  if rest < denominator then low
  else if rest > denominator then low + 1
  else if low % 2 = 0 then low else low + 1

/-- The exponent of the grid on which `numerator / denominator` has fifty-three bits,
or of the finest grid for smaller numbers. -/
def gridOf (numerator denominator : Nat) : Int :=
  let guess : Int := (Nat.log2 numerator : Int) - (Nat.log2 denominator : Int) - 52
  let below := numerator * twoTo (-guess) < leastSignificand * (denominator * twoTo guess)
  max finest (if below then guess - 1 else guess)

/-- The number nearest to `numerator / denominator`, unless it is out of range. -/
def round? (negative : Bool) (numerator denominator : Nat) : Option Binary64 :=
  if numerator = 0 then some (zero negative)
  else
    let grid := gridOf numerator denominator
    let significand := nearest (numerator * twoTo (-grid)) (denominator * twoTo grid)
    let (significand, grid) :=
      if significand = 2 * leastSignificand then (leastSignificand, grid + 1)
      else (significand, grid)
    if grid > coarsest then none else some ⟨negative, significand, grid⟩

/-- The magnitude as a fraction. -/
def numerator (x : Binary64) : Nat := x.significand * twoTo x.exponent

def denominator (x : Binary64) : Nat := twoTo (-x.exponent)

def isZero (x : Binary64) : Bool := x.significand = 0

def neg (x : Binary64) : Binary64 := { x with negative := !x.negative }

/-- The rounded product of a number that is not negative and a power of ten. -/
def scaleUp? (x : Binary64) (power : Nat) : Option Binary64 :=
  match round? false (Nat.pow 10 power) 1 with
  | some ten => round? x.negative (x.numerator * ten.numerator) (x.denominator * ten.denominator)
  | none => none

/-- The rounded quotient by a power of ten that is in range. -/
def scaleDown? (x : Binary64) (power : Nat) : Option Binary64 :=
  match round? false (Nat.pow 10 power) 1 with
  | some ten => round? x.negative (x.numerator * ten.denominator) (x.denominator * ten.numerator)
  | none => none

/-- Divides by `10 ^ power`, in steps that are powers of ten in range. -/
def shrink? : Nat → Binary64 → Nat → Option Binary64
  | 0, _, _ => none
  | steps + 1, x, power =>
    if power ≤ 308 then scaleDown? x power
    else if x.isZero then some x
    else
      match scaleDown? x 308 with
      | some x => shrink? steps x (power - 308)
      | none => none

/-- The number written as `significand` and a power of ten: the significand is rounded
first, and then scaled in rounded steps.  Out of range gives nothing. -/
def ofDecimal? (significand : Nat) (exponent : Int) : Option Binary64 :=
  match round? false significand 1 with
  | none => none
  | some x =>
    if exponent < 0 then shrink? (exponent.natAbs + 1) x exponent.natAbs
    else if exponent ≤ 308 then scaleUp? x exponent.toNat
    else if x.isZero then some x
    else none

end Binary64

end LookupEngine
