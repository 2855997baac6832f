import Marshal.Binary.Format

/-!
# Arithmetic on binary floating-point numbers

Sum, product, conversion between formats and from integers, and comparison.  A finite result is the
exact one rounded once by `Format.nearest`.  A NaN operand is the result, quieted, the left one
first; `∞ - ∞` and `0 · ∞` give `Binary.invalid`.
-/

namespace Marshal.Binary

-- Powers with natural exponents are the core ones, whatever else is in scope.
attribute [local instance (2000)] instPowNat

variable {f : Format}

/-- A finite number as a count of units of `2 ^ unit`, where `unit` is at most its exponent. -/
def countAt (x : Binary f) (unit : Int) : Int :=
  let count := (x.mantissa * 2 ^ (x.exponent - unit).toNat : Nat)
  if x.isNegative then -count else count

/-- The rounded value of a signed count of units; an exact zero takes the sign `ifZero`. -/
def ofCount (f : Format) (count : Int) (unit : Int) (ifZero : Bool) : Binary f :=
  if count = 0 then zero f ifZero
  else f.nearestScaled (decide (count < 0)) count.natAbs unit

/-- A NaN operand of an operation, the left one first, made quiet. -/
def propagated (x y : Binary f) : Option (Binary f) :=
  if x.isNaN then some x.quieted else if y.isNaN then some y.quieted else none

def add (x y : Binary f) : Binary f :=
  match propagated x y with
  | some result => result
  | none =>
    if x.isInfinite then
      if y.isInfinite && x.isNegative != y.isNegative then invalid f else x
    else if y.isInfinite then y
    else
      let unit := min x.exponent y.exponent
      ofCount f (x.countAt unit + y.countAt unit) unit (x.isNegative && y.isNegative)

def mul (x y : Binary f) : Binary f :=
  match propagated x y with
  | some result => result
  | none =>
    let negative := x.isNegative != y.isNegative
    if x.isInfinite || y.isInfinite then
      if x.isZero || y.isZero then invalid f else infinity f negative
    else f.nearestScaled negative (x.mantissa * y.mantissa) (x.exponent + y.exponent)

/-- The number in a format, unchanged in its own.  In another one a NaN keeps its sign and as many
leading payload bits as there is room for, and becomes quiet. -/
def convert (target : Format) (x : Binary f) : Binary target :=
  if same : f = target then same ▸ x
  else if x.isNaN then
    let payload :=
      if f.fractionBits ≤ target.fractionBits then
        x.fractionField * 2 ^ (target.fractionBits - f.fractionBits)
      else x.fractionField / 2 ^ (f.fractionBits - target.fractionBits)
    (signed target x.isNegative (target.topExponent * target.hiddenBit + payload)).quieted
  else if x.isInfinite then infinity target x.isNegative
  else target.nearestScaled x.isNegative x.mantissa x.exponent

def ofInt (f : Format) (n : Int) : Binary f := f.nearest (decide (n < 0)) n.natAbs 1

/-- Numeric equality: a NaN equals nothing, and the two zeros are equal. -/
def equals (x y : Binary f) : Bool :=
  !x.isNaN && !y.isNaN && (x.bits == y.bits || (x.isZero && y.isZero))

def isIntegral (x : Binary f) : Bool :=
  x.isFinite && (0 ≤ x.exponent || x.mantissa % 2 ^ (-x.exponent).toNat == 0)

/-- The magnitude of a finite number with its fraction cut off. -/
def truncatedMagnitude (x : Binary f) : Nat :=
  if 0 ≤ x.exponent then x.mantissa * 2 ^ x.exponent.toNat
  else x.mantissa / 2 ^ (-x.exponent).toNat

end Marshal.Binary
