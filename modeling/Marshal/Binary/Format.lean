/-!
# Binary floating-point numbers

A number of a binary interchange format is kept as its bit pattern.  Three views give it meaning:
`isNaN`, `isInfinite` and, for finite patterns, a magnitude `mantissa * 2 ^ exponent`.  The other
way, `Format.nearest` takes a positive quotient of natural numbers to the pattern whose value is
closest, a tie going to the even mantissa.  Everything is exact arithmetic on `Nat` and `Int`.
-/

namespace Marshal

-- Powers with natural exponents are the core ones, whatever else is in scope.
attribute [local instance (2000)] instPowNat

/-- A binary format: how many bits its fraction and its exponent take, next to one sign bit. -/
structure Format where
  fractionBits : Nat
  exponentBits : Nat
  deriving DecidableEq, Repr

namespace Format

def double : Format := ⟨52, 11⟩

def single : Format := ⟨23, 8⟩

def width (f : Format) : Nat := f.fractionBits + f.exponentBits + 1

/-- The exponent field of infinities and NaNs: all ones. -/
def topExponent (f : Format) : Nat := 2 ^ f.exponentBits - 1

/-- The power of two that one unit of a subnormal mantissa stands for. -/
def minExponent (f : Format) : Int := 2 - (2 ^ (f.exponentBits - 1) : Nat) - f.fractionBits

/-- The implicit leading bit of a normal mantissa. -/
def hiddenBit (f : Format) : Nat := 2 ^ f.fractionBits

end Format

/-- A number of the format `f`, as its bit pattern. -/
structure Binary (f : Format) where
  bits : BitVec f.width
  deriving DecidableEq

abbrev Binary64 := Binary Format.double

namespace Binary

variable {f : Format}

/-- The pattern with these bits; bits above the width are dropped. -/
def ofBits (f : Format) (bits : Nat) : Binary f := ⟨BitVec.ofNat f.width bits⟩

def toBits (x : Binary f) : Nat := x.bits.toNat

/-- Whether the sign bit is set, also on a zero or a NaN. -/
def isNegative (x : Binary f) : Bool := x.bits.msb

def fractionField (x : Binary f) : Nat := x.toBits % f.hiddenBit

def exponentField (x : Binary f) : Nat := x.toBits / f.hiddenBit % 2 ^ f.exponentBits

def isNaN (x : Binary f) : Bool := x.exponentField == f.topExponent && x.fractionField != 0

def isInfinite (x : Binary f) : Bool := x.exponentField == f.topExponent && x.fractionField == 0

def isFinite (x : Binary f) : Bool := x.exponentField != f.topExponent

/-- The mantissa of a finite number: its magnitude counted in units of `2 ^ exponent`. -/
def mantissa (x : Binary f) : Nat :=
  if x.exponentField = 0 then x.fractionField else f.hiddenBit + x.fractionField

/-- The power of two that one unit of `mantissa` stands for. -/
def exponent (x : Binary f) : Int := f.minExponent + (x.exponentField - 1 : Nat)

def isZero (x : Binary f) : Bool := x.exponentField == 0 && x.fractionField == 0

/-- A pattern from its sign and the bits below it. -/
def signed (f : Format) (negative : Bool) (magnitude : Nat) : Binary f :=
  ofBits f (magnitude + if negative then 2 ^ (f.width - 1) else 0)

def zero (f : Format) (negative : Bool) : Binary f := signed f negative 0

def infinity (f : Format) (negative : Bool) : Binary f :=
  signed f negative (f.topExponent * f.hiddenBit)

/-- The NaN that an invalid operation on numbers gives: quiet, without payload, sign bit set. -/
def invalid (f : Format) : Binary f :=
  signed f true (f.topExponent * f.hiddenBit + f.hiddenBit / 2)

/-- A NaN with its quiet bit set and all else kept. -/
def quieted (x : Binary f) : Binary f := ⟨x.bits ||| BitVec.ofNat f.width (f.hiddenBit / 2)⟩

end Binary

/-- The exponent `t` with `2 ^ t ≤ numerator / denominator < 2 ^ (t + 1)`. -/
def floorLog2 (numerator denominator : Nat) : Int :=
  let guess : Int := (numerator.log2 : Int) - denominator.log2
  let reached :=
    if 0 ≤ guess then denominator * 2 ^ guess.toNat ≤ numerator
    else denominator ≤ numerator * 2 ^ (-guess).toNat
  if reached then guess else guess - 1

/-- The natural number nearest to a quotient; a tie goes to the even one. -/
def nearestNat (numerator denominator : Nat) : Nat :=
  let quotient := numerator / denominator
  let twiceRest := 2 * (numerator % denominator)
  if twiceRest < denominator then quotient
  else if denominator < twiceRest then quotient + 1
  else quotient + quotient % 2

namespace Format

/-- The number of the format nearest to `± numerator / denominator`, a tie going to the even
mantissa and a magnitude past the largest finite number to infinity. -/
def nearest (f : Format) (negative : Bool) (numerator denominator : Nat) : Binary f :=
  if numerator = 0 then Binary.zero f negative
  else
    let unit := max (floorLog2 numerator denominator - f.fractionBits) f.minExponent
    let units :=
      if 0 ≤ unit then nearestNat numerator (denominator * 2 ^ unit.toNat)
      else nearestNat (numerator * 2 ^ (-unit).toNat) denominator
    -- the hidden bit of `units` adds one to the exponent field, and so does a carry
    let magnitude := (unit - f.minExponent).toNat * f.hiddenBit + units
    let top := f.topExponent * f.hiddenBit
    Binary.signed f negative (min magnitude top)

/-- The number of the format nearest to `± count * 2 ^ exponent`. -/
def nearestScaled (f : Format) (negative : Bool) (count : Nat) (exponent : Int) : Binary f :=
  if 0 ≤ exponent then f.nearest negative (count * 2 ^ exponent.toNat) 1
  else f.nearest negative count (2 ^ (-exponent).toNat)

end Format

end Marshal
