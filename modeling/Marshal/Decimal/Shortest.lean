import Marshal.Binary.Format

/-!
# Shortest decimals of binary numbers

The numbers that a correct reader rounds to a given finite binary number form an interval around it,
whose ends belong to it exactly when the mantissa is even.  `shortest` picks, among the decimals of
fewest digits in that interval, the one nearest to the number; of two equally near the larger.

For a given count of digits the decimals form a grid, and if any grid point lies in the interval, so
does one of the number's two neighbours on the grid.  All comparisons are between natural numbers.
-/

namespace Marshal.Decimal

-- Powers with natural exponents are the core ones, whatever else is in scope.
attribute [local instance (2000)] instPowNat

/-- The number `0.d₁d₂d₃… * 10 ^ point`, where `d₁d₂d₃…` are the decimal digits of `digits`. -/
structure Digits where
  digits : Nat
  point : Int
  deriving DecidableEq, Repr

/-- Whether `numerator / denominator < 10 ^ point`. -/
def belowPowerOfTen (numerator denominator : Nat) (point : Int) : Bool :=
  if 0 ≤ point then numerator < denominator * 10 ^ point.toNat
  else numerator * 10 ^ (-point).toNat < denominator

/-- The exponent `k` with `10 ^ (k - 1) ≤ numerator / denominator < 10 ^ k`.  The first guess, from
the binary logarithm, is at most the answer and at most three below it. -/
def decimalPoint (numerator denominator : Nat) : Int :=
  let guess := floorLog2 numerator denominator * 30103 / 100000 - 1
  let candidates := [guess, guess + 1, guess + 2]
  (candidates.find? (belowPowerOfTen numerator denominator)).getD (guess + 3)

/-- A positive number and the interval of those that read back as it, over one denominator. -/
structure Interval where
  value : Nat
  low : Nat
  high : Nat
  closed : Bool
  denominator : Nat

/-- The reading interval of a finite positive number, in quarters of its unit.  Below a power of two
the neighbour is half as far away. -/
def Interval.around {f : Format} (x : Binary f) : Interval :=
  let quarters := 4 * x.mantissa
  let narrow := x.mantissa == f.hiddenBit && 1 < x.exponentField
  let unit := x.exponent - 2
  let scale := if 0 ≤ unit then 2 ^ unit.toNat else 1
  { value := quarters * scale
    low := (quarters - if narrow then 1 else 2) * scale
    high := (quarters + 2) * scale
    closed := x.mantissa % 2 == 0
    denominator := if 0 ≤ unit then 1 else 2 ^ (-unit).toNat }

/-- The better of the number's neighbours among the decimals of `count` digits, if it reads back. -/
def Interval.onGrid (interval : Interval) (point : Int) (count : Nat) : Option Digits :=
  let spacing := point - count
  -- over a common denominator the number is `value` and one grid step is `step`
  let factor := if 0 ≤ spacing then 1 else 10 ^ (-spacing).toNat
  let step := interval.denominator * if 0 ≤ spacing then 10 ^ spacing.toNat else 1
  let value := interval.value * factor
  let reads (candidate : Nat) : Bool :=
    let place := candidate * step
    let low := interval.low * factor
    let high := interval.high * factor
    if interval.closed then low ≤ place && place ≤ high else low < place && place < high
  let below := value / step
  let above := below + 1
  let nearerBelow := 2 * value < (below + above) * step
  let chosen :=
    if reads below && (nearerBelow || !reads above) then some below
    else if reads above then some above
    else none
  chosen.map fun digits => ⟨digits, if digits = 10 ^ count then point + 1 else point⟩

def dropZeros (fuel digits : Nat) : Nat :=
  match fuel with
  | 0 => digits
  | fuel + 1 => if digits % 10 = 0 then dropZeros fuel (digits / 10) else digits

/-- The shortest decimal that reads back as a finite number other than zero; the sign is not part of
it.  Seventeen digits are enough for either format. -/
def shortest {f : Format} (x : Binary f) : Digits :=
  let interval := Interval.around x
  let point := decimalPoint interval.value interval.denominator
  let found := (List.range 17).findSome? fun shorter => interval.onGrid point (shorter + 1)
  let digits := found.getD ⟨interval.value, point⟩
  { digits with digits := dropZeros 17 digits.digits }

end Marshal.Decimal
