import Marshal.Binary.Arithmetic
import Marshal.Decimal.Shortest

namespace Marshal.Decimal

/-- The choices of a written form. -/
structure Form where
  /-- Whether a number with this decimal point is written in positions, not with an exponent. -/
  positional : Int → Bool
  /-- Whether a whole number written in positions ends in `.0`. -/
  keepsFraction : Bool
  /-- Whether a number that is not negative starts with a plus sign. -/
  showsPlus : Bool
  /-- A power of ten, by its exponent. -/
  power : Int → String := fun exponent => "e" ++ toString exponent
  nan : String := "NaN"

namespace Form

/-- Positions always, and no more digits than needed. -/
def plain : Form :=
  { positional := fun _ => true
    keepsFraction := false
    showsPlus := false }

/-- As `plain`, with a sign in front also of numbers that are not negative. -/
def withSign : Form := { plain with showsPlus := true }

/-- Positions from `0.0001` up to below `10 ^ 16`, with a fraction on whole numbers. -/
def literal : Form :=
  { positional := fun point => -3 ≤ point && point ≤ 16
    keepsFraction := true
    showsPlus := false }

/-- As `literal`, with a sign and at least two digits in exponents. -/
def signedPower : Form :=
  { literal with
    power := fun exponent =>
      (if exponent < 0 then "e-" else "e+") ++ (if exponent.natAbs < 10 then "0" else "") ++
        toString exponent.natAbs
    nan := "nan" }

end Form

def Digits.positional (d : Digits) (keepsFraction : Bool) : String :=
  let text := toString d.digits
  let zeros (count : Int) : String := "".pushn '0' count.toNat
  if d.point ≤ 0 then "0." ++ zeros (-d.point) ++ text
  else
    let whole := d.point.toNat
    if text.length ≤ whole then
      text ++ zeros (d.point - text.length) ++ if keepsFraction then ".0" else ""
    else String.ofList (text.toList.take whole) ++ "." ++ String.ofList (text.toList.drop whole)

/-- The digits written with one digit before the point and a power of ten. -/
def Digits.scientific (d : Digits) (power : Int → String) : String :=
  let exponent := power (d.point - 1)
  match (toString d.digits).toList with
  | [] => exponent
  | [digit] => digit.toString ++ exponent
  | digit :: rest => digit.toString ++ "." ++ String.ofList rest ++ exponent

variable {f : Format}

def write (form : Form) (x : Binary f) : String :=
  if x.isNaN then form.nan
  else
    let sign := if x.isNegative then "-" else if form.showsPlus then "+" else ""
    if x.isInfinite then sign ++ "inf"
    else if x.isZero then sign ++ if form.keepsFraction then "0.0" else "0"
    else
      let digits := shortest x
      sign ++ if form.positional digits.point then digits.positional form.keepsFraction
        else digits.scientific form.power

/-- A whole number with all its digits and one zero after the point. -/
def writeWhole (x : Binary f) : String :=
  (if x.isNegative then "-" else "") ++ toString x.truncatedMagnitude ++ ".0"

end Marshal.Decimal
