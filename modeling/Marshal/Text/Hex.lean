import Marshal.Text.Quoted

namespace Marshal.Text

def hexValue? (c : Char) : Option Nat :=
  if '0' ≤ c ∧ c ≤ '9' then some (c.toNat - '0'.toNat)
  else if 'a' ≤ c ∧ c ≤ 'f' then some (c.toNat - 'a'.toNat + 10)
  else none

def ofHexDigits? : List Char → Option (List UInt8)
  | [] => some []
  | [_] => none
  | high :: low :: rest => do
    let high ← hexValue? high
    let low ← hexValue? low
    return UInt8.ofNat (16 * high + low) :: (← ofHexDigits? rest)

def ofHex? (text : String) : Option (List UInt8) := ofHexDigits? text.toList

/-- Two lower-case digits for each byte, the high one first. -/
def hex (bytes : List UInt8) : String := String.join (bytes.map hexByte)

end Marshal.Text
