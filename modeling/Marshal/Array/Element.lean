import Marshal.Array.DType
import Marshal.Decimal.Text

/-!
# Array elements

Elements lie in memory as little-endian bytes, integers in two's complement, floating-point numbers
as their bit patterns.  `read` and `write` move one element between bytes and its typed value; a
`Scalar` is a typed value together with its type.
-/

namespace Marshal

-- Powers with natural exponents are the core ones, whatever else is in scope.
attribute [local instance (2000)] instPowNat

/-- The number whose base-256 digits are the bytes, the lowest first. -/
def ofLittleEndian : List UInt8 → Nat
  | [] => 0
  | b :: rest => b.toNat + 256 * ofLittleEndian rest

/-- The lowest `count` base-256 digits of a number, the lowest first. -/
def toLittleEndian : Nat → Nat → List UInt8
  | 0, _ => []
  | count + 1, n => UInt8.ofNat (n % 256) :: toLittleEndian count (n / 256)

namespace ElementType

abbrev Carrier : ElementType → Type
  | .int t => Fixed t
  | .float t => Binary t.format

def read : (e : ElementType) → List UInt8 → e.Carrier
  | .int t, bytes => Fixed.wrap t (ofLittleEndian bytes)
  | .float t, bytes => Binary.ofBits t.format (ofLittleEndian bytes)

def write : (e : ElementType) → e.Carrier → List UInt8
  | .int t, x => toLittleEndian t.bytes (x.val % 2 ^ t.bits).toNat
  | .float t, x => toLittleEndian t.bytes x.toBits

/-- Addition in an element type: integers wrap at their width. -/
def add : (e : ElementType) → e.Carrier → e.Carrier → e.Carrier
  | .int _, x, y => x + y
  | .float _, x, y => Binary.add x y

/-- Multiplication in an element type: integers wrap at their width. -/
def mul : (e : ElementType) → e.Carrier → e.Carrier → e.Carrier
  | .int _, x, y => x * y
  | .float _, x, y => Binary.mul x y

/-- An integer taken into an element type: modulo the width, or rounded to the nearest. -/
def ofInt : (e : ElementType) → Int → e.Carrier
  | .int t, n => Fixed.wrap t n
  | .float t, n => Binary.ofInt t.format n

end ElementType

/-- One element of an array, with its type. -/
structure Scalar where
  type : ElementType
  value : type.Carrier

namespace Scalar

def text : Scalar → String
  | ⟨.int _, n⟩ => toString n.val
  | ⟨.float _, x⟩ => Decimal.write .plain x

def read? (dtype : DType) (bytes : List UInt8) : Option Scalar :=
  dtype.element?.map fun type => ⟨type, type.read bytes⟩

end Scalar

end Marshal
