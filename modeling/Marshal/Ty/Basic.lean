import Marshal.Array.Element
import Marshal.NativeType
import Marshal.Value.Text

namespace Marshal

/-- A native integer type: of fixed width, or as wide as an address. -/
inductive NativeInt
  | fixed (type : IntType)
  | isize
  | usize
  deriving DecidableEq, Repr

namespace NativeInt

def type : NativeInt → IntType
  | .fixed t => t
  | .isize => .i64
  | .usize => .u64

def name : NativeInt → String
  | .fixed t => t.name
  | .isize => "isize"
  | .usize => "usize"

def all : List NativeInt := .isize :: .usize :: IntType.all.map .fixed

def parse? (name : String) : Option NativeInt := all.find? fun t => t.name == name

end NativeInt

/-- The types that can key a native mapping. -/
inductive KeyTy
  | bool
  | int (type : NativeInt)
  | text
  deriving DecidableEq, Repr

namespace KeyTy

abbrev Carrier : KeyTy → Type
  | .bool => Bool
  | .int t => Fixed t.type
  | .text => String

instance : (k : KeyTy) → DecidableEq k.Carrier
  | .bool => inferInstanceAs (DecidableEq Bool)
  | .int t => inferInstanceAs (DecidableEq (Fixed t.type))
  | .text => inferInstanceAs (DecidableEq String)

/-- The order of sorted mappings: false before true, integers by value, text by code points. -/
def precedes : (k : KeyTy) → k.Carrier → k.Carrier → Bool
  | .bool, a, b => !a && b
  | .int _, a, b => a.val < b.val
  | .text, a, b => a < b

def native : KeyTy → NativeType
  | .bool => .bool
  | .int t => .int (some t.type)
  | .text => .str

end KeyTy

/-- How a native mapping orders its entries. -/
inductive MapKind
  | unordered
  | byInsertion
  | byKey
  deriving DecidableEq, Repr

/-- A native type. -/
inductive Ty
  | unit
  | bool
  | int (type : NativeInt)
  | float (type : FloatType)
  | complex (part : FloatType)
  | text
  | bytes
  | any
  | object
  | array
  | option (item : Ty)
  | list (item : Ty)
  | pair (first second : Ty)
  | map (kind : MapKind) (key : KeyTy) (value : Ty)
  deriving DecidableEq, Repr

namespace Ty

abbrev fixed (t : IntType) : Ty := .int (.fixed t)

abbrev Carrier : Ty → Type
  | .unit => Unit
  | .bool => Bool
  | .int t => Fixed t.type
  | .float t => Binary t.format
  | .complex part => Binary part.format × Binary part.format
  | .text => String
  | .bytes => List UInt8
  | .any => Value
  | .object => Handle
  | .array => ArrayView
  | .option item => Option item.Carrier
  | .list item => List item.Carrier
  | .pair first second => first.Carrier × second.Carrier
  | .map _ key value => Entries key.Carrier value.Carrier

/-- The description of a type.  An optional type is described like the type itself, and a pair as a
sequence of anything. -/
def native : Ty → NativeType
  | .unit => .none
  | .bool => .bool
  | .int t => .int (some t.type)
  | .float t => .float t
  | .complex part => .complex part
  | .text => .str
  | .bytes => .bytes
  | .any => .any
  | .object => .object "object"
  | .array => .array
  | .option item => item.native
  | .list item => .seq item.native
  | .pair _ _ => .seq .any
  | .map _ key value => .map key.native value.native

end Ty

end Marshal
