import Marshal.Array.Layout
import Marshal.Binary.Arithmetic

/-!
# Dynamic values

`Value` is what crosses the boundary between a caller and native code: scalars, text, bytes,
containers, and references to two things that live in the store, an object behind a handle and an
array over a buffer.  Numbers remember the native width they came from, but the tag takes no part in
equality.
-/

namespace Marshal

/-- Who answers for the bytes of an array. -/
inductive Ownership
  | owned
  | borrowed
  | view
  deriving DecidableEq, Repr

/-- An array as seen by its holders: a layout over a shared buffer, and the array it was derived
from, if any. -/
structure ArrayView where
  id : Nat
  layout : Layout
  buffer : Nat
  ownership : Ownership
  base? : Option Nat
  deriving DecidableEq

namespace ArrayView

variable (view : ArrayView)

def shape : List Nat := view.layout.shape

def strides : List Int := view.layout.strides

def dtype : DType := view.layout.dtype

def isView : Bool := view.base?.isSome

def isOwning : Bool := view.ownership == .owned

def sharesStorage (other : ArrayView) : Bool := view.buffer == other.buffer

end ArrayView

/-- A reference to a native instance: its slot in the store, and the class it was created for. -/
structure Handle where
  slot : Nat
  classId : Nat
  className : String
  deriving DecidableEq, Repr

/-- Handles are numbered from one in the order of their creation.  The counter has 64 bits, and fewer than
2^64 handles are made. -/
def Handle.id (handle : Handle) : Nat := handle.slot + 1

/-- How the journal and errors name a method of an instance. -/
def Handle.qualified (handle : Handle) (method : String) : String := s!"{handle.className}.{method}"

/-- The values that can key a mapping. -/
inductive Key
  | bool (b : Bool)
  | int (n : Int)
  | str (s : String)
  | bytes (b : List UInt8)
  deriving DecidableEq, Repr

/-- A value crossing the boundary. -/
inductive Value
  | none
  | bool (b : Bool)
  | int (n : Int) (tag : IntTag)
  | float (x : Binary64) (width : FloatType)
  | complex (re im : Binary64) (width : FloatType)
  | str (s : String)
  | bytes (b : List UInt8)
  | seq (items : List Value)
  | map (entries : List (Key × Value))
  | object (handle : Handle)
  | array (view : ArrayView)

instance : Inhabited Value := ⟨.none⟩

namespace Key

def typeName : Key → String
  | .bool _ => "bool"
  | .int _ => "int"
  | .str _ => "str"
  | .bytes _ => "bytes"

def toValue : Key → Value
  | .bool b => .bool b
  | .int n => .int n none
  | .str s => .str s
  | .bytes b => .bytes b

end Key

namespace Value

def ofInt (n : Int) : Value := .int n Option.none

def ofFloat (x : Binary64) : Value := .float x .f64

/-- The name that a caller knows the value's type by. -/
def typeName : Value → String
  | .none => "NoneType"
  | .bool _ => "bool"
  | .int .. => "int"
  | .float .. => "float"
  | .complex .. => "complex"
  | .str _ => "str"
  | .bytes _ => "bytes"
  | .seq _ => "list"
  | .map _ => "dict"
  | .object handle => handle.className
  | .array _ => "ndarray"

def isNone : Value → Bool
  | .none => true
  | _ => false

def toKey : Value → Except Error Key
  | .bool b => .ok (.bool b)
  | .int n _ => .ok (.int n)
  | .str s => .ok (.str s)
  | .bytes b => .ok (.bytes b)
  | v => .error (.mismatch "hashable key" v.typeName)

def asBool? : Value → Option Bool
  | .bool b => some b
  | _ => Option.none

def asInt? : Value → Option Int
  | .int n _ => some n
  | _ => Option.none

def asFloat? : Value → Option Binary64
  | .float x _ => some x
  | _ => Option.none

def asComplex? : Value → Option (Binary64 × Binary64)
  | .complex re im _ => some (re, im)
  | _ => Option.none

def asStr? : Value → Option String
  | .str s => some s
  | _ => Option.none

def asBytes? : Value → Option (List UInt8)
  | .bytes b => some b
  | _ => Option.none

def asSeq? : Value → Option (List Value)
  | .seq items => some items
  | _ => Option.none

def asMap? : Value → Option (List (Key × Value))
  | .map entries => some entries
  | _ => Option.none

def asObject? : Value → Option Handle
  | .object handle => some handle
  | _ => Option.none

def asArray? : Value → Option ArrayView
  | .array view => some view
  | _ => Option.none

end Value

/-- Entries in the order in which their keys were first given. -/
abbrev Entries (κ α : Type) := List (κ × α)

namespace Entries

variable {κ α : Type} [DecidableEq κ]

def get? (entries : Entries κ α) (key : κ) : Option α :=
  (entries.find? fun entry => entry.1 = key).map Prod.snd

/-- Gives a key a value: in its old place if it has one, at the end otherwise. -/
def insert : Entries κ α → κ → α → Entries κ α
  | [], key, value => [(key, value)]
  | entry :: rest, key, value =>
    if entry.1 = key then (key, value) :: rest else entry :: insert rest key value

def ofList (given : List (κ × α)) : Entries κ α :=
  given.foldl (fun entries entry => insert entries entry.1 entry.2) []

end Entries

namespace Value

mutual

/-- Whether two values have the same content.  Width tags do not count; numbers compare as numbers,
objects and arrays by what they refer to, mappings without regard to order. -/
def equals : Value → Value → Bool
  | .none, .none => true
  | .bool a, .bool b => a == b
  | .int a _, .int b _ => a == b
  | .float a _, .float b _ => a.equals b
  | .complex ar ai _, .complex br bi _ => ar.equals br && ai.equals bi
  | .str a, .str b => a == b
  | .bytes a, .bytes b => a == b
  | .seq a, .seq b => itemsEqual a b
  | .map a, .map b => a.length == b.length && entriesFound a b
  | .object a, .object b => a.slot == b.slot
  | .array a, .array b => a.sharesStorage b
  | _, _ => false

def itemsEqual : List Value → List Value → Bool
  | [], [] => true
  | a :: rest, b :: others => equals a b && itemsEqual rest others
  | _, _ => false

/-- Whether every entry has an equal one under its key among the others. -/
def entriesFound : List (Key × Value) → List (Key × Value) → Bool
  | [], _ => true
  | (key, value) :: rest, others =>
    (match Entries.get? others key with
      | some other => equals value other
      | Option.none => false) && entriesFound rest others

end

end Value

end Marshal
