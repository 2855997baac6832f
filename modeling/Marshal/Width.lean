import Marshal.Binary.Format

namespace Marshal

-- Powers with natural exponents are the core ones, whatever else is in scope.
attribute [local instance (2000)] instPowNat

/-- An integer type of fixed width. -/
inductive IntType
  | i8
  | i16
  | i32
  | i64
  | u8
  | u16
  | u32
  | u64
  deriving DecidableEq, Repr

namespace IntType

def bytes : IntType → Nat
  | .i8 | .u8 => 1
  | .i16 | .u16 => 2
  | .i32 | .u32 => 4
  | .i64 | .u64 => 8

def bits (t : IntType) : Nat := 8 * t.bytes

def isSigned : IntType → Bool
  | .i8 | .i16 | .i32 | .i64 => true
  | .u8 | .u16 | .u32 | .u64 => false

def minimum (t : IntType) : Int := if t.isSigned then -(2 ^ (t.bits - 1)) else 0

def maximum (t : IntType) : Int := if t.isSigned then 2 ^ (t.bits - 1) - 1 else 2 ^ t.bits - 1

def contains (t : IntType) (n : Int) : Bool := t.minimum ≤ n && n ≤ t.maximum

/-- The member of the type congruent to `n` modulo two to the power of its width. -/
def wrap (t : IntType) (n : Int) : Int :=
  let residue := n % 2 ^ t.bits
  if t.isSigned ∧ 2 ^ (t.bits - 1) ≤ residue then residue - 2 ^ t.bits else residue

def name : IntType → String
  | .i8 => "i8"
  | .i16 => "i16"
  | .i32 => "i32"
  | .i64 => "i64"
  | .u8 => "u8"
  | .u16 => "u16"
  | .u32 => "u32"
  | .u64 => "u64"

def all : List IntType := [.i8, .i16, .i32, .i64, .u8, .u16, .u32, .u64]

def parse? (name : String) : Option IntType := all.find? fun t => t.name == name

/-- The name used where a program writes out the parts of a value. -/
def label : IntType → String
  | .i8 => "I8"
  | .i16 => "I16"
  | .i32 => "I32"
  | .i64 => "I64"
  | .u8 => "U8"
  | .u16 => "U16"
  | .u32 => "U32"
  | .u64 => "U64"

theorem contains_iff {t : IntType} {n : Int} :
    t.contains n = true ↔ t.minimum ≤ n ∧ n ≤ t.maximum := by
  simp [contains]

theorem contains_wrap (t : IntType) (n : Int) : t.contains (t.wrap n) = true := by
  rw [contains_iff]
  cases t <;>
    simp only [wrap, minimum, maximum, bits, bytes, isSigned, true_and, false_and, if_true, if_false,
      Bool.false_eq_true, Nat.reduceMul, Nat.reduceSub, Int.reducePow, Int.reduceNeg,
      Int.reduceSub] <;>
    (try split) <;> omega

end IntType

/-- An integer that a type of fixed width can hold. -/
structure Fixed (t : IntType) where
  val : Int
  inRange : t.contains val = true

namespace Fixed

variable {t : IntType}

def ofInt? (t : IntType) (n : Int) : Option (Fixed t) :=
  if inRange : t.contains n = true then some ⟨n, inRange⟩ else none

def wrap (t : IntType) (n : Int) : Fixed t := ⟨t.wrap n, t.contains_wrap n⟩

/-- Sums wrap around. -/
instance : Add (Fixed t) := ⟨fun a b => wrap t (a.val + b.val)⟩

/-- Differences wrap around. -/
instance : Sub (Fixed t) := ⟨fun a b => wrap t (a.val - b.val)⟩

/-- Products wrap around. -/
instance : Mul (Fixed t) := ⟨fun a b => wrap t (a.val * b.val)⟩

instance : DecidableEq (Fixed t) := fun left right =>
  decidable_of_iff (left.val = right.val) <| by
    cases left; cases right; simp

end Fixed

/-- A floating-point type. -/
inductive FloatType
  | f32
  | f64
  deriving DecidableEq, Repr

namespace FloatType

def format : FloatType → Format
  | .f32 => .single
  | .f64 => .double

def bytes : FloatType → Nat
  | .f32 => 4
  | .f64 => 8

def name : FloatType → String
  | .f32 => "f32"
  | .f64 => "f64"

def parse? (name : String) : Option FloatType := [FloatType.f32, .f64].find? fun t => t.name == name

def label : FloatType → String
  | .f32 => "F32"
  | .f64 => "F64"

end FloatType

/-- The tag of a dynamic integer: the fixed width it came from, or none. -/
abbrev IntTag := Option IntType

namespace IntTag

/-- What an integer without a fixed width can be: a signed number of 128 bits. -/
def widest : Int × Int := (-(2 ^ (127 : Nat)), 2 ^ (127 : Nat) - 1)

def name : IntTag → String
  | some t => t.name
  | none => "int"

def parse? (name : String) : Option IntTag :=
  if name = "int" then some none else (IntType.parse? name).map some

def label : IntTag → String
  | some t => t.label
  | none => "Unbounded"

def bits : IntTag → Option Nat
  | some t => some t.bits
  | none => none

def isSigned : IntTag → Bool
  | some t => t.isSigned
  | none => true

def range : IntTag → Int × Int
  | some t => (t.minimum, t.maximum)
  | none => widest

def contains (tag : IntTag) (n : Int) : Bool := tag.range.1 ≤ n && n ≤ tag.range.2

end IntTag

end Marshal
