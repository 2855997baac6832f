import Marshal.Width

namespace Marshal

/-- A type whose values native code can read from an array and write to it. -/
inductive ElementType
  | int (type : IntType)
  | float (type : FloatType)
  deriving DecidableEq, Repr

namespace ElementType

def bytes : ElementType → Nat
  | .int t => t.bytes
  | .float t => t.bytes

def all : List ElementType :=
  [.int .i8, .int .i16, .int .i32, .int .i64, .int .u8, .int .u16, .int .u32, .int .u64,
    .float .f32, .float .f64]

end ElementType

/-- What one cell of an array holds. -/
inductive DType
  | bool
  | number (type : ElementType)
  | complex (part : FloatType)
  deriving DecidableEq, Repr

namespace DType

def int (t : IntType) : DType := .number (.int t)

def float (t : FloatType) : DType := .number (.float t)

/-- Bytes of one cell; a complex number is two parts side by side. -/
def size : DType → Nat
  | .bool => 1
  | .number t => t.bytes
  | .complex part => 2 * part.bytes

/-- The spellings of a type, the full name first, then its short code and its format character. -/
def spellings : DType → List String
  | .bool => ["bool", "bool_", "?"]
  | .number (.int .i8) => ["int8", "i1", "b"]
  | .number (.int .i16) => ["int16", "i2", "h"]
  | .number (.int .i32) => ["int32", "i4", "i"]
  | .number (.int .i64) => ["int64", "i8", "q"]
  | .number (.int .u8) => ["uint8", "u1", "B"]
  | .number (.int .u16) => ["uint16", "u2", "H"]
  | .number (.int .u32) => ["uint32", "u4", "I"]
  | .number (.int .u64) => ["uint64", "u8", "Q"]
  | .number (.float .f32) => ["float32", "f4", "f"]
  | .number (.float .f64) => ["float64", "f8", "d", "float"]
  | .complex .f32 => ["complex64", "c8", "F"]
  | .complex .f64 => ["complex128", "c16", "D", "complex"]

def name (d : DType) : String := d.spellings.headD ""

def typeChar (d : DType) : String := d.spellings.getD 2 ""

/-- The name used where a program writes out the parts of a value. -/
def label : DType → String
  | .bool => "Bool"
  | .number (.int t) => (if t.isSigned then "Int" else "UInt") ++ toString t.bits
  | .number (.float t) => "Float" ++ toString (8 * t.bytes)
  | .complex t => "Complex" ++ toString (16 * t.bytes)

def all : List DType :=
  .bool :: ElementType.all.map .number ++ [.complex .f32, .complex .f64]

def parse? (text : String) : Option DType :=
  all.find? fun d => d.spellings.contains text

/-- The type that native code computes with, if there is one. -/
def element? : DType → Option ElementType
  | .number t => some t
  | _ => none

def isSupported (d : DType) : Bool := d.element?.isSome

def isInteger : DType → Bool
  | .number (.int _) => true
  | _ => false

def isFloat : DType → Bool
  | .number (.float _) => true
  | _ => false

def isComplex : DType → Bool
  | .complex _ => true
  | _ => false

def isSigned : DType → Bool
  | .bool => false
  | .number (.int t) => t.isSigned
  | _ => true

/-- Reads one format code of an exported buffer.  With native sizes a C `long` has eight bytes, with
standard sizes four; a signed or unsigned address difference always has eight.  A code of several
characters is a spelling. -/
def ofFormatCode (nativeSizes : Bool) (code : String) : Option DType :=
  match code with
  | "l" => some (.int (if nativeSizes then .i64 else .i32))
  | "L" => some (.int (if nativeSizes then .u64 else .u32))
  | "n" => some (.int .i64)
  | "N" => some (.int .u64)
  | _ => parse? code

/-- Reads the format of an exported buffer: a mark of byte order and sizes, then a code.  Without a
mark, and after `@`, sizes are native; the marks of the other byte order are refused. -/
def ofBufferFormat (format : String) : Option DType :=
  match format.toList with
  | [] => none
  | '@' :: code => ofFormatCode true (String.ofList code)
  | '=' :: code | '<' :: code => ofFormatCode false (String.ofList code)
  | '>' :: _ | '!' :: _ => none
  | _ => ofFormatCode true format

end DType

end Marshal
