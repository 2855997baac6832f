import Marshal.Array.Element
import Marshal.Array.Layout
import Marshal.Host.Fault
import Marshal.Value.Basic

/-!
# Objects that export their memory

An exporter shows part of its memory as an array: a format code says what an item is, a shape and
strides say where the items lie, counted from `start`.  Strides may be negative, as they are after
slicing backwards.  The items of an exporter are read by its format code alone, without the array
types that native code works with.

Memory that does not fit the items it is to hold is refused when the exporter is made.
-/

namespace Marshal.Host

/-- Memory that an object of the host shows to others. -/
structure Exporter where
  className : String
  /-- The module that the class says it belongs to, if it says any. -/
  moduleName? : Option String := none
  memory : List UInt8
  start : Nat := 0
  format : String
  itemSize : Nat
  shape : List Nat
  strides : List Int
  isReadonly : Bool := false
  /-- Whether items are reached through pointers in the memory. -/
  isIndirect : Bool := false
  /-- Whether the object has given up its memory and refuses every use. -/
  isReleased : Bool := false

/-- The bytes of an item with a native format character. -/
def codeSize : Char → Nat
  | 'h' | 'H' | 'e' => 2
  | 'i' | 'I' | 'f' | 'u' | 'w' => 4
  | 'l' | 'L' | 'q' | 'Q' | 'n' | 'N' | 'd' | 'P' => 8
  | _ => 1

/-- The bytes of an item: the last character of a format says it all. -/
def formatSize (format : String) : Nat := codeSize (format.toList.getLastD 'B')

/-- The one character that a format consists of, besides a mark for native size and order. -/
def formatCharacter? (format : String) : Option Char :=
  match format.toList with
  | ['@', code] | [code] => some code
  | _ => none

def nativeSize? (format : String) : Option Nat := do
  let code ← formatCharacter? format
  if "cbB?hHiIlLqQnNfdP".toList.contains code then some (codeSize code) else none

/-- Strides of items side by side, the last axis varying fastest. -/
def packed (size : Nat) : List Nat → List Int
  | [] => []
  | _ :: shape => (size * shape.prod : Nat) :: packed size shape

namespace Exporter

/-- Items side by side; without a shape they form one axis. -/
def ofMemory (className format : String) (shape? : Option (List Nat)) (memory : List UInt8) :
    Exporter :=
  let size := formatSize format
  let shape := shape?.getD [memory.length / size]
  { className, memory, format, itemSize := size, shape, strides := packed size shape }

def byteArray (memory : List UInt8) : Exporter := ofMemory "bytearray" "B" none memory

/-- Numbers of one machine type; a code for characters is exported under another name. -/
def numberArray (code : String) (memory : List UInt8) : Except Fault Exporter :=
  match code.toList with
  | [character] =>
    if !"bBuhHiIlLqQfd".toList.contains character then
      .error ⟨.value, "bad typecode (must be b, B, u, h, H, i, I, l, L, q, Q, f or d)"⟩
    else if memory.length % codeSize character ≠ 0 then
      .error ⟨.value, "bytes length not a multiple of item size"⟩
    else
      .ok { ofMemory "array" (if code = "u" then "w" else code) none memory with
        moduleName? := some "array" }
  | _ => .error ⟨.type, "array() argument 1 must be a unicode character, not str"⟩

/-- The bytes that a shape asks for, its lengths multiplied from the left. -/
def extentOf (itemSize : Nat) (shape : List Int) : Except Fault Nat :=
  shape.foldlM (fun bytes dim =>
    if dim.natAbs > Size.signedMax then
      .error ⟨.overflow, "Python int too large to convert to C ssize_t"⟩
    else if dim ≤ 0 then
      .error ⟨.value, "memoryview.cast(): elements of shape must be integers > 0"⟩
    else if Size.signedMax < bytes * dim.toNat then
      .error ⟨.value, "memoryview.cast(): product(shape) > SSIZE_MAX"⟩
    else .ok (bytes * dim.toNat)) itemSize

/-- A view of memory as items of a native format, in a shape that uses all of it. -/
def memoryView (format : String) (shape? : Option (List Int)) (memory : List UInt8) :
    Except Fault Exporter := do
  if let some shape := shape? then
    if memory.isEmpty then
      throw ⟨.type, "memoryview: cannot cast view with zeros in shape or strides"⟩
    if 64 < shape.length then
      throw ⟨.value, "memoryview: number of dimensions must not exceed 64"⟩
  let some size := nativeSize? format
    | throw ⟨.value, "memoryview: destination format must be a native single character format " ++
        "prefixed with an optional '@'"⟩
  if memory.length % size ≠ 0 then
    throw ⟨.type, "memoryview: length is not a multiple of itemsize"⟩
  if let some shape := shape? then
    if (← extentOf size shape) ≠ memory.length then
      throw ⟨.type, "memoryview: product(shape) * itemsize != buffer size"⟩
  return ofMemory "memoryview" format (shape?.map (·.map Int.toNat)) memory

/-- The format characters of foreign types, and the names that their classes go by. -/
def foreignType? : String → Option (String × String)
  | "c_short" => some ("h", "c_short")
  | "c_int" => some ("i", "c_int")
  | "c_ubyte" => some ("B", "c_ubyte")
  | "c_float" => some ("f", "c_float")
  | "c_double" => some ("d", "c_double")
  | "c_bool" => some ("?", "c_bool")
  | "c_long" | "c_longlong" => some ("q", "c_long")
  | "c_ulong" | "c_size_t" => some ("Q", "c_ulong")
  | "c_char" => some ("c", "c_char")
  | "c_wchar" => some ("u", "c_wchar")
  | "c_void_p" => some ("P", "c_void_p")
  | _ => none

/-- A foreign value or an array of them, made from the first bytes of the given memory.  Its format
tells the byte order, and its class is named from the inside out. -/
def foreign? (type : String) (bigEndian : Bool) (shape : List Nat) (memory : List UInt8) :
    Option (Except Fault Exporter) :=
  (foreignType? type).map fun (code, name) =>
    let name := if bigEndian then name ++ "_be" else name
    let className := shape.reverse.foldl (fun name dim => s!"{name}_Array_{dim}") name
    let size := shape.foldl (· * ·) (formatSize code)
    if memory.length < size then
      .error ⟨.value,
        s!"Buffer size too small ({memory.length} instead of at least {size} bytes)"⟩
    else
      .ok (ofMemory className ((if bigEndian then ">" else "<") ++ code) (some shape)
        (memory.take size))

/-- A bound of a slice: negative ones count from the end, and the result lies in the given range. -/
def sliceBound (length : Nat) (least most : Int) (bound : Int) : Int :=
  max least (min most (if bound < 0 then bound + length else bound))

/-- Where a slice of `length` items starts, and how many items it has. -/
def sliceItems (length : Nat) (start? stop? : Option Int) (step : Int) : Int × Nat :=
  if step < 0 then
    let bound := sliceBound length (-1) (length - 1)
    let start := (start?.map bound).getD (length - 1)
    let stop := (stop?.map bound).getD (-1)
    (start, if stop < start then ((start - stop - 1) / (-step) + 1).toNat else 0)
  else
    let bound := sliceBound length 0 length
    let start := (start?.map bound).getD 0
    let stop := (stop?.map bound).getD length
    (start, if start < stop then ((stop - start - 1) / step + 1).toNat else 0)

variable (e : Exporter)

/-- Every `step`-th item along the first axis.  The step is taken as a signed size, and so is the
stride that comes of it. -/
def slice (start? stop? step? : Option Int) : Except Fault Exporter :=
  let limit : Int := Size.signedMax
  let step := max (-limit) (min limit (step?.getD 1))
  match e.shape, e.strides with
  | length :: shape, stride :: strides =>
    if step = 0 then .error ⟨.value, "slice step cannot be zero"⟩
    else
      let (start, count) := sliceItems length start? stop? step
      .ok { e with
        start := (e.start + start * stride).toNat
        shape := count :: shape
        strides := (stride * step).bmod Size.bound :: strides }
  | _, _ => .error ⟨.type, "invalid indexing of 0-dim memory"⟩

def isGrowable : Bool := e.className = "bytearray" || e.moduleName?.isSome

def grown : Exporter :=
  { e with
    memory := e.memory ++ List.replicate e.itemSize 0
    shape := e.shape.map (· + 1) }

/-- The item made of some bytes, by its format character. -/
def readItem? (code : Char) (bytes : List UInt8) : Option Value :=
  let number (type : ElementType) : Option Value :=
    let item : Scalar := ⟨type, type.read bytes⟩
    match item with
    | ⟨.int _, n⟩ => some (.ofInt n.val)
    | ⟨.float _, x⟩ => some (.ofFloat (Binary.convert .double x))
  match code with
  | 'c' => some (.bytes bytes)
  | '?' => some (.bool (bytes.any (· ≠ 0)))
  | 'P' => number (.int .u64)
  | _ =>
    match DType.ofFormatCode true code.toString with
    | some (.number type) => number type
    | _ => none

/-- Items as sequences within sequences, for the axes that are left. -/
def itemsFrom (read : List UInt8 → Option Value) : List (Nat × Int) → Int → Option Value
  | [], offset => read ((e.memory.drop offset.toNat).take e.itemSize)
  | (dim, stride) :: axes, offset => do
    let items ← (List.range dim).mapM fun i : Nat => itemsFrom read axes (offset + i * stride)
    return .seq items

/-- All items.  Only formats of one native character can be read. -/
def items? : Option Value := do
  e.itemsFrom (readItem? (← formatCharacter? e.format)) (e.shape.zip e.strides) e.start

end Exporter

end Marshal.Host
