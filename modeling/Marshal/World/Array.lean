import Marshal.Array.Index
import Marshal.Ty.Convert
import Marshal.World.Basic

/-!
# Arrays in the world

Making arrays, reading and writing their elements, and holding their bytes.  Views share buffers: a
derived view has a number of its own but its base's memory.  Reading takes a buffer that nobody
writes, writing takes one that nobody uses and that is not read-only; an operation that is refused
changes nothing.
-/

namespace Marshal

variable {σ : Type}

namespace Act

/-- Room for this many bytes; more than the largest signed size is a panic. -/
def allocate (count : Nat) : Act σ Unit :=
  if Size.signedMax < count then panic (.text "capacity overflow") else pure ()

/-- An address; one that is no size is a panic. -/
def ofAddress {α : Type} : Except AddressFault α → Act σ α
  | .ok a => pure a
  | .error (.refused e) => fail e
  | .error .overflow => panic (.text "attempt to add with overflow")

end Act

/-- The bytes from `start` up to and excluding `stop`; bounds outside the memory are a panic. -/
def bytesBetween (bytes : List UInt8) (start stop : Nat) : Act σ (List UInt8) :=
  if stop < start then
    Act.panic (.text s!"slice index starts at {start} but ends at {stop}")
  else if bytes.length < stop then
    Act.panic (.text s!"range end index {stop} out of range for slice of length {bytes.length}")
  else pure ((bytes.drop start).take (stop - start))

/-- Memory with some of its bytes replaced.  What would lie behind its end is not written, so that
memory keeps its size. -/
def overwrite (bytes : List UInt8) (start : Nat) (fresh : List UInt8) : List UInt8 :=
  bytes.take start ++ fresh.take (bytes.length - start) ++ bytes.drop (start + fresh.length)

namespace ArrayView

def make (layout : Layout) (buffer : Buffer) (ownership : Ownership) : Act σ ArrayView := do
  let view ← Act.read fun w =>
    { id := w.arrayCount + 1, layout, buffer := w.buffers.length, ownership, base? := none }
  Act.modify fun w =>
    { w with arrayCount := w.arrayCount + 1, buffers := w.buffers ++ [buffer] }
  Act.log ⟨.trace, .array, "wrapped array",
    [.ofNat "id" view.id, ⟨"dtype", layout.dtype.name⟩,
      ⟨"shape", Text.bracketedNats layout.shape⟩, ⟨"ownership", ownership.label⟩]⟩
  return view

def derive (view : ArrayView) (layout : Layout) : Act σ ArrayView := do
  let id ← Act.read fun w => w.arrayCount + 1
  Act.modify fun w => { w with arrayCount := w.arrayCount + 1 }
  return { id, layout, buffer := view.buffer, ownership := .view, base? := some view.id }

def checkDType (dtype : DType) : Except Error Unit :=
  if dtype.isSupported then .ok () else .error (.unsupportedDType dtype.name)

def ownedBuffer (bytes : List UInt8) : Buffer :=
  { bytes, isReadonly := false, keeper? := none, access := .idle }

def wrap (data : List UInt8) (shape : List Nat) (strides : List Int) (dtype : DType) :
    Act σ ArrayView := do
  Act.ofExcept (checkDType dtype)
  let layout ← Act.ofExcept (Layout.strided shape strides dtype 0)
  Act.ofExcept (layout.validate data.length)
  make layout (ownedBuffer data) .owned

def ofElements (type : ElementType) (elements : List type.Carrier) (shape : List Nat) :
    Act σ ArrayView := do
  let layout := Layout.cContiguous shape (.number type)
  if layout.size ≠ elements.length then
    Act.fail (.bufferLayout
      s!"{elements.length} values cannot fill shape {Text.bracketedNats shape}")
  else make layout (ownedBuffer (elements.flatMap type.write)) .owned

def zeros (shape : List Nat) (dtype : DType) : Act σ ArrayView := do
  Act.ofExcept (checkDType dtype)
  let layout := Layout.cContiguous shape dtype
  let nbytes ← Act.ofOption (Layout.overflowError shape layout.strides) layout.checkedNbytes
  Act.allocate nbytes
  make layout (ownedBuffer (List.replicate nbytes 0)) .owned

def borrow (data : List UInt8) (layout : Layout) (readonly : Bool) (keeper : Keeper) :
    Act σ ArrayView := do
  Act.ofExcept (checkDType layout.dtype)
  Act.ofExcept (layout.validate data.length)
  let buffer := { bytes := data, isReadonly := readonly, keeper? := some keeper, access := .idle }
  make layout buffer .borrowed

variable (view : ArrayView)

/-- The buffer of a view.  Every view has one; the empty one stands in for none. -/
def memory : Act σ Buffer := Act.read fun w => (w.buffer? view).getD (ownedBuffer [])

/-- The bytes of the buffer, if nobody is writing them. -/
def readable : Act σ (List UInt8) := do
  let buffer ← view.memory
  let _ ← Act.ofOption (.borrowedMutation "array is being mutated") buffer.access.share?
  return buffer.bytes

/-- The bytes of the buffer, if they may be written and nobody is using them. -/
def writable : Act σ (List UInt8) := do
  let buffer ← view.memory
  if buffer.isReadonly then Act.fail (.borrowedMutation "array is read-only")
  let _ ← Act.ofOption (.borrowedMutation "array is already borrowed") buffer.access.seize?
  return buffer.bytes

def writeBytes (start : Nat) (fresh : List UInt8) : Act σ Unit :=
  Act.modify fun w =>
    w.setBuffer view.buffer fun b => { b with bytes := overwrite b.bytes start fresh }

/-- The bytes of the buffer, if they may be used in this way. -/
def borrowed (writable : Bool) : Act σ (List UInt8) :=
  if writable then view.writable else view.readable

def setAccess (f : Access → Access) (w : World σ) : World σ :=
  w.setBuffer view.buffer fun b => { b with access := f b.access }

def whileHeld {α : Type} (writable : Bool) (act : Act σ α) : Act σ α :=
  Act.bracket (view.setAccess fun access => (access.enter? writable).getD access)
    (view.setAccess (Access.leave writable)) act

def checkElement (type : ElementType) : Except Error Unit :=
  if view.dtype = .number type then .ok ()
  else .error (.mismatch s!"ndarray of {(DType.number type).name}" s!"ndarray of {view.dtype.name}")

def offsetOf (index : List Nat) : Act σ Nat := do
  Act.ofOption
    (.bufferLayout (s!"index {Text.bracketedNats index} out of bounds for shape " ++
      Text.bracketedNats view.shape))
    (← Act.ofAddress (view.layout.byteOffset index))

def elementAt (bytes : List UInt8) (offset : Nat) : Act σ (List UInt8) :=
  bytesBetween bytes offset (offset + view.dtype.size)

def elementBytes (bytes : List UInt8) (index : List Nat) : Act σ (List UInt8) := do
  view.elementAt bytes (← Act.ofAddress (view.layout.elementOffset index))

def scalarIn (bytes : List UInt8) (index : List Nat) : Act σ Scalar := do
  let element ← view.elementBytes bytes index
  Act.ofOption (.unsupportedDType view.dtype.name) (Scalar.read? view.dtype element)

def get (type : ElementType) (index : List Nat) : Act σ type.Carrier := do
  Act.ofExcept (view.checkElement type)
  let offset ← view.offsetOf index
  let bytes ← view.readable
  return type.read (← view.elementAt bytes offset)

def set (type : ElementType) (index : List Nat) (element : type.Carrier) : Act σ Unit := do
  Act.ofExcept (view.checkElement type)
  let offset ← view.offsetOf index
  let bytes ← view.writable
  let _ ← bytesBetween bytes offset (offset + type.bytes)
  view.writeBytes offset (type.write element)

def scalarAt (index : List Nat) : Act σ Scalar := do
  let _ ← view.offsetOf index
  let bytes ← view.readable
  view.scalarIn bytes index

def elements (type : ElementType) : Act σ (List type.Carrier) := do
  Act.ofExcept (view.checkElement type)
  let bytes ← view.readable
  (Index.all view.shape).mapM fun index => do
    return type.read (← view.elementBytes bytes index)

def scalars : Act σ (List Scalar) := do
  let bytes ← view.readable
  (Index.all view.shape).mapM (view.scalarIn bytes)

/-- The element at an index as it is now, after where it lies. -/
def elementNow (type : ElementType) (index : List Nat) : Act σ (Nat × type.Carrier) := do
  let buffer ← view.memory
  let offset ← Act.ofAddress (view.layout.elementOffset index)
  return (offset, type.read (← view.elementAt buffer.bytes offset))

/-- Replaces the elements at these indices one after the other, and lists what else the action gives
for each of them. -/
def replaceElements {α : Type} (type : ElementType) (f : type.Carrier → Act σ (type.Carrier × α)) :
    List (List Nat) → Act σ (List α)
  | [] => pure []
  | index :: rest => do
    let (offset, old) ← view.elementNow type index
    let (element, seen) ← f old
    view.writeBytes offset (type.write element)
    return seen :: (← replaceElements type f rest)

/-- Replaces every element by what the action gives for it. -/
def updateElements {α : Type} (type : ElementType) (f : type.Carrier → Act σ (type.Carrier × α)) :
    Act σ (List α) := do
  Act.ofExcept (view.checkElement type)
  if view.layout.hasOverlap then
    Act.fail (.bufferLayout "cannot mutate an array whose elements overlap")
  let _ ← view.writable
  let seen ← view.whileHeld true (view.replaceElements type f (Index.all view.shape))
  Act.log ⟨.trace, .array, "mutated array in place",
    [.ofNat "id" view.id, .ofNat "elements" view.layout.size]⟩
  return seen

/-- Replaces every element by what the action gives for it, and nothing else. -/
def mapElements (type : ElementType) (f : type.Carrier → Act σ type.Carrier) : Act σ Unit := do
  let _ ← view.updateElements type fun old => do return (← f old, ())
  pure ()

/-- Refuses layouts whose elements do not lie side by side. -/
def requireContiguous : Except Error Unit :=
  if view.layout.isContiguous then .ok ()
  else .error (.bufferLayout (s!"array with shape {Text.bracketedNats view.shape} and strides " ++
    s!"{Layout.stridesText view.strides} is not contiguous"))

def packedBytes (bytes : List UInt8) : Act σ (List UInt8) := do
  bytesBetween bytes view.layout.offset (← Act.ofAddress view.layout.packedEnd)

/-- The action on the bytes of a contiguous view while they are held. -/
def withHeld {α : Type} (writable : Bool) (act : List UInt8 → Act σ α) : Act σ α := do
  Act.ofExcept view.requireContiguous
  let bytes ← view.borrowed writable
  view.whileHeld writable do
    act (← view.packedBytes bytes)

/-- The action on the bytes of a contiguous view, held for reading. -/
def withBytes {α : Type} (act : List UInt8 → Act σ α) : Act σ α := view.withHeld false act

/-- The action on the bytes of a contiguous view, held for writing. -/
def withBytesMut {α : Type} (act : List UInt8 → Act σ α) : Act σ α := view.withHeld true act

/-- Sets every byte of a contiguous view, and says how many there are. -/
def fill (byte : UInt8) : Act σ Nat :=
  view.withBytesMut fun bytes => do
    view.writeBytes view.layout.offset (List.replicate bytes.length byte)
    return bytes.length

def copy : Act σ ArrayView := do
  let bytes ← view.readable
  let nbytes ← Act.ofOption (Layout.overflowError view.shape view.strides) view.layout.checkedNbytes
  Act.allocate nbytes
  let data ← (Index.all view.shape).mapM (view.elementBytes bytes)
  make (Layout.cContiguous view.shape view.dtype) (ownedBuffer data.flatten) .owned

def reshape (shape : List Nat) : Act σ ArrayView := do
  view.derive (← Act.ofExcept (view.layout.reshape shape))

def transpose : Act σ ArrayView := view.derive view.layout.transpose

def slice (start stop : List Nat) : Act σ ArrayView := do
  view.derive (← Act.ofAddress (view.layout.slice start stop))

/-- The bytes that one item of a sequence takes. -/
def itemBytes : Nat := 112

/-- Sequences for the axes that are left, after the indices of those before them.  Each sequence has
room for all its items before the first is made. -/
def nestFrom (bytes : List UInt8) : List Nat → List Nat → Act σ Value
  | [], index => do return (← view.scalarIn bytes index).toValue
  | dim :: shape, index => do
    Act.allocate (dim * itemBytes)
    let items ← (List.range dim).mapM fun i => nestFrom bytes shape (index ++ [i])
    return .seq items

/-- The elements as sequences within sequences; an array without axes is a scalar. -/
def nested : Act σ Value := do
  let bytes ← view.readable
  view.nestFrom bytes view.shape []

end ArrayView

namespace ArrayRequest

def serve : ArrayRequest → Act σ Value
  | .wrap data shape strides dtype => do
    return .array (← ArrayView.wrap data shape strides dtype)
  | .zeros shape dtype => do return .array (← ArrayView.zeros shape dtype)
  | .ofElements type items shape => do return .array (← ArrayView.ofElements type items shape)
  | .borrow data layout readonly keeper => do
    return .array (← ArrayView.borrow data layout readonly keeper)
  | .copy view => do return .array (← view.copy)
  | .reshape view shape => do return .array (← view.reshape shape)
  | .transpose view => do return .array (← view.transpose)
  | .slice view start stop => do return .array (← view.slice start stop)
  | .get view type index => do return type.encode (← view.get type index)
  | .set view type index element => do
    view.set type index element
    return .none
  | .scalarAt view index => do return (← view.scalarAt index).toValue
  | .elements view type => do return .seq ((← view.elements type).map type.encode)
  | .scalars view => do return .seq ((← view.scalars).map Scalar.toValue)
  | .nested view => view.nested

end ArrayRequest

end Marshal
