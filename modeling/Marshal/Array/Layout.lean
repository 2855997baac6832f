import Marshal.Array.DType
import Marshal.Error
import Marshal.Size
import Marshal.Text.Quoted

/-!
# Array layouts

A layout says where in a buffer the element of a multi-index lies: at `offset` plus, over the axes,
index times stride, all in bytes.  `validate` compares the bytes that a layout can reach with the
length of a buffer; slices, reshapes and transposes make new layouts over the same buffer.

Addresses are computed as natural numbers.  A layout that no buffer has validated may lead to one
that is no size; computing it is an `AddressFault.overflow`.
-/

namespace Marshal

-- Sums start from the core zero, whatever else is in scope.
attribute [local instance (2000)] Zero.ofOfNat0

/-- Which axis varies fastest when the elements are read in the order of memory. -/
inductive ArrayOrder
  | c
  | fortran
  | neither
  deriving DecidableEq, Repr

namespace ArrayOrder

def label : ArrayOrder → String
  | .c => "C"
  | .fortran => "Fortran"
  | .neither => "Neither"

def letter (order : ArrayOrder) : String := order.label.take 1 |>.toString

def ofLetter? (letter : String) : Option ArrayOrder :=
  [ArrayOrder.c, .fortran, .neither].find? fun order => order.letter == letter

/-- The order of the same memory with the axes reversed. -/
def reversed : ArrayOrder → ArrayOrder
  | .c => .fortran
  | .fortran => .c
  | .neither => .neither

end ArrayOrder

/-- Why an address is not computed. -/
inductive AddressFault
  /-- What is asked for is refused with an error. -/
  | refused (e : Error)
  /-- The sum is larger than every size. -/
  | overflow

/-- A sum of bytes as an address. -/
def Size.address (n : Nat) : Except AddressFault Nat :=
  if n ≤ Size.max then .ok n else .error .overflow

/-- The arrangement of an array's elements in its buffer. -/
structure Layout where
  shape : List Nat
  strides : List Int
  dtype : DType
  order : ArrayOrder
  offset : Nat
  deriving DecidableEq

namespace Layout

def stridesText (strides : List Int) : String := Text.bracketed (strides.map toString)

/-- Whether axes, the fastest first, lie without gaps when a step on the first takes `expected`
bytes.  The stride of an axis of length one never matters; `none` stands for a stride that is too
large to exist. -/
def packedFrom (expected : Option Nat) : List (Nat × Int) → Bool
  | [] => true
  | (dim, stride) :: slower =>
    (dim ≤ 1 || expected.map Int.ofNat == some stride) &&
      packedFrom (expected.bind fun step => do
        let dim ← Size.checkedSigned dim
        Size.checkedSigned (step * dim)) slower

/-- The strides of gapless axes, the fastest first.  A stride that is too large becomes the largest
signed size, which no buffer can hold. -/
def packedStridesFrom (step : Nat) : List Nat → List Nat
  | [] => []
  | dim :: slower =>
    let next :=
      if dim ≤ Size.signedMax ∧ step * dim ≤ Size.signedMax then step * dim else Size.signedMax
    step :: packedStridesFrom next slower

def packedStrides (dims : List Nat) (itemSize : Nat) : List Int :=
  (packedStridesFrom itemSize dims).map Int.ofNat

/-- The order of axes with these strides; row-major wins where both apply. -/
def detectOrder (shape : List Nat) (strides : List Int) (itemSize : Nat) : ArrayOrder :=
  let axes := shape.zip strides
  if packedFrom (some itemSize) axes.reverse then .c
  else if packedFrom (some itemSize) axes then .fortran
  else .neither

def overflowError (shape : List Nat) (strides : List Int) : Error :=
  .bufferLayout (s!"shape {Text.bracketedNats shape} with strides {stridesText strides}" ++
    " overflows the address space")

def cContiguous (shape : List Nat) (dtype : DType) : Layout :=
  { shape
    strides := (packedStrides shape.reverse dtype.size).reverse
    dtype
    order := .c
    offset := 0 }

def fortranContiguous (shape : List Nat) (dtype : DType) : Layout :=
  { shape
    strides := packedStrides shape dtype.size
    dtype
    order := .fortran
    offset := 0 }

private def lengthError (shape : List Nat) (strides : List Int) : Error :=
  .bufferLayout s!"shape has {shape.length} dimensions but strides has {strides.length}"

def strided (shape : List Nat) (strides : List Int) (dtype : DType) (offset : Nat) :
    Except Error Layout :=
  if shape.length ≠ strides.length then .error (lengthError shape strides)
  else .ok { shape, strides, dtype, order := detectOrder shape strides dtype.size, offset }

variable (layout : Layout)

def ndim : Nat := layout.shape.length

/-- The number of elements, the largest size standing for all larger ones. -/
def size : Nat := (Size.checkedProduct layout.shape).getD Size.max

/-- The bytes of all elements, `none` when they are more than a size can say. -/
def checkedNbytes : Option Nat := do
  let count ← Size.checkedProduct layout.shape
  Size.checked (count * layout.dtype.size)

def nbytes : Nat := layout.checkedNbytes.getD Size.max

def isContiguous : Bool := layout.order != .neither

def isCContiguous : Bool := layout.order == .c

def isFortranContiguous : Bool := layout.order == .fortran

def axes : List (Nat × Int) := layout.shape.zip layout.strides

/-- How far the entries of an index move from the start, in bytes. -/
def steps (index : List Nat) : List Nat :=
  index.zipWith (fun i (stride : Int) => i * stride.natAbs) layout.strides

/-- The byte at which the element of an index starts, whatever sizes can say. -/
def address (index : List Nat) : Nat := layout.offset + (layout.steps index).sum

/-- How many bytes from the start of the buffer the layout reaches. -/
def byteExtent : Except Error Nat :=
  if layout.shape.contains 0 then .ok layout.offset
  else
    let spans := layout.steps (layout.shape.map (· - 1))
    match (Size.checkedSum layout.offset spans).bind fun last =>
      Size.checked (last + layout.dtype.size) with
    | some extent => .ok extent
    | none => .error (overflowError layout.shape layout.strides)

/-- Whether the layout stays inside a buffer of `length` bytes. -/
def validate (length : Nat) : Except Error Unit := do
  if layout.shape.length ≠ layout.strides.length then
    throw (lengthError layout.shape layout.strides)
  if let some stride := layout.strides.find? (· < 0) then
    throw (.bufferLayout s!"negative stride {stride} is not supported")
  let extent ← layout.byteExtent
  if length < extent then
    throw (.bufferLayout s!"layout spans {extent} bytes but the buffer holds {length}")

/-- Whether some axis of several elements stays in place. -/
def hasOverlap : Bool := layout.axes.any fun (dim, stride) => 1 < dim && stride == 0

def elementOffset (index : List Nat) : Except AddressFault Nat :=
  Size.address (layout.address index)

/-- Whether an index has one entry per axis, each below the axis's length. -/
def inBounds (index shape : List Nat) : Bool :=
  index.length == shape.length && (index.zip shape).all fun (i, dim) => i < dim

/-- Where the element of an index lies, `none` for an index out of bounds. -/
def byteOffset (index : List Nat) : Except AddressFault (Option Nat) :=
  if inBounds index layout.shape then some <$> layout.elementOffset index else .ok none

/-- Where the bytes of all elements end, when they lie without gaps. -/
def packedEnd : Except AddressFault Nat := Size.address (layout.offset + layout.nbytes)

/-- Bounds of a slice along one axis. -/
structure Cut where
  first : Nat
  last : Nat
  stride : Int
  dim : Nat

def cuts (start stop : List Nat) : List Cut :=
  ((start.zip stop).zip layout.axes).map fun ((first, last), (dim, stride)) =>
    { first, last, stride, dim }

/-- The start of a slice, moved along one more axis. -/
def Cut.move (cut : Cut) (offset : Nat) : Except AddressFault Nat :=
  if cut.last < cut.first ∨ cut.dim < cut.last then
    .error (.refused (.bufferLayout
      s!"invalid slice {cut.first}:{cut.last} for dimension of size {cut.dim}"))
  else Size.address (offset + cut.first * cut.stride.natAbs)

/-- The part from `start` up to and excluding `stop`.  The axes are taken in turn, and the first that
cannot be cut decides what goes wrong. -/
def slice (start stop : List Nat) : Except AddressFault Layout := do
  if start.length ≠ layout.ndim ∨ stop.length ≠ layout.ndim then
    throw (.refused (.bufferLayout "slice dimensions don't match array dimensions"))
  let cuts := layout.cuts start stop
  let offset ← cuts.foldlM (fun offset cut => cut.move offset) layout.offset
  let shape := cuts.map fun cut => cut.last - cut.first
  return { layout with
    shape
    order := detectOrder shape layout.strides layout.dtype.size
    offset }

/-- The same elements, in the order of memory, under another shape. -/
def reshape (shape : List Nat) : Except Error Layout :=
  if Size.checkedProduct shape ≠ some layout.size then
    .error (.bufferLayout
      s!"cannot reshape array of size {layout.size} to shape {Text.bracketedNats shape}")
  else
    match layout.order with
    | .c => .ok { cContiguous shape layout.dtype with offset := layout.offset }
    | .fortran => .ok { fortranContiguous shape layout.dtype with offset := layout.offset }
    | .neither => .error (.bufferLayout "cannot reshape non-contiguous array")

def transpose : Layout :=
  { layout with
    shape := layout.shape.reverse
    strides := layout.strides.reverse
    order := layout.order.reversed }

def debugText : String :=
  "ArrayLayout \x7b " ++ s!"shape: {Text.bracketedNats layout.shape}, " ++
    s!"strides: {stridesText layout.strides}, dtype: {layout.dtype.label}, " ++
    s!"order: {layout.order.label}, offset: {layout.offset}" ++ " \x7d"

end Layout

end Marshal
