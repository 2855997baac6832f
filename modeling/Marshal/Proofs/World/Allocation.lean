import Mathlib
import Marshal.Proofs.Array.Count
import Marshal.Proofs.World.Contiguous

namespace Marshal

open Act hiding pure bind

variable {σ : Type} {w : World σ} {layout : Layout} {bytes : List UInt8} {e : Error}

/-- The bytes of all elements, whatever sizes can say. -/
def Layout.room (layout : Layout) : Nat := layout.shape.prod * layout.dtype.size

theorem Layout.Measured.checkedNbytes_of_le (measured : layout.Measured) (fits : layout.room ≤ Size.max) :
    layout.checkedNbytes = some layout.room := measured.checkedNbytes.mpr ⟨rfl, fits⟩

theorem Layout.checkedNbytes_eq_none (uncounted : ¬ layout.Measured ∨ Size.max < layout.room) :
    layout.checkedNbytes = none := by
  by_cases measured : layout.Measured
  · have many := uncounted.resolve_left (not_not.mpr measured)
    rw [Option.eq_none_iff_forall_ne_some]
    intro count counted
    obtain ⟨rfl, fits⟩ := measured.checkedNbytes.mp counted
    exact absurd fits (Nat.not_le.mpr many)
  · exact (count_of_uncounted (count_of_not_measured measured).2).2

theorem Act.allocate_of_lt {count : Nat} (many : Size.signedMax < count) :
    (allocate count : Act σ Unit) = panic (.text "capacity overflow") := by
  simp only [allocate, if_pos many]

namespace ArrayView

/-- The action makes an array of this layout in memory of its own, with these bytes in it.  Where the bytes
are not counted it is refused, and where one allocation cannot hold them it panics. -/
structure Allocates (act : Act σ ArrayView) (w : World σ) (layout : Layout) (bytes : List UInt8)
    (e : Error) : Prop where
  returns : layout.Measured → layout.room ≤ Size.signedMax →
    bytes.length = layout.room ∧ ∃ result after, act w = (.returned result, after) ∧
      result.layout = layout ∧ after.buffer? result = some (ownedBuffer bytes) ∧
      ∀ other buffer, w.buffer? other = some buffer →
        other.buffer ≠ result.buffer ∧ after.buffer? other = some buffer
  panics : layout.Measured → Size.signedMax < layout.room → layout.room ≤ Size.max →
    act w = (.panicked (.text "capacity overflow"), w)
  fails : ¬ layout.Measured ∨ Size.max < layout.room → act w = (.failed e, w)

theorem make_fresh (layout : Layout) (bytes : List UInt8) (w : World σ) :
    ∃ result after, make layout (ownedBuffer bytes) .owned w = (.returned result, after) ∧
      result.layout = layout ∧ after.buffer? result = some (ownedBuffer bytes) ∧
      ∀ other buffer, w.buffer? other = some buffer →
        other.buffer ≠ result.buffer ∧ after.buffer? other = some buffer := by
  have made : make layout (ownedBuffer bytes) .owned w = (.returned _, _) := rfl
  exact ⟨_, _, made, rfl, found_of_make made, fun other buffer => kept_of_make made⟩

theorem allocates_of_sized {act : Act σ ArrayView} {fill : Nat → Act σ ArrayView}
    (sized : act w = (do
      let count ← ofOption e layout.checkedNbytes
      allocate count
      fill count : Act σ ArrayView) w)
    (length : bytes.length = layout.room)
    (filled : fill layout.room w = make layout (ownedBuffer bytes) .owned w) :
    Allocates act w layout bytes e where
  returns measured fits := by
    have counted := measured.checkedNbytes_of_le (Nat.le_trans fits Size.signedMax_le_max)
    rw [counted, ofOption_some, pure_bind, allocate_of_le fits, pure_bind, filled] at sized
    rw [sized]
    exact ⟨length, make_fresh layout bytes w⟩
  panics measured many fits := by
    rw [measured.checkedNbytes_of_le fits, ofOption_some, pure_bind, allocate_of_lt many] at sized
    exact sized
  fails uncounted := by
    rw [Layout.checkedNbytes_eq_none uncounted, ofOption_none] at sized
    exact sized

theorem zeros_allocates {shape : List Nat} {dtype : DType} (supported : dtype.isSupported = true)
    (w : World σ) :
    Allocates (zeros shape dtype) w (Layout.cContiguous shape dtype)
      (List.replicate (Layout.cContiguous shape dtype).room 0)
      (Layout.overflowError shape (Layout.cContiguous shape dtype).strides) := by
  have checked : checkDType dtype = .ok () := by simp only [checkDType, supported, ↓reduceIte]
  have sized : zeros shape dtype w = (do
      let count ← ofOption (Layout.overflowError shape (Layout.cContiguous shape dtype).strides)
        (Layout.cContiguous shape dtype).checkedNbytes
      allocate count
      make (Layout.cContiguous shape dtype) (ownedBuffer (List.replicate count 0)) .owned :
        Act σ ArrayView) w := by
    simp only [zeros, checked]
    rfl
  exact allocates_of_sized sized List.length_replicate rfl

variable {view : ArrayView} {buffer : Buffer}

theorem Readable.copy_allocates (readable : view.Readable w buffer) :
    Allocates view.copy w (Layout.cContiguous view.shape view.dtype) (view.gathered buffer.bytes)
      (Layout.overflowError view.shape view.strides) :=
  allocates_of_sized readable.copy_sized readable.gathered_length rfl

/-- What the elements take decides how zeros and copies end, for every shape and for every view that its
buffer accepts, also where many elements share their bytes.  What one allocation holds is made, a count of
bytes that is no size is an error, and what lies between, and nothing else, is a panic. -/
theorem allocation_exact (w : World σ) :
    (∀ (shape : List Nat) (dtype : DType),
      if dtype.isSupported then
        Allocates (zeros shape dtype) w (Layout.cContiguous shape dtype)
          (List.replicate (Layout.cContiguous shape dtype).room 0)
          (Layout.overflowError shape (Layout.cContiguous shape dtype).strides)
      else zeros shape dtype w = (.failed (.unsupportedDType dtype.name), w)) ∧
    ∀ (view : ArrayView) (buffer : Buffer), w.buffer? view = some buffer →
      view.layout.validate buffer.bytes.length = .ok () →
      if buffer.access = .exclusive then
        view.copy w = (.failed (.borrowedMutation "array is being mutated"), w)
      else
        Allocates view.copy w (Layout.cContiguous view.shape view.dtype) (view.gathered buffer.bytes)
          (Layout.overflowError view.shape view.strides) := by
  constructor
  · intro shape dtype
    split
    · rename_i supported
      exact zeros_allocates supported w
    · rename_i unsupported
      have refused : checkDType dtype = .error (.unsupportedDType dtype.name) := by
        simp only [checkDType, unsupported, Bool.false_eq_true, ↓reduceIte]
      simp only [zeros, refused]
      rfl
  · intro view buffer found valid
    split
    · rename_i written
      exact bind_of_failed (readable_written found written)
    · rename_i unwritten
      exact Readable.copy_allocates ⟨found, unwritten, valid⟩

/-- One byte, seen as more of them than one allocation holds. -/
def spread : ArrayView where
  id := 1
  layout := { shape := [2 ^ 62, 2], strides := [0, 0], dtype := .int .u8, order := .neither, offset := 0 }
  buffer := 0
  ownership := .owned
  base? := none

theorem allocation_exact_spread :
    ∃ (w : World Unit) (result : ArrayView) (after : World Unit),
      zeros [2, 3] (.int .i16) w = (.returned result, after) ∧
        after.buffer? result = some (ownedBuffer (List.replicate 12 0)) ∧
        zeros [2 ^ 63, 2, 0] (.int .u8) w = (.failed (Layout.overflowError [2 ^ 63, 2, 0] [0, 0, 1]), w) ∧
        spread.layout.validate 1 = .ok () ∧
        spread.copy w = (.panicked (.text "capacity overflow"), w) := by
  let w : World Unit := { buffers := [ownedBuffer [7]], arrayCount := 1 }
  obtain ⟨zeroed, copied⟩ := allocation_exact w
  have valid : spread.layout.validate 1 = .ok () := by rfl
  have small := (zeroed [2, 3] (.int .i16)).returns (fun empty => absurd empty (by decide)) (by decide)
  obtain ⟨_, result, after, returned, _, found, _⟩ := small
  have crowded : ¬ (Layout.cContiguous [2 ^ 63, 2, 0] (.int .u8)).Measured := fun measured =>
    absurd (measured (by decide) 2) (by decide)
  have failed := (zeroed [2 ^ 63, 2, 0] (.int .u8)).fails (.inl crowded)
  have panicked := (copied spread (ownedBuffer [7]) rfl valid).panics
    (fun empty => absurd empty (by decide)) (by decide) (by decide)
  exact ⟨w, result, after, returned, found, failed, valid, panicked⟩

end ArrayView

end Marshal
