import Mathlib
import Marshal.Proofs.Array.Memory
import Marshal.Proofs.World.Readers

namespace Marshal

open Act hiding pure bind

variable {σ α : Type} {w after : World σ}

theorem ArrayOrder.reversed_eq_neither {order : ArrayOrder} :
    order.reversed = .neither ↔ order = .neither := by
  cases order <;> decide

namespace Layout

variable {layout : Layout} {length : Nat}

/-- As many bytes as the elements of the layout take, from where it starts. -/
def span (layout : Layout) (bytes : List UInt8) : List UInt8 :=
  (bytes.drop layout.offset).take layout.nbytes

namespace Settled

variable (settled : layout.Settled length) (inhabited : 0 ∉ layout.shape) (bounded : length ≤ Size.signedMax)
  (contiguous : layout.order ≠ .neither)

include settled inhabited bounded contiguous

theorem nbytes : layout.nbytes = layout.dtype.size * layout.shape.prod ∧
    layout.offset + layout.nbytes ≤ length :=
  nbytes_of_fits (settled.fits inhabited) (settled.packed inhabited) contiguous inhabited
    (Nat.le_trans bounded Size.signedMax_le_max)

theorem span_length {bytes : List UInt8} (held : bytes.length = length) :
    (layout.span bytes).length = layout.nbytes := by
  have inside := (settled.nbytes inhabited bounded contiguous).2
  rw [span, List.length_take_of_le]
  rw [List.length_drop]
  omega

theorem span_transpose (bytes : List UInt8) : layout.transpose.span bytes = layout.span bytes := by
  have turned : 0 ∉ layout.transpose.shape := by simpa [Layout.transpose] using inhabited
  have order : layout.transpose.order ≠ .neither := mt ArrayOrder.reversed_eq_neither.mp contiguous
  rw [span, span, (settled.nbytes inhabited bounded contiguous).1,
    (settled.transpose.nbytes turned bounded order).1]
  simp [Layout.transpose, List.prod_reverse]

end Settled

end Layout

namespace ArrayView

variable {view other : ArrayView} {type : ElementType} {buffer : Buffer}

/-- Overwrites bytes that are held by what a function makes of them. -/
def rewriting (view : ArrayView) (f : List UInt8 → List UInt8 × α) (bytes : List UInt8) : Act σ α := do
  view.writeBytes view.layout.offset (f bytes).1
  return (f bytes).2

/-- Bytes of a contiguous view are its elements: as they are along rows, turned along columns. -/
def Shows (view : ArrayView) (type : ElementType) (bytes : List UInt8) (w : World σ) : Prop :=
  match view.layout.order with
  | .c => view.elements type w = (.returned (type.readAll bytes), w)
  | .fortran => ∃ turned after, view.transpose w = (.returned turned, after) ∧
      turned.elements type after = (.returned (type.readAll bytes), after)
  | .neither => False

/-- The view that the next derivation makes. -/
def derived (view : ArrayView) (layout : Layout) (w : World σ) : ArrayView where
  id := w.arrayCount + 1
  layout := layout
  buffer := view.buffer
  ownership := .view
  base? := some view.id

theorem withHeld_refused (scattered : view.layout.order = .neither) (writable : Bool)
    (act : List UInt8 → Act σ α) : ∃ e, view.withHeld writable act w = (.failed e, w) := by
  have refused : view.layout.isContiguous = false := by simp [Layout.isContiguous, scattered]
  simp only [withHeld, requireContiguous, refused, Bool.false_eq_true, ↓reduceIte]
  exact ⟨_, rfl⟩

section Written

variable (found : w.buffer? view = some buffer) (written : buffer.access = .exclusive)

include found written

theorem readable_written : view.readable w = (.failed (.borrowedMutation "array is being mutated"), w) := by
  simp only [readable]
  rw [bind_of_returned (memory_apply found), written]
  rfl

theorem withBytes_written (act : List UInt8 → Act σ α) : ∃ e, view.withBytes act w = (.failed e, w) := by
  simp only [withBytes, withHeld, borrowed]
  cases view.requireContiguous with
  | error e => exact ⟨e, rfl⟩
  | ok _ =>
      rw [ofExcept_ok, pure_bind]
      exact ⟨_, bind_of_failed (readable_written found written)⟩

theorem elements_written (typed : view.dtype = .number type) :
    view.elements type w = (.failed (.borrowedMutation "array is being mutated"), w) := by
  simp only [elements, checkElement, typed, ↓reduceIte]
  rw [ofExcept_ok, pure_bind, bind_of_failed (readable_written found written)]

end Written

theorem elements_mismatch (untyped : view.dtype ≠ .number type) :
    view.elements type w =
      (.failed (.mismatch s!"ndarray of {(DType.number type).name}"
        s!"ndarray of {view.dtype.name}"), w) := by
  simp only [elements, checkElement, untyped, ↓reduceIte]
  rfl

theorem elements_refused (found : w.buffer? view = some buffer) (written : buffer.access = .exclusive) :
    ∃ e, view.elements type w = (.failed e, w) := by
  by_cases typed : view.dtype = .number type
  · exact ⟨_, elements_written found written typed⟩
  · exact ⟨_, elements_mismatch typed⟩

/-- Views that have the same elements in the same memory read the same, or are refused alike. -/
theorem elements_congr (found : w.buffer? view = some buffer) (otherFound : after.buffer? other = some buffer)
    (valid : view.layout.validate buffer.bytes.length = .ok ())
    (otherValid : other.layout.validate buffer.bytes.length = .ok ()) (dtype : other.dtype = view.dtype)
    (values : view.dtype = .number type →
      other.valuesIn type buffer.bytes = view.valuesIn type buffer.bytes) :
    (other.elements type after).1 = (view.elements type w).1 := by
  by_cases typed : view.dtype = .number type
  · have otherTyped := dtype.trans typed
    by_cases written : buffer.access = .exclusive
    · rw [elements_written found written typed, elements_written otherFound written otherTyped]
    · have readable : view.Readable w buffer := ⟨found, written, valid⟩
      have otherReadable : other.Readable after buffer := ⟨otherFound, written, otherValid⟩
      rw [readable.elements typed, otherReadable.elements otherTyped, values typed]
  · rw [elements_mismatch typed, elements_mismatch (dtype ▸ typed), dtype]

theorem derive_apply (layout : Layout) :
    view.derive layout w =
      (.returned (view.derived layout w), { w with arrayCount := w.arrayCount + 1 }) := rfl

section Reading

variable (readable : view.Readable w buffer) (settled : view.layout.Settled buffer.bytes.length)
  (inhabited : 0 ∉ view.layout.shape) (bounded : buffer.bytes.length ≤ Size.signedMax)
  (typed : view.dtype = .number type)

include readable settled inhabited bounded typed

theorem elements_of_rows (rows : view.layout.order = .c) :
    view.elements type w = (.returned (type.readAll (view.layout.span buffer.bytes)), w) := by
  obtain ⟨nbytes, inside⟩ := settled.nbytes inhabited bounded (by simp [rows])
  have size : view.layout.dtype.size = type.bytes := congrArg DType.size typed
  have room : type.bytes * view.layout.shape.prod ≤ (buffer.bytes.drop view.layout.offset).length := by
    rw [List.length_drop, ← size, ← nbytes]
    omega
  rw [readable.elements typed, Layout.span, nbytes, size, ElementType.readAll_take room]
  exact congrArg (fun values => (Outcome.returned values, w))
    ((settled.packed inhabited).values rows settled.lengths typed buffer.bytes)

theorem shows_span (contiguous : view.layout.order ≠ .neither) :
    view.Shows type (view.layout.span buffer.bytes) w := by
  cases order : view.layout.order with
  | c =>
      simp only [Shows, order]
      exact elements_of_rows readable settled inhabited bounded typed order
  | fortran =>
      -- columns are the rows of the transpose, over the same bytes
      have turned : 0 ∉ view.layout.transpose.shape := by simpa [Layout.transpose] using inhabited
      have valid := settled.transpose.validate turned bounded
      have rows : view.layout.transpose.order = .c := by
        simp [Layout.transpose, order, ArrayOrder.reversed]
      have turnedReadable : (view.derived view.layout.transpose w).Readable
          { w with arrayCount := w.arrayCount + 1 } buffer := ⟨readable.found, readable.unwritten, valid⟩
      have elements := elements_of_rows turnedReadable settled.transpose turned bounded typed rows
      simp only [Shows, order]
      refine ⟨_, _, derive_apply _, ?_⟩
      rwa [← settled.span_transpose inhabited bounded contiguous]
  | neither => exact absurd order contiguous

end Reading

/-- The bytes of a view were replaced, and nothing else: its elements are read from the new ones. -/
structure Rewritten (view : ArrayView) (buffer : Buffer) (fresh : List UInt8) (w after : World σ) : Prop where
  bytes : ∃ bytes, after.buffer? view = some { buffer with bytes } ∧ bytes.length = buffer.bytes.length ∧
    view.layout.span bytes = fresh ∧
    ∀ place, place < view.layout.offset ∨ view.layout.offset + view.layout.nbytes ≤ place →
      bytes[place]? = buffer.bytes[place]?
  others : ∀ other : ArrayView, other.buffer ≠ view.buffer → after.buffer? other = w.buffer? other
  shown : ∀ type, view.dtype = .number type → view.Shows type fresh after

section Holding

variable (found : w.buffer? view = some buffer) (settled : view.layout.Settled buffer.bytes.length)
  (inhabited : 0 ∉ view.layout.shape) (bounded : buffer.bytes.length ≤ Size.signedMax)
  (contiguous : view.layout.order ≠ .neither)

include settled inhabited bounded contiguous

theorem packedBytes_span : (view.packedBytes buffer.bytes : Act σ (List UInt8)) =
    pure (view.layout.span buffer.bytes) :=
  packedBytes_of_le (settled.nbytes inhabited bounded contiguous).2
    (Nat.le_trans bounded Size.signedMax_le_max)

include found

theorem withBytes_span (unwritten : buffer.access ≠ .exclusive) (act : List UInt8 → Act σ α) :
    view.withBytes act w = view.whileHeld false (act (view.layout.span buffer.bytes)) w := by
  have accepted : view.layout.isContiguous = true := by simpa [Layout.isContiguous] using contiguous
  rw [withBytes_apply accepted found unwritten, packedBytes_span settled inhabited bounded contiguous,
    pure_bind]

theorem withBytesMut_rewriting (unsealed : buffer.isReadonly = false) (idle : buffer.access = .idle)
    (f : List UInt8 → List UInt8 × α) :
    view.withBytesMut (view.rewriting f) w =
      (.returned (f (view.layout.span buffer.bytes)).2, w.mutated view.buffer
        (overwrite buffer.bytes view.layout.offset (f (view.layout.span buffer.bytes)).1) []) := by
  have accepted : view.requireContiguous = .ok () := by
    simpa [requireContiguous, Layout.isContiguous] using contiguous
  simp only [withBytesMut, withHeld, borrowed, accepted, ofExcept_ok, pure_bind, ↓reduceIte]
  rw [bind_of_returned (writable_apply found unsealed idle)]
  -- the buffer that is held still has the bytes from before
  refine whileHeld_mutated found idle fun held there => ?_
  rw [packedBytes_span settled inhabited bounded contiguous, pure_bind, rewriting,
    bind_of_returned (writeBytes_apply there _ _)]
  rfl

theorem rewritten_of_overwrite (idle : buffer.access = .idle) {fresh : List UInt8}
    (whole : fresh.length = view.layout.nbytes) :
    view.Rewritten buffer fresh w
      (w.mutated view.buffer (overwrite buffer.bytes view.layout.offset fresh) []) := by
  set bytes := overwrite buffer.bytes view.layout.offset fresh with written
  have inside := (settled.nbytes inhabited bounded contiguous).2
  have room : view.layout.offset + fresh.length ≤ buffer.bytes.length := by rwa [whole]
  have length : bytes.length = buffer.bytes.length := overwrite_length _ _ _
  have span : view.layout.span bytes = fresh := by
    rw [Layout.span, ← whole]
    exact span_overwrite room
  have foundAfter := World.buffer?_mutated found bytes []
  refine ⟨⟨bytes, foundAfter, length, span, fun place outside => ?_⟩,
    fun other separate => World.buffer?_mutated_of_ne separate _ _, fun type typed => ?_⟩
  · rw [written, getElem?_overwrite room, if_neg (by omega)]
  · rw [← length] at settled bounded
    have readable : view.Readable (w.mutated view.buffer bytes []) { buffer with bytes } :=
      ⟨foundAfter, by simp [idle], settled.validate inhabited bounded⟩
    rw [← span]
    exact shows_span readable settled inhabited bounded typed contiguous

end Holding

/-- The bytes of a view are its elements.  Take a view with elements whose layout, however it was come
by, its buffer accepts.  Its bytes can be had just when its order is known, unless somebody is writing
them; while somebody is, the elements cannot be had either.  They are as many as the elements take, and
read one element after the other they are the elements of the view or, along columns, of its transpose.
When other bytes are written in their place, these are what the elements are read from, and every byte
around them is what it was. -/
theorem bytes_exact (view : ArrayView) (w : World σ) (buffer : Buffer)
    (found : w.buffer? view = some buffer) (derived : view.layout.Derived) (inhabited : 0 ∉ view.layout.shape)
    (bounded : buffer.bytes.length ≤ Size.signedMax)
    (accepted : view.layout.validate buffer.bytes.length = .ok ()) :
    (buffer.access ≠ .exclusive → ∀ (α : Type) (act : List UInt8 → Act σ α),
      (∀ bytes, (act bytes).Succeeds) →
        ((∃ e after, view.withBytes act w = (.failed e, after)) ↔ view.layout.order = .neither)) ∧
    (buffer.access = .exclusive → ∀ (α : Type) (act : List UInt8 → Act σ α) (type : ElementType),
      (∃ e, view.withBytes act w = (.failed e, w)) ∧ ∃ e, view.elements type w = (.failed e, w)) ∧
    (view.layout.order = .neither → ∀ (α : Type) (act : List UInt8 → Act σ α),
      ∃ e, view.withBytesMut act w = (.failed e, w)) ∧
    (view.layout.order ≠ .neither →
      (view.layout.span buffer.bytes).length = view.layout.nbytes ∧
      (buffer.access ≠ .exclusive →
        (∀ (α : Type) (act : List UInt8 → Act σ α),
          view.withBytes act w = view.whileHeld false (act (view.layout.span buffer.bytes)) w) ∧
        ∀ type, view.dtype = .number type → view.Shows type (view.layout.span buffer.bytes) w) ∧
      (buffer.isReadonly = false → buffer.access = .idle →
        ∀ (α : Type) (f : List UInt8 → List UInt8 × α),
          (f (view.layout.span buffer.bytes)).1.length = view.layout.nbytes →
          ∃ after, view.withBytesMut (view.rewriting f) w =
              (.returned (f (view.layout.span buffer.bytes)).2, after) ∧
            view.Rewritten buffer (f (view.layout.span buffer.bytes)).1 w after)) := by
  have settled := derived.settled bounded accepted
  refine ⟨fun unwritten α act succeeds => ⟨?_, fun scattered => ?_⟩, fun written α act type => ⟨?_, ?_⟩,
    fun scattered α => withHeld_refused scattered true, fun contiguous => ⟨?_, ?_, ?_⟩⟩
  · rintro ⟨e, after, failed⟩
    by_contra contiguous
    rw [withBytes_span found settled inhabited bounded contiguous unwritten] at failed
    exact (succeeds _).bracket _ _ w e after failed
  · obtain ⟨e, refused⟩ := withHeld_refused scattered false act
    exact ⟨e, w, refused⟩
  · exact withBytes_written found written act
  · exact elements_refused found written
  · exact settled.span_length inhabited bounded contiguous rfl
  · exact fun unwritten =>
      ⟨fun α => withBytes_span found settled inhabited bounded contiguous unwritten,
        fun type typed => shows_span ⟨found, unwritten, accepted⟩ settled inhabited bounded typed contiguous⟩
  · exact fun unsealed idle α f whole =>
      ⟨_, withBytesMut_rewriting found settled inhabited bounded contiguous unsealed idle f,
        rewritten_of_overwrite found settled inhabited bounded contiguous idle whole⟩

/-- The last two of three rows, as columns over the memory of all of them. -/
def columns : ArrayView where
  id := 3
  layout := Layout.lastColumns
  buffer := 0
  ownership := .view
  base? := some 2

theorem bytes_exact_columns :
    ∃ w after : World Unit,
      w.buffer? columns = some (ownedBuffer (List.replicate 12 1)) ∧ columns.layout.Derived ∧
        0 ∉ columns.layout.shape ∧ (List.replicate 12 (1 : UInt8)).length ≤ Size.signedMax ∧
        columns.layout.validate 12 = .ok () ∧
        columns.withBytesMut (columns.rewriting fun bytes => ([1, 0, 2, 0, 3, 0, 4, 0], bytes.length)) w =
          (.returned 8, after) ∧
        columns.Rewritten (ownedBuffer (List.replicate 12 1)) [1, 0, 2, 0, 3, 0, 4, 0] w after := by
  let w : World Unit := { buffers := [ownedBuffer (List.replicate 12 1)], arrayCount := 3 }
  have found : w.buffer? columns = some (ownedBuffer (List.replicate 12 1)) := rfl
  have derived : columns.layout.Derived := Layout.lastColumns_derived
  have inhabited : 0 ∉ columns.layout.shape := by decide
  have bounded : (List.replicate 12 (1 : UInt8)).length ≤ Size.signedMax := by decide
  have accepted : columns.layout.validate 12 = .ok () := by decide
  obtain ⟨_, _, _, exact⟩ := bytes_exact columns w _ found derived inhabited bounded accepted
  obtain ⟨_, _, writes⟩ := exact (by decide)
  obtain ⟨after, wrote, rewritten⟩ :=
    writes rfl rfl Nat (fun bytes => ([1, 0, 2, 0, 3, 0, 4, 0], bytes.length)) (by decide)
  exact ⟨w, after, found, derived, inhabited, bounded, accepted, wrote, rewritten⟩

end ArrayView

namespace Layout

/-- Reshaping keeps the order of memory.  Take a layout with elements, however it was come by, that a
buffer of `length` bytes accepts.  It can be reshaped just when its order is known and the shapes have as
many elements.  The buffer accepts the result; an element has the same number and the same place in both,
counted along rows or along columns as the order says; and reshaping back leaves every index where it
was.  Along rows the elements read the same. -/
theorem reshape_exact (layout : Layout) (length : Nat) (shape : List Nat) (derived : layout.Derived)
    (inhabited : 0 ∉ layout.shape) (bounded : length ≤ Size.signedMax)
    (accepted : layout.validate length = .ok ()) :
    ((∃ result, layout.reshape shape = .ok result) ↔
      layout.order ≠ .neither ∧ shape.prod = layout.shape.prod) ∧
    ∀ result, layout.reshape shape = .ok result →
      result.shape = shape ∧ result.order = layout.order ∧ result.validate length = .ok () ∧
      (∀ k < layout.shape.prod, ∃ i j offset,
        (Index.inOrder layout.order layout.shape)[k]? = some i ∧
          (Index.inOrder layout.order shape)[k]? = some j ∧
          layout.byteOffset i = .ok (some offset) ∧ result.byteOffset j = .ok (some offset)) ∧
      (∃ back, result.reshape layout.shape = .ok back ∧
        ∀ index, back.byteOffset index = layout.byteOffset index) ∧
      (layout.order = .c → ∀ (σ : Type) (w : World σ) (view : ArrayView) (buffer : Buffer),
        view.layout = layout → w.buffer? view = some buffer → buffer.bytes.length = length →
        ∃ reshaped after, view.reshape shape w = (.returned reshaped, after) ∧ reshaped.layout = result ∧
          ∀ type, (reshaped.elements type after).1 = (view.elements type w).1) := by
  have settled := derived.settled bounded accepted
  refine ⟨settled.reshape_iff inhabited bounded, fun result reshaped => ?_⟩
  obtain ⟨_, sameShape, _, dtype, _, _⟩ := reshape_eq_ok reshaped
  obtain ⟨later, populated⟩ := settled.reshape_of_inhabited inhabited bounded reshaped
  have valid := later.validate populated bounded
  refine ⟨sameShape, order_of_reshape reshaped, valid,
    fun k below => settled.byteOffset_reshape inhabited bounded reshaped below,
    settled.reshape_back inhabited bounded reshaped, ?_⟩
  rintro rows σ w view buffer rfl found rfl
  have made : view.reshape shape w =
      (.returned (view.derived result w), { w with arrayCount := w.arrayCount + 1 }) := by
    simp only [ArrayView.reshape, reshaped]
    rfl
  exact ⟨_, _, made, rfl, fun type => ArrayView.elements_congr found found accepted valid dtype fun typed =>
    settled.values_reshape inhabited bounded reshaped rows typed buffer.bytes⟩

theorem reshape_exact_lastColumns :
    lastColumns.Derived ∧ 0 ∉ lastColumns.shape ∧ 12 ≤ Size.signedMax ∧ lastColumns.validate 12 = .ok () ∧
      ∃ result, lastColumns.reshape [4, 1] = .ok result ∧ result.validate 12 = .ok () ∧
        result.byteOffset [1, 0] = lastColumns.byteOffset [1, 0, 0] ∧
        ¬ ∃ other, lastColumns.reshape [3] = .ok other := by
  have inhabited : 0 ∉ lastColumns.shape := by decide
  have small : 12 ≤ Size.signedMax := by decide
  have accepted : lastColumns.validate 12 = .ok () := by decide
  have exact := fun shape => reshape_exact lastColumns 12 shape lastColumns_derived inhabited small accepted
  obtain ⟨result, reshaped⟩ := (exact [4, 1]).1.mpr ⟨by decide, by decide⟩
  obtain ⟨_, _, valid, places, _⟩ := (exact [4, 1]).2 result reshaped
  obtain ⟨i, j, offset, here, there, place, placeThere⟩ := places 1 (by decide)
  have first : (Index.inOrder lastColumns.order lastColumns.shape)[1]? = some [1, 0, 0] := by decide
  have second : (Index.inOrder lastColumns.order [4, 1])[1]? = some [1, 0] := by decide
  cases here.symm.trans first
  cases there.symm.trans second
  refine ⟨lastColumns_derived, inhabited, small, accepted, result, reshaped, valid,
    placeThere.trans place.symm, fun more => ?_⟩
  exact absurd ((exact [3]).1.mp more).2 (by decide)

end Layout

end Marshal
