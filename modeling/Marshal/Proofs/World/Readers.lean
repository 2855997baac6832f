import Mathlib
import Marshal.Proofs.Array.Rows
import Marshal.Proofs.World.Mutation

namespace Marshal

open Act hiding pure bind

variable {σ α β : Type} {w after : World σ}

theorem Act.mapM_of_pure {f : α → Act σ β} {g : α → β} {items : List α}
    (each : ∀ item ∈ items, f item = Pure.pure (g item)) : items.mapM f = Pure.pure (items.map g) := by
  induction items with
  | nil => rfl
  | cons item rest ih =>
      simp only [List.forall_mem_cons] at each
      rw [List.mapM_cons, each.1, pure_bind, ih each.2, pure_bind, List.map_cons]

theorem Act.allocate_of_le {count : Nat} (fits : count ≤ Size.signedMax) :
    (allocate count : Act σ Unit) = Pure.pure () := by
  simp only [allocate, if_neg (Nat.not_lt.mpr fits)]
  rfl

namespace Value

/-- Sequences within sequences, with these lengths from the outside in. -/
def HasShape : List Nat → Value → Prop
  | [], _ => True
  | dim :: shape, v =>
    ∃ items, v = .seq items ∧ items.length = dim ∧ ∀ item ∈ items, HasShape shape item

/-- What lies this many sequences deep, from left to right. -/
def leaves : Nat → Value → List Value
  | 0, v => [v]
  | depth + 1, .seq items => items.flatMap (leaves depth)
  | _ + 1, _ => []

/-- Sequences of a shape over what stands at each index. -/
def nest : List Nat → (List Nat → Value) → Value
  | [], leaf => leaf []
  | dim :: shape, leaf => .seq ((List.range dim).map fun i => nest shape fun rest => leaf (i :: rest))

variable {shape : List Nat} {leaf : List Nat → Value}

theorem nest_hasShape : (nest shape leaf).HasShape shape := by
  induction shape generalizing leaf with
  | nil => trivial
  | cons dim shape ih =>
      refine ⟨_, rfl, by simp, fun item member => ?_⟩
      obtain ⟨i, _, rfl⟩ := List.mem_map.mp member
      exact ih

theorem leaves_nest : (nest shape leaf).leaves shape.length = (Index.product shape).map leaf := by
  induction shape generalizing leaf with
  | nil => rfl
  | cons dim shape ih =>
      simp only [nest, List.length_cons, leaves, List.flatMap_map, ih, Index.product, List.map_flatMap,
        List.map_map]
      rfl

end Value

/-- The sequences of a shape can be made: each of them has room for its items.  What lies behind an
empty axis is never made. -/
def Roomy : List Nat → Prop
  | [] => True
  | dim :: shape => dim * ArrayView.itemBytes ≤ Size.signedMax ∧ (0 < dim → Roomy shape)

instance Roomy.decidable : (shape : List Nat) → Decidable (Roomy shape)
  | [] => .isTrue trivial
  | _ :: shape => @instDecidableAnd _ _ _ (@instDecidableForall _ _ _ (Roomy.decidable shape))

namespace ArrayView

variable {view : ArrayView} {type : ElementType} {buffer : Buffer} {index : List Nat}

/-- The layout of the view is accepted for its buffer, and nobody is writing the buffer. -/
structure Readable (view : ArrayView) (w : World σ) (buffer : Buffer) : Prop where
  found : w.buffer? view = some buffer
  unwritten : buffer.access ≠ .exclusive
  valid : view.layout.validate buffer.bytes.length = .ok ()

/-- The elements of the view in row-major order. -/
def valuesIn (view : ArrayView) (type : ElementType) (bytes : List UInt8) : List type.Carrier :=
  (Index.all view.shape).map (view.layout.valueAt type bytes)

namespace Readable

variable (readable : view.Readable w buffer) (typed : view.dtype = .number type)

include readable in
theorem read : view.readable w = (.returned buffer.bytes, w) :=
  readable_apply readable.found readable.unwritten

include readable in
theorem offsetOf (within : Index.Within index view.shape) :
    (view.offsetOf index : Act σ Nat) = pure (view.layout.address index) := by
  have offset := (Layout.validate_inside readable.valid (Index.Within.inhabited within) within).1
  have accepted : Layout.inBounds index view.layout.shape = true := Layout.inBounds_iff.mpr within
  simp only [ArrayView.offsetOf, Layout.byteOffset, accepted, ↓reduceIte, offset]
  rfl

include readable in
theorem reach (within : Index.Within index view.shape) :
    view.layout.address index + view.dtype.size ≤ buffer.bytes.length :=
  (Layout.validate_inside readable.valid (Index.Within.inhabited within) within).2

include readable in
theorem elementAt_take (within : Index.Within index view.shape) :
    (view.elementAt buffer.bytes (view.layout.address index) : Act σ (List UInt8)) =
      pure ((buffer.bytes.drop (view.layout.address index)).take view.dtype.size) := by
  simp only [ArrayView.elementAt]
  rw [bytesBetween_of_le (Nat.le_add_right _ _) (readable.reach within), Nat.add_sub_cancel_left]

include readable in
theorem elementBytes_take (within : Index.Within index view.shape) :
    (view.elementBytes buffer.bytes index : Act σ (List UInt8)) =
      pure ((buffer.bytes.drop (view.layout.address index)).take view.dtype.size) := by
  have offset := (Layout.validate_inside readable.valid (Index.Within.inhabited within) within).1
  simp only [ArrayView.elementBytes, offset]
  rw [ofAddress_ok, pure_bind, readable.elementAt_take within]

include readable typed

theorem elementAt (within : Index.Within index view.shape) :
    (view.elementAt buffer.bytes (view.layout.address index) : Act σ (List UInt8)) =
      pure (view.layout.bytesAt type buffer.bytes index) := by
  rw [readable.elementAt_take within, typed]
  rfl

theorem elementBytes (within : Index.Within index view.shape) :
    (view.elementBytes buffer.bytes index : Act σ (List UInt8)) =
      pure (view.layout.bytesAt type buffer.bytes index) := by
  rw [readable.elementBytes_take within, typed]
  rfl

theorem scalarIn (within : Index.Within index view.shape) :
    (view.scalarIn buffer.bytes index : Act σ Scalar) =
      pure ⟨type, view.layout.valueAt type buffer.bytes index⟩ := by
  simp only [ArrayView.scalarIn, Scalar.read?, typed, DType.element?, Option.map_some]
  rw [readable.elementBytes typed within, pure_bind]
  rfl

theorem get (within : Index.Within index view.shape) :
    view.get type index w = (.returned (view.layout.valueAt type buffer.bytes index), w) := by
  have checked : view.checkElement type = .ok () := by simp only [checkElement, typed, ↓reduceIte]
  simp only [ArrayView.get, checked]
  rw [ofExcept_ok, pure_bind, readable.offsetOf within, pure_bind, bind_of_returned readable.read,
    readable.elementAt typed within]
  rfl

theorem scalarAt (within : Index.Within index view.shape) :
    view.scalarAt index w = (.returned ⟨type, view.layout.valueAt type buffer.bytes index⟩, w) := by
  simp only [ArrayView.scalarAt]
  rw [readable.offsetOf within, pure_bind, bind_of_returned readable.read, readable.scalarIn typed within]
  rfl

theorem elements : view.elements type w = (.returned (view.valuesIn type buffer.bytes), w) := by
  have checked : view.checkElement type = .ok () := by simp only [checkElement, typed, ↓reduceIte]
  have each : ∀ index ∈ Index.all view.shape,
      (do return type.read (← view.elementBytes buffer.bytes index) : Act σ type.Carrier) =
        pure (view.layout.valueAt type buffer.bytes index) := by
    intro index member
    rw [readable.elementBytes typed (Index.within_of_mem_all member), pure_bind]
    rfl
  simp only [ArrayView.elements, checked]
  rw [ofExcept_ok, pure_bind, bind_of_returned readable.read, mapM_of_pure each]
  rfl

theorem scalars :
    view.scalars w = (.returned ((view.valuesIn type buffer.bytes).map (Scalar.mk type)), w) := by
  have each : ∀ index ∈ Index.all view.shape, (view.scalarIn buffer.bytes index : Act σ Scalar) =
      pure ⟨type, view.layout.valueAt type buffer.bytes index⟩ :=
    fun index member => readable.scalarIn typed (Index.within_of_mem_all member)
  simp only [ArrayView.scalars]
  rw [bind_of_returned readable.read, mapM_of_pure each, valuesIn, List.map_map]
  rfl

/-- The sequences over the axes that are left. -/
theorem nestFrom {shape : List Nat} (roomy : Roomy shape)
    (continued : ∀ rest, Index.Within rest shape → Index.Within (index ++ rest) view.shape) :
    (view.nestFrom buffer.bytes shape index : Act σ Value) = pure (Value.nest shape fun rest =>
      type.encode (view.layout.valueAt type buffer.bytes (index ++ rest))) := by
  induction shape generalizing index with
  | nil =>
      have within : Index.Within index view.shape := by simpa using continued [] .nil
      rw [ArrayView.nestFrom, readable.scalarIn typed within, pure_bind, Value.nest, List.append_nil]
      rfl
  | cons dim shape ih =>
      obtain ⟨fits, rooms⟩ := roomy
      have each : ∀ i ∈ List.range dim, (view.nestFrom buffer.bytes shape (index ++ [i]) : Act σ Value) =
          pure (Value.nest shape fun rest =>
            type.encode (view.layout.valueAt type buffer.bytes (index ++ i :: rest))) := by
        intro i member
        have below := List.mem_range.mp member
        have inner : (view.nestFrom buffer.bytes shape (index ++ [i]) : Act σ Value) = _ :=
          ih (rooms (by omega)) fun rest within => by
            rw [List.append_assoc]
            exact continued (i :: rest) (.cons below within)
        simpa only [List.append_assoc, List.singleton_append] using inner
      rw [ArrayView.nestFrom, allocate_of_le fits, pure_bind, mapM_of_pure each, pure_bind]
      rfl

theorem nested (roomy : Roomy view.shape) :
    view.nested w = (.returned (Value.nest view.shape fun index =>
      type.encode (view.layout.valueAt type buffer.bytes index)), w) := by
  have made : (view.nestFrom buffer.bytes view.shape [] : Act σ Value) = _ :=
    readable.nestFrom typed roomy fun rest within => within
  simp only [ArrayView.nested]
  rw [bind_of_returned readable.read, made]
  rfl

end Readable

/-- The bytes of the elements, side by side in row-major order. -/
def packed (view : ArrayView) (type : ElementType) (bytes : List UInt8) : List UInt8 :=
  ((Index.all view.shape).map (view.layout.bytesAt type bytes)).flatten

/-- The bytes of the elements in the same way, whatever the elements are. -/
def gathered (view : ArrayView) (bytes : List UInt8) : List UInt8 :=
  (Index.all view.shape).flatMap fun index =>
    (bytes.drop (view.layout.address index)).take view.dtype.size

theorem packed_eq_gathered (typed : view.dtype = .number type) (bytes : List UInt8) :
    view.packed type bytes = view.gathered bytes := by
  rw [gathered, typed]
  rfl

/-- A copy in memory of its own: row-major, with one owner and nobody using it.  The memory of the other
arrays is as it was. -/
structure CopyOf (view : ArrayView) (w : World σ) (result : ArrayView) (after : World σ) : Prop where
  layout : result.layout = Layout.cContiguous view.shape view.dtype
  rows : ∀ index, Index.Within index view.shape →
    result.layout.address index = view.dtype.size * Index.place view.shape index
  ownership : result.ownership = .owned
  base : result.base? = none
  id : result.id = w.arrayCount + 1
  unshared : ∀ other buffer, w.buffer? other = some buffer → other.buffer ≠ result.buffer
  kept : ∀ other buffer, w.buffer? other = some buffer → after.buffer? other = some buffer
  writable : ∃ bytes, result.writable after = (.returned bytes, after)

theorem validate_of_filled {shape : List Nat} {dtype : DType} {bytes : List UInt8}
    (filled : Filled (Layout.cContiguous shape dtype) bytes) :
    (Layout.cContiguous shape dtype).validate bytes.length = .ok () := by
  have contiguous := Layout.Contiguous.c shape dtype 0
  by_cases empty : 0 ∈ shape
  · exact (Layout.validate_iff_offset empty).mpr
      ⟨contiguous.lengths, contiguous.nonnegative, Nat.zero_le _⟩
  · have room : 0 + dtype.size * shape.prod ≤ bytes.length := by
      rw [Nat.zero_add, Nat.mul_comm]
      exact Nat.le_of_eq filled.total
    have settled := contiguous.settled_of_bytes (fun _ => room) filled.bounded
    exact settled.validate empty filled.bounded

theorem address_of_filled {shape : List Nat} {dtype : DType} {bytes : List UInt8}
    (filled : Filled (Layout.cContiguous shape dtype) bytes) (within : Index.Within index shape) :
    (Layout.cContiguous shape dtype).address index = dtype.size * Index.place shape index := by
  have contiguous := Layout.Contiguous.c shape dtype 0
  have fits : dtype.size * shape.prod ≤ Size.signedMax := by
    rw [Nat.mul_comm]
    exact Nat.le_trans (Nat.le_of_eq filled.total) filled.bounded
  have packed := contiguous.packed_of_bytes (Index.Within.inhabited within)
    (Nat.le_trans fits Size.signedMax_le_max)
  exact (packed.address_number contiguous.order_ne contiguous.lengths within).trans (Nat.zero_add _)

namespace Readable

variable (readable : view.Readable w buffer) (typed : view.dtype = .number type)

include readable in
theorem gathered_length : (view.gathered buffer.bytes).length = view.shape.prod * view.dtype.size := by
  have each : ∀ index ∈ Index.all view.shape,
      ((buffer.bytes.drop (view.layout.address index)).take view.dtype.size).length = view.dtype.size := by
    intro index member
    have whole := readable.reach (Index.within_of_mem_all member)
    simp only [List.length_take, List.length_drop]
    omega
  rw [gathered, List.length_flatMap, List.map_congr_left each, List.map_const', List.sum_replicate,
    Index.all_length, smul_eq_mul]

include readable in
/-- What is copied is there, so that only making room for it can go wrong. -/
theorem copy_sized : view.copy w = (do
    let nbytes ← ofOption (Layout.overflowError view.shape view.strides) view.layout.checkedNbytes
    allocate nbytes
    make (Layout.cContiguous view.shape view.dtype) (ownedBuffer (view.gathered buffer.bytes)) .owned :
      Act σ ArrayView) w := by
  have each : ∀ index ∈ Index.all view.shape, (view.elementBytes buffer.bytes index : Act σ (List UInt8)) =
      pure ((buffer.bytes.drop (view.layout.address index)).take view.dtype.size) :=
    fun index member => readable.elementBytes_take (Index.within_of_mem_all member)
  simp only [ArrayView.copy]
  rw [bind_of_returned readable.read, mapM_of_pure each, pure_bind]
  rfl

include readable typed

theorem bytesAt_length (within : Index.Within index view.shape) :
    (view.layout.bytesAt type buffer.bytes index).length = view.dtype.size := by
  have size : view.dtype.size = type.bytes := congrArg DType.size typed
  have whole := readable.reach within
  rw [Layout.bytesAt, List.length_take, List.length_drop]
  omega

theorem filled {nbytes : Nat} (counted : view.layout.checkedNbytes = some nbytes)
    (bounded : nbytes ≤ Size.signedMax) :
    Filled (Layout.cContiguous view.shape view.dtype) (view.packed type buffer.bytes) := by
  have length : (view.packed type buffer.bytes).length = nbytes := by
    rw [packed_eq_gathered typed, readable.gathered_length]
    exact prod_of_checkedNbytes counted
  exact ⟨(prod_of_checkedNbytes counted).trans length.symm, by rwa [length]⟩

theorem copy_apply {nbytes : Nat} (counted : view.layout.checkedNbytes = some nbytes)
    (bounded : nbytes ≤ Size.signedMax) :
    view.copy w = make (Layout.cContiguous view.shape view.dtype)
      (ownedBuffer (view.packed type buffer.bytes)) .owned w := by
  rw [readable.copy_sized, counted, ofOption_some, pure_bind, allocate_of_le bounded, pure_bind,
    packed_eq_gathered typed]

/-- An element of the copy is the element of the original. -/
theorem bytesAt_packed (filled : Filled (Layout.cContiguous view.shape view.dtype)
      (view.packed type buffer.bytes)) (within : Index.Within index view.shape) :
    (Layout.cContiguous view.shape view.dtype).bytesAt type (view.packed type buffer.bytes) index =
      view.layout.bytesAt type buffer.bytes index := by
  have size : view.dtype.size = type.bytes := congrArg DType.size typed
  have there : ((Index.all view.shape).map (view.layout.bytesAt type buffer.bytes))[
      Index.place view.shape index]? = some (view.layout.bytesAt type buffer.bytes index) := by
    rw [List.getElem?_map, Index.all_eq_product, Index.getElem?_product within, Option.map_some]
  have each : ∀ element ∈ (Index.all view.shape).map (view.layout.bytesAt type buffer.bytes),
      element.length = type.bytes := by
    intro element member
    obtain ⟨other, inside, rfl⟩ := List.mem_map.mp member
    rw [readable.bytesAt_length typed (Index.within_of_mem_all inside), size]
  rw [Layout.bytesAt, address_of_filled filled within, size, Nat.mul_comm]
  exact span_flatten each there

theorem copyOf {result : ArrayView} (copied : view.copy w = (.returned result, after)) :
    view.CopyOf w result after ∧
      result.elements type after = (.returned (view.valuesIn type buffer.bytes), after) := by
  obtain ⟨nbytes, counted, bounded⟩ :
      ∃ nbytes, view.layout.checkedNbytes = some nbytes ∧ nbytes ≤ Size.signedMax := by
    have sized := copied
    rw [readable.copy_sized] at sized
    obtain ⟨nbytes, _, found, sized⟩ := returned_of_bind sized
    obtain ⟨_, _, room, _⟩ := returned_of_bind sized
    exact ⟨nbytes, (returned_of_ofOption found).1, (returned_of_allocate room).1⟩
  have filled := readable.filled typed counted bounded
  rw [readable.copy_apply typed counted bounded] at copied
  obtain ⟨layout, _, _⟩ := buffer_of_make copied
  have found := found_of_make copied
  have shape : result.shape = view.shape := by simp only [ArrayView.shape, layout, Layout.cContiguous]
  have typedResult : result.dtype = .number type := by
    simpa only [ArrayView.dtype, layout, Layout.cContiguous] using typed
  have resultReadable : result.Readable after (ownedBuffer (view.packed type buffer.bytes)) :=
    ⟨found, by rintro ⟨⟩, by rw [layout]; exact validate_of_filled filled⟩
  obtain ⟨ownership, base, id⟩ := owner_of_make copied
  refine ⟨⟨layout, fun index within => ?_, ownership, base, id, fun other memory there => ?_,
    fun other memory there => ?_, ?_⟩, ?_⟩
  · rw [layout]
    exact address_of_filled filled within
  · exact (kept_of_make copied there).1
  · exact (kept_of_make copied there).2
  · exact ⟨_, writable_apply found rfl rfl⟩
  · have same : result.valuesIn type (view.packed type buffer.bytes) = view.valuesIn type buffer.bytes := by
      simp only [valuesIn, shape]
      refine List.map_congr_left fun index member => ?_
      rw [Layout.valueAt, layout, readable.bytesAt_packed typed filled (Index.within_of_mem_all member)]
      rfl
    rw [resultReadable.elements typedResult]
    exact congrArg (fun values => (Outcome.returned values, after)) same

end Readable

/-- All readers agree.  Take an array whose layout its buffer accepts and that nobody is writing.  Its
elements are those that are got one by one over the indices in order, and so are its scalars.  They are
the leaves of its nested sequences, which have the array's shape, as long as there is room for every
sequence.  A copy is an array of its own that has the same elements. -/
theorem readers_agree (readable : view.Readable w buffer) (typed : view.dtype = .number type) :
    ∃ values : List type.Carrier,
      view.elements type w = (.returned values, w) ∧
      (∀ count, Index.take count view.shape = (Index.all view.shape).take count) ∧
      List.Forall₂ (fun index x => view.get type index w = (.returned x, w))
        (Index.all view.shape) values ∧
      view.scalars w = (.returned (values.map (Scalar.mk type)), w) ∧
      List.Forall₂ (fun index x => view.scalarAt index w = (.returned ⟨type, x⟩, w))
        (Index.all view.shape) values ∧
      (Roomy view.shape → ∃ v, view.nested w = (.returned v, w) ∧ v.HasShape view.shape ∧
        v.leaves view.shape.length = values.map type.encode) ∧
      ∀ result after, view.copy w = (.returned result, after) →
        view.CopyOf w result after ∧ result.elements type after = (.returned values, after) := by
  refine ⟨_, readable.elements typed, fun count => Index.take_eq count _, ?_, readable.scalars typed, ?_,
    fun roomy => ⟨_, readable.nested typed roomy, Value.nest_hasShape, ?_⟩,
    fun result after copied => readable.copyOf typed copied⟩
  · rw [valuesIn, List.forall₂_map_right_iff, List.forall₂_same]
    exact fun index member => readable.get typed (Index.within_of_mem_all member)
  · rw [valuesIn, List.forall₂_map_right_iff, List.forall₂_same]
    exact fun index member => readable.scalarAt typed (Index.within_of_mem_all member)
  · rw [Value.leaves_nest, valuesIn, List.map_map, Index.all_eq_product]
    rfl

/-- Two rows of three bytes, seen as three rows of two. -/
def turned : ArrayView where
  id := 2
  layout := { shape := [3, 2], strides := [1, 3], dtype := .int .i8, order := .fortran, offset := 0 }
  buffer := 0
  ownership := .view
  base? := some 1

theorem readers_agree_turned :
    ∃ (w after : World Unit) (v : Value) (result : ArrayView),
      turned.Readable w (ownedBuffer [1, 2, 3, 4, 5, 6]) ∧ turned.dtype = .number (.int .i8) ∧
        Roomy turned.shape ∧ turned.nested w = (.returned v, w) ∧ v.HasShape [3, 2] ∧
        (v.leaves 2).length = 6 ∧ turned.copy w = (.returned result, after) ∧
        turned.CopyOf w result after := by
  let w : World Unit := { buffers := [ownedBuffer [1, 2, 3, 4, 5, 6]], arrayCount := 2 }
  have readable : turned.Readable w (ownedBuffer [1, 2, 3, 4, 5, 6]) := ⟨rfl, nofun, rfl⟩
  have roomy : Roomy turned.shape := by decide
  have typed : turned.dtype = .number (.int .i8) := rfl
  obtain ⟨values, _, _, each, _, _, nested, copied⟩ := readers_agree readable typed
  obtain ⟨v, made, shape, leaves⟩ := nested roomy
  have count : (v.leaves 2).length = 6 :=
    (congrArg List.length leaves).trans ((List.length_map _).trans each.length_eq.symm)
  exact ⟨w, _, v, _, readable, typed, roomy, made, shape, count, rfl, (copied _ _ rfl).1⟩

/-- So many empty rows that no sequence has room for them. -/
def emptyRows : ArrayView where
  id := 1
  layout :=
    { shape := [82351536043346213, 0], strides := [0, 1], dtype := .int .i8, order := .c, offset := 0 }
  buffer := 0
  ownership := .owned
  base? := none

theorem nested_emptyRows :
    ∃ w : World Unit, emptyRows.Readable w (ownedBuffer []) ∧ emptyRows.dtype = .number (.int .i8) ∧
      emptyRows.elements (.int .i8) w = (.returned [], w) ∧
      ∀ v after, emptyRows.nested w ≠ (.returned v, after) := by
  let w : World Unit := { buffers := [ownedBuffer []], arrayCount := 1 }
  have readable : emptyRows.Readable w (ownedBuffer []) := ⟨rfl, nofun, rfl⟩
  have panicked : emptyRows.nested w = (.panicked (.text "capacity overflow"), w) := rfl
  refine ⟨w, readable, rfl, rfl, fun v after returned => ?_⟩
  rw [panicked] at returned
  cases returned

end ArrayView

end Marshal
