import Mathlib
import Marshal.Proofs.Array.Rows
import Marshal.Proofs.World.Fresh

/-!
# The order of memory

However a layout was come by, its order is true as soon as its elements lie inside a buffer: then the
element with a number in that order lies as many elements behind the first.  A reshape keeps these
numbers, and the bytes of a layout without gaps are its elements one after the other.
-/

namespace Marshal

namespace ElementType

variable {type : ElementType} {count : Nat} {bytes : List UInt8}

def readMany (type : ElementType) : Nat → List UInt8 → List type.Carrier
  | 0, _ => []
  | count + 1, bytes => type.read (bytes.take type.bytes) :: readMany type count (bytes.drop type.bytes)

/-- The elements that these bytes are when they are cut into pieces of an element's size. -/
def readAll (type : ElementType) (bytes : List UInt8) : List type.Carrier :=
  type.readMany (bytes.length / type.bytes) bytes

theorem bytes_pos (type : ElementType) : 0 < type.bytes := (DType.number type).size_pos

theorem readMany_eq_map :
    type.readMany count bytes =
      (List.range count).map fun k => type.read ((bytes.drop (type.bytes * k)).take type.bytes) := by
  induction count generalizing bytes with
  | zero => rfl
  | succ count ih =>
      rw [readMany, ih, List.range_succ_eq_map, List.map_cons, List.map_map]
      simp only [Nat.mul_zero, List.drop_zero, List.drop_drop, Function.comp_def, Nat.mul_succ,
        Nat.add_comm]

theorem readMany_take :
    type.readMany count (bytes.take (type.bytes * count)) = type.readMany count bytes := by
  induction count generalizing bytes with
  | zero => rfl
  | succ count ih =>
      have first : type.bytes ≤ type.bytes * (count + 1) := Nat.le_mul_of_pos_right _ (Nat.succ_pos _)
      have others : type.bytes * (count + 1) - type.bytes = type.bytes * count := by
        rw [Nat.mul_succ, Nat.add_sub_cancel]
      rw [readMany, List.take_take, Nat.min_eq_left first, List.drop_take, others, ih, readMany]

theorem readAll_take (inside : type.bytes * count ≤ bytes.length) :
    type.readAll (bytes.take (type.bytes * count)) = type.readMany count bytes := by
  rw [readAll, List.length_take_of_le inside, Nat.mul_div_cancel_left _ type.bytes_pos, readMany_take]

end ElementType

namespace Index

variable {order : ArrayOrder} {shape index : List Nat} {k : Nat}

/-- The indices of a shape as an order numbers them: along rows, or along columns. -/
def inOrder : ArrayOrder → List Nat → List (List Nat)
  | .c, shape | .neither, shape => all shape
  | .fortran, shape => (all shape.reverse).map List.reverse

theorem inOrder_length : (inOrder order shape).length = shape.prod := by
  cases order with
  | fortran => rw [inOrder, List.length_map, all_length, List.prod_reverse]
  | c => exact all_length shape
  | neither => exact all_length shape

theorem mem_inOrder : index ∈ inOrder order shape ↔ Within index shape := by
  have rows : index ∈ all shape ↔ Within index shape := by rw [all_eq_product, mem_product]
  cases order with
  | fortran =>
      rw [inOrder, List.mem_map_of_involutive List.reverse_involutive, all_eq_product, mem_product]
      exact List.forall₂_reverse_iff
  | c => exact rows
  | neither => exact rows

theorem number_of_getElem? (there : (inOrder order shape)[k]? = some index) :
    number order shape index = k := by
  cases order with
  | fortran =>
      rw [inOrder, all_eq_product, List.getElem?_map] at there
      obtain ⟨other, found, rfl⟩ := Option.map_eq_some_iff.mp there
      have place := place_of_getElem? found
      rwa [Index.place, List.reverse_reverse] at place
  | c =>
      rw [inOrder, all_eq_product] at there
      exact place_of_getElem? there
  | neither =>
      rw [inOrder, all_eq_product] at there
      exact place_of_getElem? there

theorem getElem?_number (order : ArrayOrder) (within : Within index shape) :
    (inOrder order shape)[number order shape index]? = some index := by
  have member : index ∈ inOrder order shape := mem_inOrder.mpr within
  obtain ⟨k, there⟩ := List.mem_iff_getElem?.mp member
  rwa [number_of_getElem? there]

end Index

namespace Layout

variable {layout result : Layout} {shape index : List Nat} {k length : Nat}

/-- The layouts that callers come by: made for memory, and cut, turned or reshaped from such. -/
inductive Derived : Layout → Prop
  | made {layout : Layout} (made : layout.Made) : Derived layout
  | slice {layout result : Layout} {start stop : List Nat} (base : Derived layout)
      (sliced : layout.slice start stop = .ok result) : Derived result
  | transpose {layout : Layout} (base : Derived layout) : Derived layout.transpose
  | reshape {layout result : Layout} {shape : List Nat} (base : Derived layout)
      (reshaped : layout.reshape shape = .ok result) : Derived result

/-- A layout that somebody made keeps what its order promises, unless it is contiguous and its strides
would have to be larger than any stride is. -/
theorem Made.packed_or_contiguous (made : layout.Made) :
    layout.shape.length = layout.strides.length ∧ (layout.Packed ∨ Contiguous layout) := by
  cases made with
  | c shape dtype => exact ⟨(Contiguous.c shape dtype 0).lengths, .inr (.c shape dtype 0)⟩
  | fortran shape dtype => exact ⟨(Contiguous.fortran shape dtype 0).lengths, .inr (.fortran shape dtype 0)⟩
  | strided made => exact (strided_eq_ok made).imp_right .inl

namespace Derived

theorem packed_or_contiguous (derived : layout.Derived) :
    layout.shape.length = layout.strides.length ∧ (layout.Packed ∨ Contiguous layout) := by
  induction derived with
  | made made => exact made.packed_or_contiguous
  | slice base sliced ih =>
      obtain ⟨selects, rfl⟩ := slice_eq_ok ih.1 sliced
      -- whatever the order was, a slice finds out its own
      exact ⟨selects.part_lengths ih.1, .inl (packed_of_detectOrder rfl)⟩
  | transpose base ih =>
      exact ⟨by simpa [Layout.transpose] using ih.1, ih.2.imp (Packed.transpose ih.1) Contiguous.transpose⟩
  | reshape base reshaped ih =>
      have contiguous := (reshape_eq_ok reshaped).1
      exact ⟨contiguous.lengths, .inr contiguous⟩

theorem settled (derived : layout.Derived) (bounded : length ≤ Size.signedMax)
    (accepted : layout.validate length = .ok ()) : layout.Settled length := by
  refine settled_of_validate (Nat.le_trans bounded Size.signedMax_le_max) accepted fun inhabited fits => ?_
  rcases derived.packed_or_contiguous.2 with packed | contiguous
  · exact packed
  · exact contiguous.packed_of_fits inhabited fits bounded

end Derived

/-- Three rows of two numbers, and an axis of length one whose stride leads anywhere. -/
def threeRows : Layout where
  shape := [3, 1, 2]
  strides := [4, 100, 2]
  dtype := .number (.int .i16)
  order := .c
  offset := 0

/-- The last two of these rows as columns. -/
def lastColumns : Layout where
  shape := [2, 1, 2]
  strides := [2, 100, 4]
  dtype := .number (.int .i16)
  order := .fortran
  offset := 4

theorem lastColumns_derived : lastColumns.Derived := by
  have made : strided [3, 1, 2] [4, 100, 2] (.number (.int .i16)) 0 = .ok threeRows := by decide
  have sliced : threeRows.slice [1, 0, 0] [3, 1, 2] = .ok lastColumns.transpose := by rfl
  exact .transpose (.slice (.made (.strided made)) sliced)

/-- Without gaps the number of an element in the order of memory says where it lies. -/
theorem Packed.address_inOrder (packed : layout.Packed) (contiguous : layout.order ≠ .neither)
    (lengths : layout.shape.length = layout.strides.length)
    (there : (Index.inOrder layout.order layout.shape)[k]? = some index) :
    layout.address index = layout.offset + layout.dtype.size * k := by
  have within := Index.mem_inOrder.mp (List.mem_of_getElem? there)
  rw [packed.address_number contiguous lengths within, Index.number_of_getElem? there]

/-- Without gaps the same elements lie at the same places, whatever the strides of axes of length one. -/
theorem Packed.address_congr {other : Layout} (packed : layout.Packed) (otherPacked : other.Packed)
    (contiguous : layout.order ≠ .neither) (lengths : layout.shape.length = layout.strides.length)
    (otherLengths : other.shape.length = other.strides.length) (shape : other.shape = layout.shape)
    (order : other.order = layout.order) (offset : other.offset = layout.offset)
    (dtype : other.dtype = layout.dtype) (within : Index.Within index layout.shape) :
    other.address index = layout.address index := by
  obtain ⟨k, there⟩ : ∃ k, (Index.inOrder layout.order layout.shape)[k]? = some index :=
    List.mem_iff_getElem?.mp (Index.mem_inOrder.mpr within)
  have otherThere : (Index.inOrder other.order other.shape)[k]? = some index := by rwa [order, shape]
  rw [packed.address_inOrder contiguous lengths there,
    otherPacked.address_inOrder (order ▸ contiguous) otherLengths otherThere, offset, dtype]

/-- The elements of rows without gaps are read from their bytes one after the other. -/
theorem Packed.values {type : ElementType} (packed : layout.Packed) (rows : layout.order = .c)
    (lengths : layout.shape.length = layout.strides.length) (typed : layout.dtype = .number type)
    (bytes : List UInt8) :
    (Index.all layout.shape).map (layout.valueAt type bytes) =
      type.readMany layout.shape.prod (bytes.drop layout.offset) := by
  have size : layout.dtype.size = type.bytes := congrArg DType.size typed
  rw [ElementType.readMany_eq_map]
  refine List.ext_getElem? fun k => ?_
  rw [List.getElem?_map, List.getElem?_map]
  rcases Nat.lt_or_ge k layout.shape.prod with below | beyond
  · have inside : k < (Index.all layout.shape).length := by rwa [Index.all_length]
    have there := List.getElem?_eq_getElem inside
    have numbered : (Index.inOrder layout.order layout.shape)[k]? = some (Index.all layout.shape)[k] := by
      rw [rows]
      exact there
    have place := packed.address_inOrder (by simp [rows]) lengths numbered
    rw [there, List.getElem?_range below, Option.map_some, Option.map_some, valueAt, bytesAt, place, size,
      List.drop_drop]
  · rw [List.getElem?_eq_none (by rwa [Index.all_length]), List.getElem?_eq_none (by simpa using beyond)]
    rfl

theorem order_of_reshape (reshaped : layout.reshape shape = .ok result) : result.order = layout.order := by
  simp only [reshape] at reshaped
  split at reshaped
  · cases reshaped
  · split at reshaped
    · rename_i order
      cases reshaped
      exact order.symm
    · rename_i order
      cases reshaped
      exact order.symm
    · cases reshaped

namespace Settled

variable (settled : layout.Settled length) (inhabited : 0 ∉ layout.shape) (bounded : length ≤ Size.signedMax)

include settled inhabited bounded

theorem reshape_iff :
    (∃ result, layout.reshape shape = .ok result) ↔
      layout.order ≠ .neither ∧ shape.prod = layout.shape.prod := by
  have small := Nat.le_trans bounded Size.signedMax_le_max
  constructor
  · rintro ⟨result, reshaped⟩
    obtain ⟨_, _, _, _, contiguous, count⟩ := reshape_eq_ok reshaped
    exact ⟨contiguous, count.trans (size_of_isCounted (settled.isCounted contiguous inhabited small))⟩
  · rintro ⟨contiguous, same⟩
    have few := (settled.packed inhabited).prod_le contiguous (settled.fits inhabited) inhabited
    have populated : 0 ∉ shape := fun empty =>
      inhabited (List.prod_eq_zero_iff.mp (same.symm.trans (List.prod_eq_zero empty)))
    have product : Size.checkedProduct shape = some layout.size := by
      rw [Size.checkedProduct_of_le populated (by omega), same,
        size_of_isCounted (settled.isCounted contiguous inhabited small)]
    simp only [Layout.reshape, product, ne_eq, not_true_eq_false, ↓reduceIte]
    cases order : layout.order with
    | c => exact ⟨_, rfl⟩
    | fortran => exact ⟨_, rfl⟩
    | neither => exact absurd order contiguous

variable (reshaped : layout.reshape shape = .ok result)

include reshaped

theorem reshape_of_inhabited : result.Settled length ∧ 0 ∉ result.shape := by
  have ⟨contiguous, count⟩ := (settled.reshape_iff inhabited bounded).mp ⟨result, reshaped⟩
  have counted := settled.isCounted contiguous inhabited (Nat.le_trans bounded Size.signedMax_le_max)
  have shape := (reshape_eq_ok reshaped).2.1
  refine ⟨settled.reshape reshaped counted bounded, fun empty => inhabited (List.prod_eq_zero_iff.mp ?_)⟩
  rw [← count, ← shape, List.prod_eq_zero empty]

theorem byteOffset_reshape (below : k < layout.shape.prod) :
    ∃ i j offset, (Index.inOrder layout.order layout.shape)[k]? = some i ∧
      (Index.inOrder layout.order shape)[k]? = some j ∧
      layout.byteOffset i = .ok (some offset) ∧ result.byteOffset j = .ok (some offset) := by
  have small := Nat.le_trans bounded Size.signedMax_le_max
  obtain ⟨_, rfl, offset, dtype, contiguous, _⟩ := reshape_eq_ok reshaped
  obtain ⟨later, populated⟩ := settled.reshape_of_inhabited inhabited bounded reshaped
  have order := order_of_reshape reshaped
  have count := ((settled.reshape_iff inhabited bounded).mp ⟨result, reshaped⟩).2
  obtain ⟨i, here⟩ : ∃ i, (Index.inOrder layout.order layout.shape)[k]? = some i :=
    ⟨_, List.getElem?_eq_getElem (by rwa [Index.inOrder_length])⟩
  obtain ⟨j, there⟩ : ∃ j, (Index.inOrder layout.order result.shape)[k]? = some j :=
    ⟨_, List.getElem?_eq_getElem (by rwa [Index.inOrder_length, count])⟩
  have withinHere := Index.mem_inOrder.mp (List.mem_of_getElem? here)
  have withinThere := Index.mem_inOrder.mp (List.mem_of_getElem? there)
  have place := (settled.packed inhabited).address_inOrder contiguous settled.lengths here
  have placeThere := (later.packed populated).address_inOrder (order ▸ contiguous) later.lengths
    (order ▸ there)
  refine ⟨i, j, _, here, there, (settled.fits inhabited).byteOffset small withinHere, ?_⟩
  rw [(later.fits populated).byteOffset small withinThere, placeThere, place, offset, dtype]

/-- Reshaping back gives the layout again, but for the strides of axes of length one. -/
theorem reshape_back :
    ∃ back, result.reshape layout.shape = .ok back ∧
      ∀ index, back.byteOffset index = layout.byteOffset index := by
  have small := Nat.le_trans bounded Size.signedMax_le_max
  obtain ⟨_, sameShape, offset, dtype, contiguous, _⟩ := reshape_eq_ok reshaped
  obtain ⟨later, populated⟩ := settled.reshape_of_inhabited inhabited bounded reshaped
  have order := order_of_reshape reshaped
  have count := ((settled.reshape_iff inhabited bounded).mp ⟨result, reshaped⟩).2
  obtain ⟨back, returned⟩ : ∃ back, result.reshape layout.shape = .ok back :=
    (later.reshape_iff populated bounded).mpr ⟨order ▸ contiguous, by rw [sameShape, count]⟩
  obtain ⟨last, again⟩ := later.reshape_of_inhabited populated bounded returned
  obtain ⟨_, backShape, backOffset, backType, _, _⟩ := reshape_eq_ok returned
  refine ⟨back, returned, fun index => ?_⟩
  by_cases within : Index.Within index layout.shape
  · have same := (settled.packed inhabited).address_congr (last.packed again) contiguous settled.lengths
      last.lengths backShape ((order_of_reshape returned).trans order) (backOffset.trans offset)
      (backType.trans dtype) within
    rw [(settled.fits inhabited).byteOffset small within,
      (last.fits again).byteOffset small (backShape ▸ within), same]
  · rw [byteOffset_of_outside within, byteOffset_of_outside (backShape ▸ within)]

theorem values_reshape {type : ElementType} (rows : layout.order = .c) (typed : layout.dtype = .number type)
    (bytes : List UInt8) :
    (Index.all result.shape).map (result.valueAt type bytes) =
      (Index.all layout.shape).map (layout.valueAt type bytes) := by
  obtain ⟨_, sameShape, offset, dtype, _, _⟩ := reshape_eq_ok reshaped
  obtain ⟨later, populated⟩ := settled.reshape_of_inhabited inhabited bounded reshaped
  have count := ((settled.reshape_iff inhabited bounded).mp ⟨result, reshaped⟩).2
  rw [(settled.packed inhabited).values rows settled.lengths typed,
    (later.packed populated).values ((order_of_reshape reshaped).trans rows) later.lengths
      (dtype.trans typed),
    sameShape, count, offset]

end Settled

end Layout

end Marshal
