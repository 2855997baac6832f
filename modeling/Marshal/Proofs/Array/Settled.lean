import Mathlib
import Marshal.Proofs.Array.Slice

/-!
# Layouts that stay inside a buffer

Slices, transposes and reshapes are not compared with the buffer again.  What they rely on is kept: a
layout with elements lies inside the buffer, and its order is true.  Only the number of elements can
betray them.  Multiplied from the left it may be too large for a size although a later axis is empty;
then it counts as the largest size, and a reshape to that many elements is let through.
-/

namespace Marshal.Layout

variable {layout : Layout} {start stop shape : List Nat} {length : Nat}

/-- A layout with elements lies inside the buffer and keeps what its order promises. -/
structure Settled (layout : Layout) (length : Nat) : Prop where
  lengths : layout.shape.length = layout.strides.length
  fits : 0 ∉ layout.shape → layout.Fits length
  packed : 0 ∉ layout.shape → layout.Packed

def isCounted (layout : Layout) : Bool := (Size.checkedProduct layout.shape).isSome

theorem settled_of_validate (bounded : length ≤ Size.max) (accepted : layout.validate length = .ok ())
    (packed : 0 ∉ layout.shape → layout.Fits length → layout.Packed) : layout.Settled length where
  lengths := (validate_eq_ok.mp accepted).1
  fits := fun inhabited => (validate_iff_fits inhabited bounded).mp accepted
  packed := fun inhabited => packed inhabited ((validate_iff_fits inhabited bounded).mp accepted)

theorem Settled.validate (settled : layout.Settled length) (inhabited : 0 ∉ layout.shape)
    (bounded : length ≤ Size.signedMax) : layout.validate length = .ok () :=
  (validate_iff_fits inhabited (Nat.le_trans bounded Size.signedMax_le_max)).mpr (settled.fits inhabited)

theorem strided_eq_ok {strides : List Int} {dtype : DType} {offset : Nat}
    (made : strided shape strides dtype offset = .ok layout) :
    layout.shape.length = layout.strides.length ∧ layout.Packed := by
  simp only [strided] at made
  split at made
  · cases made
  · rename_i lengths
    cases made
    exact ⟨not_not.mp lengths, packed_of_detectOrder rfl⟩

theorem strided_settled {strides : List Int} {dtype : DType} {offset : Nat}
    (made : strided shape strides dtype offset = .ok layout) (bounded : length ≤ Size.max)
    (accepted : layout.validate length = .ok ()) : layout.Settled length :=
  settled_of_validate bounded accepted fun _ _ => (strided_eq_ok made).2

namespace Contiguous

theorem settled_of_validate (contiguous : Contiguous layout) (bounded : length ≤ Size.signedMax)
    (accepted : layout.validate length = .ok ()) : layout.Settled length :=
  Layout.settled_of_validate (Nat.le_trans bounded Size.signedMax_le_max) accepted
    fun inhabited fits => contiguous.packed_of_fits inhabited fits bounded

theorem settled_of_bytes (contiguous : Contiguous layout)
    (room : 0 ∉ layout.shape → layout.offset + layout.dtype.size * layout.shape.prod ≤ length)
    (bounded : length ≤ Size.signedMax) : layout.Settled length := by
  have packed : 0 ∉ layout.shape → layout.Packed := by
    intro inhabited
    have fits := room inhabited
    have small := Size.signedMax_le_max
    exact contiguous.packed_of_bytes inhabited (by omega)
  refine ⟨contiguous.lengths, fun inhabited => ?_, packed⟩
  have last := (packed inhabited).address_last contiguous.order_ne contiguous.lengths inhabited
  exact (fits_iff_last inhabited).mpr
    ⟨contiguous.lengths, contiguous.nonnegative, by rw [last]; exact room inhabited⟩

end Contiguous

namespace Settled

theorem transpose (settled : layout.Settled length) : layout.transpose.Settled length where
  lengths := by simpa [Layout.transpose] using settled.lengths
  fits := by
    intro inhabited
    have fits := settled.fits (by simpa [Layout.transpose] using inhabited)
    refine ⟨by simpa [Layout.transpose] using fits.lengths, ?_, fun index within => ?_⟩
    · simpa [Layout.transpose] using fits.nonnegative
    · have reversed : Index.Within index.reverse layout.shape := by
        simpa [Layout.transpose] using List.forall₂_reverse_iff.mpr within
      have inside := fits.inside _ reversed
      rwa [← address_transpose (reversed.length_eq.trans fits.lengths), List.reverse_reverse] at inside
  packed := by
    intro inhabited
    exact (settled.packed (by simpa [Layout.transpose] using inhabited)).transpose settled.lengths

theorem part (settled : layout.Settled length) (selects : layout.Selects start stop) :
    (layout.part start stop).Settled length where
  lengths := selects.part_lengths settled.lengths
  fits := by
    intro inhabited
    have whole := (selects.within_add (Index.last_within inhabited)).2.inhabited
    exact (settled.fits whole).part selects
  packed := fun _ => packed_of_detectOrder rfl

theorem slice {result : Layout} (settled : layout.Settled length)
    (computed : layout.slice start stop = .ok result) : result.Settled length := by
  obtain ⟨selects, rfl⟩ := slice_eq_ok settled.lengths computed
  exact settled.part selects

end Settled

theorem reshape_eq_ok {result : Layout} (reshaped : layout.reshape shape = .ok result) :
    Contiguous result ∧ result.shape = shape ∧ result.offset = layout.offset ∧
      result.dtype = layout.dtype ∧ layout.order ≠ .neither ∧ shape.prod = layout.size := by
  simp only [reshape] at reshaped
  split at reshaped
  · cases reshaped
  · rename_i counted
    have count := Size.checkedProduct_eq (not_not.mp counted)
    cases order : layout.order with
    | c =>
        rw [order] at reshaped
        cases reshaped
        exact ⟨.c _ _ _, rfl, rfl, rfl, by simp, count.symm⟩
    | fortran =>
        rw [order] at reshaped
        cases reshaped
        exact ⟨.fortran _ _ _, rfl, rfl, rfl, by simp, count.symm⟩
    | neither =>
        rw [order] at reshaped
        cases reshaped

theorem size_of_isCounted (counted : layout.isCounted = true) : layout.size = layout.shape.prod := by
  obtain ⟨product, known⟩ := Option.isSome_iff_exists.mp counted
  rw [size, known, Option.getD_some]
  exact Size.checkedProduct_eq known

/-- What lies without gaps in a buffer can be counted. -/
theorem Settled.isCounted (settled : layout.Settled length) (contiguous : layout.order ≠ .neither)
    (inhabited : 0 ∉ layout.shape) (bounded : length ≤ Size.max) : layout.isCounted = true := by
  have few := (settled.packed inhabited).prod_le contiguous (settled.fits inhabited) inhabited
  rw [Layout.isCounted, Size.checkedProduct_of_le inhabited (Nat.le_trans few bounded), Option.isSome_some]

theorem Settled.reshape {result : Layout} (settled : layout.Settled length)
    (reshaped : layout.reshape shape = .ok result) (counted : layout.isCounted = true)
    (bounded : length ≤ Size.signedMax) : result.Settled length := by
  obtain ⟨contiguous, rfl, sameOffset, sameType, order, count⟩ := reshape_eq_ok reshaped
  refine contiguous.settled_of_bytes (fun inhabited => ?_) bounded
  have same : result.shape.prod = layout.shape.prod := count.trans (size_of_isCounted counted)
  have whole : 0 ∉ layout.shape := by
    intro empty
    rw [List.prod_eq_zero empty] at same
    exact inhabited (List.prod_eq_zero_iff.mp same)
  rw [sameOffset, sameType, same]
  exact (settled.packed whole).inside order (settled.fits whole) whole

/-- A reshape of elements that cannot be counted leads out of every buffer. -/
theorem reshape_leaves {result : Layout} (reshaped : layout.reshape shape = .ok result)
    (uncounted : layout.isCounted = false) (bounded : length ≤ Size.signedMax) :
    0 ∉ result.shape ∧
      length < result.address (Index.last result.shape) + result.dtype.size := by
  obtain ⟨contiguous, rfl, _, _, _, count⟩ := reshape_eq_ok reshaped
  have huge : result.shape.prod = Size.max := by
    have unknown : Size.checkedProduct layout.shape = none := by simpa [isCounted] using uncounted
    rw [count, size, unknown, Option.getD_none]
  have inhabited : 0 ∉ result.shape := by
    intro empty
    rw [List.prod_eq_zero empty] at huge
    exact absurd huge (by decide)
  refine ⟨inhabited, Nat.lt_of_not_le fun inside => ?_⟩
  have fits : result.Fits length :=
    (fits_iff_last inhabited).mpr ⟨contiguous.lengths, contiguous.nonnegative, inside⟩
  have packed := contiguous.packed_of_fits inhabited fits bounded
  have last := packed.address_last contiguous.order_ne contiguous.lengths inhabited
  have many : Size.max ≤ result.dtype.size * result.shape.prod := by
    rw [huge]
    exact Nat.le_mul_of_pos_left _ result.dtype.size_pos
  have small : Size.signedMax < Size.max := by decide
  omega

end Marshal.Layout
