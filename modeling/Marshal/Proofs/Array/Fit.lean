import Mathlib
import Marshal.Proofs.Array.Settled

namespace Marshal.Layout

variable {layout : Layout} {step dim length : Nat} {dims slower : List Nat}

/-- The slowest axis of several elements has two, and the step along it is by one too large for a stride. -/
def Borderline (step : Nat) (dims : List Nat) : Prop :=
  ∃ faster slower, dims = faster ++ 2 :: slower ∧ step * faster.prod = Size.signedMax + 1 ∧
    ∀ dim ∈ slower, dim = 1

theorem borderline_cons :
    Borderline step (dim :: slower) ↔
      (step = Size.signedMax + 1 ∧ dim = 2 ∧ ∀ other ∈ slower, other = 1) ∨
      Borderline (step * dim) slower := by
  constructor
  · intro ⟨faster, rest, same, bytes, single⟩
    cases faster with
    | nil =>
        simp only [List.nil_append, List.cons.injEq] at same
        obtain ⟨rfl, rfl⟩ := same
        exact .inl ⟨by simpa using bytes, rfl, single⟩
    | cons first faster =>
        simp only [List.cons_append, List.cons.injEq] at same
        obtain ⟨rfl, rfl⟩ := same
        exact .inr ⟨faster, rest, rfl, by simpa [Nat.mul_assoc] using bytes, single⟩
  · intro border
    rcases border with ⟨here, rfl, single⟩ | ⟨faster, rest, rfl, bytes, single⟩
    · exact ⟨[], slower, rfl, by simpa using here, single⟩
    · exact ⟨dim :: faster, rest, rfl, by simpa [Nat.mul_assoc] using bytes, single⟩

theorem Borderline.bytes (border : Borderline step dims) : step * dims.prod = Size.bound := by
  obtain ⟨faster, slower, rfl, bytes, single⟩ := border
  rw [List.prod_append, List.prod_cons, List.prod_eq_one single, ← Nat.mul_assoc, bytes]
  rfl

theorem Borderline.step_le (border : Borderline step dims) : step ≤ Size.signedMax + 1 := by
  obtain ⟨faster, _, _, bytes, _⟩ := border
  rw [← bytes]
  apply Nat.le_mul_of_pos_right
  apply Nat.pos_of_ne_zero
  intro none
  rw [none, Nat.mul_zero] at bytes
  cases bytes

/-- Packed strides are the steps along the axes as far as strides can say. -/
theorem packedStrides_getElem? (positive : 0 < step) (inhabited : 0 ∉ dims) {axis : Nat}
    (below : axis < dims.length) :
    (packedStrides dims (min step Size.signedMax))[axis]? =
      some ((min (step * (dims.take axis).prod) Size.signedMax : Nat) : Int) := by
  induction dims generalizing step axis with
  | nil => simp at below
  | cons dim slower ih =>
      simp only [List.mem_cons, not_or] at inhabited
      have several : 0 < dim := by omega
      rw [packedStrides_cons positive several]
      cases axis with
      | zero => simp
      | succ axis =>
          rw [List.getElem?_cons_succ, ih (Nat.mul_pos positive several) inhabited.2 (by simpa using below),
            List.take_succ_cons, List.prod_cons, Nat.mul_assoc]

theorem packedSpan_eq_zero (positive : 0 < step) (inhabited : 0 ∉ dims) :
    packedSpan step dims = 0 ↔ ∀ dim ∈ dims, dim = 1 := by
  induction dims generalizing step with
  | nil => simp [packedSpan, Index.last]
  | cons dim slower ih =>
      simp only [List.mem_cons, not_or] at inhabited
      have several : 0 < dim := by omega
      have moves : min step Size.signedMax ≠ 0 := by
        simp only [Size.signedMax]
        omega
      have single : dim - 1 = 0 ↔ dim = 1 := by omega
      rw [packedSpan_cons positive several, Nat.add_eq_zero_iff,
        ih (Nat.mul_pos positive several) inhabited.2,
        Nat.mul_eq_zero, or_iff_left moves, single, List.forall_mem_cons]

/-- Where the bytes of all elements cannot be counted, the last one ends at the largest size or beyond it. -/
theorem packedSpan_eq_max (positive : 0 < step) (inhabited : 0 ∉ dims) (large : Size.max < step * dims.prod) :
    packedSpan step dims + step = Size.max ↔ Borderline step dims := by
  induction dims generalizing step with
  | nil =>
      rw [List.prod_nil, Nat.mul_one] at large
      refine iff_of_false (by omega) ?_
      intro ⟨faster, _, same, _⟩
      simp at same
  | cons dim slower ih =>
      simp only [List.mem_cons, not_or] at inhabited
      have several : 0 < dim := by omega
      have stepPositive := Nat.mul_pos positive several
      rw [List.prod_cons, ← Nat.mul_assoc] at large
      have rest := ih stepPositive inhabited.2 large
      rw [packedSpan_cons positive several, borderline_cons]
      by_cases fits : step ≤ Size.signedMax
      · -- the stride is exact, and all is decided farther on
        obtain ⟨more, rfl⟩ : ∃ more, dim = more + 1 := ⟨dim - 1, by omega⟩
        have here : more * step + step = step * (more + 1) := by rw [Nat.mul_add_one, Nat.mul_comm]
        have exact : ¬ step = Size.signedMax + 1 := by omega
        rw [Nat.min_eq_left fits, Nat.add_sub_cancel, ← rest]
        simp only [exact, false_and, false_or]
        omega
      · rw [Nat.min_eq_right (by omega)]
        by_cases single : dim = 1
        · simp only [single, Nat.mul_one] at rest ⊢
          simpa using rest
        · -- the stride was replaced, and another one farther on would lead too far
          have double : step * 2 ≤ step * dim := Nat.mul_le_mul_left _ (by omega)
          have farther : ¬ Borderline (step * dim) slower := by
            intro border
            have bound := border.step_le
            simp only [Size.signedMax] at fits bound
            omega
          rw [or_iff_left farther, ← packedSpan_eq_zero stepPositive inhabited.2]
          simp only [Size.max, Size.bound, Size.signedMax] at fits ⊢
          omega

namespace Contiguous

variable (contiguous : Contiguous layout) (inhabited : 0 ∉ layout.shape)

include contiguous inhabited

theorem stride {axis : Nat} (below : axis < layout.shape.length) :
    (layout.order.fastestFirst layout.strides)[axis]? =
      some ((min (layout.dtype.size * ((layout.order.fastestFirst layout.shape).take axis).prod)
        Size.signedMax : Nat) : Int) := by
  rw [contiguous.strides_eq]
  apply packedStrides_getElem? layout.dtype.size_pos (by simpa using inhabited)
  simpa using below

/-- The buffers that accept a contiguous layout with elements. -/
theorem validate_iff (bounded : length ≤ Size.max) :
    layout.validate length = .ok () ↔
      layout.offset + layout.dtype.size * layout.shape.prod ≤ length ∨
        (layout.offset = 0 ∧ length = Size.max ∧
          Borderline layout.dtype.size (layout.order.fastestFirst layout.shape)) := by
  have positive := layout.dtype.size_pos
  have populated : 0 ∉ layout.order.fastestFirst layout.shape := by simpa using inhabited
  have ends : layout.validate length = .ok () ↔
      layout.offset + packedSpan layout.dtype.size (layout.order.fastestFirst layout.shape) +
        layout.dtype.size ≤ length := by
    rw [validate_iff_fits inhabited bounded, fits_iff_last inhabited, contiguous.address_last]
    exact ⟨fun fits => fits.2.2, fun inside => ⟨contiguous.lengths, contiguous.nonnegative, inside⟩⟩
  rw [ends]
  by_cases large : Size.max < layout.dtype.size * layout.shape.prod
  · have beyond := le_packedSpan positive populated (by simpa using large)
    rw [← packedSpan_eq_max positive populated (by simpa using large)]
    omega
  · have total := packedSpan_of_bytes positive populated (by simpa using Nat.le_of_not_lt large)
    have counted : ¬ Borderline layout.dtype.size (layout.order.fastestFirst layout.shape) := by
      intro border
      have bytes := border.bytes
      simp only [ArrayOrder.prod_fastestFirst] at bytes
      simp only [bytes, Size.max, Size.bound] at large
      omega
    simp only [ArrayOrder.prod_fastestFirst] at total
    simp only [counted, and_false, or_false]
    omega

end Contiguous

/-- A contiguous layout with elements is accepted exactly by the buffers that hold the bytes of its
elements, but for two halves one byte farther apart than a stride can say: those are also accepted where
their bytes are one too many, by a buffer of the largest size.  Strides are exact or the largest signed
size; a layout of which one had to be replaced is refused by every buffer that memory has room for. -/
theorem contiguous_validate_exact (shape : List Nat) (dtype : DType) (length : Nat) (inhabited : 0 ∉ shape)
    (bounded : length ≤ Size.max) :
    ∀ layout ∈ [cContiguous shape dtype, fortranContiguous shape dtype],
      (layout.validate length = .ok () ↔
        dtype.size * shape.prod ≤ length ∨
          (length = Size.max ∧ Borderline dtype.size (layout.order.fastestFirst shape))) ∧
      (∀ axis < shape.length, (layout.order.fastestFirst layout.strides)[axis]? =
        some ((min (dtype.size * ((layout.order.fastestFirst shape).take axis).prod)
          Size.signedMax : Nat) : Int)) ∧
      (length ≤ Size.signedMax →
        (∃ axis < shape.length,
          Size.signedMax < dtype.size * ((layout.order.fastestFirst shape).take axis).prod) →
        layout.validate length ≠ .ok ()) := by
  intro layout member
  have made : Contiguous layout ∧ layout.shape = shape ∧ layout.dtype = dtype ∧ layout.offset = 0 := by
    simp only [List.mem_cons, List.not_mem_nil, or_false] at member
    rcases member with rfl | rfl
    · exact ⟨.c shape dtype 0, rfl, rfl, rfl⟩
    · exact ⟨.fortran shape dtype 0, rfl, rfl, rfl⟩
  clear member
  obtain ⟨contiguous, rfl, rfl, start⟩ := made
  have accepted := contiguous.validate_iff inhabited bounded
  simp only [start, Nat.zero_add, true_and] at accepted
  refine ⟨accepted, fun axis below => contiguous.stride inhabited below, fun small replaced valid => ?_⟩
  obtain ⟨axis, _, large⟩ := replaced
  have populated : 0 ∉ layout.order.fastestFirst layout.shape := by simpa using inhabited
  have step : layout.dtype.size * ((layout.order.fastestFirst layout.shape).take axis).prod ≤
      layout.dtype.size * layout.shape.prod := by
    apply Nat.mul_le_mul_left
    simpa using Size.prod_take_le populated axis
  have below : Size.signedMax < Size.max := by decide
  rcases accepted.mp valid with fits | ⟨whole, _⟩ <;> omega

/-- Two rows of half of all addresses each take one byte more than the largest size, and are accepted by
it. -/
theorem contiguous_validate_exact_halves :
    0 ∉ [2, 2 ^ 63] ∧ Size.max ≤ Size.max ∧
      (cContiguous [2, 2 ^ 63] (.int .u8)).validate Size.max = .ok () ∧
      Size.max < (DType.int .u8).size * [2, 2 ^ 63].prod ∧
      (cContiguous [2, 2 ^ 63] (.int .u8)).validate Size.signedMax ≠ .ok () := by
  have inhabited : 0 ∉ [2, 2 ^ 63] := by decide
  have whole := contiguous_validate_exact [2, 2 ^ 63] (.int .u8) Size.max inhabited (Nat.le_refl _) _
    List.mem_cons_self
  have half := contiguous_validate_exact [2, 2 ^ 63] (.int .u8) Size.signedMax inhabited (by decide) _
    List.mem_cons_self
  have border : Borderline 1 [2 ^ 63, 2] := ⟨[2 ^ 63], [], rfl, by decide, by simp⟩
  exact ⟨inhabited, Nat.le_refl _, whole.1.mpr (.inr ⟨rfl, border⟩), by decide,
    half.2.2 (Nat.le_refl _) ⟨1, by decide, by decide⟩⟩

end Marshal.Layout
