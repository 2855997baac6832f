import Mathlib
import Marshal.Proofs.Array.Extent

/-!
# Layouts without gaps

A recorded order is a promise about strides: the axes, read in that order, lie side by side.  Orders
that were found out keep it, and so do the strides of a contiguous layout as long as none of them had
to be replaced by the largest signed size.  A layout without gaps ends after as many bytes as its
elements take.
-/

namespace Marshal

theorem DType.size_bounds (dtype : DType) : 0 < dtype.size ∧ dtype.size ≤ 16 := by
  rcases dtype with _ | type | part
  · decide
  · rcases type with type | type <;> cases type <;> decide
  · cases part <;> decide

theorem DType.size_pos (dtype : DType) : 0 < dtype.size := dtype.size_bounds.1

theorem DType.min_size (dtype : DType) : min dtype.size Size.signedMax = dtype.size := by
  have bounds := dtype.size_bounds
  simp only [Size.signedMax]
  omega

namespace ArrayOrder

variable {α : Type} {order : ArrayOrder}

/-- Axes in the order of memory, the fastest first. -/
def fastestFirst : ArrayOrder → List α → List α
  | .c, axes | .neither, axes => axes.reverse
  | .fortran, axes => axes

@[simp] theorem mem_fastestFirst {axis : α} {axes : List α} :
    axis ∈ order.fastestFirst axes ↔ axis ∈ axes := by
  cases order <;> simp [fastestFirst]

@[simp] theorem length_fastestFirst {axes : List α} : (order.fastestFirst axes).length = axes.length := by
  cases order <;> simp [fastestFirst]

@[simp] theorem prod_fastestFirst {shape : List Nat} : (order.fastestFirst shape).prod = shape.prod := by
  cases order <;> simp [fastestFirst, List.prod_reverse]

@[simp] theorem fastestFirst_fastestFirst {axes : List α} :
    order.fastestFirst (order.fastestFirst axes) = axes := by
  cases order <;> simp [fastestFirst]

theorem zipWith_fastestFirst {β γ : Type} {f : α → β → γ} {first : List α} {second : List β}
    (lengths : first.length = second.length) :
    (order.fastestFirst first).zipWith f (order.fastestFirst second) =
      order.fastestFirst (first.zipWith f second) := by
  cases order <;> simp [fastestFirst, List.reverse_zipWith lengths]

theorem sum_fastestFirst {steps : List Nat} : (order.fastestFirst steps).sum = steps.sum := by
  cases order <;> simp [fastestFirst, List.sum_reverse]

end ArrayOrder

theorem Index.last_fastestFirst {order : ArrayOrder} {shape : List Nat} :
    Index.last (order.fastestFirst shape) = order.fastestFirst (Index.last shape) := by
  cases order <;> simp [ArrayOrder.fastestFirst, Index.last]

namespace Layout

/-- Axes, the fastest first, lie side by side when a step on the first takes `step` bytes.  The
stride of an axis of length one never matters. -/
def Gapless (step : Nat) : List (Nat × Int) → Prop
  | [] => True
  | (dim, stride) :: slower => (dim ≤ 1 ∨ stride = step) ∧ Gapless (step * dim) slower

theorem gapless_of_packedFrom {axes : List (Nat × Int)} {expected : Option Nat} {step : Nat}
    (packed : packedFrom expected axes = true) (agrees : ∀ found, expected = some found → found = step) :
    Gapless step axes := by
  induction axes generalizing expected step with
  | nil => trivial
  | cons axis slower ih =>
      obtain ⟨dim, stride⟩ := axis
      simp only [packedFrom, Bool.and_eq_true, Bool.or_eq_true, decide_eq_true_eq, beq_iff_eq,
        Option.map_eq_some_iff] at packed
      obtain ⟨first, rest⟩ := packed
      refine ⟨first.imp_right ?_, ih rest ?_⟩
      · rintro ⟨found, known, rfl⟩
        rw [agrees found known]
        rfl
      · intro found next
        simp only [Option.bind_eq_some_iff, Size.checkedSigned, Option.bind_eq_bind,
          Option.ite_none_right_eq_some, Option.some.injEq] at next
        obtain ⟨step', known, dim', ⟨_, rfl⟩, _, rfl⟩ := next
        rw [agrees step' known]

theorem Gapless.sum_last {step : Nat} {shape : List Nat} {strides : List Int}
    (gapless : Gapless step (shape.zip strides)) (lengths : shape.length = strides.length)
    (inhabited : 0 ∉ shape) :
    ((Index.last shape).zipWith (fun i (stride : Int) => i * stride.natAbs) strides).sum + step =
      step * shape.prod := by
  induction shape generalizing step strides with
  | nil => simp [Index.last]
  | cons dim shape ih =>
      cases strides with
      | nil => simp at lengths
      | cons stride strides =>
          simp only [List.mem_cons, not_or] at inhabited
          obtain ⟨first, rest⟩ := gapless
          have slower := ih rest (by simpa using lengths) inhabited.2
          have span : (dim - 1) * stride.natAbs + step = step * dim := by
            rcases first with single | same
            · have one : dim = 1 := by omega
              simp [one]
            · obtain ⟨count, rfl⟩ : ∃ count, dim = count + 1 := ⟨dim - 1, by omega⟩
              rw [same, Int.natAbs_natCast, Nat.add_sub_cancel, Nat.mul_add_one, Nat.mul_comm]
          simp only [Index.last, List.map_cons, List.zipWith_cons_cons, List.sum_cons,
            List.prod_cons, ← Nat.mul_assoc] at slower ⊢
          omega

section PackedStrides

variable {step : Nat} {dims : List Nat}

@[simp] theorem packedStrides_length : (packedStrides dims step).length = dims.length := by
  simp only [packedStrides]
  rw [List.length_map]
  induction dims generalizing step with
  | nil => rfl
  | cons dim slower ih => simp [packedStridesFrom, ih]

theorem packedStrides_nonnegative : ∀ stride ∈ packedStrides dims step, 0 ≤ stride := by
  intro stride member
  obtain ⟨n, _, rfl⟩ := List.mem_map.mp member
  exact Int.natCast_nonneg n

/-- One axis on, the stride is that of the next step, or the largest signed size instead. -/
theorem packedStrides_cons {dim : Nat} {slower : List Nat} (positive : 0 < step) (several : 0 < dim) :
    packedStrides (dim :: slower) (min step Size.signedMax) =
      ((min step Size.signedMax : Nat) : Int) :: packedStrides slower (min (step * dim) Size.signedMax) := by
  have left : step ≤ step * dim := Nat.le_mul_of_pos_right _ several
  have right : dim ≤ step * dim := Nat.le_mul_of_pos_left _ positive
  have next : (if dim ≤ Size.signedMax ∧ min step Size.signedMax * dim ≤ Size.signedMax
      then min step Size.signedMax * dim else Size.signedMax) = min (step * dim) Size.signedMax := by
    rcases Nat.le_total step Size.signedMax with fits | large
    · rw [Nat.min_eq_left fits]
      split <;> omega
    · have most : Size.signedMax ≤ Size.signedMax * dim := Nat.le_mul_of_pos_right _ several
      rw [Nat.min_eq_right large]
      split <;> omega
  simp [packedStrides, packedStridesFrom, next]

/-- How far the last element lies behind the first along axes with packed strides. -/
def packedSpan (step : Nat) (dims : List Nat) : Nat :=
  ((Index.last dims).zipWith (fun i (stride : Int) => i * stride.natAbs)
    (packedStrides dims (min step Size.signedMax))).sum

theorem packedSpan_cons {dim : Nat} {slower : List Nat} (positive : 0 < step) (several : 0 < dim) :
    packedSpan step (dim :: slower) =
      (dim - 1) * min step Size.signedMax + packedSpan (step * dim) slower := by
  rw [packedSpan, packedStrides_cons positive several, Index.last, List.map_cons, List.zipWith_cons_cons,
    List.sum_cons, Int.natAbs_natCast]
  rfl

/-- Packed strides leave no gaps as long as the bytes of all elements can be counted: a stride that had to be
replaced then belongs to an axis of length one. -/
theorem gapless_of_bytes (positive : 0 < step) (inhabited : 0 ∉ dims) (fits : step * dims.prod ≤ Size.max) :
    Gapless step (dims.zip (packedStrides dims (min step Size.signedMax))) := by
  induction dims generalizing step with
  | nil => trivial
  | cons dim slower ih =>
      simp only [List.mem_cons, not_or] at inhabited
      have several : 0 < dim := by omega
      rw [List.prod_cons, ← Nat.mul_assoc] at fits
      have slowerPositive : 0 < slower.prod :=
        Nat.pos_of_ne_zero fun zero => inhabited.2 (List.prod_eq_zero_iff.mp zero)
      have stepFits : step * dim ≤ Size.max := Nat.le_trans (Nat.le_mul_of_pos_right _ slowerPositive) fits
      rw [packedStrides_cons positive several]
      refine ⟨?_, ih (Nat.mul_pos positive several) inhabited.2 fits⟩
      by_cases single : dim ≤ 1
      · exact .inl single
      · -- two steps are a size, so that one is a signed size
        have twice : step * 2 ≤ step * dim := Nat.mul_le_mul_left _ (by omega)
        simp only [Size.max, Size.bound, Size.signedMax] at stepFits ⊢
        omega

theorem packedSpan_of_bytes (positive : 0 < step) (inhabited : 0 ∉ dims)
    (fits : step * dims.prod ≤ Size.max) :
    packedSpan step dims + step = step * dims.prod :=
  (gapless_of_bytes positive inhabited fits).sum_last packedStrides_length.symm inhabited

/-- When the bytes of all elements cannot be counted, the last element ends where sizes do or later:
behind the first stride that had to be replaced lie at least as many bytes again. -/
theorem le_packedSpan (positive : 0 < step) (inhabited : 0 ∉ dims) (large : Size.max < step * dims.prod) :
    Size.max ≤ packedSpan step dims + step := by
  induction dims generalizing step with
  | nil =>
      rw [List.prod_nil, Nat.mul_one] at large
      omega
  | cons dim slower ih =>
      simp only [List.mem_cons, not_or] at inhabited
      have several : 0 < dim := by omega
      rw [List.prod_cons, ← Nat.mul_assoc] at large
      have rest := ih (Nat.mul_pos positive several) inhabited.2 large
      rw [packedSpan_cons positive several]
      obtain ⟨more, rfl⟩ : ∃ more, dim = more + 1 := ⟨dim - 1, by omega⟩
      rw [Nat.add_sub_cancel]
      by_cases fits : step ≤ Size.signedMax
      · have here : more * step + step = step * (more + 1) := by rw [Nat.mul_add_one, Nat.mul_comm]
        rw [Nat.min_eq_left fits]
        omega
      · rw [Nat.min_eq_right (by omega)]
        cases more with
        | zero =>
            rw [Nat.zero_add, Nat.mul_one] at rest ⊢
            omega
        | succ more =>
            simp only [Size.max, Size.bound, Size.signedMax] at fits ⊢
            omega

end PackedStrides

variable {layout : Layout} {index : List Nat} {length : Nat}

theorem address_transpose (lengths : index.length = layout.strides.length) :
    layout.transpose.address index.reverse = layout.address index := by
  simp only [address, steps, transpose]
  rw [← List.reverse_zipWith lengths, List.sum_reverse]

/-- The steps of an index add up in any order of the axes. -/
theorem address_fastestFirst (order : ArrayOrder) (lengths : index.length = layout.strides.length) :
    layout.address index = layout.offset +
      ((order.fastestFirst index).zipWith (fun i (stride : Int) => i * stride.natAbs)
        (order.fastestFirst layout.strides)).sum := by
  rw [ArrayOrder.zipWith_fastestFirst lengths, ArrayOrder.sum_fastestFirst]
  rfl

theorem axes_fastestFirst (order : ArrayOrder) (lengths : layout.shape.length = layout.strides.length) :
    (order.fastestFirst layout.shape).zip (order.fastestFirst layout.strides) =
      order.fastestFirst layout.axes := by
  rw [List.zip_eq_zipWith, ArrayOrder.zipWith_fastestFirst lengths]
  rfl

theorem transpose_transpose : layout.transpose.transpose = layout := by
  obtain ⟨shape, strides, dtype, order, offset⟩ := layout
  cases order <;> simp [transpose, ArrayOrder.reversed]

theorem axes_transpose (lengths : layout.shape.length = layout.strides.length) :
    layout.transpose.axes = layout.axes.reverse := by
  simp only [axes, transpose, List.zip_eq_zipWith, List.reverse_zipWith lengths]

/-- The strides of a layout keep what its order promises. -/
def Packed (layout : Layout) : Prop :=
  match layout.order with
  | .c => Gapless layout.dtype.size layout.axes.reverse
  | .fortran => Gapless layout.dtype.size layout.axes
  | .neither => True

/-- Without gaps the axes lie side by side, the fastest first. -/
theorem Packed.gapless (packed : layout.Packed) (contiguous : layout.order ≠ .neither)
    (lengths : layout.shape.length = layout.strides.length) :
    Gapless layout.dtype.size
      ((layout.order.fastestFirst layout.shape).zip (layout.order.fastestFirst layout.strides)) := by
  rw [axes_fastestFirst _ lengths]
  simp only [Packed] at packed
  cases order : layout.order with
  | c => simpa [order, ArrayOrder.fastestFirst] using packed
  | fortran => simpa [order, ArrayOrder.fastestFirst] using packed
  | neither => exact absurd order contiguous

theorem packed_of_detectOrder
    (detected : layout.order = detectOrder layout.shape layout.strides layout.dtype.size) :
    layout.Packed := by
  simp only [Packed]
  rw [detected, detectOrder]
  split_ifs with rows columns
  · exact gapless_of_packedFrom rows (by simp)
  · exact gapless_of_packedFrom columns (by simp)
  · trivial

theorem Packed.transpose (lengths : layout.shape.length = layout.strides.length)
    (packed : layout.Packed) : layout.transpose.Packed := by
  have reversed := axes_transpose lengths
  simp only [Packed] at packed ⊢
  cases order : layout.order with
  | c =>
      simp only [order] at packed
      simpa [Layout.transpose, order, ArrayOrder.reversed] using reversed ▸ packed
  | fortran =>
      simp only [order] at packed
      have twice : layout.transpose.axes.reverse = layout.axes := by rw [reversed, List.reverse_reverse]
      simpa [Layout.transpose, order, ArrayOrder.reversed] using twice ▸ packed
  | neither => simp [Layout.transpose, order, ArrayOrder.reversed]

theorem Packed.address_last (packed : layout.Packed) (contiguous : layout.order ≠ .neither)
    (lengths : layout.shape.length = layout.strides.length) (inhabited : 0 ∉ layout.shape) :
    layout.address (Index.last layout.shape) + layout.dtype.size =
      layout.offset + layout.dtype.size * layout.shape.prod := by
  have total := (packed.gapless contiguous lengths).sum_last (by simpa using lengths)
    (by simpa using inhabited)
  have lastLength : (Index.last layout.shape).length = layout.strides.length := by
    simpa [Index.last] using lengths
  rw [address_fastestFirst layout.order lastLength, ← Index.last_fastestFirst]
  simp only [ArrayOrder.prod_fastestFirst] at total
  omega

theorem Packed.inside (packed : layout.Packed) (contiguous : layout.order ≠ .neither)
    (fits : layout.Fits length) (inhabited : 0 ∉ layout.shape) :
    layout.offset + layout.dtype.size * layout.shape.prod ≤ length := by
  have total := packed.address_last contiguous fits.lengths inhabited
  have last := fits.inside _ (Index.last_within inhabited)
  omega

theorem Packed.prod_le (packed : layout.Packed) (contiguous : layout.order ≠ .neither)
    (fits : layout.Fits length) (inhabited : 0 ∉ layout.shape) : layout.shape.prod ≤ length :=
  calc layout.shape.prod
    _ ≤ layout.dtype.size * layout.shape.prod := Nat.le_mul_of_pos_left _ layout.dtype.size_pos
    _ ≤ layout.offset + layout.dtype.size * layout.shape.prod := Nat.le_add_left _ _
    _ ≤ length := packed.inside contiguous fits inhabited

/-- The layouts that are contiguous by construction, wherever they start. -/
inductive Contiguous : Layout → Prop
  | c (shape : List Nat) (dtype : DType) (offset : Nat) :
      Contiguous { cContiguous shape dtype with offset }
  | fortran (shape : List Nat) (dtype : DType) (offset : Nat) :
      Contiguous { fortranContiguous shape dtype with offset }

namespace Contiguous

theorem transpose (contiguous : Contiguous layout) : Contiguous layout.transpose := by
  cases contiguous with
  | c shape dtype offset =>
      have same : ({ cContiguous shape dtype with offset } : Layout).transpose =
          { fortranContiguous shape.reverse dtype with offset } := by
        simp [Layout.transpose, cContiguous, fortranContiguous, ArrayOrder.reversed]
      rw [same]
      exact .fortran _ _ _
  | fortran shape dtype offset =>
      have same : ({ fortranContiguous shape dtype with offset } : Layout).transpose =
          { cContiguous shape.reverse dtype with offset } := by
        simp [Layout.transpose, cContiguous, fortranContiguous, ArrayOrder.reversed]
      rw [same]
      exact .c _ _ _

theorem lengths (contiguous : Contiguous layout) :
    layout.shape.length = layout.strides.length := by
  cases contiguous <;> simp [cContiguous, fortranContiguous]

theorem nonnegative (contiguous : Contiguous layout) : ∀ stride ∈ layout.strides, 0 ≤ stride := by
  cases contiguous with
  | c shape dtype offset =>
      intro stride member
      exact packedStrides_nonnegative stride (List.mem_reverse.mp member)
  | fortran shape dtype offset => exact packedStrides_nonnegative

theorem order_ne (contiguous : Contiguous layout) : layout.order ≠ .neither := by
  cases contiguous <;> simp [cContiguous, fortranContiguous]

variable (contiguous : Contiguous layout)

include contiguous

theorem strides_eq : layout.order.fastestFirst layout.strides =
    packedStrides (layout.order.fastestFirst layout.shape) (min layout.dtype.size Size.signedMax) := by
  rw [DType.min_size]
  cases contiguous with
  | c shape dtype offset => simp [ArrayOrder.fastestFirst, cContiguous]
  | fortran shape dtype offset => rfl

theorem address_last : layout.address (Index.last layout.shape) =
    layout.offset + packedSpan layout.dtype.size (layout.order.fastestFirst layout.shape) := by
  have lastLength : (Index.last layout.shape).length = layout.strides.length := by
    simpa [Index.last] using contiguous.lengths
  rw [address_fastestFirst layout.order lastLength, contiguous.strides_eq, ← Index.last_fastestFirst]
  rfl

theorem packed_of_bytes (inhabited : 0 ∉ layout.shape)
    (fits : layout.dtype.size * layout.shape.prod ≤ Size.max) : layout.Packed := by
  have gapless : Gapless layout.dtype.size (layout.order.fastestFirst layout.axes) := by
    rw [← axes_fastestFirst _ contiguous.lengths, contiguous.strides_eq]
    apply gapless_of_bytes layout.dtype.size_pos
    · simpa using inhabited
    · simpa using fits
  cases contiguous with
  | c shape dtype offset => exact gapless
  | fortran shape dtype offset => exact gapless

/-- A contiguous layout that fits into memory has exact strides. -/
theorem packed_of_fits (inhabited : 0 ∉ layout.shape) (fits : layout.Fits length)
    (bounded : length ≤ Size.signedMax) : layout.Packed := by
  refine contiguous.packed_of_bytes inhabited (Nat.le_of_not_lt fun large => ?_)
  have populated : 0 ∉ layout.order.fastestFirst layout.shape := by simpa using inhabited
  have beyond := le_packedSpan layout.dtype.size_pos populated (by simpa using large)
  have last := fits.inside _ (Index.last_within inhabited)
  rw [contiguous.address_last] at last
  have small : Size.signedMax < Size.max := by decide
  omega

end Contiguous

end Layout

end Marshal
