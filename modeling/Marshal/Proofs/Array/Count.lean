import Mathlib
import Marshal.Proofs.Array.Rows

namespace Marshal.Layout

variable {layout other : Layout}

/-- No axis without elements comes after axes that have too many together. -/
def Measured (layout : Layout) : Prop := 0 ∈ layout.shape → ∀ n, (layout.shape.take n).prod ≤ Size.max

theorem isCounted_iff : layout.isCounted = true ↔ ∀ n, (layout.shape.take n).prod ≤ Size.max := by
  simp [isCounted, Option.isSome_iff_exists, Size.checkedProduct_eq_some]

theorem checkedNbytes_of_counted (counted : layout.isCounted = true) {n : Nat} :
    layout.checkedNbytes = some n ↔ layout.shape.prod * layout.dtype.size = n ∧ n ≤ Size.max := by
  obtain ⟨product, known⟩ := Option.isSome_iff_exists.mp counted
  simp only [checkedNbytes, known, Option.bind_eq_bind, Option.bind_some, Size.checked_eq_some,
    Size.checkedProduct_eq known]
  constructor
  · intro ⟨total, fits⟩
    omega
  · intro ⟨total, fits⟩
    omega

theorem count_of_uncounted (uncounted : layout.isCounted = false) :
    layout.size = Size.max ∧ layout.checkedNbytes = none := by
  have unknown : Size.checkedProduct layout.shape = none := by simpa [isCounted] using uncounted
  simp [size, checkedNbytes, unknown]

theorem prod_le_of_counted (counted : layout.isCounted = true) : layout.shape.prod ≤ Size.max := by
  have whole := isCounted_iff.mp counted layout.shape.length
  rwa [List.take_length] at whole

/-- What could not be counted and has no empty axis really has that many elements. -/
theorem lt_prod_of_uncounted (inhabited : 0 ∉ layout.shape) (uncounted : layout.isCounted = false) :
    Size.max < layout.shape.prod := by
  by_contra few
  have counted : layout.isCounted = true :=
    isCounted_iff.mpr fun n => Nat.le_trans (Size.prod_take_le inhabited n) (Nat.le_of_not_lt few)
  rw [uncounted] at counted
  cases counted

theorem measured_or_counted (measured : layout.Measured) : layout.isCounted = true ∨ 0 ∉ layout.shape := by
  by_cases empty : 0 ∈ layout.shape
  · exact .inl (isCounted_iff.mpr (measured empty))
  · exact .inr empty

theorem count_of_not_measured (crowded : ¬ layout.Measured) :
    0 ∈ layout.shape ∧ layout.isCounted = false := by
  simp only [Measured, Classical.not_imp] at crowded
  refine ⟨crowded.1, Bool.eq_false_of_not_eq_true fun counted => ?_⟩
  exact crowded.2 (isCounted_iff.mp counted)

namespace Measured

variable (measured : layout.Measured)

include measured

theorem size : layout.size = min layout.shape.prod Size.max := by
  cases counted : layout.isCounted with
  | true => rw [size_of_isCounted counted, Nat.min_eq_left (prod_le_of_counted counted)]
  | false =>
      have inhabited := (measured_or_counted measured).resolve_left (by simp [counted])
      rw [(count_of_uncounted counted).1,
        Nat.min_eq_right (Nat.le_of_lt (lt_prod_of_uncounted inhabited counted))]

theorem checkedNbytes {n : Nat} :
    layout.checkedNbytes = some n ↔ layout.shape.prod * layout.dtype.size = n ∧ n ≤ Size.max := by
  cases counted : layout.isCounted with
  | true => exact checkedNbytes_of_counted counted
  | false =>
      have inhabited := (measured_or_counted measured).resolve_left (by simp [counted])
      have many := lt_prod_of_uncounted inhabited counted
      have bytes : layout.shape.prod ≤ layout.shape.prod * layout.dtype.size :=
        Nat.le_mul_of_pos_right _ layout.dtype.size_pos
      rw [(count_of_uncounted counted).2]
      simp only [reduceCtorEq, false_iff]
      omega

/-- Counting on from the first index ends after as many indices as the layout has elements. -/
theorem take_length (few : layout.shape.prod ≤ Size.max) {count : Nat} (enough : layout.size ≤ count) :
    (Index.take count layout.shape).length = layout.size := by
  rw [measured.size, Nat.min_eq_left few] at enough ⊢
  rw [Index.take_eq, List.length_take, Index.all_length, Nat.min_eq_right enough]

end Measured

theorem measured_iff_size : layout.Measured ↔ (0 ∈ layout.shape → layout.size = 0) := by
  constructor
  · intro measured empty
    rw [measured.size, List.prod_eq_zero empty, Nat.zero_min]
  · intro none
    by_contra crowded
    obtain ⟨empty, uncounted⟩ := count_of_not_measured crowded
    have most := (count_of_uncounted uncounted).1
    rw [none empty] at most
    exact absurd most (by decide)

/-- Layouts of one type over the same axes count alike, unless one of them gives up where the other does
not. -/
theorem count_perm (same : other.shape.Perm layout.shape) (dtype : other.dtype = layout.dtype) :
    (other.size = layout.size ∧ other.checkedNbytes = layout.checkedNbytes) ↔
      (other.Measured ↔ layout.Measured) := by
  constructor
  · intro ⟨sizes, _⟩
    rw [measured_iff_size, measured_iff_size, same.mem_iff, sizes]
  · intro agree
    by_cases measured : layout.Measured
    · have otherMeasured := agree.mpr measured
      constructor
      · rw [measured.size, otherMeasured.size, same.prod_eq]
      · ext n
        rw [measured.checkedNbytes, otherMeasured.checkedNbytes, same.prod_eq, dtype]
    · obtain ⟨most, none⟩ := count_of_uncounted (count_of_not_measured measured).2
      obtain ⟨otherMost, otherNone⟩ := count_of_uncounted (count_of_not_measured (mt agree.mp measured)).2
      exact ⟨otherMost.trans most.symm, otherNone.trans none.symm⟩

/-- The number of elements is exact, and the largest size where there are more of them; the number of bytes is
exact or there is none; and stepping from index to index ends after as many.  The one exception are layouts
without elements of which the axes before an empty one have too many together: they count as the largest
number.  So the order of the axes matters just where it makes this difference. -/
theorem count_exact (layout : Layout) :
    (layout.Measured →
      layout.size = min layout.shape.prod Size.max ∧
      (∀ n, layout.checkedNbytes = some n ↔ layout.shape.prod * layout.dtype.size = n ∧ n ≤ Size.max) ∧
      (layout.shape.prod ≤ Size.max →
        ∀ count, layout.size ≤ count → (Index.take count layout.shape).length = layout.size)) ∧
    (¬ layout.Measured →
      Index.all layout.shape = [] ∧ layout.size = Size.max ∧ layout.checkedNbytes = none) ∧
    ∀ other : Layout, other.shape.Perm layout.shape → other.dtype = layout.dtype →
      ((other.size = layout.size ∧ other.checkedNbytes = layout.checkedNbytes) ↔
        (other.Measured ↔ layout.Measured)) := by
  refine ⟨fun measured => ⟨measured.size, fun n => measured.checkedNbytes, fun few count enough => ?_⟩,
    fun crowded => ?_, fun other same dtype => count_perm same dtype⟩
  · exact measured.take_length few enough
  · obtain ⟨empty, uncounted⟩ := count_of_not_measured crowded
    exact ⟨by simp [Index.all, empty], count_of_uncounted uncounted⟩

/-- No elements behind more rows than any size says; turned round they are none. -/
theorem count_exact_turned :
    ¬ (cContiguous [2 ^ 63, 2, 0] (.int .u8)).Measured ∧
      (cContiguous [2 ^ 63, 2, 0] (.int .u8)).size = Size.max ∧
      (cContiguous [2 ^ 63, 2, 0] (.int .u8)).transpose.Measured ∧
      (cContiguous [2 ^ 63, 2, 0] (.int .u8)).transpose.size = 0 ∧
      (cContiguous [2 ^ 63, 2, 0] (.int .u8)).transpose.checkedNbytes = some 0 := by
  have crowded : ¬ (cContiguous [2 ^ 63, 2, 0] (.int .u8)).Measured := by
    intro measured
    exact absurd (measured (by decide) 2) (by decide)
  have none : (cContiguous [2 ^ 63, 2, 0] (.int .u8)).transpose.size = 0 := by decide
  have measured : (cContiguous [2 ^ 63, 2, 0] (.int .u8)).transpose.Measured :=
    measured_iff_size.mpr fun _ => none
  have most := (count_exact (cContiguous [2 ^ 63, 2, 0] (.int .u8))).2.1 crowded
  have bytes := ((count_exact (cContiguous [2 ^ 63, 2, 0] (.int .u8)).transpose).1 measured).2.1 0
  exact ⟨crowded, most.2.1, measured, none, bytes.mpr ⟨by decide, by decide⟩⟩

end Marshal.Layout
