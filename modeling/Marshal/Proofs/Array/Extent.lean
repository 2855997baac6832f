import Mathlib
import Marshal.Array.Index
import Marshal.Proofs.Size

namespace Marshal

/-- One entry per axis, each below the length of its axis. -/
abbrev Index.Within (index shape : List Nat) : Prop := List.Forall₂ (· < ·) index shape

def Index.last (shape : List Nat) : List Nat := shape.map (· - 1)

theorem Index.last_within {shape : List Nat} (inhabited : 0 ∉ shape) :
    Index.Within (Index.last shape) shape := by
  induction shape with
  | nil => exact .nil
  | cons dim shape ih =>
      simp only [List.mem_cons, not_or] at inhabited
      exact .cons (Nat.sub_one_lt (Ne.symm inhabited.1)) (ih inhabited.2)

theorem Index.Within.le_last {index shape : List Nat} (within : Index.Within index shape) :
    List.Forall₂ (· ≤ ·) index (Index.last shape) := by
  induction within with
  | nil => exact .nil
  | cons below _ ih => exact .cons (Nat.le_sub_one_of_lt below) ih

theorem Index.Within.inhabited {index shape : List Nat} (within : Index.Within index shape) :
    0 ∉ shape := by
  induction within with
  | nil => simp
  | cons below _ ih =>
      simp only [List.mem_cons, not_or]
      exact ⟨by omega, ih⟩

theorem Index.mem_product {index shape : List Nat} :
    index ∈ Index.product shape ↔ Index.Within index shape := by
  induction shape generalizing index with
  | nil => simp [Index.product]
  | cons dim shape ih =>
      simp only [Index.product, List.mem_flatMap, List.mem_range, List.mem_map, ih]
      constructor
      · rintro ⟨i, below, rest, within, rfl⟩
        exact .cons below within
      · intro within
        cases within with
        | cons below within => exact ⟨_, below, _, within, rfl⟩

theorem Index.within_of_mem_all {index shape : List Nat} (member : index ∈ Index.all shape) :
    Index.Within index shape := by
  simp only [Index.all] at member
  split at member
  · simp at member
  · exact Index.mem_product.mp member

namespace Layout

theorem inBounds_iff {index shape : List Nat} :
    inBounds index shape = true ↔ Index.Within index shape := by
  rw [Index.Within, List.forall₂_iff_zip]
  simp [inBounds]

variable {layout : Layout} {index : List Nat} {length : Nat}

theorem address_mono {other : List Nat} (below : List.Forall₂ (· ≤ ·) index other) :
    layout.address index ≤ layout.address other := by
  apply Nat.add_le_add_left
  simp only [steps]
  generalize layout.strides = strides
  induction below generalizing strides with
  | nil => simp
  | cons le _ ih =>
      cases strides with
      | nil => simp
      | cons stride strides =>
          simp only [List.zipWith_cons_cons, List.sum_cons]
          exact Nat.add_le_add (Nat.mul_le_mul_right _ le) (ih strides)

theorem address_le_last (within : Index.Within index layout.shape) :
    layout.address index ≤ layout.address (Index.last layout.shape) :=
  address_mono within.le_last

/-- The extent of a layout with elements is where its last element ends. -/
theorem byteExtent_eq_ok (inhabited : 0 ∉ layout.shape) {extent : Nat} :
    layout.byteExtent = .ok extent ↔
      layout.address (Index.last layout.shape) + layout.dtype.size = extent ∧ extent ≤ Size.max := by
  have notEmpty : layout.shape.contains 0 = false := by simpa using inhabited
  simp only [byteExtent]
  simp only [notEmpty, Bool.false_eq_true, ↓reduceIte, Size.checkedSum_bind, address, Index.last]
  split
  · rename_i found computed
    obtain ⟨rfl, fits⟩ := Size.checked_eq_some.mp computed
    simp only [Except.ok.injEq]
    constructor
    · rintro rfl
      exact ⟨rfl, fits⟩
    · exact fun same => same.1
  · rename_i overflow
    have overflow := Size.checked_eq_none.mp overflow
    simp only [reduceCtorEq, false_iff]
    omega

theorem byteExtent_of_empty (empty : 0 ∈ layout.shape) :
    layout.byteExtent = .ok layout.offset := by
  simp [byteExtent, empty]

theorem validate_eq_ok :
    layout.validate length = .ok () ↔
      layout.shape.length = layout.strides.length ∧ (∀ stride ∈ layout.strides, 0 ≤ stride) ∧
        ∃ extent, layout.byteExtent = .ok extent ∧ extent ≤ length := by
  simp only [validate]
  by_cases lengths : layout.shape.length = layout.strides.length
  · cases negative : layout.strides.find? (· < 0) with
    | some stride =>
        have below := List.find?_some negative
        have member := List.mem_of_find?_eq_some negative
        simp only [decide_eq_true_eq] at below
        simp only [lengths, ne_eq, not_true_eq_false, ↓reduceIte]
        constructor
        · intro accepted
          cases accepted
        · rintro ⟨_, nonnegative, _⟩
          exact absurd (nonnegative stride member) (by omega)
    | none =>
        have nonnegative : ∀ stride ∈ layout.strides, 0 ≤ stride := by
          simpa using List.find?_eq_none.mp negative
        cases computed : layout.byteExtent with
        | error reason =>
            simp only [lengths, ne_eq, not_true_eq_false, ↓reduceIte]
            constructor
            · intro accepted
              cases accepted
            · rintro ⟨_, _, extent, impossible, _⟩
              cases impossible
        | ok extent =>
            simp only [lengths, ne_eq, not_true_eq_false, ↓reduceIte]
            by_cases fits : extent ≤ length
            · simpa [bind, Except.bind, pure, Except.pure, Nat.not_lt.mpr fits, fits] using
                nonnegative
            · simp [bind, Except.bind, throw, throwThe, MonadExceptOf.throw,
                Nat.lt_of_not_le fits, fits]
  · simp only [lengths, ne_eq, not_false_eq_true, ↓reduceIte, false_and, iff_false]
    intro accepted
    cases accepted

/-- Every element of the layout lies inside a buffer of `length` bytes. -/
structure Fits (layout : Layout) (length : Nat) : Prop where
  lengths : layout.shape.length = layout.strides.length
  nonnegative : ∀ stride ∈ layout.strides, 0 ≤ stride
  inside : ∀ index, Index.Within index layout.shape →
    layout.address index + layout.dtype.size ≤ length

theorem fits_iff_last (inhabited : 0 ∉ layout.shape) :
    layout.Fits length ↔
      layout.shape.length = layout.strides.length ∧ (∀ stride ∈ layout.strides, 0 ≤ stride) ∧
        layout.address (Index.last layout.shape) + layout.dtype.size ≤ length := by
  constructor
  · intro fits
    exact ⟨fits.lengths, fits.nonnegative, fits.inside _ (Index.last_within inhabited)⟩
  · rintro ⟨lengths, nonnegative, last⟩
    refine ⟨lengths, nonnegative, fun index within => ?_⟩
    exact Nat.le_trans (Nat.add_le_add_right (address_le_last within) _) last

theorem validate_iff_fits (inhabited : 0 ∉ layout.shape) (bounded : length ≤ Size.max) :
    layout.validate length = .ok () ↔ layout.Fits length := by
  rw [validate_eq_ok, fits_iff_last inhabited]
  refine and_congr_right fun _ => and_congr_right fun _ => ?_
  simp only [byteExtent_eq_ok inhabited]
  constructor
  · rintro ⟨_, ⟨rfl, _⟩, inside⟩
    exact inside
  · exact fun inside => ⟨_, ⟨rfl, Nat.le_trans inside bounded⟩, inside⟩

/-- A layout without elements only has to start inside the buffer or at its end. -/
theorem validate_iff_offset (empty : 0 ∈ layout.shape) :
    layout.validate length = .ok () ↔
      layout.shape.length = layout.strides.length ∧ (∀ stride ∈ layout.strides, 0 ≤ stride) ∧
        layout.offset ≤ length := by
  rw [validate_eq_ok, byteExtent_of_empty empty]
  simp

theorem Fits.elementOffset (fits : layout.Fits length) (bounded : length ≤ Size.max)
    (within : Index.Within index layout.shape) :
    layout.elementOffset index = .ok (layout.address index) := by
  have inside := fits.inside index within
  simp only [Layout.elementOffset, Size.address]
  rw [if_pos (by omega)]

theorem Fits.byteOffset (fits : layout.Fits length) (bounded : length ≤ Size.max)
    (within : Index.Within index layout.shape) :
    layout.byteOffset index = .ok (some (layout.address index)) := by
  simp only [Layout.byteOffset, inBounds_iff.mpr within, ↓reduceIte,
    fits.elementOffset bounded within]
  rfl

theorem byteOffset_of_outside (outside : ¬ Index.Within index layout.shape) :
    layout.byteOffset index = .ok none := by
  have refused : inBounds index layout.shape = false := by
    simpa [← inBounds_iff] using outside
  simp [Layout.byteOffset, refused]

theorem steps_take_sum_le (count : Nat) :
    ((layout.steps index).take count).sum ≤ layout.address index :=
  Nat.le_trans (List.Sublist.sum_le_sum (List.take_sublist _ _) (by simp)) (Nat.le_add_left _ _)

theorem step_le {step : Nat} (member : step ∈ layout.steps index) :
    step ≤ layout.address index :=
  Nat.le_trans (List.le_sum_of_mem member) (Nat.le_add_left _ _)

/-- Validation is exact.  A layout with elements is accepted just when its strides fit its shape,
none is negative and every element lies inside the buffer; then the offset of an index is its
address, and nothing on the way to it is too large for a size.  A layout without elements is accepted
just when it starts inside the buffer or at its end. -/
theorem validate_exact (layout : Layout) (length : Nat) (bounded : length ≤ Size.max) :
    (0 ∉ layout.shape →
      (layout.validate length = .ok () ↔
        layout.shape.length = layout.strides.length ∧ (∀ stride ∈ layout.strides, 0 ≤ stride) ∧
          ∀ index, Index.Within index layout.shape →
            layout.address index + layout.dtype.size ≤ length) ∧
      (layout.validate length = .ok () → ∀ index,
        (Index.Within index layout.shape →
          layout.byteOffset index = .ok (some (layout.address index)) ∧
          layout.address index ≤ Size.max ∧
          (∀ step ∈ layout.steps index, step ≤ Size.max) ∧
          ∀ count, ((layout.steps index).take count).sum ≤ Size.max) ∧
        (¬ Index.Within index layout.shape → layout.byteOffset index = .ok none))) ∧
    (0 ∈ layout.shape →
      (layout.validate length = .ok () ↔
        layout.shape.length = layout.strides.length ∧ (∀ stride ∈ layout.strides, 0 ≤ stride) ∧
          layout.offset ≤ length)) := by
  refine ⟨fun inhabited => ⟨?_, fun accepted index => ⟨fun within => ?_, ?_⟩⟩, validate_iff_offset⟩
  · rw [validate_iff_fits inhabited bounded]
    exact ⟨fun fits => ⟨fits.lengths, fits.nonnegative, fits.inside⟩,
      fun ⟨lengths, nonnegative, inside⟩ => ⟨lengths, nonnegative, inside⟩⟩
  · have fits := (validate_iff_fits inhabited bounded).mp accepted
    have small : layout.address index ≤ Size.max := by
      have inside := fits.inside index within
      omega
    exact ⟨fits.byteOffset bounded within, small,
      fun step member => Nat.le_trans (step_le member) small,
      fun count => Nat.le_trans (steps_take_sum_le count) small⟩
  · exact byteOffset_of_outside

/-- Two padded rows of three numbers. -/
def paddedRows : Layout :=
  { shape := [2, 3], strides := [16, 4], dtype := .number (.int .i32), order := .neither, offset := 4 }

theorem validate_exact_paddedRows :
    32 ≤ Size.max ∧ paddedRows.validate 32 = .ok () ∧
      paddedRows.byteOffset [1, 2] = .ok (some 28) ∧ paddedRows.byteOffset [1, 3] = .ok none := by
  have small : 32 ≤ Size.max := by decide
  have accepted : paddedRows.validate 32 = .ok () := by decide
  have exact := ((validate_exact paddedRows 32 small).1 (by decide)).2 accepted
  exact ⟨small, accepted, ((exact [1, 2]).1 (by decide)).1, (exact [1, 3]).2 (by decide)⟩

end Layout

end Marshal
