import Mathlib
import Marshal.Proofs.Array.Slice

namespace Marshal.Layout

variable {layout part result : Layout} {start stop innerStart innerStop index : List Nat} {length : Nat}

/-- An index is in bounds of a transpose when it is turned round, and leads to the same place. -/
theorem byteOffset_transpose (lengths : layout.shape.length = layout.strides.length) (index : List Nat) :
    layout.transpose.byteOffset index.reverse = layout.byteOffset index := by
  have turned : Index.Within index.reverse layout.transpose.shape ↔ Index.Within index layout.shape :=
    List.forall₂_reverse_iff
  by_cases within : Index.Within index layout.shape
  · have place := address_transpose (within.length_eq.trans lengths)
    simp only [byteOffset, inBounds_iff.mpr within, inBounds_iff.mpr (turned.mpr within), ↓reduceIte,
      elementOffset, place]
  · rw [byteOffset_of_outside within, byteOffset_of_outside (mt turned.mp within)]

theorem selects_of_less (ordered : List.Forall₂ (· < ·) start stop)
    (within : List.Forall₂ (· ≤ ·) stop layout.shape) : layout.Selects start stop :=
  ⟨ordered.imp fun _ _ => Nat.le_of_lt, within⟩

theorem Selects.transpose (selects : layout.Selects start stop) :
    layout.transpose.Selects start.reverse stop.reverse :=
  ⟨List.forall₂_reverse_iff.mpr selects.ordered, List.forall₂_reverse_iff.mpr selects.within⟩

theorem address_of_slice (lengths : layout.shape.length = layout.strides.length)
    (small : layout.offset ≤ Size.max) (sliced : layout.slice start stop = .ok result) :
    layout.address start ≤ Size.max := by
  rw [slice_of_selects (slice_eq_ok lengths sliced).1 lengths small] at sliced
  by_contra large
  rw [if_neg large] at sliced
  cases sliced

section Nested

variable (outer : layout.Selects start stop) (inner : (layout.part start stop).Selects innerStart innerStop)

include outer inner

theorem Selects.inner_lengths : start.length = innerStart.length ∧ start.length = innerStop.length := by
  have ordered := inner.ordered.length_eq
  have within := inner.within.length_eq
  have same := outer.ordered.length_eq
  simp only [part, List.length_zipWith] at within
  omega

/-- Bounds within bounds, counted from where the outer ones start. -/
theorem Selects.add :
    layout.Selects (start.zipWith (· + ·) innerStart) (start.zipWith (· + ·) innerStop) := by
  obtain ⟨startLength, stopLength⟩ := outer.inner_lengths inner
  have ordered := outer.ordered
  have within := outer.within
  have innerOrdered := inner.ordered
  have innerWithin := inner.within
  simp only [part] at innerWithin
  clear outer inner
  constructor
  · clear ordered within innerWithin
    induction innerOrdered generalizing start with
    | nil => simp
    | cons le _ ih =>
        cases start with
        | nil => simp
        | cons first start =>
            exact .cons (Nat.add_le_add_left le _)
              (ih (by simpa using startLength) (by simpa using stopLength))
  · clear innerOrdered startLength
    generalize layout.shape = shape at within
    induction ordered generalizing innerStop shape with
    | nil =>
        cases within
        simp
    | cons le _ ih =>
        cases within with
        | cons below within =>
            cases innerWithin with
            | cons less innerWithin =>
                have inside := Nat.le_trans (Nat.add_le_of_le_sub' le less) below
                exact .cons inside (ih (by simpa using stopLength) innerWithin _ within)

theorem part_part :
    (layout.part start stop).part innerStart innerStop =
      layout.part (start.zipWith (· + ·) innerStart) (start.zipWith (· + ·) innerStop) := by
  obtain ⟨startLength, stopLength⟩ := outer.inner_lengths inner
  have shape : (start.zipWith (· + ·) innerStop).zipWith (· - ·) (start.zipWith (· + ·) innerStart) =
      innerStop.zipWith (· - ·) innerStart := by
    apply List.ext_getElem
    · simp only [List.length_zipWith]
      omega
    · intro axis _ _
      simp only [List.getElem_zipWith]
      omega
  have offset : (layout.part start stop).address innerStart =
    layout.address (start.zipWith (· + ·) innerStart) :=
    part_address startLength
  simp only [part] at offset ⊢
  rw [shape, offset]

end Nested

/-- A slice of a slice is a slice, whether it has elements or not. -/
theorem slice_slice (lengths : layout.shape.length = layout.strides.length) (small : layout.offset ≤ Size.max)
    (first : layout.slice start stop = .ok part) (second : part.slice innerStart innerStop = .ok result) :
    layout.slice (start.zipWith (· + ·) innerStart) (start.zipWith (· + ·) innerStop) = .ok result := by
  have reached := address_of_slice lengths small first
  obtain ⟨outer, rfl⟩ := slice_eq_ok lengths first
  have partLengths := outer.part_lengths lengths
  have innerReached := address_of_slice partLengths reached second
  obtain ⟨inner, rfl⟩ := slice_eq_ok partLengths second
  have place : (layout.part start stop).address innerStart =
    layout.address (start.zipWith (· + ·) innerStart) :=
    part_address (outer.inner_lengths inner).1
  rw [slice_of_selects (outer.add inner) lengths small, ← place, if_pos innerReached, part_part outer inner]

section Kept

variable (bounded : length ≤ Size.max) (accepted : layout.validate length = .ok ())
  (ordered : List.Forall₂ (· < ·) start stop) (within : List.Forall₂ (· ≤ ·) stop layout.shape)

include bounded accepted ordered within

/-- A slice that keeps an element along every axis succeeds. -/
theorem slice_of_less : layout.slice start stop = .ok (layout.part start stop) := by
  have reached := address_start_le bounded accepted ordered within
  have offset : layout.offset ≤ layout.address start := Nat.le_add_right _ _
  rw [slice_of_selects (selects_of_less ordered within) (validate_eq_ok.mp accepted).1 (by omega),
    if_pos (by omega)]

theorem byteOffset_part (inside : Index.Within index (stop.zipWith (· - ·) start)) :
    ∃ offset, (layout.part start stop).byteOffset index = .ok (some offset) ∧
      layout.byteOffset (start.zipWith (· + ·) index) = .ok (some offset) := by
  have selects := selects_of_less ordered within
  obtain ⟨lengths, moved⟩ := selects.within_add inside
  have fits := (validate_iff_fits moved.inhabited bounded).mp accepted
  have found := (fits.part selects).byteOffset bounded inside
  rw [part_address lengths] at found
  exact ⟨_, found, fits.byteOffset bounded moved⟩

/-- Turned round, the slice of a transpose is the transpose of the slice, its order apart. -/
theorem slice_transpose :
    ∃ turned, layout.transpose.slice start.reverse stop.reverse = .ok turned ∧
      turned = { (layout.part start stop).transpose with order := turned.order } := by
  have lengths := (validate_eq_ok.mp accepted).1
  have selects := selects_of_less ordered within
  have reached := address_start_le bounded accepted ordered within
  have offset : layout.offset ≤ layout.address start := Nat.le_add_right _ _
  have turnedLengths : layout.transpose.shape.length = layout.transpose.strides.length := by
    simpa [Layout.transpose] using lengths
  have place : layout.transpose.address start.reverse = layout.address start :=
    address_transpose (selects.start_length.trans lengths)
  refine ⟨layout.transpose.part start.reverse stop.reverse, ?_, ?_⟩
  · rw [slice_of_selects selects.transpose turnedLengths (by simp only [Layout.transpose]; omega),
      if_pos (by omega)]
  · have shape : stop.reverse.zipWith (· - ·) start.reverse = (stop.zipWith (· - ·) start).reverse :=
      (List.reverse_zipWith ordered.length_eq.symm).symm
    simp only [part, place, shape]
    rfl

end Kept

/-- Where elements lie in derived layouts.  Along axes that keep an element a slice succeeds, an index
in it is that index counted from its start, and every other index is out of bounds; the slice of the
transpose is the transpose of the slice, order apart.  A transpose has the elements under indices turned
round, and its transpose is the layout itself.  A slice of a slice is the slice at both starts together,
order included. -/
theorem derived_index_laws (layout : Layout) (length : Nat) (bounded : length ≤ Size.max)
    (accepted : layout.validate length = .ok ()) :
    (∀ start stop, List.Forall₂ (· < ·) start stop → List.Forall₂ (· ≤ ·) stop layout.shape →
      ∃ part turned, layout.slice start stop = .ok part ∧
        (∀ index, Index.Within index (stop.zipWith (· - ·) start) →
          ∃ offset, part.byteOffset index = .ok (some offset) ∧
            layout.byteOffset (start.zipWith (· + ·) index) = .ok (some offset)) ∧
        (∀ index, ¬ Index.Within index (stop.zipWith (· - ·) start) → part.byteOffset index = .ok none) ∧
        layout.transpose.slice start.reverse stop.reverse = .ok turned ∧
        turned.shape = part.transpose.shape ∧ turned.strides = part.transpose.strides ∧
        turned.dtype = part.transpose.dtype ∧ turned.offset = part.transpose.offset) ∧
    (∀ index, layout.transpose.byteOffset index.reverse = layout.byteOffset index) ∧
    layout.transpose.transpose = layout ∧
    ∀ start stop innerStart innerStop part result, layout.slice start stop = .ok part →
      part.slice innerStart innerStop = .ok result →
      layout.slice (start.zipWith (· + ·) innerStart) (start.zipWith (· + ·) innerStop) = .ok result := by
  obtain ⟨lengths, _, extent, computed, inside⟩ := validate_eq_ok.mp accepted
  refine ⟨?_, byteOffset_transpose lengths, transpose_transpose, ?_⟩
  · intro start stop ordered within
    obtain ⟨turned, sliced, same⟩ := slice_transpose bounded accepted ordered within
    refine ⟨_, turned, slice_of_less bounded accepted ordered within, ?_, ?_, sliced, ?_⟩
    · exact fun index inside => byteOffset_part bounded accepted ordered within inside
    · exact fun index outside => byteOffset_of_outside outside
    · rw [same]
      exact ⟨rfl, rfl, rfl, rfl⟩
  · intro start stop innerStart innerStop part result first second
    refine slice_slice lengths ?_ first second
    by_cases empty : 0 ∈ layout.shape
    · have start := ((validate_iff_offset empty).mp accepted).2.2
      omega
    · have extent := (byteExtent_eq_ok empty).mp computed
      have start : layout.offset ≤ layout.address (Index.last layout.shape) := Nat.le_add_right _ _
      omega

theorem derived_index_laws_paddedRows :
    32 ≤ Size.max ∧ paddedRows.validate 32 = .ok () ∧
      ∃ part turned, paddedRows.slice [0, 1] [2, 3] = .ok part ∧
        (∃ offset, part.byteOffset [1, 1] = .ok (some offset) ∧
          paddedRows.byteOffset [1, 2] = .ok (some offset)) ∧
        part.byteOffset [1, 2] = .ok none ∧
        paddedRows.transpose.slice [1, 0] [3, 2] = .ok turned ∧ turned.offset = part.transpose.offset ∧
        ∃ result, part.slice [1, 0] [2, 2] = .ok result ∧ paddedRows.slice [1, 1] [2, 3] = .ok result := by
  have small : 32 ≤ Size.max := by decide
  have accepted : paddedRows.validate 32 = .ok () := by decide
  obtain ⟨parts, _, _, slices⟩ := derived_index_laws paddedRows 32 small accepted
  obtain ⟨part, turned, sliced, inside, outside, turns, _, _, _, offset⟩ :=
    parts [0, 1] [2, 3] (by decide) (by decide)
  have nested : ∃ result, part.slice [1, 0] [2, 2] = .ok result := by
    cases sliced
    exact ⟨_, rfl⟩
  obtain ⟨result, nested⟩ := nested
  have joined := slices [0, 1] [2, 3] [1, 0] [2, 2] part result sliced nested
  exact ⟨small, accepted, part, turned, sliced, inside [1, 1] (by decide), outside [1, 2] (by decide), turns,
    offset, result, nested, joined⟩

end Marshal.Layout
