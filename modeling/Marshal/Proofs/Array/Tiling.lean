import Mathlib
import Marshal.Proofs.Array.Replace
import Marshal.Proofs.Array.Settled

/-!
# Tilings

The elements of a contiguous array lie on a grid of cells, each as large as an element.  Parts,
transposes and reshapes only choose among these cells, and never choose one twice.  So two elements of
arrays over one grid are either in the same cell or share no byte.
-/

namespace Marshal

namespace Index

/-- The number of an index among those of a shape, when the first axis varies fastest. -/
def rank : List Nat → List Nat → Nat
  | dim :: shape, i :: index => i + dim * rank shape index
  | _, _ => 0

theorem Within.eq_of_rank {i j shape : List Nat} (withinI : Within i shape) (withinJ : Within j shape)
    (same : rank shape i = rank shape j) : i = j := by
  induction withinI generalizing j with
  | nil =>
      cases withinJ
      rfl
  | @cons _ dim _ _ belowI _ ih =>
      cases withinJ with
      | cons belowJ withinJ =>
          simp only [rank] at same
          -- the first entry is what is left over, and the number of the others the quotient
          have first := congrArg (· % dim) same
          have others := congrArg (· / dim) same
          have positive : 0 < dim := by omega
          simp only [Nat.add_mul_mod_self_left, Nat.mod_eq_of_lt belowI, Nat.mod_eq_of_lt belowJ] at first
          simp only [Nat.add_mul_div_left _ _ positive, Nat.div_eq_of_lt belowI, Nat.div_eq_of_lt belowJ,
            Nat.zero_add] at others
          rw [first, ih withinJ others]

/-- The number of an index in the order of memory. -/
def number (order : ArrayOrder) (shape index : List Nat) : Nat :=
  rank (order.fastestFirst shape) (order.fastestFirst index)

theorem within_fastestFirst {order : ArrayOrder} {shape index : List Nat} :
    Within (order.fastestFirst index) (order.fastestFirst shape) ↔ Within index shape := by
  cases order with
  | c => exact List.forall₂_reverse_iff
  | fortran => exact Iff.rfl
  | neither => exact List.forall₂_reverse_iff

theorem Within.eq_of_number {order : ArrayOrder} {i j shape : List Nat} (withinI : Within i shape)
    (withinJ : Within j shape) (same : number order shape i = number order shape j) : i = j := by
  have turned := (within_fastestFirst.mpr withinI).eq_of_rank (within_fastestFirst.mpr withinJ) same
  simpa using congrArg order.fastestFirst turned

theorem start_within {shape : List Nat} (inhabited : 0 ∉ shape) :
    Within (List.replicate shape.length 0) shape := by
  induction shape with
  | nil => exact .nil
  | cons dim shape ih =>
      simp only [List.mem_cons, not_or] at inhabited
      exact .cons (Nat.pos_of_ne_zero (Ne.symm inhabited.1)) (ih inhabited.2)

theorem add_left_cancel {start i j : List Nat} (lengthI : start.length = i.length)
    (lengthJ : start.length = j.length) (same : start.zipWith (· + ·) i = start.zipWith (· + ·) j) :
    i = j := by
  induction start generalizing i j with
  | nil =>
      rw [List.eq_nil_of_length_eq_zero lengthI.symm, List.eq_nil_of_length_eq_zero lengthJ.symm]
  | cons first start ih =>
      obtain ⟨x, i, rfl⟩ := List.exists_cons_of_length_eq_add_one lengthI.symm
      obtain ⟨y, j, rfl⟩ := List.exists_cons_of_length_eq_add_one lengthJ.symm
      simp only [List.zipWith_cons_cons, List.cons.injEq] at same
      have rest := ih (by simpa using lengthI) (by simpa using lengthJ) same.2
      rw [rest, Nat.add_left_cancel same.1]

end Index

namespace Layout

variable {layout other : Layout} {i j start stop shape : List Nat} {length : Nat}

theorem Gapless.sum_rank {step : Nat} {index : List Nat} {strides : List Int}
    (gapless : Gapless step (shape.zip strides)) (lengths : shape.length = strides.length)
    (within : Index.Within index shape) :
    (index.zipWith (fun i (stride : Int) => i * stride.natAbs) strides).sum =
      step * Index.rank shape index := by
  induction within generalizing step strides with
  | nil => simp [Index.rank]
  | @cons first dim index shape below _ ih =>
      cases strides with
      | nil => simp at lengths
      | cons stride strides =>
          obtain ⟨fits, slower⟩ := gapless
          have rest := ih slower (by simpa using lengths)
          have here : first * stride.natAbs = step * first := by
            rcases fits with single | rfl
            · have zero : first = 0 := by omega
              simp [zero]
            · rw [Int.natAbs_natCast, Nat.mul_comm]
          rw [List.zipWith_cons_cons, List.sum_cons, rest, here, Index.rank, Nat.mul_add, Nat.mul_assoc]

theorem address_start (count : Nat) : layout.address (List.replicate count 0) = layout.offset := by
  simp only [address, steps]
  generalize layout.strides = strides
  induction count generalizing strides with
  | zero => simp
  | succ count ih =>
      cases strides with
      | nil => simp
      | cons stride strides => simpa [List.replicate_succ] using ih strides

/-- Elements start at multiples of their size, and distinct ones at distinct places. -/
structure Tiled (layout : Layout) : Prop where
  aligned : ∀ index, Index.Within index layout.shape → layout.dtype.size ∣ layout.address index
  distinct : ∀ i j, Index.Within i layout.shape → Index.Within j layout.shape →
    layout.address i = layout.address j → i = j

namespace Tiled

theorem transpose (tiled : layout.Tiled) (lengths : layout.shape.length = layout.strides.length) :
    layout.transpose.Tiled := by
  have reversed : ∀ index, Index.Within index layout.transpose.shape →
      Index.Within index.reverse layout.shape ∧
        layout.transpose.address index = layout.address index.reverse := by
    intro index within
    have same : Index.Within index.reverse layout.shape := by
      simpa [Layout.transpose] using List.forall₂_reverse_iff.mpr within
    have address := address_transpose (same.length_eq.trans lengths)
    rw [List.reverse_reverse] at address
    exact ⟨same, address⟩
  constructor
  · intro index within
    obtain ⟨same, address⟩ := reversed index within
    rw [address]
    exact tiled.aligned _ same
  · intro i j withinI withinJ equal
    obtain ⟨sameI, addressI⟩ := reversed i withinI
    obtain ⟨sameJ, addressJ⟩ := reversed j withinJ
    rw [addressI, addressJ] at equal
    exact List.reverse_injective (tiled.distinct _ _ sameI sameJ equal)

theorem part (tiled : layout.Tiled) (selects : layout.Selects start stop) :
    (layout.part start stop).Tiled := by
  constructor
  · intro index within
    obtain ⟨lengths, inside⟩ := selects.within_add within
    rw [part_address lengths]
    exact tiled.aligned _ inside
  · intro i j withinI withinJ equal
    obtain ⟨lengthI, insideI⟩ := selects.within_add withinI
    obtain ⟨lengthJ, insideJ⟩ := selects.within_add withinJ
    rw [part_address lengthI, part_address lengthJ] at equal
    exact Index.add_left_cancel lengthI lengthJ (tiled.distinct _ _ insideI insideJ equal)

theorem offset (tiled : layout.Tiled) (inhabited : 0 ∉ layout.shape) :
    layout.dtype.size ∣ layout.offset := by
  have first := tiled.aligned _ (Index.start_within inhabited)
  rwa [address_start] at first

end Tiled

/-- Without gaps an element lies as many elements behind the first as its number in the order of memory
says. -/
theorem Packed.address_number (packed : layout.Packed) (contiguous : layout.order ≠ .neither)
    (lengths : layout.shape.length = layout.strides.length) (within : Index.Within i layout.shape) :
    layout.address i = layout.offset + layout.dtype.size * Index.number layout.order layout.shape i := by
  have turned : Index.Within (layout.order.fastestFirst i) (layout.order.fastestFirst layout.shape) :=
    Index.within_fastestFirst.mpr within
  rw [address_fastestFirst layout.order (within.length_eq.trans lengths),
    (packed.gapless contiguous lengths).sum_rank (by simpa using lengths) turned]
  rfl

/-- Without gaps the elements fill the grid from the start of the layout on. -/
theorem Packed.tiled (packed : layout.Packed) (contiguous : layout.order ≠ .neither)
    (lengths : layout.shape.length = layout.strides.length) (aligned : layout.dtype.size ∣ layout.offset) :
    layout.Tiled := by
  constructor
  · intro index within
    rw [packed.address_number contiguous lengths within]
    exact Nat.dvd_add aligned (Nat.dvd_mul_right _ _)
  · intro i j withinI withinJ equal
    rw [packed.address_number contiguous lengths withinI,
      packed.address_number contiguous lengths withinJ] at equal
    have numbers := Nat.eq_of_mul_eq_mul_left layout.dtype.size_pos (Nat.add_left_cancel equal)
    exact withinI.eq_of_number withinJ numbers

/-- A reshape has the cells of what it was made from. -/
theorem Tiled.reshape (tiled : layout.Tiled) (inhabited : 0 ∉ layout.shape)
    (settled : layout.Settled length) (bounded : length ≤ Size.signedMax)
    (reshaped : layout.reshape shape = .ok other) (populated : 0 ∉ other.shape) :
    other.Settled length ∧ other.Tiled := by
  obtain ⟨contiguous, _, sameOffset, sameType, order, _⟩ := reshape_eq_ok reshaped
  have counted := settled.isCounted order inhabited (Nat.le_trans bounded Size.signedMax_le_max)
  have still := settled.reshape reshaped counted bounded
  refine ⟨still, (still.packed populated).tiled contiguous.order_ne contiguous.lengths ?_⟩
  rw [sameOffset, sameType]
  exact tiled.offset inhabited

/-- Elements of two layouts over one grid are the same bytes or have none in common. -/
theorem Tiled.same_or_apart (tiled : layout.Tiled) (otherTiled : other.Tiled)
    (sameType : other.dtype = layout.dtype) (withinI : Index.Within i layout.shape)
    (withinJ : Index.Within j other.shape) :
    layout.address i = other.address j ∨
      layout.address i + layout.dtype.size ≤ other.address j ∨
      other.address j + layout.dtype.size ≤ layout.address i := by
  have first := tiled.aligned i withinI
  have second := otherTiled.aligned j withinJ
  rw [sameType] at second
  rcases Nat.lt_trichotomy (layout.address i) (other.address j) with less | equal | greater
  · have gap := Nat.le_of_dvd (by omega) (Nat.dvd_sub second first)
    exact .inr (.inl (by omega))
  · exact .inl equal
  · have gap := Nat.le_of_dvd (by omega) (Nat.dvd_sub first second)
    exact .inr (.inr (by omega))

theorem Tiled.apart (tiled : layout.Tiled) (withinI : Index.Within i layout.shape)
    (withinJ : Index.Within j layout.shape) (ne : i ≠ j) : layout.Apart layout.dtype.size i j := by
  rcases tiled.same_or_apart tiled rfl withinI withinJ with equal | apart
  · exact absurd (tiled.distinct i j withinI withinJ equal) ne
  · exact apart

theorem Tiled.hasOverlap (tiled : layout.Tiled) (inhabited : 0 ∉ layout.shape) :
    layout.hasOverlap = false :=
  hasOverlap_of_apart layout.dtype.size_pos inhabited fun _ _ withinI withinJ => tiled.apart withinI withinJ

end Layout

end Marshal
