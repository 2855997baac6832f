import Mathlib
import Marshal.Proofs.Array.Packed

namespace Marshal.Layout

variable {layout : Layout} {start stop index : List Nat} {length : Nat}

/-- Bounds of a slice that lie on the axes and are not the wrong way round. -/
structure Selects (layout : Layout) (start stop : List Nat) : Prop where
  ordered : List.Forall₂ (· ≤ ·) start stop
  within : List.Forall₂ (· ≤ ·) stop layout.shape

namespace Cut

def Sound (cut : Cut) : Prop := cut.first ≤ cut.last ∧ cut.last ≤ cut.dim

def span (cut : Cut) : Nat := cut.first * cut.stride.natAbs

theorem Sound.move {cut : Cut} (sound : cut.Sound) (offset : Nat) :
    cut.move offset = Size.address (offset + cut.span) := by
  simp only [Cut.move]
  rw [if_neg (by unfold Sound at sound; omega)]
  rfl

theorem move_of_unsound {cut : Cut} (unsound : ¬ cut.Sound) (offset : Nat) :
    ∃ e, cut.move offset = .error (.refused e) := by
  simp only [Cut.move]
  rw [if_pos (by unfold Sound at unsound; omega)]
  exact ⟨_, rfl⟩

def moveAll (cuts : List Cut) (offset : Nat) : Except AddressFault Nat :=
  cuts.foldlM (fun offset cut => cut.move offset) offset

theorem moveAll_cons (cut : Cut) (rest : List Cut) (offset : Nat) :
    moveAll (cut :: rest) offset = (cut.move offset).bind (moveAll rest) := rfl

theorem moveAll_sound {cuts : List Cut} {offset : Nat} (sound : ∀ cut ∈ cuts, cut.Sound)
    (small : offset ≤ Size.max) :
    moveAll cuts offset = Size.address (offset + (cuts.map span).sum) := by
  induction cuts generalizing offset with
  | nil => simp [moveAll, Size.address, small, pure, Except.pure]
  | cons cut rest ih =>
      rw [moveAll_cons, (sound cut (by simp)).move, List.map_cons, List.sum_cons, ← Nat.add_assoc]
      simp only [Size.address]
      by_cases fits : offset + cut.span ≤ Size.max
      · rw [if_pos fits]
        exact ih (fun other member => sound other (by simp [member])) fits
      · rw [if_neg fits, if_neg (by omega)]
        rfl

theorem moveAll_eq_ok {cuts : List Cut} {offset found : Nat} (moved : moveAll cuts offset = .ok found) :
    (∀ cut ∈ cuts, cut.Sound) ∧ found = offset + (cuts.map span).sum := by
  induction cuts generalizing offset with
  | nil =>
      cases moved
      simp
  | cons cut rest ih =>
      rw [moveAll_cons] at moved
      by_cases sound : cut.Sound
      · rw [sound.move] at moved
        simp only [Size.address] at moved
        split at moved
        · obtain ⟨others, rfl⟩ := ih moved
          exact ⟨by simpa [sound] using others, by simp [Nat.add_assoc]⟩
        · cases moved
      · obtain ⟨e, refused⟩ := move_of_unsound sound offset
        rw [refused] at moved
        cases moved

/-- The cuts are refused when one of them is unsound and those before it do not lead too far. -/
theorem moveAll_refused {cuts : List Cut} {offset : Nat} (small : offset ≤ Size.max) :
    (∃ e, moveAll cuts offset = .error (.refused e)) ↔
      ∃ axis cut, cuts[axis]? = some cut ∧ ¬ cut.Sound ∧
        offset + ((cuts.take axis).map span).sum ≤ Size.max := by
  induction cuts generalizing offset with
  | nil => simp [moveAll, pure, Except.pure]
  | cons cut rest ih =>
      rw [moveAll_cons]
      by_cases sound : cut.Sound
      · rw [sound.move]
        simp only [Size.address]
        by_cases fits : offset + cut.span ≤ Size.max
        · rw [if_pos fits]
          refine (ih fits).trans ⟨?_, ?_⟩
          · rintro ⟨axis, other, found, unsound, reached⟩
            exact ⟨axis + 1, other, found, unsound, by
              simpa [List.take_succ_cons, Nat.add_assoc] using reached⟩
          · rintro ⟨_ | axis, other, found, unsound, reached⟩
            · cases found
              exact absurd sound unsound
            · exact ⟨axis, other, found, unsound, by
                simpa [List.take_succ_cons, Nat.add_assoc] using reached⟩
        · rw [if_neg fits]
          refine iff_of_false (by rintro ⟨e, impossible⟩; cases impossible) ?_
          rintro ⟨_ | axis, other, found, unsound, reached⟩
          · cases found
            exact unsound sound
          · simp only [List.take_succ_cons, List.map_cons, List.sum_cons] at reached
            omega
      · obtain ⟨e, refused⟩ := move_of_unsound sound offset
        rw [refused]
        exact iff_of_true ⟨e, rfl⟩ ⟨0, cut, rfl, sound, by simpa using small⟩

end Cut

section Cuts

variable (startLength : start.length = layout.ndim) (stopLength : stop.length = layout.ndim)
  (lengths : layout.shape.length = layout.strides.length)

include startLength stopLength lengths

theorem cuts_span : (layout.cuts start stop).map Cut.span = layout.steps start := by
  simp only [ndim] at startLength stopLength
  apply List.ext_getElem
  · simp [cuts, steps, axes]
    omega
  · intro axis _ _
    simp [cuts, steps, axes, Cut.span]

theorem cuts_shape :
    ((layout.cuts start stop).map fun cut => cut.last - cut.first) = stop.zipWith (· - ·) start := by
  simp only [ndim] at startLength stopLength
  apply List.ext_getElem
  · simp [cuts, axes]
    omega
  · intro axis _ _
    simp [cuts, axes]

theorem cuts_sound :
    (∀ cut ∈ layout.cuts start stop, cut.Sound) ↔ layout.Selects start stop := by
  simp only [ndim] at startLength stopLength
  rw [List.forall_mem_iff_getElem]
  constructor
  · intro sound
    constructor
    · refine List.forall₂_iff_get.mpr ⟨by omega, fun axis inside _ => ?_⟩
      have cut := sound axis (by simp [cuts, axes]; omega)
      simpa [cuts, axes] using cut.1
    · refine List.forall₂_iff_get.mpr ⟨by omega, fun axis inside _ => ?_⟩
      have cut := sound axis (by simp [cuts, axes]; omega)
      simpa [cuts, axes] using cut.2
  · intro selects axis inside
    simp only [cuts, axes, List.length_map, List.length_zip] at inside
    have ordered := (List.forall₂_iff_get.mp selects.ordered).2 axis (by omega) (by omega)
    have within := (List.forall₂_iff_get.mp selects.within).2 axis (by omega) (by omega)
    simpa [cuts, axes, Cut.Sound] using And.intro ordered within

end Cuts

theorem Selects.start_length (selects : layout.Selects start stop) : start.length = layout.ndim :=
  selects.ordered.length_eq.trans selects.within.length_eq

theorem Selects.stop_length (selects : layout.Selects start stop) : stop.length = layout.ndim :=
  selects.within.length_eq

/-- What a slice turns a layout into when its start is a size. -/
def part (layout : Layout) (start stop : List Nat) : Layout :=
  let shape := stop.zipWith (· - ·) start
  { layout with
    shape
    order := detectOrder shape layout.strides layout.dtype.size
    offset := layout.address start }

theorem Selects.part_lengths (selects : layout.Selects start stop)
    (lengths : layout.shape.length = layout.strides.length) :
    (layout.part start stop).shape.length = (layout.part start stop).strides.length := by
  have startLength := selects.start_length
  have stopLength := selects.stop_length
  simp only [part, List.length_zipWith, ndim] at startLength stopLength ⊢
  omega

theorem slice_eq (startLength : start.length = layout.ndim) (stopLength : stop.length = layout.ndim)
    (lengths : layout.shape.length = layout.strides.length) :
    layout.slice start stop = do
      let offset ← Cut.moveAll (layout.cuts start stop) layout.offset
      return { layout.part start stop with offset } := by
  unfold slice
  rw [if_neg (by omega)]
  simp only [cuts_shape startLength stopLength lengths]
  rfl

theorem slice_of_selects (selects : layout.Selects start stop)
    (lengths : layout.shape.length = layout.strides.length) (small : layout.offset ≤ Size.max) :
    layout.slice start stop =
      if layout.address start ≤ Size.max then .ok (layout.part start stop)
      else .error .overflow := by
  have startLength := selects.start_length
  have stopLength := selects.stop_length
  rw [slice_eq startLength stopLength lengths,
    Cut.moveAll_sound ((cuts_sound startLength stopLength lengths).mpr selects) small,
    cuts_span startLength stopLength lengths]
  unfold Size.address address
  split <;> rfl

theorem slice_eq_ok {result : Layout} (lengths : layout.shape.length = layout.strides.length)
    (computed : layout.slice start stop = .ok result) :
    layout.Selects start stop ∧ result = layout.part start stop := by
  by_cases right : start.length = layout.ndim ∧ stop.length = layout.ndim
  · obtain ⟨startLength, stopLength⟩ := right
    rw [slice_eq startLength stopLength lengths] at computed
    cases moved : Cut.moveAll (layout.cuts start stop) layout.offset with
    | error fault =>
        rw [moved] at computed
        cases computed
    | ok offset =>
        rw [moved] at computed
        cases computed
        obtain ⟨sound, rfl⟩ := Cut.moveAll_eq_ok moved
        refine ⟨(cuts_sound startLength stopLength lengths).mp sound, ?_⟩
        rw [cuts_span startLength stopLength lengths]
        rfl
  · simp only [slice] at computed
    rw [if_pos (by omega)] at computed
    cases computed

theorem address_take (axis : Nat) :
    layout.address (index.take axis) = layout.offset + ((layout.steps index).take axis).sum := by
  simp only [address, steps]
  congr 2
  apply List.ext_getElem
  · simp
  · intro entry _ _
    simp

theorem slice_refused (lengths : layout.shape.length = layout.strides.length)
    (small : layout.offset ≤ Size.max) :
    (∃ e, layout.slice start stop = .error (.refused e)) ↔
      start.length ≠ layout.ndim ∨ stop.length ≠ layout.ndim ∨
        ∃ axis cut, (layout.cuts start stop)[axis]? = some cut ∧ ¬ cut.Sound ∧
          layout.address (start.take axis) ≤ Size.max := by
  by_cases right : start.length = layout.ndim ∧ stop.length = layout.ndim
  · obtain ⟨startLength, stopLength⟩ := right
    rw [slice_eq startLength stopLength lengths]
    simp only [startLength, stopLength, ne_eq, not_true_eq_false, false_or, address_take,
      ← cuts_span startLength stopLength lengths, ← List.map_take]
    rw [← Cut.moveAll_refused small]
    cases Cut.moveAll (layout.cuts start stop) layout.offset with
    | error fault => exact ⟨fun ⟨e, same⟩ => ⟨e, by cases same; rfl⟩,
      fun ⟨e, same⟩ => ⟨e, by cases same; rfl⟩⟩
    | ok offset =>
        exact iff_of_false (by rintro ⟨e, impossible⟩; cases impossible)
          (by rintro ⟨e, impossible⟩; cases impossible)
  · simp only [slice]
    rw [if_pos (by omega)]
    exact iff_of_true ⟨_, rfl⟩ (by omega)

theorem part_address (lengths : start.length = index.length) :
    (layout.part start stop).address index = layout.address (start.zipWith (· + ·) index) := by
  simp only [address, steps, part, Nat.add_assoc]
  congr 1
  generalize layout.strides = strides
  induction start generalizing index strides with
  | nil =>
      cases index with
      | nil => simp
      | cons _ _ => simp at lengths
  | cons first start ih =>
      cases index with
      | nil => simp at lengths
      | cons entry index =>
          cases strides with
          | nil => simp
          | cons stride strides =>
              have rest := ih (by simpa using lengths) strides
              simp only [List.zipWith_cons_cons, List.sum_cons, Nat.add_mul]
              omega

theorem Selects.within_add (selects : layout.Selects start stop)
    (inside : Index.Within index (stop.zipWith (· - ·) start)) :
    start.length = index.length ∧ Index.Within (start.zipWith (· + ·) index) layout.shape := by
  obtain ⟨ordered, within⟩ := selects
  generalize layout.shape = shape at within
  induction ordered generalizing index shape with
  | nil =>
      cases inside
      cases within
      exact ⟨rfl, .nil⟩
  | cons le _ ih =>
      cases within with
      | cons below within =>
          cases inside with
          | cons less inside =>
              obtain ⟨same, rest⟩ := ih inside _ within
              have inside : _ + _ < _ := Nat.lt_of_lt_of_le (Nat.add_lt_of_lt_sub' less) below
              exact ⟨by simpa using same, .cons inside rest⟩

theorem Fits.part (fits : layout.Fits length) (selects : layout.Selects start stop) :
    (layout.part start stop).Fits length where
  lengths := selects.part_lengths fits.lengths
  nonnegative := fits.nonnegative
  inside := by
    intro index within
    obtain ⟨same, moved⟩ := selects.within_add within
    rw [part_address same]
    exact fits.inside _ moved

theorem address_start_le (bounded : length ≤ Size.max) (accepted : layout.validate length = .ok ())
    (ordered : List.Forall₂ (· < ·) start stop) (within : List.Forall₂ (· ≤ ·) stop layout.shape) :
    layout.address start ≤ length := by
  have inside : Index.Within start layout.shape := by
    clear accepted
    generalize layout.shape = shape at within
    induction ordered generalizing shape with
    | nil =>
        cases within
        exact .nil
    | cons less _ ih =>
        cases within with
        | cons below within => exact .cons (by omega) (ih _ within)
  have fits := (validate_iff_fits inside.inhabited bounded).mp accepted
  have reached := fits.inside start inside
  omega

theorem part_fits (bounded : length ≤ Size.max) (accepted : layout.validate length = .ok ())
    (selects : layout.Selects start stop) (inhabited : 0 ∉ (layout.part start stop).shape) :
    (layout.part start stop).Fits length := by
  have whole := (selects.within_add (Index.last_within inhabited)).2.inhabited
  exact ((validate_iff_fits whole bounded).mp accepted).part selects

/-- The part that a slice selects is accepted exactly when it starts inside the buffer or at its
end. -/
theorem part_validate (bounded : length ≤ Size.max) (accepted : layout.validate length = .ok ())
    (selects : layout.Selects start stop) :
    (layout.part start stop).validate length = .ok () ↔ layout.address start ≤ length := by
  obtain ⟨lengths, nonnegative, _⟩ := validate_eq_ok.mp accepted
  by_cases empty : 0 ∈ (layout.part start stop).shape
  · rw [validate_iff_offset empty]
    exact ⟨fun ⟨_, _, reached⟩ => reached,
      fun reached => ⟨selects.part_lengths lengths, nonnegative, reached⟩⟩
  · have fits := part_fits bounded accepted selects empty
    have reached := fits.inside _ (Index.last_within empty)
    refine iff_of_true ((validate_iff_fits empty bounded).mpr fits) ?_
    have start_le : layout.address start ≤ (layout.part start stop).address
        (Index.last (layout.part start stop).shape) := Nat.le_add_right _ _
    omega

end Marshal.Layout
