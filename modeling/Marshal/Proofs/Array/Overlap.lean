import Mathlib
import Marshal.Proofs.World.Mutation

namespace Marshal.Layout

variable {layout : Layout} {i j shape : List Nat} {strides : List Int} {axes other : List (Nat × Int)}
  {reach : Nat}

/-- Some byte belongs to the elements at both indices. -/
def Shares (layout : Layout) (i j : List Nat) : Prop :=
  ∃ place, (layout.address i ≤ place ∧ place < layout.address i + layout.dtype.size) ∧
    layout.address j ≤ place ∧ place < layout.address j + layout.dtype.size

/-- The elements at two different indices share a byte. -/
def Overlapping (layout : Layout) : Prop :=
  ∃ i j, Index.Within i layout.shape ∧ Index.Within j layout.shape ∧ i ≠ j ∧ layout.Shares i j

theorem shares_of_eq (same : layout.address i = layout.address j) : layout.Shares i j := by
  have positive := layout.dtype.size_pos
  exact ⟨layout.address i, by omega, by omega⟩

theorem not_shares_of_apart (apart : layout.Apart layout.dtype.size i j) : ¬ layout.Shares i j := by
  rintro ⟨place, _, _⟩
  rcases apart with before | after <;> omega

/-- Different indices with the same steps differ along an axis that stays in place. -/
theorem any_of_same_steps (lengths : shape.length = strides.length) (withinI : Index.Within i shape)
    (withinJ : Index.Within j shape) (ne : i ≠ j)
    (same : i.zipWith (fun i (stride : Int) => i * stride.natAbs) strides =
      j.zipWith (fun i (stride : Int) => i * stride.natAbs) strides) :
    (shape.zip strides).any (fun (dim, stride) => 1 < dim && stride == 0) = true := by
  induction withinI generalizing j strides with
  | nil =>
      cases withinJ
      exact absurd rfl ne
  | @cons first dim i shape below _ ih =>
      cases withinJ with
      | @cons second _ j _ below' withinJ =>
          obtain ⟨stride, strides, rfl⟩ := List.exists_cons_of_length_eq_add_one lengths.symm
          simp only [List.zipWith_cons_cons, List.cons.injEq] at same
          simp only [List.zip_cons_cons, List.any_cons, Bool.or_eq_true, Bool.and_eq_true, decide_eq_true_eq,
            beq_iff_eq]
          by_cases here : first = second
          · have rest : i ≠ j := fun equal => ne (by rw [here, equal])
            exact .inr (ih (by simpa using lengths) withinJ rest same.2)
          · rcases mul_eq_mul_right_iff.mp same.1 with equal | still
            · exact absurd equal here
            · exact .inl ⟨by omega, Int.natAbs_eq_zero.mp still⟩

theorem hasOverlap_iff_steps (inhabited : 0 ∉ layout.shape)
    (lengths : layout.shape.length = layout.strides.length) :
    layout.hasOverlap = true ↔ ∃ i j, Index.Within i layout.shape ∧ Index.Within j layout.shape ∧ i ≠ j ∧
      layout.steps i = layout.steps j :=
  ⟨exists_same_steps inhabited, fun ⟨_, _, withinI, withinJ, ne, same⟩ =>
    any_of_same_steps lengths withinI withinJ ne same⟩

theorem overlapping_of_hasOverlap (inhabited : 0 ∉ layout.shape) (overlap : layout.hasOverlap = true) :
    layout.Overlapping := by
  obtain ⟨i, j, withinI, withinJ, ne, same⟩ := exists_same_steps inhabited overlap
  refine ⟨i, j, withinI, withinJ, ne, shares_of_eq ?_⟩
  exact congrArg (fun steps => layout.offset + steps.sum) same

theorem not_overlapping_of_empty (empty : 0 ∈ layout.shape) : ¬ layout.Overlapping := by
  rintro ⟨i, _, withinI, _⟩
  exact withinI.inhabited empty

def travel (axes : List (Nat × Int)) (index : List Nat) : Nat :=
  (index.zipWith (fun i (axis : Nat × Int) => i * axis.2.natAbs) axes).sum

theorem address_eq_travel (lengths : layout.shape.length = layout.strides.length) (index : List Nat) :
    layout.address index = layout.offset + travel layout.axes index := by
  have strides : layout.axes.map Prod.snd = layout.strides := List.map_snd_zip (Nat.le_of_eq lengths.symm)
  rw [address, steps, travel, ← strides, List.zipWith_map_right]

theorem map_fst_axes (lengths : layout.shape.length = layout.strides.length) :
    layout.axes.map Prod.fst = layout.shape := List.map_fst_zip (Nat.le_of_eq lengths)

/-- Axes, the nearest first, of which each one stays in place or steps beyond the bytes that the nearer ones
reach. -/
def Clear : Nat → List (Nat × Int) → Prop
  | _, [] => True
  | reach, (dim, stride) :: farther =>
    (dim ≤ 1 ∨ stride = 0 ∨ reach ≤ stride.natAbs) ∧ Clear (reach + (dim - 1) * stride.natAbs) farther

/-- In some order the axes keep clear of each other and of the bytes of one element. -/
def Nested (layout : Layout) : Prop := ∃ axes, axes.Perm layout.axes ∧ Clear layout.dtype.size axes

/-- Along axes that keep clear and of which none stays in place, different indices lead apart. -/
theorem Clear.apart (clear : Clear reach axes) (moving : ∀ axis ∈ axes, 1 < axis.1 → axis.2 ≠ 0)
    (withinI : Index.Within i (axes.map Prod.fst)) (withinJ : Index.Within j (axes.map Prod.fst))
    (ne : i ≠ j) : travel axes i + reach ≤ travel axes j ∨ travel axes j + reach ≤ travel axes i := by
  induction axes generalizing reach i j with
  | nil =>
      cases withinI
      cases withinJ
      exact absurd rfl ne
  | cons axis farther ih =>
      obtain ⟨dim, stride⟩ := axis
      obtain ⟨step, clear⟩ := clear
      simp only [List.forall_mem_cons] at moving
      cases withinI with
      | @cons first _ i _ below withinI =>
          cases withinJ with
          | @cons second _ j _ below' withinJ =>
              simp only at below below' step moving
              simp only [travel, List.zipWith_cons_cons, List.sum_cons] at ih ⊢
              by_cases rest : i = j
              · -- only the nearest axis tells them apart
                subst rest
                have different : first ≠ second := fun same => ne (by rw [same])
                have far : reach ≤ stride.natAbs := by
                  rcases step with single | still | far
                  · omega
                  · exact absurd still (moving.1 (by omega))
                  · exact far
                rcases Nat.lt_or_gt_of_ne different with less | greater
                · have gap := Nat.mul_le_mul_right stride.natAbs (Nat.succ_le_of_lt less)
                  rw [Nat.succ_mul] at gap
                  omega
                · have gap := Nat.mul_le_mul_right stride.natAbs (Nat.succ_le_of_lt greater)
                  rw [Nat.succ_mul] at gap
                  omega
              · -- the farther axes lead farther apart than the nearest one can make up for
                have bound : first * stride.natAbs ≤ (dim - 1) * stride.natAbs :=
                  Nat.mul_le_mul_right _ (by omega)
                have bound' : second * stride.natAbs ≤ (dim - 1) * stride.natAbs :=
                  Nat.mul_le_mul_right _ (by omega)
                rcases ih clear moving.2 withinI withinJ rest with before | after <;> omega

/-- Indices along axes in one order are those along the axes in another one, rearranged. -/
theorem exists_rearranged (same : other.Perm axes) : ∃ rearranged : List Nat → List Nat,
    (∀ index, Index.Within index (axes.map Prod.fst) →
      Index.Within (rearranged index) (other.map Prod.fst) ∧
        travel other (rearranged index) = travel axes index) ∧
    ∀ i j, Index.Within i (axes.map Prod.fst) → Index.Within j (axes.map Prod.fst) →
      rearranged i = rearranged j → i = j := by
  induction same with
  | nil => exact ⟨id, fun index within => ⟨within, rfl⟩, fun _ _ _ _ equal => equal⟩
  | @cons axis other axes _ ih =>
      obtain ⟨rearranged, keeps, injective⟩ := ih
      refine ⟨fun index => index.headD 0 :: rearranged index.tail, ?_, ?_⟩
      · rintro _ (_ | ⟨below, within⟩)
        obtain ⟨within', same⟩ := keeps _ within
        refine ⟨.cons below within', ?_⟩
        simpa [travel] using same
      · rintro _ _ (_ | ⟨_, withinI⟩) (_ | ⟨_, withinJ⟩) equal
        simp only [List.headD_cons, List.tail_cons, List.cons.injEq] at equal
        rw [equal.1, injective _ _ withinI withinJ equal.2]
  | swap first second axes =>
      refine ⟨fun index => index.tail.headD 0 :: index.headD 0 :: index.tail.tail, ?_, ?_⟩
      · rintro _ (_ | ⟨below, _ | ⟨below', within⟩⟩)
        refine ⟨.cons below' (.cons below within), ?_⟩
        simp only [travel, List.tail_cons, List.headD_cons, List.zipWith_cons_cons, List.sum_cons]
        omega
      · rintro _ _ (_ | ⟨_, _ | ⟨_, _⟩⟩) (_ | ⟨_, _ | ⟨_, _⟩⟩) equal
        simpa [and_comm, and_left_comm] using equal
  | trans _ _ ih ih' =>
      obtain ⟨near, keeps, injective⟩ := ih
      obtain ⟨far, keeps', injective'⟩ := ih'
      refine ⟨near ∘ far, fun index within => ?_, fun i j withinI withinJ equal => ?_⟩
      · obtain ⟨middle, same⟩ := keeps' index within
        exact ⟨(keeps _ middle).1, (keeps _ middle).2.trans same⟩
      · exact injective' i j withinI withinJ
          (injective _ _ (keeps' i withinI).1 (keeps' j withinJ).1 equal)

theorem Nested.apart (nested : layout.Nested) (lengths : layout.shape.length = layout.strides.length)
    (moving : layout.hasOverlap = false) (withinI : Index.Within i layout.shape)
    (withinJ : Index.Within j layout.shape) (ne : i ≠ j) : layout.Apart layout.dtype.size i j := by
  obtain ⟨axes, same, clear⟩ := nested
  obtain ⟨rearranged, keeps, injective⟩ := exists_rearranged same
  have none : ∀ axis ∈ axes, 1 < axis.1 → axis.2 ≠ 0 := by
    intro axis member several still
    have there := List.any_eq_false.mp moving axis (same.mem_iff.mp member)
    simp [several, still] at there
  rw [← map_fst_axes lengths] at withinI withinJ
  obtain ⟨inI, travelI⟩ := keeps i withinI
  obtain ⟨inJ, travelJ⟩ := keeps j withinJ
  have apart := clear.apart none inI inJ fun equal => ne (injective i j withinI withinJ equal)
  rw [travelI, travelJ] at apart
  rw [Apart, address_eq_travel lengths, address_eq_travel lengths]
  omega

theorem Nested.hasOverlap_iff (nested : layout.Nested) (inhabited : 0 ∉ layout.shape)
    (lengths : layout.shape.length = layout.strides.length) :
    layout.hasOverlap = true ↔ layout.Overlapping := by
  refine ⟨overlapping_of_hasOverlap inhabited, fun ⟨i, j, withinI, withinJ, ne, shares⟩ => ?_⟩
  by_contra moving
  exact not_shares_of_apart
    (nested.apart lengths (Bool.eq_false_of_not_eq_true moving) withinI withinJ ne) shares

/-- What the check for overlap decides, on a layout that a buffer of `length` bytes accepts.  It finds two
different indices with the same steps along every axis, if there are any.  Their elements overlap, and where
the axes are nested there are no others that do.  In place, elements are replaced one after the other unless
the check finds something, however many bytes they share. -/
theorem hasOverlap_exact (layout : Layout) (length : Nat) (accepted : layout.validate length = .ok ()) :
    (0 ∉ layout.shape →
      (layout.hasOverlap = true ↔ ∃ i j, Index.Within i layout.shape ∧ Index.Within j layout.shape ∧ i ≠ j ∧
        layout.steps i = layout.steps j) ∧
      (layout.hasOverlap = true → layout.Overlapping) ∧
      (layout.Nested → (layout.hasOverlap = true ↔ layout.Overlapping))) ∧
    (0 ∈ layout.shape → ¬ layout.Overlapping) ∧
    ∀ {σ : Type} (w : World σ) (view : ArrayView) (type : ElementType) (buffer : Buffer)
      (f : type.Carrier → type.Carrier), view.layout = layout → view.dtype = .number type →
      w.buffer? view = some buffer → buffer.bytes.length = length → buffer.isReadonly = false →
      buffer.access = .idle →
      (layout.hasOverlap = true → view.mapElements type (fun old => pure (f old)) w =
        (.failed (.bufferLayout "cannot mutate an array whose elements overlap"), w)) ∧
      (layout.hasOverlap = false → view.mapElements type (fun old => pure (f old)) w =
        (.returned (), w.mutated view.buffer (layout.replaced type f (Index.all layout.shape) buffer.bytes)
          [view.mutating])) := by
  have lengths := (validate_eq_ok.mp accepted).1
  refine ⟨fun inhabited => ⟨hasOverlap_iff_steps inhabited lengths, overlapping_of_hasOverlap inhabited,
    fun nested => nested.hasOverlap_iff inhabited lengths⟩, not_overlapping_of_empty, ?_⟩
  rintro σ w view type buffer f rfl typed found rfl unsealed idle
  constructor
  · intro overlap
    have checked : view.checkElement type = .ok () := by simp only [ArrayView.checkElement, typed, ↓reduceIte]
    simp only [ArrayView.mapElements, ArrayView.updateElements, checked, Act.ofExcept_ok, pure_bind, overlap,
      ↓reduceIte, bind_assoc]
    exact Act.bind_of_failed rfl
  · intro moving
    have mapped : view.mapElements type (ArrayView.noting f fun _ => []) w = _ :=
      ArrayView.mapElements_returns typed found unsealed idle accepted moving
    rwa [ArrayView.called_silent] at mapped

/-- Two rows of two bytes, of which the second starts in the middle of the first. -/
def diagonal : Layout :=
  { shape := [2, 2], strides := [1, 1], dtype := .int .u8, order := .neither, offset := 0 }

theorem hasOverlap_exact_diagonal :
    diagonal.validate 3 = .ok () ∧ diagonal.hasOverlap = false ∧ diagonal.Overlapping ∧ ¬ diagonal.Nested ∧
      ∃ (w : World Unit) (view : ArrayView), view.layout = diagonal ∧
        w.buffer? view = some (ArrayView.ownedBuffer [0, 0, 0]) ∧
        view.mapElements (.int .u8) (fun old => pure (old + Fixed.wrap .u8 1)) w =
          (.returned (), w.mutated 0 [1, 2, 1] [view.mutating]) := by
  have accepted : diagonal.validate 3 = .ok () := by decide
  have moving : diagonal.hasOverlap = false := by decide
  have overlapping : diagonal.Overlapping :=
    ⟨[0, 1], [1, 0], by decide, by decide, by decide, shares_of_eq (by decide)⟩
  let view : ArrayView := { id := 1, layout := diagonal, buffer := 0, ownership := .owned, base? := none }
  let w : World Unit := { buffers := [ArrayView.ownedBuffer [0, 0, 0]] }
  obtain ⟨decided, _, mapped⟩ := hasOverlap_exact diagonal 3 accepted
  refine ⟨accepted, moving, overlapping, fun nested => ?_, w, view, rfl, rfl, ?_⟩
  · have found := ((decided (by decide)).2.2 nested).mpr overlapping
    rw [moving] at found
    cases found
  · exact (mapped w view (.int .u8) _ (· + Fixed.wrap .u8 1) rfl rfl rfl rfl rfl rfl).2 moving

end Marshal.Layout
