import Mathlib
import Marshal.Proofs.Array.Memory

namespace Marshal

theorem DType.checkedSigned_size (dtype : DType) : Size.checkedSigned dtype.size = some dtype.size := by
  rcases dtype with _ | type | part
  · rfl
  · rcases type with type | type <;> cases type <;> rfl
  · cases part <;> rfl

namespace Layout

variable {layout : Layout} {order : ArrayOrder} {shape index : List Nat} {strides : List Int}
  {axes : List (Nat × Int)} {step : Nat}

/-- The elements follow each other without gaps, in the order in which their indices are numbered. -/
def Follows (layout : Layout) (order : ArrayOrder) : Prop :=
  ∀ k, k < layout.shape.prod → ∃ index, (Index.inOrder order layout.shape)[k]? = some index ∧
    layout.address index = layout.offset + k * layout.dtype.size

theorem follows_iff_number :
    layout.Follows order ↔ ∀ index, Index.Within index layout.shape →
      layout.address index = layout.offset + layout.dtype.size * Index.number order layout.shape index := by
  constructor
  · intro follows index within
    have there := Index.getElem?_number order within
    have below := (List.getElem?_eq_some_iff.mp there).1
    rw [Index.inOrder_length] at below
    obtain ⟨other, found, place⟩ := follows _ below
    rw [there, Option.some.injEq] at found
    rw [found, place, Nat.mul_comm, found]
  · intro numbered k below
    have inside : k < (Index.inOrder order layout.shape).length := by rwa [Index.inOrder_length]
    have there := List.getElem?_eq_getElem inside
    have within := Index.mem_inOrder.mp (List.mem_of_getElem? there)
    refine ⟨_, there, ?_⟩
    rw [numbered _ within, Index.number_of_getElem? there, Nat.mul_comm]

/-- A checked step leads on to a checked step. -/
private theorem checkedSigned_step {dim : Nat} (positive : 0 < step) (several : 0 < dim) :
    ((Size.checkedSigned step).bind fun step => do
      let dim ← Size.checkedSigned dim
      Size.checkedSigned (step * dim)) = Size.checkedSigned (step * dim) := by
  have left : step ≤ step * dim := Nat.le_mul_of_pos_right _ several
  have right : dim ≤ step * dim := Nat.le_mul_of_pos_left _ positive
  simp only [Size.checkedSigned, Option.bind_eq_bind]
  by_cases fits : step * dim ≤ Size.signedMax
  · have stepFits : step ≤ Size.signedMax := by omega
    have dimFits : dim ≤ Size.signedMax := by omega
    simp [fits, stepFits, dimFits]
  · by_cases stepFits : step ≤ Size.signedMax <;> by_cases dimFits : dim ≤ Size.signedMax <;>
      simp [fits, stepFits, dimFits]

/-- The check for gaps is exact for strides that are signed sizes, however large the axes are. -/
theorem packedFrom_iff_gapless (positive : 0 < step) (inhabited : ∀ axis ∈ axes, 0 < axis.1)
    (signed : ∀ axis ∈ axes, axis.2 ≤ Size.signedMax) :
    packedFrom (Size.checkedSigned step) axes = true ↔ Gapless step axes := by
  induction axes generalizing step with
  | nil => simp [packedFrom, Gapless]
  | cons axis slower ih =>
      obtain ⟨dim, stride⟩ := axis
      simp only [List.forall_mem_cons] at inhabited signed
      have here : (Size.checkedSigned step).map Int.ofNat = some stride ↔ stride = step := by
        have bound := signed.1
        simp only [Size.checkedSigned]
        split
        · simp only [Option.map_some, Option.some.injEq, Int.ofNat_eq_natCast, eq_comm]
        · simp only [Option.map_none, reduceCtorEq, false_iff]
          omega
      have rest := ih (Nat.mul_pos positive inhabited.1) inhabited.2 signed.2
      simp only [packedFrom, Gapless, checkedSigned_step positive inhabited.1, Bool.and_eq_true,
        Bool.or_eq_true, decide_eq_true_eq, beq_iff_eq, here, rest]

/-- Axes lie side by side exactly when every index is as many steps away as its number says. -/
theorem gapless_iff_rank (lengths : shape.length = strides.length) (inhabited : 0 ∉ shape)
    (nonnegative : ∀ stride ∈ strides, 0 ≤ stride) :
    Gapless step (shape.zip strides) ↔ ∀ index, Index.Within index shape →
      (index.zipWith (fun i (stride : Int) => i * stride.natAbs) strides).sum =
        step * Index.rank shape index := by
  constructor
  · exact fun gapless index within => gapless.sum_rank lengths within
  · intro numbered
    induction shape generalizing step strides with
    | nil => trivial
    | cons dim shape ih =>
        cases strides with
        | nil => trivial
        | cons stride strides =>
            simp only [List.forall_mem_cons] at nonnegative
            simp only [List.mem_cons, not_or] at inhabited
            have start := Index.start_within inhabited.2
            constructor
            · -- the second element along the first axis tells its stride
              by_cases single : dim ≤ 1
              · exact .inl single
              · have second := numbered (1 :: List.replicate shape.length 0) (.cons (by omega) start)
                have first := numbered (0 :: List.replicate shape.length 0) (.cons (by omega) start)
                simp only [List.zipWith_cons_cons, List.sum_cons, Index.rank, Nat.mul_add] at first second
                have magnitude := nonnegative.1
                omega
            · apply ih (by simpa using lengths) inhabited.2 nonnegative.2
              intro index within
              have placed := numbered (0 :: index) (.cons (by omega) within)
              simpa [Index.rank, Nat.mul_assoc] using placed

section Orders

variable (lengths : layout.shape.length = layout.strides.length) (inhabited : 0 ∉ layout.shape)
  (nonnegative : ∀ stride ∈ layout.strides, 0 ≤ stride)

include lengths inhabited nonnegative

/-- The elements follow each other exactly when the axes lie side by side. -/
theorem follows_iff_gapless :
    layout.Follows order ↔ Gapless layout.dtype.size (order.fastestFirst layout.axes) := by
  rw [follows_iff_number, ← axes_fastestFirst order lengths,
    gapless_iff_rank (by simpa using lengths) (by simpa using inhabited) (by simpa using nonnegative)]
  constructor
  · intro numbered index within
    have back : Index.Within (order.fastestFirst (order.fastestFirst index))
      (order.fastestFirst layout.shape) := by
      simpa using within
    have turned := Index.within_fastestFirst.mp back
    have place := numbered _ turned
    rw [address_fastestFirst order (turned.length_eq.trans lengths), Index.number] at place
    simpa using place
  · intro ranked index within
    have sum := ranked (order.fastestFirst index) (Index.within_fastestFirst.mpr within)
    rw [address_fastestFirst order (within.length_eq.trans lengths), sum, Index.number]

theorem packedFrom_iff_follows (order : ArrayOrder)
    (signed : ∀ stride ∈ layout.strides, stride ≤ Size.signedMax) :
    packedFrom (some layout.dtype.size) (order.fastestFirst layout.axes) = true ↔ layout.Follows order := by
  rw [follows_iff_gapless lengths inhabited nonnegative, ← layout.dtype.checkedSigned_size]
  apply packedFrom_iff_gapless layout.dtype.size_pos
  · intro axis member
    have dim := (List.of_mem_zip (ArrayOrder.mem_fastestFirst.mp member)).1
    exact Nat.pos_of_ne_zero fun zero => inhabited (zero ▸ dim)
  · intro axis member
    exact signed _ (List.of_mem_zip (ArrayOrder.mem_fastestFirst.mp member)).2

end Orders

/-- The order that is found out for a strided layout with elements is exact: rows where the elements follow
each other along rows, columns where they do so along columns only, and neither otherwise.  Axes may be
as long as they like; strides are signed sizes. -/
theorem strided_order_exact (shape : List Nat) (strides : List Int) (dtype : DType) (offset : Nat)
    (inhabited : 0 ∉ shape) (lengths : shape.length = strides.length)
    (nonnegative : ∀ stride ∈ strides, 0 ≤ stride) (signed : ∀ stride ∈ strides, stride ≤ Size.signedMax) :
    ∃ layout, strided shape strides dtype offset = .ok layout ∧
      (layout.shape = shape ∧ layout.strides = strides ∧ layout.dtype = dtype ∧ layout.offset = offset) ∧
      (layout.order = .c ↔ layout.Follows .c) ∧
      (layout.order = .fortran ↔ ¬ layout.Follows .c ∧ layout.Follows .fortran) ∧
      (layout.order = .neither ↔ ¬ layout.Follows .c ∧ ¬ layout.Follows .fortran) := by
  let layout : Layout := { shape, strides, dtype, order := detectOrder shape strides dtype.size, offset }
  have same : layout.shape.length = layout.strides.length := lengths
  have rows : packedFrom (some dtype.size) (shape.zip strides).reverse = true ↔ layout.Follows .c :=
    packedFrom_iff_follows same inhabited nonnegative .c signed
  have columns : packedFrom (some dtype.size) (shape.zip strides) = true ↔ layout.Follows .fortran :=
    packedFrom_iff_follows same inhabited nonnegative .fortran signed
  have made : strided shape strides dtype offset = .ok layout := by
    simp only [strided, lengths, ne_eq, not_true_eq_false, ↓reduceIte]
    rfl
  refine ⟨layout, made, ⟨rfl, rfl, rfl, rfl⟩, ?_⟩
  have order : layout.order = detectOrder shape strides dtype.size := rfl
  rw [order, ← rows, ← columns]
  simp only [detectOrder]
  split_ifs with byRows byColumns
  · simp [byRows]
  · simp [byRows, byColumns]
  · simp [byRows, byColumns]

/-- Half of all addresses as two columns, with an axis of length one between them. -/
theorem strided_order_exact_halves :
    0 ∉ [2 ^ 62, 1, 2] ∧ [2 ^ 62, 1, 2].length = [1, 7, 2 ^ 62].length ∧
      (∀ stride ∈ ([1, 7, 2 ^ 62] : List Int), 0 ≤ stride ∧ stride ≤ Size.signedMax) ∧
      ∃ layout, strided [2 ^ 62, 1, 2] [1, 7, 2 ^ 62] (.int .u8) 0 = .ok layout ∧
        layout.order = .fortran ∧ ¬ layout.Follows .c ∧ layout.Follows .fortran := by
  have inhabited : 0 ∉ [2 ^ 62, 1, 2] := by decide
  have strides : ∀ stride ∈ ([1, 7, 2 ^ 62] : List Int), 0 ≤ stride ∧ stride ≤ Size.signedMax := by decide
  obtain ⟨layout, made, _, _, columns, _⟩ := strided_order_exact [2 ^ 62, 1, 2] [1, 7, 2 ^ 62] (.int .u8) 0
    inhabited rfl (fun stride member => (strides stride member).1)
      (fun stride member => (strides stride member).2)
  have order : layout.order = .fortran := by
    have computed : strided [2 ^ 62, 1, 2] [1, 7, 2 ^ 62] (.int .u8) 0 =
        .ok ⟨[2 ^ 62, 1, 2], [1, 7, 2 ^ 62], .int .u8, .fortran, 0⟩ := by decide
    rw [computed] at made
    cases made
    rfl
  exact ⟨inhabited, rfl, strides, layout, made, order, columns.mp order⟩

end Layout

end Marshal
