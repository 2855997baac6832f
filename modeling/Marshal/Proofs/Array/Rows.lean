import Mathlib
import Marshal.Proofs.Array.Tiling

namespace Marshal

theorem getElem?_flatten_of_width {α : Type} {rows : List (List α)} {width column : Nat}
    (each : ∀ row ∈ rows, row.length = width) (below : column < width) (row : Nat) :
    rows.flatten[row * width + column]? = rows[row]?.bind (·[column]?) := by
  induction rows generalizing row with
  | nil => simp
  | cons first rest ih =>
      simp only [List.forall_mem_cons] at each
      cases row with
      | zero =>
          have inside : column < first.length := by omega
          simp [List.getElem?_append_left inside]
      | succ row =>
          have past : first.length ≤ (row + 1) * width + column := by
            rw [Nat.add_mul]
            omega
          have rests : (row + 1) * width + column - first.length = row * width + column := by
            rw [Nat.add_mul]
            omega
          rw [List.flatten_cons, List.getElem?_append_right past, rests, ih each.2,
            List.getElem?_cons_succ]

/-- A row of equally long rows is found where it was put. -/
theorem span_flatten {rows : List (List UInt8)} {width row : Nat} {found : List UInt8}
    (each : ∀ row ∈ rows, row.length = width) (there : rows[row]? = some found) :
    (rows.flatten.drop (row * width)).take width = found := by
  refine List.ext_getElem? fun column => ?_
  rw [getElem?_span]
  split
  · rename_i below
    rw [getElem?_flatten_of_width each below, there, Option.bind_some]
  · rename_i beyond
    have length := each found (List.mem_of_getElem? there)
    exact (List.getElem?_eq_none (by omega)).symm

namespace Index

variable {shape index : List Nat}

theorem all_eq_product (shape : List Nat) : all shape = product shape := by
  simp only [all]
  split
  · rename_i empty
    have none : (product shape).length = 0 := by
      rw [product_length, List.prod_eq_zero (by simpa using empty)]
    exact (List.eq_nil_of_length_eq_zero none).symm
  · rfl

/-- The number of an index among those of a shape, when the last axis varies fastest. -/
def place (shape index : List Nat) : Nat := rank shape.reverse index.reverse

theorem rank_append {slower slowerIndex : List Nat} (length : index.length = shape.length) :
    rank (shape ++ slower) (index ++ slowerIndex) =
      rank shape index + shape.prod * rank slower slowerIndex := by
  induction shape generalizing index with
  | nil =>
      rw [List.eq_nil_of_length_eq_zero length]
      simp [rank]
  | cons dim shape ih =>
      obtain ⟨i, index, rfl⟩ := List.exists_cons_of_length_eq_add_one length
      simp only [List.cons_append, rank, ih (by simpa using length), List.prod_cons]
      rw [Nat.mul_add, Nat.mul_assoc, Nat.add_assoc]

theorem place_cons {dim i : Nat} (length : index.length = shape.length) :
    place (dim :: shape) (i :: index) = i * shape.prod + place shape index := by
  rw [place, List.reverse_cons, List.reverse_cons, rank_append (by simpa using length),
    List.prod_reverse, Nat.add_comm, Nat.mul_comm]
  simp [rank, place]

theorem getElem?_product (within : Within index shape) :
    (product shape)[place shape index]? = some index := by
  induction within with
  | nil => rfl
  | @cons i dim index shape below within ih =>
      have inside : place shape index < shape.prod := by
        rw [← product_length]
        exact (List.getElem?_eq_some_iff.mp ih).1
      have widths : ∀ row ∈ (List.range dim).map fun i => (product shape).map (i :: ·),
          row.length = shape.prod := by
        simp [product_length]
      rw [place_cons within.length_eq, product, List.flatMap_def,
        getElem?_flatten_of_width widths inside]
      simp [List.getElem?_range below, ih]

theorem first_within (inhabited : 0 ∉ shape) : Within (shape.map fun _ => 0) shape := by
  simpa only [List.map_const'] using start_within inhabited

theorem place_first (shape : List Nat) : place shape (shape.map fun _ => 0) = 0 := by
  induction shape with
  | nil => rfl
  | cons dim shape ih => rw [List.map_cons, place_cons (by simp), ih, Nat.zero_mul]

/-- Counting on from an index gives the one with the next number, or starts over after the last. -/
theorem step_within (within : Within index shape) :
    (∃ next, step shape index = (false, next) ∧ Within next shape ∧
      place shape next = place shape index + 1) ∨
    step shape index = (true, shape.map fun _ => 0) ∧ place shape index + 1 = shape.prod := by
  induction within with
  | nil => exact .inr ⟨rfl, rfl⟩
  | @cons i dim index shape below within ih =>
      rcases ih with ⟨next, stepped, inside, number⟩ | ⟨carry, last⟩
      · refine .inl ⟨i :: next, ?_, .cons below inside, ?_⟩
        · simp only [step, stepped]
        · rw [place_cons inside.length_eq, place_cons within.length_eq, number, Nat.add_assoc]
      · have start := first_within (Within.inhabited within)
        have first := place_first shape
        rcases Nat.lt_or_ge (i + 1) dim with carried | full
        · refine .inl ⟨(i + 1) :: shape.map fun _ => 0, ?_, .cons carried start, ?_⟩
          · simp only [step, carry, if_pos carried]
          · rw [place_cons start.length_eq, place_cons within.length_eq, first, Nat.add_mul]
            omega
        · have lastOfAxis : i + 1 = dim := Nat.le_antisymm below full
          refine .inr ⟨?_, ?_⟩
          · simp only [step, carry, if_neg (Nat.not_lt.mpr full), List.map_cons]
          · rw [place_cons within.length_eq, List.prod_cons, ← lastOfAxis, Nat.add_mul]
            omega

theorem succ?_within (within : Within index shape) :
    succ? shape index = (product shape)[place shape index + 1]? := by
  rcases step_within within with ⟨next, stepped, inside, number⟩ | ⟨stepped, last⟩
  · simp only [succ?, stepped]
    rw [← number, getElem?_product inside]
  · simp only [succ?, stepped]
    exact (List.getElem?_eq_none (by rw [product_length, last])).symm

theorem place_of_getElem? {number : Nat} (there : (product shape)[number]? = some index) :
    place shape index = number := by
  have within := mem_product.mp (List.mem_of_getElem? there)
  have found := getElem?_product within
  have inside := (List.getElem?_eq_some_iff.mp found).1
  exact (List.getElem?_inj inside (nodup_product shape)).mp (found.trans there.symm)

theorem takeFrom_getElem? (count number : Nat) :
    takeFrom shape count (product shape)[number]? = ((product shape).drop number).take count := by
  induction count generalizing number with
  | zero => rfl
  | succ count ih =>
      cases there : (product shape)[number]? with
      | none =>
          rw [List.drop_eq_nil_of_le (List.getElem?_eq_none_iff.mp there)]
          rfl
      | some index =>
          have within := mem_product.mp (List.mem_of_getElem? there)
          obtain ⟨below, same⟩ := List.getElem?_eq_some_iff.mp there
          rw [takeFrom, succ?_within within, place_of_getElem? there, ih,
            List.drop_eq_getElem_cons below, same, List.take_succ_cons]

theorem first?_eq (shape : List Nat) : first? shape = (product shape)[0]? := by
  simp only [first?]
  split
  · rename_i empty
    rw [← all_eq_product, all, if_pos empty]
    rfl
  · rename_i inhabited
    have within : Within (shape.map fun _ => 0) shape := first_within (by simpa using inhabited)
    rw [← getElem?_product within, place_first]

/-- Stepping from index to index enumerates all indices of the shape in order. -/
theorem take_eq (count : Nat) (shape : List Nat) : take count shape = (all shape).take count := by
  rw [take, first?_eq, takeFrom_getElem?, all_eq_product, List.drop_zero]

end Index

end Marshal
