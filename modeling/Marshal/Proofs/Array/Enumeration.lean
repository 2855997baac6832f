import Mathlib
import Marshal.Proofs.Array.Rows

namespace Marshal.Index

variable {shape index : List Nat}

/-- The index that comes next once `given` of them have been given, while there is one. -/
def upcoming? (shape : List Nat) : Nat → Option (List Nat)
  | 0 => first? shape
  | given + 1 => (upcoming? shape given).bind (succ? shape)

/-- A number in the mixed radix of a shape, one digit for each axis. -/
def digits : List Nat → Nat → List Nat
  | [], _ => []
  | dim :: shape, k => k / shape.prod % dim :: digits shape k

theorem getElem?_digits (shape : List Nat) (k axis : Nat) :
    (digits shape k)[axis]? = shape[axis]?.map fun dim => k / (shape.drop (axis + 1)).prod % dim := by
  induction shape generalizing axis with
  | nil => rfl
  | cons dim shape ih =>
      cases axis with
      | zero => rfl
      | succ axis => simpa only [digits, List.getElem?_cons_succ, List.drop_succ_cons] using ih axis

/-- Multiples of the number of all indices do not show in the digits. -/
theorem digits_mul_add (shape : List Nat) (m k : Nat) :
    digits shape (m * shape.prod + k) = digits shape k := by
  induction shape generalizing m with
  | nil => rfl
  | cons dim shape ih =>
      have regrouped : m * (dim * shape.prod) + k = m * dim * shape.prod + k := by rw [Nat.mul_assoc]
      have digit : (m * dim * shape.prod + k) / shape.prod % dim = k / shape.prod % dim := by
        rcases Nat.eq_zero_or_pos shape.prod with none | some
        · rw [none, Nat.mul_zero, Nat.zero_add]
        · rw [Nat.add_comm, Nat.add_mul_div_right _ _ some, Nat.add_mul_mod_self_right]
      rw [digits, digits, List.prod_cons, regrouped, digit, ih (m * dim)]

theorem digits_place (within : Within index shape) : digits shape (place shape index) = index := by
  induction within with
  | nil => rfl
  | @cons i dim index shape below within ih =>
      -- What the later axes add is less than one unit of the first, so nothing carries into its digit.
      have inside : place shape index < shape.prod := by
        rw [← product_length]
        exact (List.getElem?_eq_some_iff.mp (getElem?_product within)).1
      have leading : (i * shape.prod + place shape index) / shape.prod = i := by
        rw [Nat.add_comm, Nat.add_mul_div_right _ _ (Nat.zero_lt_of_lt inside), Nat.div_eq_of_lt inside,
          Nat.zero_add]
      rw [place_cons within.length_eq, digits, leading, Nat.mod_eq_of_lt below, digits_mul_add, ih]

theorem product_eq_digits (shape : List Nat) :
    product shape = (List.range shape.prod).map (digits shape) := by
  apply List.ext_getElem?
  intro k
  rw [List.getElem?_map, ← product_length]
  cases there : (product shape)[k]? with
  | none =>
      rw [List.getElem?_eq_none (by simpa using there)]
      rfl
  | some index =>
      have within := mem_product.mp (List.mem_of_getElem? there)
      rw [List.getElem?_range (List.getElem?_eq_some_iff.mp there).1, Option.map_some,
        ← place_of_getElem? there, digits_place within]

theorem product_sorted (shape : List Nat) : (product shape).Pairwise (· < ·) := by
  induction shape with
  | nil => exact List.pairwise_singleton _ _
  | cons dim shape ih =>
      refine List.pairwise_flatMap.mpr ⟨fun i _ => ?_, List.pairwise_lt_range.imp ?_⟩
      · exact List.pairwise_map.mpr (ih.imp fun before => List.cons_lt_cons_iff.mpr (.inr ⟨rfl, before⟩))
      -- Between rows the first axis decides, whatever comes after it.
      · intro i j before row here other there
        obtain ⟨rest, _, rfl⟩ := List.mem_map.mp here
        obtain ⟨others, _, rfl⟩ := List.mem_map.mp there
        exact List.cons_lt_cons_iff.mpr (.inl before)

theorem upcoming?_eq (shape : List Nat) (given : Nat) : upcoming? shape given = (product shape)[given]? := by
  induction given with
  | zero => exact first?_eq shape
  | succ given ih =>
      rw [upcoming?, ih]
      cases there : (product shape)[given]? with
      | none =>
          have ended := List.getElem?_eq_none_iff.mp there
          exact (List.getElem?_eq_none (Nat.le_succ_of_le ended)).symm
      | some index =>
          -- One step leads from the index with a number to the index with the next.
          have within := mem_product.mp (List.mem_of_getElem? there)
          rw [Option.bind_some, succ?_within within, place_of_getElem? there]

theorem upcoming?_eq_some {k : Nat} :
    upcoming? shape k = some index ↔ Within index shape ∧ place shape index = k := by
  rw [upcoming?_eq]
  constructor
  · intro there
    exact ⟨mem_product.mp (List.mem_of_getElem? there), place_of_getElem? there⟩
  · rintro ⟨within, rfl⟩
    exact getElem?_product within

theorem take_eq_digits (count : Nat) (shape : List Nat) :
    take count shape = (List.range (min count shape.prod)).map (digits shape) := by
  rw [take_eq, all_eq_product, product_eq_digits, ← List.map_take, List.take_range]

/-- Going through the indices of a shape is exact.  After as many indices as there are elements there are no
more, whatever the shape: one for no axes, none where an axis is empty.  The index with number `k` is the one
whose number in the mixed radix of the shape is `k`, the last axis varying fastest.  Every index comes, and
each is lexicographically larger than those before it. -/
theorem enumeration_exact (shape : List Nat) :
    (∀ k, upcoming? shape k = if k < shape.prod then some (digits shape k) else none) ∧
    (∀ k axis, (digits shape k)[axis]? =
      shape[axis]?.map fun dim => k / (shape.drop (axis + 1)).prod % dim) ∧
    (∀ k index, upcoming? shape k = some index ↔ Within index shape ∧ place shape index = k) ∧
    (∀ count, take count shape = (List.range (min count shape.prod)).map (digits shape)) ∧
    (∀ more index, index ∈ take (shape.prod + more) shape ↔ Within index shape) ∧
    (∀ count, (take count shape).Pairwise (· < ·)) ∧
    (∀ more, take (more + 1) shape = [] ↔ 0 ∈ shape) := by
  refine ⟨fun k => ?_, getElem?_digits shape, fun k index => upcoming?_eq_some,
    fun count => take_eq_digits count shape, fun more index => ?_, fun count => ?_, fun more => ?_⟩
  · rw [upcoming?_eq, product_eq_digits, List.getElem?_map]
    split
    · rename_i below
      rw [List.getElem?_range below, Option.map_some]
    · rename_i beyond
      rw [List.getElem?_eq_none (by simpa using beyond), Option.map_none]
  · rw [take_eq, all_eq_product, List.take_of_length_le (by simp [product_length]), mem_product]
  · rw [take_eq, all_eq_product]
    exact (product_sorted shape).sublist (List.take_sublist count _)
  · rw [take_eq_digits, List.map_eq_nil_iff, List.range_eq_nil]
    have empty : shape.prod = 0 ↔ 0 ∈ shape := List.prod_eq_zero_iff
    rw [← empty]
    omega

example : take 9 [2, 1, 3] = [[0, 0, 0], [0, 0, 1], [0, 0, 2], [1, 0, 0], [1, 0, 1], [1, 0, 2]] := by decide

end Marshal.Index
