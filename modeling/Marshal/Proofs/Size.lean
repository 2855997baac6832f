import Mathlib
import Marshal.Size

namespace Marshal.Size

theorem signedMax_le_max : signedMax ≤ max := by decide

@[simp] theorem checked_eq_some {n found : Nat} :
    checked n = some found ↔ n = found ∧ n ≤ max := by
  simp only [checked]
  split <;> simp <;> omega

@[simp] theorem checked_eq_none {n : Nat} : checked n = none ↔ max < n := by
  simp only [checked]
  split <;> simp_all

theorem checked_of_le {n : Nat} (fits : n ≤ max) : checked n = some n := by
  simp [fits]

/-- A checked sum, and what is added to it last, is the checked total. -/
theorem checkedSum_bind {start last : Nat} {sizes : List Nat} :
    ((checkedSum start sizes).bind fun sum => checked (sum + last)) =
      checked (start + sizes.sum + last) := by
  induction sizes generalizing start with
  | nil => simp [checkedSum]
  | cons size rest ih =>
      rw [List.sum_cons, ← Nat.add_assoc, ← ih]
      simp only [checkedSum, List.foldlM_cons, Option.bind_eq_bind, Option.bind_assoc]
      by_cases sizeFits : size ≤ max
      · rw [checked_of_le sizeFits, Option.bind_some]
        by_cases fits : start + size ≤ max
        · rw [checked_of_le fits, Option.bind_some]
        · -- both sides are at least as large as the sum so far
          have total := @ih (start + size)
          rw [checked_eq_none.mpr (by omega : max < start + size + rest.sum + last)] at total
          rw [checked_eq_none.mpr (by omega : max < start + size), Option.bind_none]
          exact total.symm
      · have total := @ih (start + size)
        rw [checked_eq_none.mpr (by omega : max < start + size + rest.sum + last)] at total
        rw [checked_eq_none.mpr (by omega : max < size), Option.bind_none]
        exact total.symm

private theorem foldlM_checked {sizes : List Nat} {start product : Nat} (startFits : start ≤ max) :
    sizes.foldlM (fun product size => checked (product * size)) start = some product ↔
      (∀ n, start * (sizes.take n).prod ≤ max) ∧ start * sizes.prod = product := by
  induction sizes generalizing start with
  | nil => simp [startFits]
  | cons size rest ih =>
      simp only [List.foldlM_cons, Option.bind_eq_bind, List.prod_cons, ← Nat.mul_assoc]
      by_cases fits : start * size ≤ max
      · rw [checked_of_le fits, Option.bind_some, ih fits]
        refine and_congr_left fun _ => ⟨fun later n => ?_, fun earlier n => ?_⟩
        · cases n with
          | zero => simpa using startFits
          | succ n => simpa [Nat.mul_assoc] using later n
        · simpa [Nat.mul_assoc] using earlier (n + 1)
      · rw [checked_eq_none.mpr (Nat.lt_of_not_le fits), Option.bind_none]
        refine iff_of_false (by simp) fun ⟨small, _⟩ => fits ?_
        simpa using small 1

/-- A checked product is the product as long as no partial one, taken from the left, is too large. -/
theorem checkedProduct_eq_some {sizes : List Nat} {product : Nat} :
    checkedProduct sizes = some product ↔ (∀ n, (sizes.take n).prod ≤ max) ∧ sizes.prod = product := by
  have one : 1 ≤ max := by decide
  simpa [checkedProduct] using @foldlM_checked sizes 1 product one

theorem checkedProduct_eq {sizes : List Nat} {product : Nat}
    (computed : checkedProduct sizes = some product) : product = sizes.prod :=
  (checkedProduct_eq_some.mp computed).2.symm

theorem prod_take_le {sizes : List Nat} (positive : 0 ∉ sizes) (n : Nat) :
    (sizes.take n).prod ≤ sizes.prod := by
  have others : 0 < (sizes.drop n).prod :=
    Nat.pos_of_ne_zero fun zero => positive (List.mem_of_mem_drop (List.prod_eq_zero_iff.mp zero))
  rw [← List.prod_take_mul_prod_drop sizes n]
  exact Nat.le_mul_of_pos_right _ others

/-- Without a factor of zero no partial product is larger than the product. -/
theorem checkedProduct_of_le {sizes : List Nat} (positive : 0 ∉ sizes) (fits : sizes.prod ≤ max) :
    checkedProduct sizes = some sizes.prod :=
  checkedProduct_eq_some.mpr ⟨fun n => Nat.le_trans (prod_take_le positive n) fits, rfl⟩

end Marshal.Size
