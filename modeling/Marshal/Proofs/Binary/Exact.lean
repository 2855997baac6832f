import Mathlib
import Marshal.Binary.Arithmetic
import Marshal.Width
import Marshal.Proofs.Binary.Pattern

namespace Marshal

-- Powers with natural exponents are the core ones, whatever else is in scope.
attribute [local instance (2000)] instPowNat

theorem log2_bounds {n : Nat} (positive : 0 < n) :
    (2 : ℚ) ^ (n.log2 : Int) ≤ n ∧ (n : ℚ) < 2 ^ ((n.log2 : Int) + 1) := by
  have lower := Nat.log2_self_le (Nat.ne_of_gt positive)
  have upper : n < 2 ^ (n.log2 + 1) := Nat.lt_log2_self
  constructor
  · rw [zpow_natCast]
    exact_mod_cast lower
  · have step : ((n.log2 : Int) + 1) = ((n.log2 + 1 : Nat) : Int) := rfl
    rw [step, zpow_natCast]
    exact_mod_cast upper

theorem two_zpow_of_nonneg {e : Int} (nonneg : 0 ≤ e) : (2 : ℚ) ^ e = (2 ^ e.toNat : Nat) := by
  rw [Nat.cast_pow, Nat.cast_ofNat, ← zpow_natCast, Int.toNat_of_nonneg nonneg]

theorem two_zpow_of_neg {e : Int} (negative : ¬ 0 ≤ e) : (2 : ℚ) ^ e = 1 / (2 ^ (-e).toNat : Nat) := by
  have opposite := two_zpow_of_nonneg (e := -e) (by omega)
  rw [← opposite, zpow_neg, one_div, inv_inv]

theorem two_zpow_le_div {n d : Nat} (bottom : 0 < d) (e : Int) :
    (2 : ℚ) ^ e ≤ n / d ↔
      (if 0 ≤ e then d * 2 ^ e.toNat ≤ n else d ≤ n * 2 ^ (-e).toNat) := by
  have positive : (0 : ℚ) < d := Nat.cast_pos.mpr bottom
  by_cases nonneg : 0 ≤ e
  · rw [if_pos nonneg, two_zpow_of_nonneg nonneg, le_div_iff₀ positive, ← Nat.cast_mul, Nat.cast_le,
      Nat.mul_comm]
  · have power : (0 : ℚ) < (2 ^ (-e).toNat : Nat) := Nat.cast_pos.mpr (Nat.two_pow_pos _)
    rw [if_neg nonneg, two_zpow_of_neg nonneg, div_le_div_iff₀ power positive, one_mul, ← Nat.cast_mul,
      Nat.cast_le]

/-- The rounded-down binary logarithm of a positive quotient. -/
theorem floorLog2_bounds {n d : Nat} (top : 0 < n) (bottom : 0 < d) :
    (2 : ℚ) ^ floorLog2 n d ≤ n / d ∧ (n : ℚ) / d < 2 ^ (floorLog2 n d + 1) := by
  obtain ⟨topLower, topUpper⟩ := log2_bounds top
  obtain ⟨bottomLower, bottomUpper⟩ := log2_bounds bottom
  have positive : (0 : ℚ) < d := Nat.cast_pos.mpr bottom
  set guess : Int := (n.log2 : Int) - d.log2 with guessed
  have upper : (n : ℚ) / d < 2 ^ (guess + 1) := by
    rw [div_lt_iff₀ positive]
    calc (n : ℚ) < 2 ^ ((n.log2 : Int) + 1) := topUpper
      _ = 2 ^ (guess + 1) * 2 ^ (d.log2 : Int) := by
        rw [← zpow_add₀ two_ne_zero]
        congr 1
        omega
      _ ≤ 2 ^ (guess + 1) * d := mul_le_mul_of_nonneg_left bottomLower (by positivity)
  have lower : (2 : ℚ) ^ (guess - 1) ≤ n / d := by
    rw [le_div_iff₀ positive]
    calc (2 : ℚ) ^ (guess - 1) * d ≤ 2 ^ (guess - 1) * 2 ^ ((d.log2 : Int) + 1) :=
        mul_le_mul_of_nonneg_left bottomUpper.le (by positivity)
      _ = 2 ^ (n.log2 : Int) := by
        rw [← zpow_add₀ two_ne_zero]
        congr 1
        omega
      _ ≤ n := topLower
  have reached := two_zpow_le_div (n := n) bottom guess
  by_cases hit : (if 0 ≤ guess then d * 2 ^ guess.toNat ≤ n else d ≤ n * 2 ^ (-guess).toNat)
  · have log : floorLog2 n d = guess := by simp only [floorLog2, ← guessed, hit, ↓reduceIte]
    rw [log]
    exact ⟨reached.mpr hit, upper⟩
  · have log : floorLog2 n d = guess - 1 := by simp only [floorLog2, ← guessed, hit, ↓reduceIte]
    have missed := not_le.mp (mt reached.mp hit)
    rw [log, Int.sub_add_cancel]
    exact ⟨lower, missed⟩

/-- The binary logarithm is the only exponent with its bounds. -/
theorem exponent_unique {q : ℚ} {a b : Int} (lowerA : (2 : ℚ) ^ a ≤ q) (upperA : q < 2 ^ (a + 1))
    (lowerB : (2 : ℚ) ^ b ≤ q) (upperB : q < 2 ^ (b + 1)) : a = b := by
  have ab : a < b + 1 := (zpow_lt_zpow_iff_right₀ one_lt_two).mp (lowerA.trans_lt upperB)
  have ba : b < a + 1 := (zpow_lt_zpow_iff_right₀ one_lt_two).mp (lowerB.trans_lt upperA)
  omega

theorem nearestNat_exact {count divisor : Nat} (positive : 0 < divisor) :
    nearestNat (count * divisor) divisor = count := by
  simp [nearestNat, positive]

namespace Format

variable {f : Format} {count n d : Nat} {unit : Int}

/-- The unit of a number that the format has is the one that rounding picks. -/
theorem Has.unit_eq (has : f.Has count unit) (bottom : 0 < d) (positive : 0 < count)
    (value : (n : ℚ) / d = count * 2 ^ unit) :
    max (floorLog2 n d - f.fractionBits) f.minExponent = unit := by
  have top : 0 < n := by
    refine Nat.pos_of_ne_zero fun zero => ?_
    have left : (0 : ℚ) < count * 2 ^ unit := mul_pos (Nat.cast_pos.mpr positive) (by positivity)
    simp [← value, zero] at left
  obtain ⟨lower, upper⟩ := floorLog2_bounds top bottom
  rw [value] at lower upper
  have hidden : (f.hiddenBit : ℚ) = 2 ^ (f.fractionBits : Int) := by
    rw [zpow_natCast, hiddenBit]
    exact_mod_cast rfl
  have lt : (count : ℚ) * 2 ^ unit < 2 ^ ((f.fractionBits : Int) + unit + 1) := by
    have below : (count : ℚ) < 2 * f.hiddenBit := by exact_mod_cast has.count_lt
    calc (count : ℚ) * 2 ^ unit < 2 * f.hiddenBit * 2 ^ unit := by gcongr
      _ = 2 ^ ((f.fractionBits : Int) + unit + 1) := by
        rw [hidden, zpow_add₀ two_ne_zero, zpow_add₀ two_ne_zero, zpow_one]
        ring
  rcases Nat.lt_or_ge count f.hiddenBit with subnormal | normal
  · have least := has.normal.resolve_left (Nat.not_le_of_lt subnormal)
    have log : floorLog2 n d < (f.fractionBits : Int) + unit + 1 :=
      (zpow_lt_zpow_iff_right₀ (one_lt_two (α := ℚ))).mp (lower.trans_lt lt)
    omega
  · have ge : (2 : ℚ) ^ ((f.fractionBits : Int) + unit) ≤ count * 2 ^ unit := by
      rw [zpow_add₀ two_ne_zero, ← hidden]
      have above : (f.hiddenBit : ℚ) ≤ count := by exact_mod_cast normal
      gcongr
    have log := exponent_unique lower upper ge lt
    have least := has.unit_ge
    omega

theorem units_eq (bottom : 0 < d) (value : (n : ℚ) / d = count * 2 ^ unit) :
    (if 0 ≤ unit then nearestNat n (d * 2 ^ unit.toNat)
      else nearestNat (n * 2 ^ (-unit).toNat) d) = count := by
  have positive : (d : ℚ) ≠ 0 := Nat.cast_ne_zero.mpr (Nat.ne_of_gt bottom)
  by_cases nonneg : 0 ≤ unit
  · have exact : n = count * (d * 2 ^ unit.toNat) := by
      rw [two_zpow_of_nonneg nonneg, div_eq_iff positive] at value
      have product : (n : ℚ) = (count * (d * 2 ^ unit.toNat) : Nat) := by
        rw [value]
        push_cast
        ring
      exact_mod_cast product
    rw [if_pos nonneg, exact, nearestNat_exact (Nat.mul_pos bottom (Nat.two_pow_pos _))]
  · have exact : n * 2 ^ (-unit).toNat = count * d := by
      have power : ((2 ^ (-unit).toNat : Nat) : ℚ) ≠ 0 :=
        Nat.cast_ne_zero.mpr (Nat.ne_of_gt (Nat.two_pow_pos _))
      rw [two_zpow_of_neg nonneg, div_eq_iff positive] at value
      have product : ((n * 2 ^ (-unit).toNat : Nat) : ℚ) = (count * d : Nat) := by
        rw [Nat.cast_mul, value, Nat.cast_mul]
        field_simp
      exact_mod_cast product
    rw [if_neg nonneg, exact, nearestNat_exact bottom]

/-- A quotient that the format has as a number is rounded to it. -/
theorem Has.nearest_eq (has : f.Has count unit) (bottom : 0 < d)
    (value : (n : ℚ) / d = count * 2 ^ unit) (negative : Bool) :
    f.nearest negative n d = Binary.signed f negative (f.pack count unit) := by
  rcases Nat.eq_zero_or_pos count with rfl | positive
  · have none : n = 0 := by
      have quotient : (n : ℚ) / d = 0 := by simpa using value
      have positive : (d : ℚ) ≠ 0 := Nat.cast_ne_zero.mpr (Nat.ne_of_gt bottom)
      exact_mod_cast (div_eq_zero_iff.mp quotient).resolve_right positive
    have least := has.normal.resolve_left (Nat.not_le_of_lt hiddenBit_pos)
    simp [nearest, none, pack, least, Binary.zero]
  · have some : n ≠ 0 := by
      rintro rfl
      have left : (0 : ℚ) < count * 2 ^ unit := mul_pos (Nat.cast_pos.mpr positive) (by positivity)
      simp [← value] at left
    have finite : min (f.pack count unit) (f.topExponent * f.hiddenBit) = f.pack count unit :=
      Nat.min_eq_left (Nat.le_of_lt has.finite)
    simp only [nearest, some, ↓reduceIte, has.unit_eq bottom positive value, units_eq bottom value]
    rw [← pack, finite]

theorem Has.nearestScaled_eq {given : Nat} {exponent : Int} (has : f.Has count unit)
    (value : (given : ℚ) * 2 ^ exponent = count * 2 ^ unit) (negative : Bool) :
    f.nearestScaled negative given exponent = Binary.signed f negative (f.pack count unit) := by
  by_cases nonneg : 0 ≤ exponent
  · have quotient : ((given * 2 ^ exponent.toNat : Nat) : ℚ) / (1 : Nat) = count * 2 ^ unit := by
      rw [← value, two_zpow_of_nonneg nonneg, Nat.cast_mul, Nat.cast_one, div_one]
    rw [nearestScaled, if_pos nonneg, has.nearest_eq Nat.one_pos quotient]
  · have quotient : (given : ℚ) / (2 ^ (-exponent).toNat : Nat) = count * 2 ^ unit := by
      rw [← value, two_zpow_of_neg nonneg, mul_one_div]
    rw [nearestScaled, if_neg nonneg, has.nearest_eq (Nat.two_pow_pos _) quotient]

end Format

namespace Binary

open Format

variable {f target : Format} {x : Binary f}

theorem not_special_of_finite (finite : x.isFinite = true) : x.isNaN = false ∧ x.isInfinite = false := by
  have field : x.exponentField ≠ f.topExponent := by simpa [isFinite] using finite
  simp [isNaN, isInfinite, field]

/-- A finite number converts to the number with its value, if the other format has one. -/
theorem convert_of_has {count : Nat} {unit : Int} (other : f ≠ target) (finite : x.isFinite = true)
    (has : target.Has count unit) (value : (x.mantissa : ℚ) * 2 ^ x.exponent = count * 2 ^ unit) :
    convert target x = signed target x.isNegative (target.pack count unit) := by
  obtain ⟨number, bounded⟩ := not_special_of_finite finite
  simp only [convert, other, ↓reduceDIte, number, bounded, Bool.false_eq_true, ↓reduceIte]
  exact has.nearestScaled_eq value _

section Infinite

theorem top_fits (f : Format) : f.topExponent * f.hiddenBit < f.hiddenBit * 2 ^ f.exponentBits := by
  rw [Nat.mul_comm]
  exact Nat.mul_lt_mul_of_pos_left topExponent_lt hiddenBit_pos

theorem eq_infinity (infinite : x.isInfinite = true) : x = infinity f x.isNegative := by
  simp only [isInfinite, Bool.and_eq_true, beq_iff_eq] at infinite
  have below : x.magnitude = f.topExponent * f.hiddenBit := by
    rw [magnitude_eq, infinite.1, infinite.2, Nat.add_zero]
  rw [infinity, ← below]
  exact x.eq_signed

theorem isInfinite_infinity (f : Format) (negative : Bool) : (infinity f negative).isInfinite = true := by
  have field : (infinity f negative).exponentField = f.topExponent := by
    rw [exponentField_eq, infinity, magnitude_signed (top_fits f), Nat.mul_div_cancel _ hiddenBit_pos]
  have fraction : (infinity f negative).fractionField = 0 := by
    rw [fractionField_eq, infinity, magnitude_signed (top_fits f), Nat.mul_mod_left]
  simp [isInfinite, field, fraction]

theorem isNegative_infinity (f : Format) (negative : Bool) :
    (infinity f negative).isNegative = negative := isNegative_signed (top_fits f)

theorem isNaN_of_isInfinite (infinite : x.isInfinite = true) : x.isNaN = false := by
  simp only [isInfinite, Bool.and_eq_true, beq_iff_eq] at infinite
  simp [isNaN, infinite.2]

theorem convert_infinity (other : f ≠ target) (negative : Bool) :
    convert target (infinity f negative) = infinity target negative := by
  have infinite := isInfinite_infinity f negative
  simp only [convert, other, ↓reduceDIte, isNaN_of_isInfinite infinite, Bool.false_eq_true, ↓reduceIte,
    infinite, isNegative_infinity]

end Infinite

section NaN

theorem isNaN_quieted (room : 0 < f.fractionBits) (special : x.exponentField = f.topExponent) :
    x.quieted.isNaN = true := by
  have half : f.hiddenBit / 2 = 2 ^ (f.fractionBits - 1) := Nat.pow_div room Nat.two_pos
  have small : f.hiddenBit / 2 < 2 ^ f.fractionBits := Nat.div_lt_self hiddenBit_pos one_lt_two
  have inside : f.hiddenBit / 2 < 2 ^ f.width :=
    small.trans_le (Nat.pow_le_pow_right Nat.two_pos (by simp only [width]; omega))
  have bits : x.quieted.toBits = x.toBits ||| f.hiddenBit / 2 := by
    rw [quieted, toBits, BitVec.toNat_or, BitVec.toNat_ofNat, Nat.mod_eq_of_lt inside, toBits]
  have above : (x.toBits ||| f.hiddenBit / 2) / 2 ^ f.fractionBits = x.toBits / 2 ^ f.fractionBits := by
    simp only [← Nat.shiftRight_eq_div_pow, Nat.shiftRight_or_distrib]
    rw [Nat.shiftRight_eq_div_pow (f.hiddenBit / 2), Nat.div_eq_of_lt small, Nat.or_zero]
  have below : (x.toBits ||| f.hiddenBit / 2) % 2 ^ f.fractionBits ≠ 0 := by
    rw [Nat.or_mod_two_pow, Nat.mod_eq_of_lt small, half]
    exact fun none => absurd (Nat.or_eq_zero_iff.mp none).2 (Nat.ne_of_gt (Nat.two_pow_pos _))
  have field : x.quieted.exponentField = f.topExponent := by
    rw [← special, exponentField, bits]
    exact congrArg (· % 2 ^ f.exponentBits) above
  have fraction : x.quieted.fractionField ≠ 0 := by
    rw [fractionField, bits]
    exact below
  simp [isNaN, field, fraction]

theorem exponentField_special (negative : Bool) {payload : Nat} (small : payload < f.hiddenBit) :
    (signed f negative (f.topExponent * f.hiddenBit + payload)).exponentField = f.topExponent := by
  have fits : f.topExponent * f.hiddenBit + payload < f.hiddenBit * 2 ^ f.exponentBits := by
    have top : f.topExponent < 2 ^ f.exponentBits := topExponent_lt
    have step := Nat.mul_le_mul_right f.hiddenBit (Nat.succ_le_of_lt top)
    rw [Nat.succ_mul] at step
    rw [Nat.mul_comm f.hiddenBit]
    omega
  rw [exponentField_eq, magnitude_signed fits, Nat.mul_comm, Nat.mul_add_div hiddenBit_pos,
    Nat.div_eq_of_lt small, Nat.add_zero]

/-- A NaN converts to a NaN. -/
theorem isNaN_convert (room : 0 < target.fractionBits) (nan : x.isNaN = true) :
    (convert target x).isNaN = true := by
  by_cases same : f = target
  · subst same
    simpa [convert] using nan
  · simp only [convert, same, ↓reduceDIte, nan, ↓reduceIte]
    refine isNaN_quieted room (exponentField_special _ ?_)
    have fraction : x.fractionField < 2 ^ f.fractionBits := x.fractionField_lt
    split
    · rename_i wider
      calc x.fractionField * 2 ^ (target.fractionBits - f.fractionBits)
          < 2 ^ f.fractionBits * 2 ^ (target.fractionBits - f.fractionBits) :=
            Nat.mul_lt_mul_of_pos_right fraction (Nat.two_pow_pos _)
        _ = target.hiddenBit := by rw [← Nat.pow_add, Nat.add_sub_cancel' wider, hiddenBit]
    · rename_i narrower
      refine Nat.div_lt_of_lt_mul ?_
      rw [hiddenBit, ← Nat.pow_add, Nat.sub_add_cancel (Nat.le_of_not_le narrower)]
      exact fraction

end NaN

theorem pack_lt_of_steps {count : Nat} {unit : Int} (small : count < 2 * f.hiddenBit)
    (steps : (unit - f.minExponent).toNat + 2 ≤ f.topExponent) :
    f.pack count unit < f.topExponent * f.hiddenBit := by
  have whole := Nat.mul_le_mul_right f.hiddenBit steps
  rw [Nat.add_mul] at whole
  rw [pack]
  omega

/-- A positive number shifted so that its first bit is at the place `top`. -/
theorem shifted_bounds {n top : Nat} (positive : 0 < n) (log : n.log2 ≤ top) :
    2 ^ top ≤ n * 2 ^ (top - n.log2) ∧ n * 2 ^ (top - n.log2) < 2 ^ (top + 1) := by
  have lower := Nat.log2_self_le (Nat.ne_of_gt positive)
  have upper : n < 2 ^ (n.log2 + 1) := Nat.lt_log2_self
  have power : 2 ^ n.log2 * 2 ^ (top - n.log2) = 2 ^ top := by
    rw [← Nat.pow_add, Nat.add_sub_cancel' log]
  constructor
  · rw [← power]
    exact Nat.mul_le_mul_right _ lower
  · have next : 2 ^ (n.log2 + 1) * 2 ^ (top - n.log2) = 2 ^ (top + 1) := by
      rw [Nat.pow_succ, Nat.mul_right_comm, power, ← Nat.pow_succ]
    rw [← next]
    exact Nat.mul_lt_mul_of_pos_right upper (Nat.two_pow_pos _)

/-- Every number of the single format is one of the double format. -/
theorem single_has_double {count : Nat} {unit : Int} (has : single.Has count unit) :
    ∃ (wide : Nat) (place : Int), double.Has wide place ∧
      (wide : ℚ) * 2 ^ place = count * 2 ^ unit := by
  rcases Nat.eq_zero_or_pos count with rfl | positive
  · exact ⟨0, double.minExponent, ⟨by decide, by decide, .inr rfl, by decide⟩, by simp⟩
  · have least : single.minExponent ≤ unit := has.unit_ge
    have small : count < 2 ^ 24 := has.count_lt
    have bounded : (unit - single.minExponent).toNat * 2 ^ 23 + count < 255 * 2 ^ 23 := has.finite
    have normal : 2 ^ 23 ≤ count ∨ unit = single.minExponent := has.normal
    have singleLeast : single.minExponent = -149 := by decide
    have doubleLeast : double.minExponent = -1074 := by decide
    rw [singleLeast] at least bounded normal
    have log : count.log2 < 24 := (Nat.log2_lt (Nat.ne_of_gt positive)).mpr small
    obtain ⟨wideLower, wideUpper⟩ := shifted_bounds positive (show count.log2 ≤ 52 by omega)
    refine ⟨count * 2 ^ (52 - count.log2), (count.log2 : Int) + unit - 52, ⟨?_, ?_, ?_, ?_⟩, ?_⟩
    · exact wideUpper
    · rw [doubleLeast]
      omega
    · exact .inl wideLower
    · have top : double.topExponent = 2047 := rfl
      refine pack_lt_of_steps wideUpper ?_
      rw [doubleLeast, top]
      omega
    · have shift : ((2 ^ (52 - count.log2) : Nat) : ℚ) = 2 ^ (52 - (count.log2 : Int)) := by
        have nonneg : 0 ≤ 52 - (count.log2 : Int) := by omega
        rw [two_zpow_of_nonneg nonneg]
        congr 2
        omega
      rw [Nat.cast_mul, shift, mul_assoc, ← zpow_add₀ two_ne_zero]
      congr 2
      omega

/-- A number of the single format that is taken to the double format and back is what it was. -/
theorem convert_single_double {x : Binary single} (number : x.isNaN = false) :
    convert single (convert double x) = x := by
  have widen : single ≠ double := by decide
  have narrow : double ≠ single := by decide
  by_cases finite : x.isFinite = true
  · have has := has_of_finite finite
    obtain ⟨wide, place, hasWide, value⟩ := single_has_double has
    rw [convert_of_has widen finite hasWide value.symm]
    have back : ((signed double x.isNegative (double.pack wide place)).mantissa : ℚ) *
        2 ^ (signed double x.isNegative (double.pack wide place)).exponent =
          x.mantissa * 2 ^ x.exponent := by
      rw [hasWide.mantissa_signed, hasWide.exponent_signed, value]
    rw [convert_of_has narrow hasWide.finite_signed has back, isNegative_signed hasWide.pack_lt,
      pack_of_finite]
    exact x.eq_signed.symm
  · have infinite : x.isInfinite = true := by
      simp only [isFinite, bne_iff_ne, ne_eq, not_not] at finite
      simpa [isNaN, isInfinite, finite] using number
    rw [eq_infinity infinite, convert_infinity widen, convert_infinity narrow]

end Binary

end Marshal
