import Mathlib
import Marshal.Binary.Format

/-!
# Bit patterns of binary numbers

A pattern is its sign and its magnitude, the bits below the sign.  The magnitude holds a finite number in
one form: as a count of units that either has the hidden bit set or counts the smallest unit.
-/

namespace Marshal

-- Powers with natural exponents are the core ones, whatever else is in scope.
attribute [local instance (2000)] instPowNat

namespace Format

variable {f : Format}

theorem hiddenBit_pos : 0 < f.hiddenBit := Nat.two_pow_pos _

theorem two_pow_width : 2 ^ (f.width - 1) = f.hiddenBit * 2 ^ f.exponentBits := by
  rw [hiddenBit, ← Nat.pow_add]
  rfl

theorem topExponent_lt : f.topExponent < 2 ^ f.exponentBits :=
  Nat.sub_lt (Nat.two_pow_pos _) Nat.one_pos

/-- The magnitude of `count` units of `2 ^ unit`. -/
def pack (f : Format) (count : Nat) (unit : Int) : Nat :=
  (unit - f.minExponent).toNat * f.hiddenBit + count

/-- The format has `count * 2 ^ unit` in this form: with the hidden bit, unless the unit is the smallest. -/
structure Has (f : Format) (count : Nat) (unit : Int) : Prop where
  count_lt : count < 2 * f.hiddenBit
  unit_ge : f.minExponent ≤ unit
  normal : f.hiddenBit ≤ count ∨ unit = f.minExponent
  finite : f.pack count unit < f.topExponent * f.hiddenBit

end Format

namespace Binary

open Format

variable {f : Format} (x : Binary f)

/-- The bits below the sign. -/
def magnitude : Nat := x.toBits % 2 ^ (f.width - 1)

theorem exponentField_eq : x.exponentField = x.magnitude / f.hiddenBit := by
  rw [magnitude, two_pow_width, Nat.mod_mul_right_div_self, exponentField]

theorem fractionField_eq : x.fractionField = x.magnitude % f.hiddenBit := by
  rw [magnitude, two_pow_width, Nat.mod_mul_right_mod, fractionField]

theorem magnitude_eq : x.magnitude = x.exponentField * f.hiddenBit + x.fractionField := by
  rw [exponentField_eq, fractionField_eq, Nat.mul_comm, Nat.div_add_mod]

theorem fractionField_lt : x.fractionField < f.hiddenBit := Nat.mod_lt _ hiddenBit_pos

theorem exponentField_le : x.exponentField ≤ f.topExponent :=
  Nat.le_sub_one_of_lt (Nat.mod_lt _ (Nat.two_pow_pos _))

theorem two_pow_width_double : 2 ^ f.width = 2 ^ (f.width - 1) + 2 ^ (f.width - 1) := by
  have split : f.width = f.width - 1 + 1 := rfl
  rw [split, Nat.pow_succ]
  simp only [Nat.add_sub_cancel]
  omega

theorem eq_signed : x = signed f x.isNegative x.magnitude := by
  have whole : x.toBits < 2 ^ f.width := x.bits.isLt
  have top : x.isNegative = decide (2 ^ (f.width - 1) ≤ x.toBits) := BitVec.msb_eq_decide _
  have bits : x.magnitude + (if x.isNegative then 2 ^ (f.width - 1) else 0) = x.toBits := by
    rw [top, magnitude]
    have double := two_pow_width_double (f := f)
    by_cases negative : 2 ^ (f.width - 1) ≤ x.toBits
    · have rest : x.toBits - 2 ^ (f.width - 1) < 2 ^ (f.width - 1) := by omega
      simp only [negative, decide_true, ↓reduceIte]
      rw [Nat.mod_eq_sub_mod negative, Nat.mod_eq_of_lt rest]
      omega
    · simp only [negative, decide_false, Bool.false_eq_true, ↓reduceIte]
      rw [Nat.mod_eq_of_lt (Nat.lt_of_not_le negative), Nat.add_zero]
  rw [signed, ofBits, bits, toBits, BitVec.ofNat_toNat, BitVec.setWidth_eq]

section Signed

variable {negative : Bool} {below : Nat} (fits : below < f.hiddenBit * 2 ^ f.exponentBits)

include fits

theorem toBits_signed : (signed f negative below).toBits =
    below + if negative then 2 ^ (f.width - 1) else 0 := by
  have double := two_pow_width_double (f := f)
  rw [← two_pow_width] at fits
  refine Nat.mod_eq_of_lt ?_
  split <;> omega

theorem isNegative_signed : (signed f negative below).isNegative = negative := by
  have top : (signed f negative below).isNegative =
      decide (2 ^ (f.width - 1) ≤ (signed f negative below).toBits) := BitVec.msb_eq_decide _
  rw [top, toBits_signed fits]
  rw [← two_pow_width] at fits
  cases negative with
  | false => simpa using fits
  | true => simp

theorem magnitude_signed : (signed f negative below).magnitude = below := by
  rw [magnitude, toBits_signed fits]
  rw [← two_pow_width] at fits
  cases negative with
  | false => simpa using Nat.mod_eq_of_lt fits
  | true => simpa using Nat.mod_eq_of_lt fits

end Signed

section Finite

variable {x}

theorem magnitude_lt_of_finite (finite : x.isFinite = true) :
    x.magnitude < f.topExponent * f.hiddenBit := by
  have below : x.exponentField < f.topExponent :=
    Nat.lt_of_le_of_ne x.exponentField_le (by simpa [isFinite] using finite)
  have step := Nat.mul_le_mul_right f.hiddenBit below
  have rest := x.fractionField_lt
  rw [Nat.succ_mul] at step
  rw [magnitude_eq]
  omega

theorem pack_of_finite : f.pack x.mantissa x.exponent = x.magnitude := by
  have units : (x.exponent - f.minExponent).toNat = x.exponentField - 1 := by
    simp only [exponent]
    omega
  rw [pack, units, mantissa, magnitude_eq]
  by_cases least : x.exponentField = 0
  · simp [least]
  · obtain ⟨field, same⟩ := Nat.exists_eq_succ_of_ne_zero least
    simp only [same, Nat.succ_ne_zero, ↓reduceIte, Nat.succ_sub_one, Nat.succ_mul]
    omega

theorem has_of_finite (finite : x.isFinite = true) : f.Has x.mantissa x.exponent where
  count_lt := by
    have rest := x.fractionField_lt
    rw [mantissa]
    split <;> omega
  unit_ge := by
    simp only [exponent]
    omega
  normal := by
    by_cases least : x.exponentField = 0
    · exact .inr (by simp [exponent, least])
    · exact .inl (by simp [mantissa, least])
  finite := by
    rw [pack_of_finite]
    exact magnitude_lt_of_finite finite

end Finite

end Binary

namespace Format.Has

open Binary

variable {f : Format} {count : Nat} {unit : Int} {negative : Bool} (has : f.Has count unit)

include has

theorem pack_lt : f.pack count unit < f.hiddenBit * 2 ^ f.exponentBits := by
  refine Nat.lt_of_lt_of_le has.finite ?_
  rw [Nat.mul_comm]
  exact Nat.mul_le_mul_left _ (Nat.le_of_lt topExponent_lt)

theorem fields : ∃ field rest, f.pack count unit = field * f.hiddenBit + rest ∧ rest < f.hiddenBit ∧
    (if field = 0 then rest else f.hiddenBit + rest) = count ∧
    f.minExponent + (field - 1 : Nat) = unit := by
  have ge := has.unit_ge
  have lt := has.count_lt
  by_cases normal : f.hiddenBit ≤ count
  · refine ⟨(unit - f.minExponent).toNat + 1, count - f.hiddenBit, ?_, by omega, ?_, ?_⟩
    · rw [pack, Nat.succ_mul]
      omega
    · simp only [Nat.add_eq_zero_iff, Nat.one_ne_zero, and_false, ↓reduceIte]
      omega
    · simp only [Nat.add_sub_cancel]
      omega
  · have least := has.normal.resolve_left normal
    refine ⟨0, count, ?_, Nat.lt_of_not_le normal, by simp, by simp [least]⟩
    simp [pack, least]

variable (negative) in
theorem signed_fields : ∃ field rest,
    (signed f negative (f.pack count unit)).exponentField = field ∧
    (signed f negative (f.pack count unit)).fractionField = rest ∧
    (if field = 0 then rest else f.hiddenBit + rest) = count ∧
    f.minExponent + (field - 1 : Nat) = unit ∧ field < f.topExponent := by
  obtain ⟨field, rest, packed, small, mantissa, exponent⟩ := has.fields
  refine ⟨field, rest, ?_, ?_, mantissa, exponent, ?_⟩
  · rw [exponentField_eq, magnitude_signed has.pack_lt, packed, Nat.mul_comm,
      Nat.mul_add_div hiddenBit_pos, Nat.div_eq_of_lt small, Nat.add_zero]
  · rw [fractionField_eq, magnitude_signed has.pack_lt, packed, Nat.mul_comm, Nat.mul_add_mod,
      Nat.mod_eq_of_lt small]
  · have finite := has.finite
    rw [packed] at finite
    exact Nat.lt_of_mul_lt_mul_right (Nat.lt_of_le_of_lt (Nat.le_add_right _ _) finite)

theorem mantissa_signed : (signed f negative (f.pack count unit)).mantissa = count := by
  obtain ⟨field, rest, rfl, rfl, mantissa, _⟩ := has.signed_fields negative
  exact mantissa

theorem exponent_signed : (signed f negative (f.pack count unit)).exponent = unit := by
  obtain ⟨field, rest, rfl, rfl, _, exponent, _⟩ := has.signed_fields negative
  exact exponent

theorem finite_signed : (signed f negative (f.pack count unit)).isFinite = true := by
  obtain ⟨field, rest, rfl, rfl, _, _, finite⟩ := has.signed_fields negative
  simpa [isFinite] using Nat.ne_of_lt finite

end Format.Has

end Marshal
