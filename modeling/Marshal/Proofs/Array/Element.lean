import Mathlib
import Marshal.Array.Element

namespace Marshal

-- Powers with natural exponents are the core ones, whatever else is in scope.
attribute [local instance (2000)] instPowNat

theorem ofLittleEndian_toLittleEndian (count n : Nat) :
    ofLittleEndian (toLittleEndian count n) = n % 256 ^ count := by
  induction count generalizing n with
  | zero => simp [toLittleEndian, ofLittleEndian, Nat.mod_one]
  | succ count ih =>
      have digit : (UInt8.ofNat (n % 256)).toNat = n % 256 := by simp
      rw [toLittleEndian, ofLittleEndian, ih, digit, Nat.pow_succ', Nat.mod_mul]

theorem getElem?_toLittleEndian {count place : Nat} (below : place < count) (n : Nat) :
    (toLittleEndian count n)[place]? = some (UInt8.ofNat (n / 256 ^ place)) := by
  induction count generalizing place n with
  | zero => omega
  | succ count ih =>
      cases place with
      | zero =>
          have digit : UInt8.ofNat (n % 256) = UInt8.ofNat n := UInt8.ofNat_mod_size
          rw [toLittleEndian, List.getElem?_cons_zero, digit, Nat.pow_zero, Nat.div_one]
      | succ place =>
          rw [toLittleEndian, List.getElem?_cons_succ, ih (Nat.lt_of_succ_lt_succ below),
            Nat.div_div_eq_div_mul, Nat.pow_succ']

/-- The lower digits of a number are those of its residue. -/
theorem ediv_emod_ediv (n digit high : Int) {low : Int} (positive : 0 < low) :
    n % (low * (digit * high)) / low % digit = n / low % digit := by
  have parts : n = n % (low * (digit * high)) + low * (digit * (high * (n / (low * (digit * high))))) := by
    have divided := Int.emod_add_mul_ediv n (low * (digit * high))
    rw [Int.mul_assoc, Int.mul_assoc] at divided
    exact divided.symm
  have quotient : n / low =
    n % (low * (digit * high)) / low + digit * (high * (n / (low * (digit * high)))) :=
    (congrArg (· / low) parts).trans (Int.add_mul_ediv_left _ _ (Int.ne_of_gt positive))
  rw [quotient, Int.add_mul_emod_self_left]

namespace IntType

variable {t : IntType} {n m : Int}

theorem wrap_of_contains (inRange : t.contains n = true) : t.wrap n = n := by
  rw [contains_iff] at inRange
  revert inRange
  cases t <;>
    simp only [wrap, minimum, maximum, bits, bytes, isSigned, true_and, false_and, if_true, if_false,
      Bool.false_eq_true, Nat.reduceMul, Nat.reduceSub, Int.reducePow, Int.reduceNeg, Int.reduceSub] <;>
    (try split) <;> omega

theorem wrap_emod (t : IntType) (n : Int) : t.wrap n % 2 ^ t.bits = n % 2 ^ t.bits := by
  simp only [wrap]
  split
  · rw [Int.sub_emod_right, Int.emod_emod_of_dvd _ (Int.dvd_refl _)]
  · exact Int.emod_emod_of_dvd _ (Int.dvd_refl _)

theorem wrap_congr (same : n % 2 ^ t.bits = m % 2 ^ t.bits) : t.wrap n = t.wrap m := by
  simp only [wrap, same]

end IntType

namespace Fixed

variable {t : IntType}

theorem wrap_val (x : Fixed t) : wrap t x.val = x := by
  cases x
  simp [wrap, IntType.wrap_of_contains, *]

theorem wrap_congr {n m : Int} (same : n % 2 ^ t.bits = m % 2 ^ t.bits) : wrap t n = wrap t m := by
  simp only [wrap, IntType.wrap_congr same]

theorem add_wrap (x : Fixed t) (n : Int) : x + wrap t n = wrap t (x.val + n) :=
  wrap_congr (by rw [Int.add_emod, wrap, IntType.wrap_emod, ← Int.add_emod])

end Fixed

namespace ElementType

theorem read_write (type : ElementType) (x : type.Carrier) : type.read (type.write x) = x := by
  cases type with
  | int t =>
      have room : 256 ^ t.bytes = 2 ^ t.bits := by rw [IntType.bits, Nat.pow_mul]
      have positive : (0 : Int) < 2 ^ t.bits := Int.pow_pos (by decide)
      have residue := Int.emod_nonneg x.val (Int.ne_of_gt positive)
      rw [read, write, ofLittleEndian_toLittleEndian, room]
      have whole : (((x.val % 2 ^ t.bits).toNat % 2 ^ t.bits : Nat) : Int) = x.val % 2 ^ t.bits := by
        push_cast
        rw [Int.toNat_of_nonneg residue, Int.emod_emod_of_dvd _ (Int.dvd_refl _)]
      rw [whole, Fixed.wrap_congr (Int.emod_emod_of_dvd _ (Int.dvd_refl _)), Fixed.wrap_val]
  | float t =>
      have room : 256 ^ t.bytes = 2 ^ t.format.width := by cases t <;> rfl
      have small : x.toBits < 2 ^ t.format.width := x.bits.isLt
      rw [read, write, ofLittleEndian_toLittleEndian, room, Nat.mod_eq_of_lt small, Binary.ofBits,
        Binary.toBits, BitVec.ofNat_toNat, BitVec.setWidth_eq]

/-- A byte of two's complement is a digit of the number itself, below zero too. -/
theorem getElem?_write_int {t : IntType} {place : Nat} (below : place < t.bytes) (x : Fixed t) :
    ((int t).write x)[place]? = some (UInt8.ofInt (x.val / 256 ^ place)) := by
  obtain ⟨more, bytes⟩ : ∃ more, t.bytes = place + (more + 1) := ⟨t.bytes - place - 1, by omega⟩
  have width : (2 : Int) ^ t.bits = 256 ^ place * (2 ^ 8 * 256 ^ more) := by
    have byte : (2 : Int) ^ 8 = 256 := rfl
    rw [IntType.bits, Int.pow_mul, bytes, byte, Int.pow_add, Int.pow_succ']
  have residue : 0 ≤ x.val % 2 ^ t.bits := Int.emod_nonneg _ (Int.ne_of_gt (Int.pow_pos (by decide)))
  have digit : (((x.val % 2 ^ t.bits).toNat / 256 ^ place : Nat) : Int) =
    x.val % 2 ^ t.bits / 256 ^ place := by
    rw [Int.natCast_ediv, Int.toNat_of_nonneg residue]
    norm_num
  have same := ediv_emod_ediv x.val (2 ^ 8) (256 ^ more) (Int.pow_pos (by decide) : (0 : Int) < 256 ^ place)
  rw [write, getElem?_toLittleEndian below, UInt8.ofInt, ← same, ← width, ← digit]
  exact congrArg some (UInt8.ofNat_mod_size (x := (x.val % 2 ^ t.bits).toNat / 256 ^ place)).symm

end ElementType

end Marshal
