import Mathlib
import Marshal.Text.Hex
import Marshal.Value.Text

namespace Marshal

namespace Text

theorem toList_hexByte (b : UInt8) :
    (hexByte b).toList = [Nat.digitChar (b.toNat / 16), Nat.digitChar (b.toNat % 16)] := by
  have bound : b.toNat < 256 := b.toNat_lt
  rw [hexByte, hexDigits, String.toList_append, String.toList_ofList]
  by_cases single : b < 16
  · have below : b.toNat < 16 := single
    rw [if_pos single, Nat.toDigits_of_lt_base below, Nat.div_eq_of_lt below, Nat.mod_eq_of_lt below]
    rfl
  · have above : 16 ≤ b.toNat := Nat.le_of_not_lt single
    have high : b.toNat / 16 < 16 := by omega
    rw [if_neg single, Nat.toDigits_of_base_le (by decide) above, Nat.toDigits_of_lt_base high]
    rfl

theorem hexValue?_digitChar : ∀ digit < 16, hexValue? (Nat.digitChar digit) = some digit := by decide

end Text

/-- Reads back one byte from the start of a text, and gives the rest of it. -/
def readByte? : List Char → Option (UInt8 × List Char)
  | '\\' :: 'x' :: high :: low :: rest => do
    let high ← Text.hexValue? high
    let low ← Text.hexValue? low
    return (UInt8.ofNat (16 * high + low), rest)
  | '\\' :: c :: rest | c :: rest => some (UInt8.ofNat c.toNat, rest)
  | [] => none

theorem readByte?_of_plain {c : Char} (plain : c ≠ '\\') (rest : List Char) :
    readByte? (c :: rest) = some (UInt8.ofNat c.toNat, rest) := by
  unfold readByte?
  split <;> simp_all

/-- A byte can be read back from its escape, whatever text follows. -/
theorem readByte?_byteText (b : UInt8) (rest : List Char) :
    readByte? ((byteText b).toList ++ rest) = some (b, rest) := by
  have bound : b.toNat < 256 := b.toNat_lt
  rw [byteText]
  split_ifs with backslash quote printable
  · rw [backslash]
    rfl
  · rw [quote]
    rfl
  · have same : (Char.ofNat b.toNat).toNat = b.toNat := by
      rw [Char.toNat_ofNat, if_pos (.inl (by omega))]
    -- A backslash would be read as the start of an escape, but it is never written as it is.
    have plain : Char.ofNat b.toNat ≠ '\\' := by
      intro escape
      rw [escape] at same
      exact backslash (UInt8.toNat_inj.mp same.symm)
    rw [Char.toString_eq_singleton, String.toList_singleton, List.singleton_append,
      readByte?_of_plain plain, same, UInt8.ofNat_toNat]
  · have high : b.toNat / 16 < 16 := by omega
    have low : b.toNat % 16 < 16 := by omega
    have digits : 16 * (b.toNat / 16) + b.toNat % 16 = b.toNat := Nat.div_add_mod _ _
    rw [String.toList_append, Text.toList_hexByte]
    change (do
      let high ← Text.hexValue? (Nat.digitChar (b.toNat / 16))
      let low ← Text.hexValue? (Nat.digitChar (b.toNat % 16))
      return (UInt8.ofNat (16 * high + low), rest)) = some (b, rest)
    rw [Text.hexValue?_digitChar _ high, Text.hexValue?_digitChar _ low]
    change some (UInt8.ofNat (16 * (b.toNat / 16) + b.toNat % 16), rest) = some (b, rest)
    rw [digits, UInt8.ofNat_toNat]

/-- No escape is the beginning of another, so the first byte of a text is known, and what follows it. -/
theorem readByte?_escapes (b : UInt8) (bytes : List UInt8) :
    readByte? (String.join ((b :: bytes).map byteText)).toList =
      some (b, (String.join (bytes.map byteText)).toList) := by
  rw [List.map_cons, String.join_cons, String.toList_append, readByte?_byteText]

theorem bytesText_injective : Function.Injective bytesText := by
  intro a b same
  simp only [bytesText, String.append_left_inj, String.append_right_inj] at same
  induction a generalizing b with
  | nil =>
      cases b with
      | nil => rfl
      | cons y b =>
          have first := readByte?_escapes y b
          rw [← same] at first
          cases first
  | cons x a ih =>
      have first := readByte?_escapes x a
      rw [same] at first
      cases b with
      | nil => cases first
      | cons y b =>
          rw [readByte?_escapes, Option.some.injEq, Prod.mk.injEq, String.toList_inj] at first
          rw [first.1, ih first.2.symm]

theorem strText_injective : Function.Injective strText := by
  intro s t same
  simpa only [strText, String.append_left_inj, String.append_right_inj] using same

theorem boolText_injective : Function.Injective boolText := by decide

namespace Key

/-- The type of the key that a text shows. -/
def typeNameOf (text : String) : String :=
  match text.toList.head? with
  | some 'T' | some 'F' => "bool"
  | some '\'' => "str"
  | some 'b' => "bytes"
  | _ => "int"

theorem typeNameOf_digits (n : Nat) : typeNameOf n.repr = "int" := by
  rw [typeNameOf, Nat.repr_eq_ofList_toDigits, String.toList_ofList]
  cases written : Nat.toDigits 10 n with
  | nil => rfl
  | cons c rest =>
      -- No digit is a character that the text of another kind begins with.
      have digit : c.isDigit = true :=
        Nat.isDigit_of_mem_toDigits (by decide) (Nat.le_refl 10) (written ▸ List.mem_cons_self)
      rw [List.head?_cons]
      split <;> simp_all

theorem typeNameOf_text (key : Key) : typeNameOf key.text = key.typeName := by
  cases key with
  | bool b => cases b <;> rfl
  | int n =>
      rw [text, Int.toString_eq_repr, Int.repr_eq_if]
      split
      · exact typeNameOf_digits _
      · simp [typeNameOf, typeName]
  | str s => simp [text, strText, typeNameOf, typeName]
  | bytes b => simp [text, bytesText, typeNameOf, typeName]

theorem text_injective : Function.Injective Key.text := by
  intro j k same
  have types : j.typeName = k.typeName := by rw [← typeNameOf_text, same, typeNameOf_text]
  cases j with
  | bool a =>
      cases k with
      | bool b => rw [boolText_injective same]
      | _ => simp [typeName] at types
  | int m =>
      cases k with
      | int n => rw [Int.repr_injective same]
      | _ => simp [typeName] at types
  | str s =>
      cases k with
      | str t => rw [strText_injective same]
      | _ => simp [typeName] at types
  | bytes a =>
      cases k with
      | bytes b => rw [bytesText_injective same]
      | _ => simp [typeName] at types

end Key

end Marshal
