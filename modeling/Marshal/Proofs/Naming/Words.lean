import Mathlib
import Marshal.Naming

namespace Marshal

namespace Text

variable {c : Char}

theorem isCapital_of_ascii (ascii : c.toNat < 128) : isCapital c = c.isUpper := if_pos ascii

theorem isSmall_of_ascii (ascii : c.toNat < 128) : isSmall c = c.isLower := if_pos ascii

theorem smallForm_of_ascii (ascii : c.toNat < 128) : smallForm c = [c.toLower] := if_pos ascii

theorem toNat_toLower_lt (ascii : c.toNat < 128) : c.toLower.toNat < 128 := by
  by_cases capital : c.isUpper
  · have small : c.toLower.isLower = true := by
      rw [Char.isLower_toLower_eq_isAlpha, Char.isAlpha, capital, Bool.true_or]
    simp only [Char.isLower, Bool.and_eq_true, decide_eq_true_eq] at small
    have above : c.toLower.toNat ≤ 'z'.toNat := small.2
    exact Nat.lt_of_le_of_lt above (by decide)
  · rwa [Char.toLower_eq_of_not_isUpper capital]

end Text

namespace Naming

/-- Whether a word starts at the character with this number: a capital after a small letter or a digit, or
between another capital and a small letter. -/
def wordStartsAt (chars : List Char) : Nat → Bool
  | 0 => false
  | i + 1 =>
    chars[i + 1]?.any Char.isUpper &&
      (chars[i]?.any (fun before => before.isLower || before.isDigit) ||
        (chars[i]?.any Char.isUpper && chars[i + 2]?.any Char.isLower))

/-- A character in small form, behind an underscore where it starts a word. -/
def spelled (starts : Bool) (c : Char) : List Char := if starts then ['_', c.toLower] else [c.toLower]

variable {chars : List Char} {b c : Char} {before : Option Char}

theorem wordStartsAt_cons (b : Char) (chars : List Char) (i : Nat) :
    wordStartsAt (b :: chars) (i + 2) = wordStartsAt chars (i + 1) := rfl

/-- A word starts between a letter or a digit and a capital. -/
theorem neighbours_of_wordStartsAt {i : Nat} (starts : wordStartsAt chars i = true) :
    ∃ j before here, i = j + 1 ∧ (chars[j]? = some before ∧ before.isAlphanum = true) ∧
      chars[i]? = some here ∧ here.isUpper = true := by
  cases i with
  | zero => cases starts
  | succ j =>
      simp only [wordStartsAt, Bool.and_eq_true, Bool.or_eq_true, Option.any_eq_true] at starts
      obtain ⟨⟨here, there, capital⟩, follows⟩ := starts
      refine ⟨j, ?_⟩
      rcases follows with ⟨before, found, small | digit⟩ | ⟨⟨before, found, upper⟩, _⟩
      · exact ⟨before, here, rfl, ⟨found, by simp [Char.isAlphanum, Char.isAlpha, small]⟩, there, capital⟩
      · exact ⟨before, here, rfl, ⟨found, by simp [Char.isAlphanum, digit]⟩, there, capital⟩
      · exact ⟨before, here, rfl, ⟨found, by simp [Char.isAlphanum, Char.isAlpha, upper]⟩, there, capital⟩

theorem snakeCharsAfter_cons (before : Option Char) (ascii : ∀ d ∈ c :: chars, d.toNat < 128) :
    snakeCharsAfter before (c :: chars) =
      spelled (c.isUpper && startsWord before chars.head?) c ++ snakeCharsAfter (some c) chars := by
  have here := ascii c List.mem_cons_self
  rw [snakeCharsAfter, Text.isCapital_of_ascii here, Text.smallForm_of_ascii here, spelled]
  cases capital : c.isUpper with
  | true => cases startsWord before chars.head? <;> rfl
  | false => simp [Char.toLower_eq_of_not_isUpper, capital]

theorem startsWord_eq_wordStartsAt (ascii : ∀ d ∈ b :: c :: chars, d.toNat < 128) :
    (c.isUpper && startsWord (some b) chars.head?) = wordStartsAt (b :: c :: chars) 1 := by
  simp only [List.forall_mem_cons] at ascii
  have next : chars.head?.any Text.isSmall = chars.head?.any Char.isLower := by
    cases chars with
    | nil => rfl
    | cons d rest => exact Text.isSmall_of_ascii (ascii.2.2 d List.mem_cons_self)
  rw [startsWord, Text.isSmall_of_ascii ascii.1, Text.isCapital_of_ascii ascii.1, next]
  simp [wordStartsAt, List.head?_eq_getElem?]

/-- After a first character the spelling goes by the places at which words start. -/
theorem snakeCharsAfter_eq (ascii : ∀ d ∈ b :: chars, d.toNat < 128) :
    snakeCharsAfter (some b) chars =
      (chars.mapIdx fun i c => spelled (wordStartsAt (b :: chars) (i + 1)) c).flatten := by
  induction chars generalizing b with
  | nil => rfl
  | cons c rest ih =>
      have later := (List.forall_mem_cons.mp ascii).2
      rw [snakeCharsAfter_cons (some b) later, startsWord_eq_wordStartsAt ascii, ih later, List.mapIdx_cons,
        List.flatten_cons]
      simp only [wordStartsAt_cons]

theorem snakeChars_eq (ascii : ∀ c ∈ chars, c.toNat < 128) :
    snakeCharsAfter none chars = (chars.mapIdx fun i c => spelled (wordStartsAt chars i) c).flatten := by
  cases chars with
  | nil => rfl
  | cons c rest =>
      -- Nothing comes before the first character, so no word starts there.
      rw [snakeCharsAfter_cons none ascii, startsWord, Bool.and_false, snakeCharsAfter_eq ascii,
        List.mapIdx_cons, List.flatten_cons]
      rfl

theorem isCapital_of_mem_snakeCharsAfter (ascii : ∀ c ∈ chars, c.toNat < 128) :
    ∀ d ∈ snakeCharsAfter before chars, Text.isCapital d = false := by
  induction chars generalizing before with
  | nil => exact nofun
  | cons c rest ih =>
      have small : Text.isCapital c.toLower = false := by
        rw [Text.isCapital_of_ascii (Text.toNat_toLower_lt (ascii c List.mem_cons_self)),
          Char.isUpper_toLower_eq_false]
      rw [snakeCharsAfter_cons before ascii, List.forall_mem_append]
      refine ⟨?_, ih (List.forall_mem_cons.mp ascii).2⟩
      rw [spelled]
      split
      · exact List.forall_mem_cons.mpr ⟨by decide, List.forall_mem_singleton.mpr small⟩
      · exact List.forall_mem_singleton.mpr small

theorem filter_snakeCharsAfter (ascii : ∀ c ∈ chars, c.toNat < 128) :
    (snakeCharsAfter before chars).filter (· ≠ '_') = (chars.map Char.toLower).filter (· ≠ '_') := by
  induction chars generalizing before with
  | nil => rfl
  | cons c rest ih =>
      -- Whether an underscore comes in front does not matter, since it is dropped.
      have here : ∀ starts, (spelled starts c).filter (· ≠ '_') = [c.toLower].filter (· ≠ '_') := by
        intro starts
        cases starts <;> simp [spelled]
      rw [snakeCharsAfter_cons before ascii, List.filter_append, here, ih (List.forall_mem_cons.mp ascii).2,
        List.map_cons, ← List.filter_append, List.singleton_append]

theorem snakeCharsAfter_of_small (small : ∀ c ∈ chars, Text.isCapital c = false) :
    snakeCharsAfter before chars = chars := by
  induction chars generalizing before with
  | nil => rfl
  | cons c rest ih =>
      rw [List.forall_mem_cons] at small
      rw [snakeCharsAfter, small.1, ih small.2]
      rfl

end Naming

open Naming

theorem toList_snakeCase (name : String) : (snakeCase name).toList = snakeCharsAfter none name.toList := by
  rw [snakeCase, String.toList_ofList]

theorem snakeCase_of_small {name : String} (small : ∀ c ∈ name.toList, Text.isCapital c = false) :
    snakeCase name = name := by
  rw [snakeCase, snakeCharsAfter_of_small small, String.ofList_toList]

/-- Snake case of a name in ASCII is exact.  It leaves no capital and writes the same letters in small form.
An underscore is added directly before a capital that starts a word, at each such place and nowhere else:
never at the start or beside an underscore of the name.  So a name stays as it is just when it has no
capitals, and spelling it twice changes nothing more. -/
theorem snakeCase_exact (name : String) (ascii : ∀ c ∈ name.toList, c.toNat < 128) :
    snakeCase (snakeCase name) = snakeCase name ∧
    (∀ c ∈ (snakeCase name).toList, Text.isCapital c = false) ∧
    (snakeCase name).toList.filter (· ≠ '_') = (name.toList.map Char.toLower).filter (· ≠ '_') ∧
    (snakeCase name).toList = (name.toList.mapIdx fun i c =>
      if wordStartsAt name.toList i then ['_', c.toLower] else [c.toLower]).flatten ∧
    (∀ i, wordStartsAt name.toList i = true → ∃ j, i = j + 1 ∧ name.toList[j]? ≠ some '_' ∧
      name.toList[i]? ≠ some '_') ∧
    (snakeCase name = name ↔ ∀ c ∈ name.toList, Text.isCapital c = false) := by
  have small : ∀ c ∈ (snakeCase name).toList, Text.isCapital c = false := by
    rw [toList_snakeCase]
    exact isCapital_of_mem_snakeCharsAfter ascii
  refine ⟨snakeCase_of_small small, small, ?_, ?_, fun i starts => ?_, fun same => ?_, snakeCase_of_small⟩
  · rw [toList_snakeCase, filter_snakeCharsAfter ascii]
  · rw [toList_snakeCase, snakeChars_eq ascii]
    rfl
  · obtain ⟨j, before, here, place, ⟨found, letter⟩, there, capital⟩ := neighbours_of_wordStartsAt starts
    refine ⟨j, place, ?_, ?_⟩
    · rw [found]
      rintro ⟨⟩
      cases letter
    · rw [there]
      rintro ⟨⟩
      cases capital
  · rwa [same] at small

/-- A run of capitals, an underscore of its own and a digit. -/
theorem snakeCase_exact_server :
    (∀ c ∈ "HTTPServer_2Go".toList, c.toNat < 128) ∧ snakeCase "HTTPServer_2Go" = "http_server_2_go" ∧
      snakeCase (snakeCase "HTTPServer_2Go") = "http_server_2_go" := by
  have ascii : ∀ c ∈ "HTTPServer_2Go".toList, c.toNat < 128 := by simp
  have spelling : snakeCase "HTTPServer_2Go" = "http_server_2_go" := by decide
  exact ⟨ascii, spelling, (snakeCase_exact "HTTPServer_2Go" ascii).1.trans spelling⟩

end Marshal
