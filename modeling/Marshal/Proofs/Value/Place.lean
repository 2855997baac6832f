import Mathlib
import Marshal.Value.Nesting

namespace Marshal

namespace Value

/-- One step into a container. -/
inductive Step
  | item (index : Nat)
  | entry (key : Key)
  deriving DecidableEq

def Step.text : Step → String
  | .item index => itemPlace index
  | .entry key => entryPlace key

/-- The way from a value to one of its parts, the outermost step first. -/
abbrev Path := List Step

def Path.text (path : Path) : String := String.join (path.map Step.text)

end Value

namespace Error

theorem joinLocation_of_bracket {segment location : String}
    (bracket : location = "" ∨ ∃ rest, location = "[" ++ rest) :
    joinLocation segment location = segment ++ location := by
  rcases bracket with rfl | ⟨rest, rfl⟩
  · simp [joinLocation]
  · have opens : ("[" ++ rest).startsWith "[" = true :=
      String.startsWith_string_iff.mpr (by simp)
    simp [joinLocation, opens]

end Error

open Value

namespace Value

theorem Step.text_bracket (step : Step) : ∃ rest, step.text = "[" ++ rest := by
  cases step with
  | item index => exact ⟨toString index ++ "]", String.append_assoc⟩
  | entry key => exact ⟨key.text ++ "]", String.append_assoc⟩

@[simp] theorem Path.text_nil : Path.text [] = "" := rfl

theorem Path.text_cons (step : Step) (path : Path) :
    Path.text (step :: path) = step.text ++ path.text := by
  simp [Path.text, String.join_cons]

theorem Path.text_bracket (path : Path) : path.text = "" ∨ ∃ rest, path.text = "[" ++ rest := by
  cases path with
  | nil => exact .inl rfl
  | cons step path =>
      obtain ⟨rest, opens⟩ := step.text_bracket
      exact .inr ⟨rest ++ Path.text path, by rw [text_cons, opens, String.append_assoc]⟩

/-- The parts of a value that there are, each with the path to it. -/
inductive Path.Leads : Path → Value → Prop
  | here (v : Value) : Leads [] v
  | item {items : List Value} {index : Nat} {v : Value} {path : Path} (found : items[index]? = some v)
      (leads : Leads path v) : Leads (.item index :: path) (.seq items)
  | entry {entries : List (Key × Value)} {key : Key} {v : Value} {path : Path}
      (member : (key, v) ∈ entries) (leads : Leads path v) : Leads (.entry key :: path) (.map entries)

mutual

/-- The paths to all parts of a value, from left to right, a container before what it holds. -/
def paths : Value → List Path
  | .seq items => [] :: itemPaths 0 items
  | .map entries => [] :: entryPaths entries
  | _ => [[]]

/-- The paths into the items of a sequence, counted from `index`. -/
def itemPaths (index : Nat) : List Value → List Path
  | [] => []
  | item :: rest => item.paths.map (List.cons (.item index)) ++ itemPaths (index + 1) rest

def entryPaths : List (Key × Value) → List Path
  | [] => []
  | (key, value) :: rest => value.paths.map (List.cons (.entry key)) ++ entryPaths rest

end

mutual

theorem leads_of_mem_paths {path : Path} : (v : Value) → path ∈ v.paths → path.Leads v
  | .seq items, member => by
      rcases List.mem_cons.mp member with here | inside
      · rw [here]
        exact .here _
      · obtain ⟨index, item, rest, found, leads, same⟩ := leads_of_mem_itemPaths items 0 inside
        rw [same, Nat.zero_add]
        exact .item found leads
  | .map entries, member => by
      rcases List.mem_cons.mp member with here | inside
      · rw [here]
        exact .here _
      · obtain ⟨key, value, rest, found, leads, same⟩ := leads_of_mem_entryPaths entries inside
        rw [same]
        exact .entry found leads
  | .none, member | .bool _, member | .int _ _, member | .float _ _, member | .complex _ _ _, member
  | .str _, member | .bytes _, member | .object _, member | .array _, member => by
      cases List.mem_singleton.mp member
      exact .here _

theorem leads_of_mem_itemPaths {path : Path} : (items : List Value) → (start : Nat) →
    path ∈ itemPaths start items → ∃ index item rest, items[index]? = some item ∧
      Path.Leads rest item ∧ path = .item (start + index) :: rest
  | item :: rest, start, member => by
      rcases List.mem_append.mp member with first | later
      · obtain ⟨inner, inside, same⟩ := List.mem_map.mp first
        exact ⟨0, item, inner, rfl, leads_of_mem_paths item inside, same.symm⟩
      · obtain ⟨index, other, inner, found, leads, same⟩ := leads_of_mem_itemPaths rest (start + 1) later
        exact ⟨index + 1, other, inner, found, leads, by rw [same, Nat.add_assoc, Nat.add_comm 1 index]⟩

theorem leads_of_mem_entryPaths {path : Path} : (entries : List (Key × Value)) →
    path ∈ entryPaths entries → ∃ key value rest, (key, value) ∈ entries ∧
      Path.Leads rest value ∧ path = .entry key :: rest
  | (key, value) :: rest, member => by
      rcases List.mem_append.mp member with first | later
      · obtain ⟨inner, inside, same⟩ := List.mem_map.mp first
        exact ⟨key, value, inner, List.mem_cons_self, leads_of_mem_paths value inside, same.symm⟩
      · obtain ⟨other, found, inner, there, leads, same⟩ := leads_of_mem_entryPaths rest later
        exact ⟨other, found, inner, List.mem_cons_of_mem _ there, leads, same⟩

end

end Value

namespace Error

/-- The place of an error moves one step out. -/
theorem within_typeMismatch (step : Step) (path : Path) (expected actual : String) :
    within step.text (.typeMismatch expected actual path.text) =
      .typeMismatch expected actual (Path.text (step :: path)) := by
  rw [within, joinLocation_of_bracket path.text_bracket, Path.text_cons]

theorem within_numericOverflow (step : Step) (path : Path) (value target : String) :
    within step.text (.numericOverflow value target path.text) =
      .numericOverflow value target (Path.text (step :: path)) := by
  rw [within, joinLocation_of_bracket path.text_bracket, Path.text_cons]

end Error

end Marshal
