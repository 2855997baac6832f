import Mathlib
import Marshal.Proofs.Ty.Matching
import Marshal.Proofs.Value.Depth
import Marshal.Proofs.Value.Entries
import Marshal.Proofs.Value.Shown

namespace Marshal

namespace Value

variable {v : Value} {path : Path}

/-- The part of a value that a path leads to. -/
def part? : Path → Value → Option Value
  | [], v => some v
  | .item index :: path, .seq items => items[index]?.bind (part? path)
  | .entry key :: path, .map entries => (Entries.get? entries key).bind (part? path)
  | _ :: _, _ => Option.none

/-- Each segment of the written path that names a key is that of exactly one entry of the mapping it leads
into. -/
def Path.NamesEntries (path : Path) (v : Value) : Prop :=
  ∀ before key after, path = before ++ Step.entry key :: after →
    ∃ entries value, part? before v = some (.map entries) ∧ (key, value) ∈ entries ∧
      ∀ other ∈ entries, entryPlace other.1 = entryPlace key → other = (key, value)

theorem entryPlace_injective : Function.Injective entryPlace := by
  intro j k same
  change "[" ++ j.text ++ "]" = "[" ++ k.text ++ "]" at same
  rw [String.append_left_inj, String.append_right_inj] at same
  exact Key.text_injective same

theorem entry_of_entryPlace {entries : List (Key × Value)} {key : Key} {value : Value}
    (distinct : (entries.map Prod.fst).Nodup) (member : (key, value) ∈ entries) {other : Key × Value}
    (there : other ∈ entries) (same : entryPlace other.1 = entryPlace key) : other = (key, value) := by
  obtain ⟨otherKey, otherValue⟩ := other
  obtain rfl : otherKey = key := entryPlace_injective same
  have first := Entries.get?_of_mem distinct member
  have second := Entries.get?_of_mem distinct there
  rw [Option.some.inj (second.symm.trans first)]

theorem Path.Leads.namesEntries (leads : path.Leads v) (distinct : v.Distinct) : path.NamesEntries v := by
  induction leads with
  | here v => exact fun before key after split => absurd split (by simp)
  | @item items index v path found leads ih =>
      have inner := itemsDistinct_iff.mp distinct v (List.mem_of_getElem? found)
      intro before key after split
      cases before with
      | nil => cases split
      | cons step before =>
          obtain ⟨rfl, rest⟩ := List.cons.inj split
          obtain ⟨entries, value, part, named⟩ := ih inner before key after rest
          exact ⟨entries, value, by rw [part?, found, Option.bind_some, part], named⟩
  | @entry entries k v path member leads ih =>
      obtain ⟨keys, values⟩ := distinct
      have inner := entriesDistinct_iff.mp values _ member
      intro before key after split
      cases before with
      -- The segment is that of an entry of this mapping, or one that lies deeper.
      | nil =>
          obtain ⟨same, rfl⟩ := List.cons.inj split
          cases same
          exact ⟨entries, v, rfl, member, fun other there => entry_of_entryPlace keys member there⟩
      | cons step before =>
          obtain ⟨rfl, rest⟩ := List.cons.inj split
          obtain ⟨deeper, value, part, named⟩ := ih inner before key after rest
          exact ⟨deeper, value, by rw [part?, Entries.get?_of_mem keys member, Option.bind_some, part], named⟩

end Value

open Value (Path Step)

namespace Ty

/-- What a type asks for is asked at parts of the value that there are. -/
theorem leads_of_mem_nodes (t : Ty) {v : Value} {node : Node} (member : node ∈ t.nodes v) :
    node.path.Leads v := by
  have top : ∀ {t : Ty} {v : Value} {node : Node}, node ∈ [Node.mk [] (.value t v)] → node.path.Leads v := by
    rintro t v _ (_ | ⟨_, ⟨⟩⟩)
    exact .here v
  induction t generalizing v node with
  | option item ih =>
      simp only [nodes] at member
      split at member
      · cases member
      · exact ih member
  | list item ih =>
      simp only [nodes, List.mem_cons] at member
      rcases member with rfl | member
      · exact .here v
      · split at member
        · obtain ⟨⟨part, index⟩, there, member⟩ := List.mem_flatMap.mp member
          obtain ⟨inner, given, rfl⟩ := List.mem_map.mp member
          exact .item (List.mem_zipIdx_iff_getElem?.mp there) (ih given)
        · cases member
  | pair first second firstIH secondIH =>
      simp only [nodes, List.mem_cons] at member
      rcases member with rfl | member
      · exact .here v
      · split at member
        · rcases List.mem_append.mp member with member | member
          · obtain ⟨inner, given, rfl⟩ := List.mem_map.mp member
            exact .item rfl (firstIH given)
          · obtain ⟨inner, given, rfl⟩ := List.mem_map.mp member
            exact .item rfl (secondIH given)
        · cases member
  | map kind key value ih =>
      simp only [nodes, List.mem_cons] at member
      rcases member with rfl | member
      · exact .here v
      · split at member
        · obtain ⟨⟨k, part⟩, there, member⟩ := List.mem_flatMap.mp member
          obtain ⟨inner, given, rfl⟩ := List.mem_map.mp member
          rcases List.mem_cons.mp given with rfl | given
          · exact .entry there (.here part)
          · exact .entry there (ih given)
        · cases member
  | _ => exact top member

end Ty

/-- Keys are identified by what is shown for them, and bytes by their escaped form.  So a conversion error
and a nesting error are located at a path on which each segment in brackets that shows a key names exactly
one entry of its mapping.  This is about one segment after the other: a text can hold brackets of its own. -/
theorem key_text_exact :
    (∀ j k : Key, j.text = k.text → j = k) ∧
    (∀ a b : List UInt8, bytesText a = bytesText b → a = b) ∧
    (∀ (t : Ty) (v : Value) (e : Error), v.Distinct → t.decode v = .error e →
      ∃ node ∈ t.nodes v, node.fits = false ∧ e = node.error ∧ node.path.NamesEntries v) ∧
    (∀ (limit : Nat) (v : Value) (e : Error), v.Distinct → v.checkDepth limit = .error e →
      ∃ path ∈ v.paths, path.length = limit + 1 ∧ e = .tooDeepAt limit path.text ∧ path.NamesEntries v) := by
  refine ⟨fun j k same => Key.text_injective same, fun a b same => bytesText_injective same, ?_, ?_⟩
  · intro t v e distinct failed
    obtain ⟨node, member, misfits, blamed⟩ := Ty.misfit_of_decode failed
    exact ⟨node, member, misfits, blamed, (t.leads_of_mem_nodes member).namesEntries distinct⟩
  · intro limit v e distinct refused
    obtain ⟨path, found⟩ := Value.exists_stop (Value.deep_of_checkDepth refused)
    have member : path ∈ v.paths := List.mem_of_find?_eq_some found
    obtain ⟨length, _⟩ := List.find?_eq_some_iff_append.mp found
    simp only [Nat.zero_add, decide_eq_true_eq] at length
    exact ⟨path, member, length, Except.error.inj (refused.symm.trans (Value.checkDepth_of_stop found)),
      (v.leads_of_mem_paths member).namesEntries distinct⟩

/-- Two strings and a number as keys, all of them written with the same digit. -/
def onesAsKeys : Value :=
  .seq [.map [(.str "1", .ofInt 1), (.str "'1'", .seq [.none]), (.int 1, .ofInt 1)]]

/-- Both errors are about the entry in the middle, for its value or for what is in it. -/
theorem key_text_exact_onesAsKeys :
    onesAsKeys.Distinct ∧
      (Ty.list (.map .byKey .text (.fixed .i64))).decode onesAsKeys =
        .error (.typeMismatch "int" "list" "[0][''1'']") ∧
      onesAsKeys.checkDepth 2 = .error (.tooDeepAt 2 "[0][''1''][0]") ∧
      (∃ node : Node, .typeMismatch "int" "list" "[0][''1'']" = node.error ∧
        node.path.NamesEntries onesAsKeys) ∧
      ∃ path : Path, path.length = 3 ∧ path.NamesEntries onesAsKeys := by
  have distinct : onesAsKeys.Distinct := ⟨⟨by decide, trivial, ⟨trivial, trivial⟩, trivial, trivial⟩, trivial⟩
  have failed : (Ty.list (.map .byKey .text (.fixed .i64))).decode onesAsKeys =
      .error (.typeMismatch "int" "list" "[0][''1'']") := by cbv
  have refused : onesAsKeys.checkDepth 2 = .error (.tooDeepAt 2 "[0][''1''][0]") := by cbv
  obtain ⟨node, _, _, blamed, named⟩ := key_text_exact.2.2.1 _ onesAsKeys _ distinct failed
  obtain ⟨path, _, length, _, inner⟩ := key_text_exact.2.2.2 2 onesAsKeys _ distinct refused
  exact ⟨distinct, failed, refused, ⟨node, blamed, named⟩, path, length, inner⟩

end Marshal
