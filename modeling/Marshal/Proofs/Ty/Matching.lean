import Mathlib
import Marshal.Proofs.Value.Place
import Marshal.Ty.Convert

/-!
# What converts

`Ty.Matches` says which values a native type takes.  Where a value does not match, the parts at which
something is asked for are gone through in their order, a container before what it holds and the key of
an entry before its value: the conversion fails with the error of the first part that does not fit by
itself, located at the path to it.
-/

namespace Marshal

open Value (Path Step)

namespace KeyTy

/-- The keys that a key type takes. -/
def Matches : KeyTy → Key → Prop
  | .bool, .bool _ => True
  | .int t, .int n => t.type.contains n = true
  | .text, .str _ => True
  | _, _ => False

def wanted : KeyTy → String
  | .bool => "bool"
  | .int _ => "int"
  | .text => "str"

end KeyTy

namespace Ty

/-- The values that a native type takes. -/
def Matches : Ty → Value → Prop
  | .unit, .none => True
  | .bool, .bool _ => True
  | .int t, .int n _ => t.type.contains n = true
  | .float _, .float _ _ => True
  | .complex _, .complex _ _ _ | .complex _, .float _ _ | .complex _, .int _ _ => True
  | .text, .str _ => True
  | .bytes, .bytes _ => True
  | .any, _ => True
  | .object, .object _ => True
  | .array, .array _ => True
  | .option item, v => v = .none ∨ item.Matches v
  | .list item, .seq items => ∀ v ∈ items, item.Matches v
  | .pair first second, .seq [a, b] => first.Matches a ∧ second.Matches b
  | .map _ key value, .map entries => ∀ entry ∈ entries, key.Matches entry.1 ∧ value.Matches entry.2
  | _, _ => False

/-- What a type asks for, as errors name it. -/
def wanted : Ty → String
  | .unit => "None"
  | .bool => "bool"
  | .int _ => "int"
  | .float _ => "float"
  | .complex _ => "complex"
  | .text => "str"
  | .bytes => "bytes"
  | .any => "Any"
  | .object => "object"
  | .array => "ndarray"
  | .option item => item.wanted
  | .list _ => "list"
  | .pair _ _ => "sequence of length 2"
  | .map _ _ _ => "dict"

end Ty

/-- Something asked for at one part of a value. -/
inductive Demand
  | value (type : Ty) (v : Value)
  | key (type : KeyTy) (key : Key)

namespace Demand

/-- Whether a part is of the right kind, whatever it holds. -/
def fits : Demand → Bool
  | .value .unit .none => true
  | .value .bool (.bool _) => true
  | .value (.int t) (.int n _) => t.type.contains n
  | .value (.float _) (.float _ _) => true
  | .value (.complex _) (.complex _ _ _) | .value (.complex _) (.float _ _)
  | .value (.complex _) (.int _ _) => true
  | .value .text (.str _) => true
  | .value .bytes (.bytes _) => true
  | .value .any _ => true
  | .value .object (.object _) => true
  | .value .array (.array _) => true
  | .value (.list _) (.seq _) => true
  | .value (.pair _ _) (.seq [_, _]) => true
  | .value (.map _ _ _) (.map _) => true
  | .key .bool (.bool _) => true
  | .key (.int t) (.int n) => t.type.contains n
  | .key .text (.str _) => true
  | _ => false

/-- The integer and the type that is too small for it, where an integer was asked for and given. -/
def integer? : Demand → Option (Int × NativeInt)
  | .value (.int t) (.int n _) | .key (.int t) (.int n) => some (n, t)
  | _ => none

def wanted : Demand → String
  | .value t _ => t.wanted
  | .key t _ => t.wanted

def given : Demand → String
  | .value _ v => v.typeName
  | .key _ k => k.typeName

/-- The error of a part that does not fit by itself. -/
def error (demand : Demand) (path : Path) : Error :=
  match demand.integer? with
  | some (n, t) => .numericOverflow (toString n) t.name path.text
  | none => .typeMismatch demand.wanted demand.given path.text

end Demand

/-- A part of a value, the way to it, and what is asked for there. -/
structure Node where
  path : Path
  demand : Demand

namespace Node

def fits (node : Node) : Bool := node.demand.fits

def error (node : Node) : Error := node.demand.error node.path

/-- The same part, seen from one step further out. -/
def under (step : Step) (node : Node) : Node := { node with path := step :: node.path }

@[simp] theorem fits_under (step : Step) (node : Node) : (node.under step).fits = node.fits := rfl

theorem error_under (step : Step) (node : Node) :
    (node.under step).error = node.error.within step.text := by
  simp only [error, under, Demand.error]
  cases node.demand.integer? with
  | none => exact (Error.within_typeMismatch step node.path _ _).symm
  | some overflow => exact (Error.within_numericOverflow step node.path _ _).symm

end Node

/-- The first part that does not fit by itself. -/
def Node.misfit? (nodes : List Node) : Option Node := nodes.find? fun node => !node.fits

namespace Ty

/-- The parts of a value at which a type asks for something, a container before what it holds and a key
before its value.  An optional type asks for nothing where there is no value. -/
def nodes : Ty → Value → List Node
  | .option item, v => if v.isNone then [] else item.nodes v
  | .list item, v =>
    ⟨[], .value (.list item) v⟩ ::
      match v with
      | .seq items => items.zipIdx.flatMap fun (v, i) => (item.nodes v).map (Node.under (.item i))
      | _ => []
  | .pair first second, v =>
    ⟨[], .value (.pair first second) v⟩ ::
      match v with
      | .seq [a, b] =>
        (first.nodes a).map (Node.under (.item 0)) ++ (second.nodes b).map (Node.under (.item 1))
      | _ => []
  | .map kind key value, v =>
    ⟨[], .value (.map kind key value) v⟩ ::
      match v with
      | .map entries => entries.flatMap fun (k, v) =>
          (⟨[], .key key k⟩ :: value.nodes v).map (Node.under (.entry k))
      | _ => []
  | t, v => [⟨[], .value t v⟩]

end Ty

namespace Node

theorem iff_of_misfit {p : Prop} {node : Node} {rest : List Node} (unmatched : ¬ p)
    (misfits : node.fits = false) : p ↔ ∀ other ∈ node :: rest, other.fits = true :=
  iff_of_false unmatched fun fits => by simp [misfits] at fits

theorem misfit?_cons_of_fits {node : Node} {rest : List Node} (fits : node.fits = true) :
    misfit? (node :: rest) = misfit? rest := by
  simp [misfit?, fits]

theorem misfit?_cons_of_not {node : Node} {rest : List Node} (misfits : node.fits = false) :
    misfit? (node :: rest) = some node := by
  simp [misfit?, misfits]

theorem misfit?_append (first rest : List Node) :
    misfit? (first ++ rest) = (misfit? first).or (misfit? rest) := by
  simp [misfit?, List.find?_append]

theorem misfit?_map_under (step : Step) (nodes : List Node) :
    misfit? (nodes.map (under step)) = (misfit? nodes).map (under step) := by
  simp [misfit?, List.find?_map, Function.comp_def]

theorem misfit?_eq_none {nodes : List Node} :
    misfit? nodes = none ↔ ∀ node ∈ nodes, node.fits = true := by
  simp [misfit?]

end Node

/-- A conversion goes as the parts of what is converted say: it gives a value, or fails with the error of
the first part that does not fit. -/
def Node.Decides {α : Type} (nodes : List Node) (result : Except Error α) : Prop :=
  match Node.misfit? nodes with
  | none => ∃ x, result = .ok x
  | some node => result = .error node.error

namespace Node.Decides

variable {α β γ : Type} {first rest : List Node} {a : Except Error α} {b : Except Error β}

theorem under (step : Step) (decides : Decides first a) :
    Decides (first.map (Node.under step)) (a.mapError (Error.within step.text)) := by
  simp only [Decides, misfit?_map_under] at decides ⊢
  cases found : misfit? first with
  | none =>
      simp only [found] at decides
      obtain ⟨x, rfl⟩ := decides
      exact ⟨x, rfl⟩
  | some node =>
      simp only [found] at decides
      subst decides
      simp only [Option.map_some, error_under]
      rfl

theorem bind (decides : Decides first a) (further : Decides rest b) (join : α → β → γ) :
    Decides (first ++ rest) (do return join (← a) (← b)) := by
  simp only [Decides, misfit?_append] at decides further ⊢
  cases found : misfit? first with
  | some node =>
      simp only [found] at decides
      subst decides
      rfl
  | none =>
      simp only [found] at decides
      obtain ⟨x, rfl⟩ := decides
      simp only [Option.none_or]
      split at further
      · obtain ⟨y, rfl⟩ := further
        exact ⟨join x y, rfl⟩
      · subst further
        rfl

theorem map (decides : Decides first a) (f : α → β) : Decides first (a.map f) := by
  simp only [Decides] at decides ⊢
  split at decides
  · obtain ⟨x, rfl⟩ := decides
    exact ⟨f x, rfl⟩
  · subst decides
    rfl

theorem of_fits {demand : Demand} (fits : demand.fits = true) (decides : Decides rest a) :
    Decides (⟨[], demand⟩ :: rest) a := by
  have here : (Node.mk [] demand).demand.fits = true := fits
  rwa [Decides, misfit?_cons_of_fits here]

theorem of_not {demand : Demand} (misfits : demand.fits = false) (failed : a = .error (demand.error [])) :
    Decides (⟨[], demand⟩ :: rest) a := by
  have here : (Node.mk [] demand).demand.fits = false := misfits
  rw [Decides, misfit?_cons_of_not here]
  exact failed

theorem returned (x : α) : Decides [] (.ok x) := ⟨x, rfl⟩

end Node.Decides

open Node (Decides)

theorem NativeInt.decode_of_contains {t : NativeInt} {n : Int} (inRange : t.type.contains n = true) :
    t.decode n = .ok ⟨n, inRange⟩ := by
  simp [decode, Fixed.ofInt?, inRange]

theorem NativeInt.decode_of_not {t : NativeInt} {n : Int} (outside : t.type.contains n = false) :
    t.decode n = .error (.overflow n t.name) := by
  simp [decode, Fixed.ofInt?, outside]

namespace KeyTy

theorem matches_iff_fits (k : KeyTy) (key : Key) :
    k.Matches key ↔ (Demand.key k key).fits = true := by
  cases k <;> cases key <;> simp [Matches, Demand.fits]

theorem decode_decides (k : KeyTy) (key : Key) : Decides [⟨[], .key k key⟩] (k.decode key) := by
  cases k with
  | int t =>
      cases key with
      | int n =>
          cases inRange : t.type.contains n with
          | true => exact .of_fits inRange ⟨_, NativeInt.decode_of_contains inRange⟩
          | false => exact .of_not inRange (NativeInt.decode_of_not inRange)
      | _ => exact .of_not rfl rfl
  | bool =>
      cases key with
      | bool b => exact .of_fits rfl (.returned b)
      | _ => exact .of_not rfl rfl
  | text =>
      cases key with
      | str s => exact .of_fits rfl (.returned s)
      | _ => exact .of_not rfl rfl

end KeyTy

section Containers

variable {t : Ty} (each : ∀ v, Decides (t.nodes v) (t.decode v))

include each

theorem decodeItems_decides (items : List Value) (index : Nat) :
    Decides ((items.zipIdx index).flatMap fun (v, i) => (t.nodes v).map (Node.under (.item i)))
      (decodeItems t.decode index items) := by
  induction items generalizing index with
  | nil => exact .returned []
  | cons v rest ih =>
      have step : decodeItems t.decode index (v :: rest) =
          (do return (← (t.decode v).mapError (Error.within (Value.itemPlace index))) ::
            (← decodeItems t.decode (index + 1) rest)) := by
        simp only [decodeItems]
        cases t.decode v <;> cases decodeItems t.decode (index + 1) rest <;> rfl
      rw [step, List.zipIdx_cons, List.flatMap_cons]
      exact ((each v).under (.item index)).bind (ih (index + 1)) List.cons

theorem decodeEntries_decides (k : KeyTy) (entries : List (Key × Value)) :
    Decides
      (entries.flatMap fun (key, v) => (⟨[], .key k key⟩ :: t.nodes v).map (Node.under (.entry key)))
      (decodeEntries k t.decode entries) := by
  induction entries with
  | nil => exact .returned []
  | cons entry rest ih =>
      obtain ⟨key, v⟩ := entry
      have step : decodeEntries k t.decode ((key, v) :: rest) =
          (do return (← ((do return (← k.decode key, ← t.decode v)) : Except Error _).mapError
            (Error.within (Value.entryPlace key))) :: (← decodeEntries k t.decode rest)) := by
        simp only [decodeEntries]
        cases k.decode key <;> cases t.decode v <;> cases decodeEntries k t.decode rest <;> rfl
      rw [step, List.flatMap_cons]
      exact (((k.decode_decides key).bind (each v) Prod.mk).under (.entry key)).bind ih List.cons

end Containers

namespace Ty

/-- The conversion to a native type goes as the parts of the value say. -/
theorem decode_decides (t : Ty) : ∀ v, Decides (t.nodes v) (t.decode v) := by
  induction t with
  | unit =>
      intro v
      cases v with
      | none => exact .of_fits rfl (.returned ())
      | _ => exact .of_not rfl rfl
  | bool =>
      intro v
      cases v with
      | bool b => exact .of_fits rfl (.returned b)
      | _ => exact .of_not rfl rfl
  | int t =>
      intro v
      cases v with
      | int n tag =>
          cases inRange : t.type.contains n with
          | true => exact .of_fits inRange ⟨_, NativeInt.decode_of_contains inRange⟩
          | false => exact .of_not inRange (NativeInt.decode_of_not inRange)
      | _ => exact .of_not rfl rfl
  | float t =>
      intro v
      cases v with
      | float x width => exact .of_fits rfl (.returned _)
      | _ => exact .of_not rfl rfl
  | complex part =>
      intro v
      cases v with
      | complex re im width => exact .of_fits rfl (.returned _)
      | float x width => exact .of_fits rfl (.returned _)
      | int n tag => exact .of_fits rfl (.returned _)
      | _ => exact .of_not rfl rfl
  | text =>
      intro v
      cases v with
      | str s => exact .of_fits rfl (.returned s)
      | _ => exact .of_not rfl rfl
  | bytes =>
      intro v
      cases v with
      | bytes b => exact .of_fits rfl (.returned b)
      | _ => exact .of_not rfl rfl
  | any => exact fun v => .of_fits rfl (.returned v)
  | object =>
      intro v
      cases v with
      | object handle => exact .of_fits rfl (.returned handle)
      | _ => exact .of_not rfl rfl
  | array =>
      intro v
      cases v with
      | array view => exact .of_fits rfl (.returned view)
      | _ => exact .of_not rfl rfl
  | option item ih =>
      intro v
      cases v with
      | none => exact .returned Option.none
      | _ => exact (ih _).map some
  | list item ih =>
      intro v
      cases v with
      | seq items => exact .of_fits rfl (decodeItems_decides ih items 0)
      | _ => exact .of_not rfl rfl
  | pair first second firstIH secondIH =>
      intro v
      cases v with
      | seq items =>
          rcases items with _ | ⟨a, _ | ⟨b, _ | ⟨c, rest⟩⟩⟩
          · exact .of_not rfl rfl
          · exact .of_not rfl rfl
          · have step : (pair first second).decode (.seq [a, b]) =
                (do return (← (first.decode a).mapError (Error.within (Value.itemPlace 0)),
                  ← (second.decode b).mapError (Error.within (Value.itemPlace 1)))) := by
              simp only [decode]
              cases first.decode a <;> cases second.decode b <;> rfl
            rw [step]
            exact .of_fits rfl (((firstIH a).under (.item 0)).bind ((secondIH b).under (.item 1)) Prod.mk)
          · exact .of_not rfl rfl
      | _ => exact .of_not rfl rfl
  | map kind key value ih =>
      intro v
      cases v with
      | map entries =>
          have step : (map kind key value).decode (.map entries) =
              (decodeEntries key value.decode entries).map (kind.collect key) := by
            simp only [decode]
            cases decodeEntries key value.decode entries <;> rfl
          rw [step]
          exact .of_fits rfl ((decodeEntries_decides ih key entries).map _)
      | _ => exact .of_not rfl rfl

/-- A conversion fails with the error of a part that does not fit. -/
theorem misfit_of_decode {t : Ty} {v : Value} {e : Error} (failed : t.decode v = .error e) :
    ∃ node ∈ t.nodes v, node.fits = false ∧ e = node.error := by
  have decides := t.decode_decides v
  simp only [Node.Decides] at decides
  split at decides
  · obtain ⟨x, decoded⟩ := decides
    cases failed.symm.trans decoded
  · rename_i node found
    have misfits : (!node.fits) = true := List.find?_some (p := fun node : Node => !node.fits) found
    exact ⟨node, List.mem_of_find?_eq_some found, by simpa using misfits,
      Except.error.inj (failed.symm.trans decides)⟩

/-- A value matches a type just when all its parts fit. -/
theorem matches_iff_fits (t : Ty) : ∀ v, t.Matches v ↔ ∀ node ∈ t.nodes v, node.fits = true := by
  induction t with
  | option item ih =>
      intro v
      cases v with
      | none => simp [Matches, nodes, Value.isNone]
      | _ => exact (or_iff_right nofun).trans (ih _)
  | list item ih =>
      intro v
      cases v with
      | seq items =>
          have parts : ∀ index, (∀ v ∈ items, item.Matches v) ↔
              ∀ node ∈ (items.zipIdx index).flatMap fun (v, i) =>
                (item.nodes v).map (Node.under (.item i)), node.fits = true := by
            induction items with
            | nil => simp
            | cons v rest restIH =>
                intro index
                simp only [List.zipIdx_cons, List.flatMap_cons, List.forall_mem_cons,
                  List.forall_mem_append, List.forall_mem_map, Node.fits_under, ih v, restIH (index + 1)]
          simp only [Matches, nodes, List.forall_mem_cons, parts 0]
          exact (and_iff_right rfl).symm
      | _ => exact Node.iff_of_misfit not_false rfl
  | pair first second firstIH secondIH =>
      intro v
      cases v with
      | seq items =>
          rcases items with _ | ⟨a, _ | ⟨b, _ | ⟨c, rest⟩⟩⟩
          · exact Node.iff_of_misfit not_false rfl
          · exact Node.iff_of_misfit not_false rfl
          · simp only [Matches, nodes, List.forall_mem_cons, List.forall_mem_append, List.forall_mem_map,
              Node.fits_under, firstIH a, secondIH b]
            exact (and_iff_right rfl).symm
          · exact Node.iff_of_misfit not_false rfl
      | _ => exact Node.iff_of_misfit not_false rfl
  | map kind key value ih =>
      intro v
      cases v with
      | map entries =>
          simp only [Matches, nodes, List.forall_mem_cons, List.forall_mem_flatMap, List.forall_mem_map,
            Node.fits_under, key.matches_iff_fits, ih]
          exact (and_iff_right rfl).symm
      | _ => exact Node.iff_of_misfit not_false rfl
  | _ =>
      intro v
      refine Iff.trans ?_ List.forall_mem_singleton.symm
      cases v <;> first
        | exact Iff.rfl
        | exact iff_of_true trivial rfl
        | exact iff_of_false not_false Bool.false_ne_true

/-- Conversion is exact.  A value converts just when it matches the type.  Otherwise the first part that
does not fit by itself gives the error: where an integer was asked for and given it is too large or too
small, anywhere else it is of the wrong kind, and the location is the path to that part. -/
theorem decode_exact (t : Ty) (v : Value) :
    ((∃ x, t.decode v = .ok x) ↔ t.Matches v) ∧
    (¬ t.Matches v → ∃ earlier node later,
      t.nodes v = earlier ++ node :: later ∧ (∀ other ∈ earlier, other.fits = true) ∧
        node.fits = false ∧
        t.decode v = .error
          (match node.demand.integer? with
            | some (n, target) => .numericOverflow (toString n) target.name node.path.text
            | none => .typeMismatch node.demand.wanted node.demand.given node.path.text)) := by
  have decides := t.decode_decides v
  simp only [Decides] at decides
  cases found : Node.misfit? (t.nodes v) with
  | none =>
      simp only [found] at decides
      have matched := (t.matches_iff_fits v).mpr (Node.misfit?_eq_none.mp found)
      exact ⟨iff_of_true decides matched, fun unmatched => absurd matched unmatched⟩
  | some node =>
      simp only [found] at decides
      obtain ⟨misfits, earlier, later, parts, fits⟩ := List.find?_eq_some_iff_append.mp found
      have unmatched : ¬ t.Matches v := fun matched => by
        have fitsToo := (t.matches_iff_fits v).mp matched node (by simp [parts])
        simp [fitsToo] at misfits
      refine ⟨iff_of_false ?_ unmatched, fun _ => ⟨earlier, node, later, parts, ?_, ?_, decides⟩⟩
      · rintro ⟨x, decoded⟩
        cases decides.symm.trans decoded
      · simpa using fits
      · simpa using misfits

/-- A mapping of lists in which an item is too large for a byte. -/
def tooLarge : Value := .map [(.str "a", .seq [.ofInt 1, .ofInt 300, .none])]

theorem decode_exact_tooLarge :
    ¬ (map .byKey .text (list (fixed .i8))).Matches tooLarge ∧
      (map .byKey .text (list (fixed .i8))).decode tooLarge =
        .error (.numericOverflow "300" "i8" "['a'][1]") := by
  have failed : (map .byKey .text (list (fixed .i8))).decode tooLarge =
      .error (.numericOverflow "300" "i8" "['a'][1]") := by cbv
  refine ⟨fun matched => ?_, failed⟩
  obtain ⟨x, decoded⟩ := (decode_exact _ tooLarge).1.mpr matched
  cases failed.symm.trans decoded

end Ty

end Marshal
