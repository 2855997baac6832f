import Mathlib
import Marshal.Proofs.Naming.Respelled
import Marshal.Proofs.Value.Entries
import Marshal.Proofs.World.Oblivious

/-!
# Counterparts of a world

Two worlds are counterparts when they hold the same instances and the same memory and their classes have the
same members, in the second world under the names that a vocabulary gives.  What was logged may differ.
-/

namespace Marshal

open Act hiding pure bind

variable {σ α β : Type}

section Definitions

variable (V : Vocabulary) (same : Fidelity → Program σ → Program σ → Prop)

/-- A class and the class of the same number in the second world. -/
structure ClassDef.Counterpart (classId : Nat) (c d : ClassDef (Program σ)) : Prop where
  name : d.name = c.name
  instanceType : d.instanceType = c.instanceType
  catchPanics : d.catchPanics = c.catchPanics
  maxDepth : d.maxDepth = c.maxDepth
  kept : V.renamed? classId = none → d.naming = c.naming
  renamed : (V.renamed? classId).isSome → c.naming = .asDeclared ∧ d.naming = .snakeCase
  methods : Entries.Renamed (V.style classId).apply (V.names classId).methods
    (MethodBinding.Counterpart V same classId) c.methods d.methods
  properties : Entries.Renamed (V.style classId).apply (V.names classId).properties
    (fun _ => Property.Counterpart same (V.fidelity classId)) c.properties d.properties

structure World.Counterpart (w v : World σ) : Prop where
  others : v = w.veiled v.classes v.journal
  classes : ∀ classId, Option.Rel (ClassDef.Counterpart V same classId) (w.class? classId) (v.class? classId)

end Definitions

theorem rel_map {R : α → β → Prop} {γ δ : Type} {S : γ → δ → Prop} {f : α → γ} {g : β → δ} {found : Option α}
    {twin : Option β} (alike : Option.Rel R found twin) (kept : ∀ a b, R a b → S (f a) (g b)) :
    Option.Rel S (found.map f) (twin.map g) := by
  cases alike with
  | none => exact .none
  | some alike => exact .some (kept _ _ alike)

theorem eq_of_rel {found twin : Option α} (alike : Option.Rel Eq found twin) : found = twin := by
  cases alike with
  | none => rfl
  | some same => rw [same]

variable {V : Vocabulary} {same : Fidelity → Program σ → Program σ → Prop} {w v : World σ}

theorem MethodBinding.Counterpart.defaults {classId : Nat} {name : String} {m n : MethodBinding (Program σ)}
    (counterpart : m.Counterpart V same classId name n) : n.defaults = m.defaults := by
  rw [MethodBinding.defaults, MethodBinding.defaults, counterpart.params, List.filterMap_map]
  rfl

/-- What the methods of a class fall back on. -/
def ClassDef.defaults (c : ClassDef (Program σ)) : List Value :=
  c.methods.flatMap fun (_, method) => method.defaults

theorem ClassDef.Counterpart.defaults {classId : Nat} {c d : ClassDef (Program σ)}
    (counterpart : c.Counterpart V same classId d) : d.defaults = c.defaults :=
  counterpart.methods.flatMap fun _ _ _ alike => alike.defaults

namespace World.Counterpart

variable (related : w.Counterpart V same v)

include related

theorem cells : v.cells = w.cells := by rw [related.others]; rfl

theorem buffers : v.buffers = w.buffers := by rw [related.others]; rfl

theorem cell? (handle : Handle) : v.cell? handle = w.cell? handle := by
  rw [World.cell?, World.cell?, related.cells]

/-- Changes outside the classes that are made in both worlds. -/
theorem of_veiled {first last : World σ} (noted : List Event) (here : first.classes = w.classes)
    (there : last = first.veiled v.classes noted) : first.Counterpart V same last where
  others := by rw [there]; rfl
  classes classId := by
    have paired := related.classes classId
    rw [World.class?, World.class?, here, there]
    exact paired

theorem change {f : World σ → World σ}
    (oblivious : ∀ (w : World σ) classes journal, f (w.veiled classes journal) = (f w).veiled classes journal)
    (kept : (f w).classes = w.classes) : (f w).Counterpart V same (f v) := by
  refine related.of_veiled v.journal kept ?_
  rw [related.others]
  exact oblivious w _ _

theorem setCell (handle : Handle) (f : Cell σ → Cell σ) :
    (w.setCell handle f).Counterpart V same (v.setCell handle f) :=
  related.change (f := fun w => w.setCell handle f) (fun _ _ _ => rfl) rfl

theorem setBuffer (buffer : Nat) (f : Buffer → Buffer) :
    (w.setBuffer buffer f).Counterpart V same (v.setBuffer buffer f) :=
  related.change (f := fun w => w.setBuffer buffer f) (fun _ _ _ => rfl) rfl

theorem log (event other : Event) : World.Counterpart V same { w with journal := event :: w.journal }
    { v with journal := other :: v.journal } := by
  refine related.of_veiled (other :: v.journal) rfl ?_
  rw [related.others]
  rfl

theorem className? (classId : Nat) :
    (v.class? classId).map ClassDef.name = (w.class? classId).map ClassDef.name :=
  (eq_of_rel (rel_map (related.classes classId) fun _ _ counterpart => counterpart.name.symm)).symm

theorem setClass {f g : ClassDef (Program σ) → ClassDef (Program σ)} {classId : Nat}
    (kept : ∀ c d, ClassDef.Counterpart V same classId c d →
      ClassDef.Counterpart V same classId (f c) (g d)) :
    (w.setClass classId f).Counterpart V same (v.setClass classId g) where
  others := by
    rw [related.others]
    rfl
  classes other := by
    rw [World.class?_setClass, World.class?_setClass]
    by_cases here : classId = other
    · subst here
      rw [if_pos rfl, if_pos rfl]
      exact rel_map (related.classes classId) kept
    · rw [if_neg here, if_neg here]
      exact related.classes other

theorem keptValues : v.keptValues = w.keptValues := by
  have defaults : v.classes.map ClassDef.defaults = w.classes.map ClassDef.defaults := by
    refine List.ext_getElem? fun classId => ?_
    rw [List.getElem?_map, List.getElem?_map]
    have same := rel_map (related.classes classId) fun _ _ counterpart => counterpart.defaults.symm
    exact (eq_of_rel same).symm
  have kept : v.kept = w.kept := by rw [related.others]; rfl
  change v.kept.map Prod.snd ++ v.classes.flatMap ClassDef.defaults =
    w.kept.map Prod.snd ++ w.classes.flatMap ClassDef.defaults
  rw [kept, List.flatMap_def, List.flatMap_def, defaults]

theorem isKept (handle : Handle) : v.isKept handle = w.isKept handle := by
  rw [World.isKept, World.isKept, related.keptValues]

end World.Counterpart

section Acts

variable {E : Error → Error → Prop} {R : α → β → Prop}

/-- An action that does not look at classes does the same in both worlds. -/
theorem Act.Oblivious.agree {act : Act σ α} (oblivious : act.Oblivious) (reflexive : ∀ e, E e e) :
    Agree (World.Counterpart V same) E Eq act act := by
  intro w v related
  obtain ⟨noted, paired⟩ := oblivious w v.classes v.journal
  rw [← related.others] at paired
  rw [paired]
  refine ⟨?_, related.of_veiled noted (oblivious.classes w) rfl⟩
  rcases (act w).1 with a | e | payload | _
  · exact .returned rfl
  · exact .failed (reflexive e)
  · exact .panicked payload
  · exact .exhausted

theorem agree_log (event other : Event) : Agree (World.Counterpart V same) E Eq (log event) (log other) :=
  agree_modify fun _ _ related => related.log event other

namespace ArrayView

variable (view : ArrayView)

end ArrayView

end Acts

namespace Frame

variable (frame : Frame)

end Frame

end Marshal
