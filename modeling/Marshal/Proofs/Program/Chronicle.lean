import Mathlib
import Marshal.Proofs.Program.Trail

/-!
# What a class takes in a run

A class takes a method when it is defined for the class and its receiver has the native type of the
class; nothing else that happens in a run changes a class.  At every moment of a run a class is the one
that it was in the beginning with the methods that it has taken by then.
-/

namespace Marshal

open World
open Act hiding pure bind

variable {σ : Type}

theorem World.class?_of_classes {w after : World σ} (same : after.classes = w.classes) (id : Nat) :
    after.class? id = w.class? id := congrArg (fun classes => classes[id]?) same

namespace Act

theorem returned_dropHandle (handle : Handle) (w : World σ) :
    ∃ after, dropHandle handle w = (.returned (), after) ∧ after.classes = w.classes := by
  rw [dropHandle, read_bind_apply, id]
  cases w.isKept handle with
  | true => rcases w.cell? handle with _ | ⟨_, _, _ | _, _, _ | _⟩ <;> exact ⟨_, rfl, rfl⟩
  | false => rcases w.cell? handle with _ | ⟨_, _, _ | _, _, _ | _⟩ <;> exact ⟨_, rfl, rfl⟩

/-- Dropping a value succeeds, and no class changes. -/
theorem returned_drop (value : Value) (w : World σ) :
    ∃ after, drop value w = (.returned (), after) ∧ after.classes = w.classes := by
  rw [drop]
  induction Handle.lastOccurrences value.handles generalizing w with
  | nil => exact ⟨w, rfl, rfl⟩
  | cons handle rest ih =>
      obtain ⟨middle, dropped, first⟩ := returned_dropHandle handle w
      obtain ⟨after, others, later⟩ := ih middle
      exact ⟨after, (bind_of_returned dropped).trans others, later.trans first⟩

end Act

namespace ClassDef

variable {π : Type} (c : ClassDef π)

/-- The class with one more method, under the name that it has in the class. -/
def take (m : MethodBinding π) : ClassDef π := c.addMethod (m.rename c.naming)

/-- The class after it took methods one after the other. -/
def taking (taken : List (MethodBinding π)) : ClassDef π := taken.foldl take c

@[simp] theorem taking_nil : c.taking [] = c := rfl

theorem taking_append (taken later : List (MethodBinding π)) :
    c.taking (taken ++ later) = (c.taking taken).taking later := List.foldl_append

/-- Taking methods changes nothing else of a class. -/
theorem taking_same {α : Type} {f : ClassDef π → α} (same : ∀ c m, f (addMethod c m) = f c)
    (taken : List (MethodBinding π)) : f (c.taking taken) = f c := by
  induction taken generalizing c with
  | nil => rfl
  | cons m rest ih => exact (ih (c.take m)).trans (same c _)

variable {w : World σ} {classId : Nat} {known : ClassDef (Program σ)} {m : MethodBinding (Program σ)}

theorem define_of_unknown (unknown : w.class? classId = none) : define classId m w = (.returned (), w) := by
  simp only [define, read_bind_apply, unknown, pure_apply]

theorem define_of_foreign (found : w.class? classId = some known)
    (foreign : m.receiver ≠ known.instanceType) :
    define classId m w = (.failed (.mismatch known.name m.receiver), w) := by
  simp only [define, read_bind_apply, found, ne_eq, foreign, not_false_eq_true, ↓reduceIte, fail_bind,
    fail_apply]

theorem define_of_own (found : w.class? classId = some known) (own : m.receiver = known.instanceType) :
    ∃ after, define classId m w = (.returned (), after) ∧
      after.classes = (w.setClass classId fun c => c.take m).classes := by
  have same : w.classes.modify classId (fun c => c.addMethod (m.rename known.naming)) =
      w.classes.modify classId fun c => c.take m := modify_congr found rfl
  rw [setClass, ← same]
  simp only [define, read_bind_apply, found, ne_eq, own, not_true_eq_false, ↓reduceIte,
    log_bind_apply, modify_bind_apply]
  cases known.method? (m.rename known.naming).name with
  | some old =>
      exact returned_drop (.seq old.defaults) _
  | none => exact ⟨_, rfl, rfl⟩

/-- Defining a method changes the class that it is defined for, if the class takes it, and no other. -/
theorem class?_define (classId id : Nat) (m : MethodBinding (Program σ)) (w : World σ) :
    (define classId m w).2.class? id =
      (w.class? id).map fun c => if classId = id ∧ m.receiver = c.instanceType then c.take m else c := by
  cases found : w.class? classId with
  | none =>
      rw [define_of_unknown found]
      by_cases here : classId = id
      · subst here
        rw [found, Option.map_none]
      · simp only [here, false_and, ↓reduceIte, Option.map_id']
  | some known =>
      by_cases own : m.receiver = known.instanceType
      · obtain ⟨after, defined, classes⟩ := define_of_own found own
        rw [defined, class?, classes, ← class?, class?_setClass]
        by_cases here : classId = id
        · subst here
          simp only [found, Option.map_some, own, and_self, ↓reduceIte]
        · simp only [here, false_and, ↓reduceIte, Option.map_id']
      · rw [define_of_foreign found own]
        by_cases here : classId = id
        · subst here
          simp only [found, Option.map_some, own, and_false, ↓reduceIte]
        · simp only [here, false_and, ↓reduceIte, Option.map_id']

end ClassDef

namespace Moment

/-- The method that a class is about to take, as it was declared. -/
def taken? (id : Nat) (m : Moment σ) : Option (MethodBinding (Program σ)) :=
  match m.asked? with
  | some (.defineMethod classId b) =>
    (m.world.class? id).bind fun c => if classId = id ∧ b.receiver = c.instanceType then some b else none
  | _ => none

/-- The class after what happens at this moment. -/
def classAfter? (id : Nat) (m : Moment σ) : Option (ClassDef (Program σ)) :=
  (m.world.class? id).map (ClassDef.taking · (m.taken? id).toList)

theorem classAfter?_of_quiet {id : Nat} {m : Moment σ} (quiet : m.taken? id = none) :
    m.classAfter? id = m.world.class? id := by
  simp only [classAfter?, quiet, Option.toList_none, ClassDef.taking_nil, Option.map_id']

end Moment

/-- The methods that a class takes at some moments, in the order of time. -/
def taken (id : Nat) (ms : List (Moment σ)) : List (MethodBinding (Program σ)) :=
  ms.filterMap (Moment.taken? id)

/-- Moments along which a class changes only by what it takes, from the class before the first to that after
the last. -/
inductive Chronicle (id : Nat) :
    Option (ClassDef (Program σ)) → List (Moment σ) → Option (ClassDef (Program σ)) → Prop
  | nil (now : Option (ClassDef (Program σ))) : Chronicle id now [] now
  | cons {m : Moment σ} {rest : List (Moment σ)} {last : Option (ClassDef (Program σ))}
      (further : Chronicle id (m.classAfter? id) rest last) :
      Chronicle id (m.world.class? id) (m :: rest) last

namespace Chronicle

variable {id : Nat} {first last : Option (ClassDef (Program σ))} {m : Moment σ}
    {ms before rest : List (Moment σ)}

/-- In the end the class is the one of the beginning with what it has taken. -/
theorem class_last (chronicle : Chronicle id first ms last) :
    last = first.map (ClassDef.taking · (taken id ms)) := by
  induction chronicle with
  | nil now => simp only [taken, List.filterMap_nil, ClassDef.taking_nil, Option.map_id']
  | @cons m rest last further ih =>
      have first : taken id (m :: rest) = (m.taken? id).toList ++ taken id rest := by
        cases here : m.taken? id <;> simp [taken, here]
      rw [ih, Moment.classAfter?, Option.map_map, first]
      exact congrArg (fun f => Option.map f (m.world.class? id))
        (funext fun c => (c.taking_append _ _).symm)

theorem upTo (chronicle : Chronicle id first (before ++ m :: rest) last) :
    Chronicle id first before (m.world.class? id) := by
  induction before generalizing first with
  | nil =>
      cases chronicle with
      | cons further => exact .nil _
  | cons earlier before ih =>
      cases chronicle with
      | cons further => exact .cons (ih further)

/-- At each moment the class is the one of the beginning with what it has taken by then. -/
theorem class_at (chronicle : Chronicle id first (before ++ m :: rest) last) :
    m.world.class? id = first.map (ClassDef.taking · (taken id before)) :=
  chronicle.upTo.class_last

end Chronicle

section Runs

variable [NativeState σ] {id : Nat}

/-- A request that cannot enter native code does to a class what its moment says. -/
theorem Request.class?_serve {asked : Request σ (Program σ)} {run : Runner σ} {w : World σ}
    {holds : List Hold} (unprepared : asked.prepare? = none) :
    (asked.serve run w).2.class? id =
      ({ world := w, holds, asked? := some asked } : Moment σ).classAfter? id := by
  have quiet : ∀ asked : Request σ (Program σ), (asked.serve run w).2.classes = w.classes →
      ({ world := w, holds, asked? := some asked } : Moment σ).taken? id = none →
      (asked.serve run w).2.class? id =
        ({ world := w, holds, asked? := some asked } : Moment σ).classAfter? id := by
    intro asked same nothing
    rw [Moment.classAfter?_of_quiet nothing, class?_of_classes same]
  cases asked with
  | log event => exact quiet _ rfl rfl
  | print text => exact quiet _ rfl rfl
  | create classId state => exact quiet _ rfl rfl
  | retain handle =>
      exact quiet _ (((handle.oblivious_retain).bind fun _ => oblivious_pure _).classes w) rfl
  | release handle =>
      exact quiet _ (((handle.oblivious_release).bind fun _ => oblivious_pure _).classes w) rfl
  | array request => exact quiet _ (request.oblivious_serve.classes w) rfl
  | defineMethod classId m =>
      have served : ((defineMethod classId m).serve run w).2 = (ClassDef.define classId m w).2 :=
        ((bind_after (R := Eq) fun _ => keeps_pure _)).symm
      rw [served, ClassDef.class?_define, Moment.classAfter?]
      cases found : w.class? id with
      | none => rfl
      | some c =>
          simp only [Moment.taken?, found, Option.map_some, Option.bind_some]
          split <;> rfl
  | _ => cases unprepared

namespace Moment

variable {m : Moment σ} {after : World σ} {holds : List Hold}

theorem taken_of_calls (calls : m.Calls) : m.taken? id = none := by
  obtain ⟨w, holds, asked⟩ := m
  cases asked with
  | none => rfl
  | some asked =>
      obtain ⟨prepare, prepared⟩ := calls asked rfl
      cases asked with
      | defineMethod classId m => cases prepared
      | _ => rfl

theorem Passes.class? (passes : m.Passes after holds) : after.class? id = m.classAfter? id := by
  cases passes with
  | serves asks unprepared served =>
      obtain ⟨w, holds, asked⟩ := m
      cases asks
      cases served
      exact Request.class?_serve unprepared
  | takes calls takes =>
      rw [classAfter?_of_quiet (taken_of_calls calls), class?_of_classes takes.classes]
  | leaves calls held left =>
      rw [classAfter?_of_quiet (taken_of_calls calls), class?_of_classes left.classes]

end Moment

theorem Trail.chronicle {first last : World σ} {holds final : List Hold} {ms : List (Moment σ)}
    (trail : Trail first holds ms last final) (id : Nat) :
    Chronicle id (first.class? id) ms (last.class? id) := by
  induction trail with
  | stop w holds =>
      refine .cons (m := ⟨w, holds, none⟩) ?_
      rw [Moment.classAfter?_of_quiet rfl]
      exact .nil _
  | step passes trail ih =>
      refine .cons ?_
      rwa [← passes.class?]

theorem Program.chronicle_session (id stack : Nat) (programs : List (Program σ)) (w : World σ) :
    Chronicle id (w.class? id) (sessionMoments stack programs w) ((session stack programs w).class? id) :=
  (trail_session stack programs w).chronicle id

end Runs

end Marshal
