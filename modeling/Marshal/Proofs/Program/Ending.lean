import Mathlib
import Marshal.Proofs.Call.Members
import Marshal.Proofs.Program.Trail

namespace Marshal

open Act hiding pure bind

variable {σ α β : Type} {w after : World σ}

namespace Act

/-- The action fails or gives something good. -/
def Yields (good : α → World σ → Prop) (act : Act σ α) (w : World σ) : Prop :=
  (∃ a after, act w = (.returned a, after) ∧ good a after) ∨ ∃ e after, act w = (.failed e, after)

variable {good : α → World σ → Prop} {fine : β → World σ → Prop} {act : Act σ α} {next : α → Act σ β}

theorem Yields.bind (first : Yields good act w)
    (rest : ∀ a after, good a after → Yields fine (next a) after) :
    Yields fine (act >>= next) w := by
  rcases first with ⟨a, after, returned, valid⟩ | ⟨e, after, failed⟩
  · rcases rest a after valid with ⟨b, last, ended, last_valid⟩ | ⟨e, last, ended⟩
    · exact .inl ⟨b, last, (bind_of_returned returned).trans ended, last_valid⟩
    · exact .inr ⟨e, last, (bind_of_returned returned).trans ended⟩
  · exact .inr ⟨e, after, bind_of_failed failed⟩

theorem Yields.mono {other : α → World σ → Prop} (yields : Yields good act w)
    (wide : ∀ a after, good a after → other a after) : Yields other act w :=
  yields.imp_left fun ⟨a, after, returned, valid⟩ => ⟨a, after, returned, wide a after valid⟩

theorem yields_pure {a : α} (valid : good a w) : Yields good (Pure.pure a : Act σ α) w :=
  .inl ⟨a, w, rfl, valid⟩

theorem yields_fail (e : Error) : Yields good (fail e) w := .inr ⟨e, w, rfl⟩

theorem yields_read (f : World σ → α) : Yields (fun a after => a = f w ∧ w = after) (read f) w :=
  .inl ⟨f w, w, rfl, rfl, rfl⟩

theorem yields_log (event : Event) : Yields (fun _ after => after = w.noted event) (log event) w :=
  .inl ⟨(), w.noted event, rfl, rfl⟩

theorem yields_ofExcept (result : Except Error α) :
    Yields (fun a after => result = .ok a ∧ w = after) (ofExcept result) w := by
  cases result with
  | ok a => exact yields_pure ⟨rfl, rfl⟩
  | error e => exact yields_fail e

theorem yields_ofOption (e : Error) (found : Option α) :
    Yields (fun a after => found = some a ∧ w = after) (ofOption e found) w := by
  cases found with
  | some a => exact yields_pure ⟨rfl, rfl⟩
  | none => exact yields_fail e

end Act

namespace Handle

variable (handle : Handle)

theorem yields_alive : Yields (fun _ after => w = after) handle.alive w := by
  rcases handle.alive_cases (w := w) with ⟨cell, _, _, alive⟩ | ⟨_, gone⟩
  · exact .inl ⟨cell, w, alive, rfl⟩
  · exact .inr ⟨_, w, gone⟩

theorem yields_classDef :
    Yields (fun c after => w.class? handle.classId = some c ∧ w = after) handle.classDef w := by
  refine (yields_read _).bind ?_
  rintro _ _ ⟨rfl, rfl⟩
  cases w.class? handle.classId with
  | none => exact yields_fail _
  | some c => exact yields_pure ⟨rfl, rfl⟩

theorem yields_property (name : String) : Yields (fun _ _ => True) (handle.property name) w :=
  handle.yields_classDef.bind fun _ _ _ => (yields_ofOption _ _).mono fun _ _ _ => trivial

end Handle

namespace NativeCall

def conclusion : NativeCall σ → Conclusion
  | .function _ conclusion | .member _ _ _ conclusion => conclusion

variable (run : Runner σ) {call : NativeCall σ}

/-- Letting an instance go again does not change how native code ended. -/
theorem enter_of_opening {o : Opening σ} (opened : call.opening? w = some o) :
    (call.enter run w).1 = (call.conclusion.conclude (run o.frames o.program) o.world).1 := by
  cases call with
  | function program conclusion =>
      cases opened
      rfl
  | member handle writable program conclusion =>
      rcases handle.borrowed_cases (w := w) writable with ⟨access, state, borrowed, _⟩ | ⟨e, refused⟩
      · simp only [opening?, Handle.entered?, borrowed, Option.bind_eq_bind, Option.bind_some,
          Option.bind_eq_some_iff] at opened
        obtain ⟨code, accepted, opening⟩ := opened
        cases opening
        cases found : program state with
        | error e =>
            rw [found] at accepted
            cases accepted
        | ok other =>
            rw [found] at accepted
            cases accepted
            simp only [enter, Handle.whileHeld, bind_of_returned borrowed, bracket, found, ofExcept_ok,
              pure_bind]
            rfl
      · simp only [opening?, Handle.entered?, refused, Option.bind_eq_bind, Option.bind_none] at opened
        cases opened

theorem enter_of_unopened (unopened : call.opening? w = none) : ∃ e, (call.enter run w).1 = .failed e := by
  cases call with
  | function program conclusion => cases unopened
  | member handle writable program conclusion =>
      rcases handle.borrowed_cases (w := w) writable with ⟨access, state, borrowed, _⟩ | ⟨e, refused⟩
      · simp only [opening?, Handle.entered?, borrowed, Option.bind_eq_bind, Option.bind_some] at unopened
        cases found : program state with
        | ok other =>
            rw [found] at unopened
            cases unopened
        | error e =>
            refine ⟨e, ?_⟩
            simp only [enter, Handle.whileHeld, bind_of_returned borrowed, bracket, found,
              ofExcept_error, fail_bind]
            rfl
      · refine ⟨e, ?_⟩
        simp only [enter, Handle.whileHeld, bind_of_failed refused]

end NativeCall

namespace Request

variable [NativeState σ] {asked : Request σ (Program σ)} {prepare : Act σ (NativeCall σ)}

/-- What becomes of the native code that a request enters. -/
def conclusion? (w : World σ) : Request σ (Program σ) → Option Conclusion
  | .call f _ _ => some (.called f.name f.params f.catchPanics)
  | .invoke handle method _ _ => do
    let c ← w.class? handle.classId
    let m ← c.method? method
    some (.called (handle.qualified m.name) m.params c.catchPanics)
  | .getAttr .. => some .read
  | .setAttr .. => some .written
  | _ => none

/-- The checks of a request lead to a call, if they let it pass, that ends as the request should. -/
theorem yields_prepare (prepared : asked.prepare? = some prepare) :
    Yields (fun call _ => asked.conclusion? w = some call.conclusion) prepare w := by
  cases asked with
  | call f positional keywords =>
      cases prepared
      refine (yields_log _).bind fun _ _ _ => (yields_ofExcept _).bind fun _ _ _ => ?_
      exact (yields_ofExcept _).bind fun _ _ _ => yields_pure rfl
  | invoke handle method positional keywords =>
      cases prepared
      refine handle.yields_alive.bind ?_
      rintro _ _ rfl
      refine handle.yields_classDef.bind ?_
      rintro c _ ⟨declared, rfl⟩
      refine (yields_ofOption _ _).bind ?_
      rintro m _ ⟨found, rfl⟩
      refine (yields_log _).bind fun _ _ _ => (yields_ofExcept _).bind fun _ _ _ => ?_
      refine (yields_ofExcept _).bind fun _ _ _ => yields_pure ?_
      simp only [conclusion?, declared, found, Option.bind_eq_bind, Option.bind_some]
      rfl
  | getAttr handle name =>
      cases prepared
      refine handle.yields_alive.bind fun _ _ _ => ?_
      exact (handle.yields_property name).bind fun _ _ _ => yields_pure rfl
  | setAttr handle name value =>
      cases prepared
      refine handle.yields_alive.bind fun _ _ _ => (handle.yields_property name).bind fun _ _ _ => ?_
      exact (yields_ofOption _ _).bind fun _ _ _ => yields_pure rfl
  | _ => cases prepared

/-- A request that enters native code ends with what becomes of that. -/
theorem serve_of_opening {o : Opening σ} (run : Runner σ) (opened : asked.opening? w = some o) :
    ∃ conclusion, asked.conclusion? w = some conclusion ∧
      (asked.serve run w).1 = (conclusion.conclude (run o.frames o.program) o.world).1 := by
  cases prepared : asked.prepare? with
  | none =>
      simp only [opening?, prepared, Option.bind_eq_bind, Option.bind_none] at opened
      cases opened
  | some prepare =>
      rcases yields_prepare (w := w) prepared with ⟨call, after, returned, concludes⟩ | ⟨e, after, failed⟩
      · simp only [opening?, prepared, Option.bind_eq_bind, Option.bind_some, returned] at opened
        refine ⟨call.conclusion, concludes, ?_⟩
        rw [serve_prepare prepared, bind_of_returned returned, NativeCall.enter_of_opening run opened]
      · simp only [opening?, prepared, Option.bind_eq_bind, Option.bind_some, failed] at opened
        cases opened

/-- A request that could have entered native code, but did not, has failed. -/
theorem serve_of_unopened (run : Runner σ) (prepared : asked.prepare? = some prepare)
    (unopened : asked.opening? w = none) : ∃ e, (asked.serve run w).1 = .failed e := by
  rcases yields_prepare (w := w) prepared with ⟨call, after, returned, _⟩ | ⟨e, after, failed⟩
  · simp only [opening?, prepared, Option.bind_eq_bind, Option.bind_some, returned] at unopened
    rw [serve_prepare prepared, bind_of_returned returned]
    exact NativeCall.enter_of_unopened run unopened
  · refine ⟨e, ?_⟩
    rw [serve_prepare prepared, bind_of_failed failed]

end Request

end Marshal
