import Mathlib
import Marshal.Proofs.Module.Conversation
import Marshal.Proofs.Program.Ending
import Marshal.Proofs.Program.Lasting

namespace Marshal

open Act hiding pure bind

variable {σ α : Type} {w after : World σ} {p : Payload}

/-- What a panic that was caught writes to the journal. -/
def panicking (function : String) (p : Payload) : Event :=
  ⟨.warn, .call, "native code panicked", [.quoted "function" function, ⟨"message", p.message⟩]⟩

/-- The error that a panic becomes where it is caught. -/
def Payload.caughtBy (p : Payload) (function : String) : Error :=
  .native function s!"native panic: {p.message}"

/-- The function in whose name panics are caught, where they are caught. -/
def guardOf? (function : String) (catchPanics : Bool) : Option String :=
  if catchPanics then some function else none

section Guarded

variable {act : Act σ α} (function : String)

theorem guarded_of_panicked (ended : act w = (.panicked p, after)) :
    guarded function true act w = (.failed (p.caughtBy function), after.noted (panicking function p)) := by
  simp only [guarded, ↓reduceIte, ended]
  rfl

theorem guarded_ne_panicked : guarded function true act w ≠ (.panicked p, after) := by
  intro escaped
  rcases ended : act w with ⟨outcome, last⟩
  cases outcome with
  | panicked q => cases (guarded_of_panicked function ended).symm.trans escaped
  | _ =>
      simp only [guarded, ↓reduceIte, ended] at escaped
      cases escaped

end Guarded

namespace Conclusion

/-- Who catches the panics of native code that is concluded in this way. -/
def catcher? : Conclusion → Option String
  | .called function _ catchPanics => guardOf? function catchPanics
  | .read | .written => none

variable {conclusion : Conclusion} {act : Act σ Result}

theorem conclude_of_caught {function : String} (catches : conclusion.catcher? = some function)
    (ended : act w = (.panicked p, after)) :
    conclusion.conclude act w = (.failed (p.caughtBy function), after.noted (panicking function p)) := by
  cases conclusion with
  | called name params catchPanics =>
      cases catchPanics with
      | false => cases catches
      | true =>
          cases catches
          exact bind_of_failed (guarded_of_panicked _ ended)
  | read => cases catches
  | written => cases catches

theorem conclude_of_uncaught (uncaught : conclusion.catcher? = none) (ended : act w = (.panicked p, after)) :
    conclusion.conclude act w = (.panicked p, after) := by
  cases conclusion with
  | called name params catchPanics =>
      cases catchPanics with
      | false => exact bind_of_panicked ended
      | true => cases uncaught
  | read => exact bind_of_panicked ended
  | written => exact bind_of_panicked ended

end Conclusion

section PanicsOnly

variable {allowed : Payload → Prop}

theorem panicsOnly_resolved (function : String) (params : List Param) (result : Result) :
    PanicsOnly allowed (resolved (σ := σ) function params result) w := by
  cases result with
  | ok value => exact panicsOnly_pure value
  | error e => exact panicsOnly_fail _

theorem panicsOnly_accessed (result : Result) : PanicsOnly allowed (accessed (σ := σ) result) w := by
  rcases result with (⟨_, e⟩ | e) | value
  · exact panicsOnly_fail e
  · exact panicsOnly_fail e
  · exact panicsOnly_pure value

/-- The panics of native code that nothing catches are all that there are. -/
theorem Conclusion.panicsOnly_conclude {conclusion : Conclusion} {act : Act σ Result}
    (native : conclusion.catcher? = none → PanicsOnly allowed act w) :
    PanicsOnly allowed (conclusion.conclude act) w := by
  cases conclusion with
  | called function params catchPanics =>
      refine PanicsOnly.bind ?_ fun result _ _ => panicsOnly_resolved function params result
      cases catchPanics with
      | false => exact native rfl
      | true => exact fun q last panicked => absurd panicked (guarded_ne_panicked function)
  | read => exact (native rfl).bind fun result _ _ => panicsOnly_accessed result
  | written =>
      refine (native rfl).bind fun result _ _ => ?_
      exact (panicsOnly_accessed result).bind fun _ _ _ => panicsOnly_pure _

end PanicsOnly

/-- Native code that a call enters panics in this way. -/
def Opening.Panics (run : Runner σ) (p : Payload) (o : Opening σ) : Prop :=
  (run o.frames o.program o.world).1 = .panicked p

/-- What becomes of a panic of the native code that a call enters, if it enters any: the error that names who
catches it, or nothing but the panic if nobody does.  There is no other panic. -/
structure Contains (run : Runner σ) (catcher? : Option String) (opening? : Option (Opening σ))
    (outcome : Outcome Value) : Prop where
  caught : ∀ function o p, catcher? = some function → opening? = some o → o.Panics run p →
    outcome = .failed (p.caughtBy function)
  escapes : ∀ p, outcome = .panicked p ↔ catcher? = none ∧ ∃ o, opening? = some o ∧ o.Panics run p

/-- A call that fails before native code does not panic. -/
theorem Contains.of_failed (run : Runner σ) (catcher? : Option String) (e : Error) :
    Contains run catcher? none (.failed e) where
  caught function o p _ opened := by cases opened
  escapes p := by
    constructor
    · intro panicked
      cases panicked
    · rintro ⟨_, _, opened, _⟩
      cases opened

theorem Contains.of_conclude (run : Runner σ) (conclusion : Conclusion) (o : Opening σ) :
    Contains run conclusion.catcher? (some o) (conclusion.conclude (run o.frames o.program) o.world).1 where
  caught function _ p catches opened panics := by
    cases opened
    rw [conclusion.conclude_of_caught catches (apply_of_outcome panics)]
  escapes p := by
    constructor
    · intro escaped
      have only : PanicsOnly (fun q => conclusion.catcher? = none ∧ o.Panics run q)
          (conclusion.conclude (run o.frames o.program)) o.world :=
        Conclusion.panicsOnly_conclude fun uncaught q last panicked =>
          ⟨uncaught, by rw [Opening.Panics, panicked]⟩
      obtain ⟨uncaught, panics⟩ := only p _ (apply_of_outcome escaped)
      exact ⟨uncaught, o, rfl, panics⟩
    · rintro ⟨uncaught, _, opened, panics⟩
      cases opened
      rw [Conclusion.conclude_of_uncaught uncaught (apply_of_outcome panics)]

variable [NativeState σ] (run : Runner σ)

/-- Panics come out of a request that enters native code only as they come out of that code. -/
theorem Request.contains_serve (asked : Request σ (Program σ)) {prepare : Act σ (NativeCall σ)}
    (prepared : asked.prepare? = some prepare) (w : World σ) :
    Contains run ((asked.conclusion? w).bind Conclusion.catcher?) (asked.opening? w)
      (asked.serve run w).1 := by
  cases opened : asked.opening? w with
  | none =>
      obtain ⟨e, failed⟩ := serve_of_unopened run prepared opened
      rw [failed]
      exact .of_failed run _ e
  | some o =>
      obtain ⟨conclusion, concludes, ended⟩ := serve_of_opening run opened
      rw [concludes, ended, Option.bind_some]
      exact .of_conclude run conclusion o

namespace NativeModule

variable (m : NativeModule σ)

theorem contains_invoke_of_missing {name : String} (missing : m.function? name = none)
    (catcher? : Option String) (positional : List Value) (keywords : Keywords) :
    Contains run catcher? (m.opening? w (.function name positional keywords))
      (m.invoke run name positional keywords w).1 := by
  simp only [opening?, invoke, missing, Option.bind_none, ofOption_none, fail_bind, fail_apply]
  exact .of_failed run catcher? _

theorem contains_invoke_of_found (w : World σ) {name : String} {f : FunctionBinding (Program σ)}
    (found : m.function? name = some f) (positional : List Value) (keywords : Keywords) :
    Contains run (guardOf? f.name f.catchPanics) (m.opening? w (.function name positional keywords))
      (m.invoke run name positional keywords w).1 := by
  rw [invoke_of_found found]
  simp only [opening?, found, Option.bind_some]
  exact Request.contains_serve run (.call f positional keywords) rfl _

/-- A call leaves each instance to those who used it before. -/
theorem access_perform (stack : Nat) (call : Call σ) (w : World σ) (slot : Nat) :
    ((m.perform (Program.run stack) call w).2.lives.life slot).access = (w.lives.life slot).access := by
  have served (asked : Request σ (Program σ)) : Keeps (World.Lasts ∅) (asked.serve (Program.run stack)) :=
    asked.lasts_serve (Program.lasts_run stack)
  have kept : Keeps (World.Lasts ∅) (m.perform (Program.run stack) call) := by
    cases call with
    | function name positional keywords =>
        refine (keeps_ofOption _ _).bind fun f => (quiet_log _).lasts.bind fun _ => ?_
        exact served (.call f positional keywords)
    | request asked => exact served asked
  exact (kept w).access slot

end NativeModule

omit [NativeState σ] in
/-- Functions go by their exported names, and treat panics as the module does. -/
theorem ModuleDescription.function_of_build {d : ModuleDescription σ} {m : NativeModule σ} {built : World σ}
    (builds : d.build w = (.returned m, built)) {name : String} {f : FunctionBinding (Program σ)}
    (found : m.function? name = some f) : f.name = name ∧ f.catchPanics = d.config.catchPanics := by
  obtain ⟨_, rfl, _⟩ := returned_of_build builds
  obtain ⟨declared, _, rfl, rfl⟩ := exported_of_function? found
  exact ⟨rfl, rfl⟩

/-- What becomes of the panics of a module, as long as its classes keep their settings, which they do
whatever programs run.  Those of functions, constructors and methods are caught just when the module
catches panics, and are then reported as native errors with the message of the panic.  Those of getters
and setters are never caught.  Nothing else in a call panics, and however it ends, each instance is left
to those who used it before. -/
theorem panics_exact {d : ModuleDescription σ} {m : NativeModule σ} {built : World σ}
    (builds : d.build w = (.returned m, built)) {now : World σ} (kept : built.KeepsSettings now)
    (stack : Nat) :
    (∀ name positional keywords,
      Contains (Program.run stack) (guardOf? name d.config.catchPanics)
        (m.opening? now (.function name positional keywords))
        (m.invoke (Program.run stack) name positional keywords now).1) ∧
    (∀ (handle : Handle) c, handle.classId ∈ d.classes.map NativeClass.classId →
      now.class? handle.classId = some c → ∀ name,
        (∀ method, c.method? name = some method → ∀ positional keywords,
          Contains (Program.run stack) (guardOf? (handle.qualified method.name) d.config.catchPanics)
            ((Request.invoke handle name positional keywords).opening? now)
            (handle.invoke (Program.run stack) name positional keywords now).1) ∧
        Contains (Program.run stack) none ((Request.getAttr handle name).opening? now)
          (handle.getAttr (Program.run stack) name now).1 ∧
        ∀ value, Contains (Program.run stack) none ((Request.setAttr handle name value).opening? now)
          ((Request.setAttr handle name value).serve (Program.run stack) now).1) ∧
    ∀ call slot, ((m.perform (Program.run stack) call now).2.lives.life slot).access =
      (now.lives.life slot).access := by
  refine ⟨fun name positional keywords => ?_, fun handle c member declared name => ⟨?_, ?_, fun value => ?_⟩,
    fun call slot => ?_⟩
  · cases found : m.function? name with
    | none => exact m.contains_invoke_of_missing _ found _ positional keywords
    | some f =>
        have contains := m.contains_invoke_of_found (Program.run stack) now found positional keywords
        obtain ⟨named, catching⟩ := ModuleDescription.function_of_build builds found
        rwa [named, catching] at contains
  · intro method found positional keywords
    have contains := Request.contains_serve (Program.run stack)
      (.invoke handle name positional keywords) rfl now
    have settings := ModuleDescription.settings_of_build builds kept member declared
    have catching : c.catchPanics = d.config.catchPanics := congrArg Config.catchPanics settings
    simp only [Request.conclusion?, declared, found, Option.bind_eq_bind, Option.bind_some,
      Conclusion.catcher?, catching] at contains
    exact contains
  · exact Request.contains_serve _ (.getAttr handle name) rfl now
  · exact Request.contains_serve _ (.setAttr handle name value) rfl now
  · exact m.access_perform stack call now slot

namespace Sample

/-- Native code that never gets anywhere. -/
def jam : NativeCode State [] long := fun _ => Native.panic (.text "jammed")

/-- A class whose instances do not tell their balance. -/
def jammed : ClassDef (Program State) where
  name := "Account"
  instanceType := accountType
  properties := [("balance", .readOnly accountType long (Native.panic (.text "jammed")))]

def jammedBranch : World State := { branch with classes := [jammed] }

def jamming : ModuleDescription State where
  name := "bank"
  functions := [.ofNative "jam" [] long jam]
  classes := [{ classId := 0 }]
  config := { catchPanics := true }

end Sample

open Sample in
theorem panics_exact_jamming :
    ∃ m built, jamming.build jammedBranch = (.returned m, built) ∧
      (m.invoke (Program.run 1) "jam" [] [] built).1 = .failed (.native "jam" "native panic: jammed") ∧
      (teller.getAttr (Program.run 1) "balance" built).1 = .panicked (.text "jammed") := by
  have builds := ModuleDescription.build_of_distinct (d := jamming) (w := jammedBranch) (by decide)
    (by decide)
  obtain ⟨functions, members, _⟩ := panics_exact builds rfl 1
  refine ⟨_, _, builds, (functions "jam" [] []).caught "jam" _ (.text "jammed") rfl rfl rfl, ?_⟩
  have getter := (members teller _ (List.mem_singleton_self 0) rfl "balance").2.1
  exact (getter.escapes (.text "jammed")).mpr ⟨rfl, _, rfl, rfl⟩

end Marshal
