import Mathlib
import Marshal.Program.Native
import Marshal.Proofs.Program.Ending

namespace Marshal

open Act hiding pure bind

variable {σ : Type}

/-- Native code that asks for something first, and goes on only with a value: it hands an error on. -/
def Native.relay {α : Type} (asked : Request σ (Program σ)) (rest : Value → Native σ (Except Failure α)) :
    Native σ (Except Failure α) := do
  match ← Native.request asked with
  | .ok value => rest value
  | .error e => return .error (.error e)

/-- An entry that an error passes through: its name, and whether it makes instances. -/
structure Link where
  function : String
  constructs : Bool

namespace Link

/-- The error that native code ends with when it hands one on. -/
def handed (link : Link) (e : Error) : Error :=
  if link.constructs then .native "" e.message else e

/-- The error that the caller of an entry gets when its native code hands one on. -/
def pass (link : Link) (e : Error) : Error := (link.handed e).inFunction link.function

end Link

/-- The program of an entry that asks for something first, and hands an error on. -/
inductive Relays (asked : Request σ (Program σ)) : Bool → Program σ → Prop
  | code {types : List Ty} {result : Ty} {code : NativeCode σ types result} {args : Args types}
      {rest : Value → Native σ (Except Failure result.Carrier)} (same : code args = .relay asked rest) :
      Relays asked false (code.program args)
  | construction {types : List Ty} {code : ConstructorCode σ types} {args : Args types}
      {rest : Value → Native σ (Except Failure σ)} (same : code args = .relay asked rest) (classId : Nat) :
      Relays asked true (code.program classId args)

namespace Error

variable {e : Error} {function : String}

/-- A native failure of no function in particular. -/
def IsAnonymous (e : Error) : Prop := ∃ message, e = .native "" message

theorem inFunction_of_named (named : ¬ e.IsAnonymous) (function : String) : e.inFunction function = e := by
  unfold inFunction
  split
  · exact absurd ⟨_, rfl⟩ named
  · rfl

theorem named_native (nonempty : function ≠ "") (message : String) :
    ¬ (Error.native function message).IsAnonymous :=
  fun ⟨_, same⟩ => nonempty (Error.native.inj same).1

theorem named_inFunction (nonempty : function ≠ "") (e : Error) : ¬ (e.inFunction function).IsAnonymous := by
  unfold inFunction
  split
  · exact named_native nonempty _
  · rename_i attributed
    exact fun ⟨message, same⟩ => attributed message same

@[simp] theorem message_inFunction (function : String) (e : Error) :
    (e.inFunction function).message = e.message := by
  unfold inFunction
  split <;> rfl

end Error

namespace Link

variable {link : Link} {links : List Link} {e : Error}

theorem pass_of_handing (handing : link.constructs = false) (e : Error) :
    link.pass e = e.inFunction link.function := by
  simp only [pass, handed, handing, Bool.false_eq_true, ↓reduceIte]

theorem pass_of_constructing (constructing : link.constructs = true) (e : Error) :
    link.pass e = .native link.function e.message := by
  simp only [pass, handed, constructing, ↓reduceIte]
  rfl

@[simp] theorem message_pass (link : Link) (e : Error) : (link.pass e).message = e.message := by
  cases constructing : link.constructs with
  | true =>
      rw [pass_of_constructing constructing]
      rfl
  | false => rw [pass_of_handing constructing, Error.message_inFunction]

@[simp] theorem message_foldr (links : List Link) (e : Error) : (links.foldr pass e).message = e.message := by
  induction links with
  | nil => rfl
  | cons link rest ih => rw [List.foldr_cons, message_pass, ih]

/-- Functions and methods leave an error alone that speaks of a function already. -/
theorem foldr_of_named (handing : ∀ link ∈ links, link.constructs = false) (named : ¬ e.IsAnonymous) :
    links.foldr pass e = e := by
  induction links with
  | nil => rfl
  | cons link rest ih =>
      obtain ⟨here, below⟩ := List.forall_mem_cons.mp handing
      rw [List.foldr_cons, ih below, pass_of_handing here, Error.inFunction_of_named named]

end Link

variable [NativeState σ]

/-- The name in which a call speaks of the errors of native code. -/
def Request.function? (w : World σ) (asked : Request σ (Program σ)) : Option String :=
  match asked.conclusion? w with
  | some (.called function _ _) => some function
  | _ => none

/-- Calls of entries each of which asks for the next one first, from the outermost on, and hands its
error on.  The native code of the innermost entry, which has the given name, ends with the given error.
-/
inductive Chain (innermost : String) (e : Error) : Nat → World σ → Request σ (Program σ) → List Link → Prop
  | fails {stack : Nat} {w : World σ} {asked : Request σ (Program σ)} {o : Opening σ}
      (opened : asked.opening? w = some o) (named : asked.function? w = some innermost)
      (ended : (Program.run stack o.frames o.program o.world).1 = .returned (.error (.failed e))) :
      Chain innermost e stack w asked []
  | relays {stack : Nat} {w : World σ} {asked inner : Request σ (Program σ)} {o : Opening σ} {link : Link}
      {links : List Link} (opened : asked.opening? w = some o)
      (named : asked.function? w = some link.function)
      (hands : Relays inner link.constructs o.program) (rest : Chain innermost e stack o.world inner links) :
      Chain innermost e (stack + 1) w asked (link :: links)

variable {w : World σ} {asked : Request σ (Program σ)} {link : Link} {links : List Link} {e : Error}
  {innermost : String} {stack : Nat}

/-- The caller of an entry gets the error of its native code, in the name of the entry. -/
theorem Request.serve_of_ended {run : Runner σ} {o : Opening σ} {function : String}
    (opened : asked.opening? w = some o) (named : asked.function? w = some function)
    (ended : (run o.frames o.program o.world).1 = .returned (.error (.failed e))) :
    (asked.serve run w).1 = .failed (e.inFunction function) := by
  obtain ⟨conclusion, concludes, same⟩ := serve_of_opening run opened
  rw [function?, concludes] at named
  cases conclusion with
  | called function params catchPanics =>
      cases named
      rw [same, Conclusion.called_of_returned _ params catchPanics (apply_of_outcome ended)]
      rfl
  | read => cases named
  | written => cases named

omit [NativeState σ] in
theorem Relays.shape {program : Program σ} (relays : Relays asked link.constructs program) :
    ∃ next, program = .request asked next ∧
    ∀ e, next (.error e) = .done (.error (.failed (link.handed e))) := by
  obtain ⟨function, constructs⟩ := link
  cases relays with
  | code same =>
      simp only [NativeCode.program, same]
      exact ⟨_, rfl, fun e => rfl⟩
  | construction same classId =>
      simp only [ConstructorCode.program, same]
      exact ⟨_, rfl, fun e => rfl⟩

/-- Native code ends with the error that it hands on. -/
theorem Relays.run_of_failed {program : Program σ} (relays : Relays asked link.constructs program)
    (refused : (asked.serve (Program.run stack) w).1 = .failed e) (frames : List Frame) :
    (Program.run (stack + 1) frames program w).1 = .returned (.error (.failed (link.handed e))) := by
  obtain ⟨next, rfl, hands⟩ := relays.shape
  have replied := attempt_of_failed (apply_of_outcome refused)
  simp only [Program.run, Program.execute, bind_of_returned replied, hands, pure_apply]

/-- An error passes through one entry after the other. -/
theorem Chain.serve_eq (chain : Chain innermost e stack w asked links) :
    (asked.serve (Program.run stack) w).1 = .failed (links.foldr Link.pass (e.inFunction innermost)) := by
  induction chain with
  | fails opened named ended => exact Request.serve_of_ended opened named ended
  | relays opened named hands _ ih => exact Request.serve_of_ended opened named (hands.run_of_failed ih _)

/-- What reaches the caller of a chain of calls that hand an error on.  Where no constructor is on the
way the error itself arrives, in the name of the innermost entry if it was a native one of no function.
Otherwise the outermost constructor on the way makes it a native error of its own, with the same
message. -/
theorem provenance_exact (chain : Chain innermost e stack w asked links) (known : innermost ≠ "")
    (named : ∀ link ∈ links, link.function ≠ "") :
    ((∀ link ∈ links, link.constructs = false) →
      (asked.serve (Program.run stack) w).1 = .failed (e.inFunction innermost)) ∧
    ∀ before link after, links = before ++ link :: after → link.constructs = true →
      (∀ outer ∈ before, outer.constructs = false) →
      (asked.serve (Program.run stack) w).1 = .failed (.native link.function e.message) := by
  refine ⟨fun handing => ?_, ?_⟩
  · rw [chain.serve_eq, Link.foldr_of_named handing (Error.named_inFunction known e)]
  · rintro before link after rfl constructing handing
    have there : link ∈ before ++ link :: after := List.mem_append_right _ List.mem_cons_self
    have speaks := Error.named_native (named link there) e.message
    rw [chain.serve_eq, List.foldr_append, List.foldr_cons, Link.pass_of_constructing constructing,
      Link.message_foldr, Error.message_inFunction, Link.foldr_of_named handing speaks]

namespace Sample

def refusing : NativeCode State [] .unit := fun _ => pure (.error (.error (.mismatch "left" "right")))

def inner : FunctionBinding (Program State) := .ofNative "inner" [] .unit refusing

/-- Makes an instance if the innermost function has nothing against it. -/
def founding : ConstructorCode State [] := fun _ => .relay (.call inner [] []) fun _ => ok .zero

def founder : FunctionBinding (Program State) := .ofConstructor "found" 0 "Account" [] founding

def inquiring : NativeCode State [] .unit := fun _ => .relay (.call founder [] []) fun _ => ok ()

def outer : FunctionBinding (Program State) := .ofNative "outer" [] .unit inquiring

end Sample

open Sample in
theorem provenance_exact_founder :
    ((Request.call outer [] []).serve (Program.run 3) {}).1 =
      .failed (.native "found" "type mismatch: expected left, got right") := by
  have fails (w : World State) : Chain "inner" (.mismatch "left" "right") 1 w (.call inner [] []) [] :=
    .fails rfl rfl rfl
  have making : Relays (.call inner [] []) true (founding.program 0 ()) := .construction rfl 0
  have founds (w : World State) : Chain "inner" _ 2 w (.call founder [] []) [⟨"found", true⟩] :=
    .relays rfl rfl making (fails _)
  have handing : Relays (.call founder [] []) false (inquiring.program ()) := .code rfl
  have asks : Chain "inner" _ 3 {} (.call outer [] []) [⟨"outer", false⟩, ⟨"found", true⟩] :=
    .relays rfl rfl handing (founds _)
  exact (provenance_exact asks (by decide) (by decide)).2 [⟨"outer", false⟩] _ [] rfl rfl (by decide)

end Marshal
