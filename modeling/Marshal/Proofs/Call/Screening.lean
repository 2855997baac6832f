import Mathlib
import Marshal.Module
import Marshal.Program.Run
import Marshal.Proofs.Call.Arguments
import Marshal.Proofs.World.Handle

namespace Marshal

open Act hiding pure bind

variable {σ : Type}

section Params

variable {params given : List Param}

theorem Param.numbered_length (types : List NativeType) : (numbered types).length = types.length := by
  simp [numbered]

theorem Param.named_length (params : List Param) (names : List String) :
    (named params names).length = params.length := by
  induction params generalizing names with
  | nil => simp [named]
  | cons param params ih =>
      cases names with
      | nil => rfl
      | cons name names => simp [named, ih]

theorem Param.withDefault?_length {name : String} {value : Value}
    (found : withDefault? params name value = some given) : given.length = params.length := by
  induction params generalizing given with
  | nil => cases found
  | cons param params ih =>
      simp only [withDefault?] at found
      split at found
      · cases found
        rfl
      · obtain ⟨rest, there, rfl⟩ := Option.map_eq_some_iff.mp found
        simp [ih there]

end Params

section Wraps

variable {types : List Ty}

/-- The function bindings of typed native code: made from it, then given names, defaults and settings in
any order. -/
inductive FunctionBinding.Wraps (body : Args types → Program σ) : FunctionBinding (Program σ) → Prop
  | native (name : String) (result : Ty) (code : NativeCode σ types result) (same : code.program = body) :
      Wraps body (ofNative name types result code)
  | constructor (name : String) (classId : Nat) (className : String) (code : ConstructorCode σ types)
      (same : code.program classId = body) : Wraps body (ofConstructor name classId className types code)
  | withParams {f given : FunctionBinding (Program σ)} {names : List String} {w after : World σ}
      (wraps : Wraps body f) (named : f.withParams names w = (.returned given, after)) : Wraps body given
  | withDefault {f given : FunctionBinding (Program σ)} {name : String} {value : Value} {w after : World σ}
      (wraps : Wraps body f) (defaulted : f.withDefault name value w = (.returned given, after)) :
      Wraps body given
  | rename {f : FunctionBinding (Program σ)} (wraps : Wraps body f) (style : NamingStyle) :
      Wraps body (f.rename style)
  | settings {f : FunctionBinding (Program σ)} (wraps : Wraps body f) (doc? : Option String)
      (catchPanics : Bool) (maxDepth : Nat) : Wraps body { f with doc?, catchPanics, maxDepth }

/-- The method bindings of typed native code for instances of a native type. -/
inductive MethodBinding.Wraps (receiver : String) (body : Args types → Program σ) :
    MethodBinding (Program σ) → Prop
  | native (name : String) (result : Ty) (code : NativeCode σ types result) (same : code.program = body) :
      Wraps receiver body (ofNative name receiver types result code)
  | withParams {m : MethodBinding (Program σ)} (wraps : Wraps receiver body m) (names : List String) :
      Wraps receiver body (m.withParams names)
  | withDefault {m : MethodBinding (Program σ)} (wraps : Wraps receiver body m) (name : String)
      (value : Value) : Wraps receiver body (m.withDefault name value)
  | rename {m : MethodBinding (Program σ)} (wraps : Wraps receiver body m) (style : NamingStyle) :
      Wraps receiver body (m.rename style)
  | documented {m : MethodBinding (Program σ)} (wraps : Wraps receiver body m) (doc? : Option String) :
      Wraps receiver body { m with doc? }

variable {body : Args types → Program σ} {receiver : String}

theorem FunctionBinding.withParams_eq {f given : FunctionBinding (Program σ)} {names : List String}
    {w after : World σ} (named : f.withParams names w = (.returned given, after)) :
    given = { f with params := Param.named f.params names } := by
  by_cases same : names.length = f.params.length
  · simp only [withParams, ne_eq, same, not_true_eq_false, ↓reduceIte] at named
    cases named
    rfl
  · simp only [withParams, ne_eq, same, not_false_eq_true, ↓reduceIte] at named
    cases named
    rfl

theorem FunctionBinding.withDefault_eq {f given : FunctionBinding (Program σ)} {name : String}
    {value : Value} {w after : World σ} (defaulted : f.withDefault name value w = (.returned given, after)) :
    given = { f with params := (Param.withDefault? f.params name value).getD f.params } := by
  cases found : Param.withDefault? f.params name value with
  | none =>
      simp only [withDefault, found] at defaulted
      cases defaulted
      rfl
  | some params =>
      simp only [withDefault, found] at defaulted
      cases defaulted
      rfl

theorem Param.withDefault?_getD_length (params : List Param) (name : String) (value : Value) :
    ((withDefault? params name value).getD params).length = params.length := by
  cases found : withDefault? params name value with
  | none => rfl
  | some given => exact withDefault?_length found

/-- A binding of typed native code converts its arguments first, one for each parameter. -/
theorem FunctionBinding.Wraps.shape {f : FunctionBinding (Program σ)} (wraps : f.Wraps body) :
    f.entry = withArgs types body ∧ f.params.length = types.length := by
  induction wraps with
  | native name result code same =>
      subst same
      exact ⟨rfl, by simp [ofNative, Param.numbered_length]⟩
  | constructor name classId className code same =>
      subst same
      exact ⟨rfl, by simp [ofConstructor, Param.numbered_length]⟩
  | withParams _ named ih =>
      obtain rfl := withParams_eq named
      exact ⟨ih.1, (Param.named_length _ _).trans ih.2⟩
  | withDefault _ defaulted ih =>
      obtain rfl := withDefault_eq defaulted
      exact ⟨ih.1, (Param.withDefault?_getD_length _ _ _).trans ih.2⟩
  | rename _ style ih => exact ⟨ih.1, by simpa [FunctionBinding.rename] using ih.2⟩
  | settings _ doc? catchPanics maxDepth ih => exact ih

theorem MethodBinding.Wraps.shape {m : MethodBinding (Program σ)} (wraps : m.Wraps receiver body) :
    m.entry = withArgs types body ∧ m.params.length = types.length ∧ m.receiver = receiver := by
  induction wraps with
  | native name result code same =>
      subst same
      exact ⟨rfl, by simp [ofNative, Param.numbered_length], rfl⟩
  | withParams _ names ih => exact ⟨ih.1, (Param.named_length _ _).trans ih.2.1, ih.2.2⟩
  | withDefault _ name value ih =>
      exact ⟨ih.1, (Param.withDefault?_getD_length _ _ _).trans ih.2.1, ih.2.2⟩
  | rename _ style ih => exact ⟨ih.1, by simpa [MethodBinding.rename] using ih.2.1, ih.2.2⟩
  | documented _ doc? ih => exact ih

end Wraps

theorem guarded_of_returned {α : Type} {act : Act σ α} {a : α} {w after : World σ} (function : String)
    (catchPanics : Bool) (ended : act w = (.returned a, after)) :
    guarded function catchPanics act w = (.returned a, after) := by
  cases catchPanics with
  | false => exact ended
  | true => simp only [guarded, ↓reduceIte, ended]

theorem Conclusion.called_of_returned {act : Act σ Result} {result : Result} {w after : World σ}
    (function : String) (params : List Param) (catchPanics : Bool)
    (ended : act w = (.returned result, after)) :
    (Conclusion.called function params catchPanics).conclude act w =
      resolved function params result after := by
  simp only [conclude, bind_of_returned (guarded_of_returned function catchPanics ended)]

theorem CallError.resolve_argument {params : List Param} {index : Nat} {param : Param} {e : Error}
    (function : String) (declared : params[index]? = some param) :
    (CallError.argument index e).resolve function params = e.within param.name := by
  simp only [resolve, declared]

/-- The world with one more event in the journal. -/
def World.noted (w : World σ) (event : Event) : World σ := { w with journal := event :: w.journal }

section Verdict

variable {types : List Ty} {function : String} {params : List Param} {limit : Nat} {busy? : Option Error}
  {positional : List Value} {keywords : Keywords} {verdict : Except Error (Args types)}

def convert (types : List Ty) (function : String) (params : List Param) (args : List Value) :
    Except Error (Args types) :=
  (decodeArgs types 0 args).mapError (CallError.resolve function params)

/-- All checks in their order. -/
def screen (types : List Ty) (function : String) (params : List Param) (limit : Nat)
    (busy? : Option Error) (positional : List Value) (keywords : Keywords) :
    Except Error (Args types) := do
  let args ← bindArguments function params positional keywords
  checkNesting limit params args
  match busy? with
  | some e => throw e
  | none => convert types function params args

theorem Screened.verdict_eq
    (screened : Screened function params types limit busy? positional keywords verdict) :
    verdict = screen types function params limit busy? positional keywords := by
  cases screened with
  | unbound unbound =>
      rw [screen, unbound]
      rfl
  | tooDeep bound declared given _ refused shallow =>
      rw [screen, bound]
      simp only [bind, Except.bind, checkNesting_of_deep declared given refused shallow]
  | busy bound shallow busy =>
      rw [screen, bound]
      simp only [bind, Except.bind, checkNesting_of_shallow shallow, busy]
      rfl
  | unconverted bound shallow free declared typed given failed converts =>
      have refused := decodeArgs_of_failed typed given failed converts 0
      rw [Nat.zero_add] at refused
      rw [screen, bound]
      simp only [bind, Except.bind, checkNesting_of_shallow shallow, free, convert, refused,
        Except.mapError, CallError.resolve_argument function declared]
  | passed bound shallow free converted =>
      rw [screen, bound]
      simp only [bind, Except.bind, checkNesting_of_shallow shallow, free, convert,
        decodeArgs_of_converted converted 0, Except.mapError]

/-- The checks come to one verdict. -/
theorem Screened.existsUnique (lengths : params.length = types.length) (function : String) (limit : Nat)
    (busy? : Option Error) (positional : List Value) (keywords : Keywords) :
    ∃! verdict : Except Error (Args types),
      Screened function params types limit busy? positional keywords verdict := by
  obtain ⟨verdict, screened⟩ := Screened.exists lengths function limit busy? positional keywords
  exact ⟨verdict, screened, fun other also => also.verdict_eq.trans screened.verdict_eq.symm⟩

theorem ofExcept_bind {α β : Type} (result : Except Error α) (next : α → Except Error β) :
    (ofExcept (result >>= next) : Act σ β) = ofExcept result >>= fun a => ofExcept (next a) := by
  cases result <;> rfl

variable [NativeState σ] {stack : Nat}

theorem Program.run_done (stack : Nat) (frames : List Frame) (result : Result) :
    Program.run (σ := σ) (stack + 1) frames (.done result) = pure result := rfl

/-- Typed native code is entered with converted arguments, if all of them convert. -/
theorem conclude_withArgs (catchPanics : Bool) (frames : List Frame) (body : Args types → Program σ)
    (args : List Value) :
    (Conclusion.called function params catchPanics).conclude
        (Program.run (stack + 1) frames (withArgs types body args)) =
      (do
        let xs ← ofExcept (convert types function params args)
        (Conclusion.called function params catchPanics).conclude
          (Program.run (stack + 1) frames (body xs))) := by
  cases converted : decodeArgs types 0 args with
  | error e =>
      funext w
      rw [withArgs, convert, converted, Program.run_done,
        Conclusion.called_of_returned function params catchPanics (pure_apply _)]
      rfl
  | ok xs =>
      rw [withArgs, convert, converted]
      rfl

end Verdict

/-- A call ends with the error of the check that fails, and has changed nothing but the journal by then;
or no check fails, and it enters native code, once, with what they give. -/
structure EntersOnce {α β : Type} (verdict : Except Error α → Prop) (call : Act σ β) (w noted : World σ)
    (enter : α → Act σ β) : Prop where
  decided : ∃! result, verdict result
  refused {e : Error} : verdict (.error e) → call w = (.failed e, noted)
  entered {a : α} : verdict (.ok a) → call w = enter a noted

theorem EntersOnce.of_eq {α β : Type} {verdict : Except Error α → Prop} {call : Act σ β}
    {w noted : World σ} {enter : α → Act σ β} (decided : ∃! result, verdict result)
    (same : ∀ {result}, verdict result → call w = (ofExcept result >>= enter) noted) :
    EntersOnce verdict call w noted enter where
  decided
  refused failed := same failed
  entered passed := same passed

namespace FunctionBinding

/-- What a call of a function writes to the journal. -/
def invoking (f : FunctionBinding (Program σ)) (positional : List Value) (keywords : Keywords) : Event :=
  ⟨.debug, .call, "invoking native function",
    [⟨"function", f.name⟩, .ofNat "positional" positional.length, .ofNat "keywords" keywords.length]⟩

/-- A call writes to the journal, binds and checks its arguments, and enters native code. -/
theorem invoke_apply (f : FunctionBinding (Program σ)) (run : Runner σ) (positional : List Value)
    (keywords : Keywords) (w : World σ) :
    f.invoke run positional keywords w =
      (do
        let args ← ofExcept (bindArguments f.name f.params positional keywords)
        ofExcept (checkNesting f.maxDepth f.params args)
        (Conclusion.called f.name f.params f.catchPanics).conclude (run [] (f.entry args)))
        (w.noted (f.invoking positional keywords)) := by
  simp only [invoke, prepare, bind_assoc, pure_bind, NativeCall.enter]
  rfl

variable [NativeState σ] {types : List Ty} {body : Args types → Program σ} {f : FunctionBinding (Program σ)}

/-- The native code of a function on typed arguments, and what becomes of its result. -/
def entering (f : FunctionBinding (Program σ)) (stack : Nat) (body : Args types → Program σ)
    (args : Args types) : Act σ Value :=
  (Conclusion.called f.name f.params f.catchPanics).conclude (Program.run (stack + 1) [] (body args))

theorem invoke_entersOnce (wraps : f.Wraps body) (stack : Nat) (w : World σ) (positional : List Value)
    (keywords : Keywords) :
    EntersOnce (Screened f.name f.params types f.maxDepth none positional keywords)
      (f.invoke (Program.run (stack + 1)) positional keywords) w
      (w.noted (f.invoking positional keywords)) (f.entering stack body) := by
  obtain ⟨entry, lengths⟩ := wraps.shape
  refine .of_eq (Screened.existsUnique lengths ..) fun {verdict} screened => ?_
  rw [invoke_apply, screened.verdict_eq]
  simp only [screen, ofExcept_bind, bind_assoc, entry, conclude_withArgs]
  rfl

end FunctionBinding

end Marshal
