import Mathlib
import Marshal.Proofs.Call.Blame
import Marshal.Proofs.Module.Exports
import Marshal.Proofs.Program.Chronicle

namespace Marshal

open Act hiding pure bind

variable {σ : Type}

namespace ClassDef

variable {π : Type} (c : ClassDef π) {name : String}

/-- The latest of some methods that a class has under a name once it has taken them. -/
def latest? (taken : List (MethodBinding π)) (name : String) : Option (MethodBinding π) :=
  taken.reverse.find? fun m => c.naming.apply m.name = name

theorem method?_take (m : MethodBinding π) (name : String) :
    (c.take m).method? name =
      if c.naming.apply m.name = name then some (m.rename c.naming) else c.method? name :=
  Entries.get?_insert ..

theorem naming_taking (taken : List (MethodBinding π)) : (c.taking taken).naming = c.naming :=
  c.taking_same (fun _ _ => rfl) taken

/-- Of the methods that a class has taken under a name the latest is found. -/
theorem method?_taking (taken : List (MethodBinding π)) (name : String) :
    (c.taking taken).method? name =
      ((c.latest? taken name).map fun m => m.rename c.naming).or (c.method? name) := by
  induction taken using List.reverseRecOn with
  | nil => rfl
  | append_singleton taken m ih =>
      rw [taking_append, latest?, List.reverse_append, List.reverse_singleton, List.singleton_append,
        List.find?_cons, taking, List.foldl_cons, List.foldl_nil, method?_take, naming_taking]
      by_cases here : c.naming.apply m.name = name
      · simp only [here, ↓reduceIte, decide_true, Option.map_some, Option.some_or]
      · simp only [here, ↓reduceIte, decide_false]
        exact ih

/-- A method keeps the place of the one that it replaces, or comes last. -/
theorem methodNames_take (m : MethodBinding π) :
    (c.take m).methodNames =
      if c.naming.apply m.name ∈ c.methodNames then c.methodNames
      else c.methodNames ++ [c.naming.apply m.name] :=
  Entries.keys_insert ..

end ClassDef

/-- A program that defines a method goes on with the answer, whatever runs it. -/
theorem Program.execute_define [NativeState σ] {w after : World σ} {classId : Nat}
    {m : MethodBinding (Program σ)} (run : Runner σ) (frames : List Frame)
    (next : Except Error Value → Program σ) {reply : Except Error Value}
    (served : ((Request.defineMethod classId m).serve run).attempt w = (.returned reply, after)) :
    execute run frames (.request (.defineMethod classId m) next) w = execute run frames (next reply) after :=
  bind_of_returned served

namespace Handle

variable [NativeState σ] {handle : Handle} {w : World σ} {c : ClassDef (Program σ)} {name : String}
  {m : MethodBinding (Program σ)}

omit [NativeState σ] in
theorem alive_of_references (live : 0 < w.references handle) :
    ∃ cell, handle.alive w = (.returned cell, w) := by
  rcases handle.alive_cases (w := w) with ⟨cell, _, _, alive⟩ | ⟨none, _⟩
  · exact ⟨cell, alive⟩
  · rw [references_eq] at live
    exact absurd none (Nat.ne_of_gt live)

variable (live : 0 < w.references handle) (declared : w.class? handle.classId = some c)

include live declared

/-- The name of a method is what decides whether a call finds one: its arguments are not to blame for that. -/
theorem prepareInvoke_notFound_iff (positional : List Value) (keywords : Keywords) :
    (handle.prepareInvoke name positional keywords w).1 = .failed (.attributeNotFound name handle.className) ↔
      c.method? name = none := by
  obtain ⟨cell, alive⟩ := alive_of_references live
  cases found : c.method? name with
  | none => simp only [prepareInvoke_of_missing alive declared found]
  | some m =>
      simp only [reduceCtorEq, iff_false]
      rw [prepareInvoke_of_method alive declared found]
      cases bound : bindArguments (handle.qualified m.name) m.params positional keywords with
      | error e =>
          obtain ⟨detail, rfl⟩ := arity_of_bindArguments bound
          exact nofun
      | ok args =>
          cases checked : checkNesting c.maxDepth m.params args with
          | error e =>
              obtain ⟨_, _, _, _, _, _, path, _, located⟩ := below_of_checkNesting checked
              rw [ofExcept_ok, pure_bind, checked]
              rintro ⟨⟩
              cases located
          | ok _ =>
              rw [ofExcept_ok, pure_bind, checked]
              exact nofun

/-- The code that a call enters is the body of the method that it found, on the arguments that it bound. -/
theorem program_of_opening {positional : List Value} {keywords : Keywords} {o : Opening σ}
    (opened : (Request.invoke handle name positional keywords).opening? w = some o) :
    ∃ m args, c.method? name = some m ∧
      bindArguments (handle.qualified m.name) m.params positional keywords = .ok args ∧
      o.program = m.entry args := by
  obtain ⟨cell, alive⟩ := alive_of_references live
  simp only [Request.opening?, Request.prepare?, Option.bind_eq_bind, Option.bind_some] at opened
  cases found : c.method? name with
  | none =>
      rw [prepareInvoke_of_missing alive declared found] at opened
      cases opened
  | some m =>
      rw [prepareInvoke_of_method alive declared found] at opened
      cases bound : bindArguments (handle.qualified m.name) m.params positional keywords with
      | error e =>
          rw [bound] at opened
          cases opened
      | ok args =>
          refine ⟨m, args, rfl, bound, ?_⟩
          rw [bound, ofExcept_ok, pure_bind] at opened
          cases checked : checkNesting c.maxDepth m.params args with
          | error e =>
              rw [checked] at opened
              cases opened
          | ok _ =>
              rw [checked, ofExcept_ok, pure_bind, pure_apply] at opened
              simp only [NativeCall.opening?, Option.bind_eq_bind, Option.bind_eq_some_iff] at opened
              obtain ⟨⟨state, held⟩, _, program, accepted, opening⟩ := opened
              cases opening
              by_cases own : m.receiver = NativeState.typeName state
              · rw [own, forType_of_same] at accepted
                exact (Option.some.inj accepted).symm
              · rw [forType_of_foreign own] at accepted
                cases accepted

end Handle

/-- How a call of a method goes on a living instance of a class. -/
structure Handle.Dispatches [NativeState σ] (handle : Handle) (c : ClassDef (Program σ)) (name : String)
    (positional : List Value) (keywords : Keywords) (w : World σ) : Prop where
  /-- The arguments are not to blame where no method is found. -/
  notFound : (handle.prepareInvoke name positional keywords w).1 =
    .failed (.attributeNotFound name handle.className) ↔ c.method? name = none
  missing : c.method? name = none → ∀ run, handle.invoke run name positional keywords w =
    (.failed (.attributeNotFound name handle.className), w)
  called : ∀ b, c.method? name = some b → ∀ run, handle.invoke run name positional keywords w =
    (do
      let args ← ofExcept (bindArguments (handle.qualified b.name) b.params positional keywords)
      ofExcept (checkNesting c.maxDepth b.params args)
      handle.enter c b run args) (w.noted (handle.invoking b.name positional keywords))
  /-- The code that is entered is the body of the method that was found, on the arguments bound to it. -/
  entered : ∀ o, (Request.invoke handle name positional keywords).opening? w = some o →
    ∃ b args, c.method? name = some b ∧
      bindArguments (handle.qualified b.name) b.params positional keywords = .ok args ∧
        o.program = b.entry args

theorem Handle.dispatches_of_references [NativeState σ] {handle : Handle} {w : World σ}
    {c : ClassDef (Program σ)} (live : 0 < w.references handle)
    (declared : w.class? handle.classId = some c) (name : String) (positional : List Value)
    (keywords : Keywords) : handle.Dispatches c name positional keywords w := by
  obtain ⟨cell, alive⟩ := alive_of_references live
  constructor
  case notFound => exact prepareInvoke_notFound_iff live declared positional keywords
  case missing =>
    intro missing run
    exact bind_of_failed (prepareInvoke_of_missing alive declared missing positional keywords)
  case called =>
    intro b found run
    exact invoke_of_method alive declared run found positional keywords
  case entered =>
    intro o opened
    exact program_of_opening live declared opened

/-- What comes of a class that takes a method: code that defines it goes on, and only this class has
changed. -/
structure ClassDef.Takes [NativeState σ] (c : ClassDef (Program σ)) (id : Nat) (b : MethodBinding (Program σ))
    (w after : World σ) : Prop where
  defined : ∀ run frames next, Program.execute run frames (.request (.defineMethod id b) next) w =
    Program.execute run frames (next (.ok .none)) after
  taken : after.class? id = some (c.take b)
  others : ∀ other, other ≠ id → after.class? other = w.class? other
  /-- The method takes the place of the one with its name, or comes last. -/
  placed : (c.take b).methodNames =
    if c.naming.apply b.name ∈ c.methodNames then c.methodNames else c.methodNames ++ [c.naming.apply b.name]

theorem ClassDef.takes_of_own [NativeState σ] {c : ClassDef (Program σ)} {id : Nat}
    {b : MethodBinding (Program σ)} {w : World σ} (present : w.class? id = some c)
    (own : b.receiver = c.instanceType) : ∃ after, c.Takes id b w after := by
  obtain ⟨after, defined, classes⟩ := define_of_own present own
  have there : ∀ other, after.class? other =
      if id = other then (w.class? other).map fun c => c.take b else w.class? other := by
    intro other
    exact (World.class?_of_classes classes other).trans (World.class?_setClass ..)
  refine ⟨after, ?_, ?_, ?_, c.methodNames_take b⟩
  · intro run frames next
    exact Program.execute_define run frames next
      (attempt_of_returned ((bind_of_returned defined).trans (pure_apply _)))
  · rw [there, if_pos rfl, present, Option.map_some]
  · intro other ne
    rw [there, if_neg (Ne.symm ne)]

/-- At every moment of a session a class has the methods that it was given last, each under the name
that its naming style gives.  A call of a name on any living instance of the class reaches the body of
the latest of them, or else the one that the class had from the start, and it fails to find a method
just when there is neither.  A method of another receiver is refused, which changes nothing; any other
one takes the place of the method with its name, or comes last.  Code that runs, or has been entered,
goes on as what it is, whatever is defined meanwhile. -/
theorem dispatch_latest [NativeState σ] {start : World σ} {id : Nat} {c : ClassDef (Program σ)}
    (known : start.class? id = some c) {stack : Nat} {programs : List (Program σ)}
    {before rest : List (Moment σ)} {m : Moment σ}
    (reached : Program.sessionMoments stack programs start = before ++ m :: rest) :
    ∃ now, m.world.class? id = some now ∧ now.naming = c.naming ∧
      (∀ name, now.method? name =
        ((c.latest? (taken id before) name).map fun b => b.rename c.naming).or (c.method? name)) ∧
      (∀ handle : Handle, handle.classId = id → 0 < m.world.references handle → ∀ name positional keywords,
        handle.Dispatches now name positional keywords m.world) ∧
      ∀ b : MethodBinding (Program σ),
        (b.receiver ≠ now.instanceType → ∀ run frames next,
          Program.execute run frames (.request (.defineMethod id b) next) m.world =
            Program.execute run frames (next (.error (.mismatch now.name b.receiver))) m.world) ∧
        (b.receiver = now.instanceType → ∃ after, now.Takes id b m.world after) := by
  have chronicle := Program.chronicle_session id stack programs start
  rw [reached] at chronicle
  have present : m.world.class? id = some (c.taking (taken id before)) := by
    rw [chronicle.class_at, known, Option.map_some]
  refine ⟨_, present, c.naming_taking _, c.method?_taking _, ?_, fun b => ⟨?_, ?_⟩⟩
  · intro handle same live name positional keywords
    subst same
    exact handle.dispatches_of_references live present name positional keywords
  · intro foreign run frames next
    refine Program.execute_define run frames next ?_
    simp only [Request.serve, attempt, bind_of_failed (ClassDef.define_of_foreign present foreign)]
  · exact ClassDef.takes_of_own present

namespace Sample

/-- An account of a class that shows its methods in snake case. -/
def spelled : World State := { branch with classes := [{ bank with naming := .snakeCase }] }

/-- Defines two methods that have one name in snake case, the second one after the first. -/
def redefining : Program State :=
  .request (.defineMethod 0 covered) fun _ => .request (.defineMethod 0 covering) fun _ => .done (.ok .none)

end Sample

open Sample in
theorem dispatch_latest_redefined :
    ∃ (before rest : List (Moment State)) (m : Moment State) (now : ClassDef (Program State)),
      Program.sessionMoments 1 [redefining] spelled = before ++ m :: rest ∧ before.length = 2 ∧
        m.world.class? 0 = some now ∧
        (now.method? "get_balance").map MethodBinding.returns = some Ty.unit.native ∧
        (now.method? "deposit").map MethodBinding.name = some "deposit" ∧
        ∀ run, teller.invoke run "GetBalance" [] [] m.world =
          (.failed (.attributeNotFound "GetBalance" "Account"), m.world) := by
  have reached : Program.sessionMoments 1 [redefining] spelled = [_, _] ++ _ :: _ := rfl
  have known : spelled.class? 0 = some { bank with naming := .snakeCase } := rfl
  obtain ⟨now, present, _, methods, calls, _⟩ := dispatch_latest known reached
  have twice := methods "get_balance"
  have first := methods "deposit"
  have declared := methods "GetBalance"
  refine ⟨_, _, _, now, reached, rfl, present, ?_, ?_,
    (calls teller rfl (by decide) "GetBalance" [] []).missing ?_⟩
  · rw [twice]
    decide
  · rw [first]
    decide
  · rw [declared]
    decide

end Marshal
