import Mathlib
import Marshal.Proofs.Call.Screening
import Marshal.Proofs.World.Handle
import Marshal.Sample.Account

namespace Marshal

open Act hiding pure bind

variable {σ : Type} {w : World σ}

namespace Handle

variable {handle : Handle} {cell : Cell σ} {state : σ} {c : ClassDef (Program σ)}

/-- What a call of a method writes to the journal. -/
def invoking (handle : Handle) (method : String) (positional : List Value) (keywords : Keywords) : Event :=
  ⟨.debug, .handle, "invoking native method",
    [⟨"method", handle.qualified method⟩, .ofNat "id" handle.id,
      .ofNat "positional" positional.length, .ofNat "keywords" keywords.length]⟩

/-- The error of an instance in use, if it is. -/
def busy? (handle : Handle) (cell : Cell σ) : Option Error :=
  if cell.access = .idle then none else some handle.busy

/-- The action while it alone uses the instance, which was free. -/
def alone (handle : Handle) (act : Act σ Value) : Act σ Value :=
  Act.bracket (handle.setAccess fun _ => .exclusive) (handle.setAccess (Access.leave true)) act

theorem idle_of_free (free : handle.busy? cell = none) : cell.access = .idle := by
  by_contra used
  simp only [busy?, used, ↓reduceIte, reduceCtorEq] at free

theorem enter?_of_free (free : handle.busy? cell = none) : cell.access.enter? true = some .exclusive := by
  rw [idle_of_free free]
  rfl

theorem classDef_of_declared (declared : w.class? handle.classId = some c) :
    handle.classDef w = (.returned c, w) := by
  simp only [Handle.classDef, read_bind_apply, declared, pure_apply]

/-- What stands behind a handle that is alive: an instance of a class. -/
structure Holds (handle : Handle) (w : World σ) (cell : Cell σ) (state : σ) (c : ClassDef (Program σ)) :
    Prop where
  found : w.cell? handle = some cell
  live : 0 < cell.references
  present : cell.state? = some state
  declared : w.class? handle.classId = some c

namespace Holds

variable (holds : handle.Holds w cell state c)

include holds

theorem noted (event : Event) : handle.Holds (w.noted event) cell state c :=
  ⟨holds.found, holds.live, holds.present, holds.declared⟩

theorem alive : handle.alive w = (.returned cell, w) := by
  simp only [Handle.alive, read_bind_apply, holds.found, holds.live, ↓reduceIte, pure_apply]

theorem classDef : handle.classDef w = (.returned c, w) := classDef_of_declared holds.declared

theorem property {name : String} {p : Property (Program σ)} (found : c.property? name = some p) :
    handle.property name w = (.returned p, w) := by
  simp only [Handle.property, bind_of_returned holds.classDef, found, ofOption_some, pure_apply]

theorem whileHeld_of_busy {e : Error} (busy : handle.busy? cell = some e) (act : σ → Act σ Value) :
    handle.whileHeld true act w = (.failed e, w) := by
  simp only [busy?] at busy
  split at busy
  · cases busy
  · rename_i used
    cases busy
    have refused : handle.borrowed true w = (.failed handle.busy, w) := by
      simp only [borrowed, bind_of_returned holds.alive, Access.enter?, ↓reduceIte,
        Access.seize?_eq_none.mpr used, ofOption_none, fail_bind, fail_apply]
    simp only [Handle.whileHeld, bind_of_failed refused]

theorem whileHeld_of_free (free : handle.busy? cell = none) (act : σ → Act σ Value) :
    handle.whileHeld true act w = handle.alone (act state) w := by
  have borrowed : handle.borrowed true w = (.returned (.exclusive, state), w) := by
    simp only [borrowed, bind_of_returned holds.alive, idle_of_free free, Access.enter?,
      Access.seize?, ↓reduceIte, ofOption_some, pure_bind, holds.present, pure_apply]
  simp only [Handle.whileHeld, bind_of_returned borrowed, alone]

/-- An instance is still there after a change of its cell that leaves references and a state. -/
theorem setCell {f : Cell σ → Cell σ} {other : σ} (live : 0 < (f cell).references)
    (present : (f cell).state? = some other) : handle.Holds (w.setCell handle f) (f cell) other c where
  found := by
    have found := holds.found
    simp only [World.cell?] at found
    simp only [World.cell?, World.setCell, List.getElem?_modify_eq, found, Option.map_eq_map, Option.map_some]
  live
  present
  declared := holds.declared

/-- While an instance is held it is there as before. -/
theorem held (access : Access) :
    handle.Holds (handle.setAccess (fun _ => access) w) { cell with access } state c :=
  holds.setCell holds.live holds.present

theorem content? (writable : Bool) :
    (Frame.instance handle writable).content? w = some (.instance state) := by
  simp only [Frame.content?, holds.found, Option.bind_some, holds.present, Option.map_some]

/-- Code that leaves the world in which it holds an instance as it is leaves the world before as it was. -/
theorem bracket_same {α : Type} {writable : Bool} {entered : Access}
    (enters : cell.access.enter? writable = some entered) {act : Act σ α} {outcome : Outcome α}
    (ended : act (handle.setAccess (fun _ => entered) w) = (outcome, handle.setAccess (fun _ => entered) w)) :
    Act.bracket (handle.setAccess fun _ => entered) (handle.setAccess (Access.leave writable)) act w =
      (outcome, w) := by
  have left : bracket (handle.setAccess fun _ => entered) (handle.setAccess (Access.leave writable)) act w =
      (outcome, handle.setAccess (Access.leave writable) (handle.setAccess (fun _ => entered) w)) := by
    simp only [bracket, ended]
  have back : { cell with access := entered.leave writable } = cell := by
    rw [Access.leave_enter? enters]
  rw [left, setAccess, setAccess, World.setCell_setCell]
  exact congrArg (Prod.mk outcome) (World.setCell_of_same holds.found back)

/-- Taking an instance that was free and letting it go again leaves the world as it was. -/
theorem alone_fail (free : handle.busy? cell = none) (e : Error) :
    handle.alone (fail e) w = (.failed e, w) :=
  holds.bracket_same (enter?_of_free free) rfl

theorem alone_ofExcept {α : Type} (free : handle.busy? cell = none) (verdict : Except Error α)
    (next : α → Act σ Value) :
    handle.alone (ofExcept verdict >>= next) w = (ofExcept verdict >>= fun a => handle.alone (next a)) w := by
  cases verdict with
  | error e => rw [ofExcept_error, fail_bind, holds.alone_fail free, fail_bind, fail_apply]
  | ok a => rw [ofExcept_ok, pure_bind, pure_bind]

end Holds

theorem ofExcept_bind_congr {α β : Type} {result : Except Error α} {next other : α → Act σ β}
    (same : ∀ a, next a w = other a w) : (ofExcept result >>= next) w = (ofExcept result >>= other) w := by
  cases result with
  | error e => rfl
  | ok a => exact same a

variable [NativeState σ]

theorem forType_of_same (expected : Error) (program : Except Error (Program σ)) :
    forType (NativeState.typeName state) expected program state = program := by
  cases program with
  | error e => rfl
  | ok program => simp only [forType, ↓reduceIte]; rfl

/-- The native code of a method on typed arguments, and what becomes of its result. -/
def entering {types : List Ty} (handle : Handle) (c : ClassDef (Program σ)) (m : MethodBinding (Program σ))
    (stack : Nat) (body : Args types → Program σ) (args : Args types) : Act σ Value :=
  handle.alone ((Conclusion.called (handle.qualified m.name) m.params c.catchPanics).conclude
    (Program.run (stack + 1) [.instance handle true] (body args)))

section Entering

variable {types : List Ty} {stack : Nat} (m : MethodBinding (Program σ)) (body : Args types → Program σ)
  (args : Args types)

/-- A method that returns lets go of the instance. -/
theorem entering_of_returned {v : Value} {after : World σ}
    (ran : Program.run (stack + 1) [.instance handle true] (body args)
        (handle.setAccess (fun _ => .exclusive) w) = (.returned (.ok v), after)) :
    handle.entering c m stack body args w = (.returned v, handle.setAccess (Access.leave true) after) := by
  have concluded := Conclusion.called_of_returned (handle.qualified m.name) m.params c.catchPanics ran
  simp only [entering, alone, bracket, concluded]
  rfl

/-- A method whose native code changes nothing, on an instance that was free. -/
theorem Holds.entering_of_same {result : Result} (holds : handle.Holds w cell state c)
    (free : handle.busy? cell = none)
    (ran : Program.run (stack + 1) [.instance handle true] (body args)
        (handle.setAccess (fun _ => .exclusive) w) =
      (.returned result, handle.setAccess (fun _ => .exclusive) w)) :
    handle.entering c m stack body args w = resolved (handle.qualified m.name) m.params result w := by
  have concluded := Conclusion.called_of_returned (handle.qualified m.name) m.params c.catchPanics ran
  cases result with
  | ok v => exact holds.bracket_same (enter?_of_free free) concluded
  | error e => exact holds.bracket_same (enter?_of_free free) concluded

end Entering

/-- A getter whose native code changes nothing, on an instance that was free. -/
theorem Holds.getAttr_of_same {stack : Nat} {name : String} {p : Property (Program σ)} {v : Value}
    (holds : handle.Holds w cell state c) (free : handle.busy? cell = none)
    (found : c.property? name = some p) (own : p.receiver = NativeState.typeName state)
    (ran : Program.run (stack + 1) [.instance handle false] p.getter
        (handle.setAccess (fun _ => .shared 0) w) =
      (.returned (.ok v), handle.setAccess (fun _ => .shared 0) w)) :
    handle.getAttr (Program.run (stack + 1)) name w = (.returned v, w) := by
  have enters : cell.access.enter? false = some (.shared 0) := by
    rw [idle_of_free free]
    rfl
  have prepared : handle.prepareGet name w = (.returned (.member handle false
      (forType p.receiver (foreign handle.className) (.ok p.getter)) .read), w) := by
    simp only [prepareGet, bind_of_returned holds.alive, bind_of_returned (holds.property found), pure_apply]
  have borrowed : handle.borrowed false w = (.returned (.shared 0, state), w) := by
    simp only [Handle.borrowed, bind_of_returned holds.alive, enters, ofOption_some, pure_bind, holds.present,
      pure_apply]
  rw [getAttr, bind_of_returned prepared, NativeCall.enter, whileHeld, bind_of_returned borrowed]
  refine holds.bracket_same enters ?_
  rw [own, forType_of_same, ofExcept_ok, pure_bind]
  exact bind_of_returned ran

section Living

variable {name : String} {m : MethodBinding (Program σ)} (alive : handle.alive w = (.returned cell, w))
  (declared : w.class? handle.classId = some c)

include alive declared

theorem prepareInvoke_of_missing (missing : c.method? name = none) (positional : List Value)
    (keywords : Keywords) :
    handle.prepareInvoke name positional keywords w =
      (.failed (.attributeNotFound name handle.className), w) := by
  simp only [prepareInvoke, bind_of_returned alive, bind_of_returned (classDef_of_declared declared), missing,
    ofOption_none, fail_bind, fail_apply]

/-- A name that leads to a method leads to its body, once arguments are bound and checked. -/
theorem prepareInvoke_of_method (found : c.method? name = some m) (positional : List Value)
    (keywords : Keywords) :
    handle.prepareInvoke name positional keywords w =
      (do
        let args ← ofExcept (bindArguments (handle.qualified m.name) m.params positional keywords)
        ofExcept (checkNesting c.maxDepth m.params args)
        return NativeCall.member handle true (forType m.receiver (foreign m.receiver) (.ok (m.entry args)))
          (.called (handle.qualified m.name) m.params c.catchPanics))
        (w.noted (handle.invoking m.name positional keywords)) := by
  simp only [prepareInvoke, bind_of_returned alive, bind_of_returned (classDef_of_declared declared), found,
    ofOption_some, pure_bind]
  rfl

theorem invoke_of_method (run : Runner σ) (found : c.method? name = some m) (positional : List Value)
    (keywords : Keywords) :
    handle.invoke run name positional keywords w =
      (do
        let args ← ofExcept (bindArguments (handle.qualified m.name) m.params positional keywords)
        ofExcept (checkNesting c.maxDepth m.params args)
        handle.whileHeld true fun state => do
          let program ← ofExcept (forType m.receiver (foreign m.receiver) (.ok (m.entry args)) state)
          (Conclusion.called (handle.qualified m.name) m.params c.catchPanics).conclude
            (run [.instance handle true] program))
        (w.noted (handle.invoking m.name positional keywords)) := by
  rw [invoke, bind_apply_of_eq (prepareInvoke_of_method alive declared found positional keywords)]
  simp only [bind_assoc, pure_bind, NativeCall.enter]

end Living

theorem invoke_of_missing {name : String} (run : Runner σ) (holds : handle.Holds w cell state c)
    (missing : c.method? name = none) (positional : List Value) (keywords : Keywords) :
    handle.invoke run name positional keywords w =
      (.failed (.attributeNotFound name handle.className), w) :=
  bind_of_failed (prepareInvoke_of_missing holds.alive holds.declared missing positional keywords)

theorem invoke_of_found {name : String} {m : MethodBinding (Program σ)} (run : Runner σ)
    (holds : handle.Holds w cell state c) (found : c.method? name = some m) (positional : List Value)
    (keywords : Keywords) :
    handle.invoke run name positional keywords w =
      (do
        let args ← ofExcept (bindArguments (handle.qualified m.name) m.params positional keywords)
        ofExcept (checkNesting c.maxDepth m.params args)
        handle.whileHeld true fun state => do
          let program ← ofExcept (forType m.receiver (foreign m.receiver) (.ok (m.entry args)) state)
          (Conclusion.called (handle.qualified m.name) m.params c.catchPanics).conclude
            (run [.instance handle true] program))
        (w.noted (handle.invoking m.name positional keywords)) :=
  invoke_of_method holds.alive holds.declared run found positional keywords

theorem invoke_entersOnce {types : List Ty} {body : Args types → Program σ} {name : String}
    {m : MethodBinding (Program σ)} (holds : handle.Holds w cell state c) (found : c.method? name = some m)
    (wraps : m.Wraps (NativeState.typeName state) body) (stack : Nat) (positional : List Value)
    (keywords : Keywords) :
    EntersOnce
      (Screened (handle.qualified m.name) m.params types c.maxDepth (handle.busy? cell) positional
        keywords)
      (handle.invoke (Program.run (stack + 1)) name positional keywords) w
      (w.noted (handle.invoking m.name positional keywords)) (handle.entering c m stack body) := by
  obtain ⟨entry, lengths, receiver⟩ := wraps.shape
  refine .of_eq (Screened.existsUnique lengths ..) fun {verdict} screened => ?_
  have after := holds.noted (handle.invoking m.name positional keywords)
  rw [invoke_of_found _ holds found, screened.verdict_eq]
  simp only [screen, ofExcept_bind, bind_assoc]
  refine ofExcept_bind_congr fun args => ofExcept_bind_congr fun _ => ?_
  cases occupied : handle.busy? cell with
  | some e =>
      rw [after.whileHeld_of_busy occupied]
      rfl
  | none =>
      rw [after.whileHeld_of_free occupied, receiver, forType_of_same, ofExcept_ok, pure_bind, entry,
        conclude_withArgs, after.alone_ofExcept occupied]
      rfl

/-- What the checks before a setter come to.  The location of an error begins with the name that the
property was declared with. -/
inductive Assigned (accepted : Ty) (declared : String) (busy? : Option Error) (value : Value) :
    Except Error accepted.Carrier → Prop
  | busy {e : Error} (busy : busy? = some e) : Assigned accepted declared busy? value (.error e)
  | unconverted {e : Error} (free : busy? = none) (failed : accepted.decode value = .error e) :
      Assigned accepted declared busy? value (.error (e.within declared))
  | passed {x : accepted.Carrier} (free : busy? = none) (converted : accepted.decode value = .ok x) :
      Assigned accepted declared busy? value (.ok x)

theorem Assigned.existsUnique (accepted : Ty) (declared : String) (busy? : Option Error) (value : Value) :
    ∃! verdict, Assigned accepted declared busy? value verdict := by
  cases busy? with
  | some e =>
      refine ⟨_, .busy rfl, fun verdict assigned => ?_⟩
      cases assigned with
      | busy same =>
          cases same
          rfl
      | unconverted free | passed free => cases free
  | none =>
      cases decoded : accepted.decode value with
      | error e =>
          refine ⟨_, .unconverted rfl decoded, fun verdict assigned => ?_⟩
          cases assigned with
          | busy busy => cases busy
          | unconverted _ failed =>
              cases decoded.symm.trans failed
              rfl
          | passed _ converted => cases decoded.symm.trans converted
      | ok x =>
          refine ⟨_, .passed rfl decoded, fun verdict assigned => ?_⟩
          cases assigned with
          | busy busy => cases busy
          | unconverted _ failed => cases decoded.symm.trans failed
          | passed _ converted =>
              cases decoded.symm.trans converted
              rfl

/-- The native code of a setter on a converted value; its result is dropped. -/
def assigning (handle : Handle) (stack : Nat) (program : Program σ) : Act σ Unit := do
  let _ ← handle.alone
    (Conclusion.written.conclude (Program.run (stack + 1) [.instance handle true] program))
  pure ()

section Setters

variable {name : String} {p : Property (Program σ)} (holds : handle.Holds w cell state c)

include holds

theorem setAttr_of_missing (run : Runner σ) (missing : c.property? name = none) (value : Value) :
    handle.setAttr run name value w = (.failed (.attributeNotFound name handle.className), w) := by
  simp only [setAttr, prepareSet, Handle.property, bind_assoc, bind_of_returned holds.alive,
    bind_of_returned holds.classDef, missing, ofOption_none, fail_bind, fail_apply]

theorem setAttr_of_readOnly (run : Runner σ) (found : c.property? name = some p)
    (readOnly : p.setter? = none) (value : Value) :
    handle.setAttr run name value w =
      (.failed (.borrowedMutation s!"property '{name}' of {handle.className} is read-only"), w) := by
  simp only [setAttr, prepareSet, bind_assoc, bind_of_returned holds.alive,
    bind_of_returned (holds.property found), readOnly, ofOption_none, fail_bind, fail_apply]

theorem setAttr_of_setter {setter : Setter (Program σ)} (run : Runner σ)
    (found : c.property? name = some p) (settable : p.setter? = some setter) (value : Value) :
    handle.setAttr run name value w =
      (do
        let _ ← handle.whileHeld true fun present => do
          let program ← ofExcept (forType p.receiver (foreign p.receiver) (setter.accept value) present)
          Conclusion.written.conclude (run [.instance handle true] program)
        pure ()) w := by
  simp only [setAttr, prepareSet, bind_assoc, bind_of_returned holds.alive,
    bind_of_returned (holds.property found), settable, ofOption_some, pure_bind, NativeCall.enter]

theorem setAttr_entersOnce {declared : String} {type accepted : Ty} {getter : Native σ type.Carrier}
    {setter : accepted.Carrier → Native σ Unit}
    (found : c.property? name =
      some (.readWrite declared (NativeState.typeName state) type getter accepted setter))
    (stack : Nat) (value : Value) :
    EntersOnce (Assigned accepted declared (handle.busy? cell) value)
      (handle.setAttr (Program.run (stack + 1)) name value) w w
      (fun x => handle.assigning stack (setter x fun _ => .done (.ok .none))) := by
  refine .of_eq (Assigned.existsUnique ..) fun {verdict} assigned => ?_
  rw [setAttr_of_setter holds _ found rfl]
  cases assigned with
  | busy busy => rw [bind_of_failed (holds.whileHeld_of_busy busy _), ofExcept_error, fail_bind, fail_apply]
  | unconverted free failed =>
      simp only [Property.readWrite, Property.readOnly, failed]
      rw [bind_of_failed ((holds.whileHeld_of_free free _).trans (holds.alone_fail free _))]
      rfl
  | passed free converted =>
      simp only [Property.readWrite, Property.readOnly, converted]
      rw [bind_apply, Act.bind, holds.whileHeld_of_free free, forType_of_same, ofExcept_ok, pure_bind]
      rfl

end Setters

end Handle

/-- Calls on an instance that is gone fail as such and change nothing. -/
structure Handle.Unreachable [NativeState σ] (handle : Handle) (stack : Nat) (w : World σ) : Prop where
  invoke : ∀ name positional keywords,
    handle.invoke (Program.run (stack + 1)) name positional keywords w = (.failed handle.gone, w)
  setAttr : ∀ name value,
    handle.setAttr (Program.run (stack + 1)) name value w = (.failed handle.gone, w)

/-- How calls on an instance go: what their checks are, in their order, and that native code runs only after
all of them.  A member has to be there before anything else of the call is looked at. -/
structure Handle.Checks [NativeState σ] (handle : Handle) (stack : Nat) (w : World σ) (cell : Cell σ)
    (state : σ) (c : ClassDef (Program σ)) : Prop where
  noMethod : ∀ name, c.method? name = none → ∀ positional keywords,
    handle.invoke (Program.run (stack + 1)) name positional keywords w =
      (.failed (.attributeNotFound name handle.className), w)
  method : ∀ name {types : List Ty} {body : Args types → Program σ} {m : MethodBinding (Program σ)},
    c.method? name = some m → m.Wraps (NativeState.typeName state) body → ∀ positional keywords,
    EntersOnce
      (Screened (handle.qualified m.name) m.params types c.maxDepth (handle.busy? cell) positional keywords)
      (handle.invoke (Program.run (stack + 1)) name positional keywords) w
      (w.noted (handle.invoking m.name positional keywords)) (handle.entering c m stack body)
  noProperty : ∀ name, c.property? name = none → ∀ value,
    handle.setAttr (Program.run (stack + 1)) name value w =
      (.failed (.attributeNotFound name handle.className), w)
  readOnly : ∀ name p, c.property? name = some p → p.setter? = none → ∀ value,
    handle.setAttr (Program.run (stack + 1)) name value w =
      (.failed (.borrowedMutation s!"property '{name}' of {handle.className} is read-only"), w)
  setter : ∀ name {declared : String} {type accepted : Ty} {getter : Native σ type.Carrier}
    {setter : accepted.Carrier → Native σ Unit},
    c.property? name =
      some (.readWrite declared (NativeState.typeName state) type getter accepted setter) → ∀ value,
    EntersOnce (Handle.Assigned accepted declared (handle.busy? cell) value)
      (handle.setAttr (Program.run (stack + 1)) name value) w w
      (fun x => handle.assigning stack (setter x fun _ => .done (.ok .none)))

theorem Handle.unreachable_of_gone [NativeState σ] {handle : Handle} (gone : w.references handle = 0)
    (stack : Nat) : handle.Unreachable stack w := by
  rw [handle.references_eq] at gone
  exact ⟨handle.invoke_of_gone gone _, handle.setAttr_of_gone gone _⟩

theorem Handle.Holds.checks [NativeState σ] {handle : Handle} {cell : Cell σ} {state : σ}
    {c : ClassDef (Program σ)} (holds : handle.Holds w cell state c) (stack : Nat) :
    handle.Checks stack w cell state c where
  noMethod _ := handle.invoke_of_missing _ holds
  method _ _ _ _ found wraps := handle.invoke_entersOnce holds found wraps stack
  noProperty _ := handle.setAttr_of_missing holds _
  readOnly _ _ found readOnly := handle.setAttr_of_readOnly holds _ found readOnly
  setter _ _ _ _ _ _ found := handle.setAttr_entersOnce holds found stack

/-- Typed native code runs once if all checks before it pass.  If one fails, the call ends with the error
of the first that does, and only the journal tells of it. -/
theorem validation_precedes_native_code [NativeState σ] (stack : Nat) (w : World σ) :
    (∀ {types : List Ty} {body : Args types → Program σ} {f : FunctionBinding (Program σ)},
      f.Wraps body → ∀ positional keywords,
      EntersOnce (Screened f.name f.params types f.maxDepth none positional keywords)
        (f.invoke (Program.run (stack + 1)) positional keywords) w
        (w.noted (f.invoking positional keywords)) (f.entering stack body)) ∧
    (∀ handle : Handle, w.references handle = 0 → handle.Unreachable stack w) ∧
    (∀ {handle : Handle} {cell : Cell σ} {state : σ} {c : ClassDef (Program σ)},
      handle.Holds w cell state c → handle.Checks stack w cell state c) ∧
    (∀ {limit : Nat} {v : Value} {e : Error}, v.checkDepth limit = .error e →
      ∀ name, (e.within name).LocatedAt name) ∧
    ∀ {t : Ty} {v : Value} {e : Error}, t.decode v = .error e → ∀ name, (e.within name).LocatedAt name := by
  refine ⟨?_, ?_, ?_, ?_, ?_⟩
  · exact fun wraps => FunctionBinding.invoke_entersOnce wraps stack w
  · exact fun handle gone => Handle.unreachable_of_gone gone stack
  · exact fun holds => holds.checks stack
  · exact fun refused => Value.locatedAt_of_checkDepth refused
  · exact fun failed => Ty.locatedAt_of_decode failed

namespace Sample

def half : NativeCode State [long] long := fun (n, _) => ok (Fixed.wrap .i64 (n.val / 2))

def halfOf : FunctionBinding (Program State) := .ofNative "half" [long] long half

def bank : ClassDef (Program State) where
  name := "Account"
  instanceType := accountType
  methods := [("deposit", .ofNative "deposit" accountType [long] .unit Account.deposited)]
  properties := [("owner", Account.ownerProperty "owner")]

def teller : Handle := { slot := 0, classId := 0, className := "Account" }

/-- An account behind a handle. -/
def branch : World State where
  cells := [{ handle := teller, references := 1, state? := some (.account { balance := Long.zero }),
              access := .idle }]
  classes := [bank]

end Sample

open Sample in
theorem validation_precedes_native_code_account :
    halfOf.invoke (Program.run 1) [.str "7"] [] branch =
      (.failed (.typeMismatch "int" "str" "arg1"), branch.noted (halfOf.invoking [.str "7"] [])) ∧
    teller.invoke (Program.run 1) "deposit" [.int 7 none] [] branch =
      teller.entering bank (.ofNative "deposit" accountType [long] .unit Account.deposited) 0
        Account.deposited.program (Fixed.wrap .i64 7, ())
        (branch.noted (teller.invoking "deposit" [.int 7 none] [])) ∧
    teller.setAttr (Program.run 1) "owner" .none branch =
      (.failed (.typeMismatch "str" "NoneType" "owner"), branch) := by
  obtain ⟨functions, _, members, _⟩ := validation_precedes_native_code 0 branch
  have holds : teller.Holds branch _ _ bank := ⟨rfl, by decide, rfl, rfl⟩
  have called := functions (.native "half" long half rfl) [.str "7"] []
  have method := (members holds).method "deposit" rfl (.native "deposit" .unit Account.deposited rfl)
    [.int 7 none] []
  have setter := (members holds).setter "owner" rfl .none
  have located : ∀ expected actual name, (Error.typeMismatch expected actual "").within name =
      .typeMismatch expected actual name := fun _ _ _ => by simp [Error.within, Error.joinLocation]
  have given : bindArguments "half" halfOf.params [.str "7"] [] = .ok [.str "7"] := rfl
  have first : halfOf.params[0]? = some { name := "arg1", type := long.native } := rfl
  have deposit : bindArguments "Account.deposit" [{ name := "arg1", type := long.native }] [.int 7 none] [] =
      .ok [.int 7 none] := rfl
  refine ⟨called.refused ?_, method.entered ?_, setter.refused ?_⟩
  · rw [← located]
    exact .unconverted given (by decide) rfl first rfl rfl rfl (by simp)
  · exact .passed deposit (by decide) rfl ⟨_, _, rfl, rfl, rfl⟩
  · rw [← located]
    exact .unconverted rfl rfl

end Marshal
