import Marshal.World.Kept

/-!
# Handles and calls

A handle counts the references that callers hold.  The last release destroys the instance; after it
every operation fails.  A call of a method, a setter or a body that holds an instance borrows it for
writing, a getter for reading, for as long as native code runs, however that ends.

What native code does is left to a `Runner`, so that nothing here depends on how programs are run.
-/

namespace Marshal

variable {σ : Type}

/-- Runs native code on behalf of a function; where panics are caught, one becomes an error. -/
def guarded {α : Type} (function : String) (catchPanics : Bool) (act : Act σ α) : Act σ α :=
  if catchPanics then fun w =>
    match act w with
    | (.panicked payload, w) =>
      (do
        Act.log ⟨.warn, .call, "native code panicked",
          [.quoted "function" function, ⟨"message", payload.message⟩]⟩
        Act.fail (.native function s!"native panic: {payload.message}")) w
    | other => other
  else act

def resolved (function : String) (params : List Param) : Result → Act σ Value
  | .ok value => pure value
  | .error e => Act.fail (e.resolve function params)

/-- The value of a finished accessor; its errors stay as they are. -/
def accessed : Result → Act σ Value
  | .ok value => pure value
  | .error (.argument _ e) | .error (.failed e) => Act.fail e

/-- What becomes of native code that was entered, and of its result. -/
inductive Conclusion
  | called (function : String) (params : List Param) (catchPanics : Bool)
  | read
  /-- The result of a setter is dropped. -/
  | written

def Conclusion.conclude (act : Act σ Result) : Conclusion → Act σ Value
  | .called function params catchPanics => do
    resolved function params (← guarded function catchPanics act)
  | .read => do accessed (← act)
  | .written => do
    let _ ← accessed (← act)
    return .none

/-- Runs the entry of a function on one value per parameter, with nothing checked before. -/
def FunctionBinding.apply (run : Runner σ) (f : FunctionBinding (Program σ)) (args : List Value) :
    Act σ Value := do
  match ← run [] (f.entry args) with
  | .ok value => pure value
  | .error (.argument _ e) | .error (.failed e) => Act.fail e

namespace ClassDef

/-- Makes a class known to the world and gives it a number. -/
def declare (c : ClassDef (Program σ)) : Act σ Nat := fun w =>
  (.returned w.classes.length, { w with classes := w.classes ++ [c] })

/-- Adds a method to a class or replaces one; handles see it from their next call on.  The method has
to be one of the class's native type.  A method that is replaced lets go of its defaults. -/
def define (classId : Nat) (m : MethodBinding (Program σ)) : Act σ Unit := do
  let some c ← Act.read fun w => w.class? classId | pure ()
  if m.receiver ≠ c.instanceType then Act.fail (.mismatch c.name m.receiver)
  let m := m.rename c.naming
  Act.log ⟨.debug, .handle, "defined method", [⟨"class", c.name⟩, ⟨"method", m.name⟩]⟩
  Act.modify fun w => w.setClass classId fun c => c.addMethod m
  if let some old := c.method? m.name then Act.drop (.seq old.defaults)

end ClassDef

namespace Handle

def create (classId : Nat) (state : σ) : Act σ Handle := do
  let handle ← Act.read fun w =>
    { slot := w.cells.length, classId, className := ((w.class? classId).map ClassDef.name).getD "" }
  Act.log ⟨.debug, .handle, "created native instance",
    [⟨"class", handle.className⟩, .ofNat "id" handle.id]⟩
  Act.modify fun w =>
    { w with cells := w.cells ++ [{ handle, references := 1, state? := some state, access := .idle }] }
  return handle

variable (handle : Handle)

/-- The error of using an instance that is gone. -/
def gone : Error := .useAfterFree handle.className handle.id

/-- The error of using an instance that another call is using. -/
def busy : Error :=
  .borrowedMutation s!"{handle.className} #{handle.id} is already in use by another call"

/-- What stands behind the handle, if callers hold references. -/
def alive : Act σ (Cell σ) := do
  match ← Act.read fun w => w.cell? handle with
  | some cell => if 0 < cell.references then pure cell else Act.fail handle.gone
  | none => Act.fail handle.gone

def setReferences (references : Nat) : Act σ Unit :=
  Act.modify fun w => w.setCell handle fun cell => { cell with references }

def retain : Act σ Unit := do
  let cell ← handle.alive
  handle.setReferences (cell.references + 1)

/-- Takes a reference back, and says whether that destroyed the instance. -/
def release : Act σ Bool := do
  let cell ← handle.alive
  if 1 < cell.references then
    handle.setReferences (cell.references - 1)
    return false
  else
    let _ ← Act.ofOption handle.busy cell.access.seize?
    Act.modify fun w => w.setCell handle fun cell => { cell with references := 0, state? := none }
    Act.log ⟨.debug, .handle, "destroyed native instance",
      [⟨"class", handle.className⟩, .ofNat "id" handle.id]⟩
    return true

def setAccess (f : Access → Access) (w : World σ) : World σ :=
  w.setCell handle fun cell => { cell with access := f cell.access }

/-- The instance, if it may be used in this way, and what its access becomes then. -/
def borrowed (writable : Bool) : Act σ (Access × σ) := do
  let cell ← handle.alive
  let access ← Act.ofOption handle.busy (cell.access.enter? writable)
  let state ← Act.ofOption handle.gone cell.state?
  return (access, state)

/-- The action while the instance is borrowed; it is given the instance. -/
def whileHeld {α : Type} (writable : Bool) (act : σ → Act σ α) : Act σ α := do
  let (access, state) ← handle.borrowed writable
  Act.bracket (handle.setAccess fun _ => access) (handle.setAccess (Access.leave writable)) (act state)

def classDef : Act σ (ClassDef (Program σ)) := do
  match ← Act.read fun w => w.class? handle.classId with
  | some c => pure c
  | none => Act.fail handle.gone

def property (name : String) : Act σ (Property (Program σ)) := do
  let c ← handle.classDef
  Act.ofOption (.attributeNotFound name handle.className) (c.property? name)

end Handle

/-- Native code that a call has led to, with nothing left to check but what depends on the instance. -/
inductive NativeCall (σ : Type)
  | function (program : Program σ) (conclusion : Conclusion)
  | member (handle : Handle) (writable : Bool) (program : σ → Except Error (Program σ))
      (conclusion : Conclusion)

/-- Runs the native code that a call has led to. -/
def NativeCall.enter (run : Runner σ) : NativeCall σ → Act σ Value
  | .function program conclusion => conclusion.conclude (run [] program)
  | .member handle writable program conclusion =>
    handle.whileHeld writable fun state => do
      let program ← Act.ofExcept (program state)
      conclusion.conclude (run [.instance handle writable] program)

namespace FunctionBinding

/-- Binds the arguments of a function and checks their nesting. -/
def prepare (f : FunctionBinding (Program σ)) (positional : List Value) (keywords : Keywords) :
    Act σ (NativeCall σ) := do
  Act.log ⟨.debug, .call, "invoking native function",
    [⟨"function", f.name⟩, .ofNat "positional" positional.length,
      .ofNat "keywords" keywords.length]⟩
  let args ← Act.ofExcept (bindArguments f.name f.params positional keywords)
  Act.ofExcept (checkNesting f.maxDepth f.params args)
  return .function (f.entry args) (.called f.name f.params f.catchPanics)

def invoke (run : Runner σ) (f : FunctionBinding (Program σ)) (positional : List Value)
    (keywords : Keywords) : Act σ Value := do
  (← f.prepare positional keywords).enter run

end FunctionBinding

namespace Handle

variable [NativeState σ] (handle : Handle)

/-- The error of native code that was given an instance of another type. -/
def foreign (expected : String) : Error := .mismatch expected "foreign instance"

def forType (type : String) (e : Error) (program : Except Error (Program σ)) (state : σ) :
    Except Error (Program σ) := do
  let program ← program
  if NativeState.typeName state = type then return program else throw e

/-- Finds a method by its exported name, binds its arguments and checks their nesting. -/
def prepareInvoke (method : String) (positional : List Value) (keywords : Keywords) :
    Act σ (NativeCall σ) := do
  let _ ← handle.alive
  let c ← handle.classDef
  let m ← Act.ofOption (.attributeNotFound method handle.className) (c.method? method)
  let qualified := handle.qualified m.name
  Act.log ⟨.debug, .handle, "invoking native method",
    [⟨"method", qualified⟩, .ofNat "id" handle.id, .ofNat "positional" positional.length,
      .ofNat "keywords" keywords.length]⟩
  let args ← Act.ofExcept (bindArguments qualified m.params positional keywords)
  Act.ofExcept (checkNesting c.maxDepth m.params args)
  return .member handle true (forType m.receiver (foreign m.receiver) (.ok (m.entry args)))
    (.called qualified m.params c.catchPanics)

def prepareGet (name : String) : Act σ (NativeCall σ) := do
  let _ ← handle.alive
  let p ← handle.property name
  return .member handle false (forType p.receiver (foreign handle.className) (.ok p.getter)) .read

/-- Finds the setter of a property.  Whether it accepts the value is seen with the instance in
hand. -/
def prepareSet (name : String) (value : Value) : Act σ (NativeCall σ) := do
  let _ ← handle.alive
  let p ← handle.property name
  let setter ← Act.ofOption
    (.borrowedMutation s!"property '{name}' of {handle.className} is read-only") p.setter?
  return .member handle true (forType p.receiver (foreign p.receiver) (setter.accept value)) .written

def invoke (run : Runner σ) (method : String) (positional : List Value) (keywords : Keywords) :
    Act σ Value := do
  (← handle.prepareInvoke method positional keywords).enter run

def getAttr (run : Runner σ) (name : String) : Act σ Value := do
  (← handle.prepareGet name).enter run

def setAttr (run : Runner σ) (name : String) (value : Value) : Act σ Unit := do
  let _ ← (← handle.prepareSet name value).enter run
  pure ()

/-- The action while native code holds the instance, which has to be of the named native type. -/
def withInstance {α : Type} (type : String) (act : Act σ α) : Act σ α :=
  handle.whileHeld true fun state =>
    if NativeState.typeName state = type then act
    else Act.fail (.mismatch type handle.className)

end Handle

end Marshal
