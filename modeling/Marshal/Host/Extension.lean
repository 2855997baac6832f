import Marshal.Host.Convert
import Marshal.Module

/-!
# Native modules in a host

The host calls exported functions and methods with objects and gets objects back; native objects
show their methods and properties as attributes.  Arguments are converted one by one before the call,
positional ones first, and an argument that does not convert is located at its parameter.  Memory
that was borrowed for a call is handed back when it ends, however it ends.
-/

namespace Marshal.Host

variable {σ : Type}

/-- The arguments of a call. -/
structure Arguments where
  positional : List ObjectId := []
  keywords : Entries String ObjectId := []

namespace Action

/-- Converts positional arguments; those without a parameter are converted too. -/
def convertPositional (limit : Nat) : List Param → List ObjectId → Action σ Error (List Value)
  | _, [] => return []
  | params, id :: rest => do
    let value ← match params.head? with
      | some param => (convert limit id).describe (Error.within param.name)
      | none => convert limit id
    return value :: (← convertPositional limit params.tail rest)

def convertKeywords (limit : Nat) : Entries String ObjectId → Action σ Error Keywords
  | [] => return []
  | (name, id) :: rest => do
    let value ← (convert limit id).describe (Error.within name)
    return (name, value) :: (← convertKeywords limit rest)

/-- Converts arguments, runs native code on them and converts the result. -/
def call (limit : Nat) (params : List Param) (args : Arguments)
    (body : List Value → Keywords → Act σ Value) : Action σ Fault ObjectId := raising do
  let since := (← get).world.buffers.length
  let positional ← convertPositional limit params args.positional
  let keywords ← convertKeywords limit args.keywords
  let reply ← attempt (perform (body positional keywords))
  handBack since
  ofValue (← (reply : Except Error Value))

def classOf (handle : Handle) : Action σ Fault (ClassDef (Program σ)) := raising (perform handle.classDef)

variable [NativeState σ] (run : Runner σ) (limit : Nat) (id : ObjectId)

/-- The value of an attribute: a method bound to its object, the value of a property, or what the
object was given. -/
def getAttr (name : String) : Action σ Fault ObjectId := do
  match ← object id with
  | .native handle =>
    let c ← classOf handle
    if (c.method? name).isSome then alloc (.bound handle name)
    else if (c.property? name).isSome then
      raising do ofValue (← perform (handle.getAttr run name))
    else throw (Fault.noAttribute handle.className name)
  | other =>
    match ← attribute? id name with
    | some value => return value
    | none => throw (other.noAttribute name)

/-- Whether an object has an attribute; faults of other kinds than a missing attribute are passed on. -/
def hasAttr (name : String) : Action σ Fault Bool := do
  match ← attempt (getAttr run id name) with
  | .ok _ => return true
  | .error fault => if fault.kind = .attribute then return false else throw fault

/-- Writes a property, or gives an object that allows it an attribute. -/
def setAttr (name : String) (value : ObjectId) : Action σ Fault Unit := do
  match ← object id with
  | .native handle =>
    let c ← classOf handle
    if (c.property? name).isNone then throw (Fault.noAttribute handle.className name)
    raising do
      let since := (← get).world.buffers.length
      let value ← (convert limit value).describe (Error.within name)
      let reply ← attempt (perform (handle.setAttr run name value))
      handBack since
      reply
  | other => if other.isOpen then setAttribute id name value else throw (other.noAttribute name)

def attributeNames : Action σ Fault (List String) := do
  match ← object id with
  | .native handle =>
    let c ← classOf handle
    return (c.methodNames ++ c.propertyNames).mergeSort fun a b => !(b < a)
  | _ => return []

/-- Calls an object, which has to be a bound method. -/
def apply (args : Arguments) : Action σ Fault ObjectId := do
  match ← object id with
  | .bound handle method =>
    let c ← classOf handle
    let params := ((c.method? method).map MethodBinding.params).getD []
    call limit params args (handle.invoke run method)
  | other => throw ⟨.type, s!"'{other.qualifiedName}' object is not callable"⟩

/-- Adds a zero item at the end of growable memory, or of a list. -/
def grow : Action σ Fault Unit := do
  let o ← object id
  let grown? : Option Object ← match o with
    | .list items => pure (some (.list (items ++ [← alloc (.int 0)])))
    | .extended name (.list items) =>
      pure (some (.extended name (.list (items ++ [← alloc (.int 0)]))))
    | .exporter e =>
      if e.format = "w" then
        throw ⟨.type, "array item must be a unicode character, not int"⟩
      else if e.isGrowable then pure (some (.exporter e.grown))
      else pure none
    | _ => pure none
  match grown? with
  | some grown => setObject id grown
  | none => throw (o.noAttribute "append")

/-- The items that an object exports, as lists within lists. -/
def exportedItems : Action σ Fault ObjectId := do
  let o ← object id
  match o.builtIn with
  | .exporter e =>
    if e.isReleased then throw Fault.released
    match e.items? with
    | some value => raising (ofValue value)
    | none => throw ⟨.unsupported, s!"memoryview: unsupported format {e.format}"⟩
  | .bytes b => alloc (.list (← b.mapM fun byte => alloc (.int byte.toNat)))
  | _ => throw ⟨.type, s!"memoryview: a bytes-like object is required, not '{o.qualifiedName}'"⟩

def memory? : Action σ Fault (Option (List UInt8)) := do
  match (← object id).builtIn with
  | .exporter e => return some e.memory
  | .bytes b => return some b
  | _ => return none

end Action

/-- A native module as the host sees it. -/
structure HostModule (σ : Type) where
  name : String
  native : NativeModule σ
  version? : Option String := none
  classNames : List String := []

namespace HostModule

variable (m : HostModule σ)

def functionNames : List String := (m.native.functions.map Prod.fst).mergeSort fun a b => !(b < a)

def function (name : String) : Action σ Fault (FunctionBinding (Program σ)) :=
  match m.native.function? name with
  | some f => return f
  | none => throw ⟨.attribute, s!"module '{m.name}' has no attribute '{name}'"⟩

def call (run : Runner σ) (name : String) (args : Arguments) : Action σ Fault ObjectId := do
  let f ← m.function name
  Action.call m.native.config.maxDepth f.params args (f.invoke run)

def functionText (f : FunctionBinding (Program σ)) : String := s!"<native function {f.signature}>"

end HostModule

/-- Two native modules in a host, the second one inside the first. -/
structure Extension (σ : Type) where
  main : HostModule σ
  arrays : HostModule σ

namespace Extension

def exported (build : Act σ (NativeModule σ)) : Action σ Error (NativeModule σ) :=
  Action.perform do
    let m ← build
    Act.log ⟨.debug, .host, "exported native module", [.quoted "module" m.name]⟩
    return m

def load (env : Environment) (main arrays : Config → Act σ (NativeModule σ)) :
    Action σ Fault (Extension σ) :=
  Action.raising do
    let config ← ((Config.ofEnvironment env).mapError ConfigFault.toError : Except Error Config)
    let main ← exported (main config)
    let arrays ← exported (arrays config)
    return {
      main := {
        name := main.name
        native := main
        version? := some "0.1.0"
        classNames := ["BoundMethod", "NativeFunction", "NativeObject"] }
      arrays := { name := "numpy", native := arrays } }

def limit (ext : Extension σ) : Nat := ext.main.native.config.maxDepth

end Extension

end Marshal.Host
