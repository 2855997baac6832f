import Marshal.Sample.Account
import Marshal.Sample.ArrayModule
import Marshal.Sample.BasicModule
import Marshal.Sample.Functions

namespace Marshal.Sample

/-- How a function or a member is bound. -/
structure BindingSpec where
  name : String
  code : String
  params? : Option (List String) := none
  defaults : List (String × Value) := []
  doc? : Option String := none
  catchPanics? : Option Bool := none
  maxDepth? : Option Nat := none
  /-- Parameters and the type of the result, where the code does not tell them. -/
  declared : List Param × NativeType := ([], .none)

namespace BindingSpec

variable (spec : BindingSpec)

/-- Gives a bound function what the description says of it. -/
def customize (f : FunctionBinding (Program State)) : Act State (FunctionBinding (Program State)) := do
  let f ← match spec.params? with
    | some names => f.withParams names
    | none => pure f
  let f ← spec.defaults.foldlM (fun f (name, value) => f.withDefault name value) f
  return { f with
    doc? := spec.doc?.or f.doc?
    catchPanics := spec.catchPanics?.getD f.catchPanics
    maxDepth := spec.maxDepth?.getD f.maxDepth }

def function? : Option (FunctionBinding (Program State)) :=
  match rawEntry? spec.code with
  | some entry => some
      { name := spec.name, params := spec.declared.1, returns := spec.declared.2, entry }
  | none => Sample.function? spec.code spec.name

def method? : Option (MethodBinding (Program State)) :=
  (Sample.method? spec.code spec.name).map fun m =>
    let m := m.withParams (spec.params?.getD [])
    let m := spec.defaults.foldl (fun m (name, value) => m.withDefault name value) m
    { m with doc? := spec.doc? }

end BindingSpec

/-- The native types that a described class can have. -/
inductive Kind
  | account
  | counter
  deriving DecidableEq, Repr

namespace Kind

def parse? : String → Option Kind
  | "Account" => some .account
  | "Counter" => some .counter
  | _ => none

def nativeType : Kind → String
  | .account => accountType
  | .counter => counterType

/-- A property by its name and the name of its code; a counter has only its count. -/
def property? (kind : Kind) (name code : String) : Option (Property (Program State)) :=
  match kind with
  | .account => Account.property? code name
  | .counter => some Counter.count

end Kind

/-- How a class is put together. -/
structure ClassSpec where
  name : String
  kind : Kind
  doc? : Option String := none
  constructors : List BindingSpec := []
  methods : List BindingSpec := []
  /-- Names of properties with the names of their code. -/
  properties : List (String × String) := []

namespace ClassSpec

variable (spec : ClassSpec)

/-- The described class.  Of two members with one name the later one stays, in the earlier place. -/
def definition : ClassDef (Program State) :=
  let methods := spec.methods.filterMap BindingSpec.method?
  let properties := spec.properties.filterMap fun (name, code) =>
    (spec.kind.property? name code).map fun p => (name, p)
  { name := spec.name
    doc? := spec.doc?
    instanceType := spec.kind.nativeType
    methods := Entries.ofList (methods.map fun m => (m.name, m))
    properties := Entries.ofList properties }

def bindConstructor (classId : Nat) (binding : BindingSpec) :
    Act State (Option (FunctionBinding (Program State))) := do
  match spec.kind with
  | .account =>
    match Account.constructor? binding.code binding.name classId spec.name with
    | some f => return some (← binding.customize f)
    | none => return none
  | .counter => return Counter.constructor? binding.code binding.name classId spec.name

def declare : Act State (NativeClass State) := do
  let classId ← spec.definition.declare
  let constructors ← spec.constructors.mapM (spec.bindConstructor classId)
  return { classId, constructors := constructors.filterMap id }

end ClassSpec

/-- A class of a module: the class of numbers that add up, or a described one. -/
inductive ClassChoice
  | exported
  | described (spec : ClassSpec)

def ClassChoice.declare : ClassChoice → Act State (NativeClass State)
  | .exported => declareExported
  | .described spec => spec.declare

/-- A module: one of the two sample modules, or a described one. -/
inductive ModuleChoice
  | basic (config : Config)
  | array (config : Config)
  | described (name : String) (doc? : Option String) (config : Config)
      (functions : List BindingSpec) (classes : List ClassChoice)

def ModuleChoice.build : ModuleChoice → Act State (NativeModule State)
  | .basic config => buildBasicModule config
  | .array config => buildArrayModule config
  | .described name doc? config functions classes => do
    let functions ← (functions.filterMap fun spec => spec.function?.map (spec, ·)).mapM
      fun (spec, f) => spec.customize f
    let classes ← classes.mapM ClassChoice.declare
    ModuleDescription.build { name, doc?, functions, classes, config }

end Marshal.Sample
