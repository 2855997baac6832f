import Marshal.World.Handle

namespace Marshal

variable {σ : Type}

namespace FunctionBinding

/-- Names the parameters from the left.  A wrong number of names is only noted. -/
def withParams (f : FunctionBinding (Program σ)) (names : List String) :
    Act σ (FunctionBinding (Program σ)) := do
  if names.length ≠ f.params.length then
    Act.log ⟨.warn, .call, "parameter name count does not match the function",
      [⟨"function", f.name⟩, .ofNat "given" names.length, .ofNat "expected" f.params.length]⟩
  return { f with params := Param.named f.params names }

/-- Gives a parameter a default.  An unknown name is only noted. -/
def withDefault (f : FunctionBinding (Program σ)) (name : String) (value : Value) :
    Act σ (FunctionBinding (Program σ)) := do
  match Param.withDefault? f.params name value with
  | some params => return { f with params }
  | none =>
    Act.log ⟨.warn, .call, "default for unknown parameter ignored",
      [⟨"function", f.name⟩, .quoted "param" name]⟩
    return f

end FunctionBinding

/-- A class of the world and the functions that make its instances. -/
structure NativeClass (σ : Type) where
  classId : Nat
  constructors : List (FunctionBinding (Program σ)) := []

/-- What a module is to be built from. -/
structure ModuleDescription (σ : Type) where
  name : String
  doc? : Option String := none
  functions : List (FunctionBinding (Program σ)) := []
  classes : List (NativeClass σ) := []
  config : Config := {}

/-- A built module. -/
structure NativeModule (σ : Type) where
  name : String
  doc? : Option String
  functions : Entries String (FunctionBinding (Program σ))
  classes : Entries String Nat
  config : Config

namespace ModuleDescription

variable (d : ModuleDescription σ)

def twiceError (kind name : String) : Error :=
  .config s!"{kind} '{name}' registered twice in module '{d.name}'"

/-- Applies the configuration to the classes, from the first to the last, and lists their names. -/
def addClasses : List (NativeClass σ) → Entries String Nat → Act σ (Entries String Nat)
  | [], classes => pure classes
  | c :: rest, classes => do
    Act.modify fun w => w.setClass c.classId fun c => c.configure d.config
    let some definition ← Act.read fun w => w.class? c.classId | addClasses rest classes
    if (Entries.get? classes definition.name).isSome then
      Act.fail (d.twiceError "class" definition.name)
    addClasses rest (Entries.insert classes definition.name c.classId)

/-- A function under its exported names, with the settings of the module. -/
def exported (f : FunctionBinding (Program σ)) : FunctionBinding (Program σ) :=
  { f.rename d.config.naming with
    catchPanics := d.config.catchPanics
    maxDepth := d.config.maxDepth }

/-- The table of functions, from the first to the last. -/
def addFunctions : List (FunctionBinding (Program σ)) →
    Entries String (FunctionBinding (Program σ)) →
    Except Error (Entries String (FunctionBinding (Program σ)))
  | [], functions => .ok functions
  | f :: rest, functions =>
    let f := d.exported f
    match Entries.get? functions f.name with
    | some _ => .error (d.twiceError "function" f.name)
    | none => addFunctions rest (Entries.insert functions f.name f)

def build : Act σ (NativeModule σ) := do
  let classes ← d.addClasses d.classes []
  let constructors := d.classes.flatMap NativeClass.constructors
  let functions ← Act.ofExcept (d.addFunctions (d.functions ++ constructors) [])
  Act.log ⟨.info, .module, "built native module",
    [⟨"module", d.name⟩, .ofNat "functions" functions.length, .ofNat "classes" classes.length]⟩
  return { name := d.name, doc? := d.doc?, functions, classes, config := d.config }

end ModuleDescription

namespace NativeModule

variable (m : NativeModule σ)

def function? (name : String) : Option (FunctionBinding (Program σ)) := Entries.get? m.functions name

def class? (w : World σ) (name : String) : Option (ClassDef (Program σ)) :=
  (Entries.get? m.classes name).bind w.class?

def invoke (run : Runner σ) (name : String) (positional : List Value) (keywords : Keywords) :
    Act σ Value := do
  let f ← Act.ofOption (.functionNotFound name m.name) (m.function? name)
  Act.log ⟨.debug, .module, "module call", [⟨"module", m.name⟩, .quoted "function" name]⟩
  f.invoke run positional keywords

def describe (w : World σ) : String :=
  let doc := m.doc?.toList.map ("    " ++ ·)
  let functions := m.functions.map fun (_, f) => "  " ++ f.signature
  let classes := m.classes.flatMap fun (_, classId) =>
    match w.class? classId with
    | some c => s!"  class {c.name}" :: c.describe.map ("    " ++ ·)
    | none => []
  "\n".intercalate (s!"module {m.name}" :: doc ++ functions ++ classes)

end NativeModule

end Marshal
