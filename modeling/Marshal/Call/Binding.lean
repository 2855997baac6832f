import Marshal.Call.Param
import Marshal.Config

namespace Marshal

/-- Why native code gave no result: an argument did not convert, so that it never ran, or it ran and
reported a failure. -/
inductive CallError
  | argument (index : Nat) (error : Error)
  | failed (error : Error)
  deriving DecidableEq, Repr

/-- The error that the caller gets, with the parameter or the function named. -/
def CallError.resolve (function : String) (params : List Param) : CallError → Error
  | .argument index error =>
    match params[index]? with
    | some param => error.within param.name
    | none => error
  | .failed error => error.inFunction function

/-- A native function that callers can reach. -/
structure FunctionBinding (π : Type) where
  name : String
  doc? : Option String := none
  params : List Param
  returns : NativeType
  entry : List Value → π
  catchPanics : Bool := true
  maxDepth : Nat := defaultMaxDepth

/-- A native method of instances whose native type has the name `receiver`. -/
structure MethodBinding (π : Type) where
  name : String
  doc? : Option String := none
  params : List Param
  returns : NativeType
  receiver : String
  entry : List Value → π

/-- What a property does with a value assigned to it: it refuses the value or has a program to run. -/
structure Setter (π : Type) where
  accept : Value → Except Error π

/-- A readable and perhaps writable member of instances of the native type `receiver`. -/
structure Property (π : Type) where
  type : NativeType
  receiver : String
  getter : π
  setter? : Option (Setter π) := none

variable {π : Type}

namespace FunctionBinding

def signature (f : FunctionBinding π) : String := signatureText f.name f.params f.returns

def docText (f : FunctionBinding π) : String :=
  match f.doc? with
  | some doc => f.signature ++ "\n\n" ++ doc
  | none => f.signature

def rename (f : FunctionBinding π) (style : NamingStyle) : FunctionBinding π :=
  { f with
    name := style.apply f.name
    params := f.params.map fun param => { param with name := style.apply param.name } }

def debugText (facts : Facts) (f : FunctionBinding π) : String :=
  "FunctionBinding \x7b " ++ s!"name: {Text.quoted f.name}, " ++
    s!"params: {Text.bracketed (f.params.map (Param.debugText facts))}, " ++
    s!"returns: {f.returns.debugText}" ++ " \x7d"

end FunctionBinding

namespace MethodBinding

def defaults (m : MethodBinding π) : List Value := m.params.filterMap Param.default?

/-- Names the parameters from the left; names without a parameter do not count. -/
def withParams (m : MethodBinding π) (names : List String) : MethodBinding π :=
  { m with params := Param.named m.params names }

/-- Gives a parameter a default; an unknown name does not count. -/
def withDefault (m : MethodBinding π) (name : String) (value : Value) : MethodBinding π :=
  { m with params := (Param.withDefault? m.params name value).getD m.params }

def rename (m : MethodBinding π) (style : NamingStyle) : MethodBinding π :=
  { m with
    name := style.apply m.name
    params := m.params.map fun param => { param with name := style.apply param.name } }

def debugText (facts : Facts) (m : MethodBinding π) : String :=
  "MethodBinding \x7b " ++ s!"name: {Text.quoted m.name}, receiver: {Text.quoted m.receiver}, " ++
    s!"params: {Text.bracketed (m.params.map (Param.debugText facts))}" ++ " \x7d"

end MethodBinding

/-- What a class offers: methods and properties of instances of one native type. -/
structure ClassDef (π : Type) where
  name : String
  doc? : Option String := none
  instanceType : String
  methods : Entries String (MethodBinding π) := []
  properties : Entries String (Property π) := []
  naming : NamingStyle := .asDeclared
  catchPanics : Bool := true
  maxDepth : Nat := defaultMaxDepth

namespace ClassDef

variable (c : ClassDef π)

def method? (name : String) : Option (MethodBinding π) := Entries.get? c.methods name

def property? (name : String) : Option (Property π) := Entries.get? c.properties name

def methodNames : List String := c.methods.map Prod.fst

def propertyNames : List String := c.properties.map Prod.fst

/-- Adds a method, or puts it in the place of the one with its name. -/
def addMethod (m : MethodBinding π) : ClassDef π :=
  { c with methods := Entries.insert c.methods m.name m }

/-- Adds a property, or puts it in the place of the one with its name. -/
def addProperty (name : String) (p : Property π) : ClassDef π :=
  { c with properties := Entries.insert c.properties name p }

/-- The class with the settings of its module: members take their exported names, and of two that
come to have the same name the later one stays. -/
def configure (config : Config) : ClassDef π :=
  { c with
    naming := config.naming
    catchPanics := config.catchPanics
    maxDepth := config.maxDepth
    methods := Entries.ofList (c.methods.map fun (_, m) =>
      let m := m.rename config.naming
      (m.name, m))
    properties := Entries.ofList (c.properties.map fun (name, p) =>
      (config.naming.apply name, p)) }

def describe : List String :=
  (c.methods.map fun (_, m) => signatureText s!"{c.name}.{m.name}" m.params m.returns) ++
    c.properties.map fun (name, p) => s!"{c.name}.{name}: {p.type.hint}"

def debugText : String :=
  "ClassDef \x7b " ++ s!"name: {Text.quoted c.name}, " ++
    s!"methods: {Text.bracketed (c.methodNames.map Text.quoted)}, " ++
    s!"properties: {Text.bracketed (c.propertyNames.map Text.quoted)}" ++ " \x7d"

end ClassDef

end Marshal
