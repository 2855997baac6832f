import Marshal.Error
import Marshal.Naming
import Marshal.Size
import Marshal.Toml.Reader

namespace Marshal

def defaultMaxDepth : Nat := 64

/-- The settings of a module. -/
structure Config where
  naming : NamingStyle := .asDeclared
  catchPanics : Bool := true
  maxDepth : Nat := defaultMaxDepth
  deriving DecidableEq, Repr

/-- Why a configuration could not be had. -/
inductive ConfigFault
  | unreadable (path reason : String)
  | malformed
  | unknownNaming (name text : String)
  deriving DecidableEq, Repr

namespace ConfigFault

def message : ConfigFault → String
  | .unreadable path reason => s!"{path}: {reason}"
  | .malformed => "the document does not describe a configuration"
  | .unknownNaming name text => s!"{name} must be 'as_declared' or 'snake_case', got '{text}'"

def toError (fault : ConfigFault) : Error := .config fault.message

end ConfigFault

/-- What a program is started in: variables, and files, each with its text or why it cannot be read. -/
structure Environment where
  lookup : String → Option String
  readFile : String → Except String String :=
    fun _ => .error "No such file or directory (os error 2)"

namespace Config

def fileVariable : String := "SERPENT_CONFIG"

def namingVariable : String := "SERPENT_NAMING"

end Config

/-- The environment with a document as its configuration file, if there is one. -/
def Environment.withDocument (env : Environment) : Option String → Environment
  | none => env
  | some document =>
    { lookup := fun name => if name = Config.fileVariable then some "file" else env.lookup name
      readFile := fun _ => .ok document }

namespace Config

/-- A naming style by its name, given as a string or as the only key of a table, where it stands for
something empty. -/
def naming? : Toml.Item → Option NamingStyle
  | .string s => ofName s
  | .table _ [(name, .emptyArray)] => ofName name
  | .table _ [(name, .table _ [])] => ofName name
  | _ => none
where
  ofName (name : String) : Option NamingStyle :=
    [NamingStyle.asDeclared, .snakeCase].find? fun style => style.name == name

/-- Applies one setting; no other keys are allowed. -/
def set? (config : Config) : String × Toml.Item → Option Config
  | ("naming", item) => (naming? item).map fun naming => { config with naming }
  | ("catch_panics", .boolean catchPanics) => some { config with catchPanics }
  | ("max_depth", .integer n) => if 0 ≤ n then some { config with maxDepth := n.toNat } else none
  | _ => none

def parse (document : String) : Except ConfigFault Config :=
  match (Toml.parse? document).bind fun table => table.foldlM set? {} with
  | some config => .ok config
  | none => .error .malformed

/-- Writes a configuration document; a limit that is no signed number of 64 bits has no form. -/
def print? (config : Config) : Option String :=
  if config.maxDepth ≤ Size.signedMax then
    some (s!"naming = \"{config.naming.name}\"\n" ++ s!"catch_panics = {config.catchPanics}\n" ++
      s!"max_depth = {config.maxDepth}\n")
  else none

def ofEnvironment (env : Environment) : Except ConfigFault Config := do
  let config ← match env.lookup fileVariable with
    | none | some "" => pure {}
    | some path =>
      match env.readFile path with
      | .ok document => parse document
      | .error reason => throw (.unreadable path reason)
  match env.lookup namingVariable with
  | none => return config
  | some text =>
    match NamingStyle.parse? text with
    | some naming => return { config with naming }
    | none => throw (.unknownNaming namingVariable text)

end Config

end Marshal
