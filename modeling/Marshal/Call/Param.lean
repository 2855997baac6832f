import Marshal.NativeType
import Marshal.Value.Nesting

namespace Marshal

/-- A declared parameter. -/
structure Param where
  name : String
  type : NativeType
  default? : Option Value := none

namespace Param

def isRequired (param : Param) : Bool := param.default?.isNone

def text (param : Param) : String :=
  s!"{param.name}: {param.type.hint}" ++
    match param.default? with
    | some value => " = " ++ value.text
    | none => ""

def debugText (facts : Facts) (param : Param) : String :=
  let default := match param.default? with
    | some value => s!"Some({value.debugText facts})"
    | none => "None"
  "ParamSpec \x7b " ++ s!"name: {Text.quoted param.name}, ty: {param.type.debugText}, " ++
    s!"default: {default}" ++ " \x7d"

/-- Required parameters of the given types, named by their places. -/
def numbered (types : List NativeType) : List Param :=
  types.zipIdx.map fun (type, index) => { name := s!"arg{index + 1}", type }

/-- Gives the parameters new names from the left, as far as there are names. -/
def named : List Param → List String → List Param
  | param :: params, name :: names => { param with name } :: named params names
  | params, _ => params

/-- Gives the first parameter of a name a default, if there is one. -/
def withDefault? (params : List Param) (name : String) (value : Value) : Option (List Param) :=
  match params with
  | [] => none
  | param :: rest =>
    if param.name = name then some ({ param with default? := some value } :: rest)
    else (withDefault? rest name value).map (param :: ·)

end Param

abbrev Keywords := Entries String Value

private def plural (n : Nat) : String := if n = 1 then "" else "s"

def tooManyError (function : String) (params given : Nat) : Error :=
  let was := if given = 1 then "was" else "were"
  .arity function
    s!"takes {params} positional argument{plural params} but {given} {was} given"

def missingError (function : String) (names : List String) : Error :=
  let quoted := names.map fun name => s!"'{name}'"
  .arity function (s!"missing {names.length} required argument{plural names.length}: " ++
    ", ".intercalate quoted)

/-- Puts a keyword argument into the place of the first parameter of its name. -/
def placeKeyword (function : String) (params : List Param) (places : List (Option Value))
    (keyword : String × Value) : Except Error (List (Option Value)) :=
  let (name, value) := keyword
  match params.findIdx? fun param => param.name == name with
  | none => .error (.arity function s!"got an unexpected keyword argument '{name}'")
  | some index =>
    match places[index]? with
    | some none => .ok (places.set index (some value))
    | _ => .error (.arity function s!"got multiple values for argument '{name}'")

/-- Matches arguments with parameters; the result has one value per parameter, in their order. -/
def bindArguments (function : String) (params : List Param) (positional : List Value)
    (keywords : Keywords) : Except Error (List Value) := do
  if params.length < positional.length then
    throw (tooManyError function params.length positional.length)
  let places := positional.map some ++ List.replicate (params.length - positional.length) none
  let places ← keywords.foldlM (placeKeyword function params) places
  let missing := (places.zip params).filter fun (place, param) => place.isNone && param.isRequired
  if !missing.isEmpty then
    throw (missingError function (missing.map fun (_, param) => param.name))
  return (places.zip params).map fun (place, param) =>
    (place.or param.default?).getD .none

/-- Refuses arguments nested too deep, naming the parameter of the first one. -/
def checkNesting (limit : Nat) : List Param → List Value → Except Error Unit
  | param :: params, value :: values =>
    match value.checkDepth limit with
    | .error e => .error (e.within param.name)
    | .ok () => checkNesting limit params values
  | _, _ => .ok ()

def signatureText (name : String) (params : List Param) (returns : NativeType) : String :=
  let head := s!"{name}(" ++ ", ".intercalate (params.map Param.text) ++ ")"
  if returns.isNone then head else s!"{head} -> {returns.hint}"

end Marshal
