namespace Marshal

/-- The coarse classification of an error. -/
inductive ErrorKind
  | arity
  | typeMismatch
  | unsupportedDType
  | bufferLayout
  | native
  | useAfterFree
  | lookup
  | borrow
  | config
  deriving DecidableEq, Repr

def ErrorKind.name : ErrorKind → String
  | .arity => "ArityError"
  | .typeMismatch => "TypeMismatch"
  | .unsupportedDType => "UnsupportedDType"
  | .bufferLayout => "BufferLayoutError"
  | .native => "NativeError"
  | .useAfterFree => "UseAfterFree"
  | .lookup => "LookupError"
  | .borrow => "BorrowError"
  | .config => "ConfigError"

/-- A failure of a call, a conversion, an access or a configuration. -/
inductive Error
  | arity (function detail : String)
  | typeMismatch (expected actual location : String)
  | numericOverflow (value target location : String)
  | unsupportedDType (dtype : String)
  | bufferLayout (reason : String)
  | native (function message : String)
  | useAfterFree (typeName : String) (id : Nat)
  | functionNotFound (function module : String)
  | attributeNotFound (member typeName : String)
  | borrowedMutation (context : String)
  | encoding (message : String)
  | config (message : String)
  deriving DecidableEq, Repr

namespace Error

def label : Error → String
  | .arity .. => "Arity"
  | .typeMismatch .. => "TypeMismatch"
  | .numericOverflow .. => "NumericOverflow"
  | .unsupportedDType .. => "UnsupportedDType"
  | .bufferLayout .. => "BufferLayout"
  | .native .. => "Native"
  | .useAfterFree .. => "UseAfterFree"
  | .functionNotFound .. => "FunctionNotFound"
  | .attributeNotFound .. => "AttributeNotFound"
  | .borrowedMutation .. => "BorrowedMutation"
  | .encoding .. => "EncodingError"
  | .config .. => "Config"

def mismatch (expected actual : String) : Error := .typeMismatch expected actual ""

/-- An integer too large or too small for its target, not yet located. -/
def overflow (value : Int) (target : String) : Error := .numericOverflow (toString value) target ""

/-- Containers nested more than `limit` levels deep. -/
def nestingTooDeep (limit : Nat) : Error :=
  .mismatch s!"at most {limit} levels of nesting" "deeper nesting"

/-- An error from the name of its cause and what there is to say about it.  A nesting limit can be
named as a cause too. -/
def ofLabel? (label : String) (texts : List String) (number : Nat) : Option Error :=
  match label, texts with
  | "Arity", [function, detail] => some (.arity function detail)
  | "TypeMismatch", [expected, actual] => some (mismatch expected actual)
  | "NestingTooDeep", _ => some (nestingTooDeep number)
  | "NumericOverflow", [value, target] => some (.numericOverflow value target "")
  | "UnsupportedDType", [dtype] => some (.unsupportedDType dtype)
  | "BufferLayout", [reason] => some (.bufferLayout reason)
  | "Native", [function, text] => some (.native function text)
  | "UseAfterFree", [typeName] => some (.useAfterFree typeName number)
  | "FunctionNotFound", [function, module] => some (.functionNotFound function module)
  | "AttributeNotFound", [member, typeName] => some (.attributeNotFound member typeName)
  | "BorrowedMutation", [context] => some (.borrowedMutation context)
  | "EncodingError", [text] => some (.encoding text)
  | "Config", [text] => some (.config text)
  | _, _ => none

def kind : Error → ErrorKind
  | .arity .. => .arity
  | .typeMismatch .. | .numericOverflow .. | .encoding .. => .typeMismatch
  | .unsupportedDType .. => .unsupportedDType
  | .bufferLayout .. => .bufferLayout
  | .native .. => .native
  | .useAfterFree .. => .useAfterFree
  | .functionNotFound .. | .attributeNotFound .. => .lookup
  | .borrowedMutation .. => .borrow
  | .config .. => .config

def isTypeError (e : Error) : Bool := e.kind == .typeMismatch

def isNative (e : Error) : Bool := e.kind == .native

def isArityError (e : Error) : Bool := e.kind == .arity

def location? : Error → Option String
  | .typeMismatch _ _ location | .numericOverflow _ _ location => some location
  | _ => none

/-- A place inside `segment`: an element follows directly, a name after a point. -/
def joinLocation (segment location : String) : String :=
  if location.isEmpty || location.startsWith "[" then segment ++ location
  else segment ++ "." ++ location

/-- The error of a value that sits at `segment`, when it is a conversion error. -/
def within (segment : String) : Error → Error
  | .typeMismatch expected actual location =>
    .typeMismatch expected actual (joinLocation segment location)
  | .numericOverflow value target location =>
    .numericOverflow value target (joinLocation segment location)
  | e => e

/-- A native failure that names no function yet is attributed to `function`. -/
def inFunction (function : String) : Error → Error
  | .native "" message => .native function message
  | e => e

private def placeText (location : String) : String :=
  if location.isEmpty then "" else " at " ++ location

def message : Error → String
  | .arity function detail => s!"{function}(): {detail}"
  | .typeMismatch expected actual location =>
    s!"type mismatch{placeText location}: expected {expected}, got {actual}"
  | .numericOverflow value target location =>
    s!"numeric overflow{placeText location}: {value} cannot be represented as {target}"
  | .unsupportedDType dtype => s!"unsupported array dtype: {dtype}"
  | .bufferLayout reason => s!"incompatible buffer layout: {reason}"
  | .native _ message => message
  | .useAfterFree typeName id => s!"use of released {typeName} handle #{id}"
  | .functionNotFound function module => s!"function '{function}' not found in module '{module}'"
  | .attributeNotFound member typeName => s!"attribute '{member}' not found on {typeName}"
  | .borrowedMutation context => s!"cannot mutate borrowed object: {context}"
  | .encoding message => s!"string encoding error: {message}"
  | .config message => s!"configuration error: {message}"

end Error

end Marshal
