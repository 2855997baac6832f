import Marshal.Program.Basic
import Marshal.Ty.Convert

/-!
# Writing native code

`Native σ α` is native code that gives an `α`: it is told what to do with it and makes a program.
It is a monad, so native functions are written with `do`, and the bindings made here put the typed
code between the conversion of arguments and of the result.
-/

namespace Marshal

/-- Native code with a result of type `α`. -/
def Native (σ α : Type) : Type := (α → Program σ) → Program σ

variable {σ α β : Type}

/-- How native code reports a failure: as a text, or as an error that keeps its kind. -/
inductive Failure
  | text (message : String)
  | error (e : Error)
  deriving DecidableEq, Repr

namespace Failure

def message : Failure → String
  | .text message => message
  | .error e => e.message

def toError : Failure → Error
  | .text message => .native "" message
  | .error e => e

end Failure

namespace Native

instance : Monad (Native σ) where
  pure a := fun next => next a
  bind code f := fun next => code fun a => f a next

def panic (payload : Payload) : Native σ α := fun _ => .panic payload

def request (r : Request σ (Program σ)) : Native σ (Except Error Value) := fun next =>
  .request r next

def log (event : Event) : Native σ Unit := fun next => .request (.log event) fun _ => next ()

def print (text : String) : Native σ Unit := fun next => .request (.print text) fun _ => next ()

/-- The instance held at the innermost level. -/
def receiver? : Native σ (Option σ) := fun next =>
  .look 0 fun content =>
    match content with
    | some (.instance state) => next (some state)
    | _ => next none

def setReceiver (state : σ) : Native σ Unit := fun next => .put 0 (.instance state) (next ())

def withInstance (handle : Handle) (type : String) (code : Native σ Value) :
    Native σ (Except Error Value) := fun next =>
  .withInstance handle type (code fun value => .done (.ok value)) fun reply =>
    match reply with
    | .ok (.ok value) => next (.ok value)
    | .ok (.error (.argument _ e)) | .ok (.error (.failed e)) => next (.error e)
    | .error e => next (.error e)

def mapElements (view : ArrayView) (type : ElementType) (f : type.Carrier → type.Carrier) :
    Native σ (Except Error Unit) := fun next =>
  .mapElements view type (fun x => .done (.ok (type.encode (f x)))) next

end Native

/-- Typed arguments, one for each type. -/
abbrev Args : List Ty → Type
  | [] => Unit
  | t :: ts => t.Carrier × Args ts

/-- Converts the arguments from `index` on; a missing one counts as none. -/
def decodeArgs : (types : List Ty) → Nat → List Value → Except CallError (Args types)
  | [], _, _ => .ok ()
  | t :: types, index, values =>
    match t.decode (values.headD .none) with
    | .error e => .error (.argument index e)
    | .ok x =>
      match decodeArgs types (index + 1) values.tail with
      | .error e => .error e
      | .ok xs => .ok (x, xs)

/-- A program that converts its arguments and goes on with them, if all of them convert. -/
def withArgs (types : List Ty) (code : Args types → Program σ) (values : List Value) : Program σ :=
  match decodeArgs types 0 values with
  | .error e => .done (.error e)
  | .ok args => code args

/-- Typed native code: a value of the result type, or a failure. -/
abbrev NativeCode (σ : Type) (params : List Ty) (result : Ty) : Type :=
  Args params → Native σ (Except Failure result.Carrier)

def NativeCode.program {params : List Ty} {result : Ty} (code : NativeCode σ params result)
    (args : Args params) : Program σ :=
  code args fun outcome =>
    match outcome with
    | .ok x => .done (.ok (result.encode x))
    | .error failure => .done (.error (.failed failure.toError))

def NativeCode.entry {params : List Ty} {result : Ty} (code : NativeCode σ params result) :
    List Value → Program σ :=
  withArgs params code.program

def FunctionBinding.ofNative (name : String) (params : List Ty) (result : Ty)
    (code : NativeCode σ params result) : FunctionBinding (Program σ) :=
  { name
    params := Param.numbered (params.map Ty.native)
    returns := result.native
    entry := code.entry }

/-- Binds a typed native method of instances of the native type `receiver`. -/
def MethodBinding.ofNative (name receiver : String) (params : List Ty) (result : Ty)
    (code : NativeCode σ params result) : MethodBinding (Program σ) :=
  { name
    params := Param.numbered (params.map Ty.native)
    returns := result.native
    receiver
    entry := code.entry }

abbrev ConstructorCode (σ : Type) (params : List Ty) : Type :=
  Args params → Native σ (Except Failure σ)

/-- The program of a constructor on converted arguments: the instance gets a handle of the class.
The failure of a constructor is always a native one. -/
def ConstructorCode.program {params : List Ty} (code : ConstructorCode σ params) (classId : Nat)
    (args : Args params) : Program σ :=
  code args fun outcome =>
    match outcome with
    | .ok state => .request (.create classId state) fun reply =>
        .done (reply.mapError .failed)
    | .error failure => .done (.error (.failed (.native "" failure.message)))

def FunctionBinding.ofConstructor (name : String) (classId : Nat) (className : String)
    (params : List Ty) (code : ConstructorCode σ params) : FunctionBinding (Program σ) :=
  { name
    params := Param.numbered (params.map Ty.native)
    returns := .object className
    entry := withArgs params (code.program classId) }

def Property.readOnly (receiver : String) (type : Ty) (getter : Native σ type.Carrier) :
    Property (Program σ) :=
  { type := type.native
    receiver
    getter := getter fun x => .done (.ok (type.encode x)) }

/-- A property that can be read and written; what is assigned converts to the type `accepted`.  A
value that does not convert is located at the property's declared name. -/
def Property.readWrite (name receiver : String) (type : Ty) (getter : Native σ type.Carrier)
    (accepted : Ty) (setter : accepted.Carrier → Native σ Unit) : Property (Program σ) :=
  { Property.readOnly receiver type getter with
    setter? := some
      { accept := fun value =>
          match accepted.decode value with
          | .error e => .error (e.within name)
          | .ok x => .ok (setter x fun _ => .done (.ok .none)) } }

end Marshal
