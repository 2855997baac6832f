import Marshal.Array.Element
import Marshal.Call.Binding
import Marshal.Log

/-!
# Native programs

Native code is data: a `Program` says what native code does, step by step, and leaves it to an
interpreter what each step means.  A program ends with a result or a panic; on its way it looks at
and changes what it was given to work on, and makes requests, whose replies choose how it goes on.
Three steps have a body: the body runs while an instance or a buffer is held, and holding it ends
with the body.

What a program was given to work on is a stack: the innermost instance or piece of memory is at
level zero.  `σ` is the type of the states that native instances can have.
-/

namespace Marshal

/-- What a panic carries along. -/
inductive Payload
  | text (message : String)
  | other
  deriving DecidableEq, Repr

def Payload.message : Payload → String
  | .text message => message
  | .other => "unknown panic payload"

/-- Whom a borrowed buffer is kept for: a text, or an object of the host by its number. -/
inductive Keeper
  | text (text : String)
  | exporter (object : Nat)
  deriving DecidableEq, Repr

/-- An operation on arrays.  The reply is the value that it gives, and none where it gives nothing. -/
inductive ArrayRequest
  | wrap (data : List UInt8) (shape : List Nat) (strides : List Int) (dtype : DType)
  | zeros (shape : List Nat) (dtype : DType)
  | ofElements (type : ElementType) (elements : List type.Carrier) (shape : List Nat)
  | borrow (data : List UInt8) (layout : Layout) (readonly : Bool) (keeper : Keeper)
  | copy (view : ArrayView)
  | reshape (view : ArrayView) (shape : List Nat)
  | transpose (view : ArrayView)
  | slice (view : ArrayView) (start stop : List Nat)
  | get (view : ArrayView) (type : ElementType) (index : List Nat)
  | set (view : ArrayView) (type : ElementType) (index : List Nat) (element : type.Carrier)
  | scalarAt (view : ArrayView) (index : List Nat)
  | elements (view : ArrayView) (type : ElementType)
  | scalars (view : ArrayView)
  | nested (view : ArrayView)

/-- What a program is given to work on. -/
inductive Content (σ : Type)
  | instance (state : σ)
  | bytes (bytes : List UInt8)

/-- An operation that a program asks for. -/
inductive Request (σ π : Type)
  | log (event : Event)
  | print (text : String)
  | create (classId : Nat) (state : σ)
  | call (function : FunctionBinding π) (positional : List Value) (keywords : Keywords)
  | invoke (handle : Handle) (method : String) (positional : List Value) (keywords : Keywords)
  | getAttr (handle : Handle) (name : String)
  | setAttr (handle : Handle) (name : String) (value : Value)
  | retain (handle : Handle)
  | release (handle : Handle)
  | defineMethod (classId : Nat) (method : MethodBinding π)
  | array (request : ArrayRequest)

/-- What running native code gives: a value, or why there is none. -/
abbrev Result := Except CallError Value

/-- What native code does. -/
inductive Program (σ : Type)
  | done (result : Result)
  | panic (payload : Payload)
  /-- Looks at what is held at a level, if anything is. -/
  | look (level : Nat) (next : Option (Content σ) → Program σ)
  /-- Changes what is held at a level.  Content of another kind or length, and content that is held
  for reading only, stays as it is. -/
  | put (level : Nat) (content : Content σ) (next : Program σ)
  | request (request : Request σ (Program σ)) (next : Except Error Value → Program σ)
  /-- Holds the instance behind a handle, which must be of the named native type. -/
  | withInstance (handle : Handle) (type : String) (body : Program σ)
      (next : Except Error Result → Program σ)
  /-- Holds the bytes of an array, for writing or for reading only. -/
  | withBytes (view : ArrayView) (writable : Bool) (body : Program σ)
      (next : Except Error Result → Program σ)
  /-- Replaces each element of an array by the result of the body; a body without an element of the
  type as its result leaves the element as it was. -/
  | mapElements (view : ArrayView) (type : ElementType) (body : type.Carrier → Program σ)
      (next : Except Error Unit → Program σ)

instance {σ : Type} : Inhabited (Program σ) := ⟨.done (.ok .none)⟩

/-- The states of native instances know the names of their native types. -/
class NativeState (σ : Type) where
  typeName : σ → String

end Marshal
