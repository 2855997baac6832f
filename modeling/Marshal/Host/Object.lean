import Marshal.Host.Exporter
import Marshal.World.Kept

/-!
# Objects of the host

The caller of native code is a host with objects of its own.  Objects refer to each other by
number, so that one object can be found in several places, and even inside itself.  A `Host` holds
these objects beside the world of native code; an action of the host ends with a result or with a
fault, and keeps its effects in both cases.

An object is let go of when the last name or object that refers to it is.  It then lets go of its own
parts: sequences from the end, mappings from the start and each key before its value.  The world is
told which handles that concerns.
-/

namespace Marshal.Host

abbrev ObjectId := Nat

/-- What an object gives when it is read as a number. -/
inductive Reading
  | integral (n : Int)
  | real (x : Binary64)
  | complex (re im : Binary64)

/-- A quotient of integers, read as the nearest number; one that is too large cannot be read. -/
def Reading.ofQuotient? (numerator denominator : Int) : Option Reading :=
  let x := Format.double.nearest (decide (numerator * denominator < 0)) numerator.natAbs
    denominator.natAbs
  if denominator ≠ 0 ∧ x.isFinite then some (.real x) else none

/-- An object. -/
inductive Object
  | none
  | bool (b : Bool)
  | int (n : Int)
  | float (x : Binary64)
  | complex (re im : Binary64)
  /-- Text as code points, which may be halves of surrogate pairs. -/
  | text (codePoints : List Nat)
  | bytes (b : List UInt8)
  | list (items : List ObjectId)
  | tuple (items : List ObjectId)
  | dict (entries : List (ObjectId × ObjectId))
  | set (items : List ObjectId)
  | native (handle : Handle)
  /-- A method looked up on a native object. -/
  | bound (handle : Handle) (method : String)
  /-- A number of no built-in class, which may refuse to be read. -/
  | number (className : String) (reading? : Option Reading)
  | exporter (exporter : Exporter)
  /-- An instance of a class that extends a built-in one, and counts as an instance of that. -/
  | extended (className : String) (base : Object)
  /-- An object of a built-in class that no native type stands for. -/
  | foreign (className : String) (moduleName? : Option String)
  /-- An object of a class of the host's own. -/
  | other (className : String)

namespace Object

def ofString (s : String) : Object := .text (s.toList.map Char.toNat)

def builtIn : Object → Object
  | .extended _ base => base.builtIn
  | o => o

/-- An instance of a class of the host's own that extends the built-in class of this name. -/
def extend (builtInName : String) (base : Object) : Object :=
  .extended ("My" ++ builtInName.capitalize) base

def className : Object → String
  | .none => "NoneType"
  | .bool _ => "bool"
  | .int _ => "int"
  | .float _ => "float"
  | .complex .. => "complex"
  | .text _ => "str"
  | .bytes _ => "bytes"
  | .list _ => "list"
  | .tuple _ => "tuple"
  | .dict _ => "dict"
  | .set _ => "set"
  | .native _ => "NativeObject"
  | .bound .. => "BoundMethod"
  | .number name _ | .extended name _ | .foreign name _ | .other name => name
  | .exporter e => e.className

/-- The module that the class of an object says it belongs to, if it says any. -/
def moduleName? : Object → Option String
  | .native _ | .bound .. => some "testmodule"
  | .exporter e => e.moduleName?
  | .foreign _ moduleName? => moduleName?
  | _ => Option.none

def qualifiedName (o : Object) : String :=
  match o.moduleName? with
  | some moduleName => s!"{moduleName}.{o.className}"
  | Option.none => o.className

/-- The objects that an object refers to, in the order in which it lets go of them. -/
def parts (o : Object) : List ObjectId :=
  match o.builtIn with
  | .list items | .tuple items => items.reverse
  | .dict entries => entries.flatMap fun (key, value) => [key, value]
  | .set items => items
  | _ => []

/-- Whether objects can be given attributes that their class does not know. -/
def isOpen : Object → Bool
  | .extended .. | .other _ => true
  | .number name _ => name ≠ "Fraction"
  | _ => false

/-- The fault of an attribute that the object does not have. -/
def noAttribute (o : Object) (name : String) : Fault :=
  match o with
  | .native handle => .noAttribute handle.className name
  | o => .noAttribute o.qualifiedName name

def nativeText? : Object → Option String
  | .native handle => some handle.text
  | .bound handle method => some s!"<bound method {handle.qualified method} of {handle.text}>"
  | _ => Option.none

end Object

end Host

/-- The objects of a host and the world of native code. -/
structure Host (σ : Type) where
  world : World σ := {}
  objects : Array Host.Object := #[]
  /-- Which objects the host keeps under names. -/
  names : Entries String Host.ObjectId := []
  /-- The attributes that objects were given. -/
  attributes : Entries (Host.ObjectId × String) Host.ObjectId := []

namespace Host

variable {σ : Type} (h : Host σ)

def object (id : ObjectId) : Object := (h.objects[id]?).getD .none

/-- What an object refers to, in the order in which it lets go of it: its attributes come first. -/
def references (id : ObjectId) : List ObjectId :=
  (h.attributes.filter fun ((owner, _), _) => owner == id).map Prod.snd ++ (h.object id).parts

/-- The handles that can be reached from an object in at most so many steps.  An object that is met
inside itself is not followed again. -/
def handlesFrom : Nat → List ObjectId → ObjectId → List Handle
  | 0, _, _ => []
  | steps + 1, path, id =>
    match h.object id with
    | .native handle | .bound handle _ => [handle]
    | _ =>
      if path.contains id then []
      else (h.references id).flatMap (handlesFrom steps (id :: path))

/-- A value that holds all handles that can be reached from an object. -/
def holding (id : ObjectId) : Value :=
  .seq ((h.handlesFrom h.objects.size [] id).map .object)

/-- The host after its world was told which handles its names lead to. -/
def told : Host σ :=
  { h with world := { h.world with kept := h.names.map fun (name, id) => (name, h.holding id) } }

abbrev Action (σ ε : Type) := ExceptT ε (StateM (Host σ))

namespace Action

variable {σ ε ε' α : Type}

/-- The action with its fault as a result. -/
def attempt (action : Action σ ε α) : Action σ ε' (Except ε α) := fun h =>
  let (result, h) := action.run h
  (.ok result, h)

def describe (f : ε → ε') (action : Action σ ε α) : Action σ ε' α := fun h =>
  let (result, h) := action.run h
  (result.mapError f, h)

def raising (action : Action σ Error α) : Action σ Fault α := action.describe Fault.ofError

/-- An action in the world of native code.  A panic that nothing caught is an error to the host. -/
def perform (act : Act σ α) : Action σ Error α := fun h =>
  let (outcome, world) := act h.world
  let result := match outcome with
    | .returned a => .ok a
    | .failed e => .error e
    | .panicked payload => .error (.native "" payload.message)
    | .exhausted => .error (.native "" "out of stack")
  (result, { h with world })

def alloc (object : Object) : Action σ ε ObjectId := do
  let h ← get
  set { h with objects := h.objects.push object }
  return h.objects.size

def object (id : ObjectId) : Action σ ε Object := do return (← get).object id

def setObject (id : ObjectId) (object : Object) : Action σ ε Unit :=
  modify fun h => { h with objects := h.objects.setIfInBounds id object }

/-- Lets go of an object that one name or object less refers to. -/
def letGo (id : ObjectId) : Action σ ε Unit :=
  modify fun h =>
    let (_, world) := Act.drop (h.holding id) h.told.world
    { h with world }

/-- Keeps an object under a name, or lets go of it. -/
def settle (name? : Option String) (id : ObjectId) : Action σ ε Unit := do
  match name? with
  | some name =>
    let old? := Entries.get? (← get).names name
    modify fun h => { h with names := Entries.insert h.names name id }
    if let some old := old? then letGo old
  | none => letGo id

def named (name : String) : Action σ Fault ObjectId := do
  match Entries.get? (← get).names name with
  | some id => return id
  | none => throw (.missing name)

def forget (name : String) : Action σ Fault Unit := do
  let id ← named name
  modify fun h => { h with names := h.names.filter fun (other, _) => other ≠ name }
  letGo id

/-- The value of an attribute that an object was given. -/
def attribute? (id : ObjectId) (name : String) : Action σ ε (Option ObjectId) := do
  return Entries.get? (← get).attributes (id, name)

def setAttribute (id : ObjectId) (name : String) (value : ObjectId) : Action σ ε Unit := do
  let old? ← attribute? id name
  modify fun h => { h with attributes := Entries.insert h.attributes (id, name) value }
  if let some old := old? then letGo old

end Action

end Host

end Marshal
