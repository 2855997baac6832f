import Marshal.Ty.Basic
import Marshal.Value.Nesting

/-!
# Conversion between dynamic and native values

`Ty.decode` takes a dynamic value to a native type or says which part of it does not fit; `Ty.encode`
goes back and cannot fail.  Matching is exact, with one widening: a complex number is also read from
a float or an integer.  Containers are converted part by part, and the first part that fails gives
the error, located from the outside in.
-/

namespace Marshal

/-- An integer as a member of a native integer type. -/
def NativeInt.decode (t : NativeInt) (n : Int) : Except Error (Fixed t.type) :=
  match Fixed.ofInt? t.type n with
  | some x => .ok x
  | none => .error (.overflow n t.name)

namespace KeyTy

def decode : (k : KeyTy) → Key → Except Error k.Carrier
  | .bool, .bool b => .ok b
  | .bool, key => .error (.mismatch "bool" key.typeName)
  | .int t, .int n => t.decode n
  | .int _, key => .error (.mismatch "int" key.typeName)
  | .text, .str s => .ok s
  | .text, key => .error (.mismatch "str" key.typeName)

def encode : (k : KeyTy) → k.Carrier → Key
  | .bool, b => .bool b
  | .int _, n => .int n.val
  | .text, s => .str s

end KeyTy

/-- Puts an entry among sorted ones; an entry with the same key is replaced. -/
def KeyTy.insertSorted {α : Type} (k : KeyTy) (key : k.Carrier) (value : α) :
    Entries k.Carrier α → Entries k.Carrier α
  | [] => [(key, value)]
  | entry :: rest =>
    if k.precedes key entry.1 then (key, value) :: entry :: rest
    else if k.precedes entry.1 key then entry :: k.insertSorted key value rest
    else (key, value) :: rest

/-- A native mapping from entries given one after the other. -/
def MapKind.collect {α : Type} (kind : MapKind) (k : KeyTy) (given : List (k.Carrier × α)) :
    Entries k.Carrier α :=
  match kind with
  | .unordered | .byInsertion => Entries.ofList given
  | .byKey => given.foldl (fun entries entry => k.insertSorted entry.1 entry.2 entries) []

/-- Converts items from the left, counted from `index`; the first failure is located there. -/
def decodeItems {α β : Type} (decode : β → Except Error α) (index : Nat) :
    List β → Except Error (List α)
  | [] => .ok []
  | item :: rest =>
    match decode item with
    | .error e => .error (e.within (Value.itemPlace index))
    | .ok x =>
      match decodeItems decode (index + 1) rest with
      | .error e => .error e
      | .ok xs => .ok (x :: xs)

/-- Converts entries from the left, the key of each before its value. -/
def decodeEntries {α : Type} (k : KeyTy) (decode : Value → Except Error α) :
    List (Key × Value) → Except Error (List (k.Carrier × α))
  | [] => .ok []
  | (key, value) :: rest =>
    match k.decode key with
    | .error e => .error (e.within (Value.entryPlace key))
    | .ok nativeKey =>
      match decode value with
      | .error e => .error (e.within (Value.entryPlace key))
      | .ok nativeValue =>
        match decodeEntries k decode rest with
        | .error e => .error e
        | .ok entries => .ok ((nativeKey, nativeValue) :: entries)

/-- A real number of the double format taken to a part of a complex number. -/
def complexPart (part : FloatType) (x : Binary64) : Binary part.format :=
  Binary.convert part.format x

namespace Ty

def decode : (t : Ty) → Value → Except Error t.Carrier
  | .unit, v =>
    match v with
    | .none => .ok ()
    | _ => .error (.mismatch "None" v.typeName)
  | .bool, v =>
    match v with
    | .bool b => .ok b
    | _ => .error (.mismatch "bool" v.typeName)
  | .int t, v =>
    match v with
    | .int n _ => t.decode n
    | _ => .error (.mismatch "int" v.typeName)
  | .float t, v =>
    match v with
    | .float x _ => .ok (Binary.convert t.format x)
    | _ => .error (.mismatch "float" v.typeName)
  | .complex part, v =>
    let zero := Binary.zero Format.double false
    match v with
    | .complex re im _ => .ok (complexPart part re, complexPart part im)
    | .float x _ => .ok (complexPart part x, complexPart part zero)
    | .int n _ => .ok (complexPart part (Binary.ofInt Format.double n), complexPart part zero)
    | _ => .error (.mismatch "complex" v.typeName)
  | .text, v =>
    match v with
    | .str s => .ok s
    | _ => .error (.mismatch "str" v.typeName)
  | .bytes, v =>
    match v with
    | .bytes b => .ok b
    | _ => .error (.mismatch "bytes" v.typeName)
  | .any, v => .ok v
  | .object, v =>
    match v with
    | .object handle => .ok handle
    | _ => .error (.mismatch "object" v.typeName)
  | .array, v =>
    match v with
    | .array view => .ok view
    | _ => .error (.mismatch "ndarray" v.typeName)
  | .option item, v =>
    match v with
    | .none => .ok none
    | _ => (item.decode v).map some
  | .list item, v =>
    match v with
    | .seq items => decodeItems item.decode 0 items
    | _ => .error (.mismatch "list" v.typeName)
  | .pair first second, v =>
    match v with
    | .seq [a, b] =>
      match first.decode a with
      | .error e => .error (e.within (Value.itemPlace 0))
      | .ok x =>
        match second.decode b with
        | .error e => .error (e.within (Value.itemPlace 1))
        | .ok y => .ok (x, y)
    | _ => .error (.mismatch "sequence of length 2" v.typeName)
  | .map kind key value, v =>
    match v with
    | .map entries =>
      match decodeEntries key value.decode entries with
      | .error e => .error e
      | .ok given => .ok (kind.collect key given)
    | _ => .error (.mismatch "dict" v.typeName)

def encode : (t : Ty) → t.Carrier → Value
  | .unit, _ => .none
  | .bool, b => .bool b
  | .int t, n => .int n.val (some t.type)
  | .float t, x => .float (Binary.convert Format.double x) t
  | .complex part, (re, im) =>
    .complex (Binary.convert Format.double re) (Binary.convert Format.double im) part
  | .text, s => .str s
  | .bytes, b => .bytes b
  | .any, v => v
  | .object, handle => .object handle
  | .array, view => .array view
  | .option item, x =>
    match x with
    | none => .none
    | some y => item.encode y
  | .list item, xs => .seq (xs.map item.encode)
  | .pair first second, (x, y) => .seq [first.encode x, second.encode y]
  | .map _ key value, entries =>
    .map (Entries.ofList (entries.map fun entry => (key.encode entry.1, value.encode entry.2)))

end Ty

namespace ElementType

/-- The native type with the values of an element type. -/
def ty : ElementType → Ty
  | .int t => .fixed t
  | .float t => .float t

def decode : (e : ElementType) → Value → Except Error e.Carrier
  | .int t, v => (Ty.fixed t).decode v
  | .float t, v => (Ty.float t).decode v

/-- Writes an element as a dynamic value, tagged with its width. -/
def encode : (e : ElementType) → e.Carrier → Value
  | .int t, n => (Ty.fixed t).encode n
  | .float t, x => (Ty.float t).encode x

end ElementType

/-- The element as a dynamic value, tagged with its width. -/
def Scalar.toValue (scalar : Scalar) : Value := scalar.type.encode scalar.value

end Marshal
