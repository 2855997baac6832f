import Marshal.Host.Object
import Marshal.World.Array

/-!
# Conversion between objects and values

An object becomes a dynamic value if it is of a built-in class, native, a number or exports memory;
they are tried in this order.  Exported memory becomes an array over the exporter's bytes.  Objects may
contain themselves, so conversion follows them only as deep as containers may nest: `room` counts how
many levels are left, and an object met without any room left is refused.

On the way back a borrowed array becomes the object that it was borrowed from, and any other array
becomes lists within lists.
-/

namespace Marshal.Host

variable {σ : Type}

namespace Exporter

variable (e : Exporter)

/-- The layout of the exported items, counted from their start. -/
def layout (dtype : DType) : Except Error Layout :=
  if e.shape.isEmpty then .ok (.cContiguous [] dtype) else Layout.strided e.shape e.strides dtype 0

/-- Exported items have to be of the size that their format says, and to lie in the memory itself. -/
def checkItems (dtype : DType) : Except Error Unit := do
  if e.itemSize ≠ dtype.size then
    throw (.bufferLayout
      s!"format '{e.format}' has {dtype.size}-byte items but the buffer reports {e.itemSize}")
  if e.isIndirect then throw (.bufferLayout "indirect buffers are not supported")

/-- Borrows exported memory for native code, on behalf of the object that exports it. -/
def borrow (id : ObjectId) : Action σ Error Value := do
  if e.isReleased then
    throw (.bufferLayout "ValueError: operation forbidden on released memoryview object")
  let some dtype := DType.ofBufferFormat e.format | throw (.unsupportedDType e.format)
  e.checkItems dtype
  let layout ← e.layout dtype
  let extent ← layout.byteExtent
  Action.perform do
    Act.log ⟨.trace, .hostConversion, "borrowing buffer",
      [⟨"dtype", dtype.name⟩, ⟨"shape", Text.bracketedNats layout.shape⟩,
        ⟨"strides", Layout.stridesText layout.strides⟩, ⟨"readonly", toString e.isReadonly⟩]⟩
    let data := (e.memory.drop e.start).take extent
    return .array (← ArrayView.borrow data layout e.isReadonly (.exporter id))

end Exporter

/-- Whether a code point is half of a surrogate pair. -/
def isSurrogate (codePoint : Nat) : Bool := 0xD800 ≤ codePoint && codePoint ≤ 0xDFFF

/-- The error of text with surrogates, of which `count` stand together from `position` on. -/
def surrogateError (position count codePoint : Nat) : Error :=
  let place :=
    if count = 1 then
      "character '\\u" ++ Text.hexDigits codePoint ++ s!"' in position {position}"
    else s!"characters in position {position}-{position + count - 1}"
  .encoding s!"UnicodeEncodeError: 'utf-8' codec can't encode {place}: surrogates not allowed"

def decodeText (codePoints : List Nat) : Except Error String :=
  match codePoints.dropWhile (!isSurrogate ·) with
  | [] => .ok (String.ofList (codePoints.map Char.ofNat))
  | codePoint :: rest =>
    let position := codePoints.length - (rest.length + 1)
    .error (surrogateError position ((rest.takeWhile isSurrogate).length + 1) codePoint)

/-- The value that a number of no built-in class is read as. -/
def Reading.toValue? : Reading → Option Value
  | .integral n => if IntTag.contains none n then some (.ofInt n) else none
  | .real x => some (.ofFloat x)
  | .complex re im => some (.complex re im .f64)

namespace Action

/-- Converts items from the left, counted from `index`. -/
def convertItems (convert : ObjectId → Action σ Error Value) (index : Nat) :
    List ObjectId → Action σ Error (List Value)
  | [] => return []
  | item :: rest => do
    let value ← (convert item).describe (Error.within (Value.itemPlace index))
    return value :: (← convertItems convert (index + 1) rest)

/-- Converts entries from the left, the key of each before its value.  Of two keys that become the
same the later value counts. -/
def convertEntries (convert : ObjectId → Action σ Error Value) :
    List (ObjectId × ObjectId) → Entries Key Value → Action σ Error (Entries Key Value)
  | [], entries => return entries
  | (key, value) :: rest, entries => do
    let key ← describe (Error.within "[key]") do ((← convert key).toKey : Except Error Key)
    let value ← (convert value).describe (Error.within (Value.entryPlace key))
    convertEntries convert rest (Entries.insert entries key value)

/-- Converts an object that may nest containers at most `limit` levels deep. -/
def convertWithin (limit : Nat) : Nat → ObjectId → Action σ Error Value
  | 0, _ => throw (.nestingTooDeep limit)
  | room + 1, id => do
    match (← object id).builtIn with
    | .none => return .none
    | .bool b => return .bool b
    | .int n =>
      if IntTag.contains none n then return .ofInt n else throw (.overflow n "i128")
    | .float x => return .ofFloat x
    | .complex re im => return .complex re im .f64
    | .text codePoints => return .str (← decodeText codePoints)
    | .bytes b => return .bytes b
    | .list items | .tuple items => return .seq (← convertItems (convertWithin limit room) 0 items)
    | .dict entries => return .map (← convertEntries (convertWithin limit room) entries [])
    | .native handle => return .object handle
    | .number className reading? =>
      match reading?.bind Reading.toValue? with
      | some value => return value
      | none => throw (.mismatch "a number" className)
    | .exporter e => e.borrow id
    | o => throw (.mismatch "a convertible value" o.className)

def convert (limit : Nat) (id : ObjectId) : Action σ Error Value := convertWithin limit (limit + 1) id

/-- Gives the memory of buffers made since then back to the objects that exported it. -/
def handBack (since : Nat) : Action σ Error Unit :=
  modify fun h =>
    (h.world.buffers.drop since).foldl (fun h buffer =>
      match buffer.keeper? with
      | some (.exporter id) =>
        match h.objects[id]? with
        | some (.exporter e) =>
          let e := { e with memory := overwrite e.memory e.start buffer.bytes }
          { h with objects := h.objects.setIfInBounds id (.exporter e) }
        | _ => h
      | _ => h) h

mutual

/-- Makes an object of a value; `ofArray` says what to make of arrays. -/
def ofValueWith (ofArray : ArrayView → Action σ Error ObjectId) : Value → Action σ Error ObjectId
  | .none => alloc .none
  | .bool b => alloc (.bool b)
  | .int n _ => alloc (.int n)
  | .float x _ => alloc (.float x)
  | .complex re im _ => alloc (.complex re im)
  | .str s => alloc (.ofString s)
  | .bytes b => alloc (.bytes b)
  | .seq items => do alloc (.list (← ofItemsWith ofArray items))
  | .map entries => do alloc (.dict (← ofEntriesWith ofArray entries))
  | .object handle => alloc (.native handle)
  | .array view => ofArray view

def ofItemsWith (ofArray : ArrayView → Action σ Error ObjectId) :
    List Value → Action σ Error (List ObjectId)
  | [] => return []
  | item :: rest => do
    let id ← ofValueWith ofArray item
    return id :: (← ofItemsWith ofArray rest)

def ofEntriesWith (ofArray : ArrayView → Action σ Error ObjectId) :
    List (Key × Value) → Action σ Error (List (ObjectId × ObjectId))
  | [] => return []
  | (key, value) :: rest => do
    let keyId ← match key with
      | .bool b => alloc (.bool b)
      | .int n => alloc (.int n)
      | .str s => alloc (.ofString s)
      | .bytes b => alloc (.bytes b)
    let id ← ofValueWith ofArray value
    return (keyId, id) :: (← ofEntriesWith ofArray rest)

end

/-- The object that an array was borrowed from, or its elements in new lists. -/
def ofArray (view : ArrayView) : Action σ Error ObjectId := do
  let buffer ← perform view.memory
  match view.ownership, buffer.keeper? with
  | .borrowed, some (.exporter id) => return id
  | _, _ => ofValueWith (fun _ => alloc .none) (← perform view.nested)

def ofValue (value : Value) : Action σ Error ObjectId := ofValueWith ofArray value

end Action

end Marshal.Host
