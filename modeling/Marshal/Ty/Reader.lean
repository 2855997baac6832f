import Marshal.Ty.Basic

namespace Marshal

def KeyTy.parse? (name : String) : Option KeyTy :=
  match name with
  | "bool" => some .bool
  | "String" | "SmolStr" => some .text
  | _ => (NativeInt.parse? name).map .int

def MapKind.parse? (name : String) : Option MapKind :=
  match name with
  | "HashMap" => some .unordered
  | "IndexMap" => some .byInsertion
  | "BTreeMap" => some .byKey
  | _ => none

namespace Ty

def ofWord? (name : String) : Option Ty :=
  match name with
  | "bool" => some .bool
  | "f32" => some (.float .f32)
  | "f64" => some (.float .f64)
  | "String" | "SmolStr" => some .text
  | "Bytes" => some .bytes
  | "Any" => some .any
  | "ObjectHandle" => some .object
  | "ArrayView" => some .array
  | _ => (NativeInt.parse? name).map .int

/-- The text after a character that has to come first. -/
def after? (c : Char) : List Char → Option (List Char)
  | d :: rest => if c = d then some rest else none
  | [] => none

/-- The longest start that is a word, and the rest. -/
def word (text : List Char) : String × List Char :=
  (String.ofList (text.takeWhile Char.isAlphanum), text.dropWhile Char.isAlphanum)

/-- Reads one type and leaves the rest of the text; `fuel` bounds the nesting of brackets. -/
def read? : Nat → List Char → Option (Ty × List Char)
  | 0, _ => none
  | fuel + 1, input =>
    match input with
    | '(' :: ')' :: rest => some (.unit, rest)
    | '(' :: rest => do
      let (first, rest) ← read? fuel rest
      let (second, rest) ← read? fuel (← after? ',' rest)
      return (.pair first second, ← after? ')' rest)
    | _ =>
      let (name, rest) := word input
      match rest with
      | '<' :: rest =>
        match MapKind.parse? name with
        | some kind => do
          let (keyName, rest) := word rest
          let key ← KeyTy.parse? keyName
          let (value, rest) ← read? fuel (← after? ',' rest)
          return (.map kind key value, ← after? '>' rest)
        | none => do
          let (item, rest) ← read? fuel rest
          let rest ← after? '>' rest
          match name, item with
          | "Option", item => return (.option item, rest)
          | "Vec", item => return (.list item, rest)
          | "Complex", .float part => return (.complex part, rest)
          | _, _ => none
      | _ => do return (← ofWord? name, rest)

def parse? (name : String) : Option Ty :=
  match read? (name.length + 1) name.toList with
  | some (t, []) => some t
  | _ => none

end Ty

end Marshal
