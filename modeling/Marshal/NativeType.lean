import Marshal.Width
import Marshal.Text.Quoted

namespace Marshal

/-- The described type of a parameter or result. -/
inductive NativeType
  | none
  | bool
  | int (tag : IntTag)
  | float (width : FloatType)
  | complex (width : FloatType)
  | str
  | bytes
  | seq (item : NativeType)
  | map (key value : NativeType)
  | array
  | object (className : String)
  | any
  deriving DecidableEq, Repr

namespace NativeType

/-- The type as a caller would annotate it. -/
def hint : NativeType → String
  | .none => "None"
  | .bool => "bool"
  | .int _ => "int"
  | .float _ => "float"
  | .complex _ => "complex"
  | .str => "str"
  | .bytes => "bytes"
  | .seq item => s!"List[{item.hint}]"
  | .map key value => s!"Dict[{key.hint}, {value.hint}]"
  | .array => "numpy.ndarray"
  | .object className => className
  | .any => "Any"

/-- The type with the width of a number that stands on its own. -/
def text : NativeType → String
  | .int tag => tag.name
  | .float width => width.name
  | .complex width => s!"Complex<{width.name}>"
  | t => t.hint

/-- A type without parts, by its name; the width of a number follows a colon. -/
def ofWord? (word : String) : Option NativeType :=
  match word.splitOn ":" with
  | ["None"] => some .none
  | ["Bool"] => some .bool
  | ["Str"] => some .str
  | ["Bytes"] => some .bytes
  | ["Array"] => some .array
  | ["Any"] => some .any
  | ["Int", width] => (IntTag.parse? width).map .int
  | ["Float", width] => (FloatType.parse? width).map .float
  | ["Complex", width] => (FloatType.parse? width).map .complex
  | _ => Option.none

def isNone : NativeType → Bool
  | .none => true
  | _ => false

def debugText : NativeType → String
  | .none => "None"
  | .bool => "Bool"
  | .int tag => s!"Int({tag.label})"
  | .float width => s!"Float({width.label})"
  | .complex width => s!"Complex({width.label})"
  | .str => "Str"
  | .bytes => "Bytes"
  | .seq item => s!"Sequence({item.debugText})"
  | .map key value => s!"Mapping({key.debugText}, {value.debugText})"
  | .array => "Array"
  | .object className => s!"Object({Text.quoted className})"
  | .any => "Any"

end NativeType

end Marshal
