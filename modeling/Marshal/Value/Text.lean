import Marshal.Decimal.Text
import Marshal.Text.Quoted
import Marshal.Value.Basic

namespace Marshal

/-- A number on its own: whole numbers keep one zero after the point. -/
def floatText (x : Binary64) : String :=
  if x.isFinite && x.isIntegral then Decimal.writeWhole x else Decimal.write .plain x

/-- A complex number: only its imaginary part where the real part is exactly positive zero. -/
def complexText (re im : Binary64) : String :=
  if re.isZero && !re.isNegative then Decimal.write .plain im ++ "j"
  else "(" ++ Decimal.write .plain re ++ Decimal.write .withSign im ++ "j)"

def byteText (b : UInt8) : String :=
  if b = 0x5C then "\\\\"
  else if b = 0x27 then "\\'"
  else if 0x20 ≤ b && b ≤ 0x7E then (Char.ofNat b.toNat).toString
  else "\\x" ++ Text.hexByte b

def bytesText (bytes : List UInt8) : String := "b'" ++ String.join (bytes.map byteText) ++ "'"

def boolText (b : Bool) : String := if b then "True" else "False"

def strText (s : String) : String := "'" ++ s ++ "'"

def Key.text : Key → String
  | .bool b => boolText b
  | .int n => toString n
  | .str s => strText s
  | .bytes b => bytesText b

def Handle.text (handle : Handle) : String := s!"<{handle.className} object #{handle.id}>"

def ArrayView.text (view : ArrayView) : String :=
  s!"<ndarray dtype={view.dtype.name} shape={Text.bracketedNats view.shape}>"

namespace Value

mutual

def text : Value → String
  | .none => "None"
  | .bool b => boolText b
  | .int n _ => toString n
  | .float x _ => floatText x
  | .complex re im _ => complexText re im
  | .str s => strText s
  | .bytes b => bytesText b
  | .seq items => Text.bracketed (itemTexts items)
  | .map entries => "\x7b" ++ ", ".intercalate (entryTexts entries) ++ "\x7d"
  | .object handle => handle.text
  | .array view => view.text

def itemTexts : List Value → List String
  | [] => []
  | item :: rest => text item :: itemTexts rest

def entryTexts : List (Key × Value) → List String
  | [] => []
  | (key, value) :: rest => (key.text ++ ": " ++ text value) :: entryTexts rest

end

end Value

def floatDebugText (x : Binary64) : String := Decimal.write .literal x

def bytesDebugText (bytes : List UInt8) : String := Text.bracketedNats (bytes.map UInt8.toNat)

def boolDebugText (b : Bool) : String := if b then "true" else "false"

def Key.debugText : Key → String
  | .bool b => s!"Bool({boolDebugText b})"
  | .int n => s!"Int({n})"
  | .str s => s!"Str({Text.quoted s})"
  | .bytes b => s!"Bytes({bytesDebugText b})"

def Ownership.label : Ownership → String
  | .owned => "Owned"
  | .borrowed => "Borrowed"
  | .view => "View"

/-- What writing out a value has to look up: references of an object, and whether a buffer may be
written. -/
structure Facts where
  references : Handle → Nat
  isReadonly : ArrayView → Bool

def Handle.debugText (facts : Facts) (handle : Handle) : String :=
  "ObjectHandle \x7b " ++ s!"class: {Text.quoted handle.className}, id: {handle.id}, " ++
    s!"refs: {facts.references handle}" ++ " \x7d"

def ArrayView.debugText (facts : Facts) (view : ArrayView) : String :=
  "ArrayView \x7b " ++ s!"id: {view.id}, layout: {view.layout.debugText}, " ++
    s!"ownership: {view.ownership.label}, readonly: {boolDebugText (facts.isReadonly view)}" ++ " \x7d"

namespace Value

variable (facts : Facts)

mutual

def debugText : Value → String
  | .none => "None"
  | .bool b => s!"Bool({boolDebugText b})"
  | .int n tag => s!"Int({n}, {tag.label})"
  | .float x width => s!"Float({floatDebugText x}, {width.label})"
  | .complex re im width =>
    s!"Complex({floatDebugText re}, {floatDebugText im}, {width.label})"
  | .str s => s!"Str({Text.quoted s})"
  | .bytes b => s!"Bytes({bytesDebugText b})"
  | .seq items => s!"Sequence({Text.bracketed (itemDebugTexts items)})"
  | .map entries =>
    "Mapping(\x7b" ++ ", ".intercalate (entryDebugTexts entries) ++ "\x7d)"
  | .object handle => s!"Object({handle.debugText facts})"
  | .array view => s!"Array({view.debugText facts})"

def itemDebugTexts : List Value → List String
  | [] => []
  | item :: rest => debugText item :: itemDebugTexts rest

def entryDebugTexts : List (Key × Value) → List String
  | [] => []
  | (key, value) :: rest => (key.debugText ++ ": " ++ debugText value) :: entryDebugTexts rest

end

end Value

end Marshal
