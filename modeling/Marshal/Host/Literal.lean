import Marshal.Decimal.Text
import Marshal.Host.Object

namespace Marshal.Host

def hexPadded (width n : Nat) : String :=
  let digits := Text.hexDigits n
  "".pushn '0' (width - digits.length) ++ digits

/-- The code point of the quote around text: the double one where that saves escapes. -/
def quoteFor (codePoints : List Nat) : Nat :=
  if codePoints.contains 0x27 && !codePoints.contains 0x22 then 0x22 else 0x27

def escapedIn (quote : Nat) (shown : Char → Bool) (code : Nat) : String :=
  let c := Char.ofNat code
  if code = quote ∨ c = '\\' then "\\" ++ c.toString
  else if c = '\t' then "\\t"
  else if c = '\n' then "\\n"
  else if c = '\r' then "\\r"
  else if code.isValidChar ∧ shown c then c.toString
  else if code < 0x100 then "\\x" ++ hexPadded 2 code
  else if code < 0x10000 then "\\u" ++ hexPadded 4 code
  else "\\U" ++ hexPadded 8 code

def quotedIn (codePoints : List Nat) (shown : Char → Bool) : String :=
  let quote := quoteFor codePoints
  let mark := (Char.ofNat quote).toString
  mark ++ String.join (codePoints.map (escapedIn quote shown)) ++ mark

def bytesLiteral (bytes : List UInt8) : String :=
  "b" ++ quotedIn (bytes.map UInt8.toNat) fun c => 32 ≤ c.toNat && c.toNat < 127

/-- A complex number; a real part that is zero is left out. -/
def complexLiteral (re im : Binary64) : String :=
  let form := { Decimal.Form.signedPower with keepsFraction := false }
  if re.isZero && !re.isNegative then Decimal.write form im ++ "j"
  else
    let im := if im.isNaN then "+nan" else Decimal.write { form with showsPlus := true } im
    s!"({Decimal.write form re}{im}j)"

variable {σ : Type} (h : Host σ)

def commas (parts : List String) : String := ", ".intercalate parts

/-- An object written out, if all of it can be; so many levels are looked at. -/
def literalFrom : Nat → List ObjectId → ObjectId → Option String
  | 0, _, _ => none
  | steps + 1, path, id =>
    let o := h.object id
    let inside := path.contains id
    let part := literalFrom steps (id :: path)
    match o.className, o.builtIn with
    | "Color", .int n => some ("<Color." ++ (if n = 1 then "RED" else "BLUE") ++ s!": {n}>")
    | _, .none => some "None"
    | _, .bool b => some (if b then "True" else "False")
    | _, .int n => some (toString n)
    | _, .float x => some (Decimal.write .signedPower x)
    | _, .complex re im => some (complexLiteral re im)
    | _, .text codePoints => some (quotedIn codePoints Text.isPrintable)
    | _, .bytes b => some (bytesLiteral b)
    | _, .list items =>
      if inside then some "[...]" else do return "[" ++ commas (← items.mapM part) ++ "]"
    | _, .tuple [item] => if inside then some "(...)" else do return "(" ++ (← part item) ++ ",)"
    | _, .tuple items =>
      if inside then some "(...)" else do return "(" ++ commas (← items.mapM part) ++ ")"
    | _, .dict entries =>
      if inside then some "\x7b...\x7d"
      else do
        let texts ← entries.mapM fun (key, value) => do return (← part key) ++ ": " ++ (← part value)
        return "\x7b" ++ commas texts ++ "\x7d"
    | _, .set [] => some "set()"
    | _, .set items => do return "\x7b" ++ commas (← items.mapM part) ++ "\x7d"
    | _, .exporter e =>
      if e.className = "bytearray" then some s!"bytearray({bytesLiteral e.memory})" else none
    | _, o => o.nativeText?

/-- An object written out, if it does not lie somewhere in memory. -/
def literal? (id : ObjectId) : Option String := literalFrom h (h.objects.size + 1) [] id

end Marshal.Host
