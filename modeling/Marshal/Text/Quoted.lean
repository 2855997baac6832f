import Marshal.Text.Printable

namespace Marshal.Text

def hexDigits (n : Nat) : String := String.ofList (Nat.toDigits 16 n)

def hexByte (b : UInt8) : String :=
  (if b < 16 then "0" else "") ++ hexDigits b.toNat

def escaped (c : Char) : String :=
  if c = '\x00' then "\\0"
  else if c = '\t' then "\\t"
  else if c = '\r' then "\\r"
  else if c = '\n' then "\\n"
  else if c = '"' then "\\\""
  else if c = '\\' then "\\\\"
  else if isExtender c || isFiller c || !isPrintable c then "\\u\x7b" ++ hexDigits c.toNat ++ "\x7d"
  else c.toString

/-- Text between double quotes.  Characters that are not printable or have no shape are escaped, and so are
those that would merge with the one before. -/
def quoted (s : String) : String :=
  "\"" ++ String.join (s.toList.map escaped) ++ "\""

/-- Texts between brackets, with a comma and a blank between any two. -/
def bracketed (items : List String) : String :=
  "[" ++ ", ".intercalate items ++ "]"

def bracketedNats (ns : List Nat) : String := bracketed (ns.map toString)

end Marshal.Text
