import Marshal.Text.Blank
import Marshal.Text.Letter

namespace Marshal

/-- How declared names become exported names. -/
inductive NamingStyle
  | asDeclared
  | snakeCase
  deriving DecidableEq, Repr

namespace Naming

/-- Whether a word starts at a capital, given its two neighbours. -/
def startsWord (before after : Option Char) : Bool :=
  match before with
  | none => false
  | some b => Text.isSmall b || b.isDigit || (Text.isCapital b && after.any Text.isSmall)

/-- The snake-case form of the characters that follow `before`. -/
def snakeCharsAfter : Option Char → List Char → List Char
  | _, [] => []
  | before, c :: rest =>
    let written :=
      if Text.isCapital c then
        (if startsWord before rest.head? then ['_'] else []) ++ Text.smallForm c
      else [c]
    written ++ snakeCharsAfter (some c) rest

end Naming

def snakeCase (name : String) : String := String.ofList (Naming.snakeCharsAfter none name.toList)

namespace NamingStyle

def name : NamingStyle → String
  | .asDeclared => "as_declared"
  | .snakeCase => "snake_case"

/-- Reads the name of a style; blanks around it do not count. -/
def parse? (text : String) : Option NamingStyle :=
  match Text.trimBlanks text with
  | "as_declared" => some .asDeclared
  | "snake_case" => some .snakeCase
  | _ => none

def apply : NamingStyle → String → String
  | .asDeclared, name => name
  | .snakeCase, name => Marshal.snakeCase name

end NamingStyle

end Marshal
