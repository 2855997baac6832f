import Marshal.Text.Blank
import Marshal.Text.Quoted

namespace Marshal

inductive Level
  | error
  | warn
  | info
  | debug
  | trace
  deriving DecidableEq, Repr

namespace Level

def name : Level → String
  | .error => "ERROR"
  | .warn => "WARN"
  | .info => "INFO"
  | .debug => "DEBUG"
  | .trace => "TRACE"

def detail : Level → Nat
  | .error => 1
  | .warn => 2
  | .info => 3
  | .debug => 4
  | .trace => 5

def parse? (text : String) : Option Level :=
  [Level.error, .warn, .info, .debug, .trace].find? fun level =>
    level.name.toList.map Char.toLower == text.toList.map Char.toLower

end Level

/-- The part of the program that an event comes from. -/
inductive Target
  | call
  | handle
  | module
  | array
  | basicModule
  | host
  | hostConversion
  deriving DecidableEq, Repr

/-- The name under which events of a part are shown and selected. -/
def Target.path : Target → String
  | .call => "serpent_bridge::call"
  | .handle => "serpent_bridge::handle"
  | .module => "serpent_bridge::module"
  | .array => "serpent_bridge::array_bridge"
  | .basicModule => "serpent_testmodule::basic"
  | .host => "testmodule"
  | .hostConversion => "testmodule::convert"

/-- One field of an event, already written out. -/
structure LogField where
  name : String
  text : String
  deriving DecidableEq, Repr

namespace LogField

def ofNat (name : String) (n : Nat) : LogField := ⟨name, toString n⟩

def ofInt (name : String) (n : Int) : LogField := ⟨name, toString n⟩

def quoted (name s : String) : LogField := ⟨name, Text.quoted s⟩

/-- A character of a message.  Those that drive a terminal are written as escapes. -/
def messageCharacter (c : Char) : String :=
  let code := c.toNat
  if code = 0x07 ∨ code = 0x08 ∨ code = 0x0C ∨ code = 0x1B ∨ code = 0x7F then
    "\\x" ++ Text.hexByte (UInt8.ofNat code)
  else if 0x80 ≤ code ∧ code ≤ 0x9F then "\\u\x7b" ++ Text.hexDigits code ++ "\x7d"
  else c.toString

def messageText (text : String) : String := String.join (text.toList.map messageCharacter)

/-- A field with the name of the message shows its text alone, as a message. -/
def shown (field : LogField) : String :=
  if field.name = "message" then messageText field.text else field.name ++ "=" ++ field.text

end LogField

/-- Something that happened. -/
structure Event where
  level : Level
  target : Target
  message : String
  fields : List LogField := []
  deriving DecidableEq, Repr

namespace Event

variable (event : Event)

def text : String :=
  " ".intercalate
    (s!"{event.level.name} {event.target.path}: {event.message}" :: event.fields.map LogField.shown)

/-- The lines that show the event; empty ones are left out. -/
def lines : List String :=
  ((event.text.splitOn "\n").map Text.trimBlanks).filter fun line => !line.isEmpty

end Event

/-- Which events are shown: for each start of a target path the most detailed level, the longest
matching start deciding. -/
structure LogFilter where
  rules : List (String × Option Level)
  deriving DecidableEq, Repr

namespace LogFilter

def upTo (level : Level) : LogFilter := ⟨[("", some level)]⟩

def shows (filter : LogFilter) (event : Event) : Bool :=
  let matching := filter.rules.filter fun rule => event.target.path.startsWith rule.1
  let longest := matching.foldl (fun best rule =>
    match best with
    | some (start, _) => if start.length ≤ rule.1.length then some rule else best
    | none => some rule) (none : Option (String × Option Level))
  match longest with
  | some (_, some level) => event.level.detail ≤ level.detail
  | _ => false

/-- Reads one rule: a level for all targets, or a start of a path with its level. -/
def parseRule? (text : String) : Option (String × Option Level) :=
  let level? (text : String) : Option (Option Level) :=
    if text.toList.map Char.toLower = "off".toList then some none
    else (Level.parse? text).map some
  match text.splitOn "=" with
  | [level] => (level? level).map fun level => ("", level)
  | [start, level] => if start.isEmpty then none else (level? level).map fun level => (start, level)
  | _ => none

/-- Reads rules with commas between them.  Without any rule only errors are shown. -/
def parse? (text : String) : Option LogFilter :=
  if text.isEmpty then some (upTo .error)
  else ((text.splitOn ",").mapM parseRule?).map LogFilter.mk

/-- The filter that an environment asks for: rules, where they can be read, and otherwise the level of
the most detailed variable that is set. -/
def ofEnvironment (lookup : String → Option String) : LogFilter :=
  let fallback :=
    if (lookup "TRACE").isSome then Level.trace
    else if (lookup "DEBUG").isSome then Level.debug
    else Level.info
  ((lookup "SERPENT_LOG").bind parse?).getD (upTo fallback)

end LogFilter

end Marshal
