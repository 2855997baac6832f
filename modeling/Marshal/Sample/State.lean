import Marshal.Program.Native

namespace Marshal.Sample

abbrev Long := Fixed .i64

def Long.zero : Long := Fixed.wrap .i64 0

def Long.sum (numbers : List Long) : Long := numbers.foldl (· + ·) Long.zero

/-- An account. -/
structure Account where
  balance : Long
  owner : String := ""
  limit : Option (Fixed .u32) := none

/-- The states of sample instances. -/
inductive State
  | account (account : Account)
  | counter (count : Long)
  | exported (value : Long)
  | word (word : Fixed .i32)

def accountType : String := "serpent_driver::catalogue::Account"

def counterType : String := "serpent_driver::catalogue::Counter"

def exportedType : String := "serpent_testmodule::basic::ExportedType"

instance : NativeState State where
  typeName
    | .account _ => accountType
    | .counter _ => counterType
    | .exported _ => exportedType
    | .word _ => "i32"

/-- The native type that a sample class is known by; any other name stands for itself. -/
def nativeTypeName : String → String
  | "Account" => accountType
  | "Counter" => counterType
  | "ExportedType" => exportedType
  | name => name

def State.zero : State := .word (Fixed.wrap .i32 0)

abbrev Code (α : Type) := Native State α

/-- Code on the account that is held; without one there is nothing it could do. -/
def onAccount {α : Type} (f : Account → Code α) : Code α := do
  match ← Native.receiver? with
  | some (.account a) => f a
  | _ => Native.panic .other

def onCounter {α : Type} (f : Long → Code α) : Code α := do
  match ← Native.receiver? with
  | some (.counter n) => f n
  | _ => Native.panic .other

def onExported {α : Type} (f : Long → Code α) : Code α := do
  match ← Native.receiver? with
  | some (.exported n) => f n
  | _ => Native.panic .other

abbrev long : Ty := .fixed .i64

def ok {α : Type} (x : α) : Code (Except Failure α) := pure (.ok x)

def failWith {α : Type} (message : String) : Code (Except Failure α) :=
  pure (.error (.text message))

end Marshal.Sample
