import Marshal.Error

namespace Marshal.Host

/-- What a fault is for the host. -/
inductive FaultKind
  | runtime
  | attribute
  | type
  | buffer
  | value
  | key
  | overflow
  | zeroDivision
  | unsupported
  deriving DecidableEq, Repr

def FaultKind.name : FaultKind → String
  | .runtime => "RuntimeError"
  | .attribute => "AttributeError"
  | .type => "TypeError"
  | .buffer => "BufferError"
  | .value => "ValueError"
  | .key => "KeyError"
  | .overflow => "OverflowError"
  | .zeroDivision => "ZeroDivisionError"
  | .unsupported => "NotImplementedError"

/-- Why an action of the host has no result. -/
structure Fault where
  kind : FaultKind
  message : String
  deriving DecidableEq, Repr

namespace Fault

/-- Every error of native code is of one kind to the host. -/
def ofError (e : Error) : Fault := ⟨.runtime, e.message⟩

def released : Fault := ⟨.value, "operation forbidden on released memoryview object"⟩

def noAttribute (className name : String) : Fault :=
  ⟨.attribute, s!"'{className}' object has no attribute '{name}'"⟩

/-- The fault of a name that nothing is kept under. -/
def missing (name : String) : Fault := ⟨.key, s!"'{name}'"⟩

end Fault

end Marshal.Host
