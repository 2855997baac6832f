import Marshal.Program.Basic

/-!
# The world that programs act on

A `World` holds native instances behind handles, the memory of arrays, classes, what was printed and
logged.  An `Act` is a step from world to world with an outcome.  Besides a result and an error
there are two more outcomes: a panic that unwinds until something catches it, and running out of
stack, which nothing catches.

Instances and buffers are borrowed like references: by one user for writing or by any number for
reading.
-/

namespace Marshal

/-- Who is using an instance or a buffer. -/
inductive Access
  | idle
  /-- As many readers, and one more. -/
  | shared (others : Nat)
  | exclusive
  deriving DecidableEq, Repr

namespace Access

/-- One more reader, if nobody writes. -/
def share? : Access → Option Access
  | .idle => some (.shared 0)
  | .shared others => some (.shared (others + 1))
  | .exclusive => none

def unshare : Access → Access
  | .shared (others + 1) => .shared others
  | .shared 0 => .idle
  | access => access

/-- A writer, if nobody else is there. -/
def seize? : Access → Option Access
  | .idle => some .exclusive
  | _ => none

/-- One more user, who writes or only reads, if nobody is in the way. -/
def enter? (writable : Bool) (access : Access) : Option Access :=
  if writable then access.seize? else access.share?

def leave (writable : Bool) (access : Access) : Access :=
  if writable then .idle else access.unshare

end Access

/-- What stands behind a handle: the instance, while it exists, and how many references callers
hold.  A cell is abandoned when nothing kept refers to it any more although its instance was never
released. -/
structure Cell (σ : Type) where
  handle : Handle
  references : Nat
  state? : Option σ
  access : Access
  isAbandoned : Bool := false

/-- The memory of arrays. -/
structure Buffer where
  bytes : List UInt8
  isReadonly : Bool
  keeper? : Option Keeper
  access : Access

/-- Everything that programs can change. -/
structure World (σ : Type) where
  cells : List (Cell σ) := []
  buffers : List Buffer := []
  classes : List (ClassDef (Program σ)) := []
  /-- How many arrays were made so far.  The counter has 64 bits, and fewer than 2^64 arrays are made. -/
  arrayCount : Nat := 0
  printed : String := ""
  /-- What was logged, the latest first. -/
  journal : List Event := []
  /-- The values that callers keep, by name. -/
  kept : Entries String Value := []

/-- How an action ends. -/
inductive Outcome (α : Type)
  | returned (a : α)
  | failed (e : Error)
  | panicked (payload : Payload)
  | exhausted

/-- A step from world to world. -/
def Act (σ α : Type) : Type := World σ → Outcome α × World σ

namespace Act

variable {σ α β : Type}

def pure (a : α) : Act σ α := fun w => (.returned a, w)

def bind (act : Act σ α) (next : α → Act σ β) : Act σ β := fun w =>
  match act w with
  | (.returned a, w) => next a w
  | (.failed e, w) => (.failed e, w)
  | (.panicked p, w) => (.panicked p, w)
  | (.exhausted, w) => (.exhausted, w)

instance : Monad (Act σ) where
  pure := pure
  bind := bind

instance : Inhabited (Act σ α) := ⟨fun w => (.exhausted, w)⟩

def fail (e : Error) : Act σ α := fun w => (.failed e, w)

def panic (payload : Payload) : Act σ α := fun w => (.panicked payload, w)

/-- The end of an action that has no stack left. -/
def exhaust : Act σ α := fun w => (.exhausted, w)

def read (f : World σ → α) : Act σ α := fun w => (.returned (f w), w)

def modify (f : World σ → World σ) : Act σ Unit := fun w => (.returned (), f w)

def ofExcept : Except Error α → Act σ α
  | .ok a => pure a
  | .error e => fail e

def ofOption (e : Error) : Option α → Act σ α
  | some a => pure a
  | none => fail e

/-- The action with its error as a result. -/
def attempt (act : Act σ α) : Act σ (Except Error α) := fun w =>
  match act w with
  | (.returned a, w) => (.returned (.ok a), w)
  | (.failed e, w) => (.returned (.error e), w)
  | (.panicked p, w) => (.panicked p, w)
  | (.exhausted, w) => (.exhausted, w)

/-- The action between a change of the world and its undoing, which happens however it ends. -/
def bracket (enter leave : World σ → World σ) (act : Act σ α) : Act σ α := fun w =>
  let (outcome, w) := act (enter w)
  (outcome, leave w)

def log (event : Event) : Act σ Unit :=
  modify fun w => { w with journal := event :: w.journal }

def print (text : String) : Act σ Unit :=
  modify fun w => { w with printed := w.printed ++ text }

end Act

namespace World

variable {σ : Type} (w : World σ)

def cell? (handle : Handle) : Option (Cell σ) := w.cells[handle.slot]?

def buffer? (view : ArrayView) : Option Buffer := w.buffers[view.buffer]?

def class? (id : Nat) : Option (ClassDef (Program σ)) := w.classes[id]?

def setCell (handle : Handle) (f : Cell σ → Cell σ) : World σ :=
  { w with cells := w.cells.modify handle.slot f }

def setBuffer (buffer : Nat) (f : Buffer → Buffer) : World σ :=
  { w with buffers := w.buffers.modify buffer f }

def setClass (id : Nat) (f : ClassDef (Program σ) → ClassDef (Program σ)) : World σ :=
  { w with classes := w.classes.modify id f }

def references (handle : Handle) : Nat := ((w.cell? handle).map Cell.references).getD 0

def isAlive (handle : Handle) : Bool := 0 < w.references handle

def isReadonly (view : ArrayView) : Bool := ((w.buffer? view).map Buffer.isReadonly).getD false

/-- What has to be looked up to write out a value. -/
def facts : Facts := { references := w.references, isReadonly := w.isReadonly }

end World

/-- A view of what a program works on: an instance, or some bytes of a buffer, for writing or for
reading only. -/
inductive Frame
  | instance (handle : Handle) (writable : Bool)
  | bytes (buffer start length : Nat) (writable : Bool)

/-- How native code is run, on the frames that it is given. -/
abbrev Runner (σ : Type) := List Frame → Program σ → Act σ Result

end Marshal
