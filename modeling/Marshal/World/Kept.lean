import Marshal.World.Basic

/-!
# Kept values

Callers keep values under names, and classes keep the values that their methods fall back on.  An
instance lives as long as something kept refers to it: when the last reference to it is dropped, an
instance that was not released goes with it, and that is logged.
-/

namespace Marshal

variable {σ : Type}

namespace Value

mutual

def handles : Value → List Handle
  | .object handle => [handle]
  | .seq items => itemHandles items
  | .map entries => entryHandles entries
  | _ => []

def itemHandles : List Value → List Handle
  | [] => []
  | item :: rest => handles item ++ itemHandles rest

def entryHandles : List (Key × Value) → List Handle
  | [] => []
  | (_, value) :: rest => handles value ++ entryHandles rest

end

end Value

namespace Handle

def same (a b : Handle) : Bool := a.slot == b.slot

/-- The handles without those whose instance comes again later. -/
def lastOccurrences (handles : List Handle) : List Handle :=
  handles.foldr (fun handle later => if later.any handle.same then later else handle :: later) []

end Handle

namespace World

/-- Everything that is kept: what callers keep, and what the methods of classes fall back on. -/
def keptValues (w : World σ) : List Value :=
  w.kept.map Prod.snd ++
    w.classes.flatMap fun c => c.methods.flatMap fun (_, method) => method.defaults

def isKept (w : World σ) (handle : Handle) : Bool :=
  w.keptValues.any fun value => value.handles.any handle.same

end World

namespace Act

/-- Lets go of the last of the references to an instance that are being dropped. -/
def dropHandle (handle : Handle) : Act σ Unit := do
  let w ← read id
  match w.cell? handle with
  | some { state? := some _, isAbandoned := false, .. } =>
    if !w.isKept handle then
      log ⟨.debug, .handle, "dropping unreleased native instance",
        [⟨"class", handle.className⟩, .ofNat "id" handle.id]⟩
      modify fun w => w.setCell handle fun cell => { cell with isAbandoned := true }
  | _ => pure ()

/-- Lets go of a value from left to right; an instance goes with its last reference. -/
def drop (value : Value) : Act σ Unit := (Handle.lastOccurrences value.handles).forM dropHandle

/-- Keeps a value under a name and lets go of what was kept there. -/
def keep (name : String) (value : Value) : Act σ Unit := do
  let old ← read fun w => Entries.get? w.kept name
  modify fun w => { w with kept := Entries.insert w.kept name value }
  if let some old := old then drop old

def forget (name : String) : Act σ Unit := do
  let old ← read fun w => Entries.get? w.kept name
  modify fun w => { w with kept := w.kept.filter fun (other, _) => other ≠ name }
  if let some old := old then drop old

/-- Lets go of everything kept, in the order of the names. -/
def forgetAll : Act σ Unit := do
  let names ← read fun w => (w.kept.map Prod.fst).mergeSort fun a b => !(b < a)
  names.forM forget

/-- Keeps a result under its name, if it has one, and lets go of it otherwise. -/
def settle (name? : Option String) (value : Value) : Act σ Unit :=
  match name? with
  | some name => keep name value
  | none => drop value

end Act

/-- What was printed and the logged lines that a filter shows, and the world without them. -/
def World.takeShown (filter : LogFilter) (w : World σ) : (String × List String) × World σ :=
  let lines := (w.journal.reverse.filter filter.shows).flatMap Event.lines
  ((w.printed, lines), { w with printed := "", journal := [] })

end Marshal
