import Marshal.Value.Text

namespace Marshal.Value

def itemPlace (index : Nat) : String := s!"[{index}]"

def entryPlace (key : Key) : String := s!"[{key.text}]"

mutual

/-- Checks a value that sits at `depth` against the limit. -/
def checkDepthAt (limit depth : Nat) : Value → Except Error Unit
  | .seq items =>
    if limit < depth then .error (.nestingTooDeep limit) else checkItems limit depth 0 items
  | .map entries =>
    if limit < depth then .error (.nestingTooDeep limit) else checkEntries limit depth entries
  | _ => if limit < depth then .error (.nestingTooDeep limit) else .ok ()

/-- Checks the items of a sequence at `depth`, counted from `index`. -/
def checkItems (limit depth index : Nat) : List Value → Except Error Unit
  | [] => .ok ()
  | item :: rest =>
    match checkDepthAt limit (depth + 1) item with
    | .error e => .error (e.within (itemPlace index))
    | .ok () => checkItems limit depth (index + 1) rest

/-- Checks the values of a mapping at `depth`. -/
def checkEntries (limit depth : Nat) : List (Key × Value) → Except Error Unit
  | [] => .ok ()
  | (key, value) :: rest =>
    match checkDepthAt limit (depth + 1) value with
    | .error e => .error (e.within (entryPlace key))
    | .ok () => checkEntries limit depth rest

end

/-- Checks that no element of a value is more than `limit` levels deep. -/
def checkDepth (limit : Nat) (value : Value) : Except Error Unit := checkDepthAt limit 0 value

mutual

/-- How many levels of containers stand around the deepest element. -/
def nesting : Value → Nat
  | .seq items => itemsNesting items
  | .map entries => entriesNesting entries
  | _ => 0

def itemsNesting : List Value → Nat
  | [] => 0
  | item :: rest => max (nesting item + 1) (itemsNesting rest)

def entriesNesting : List (Key × Value) → Nat
  | [] => 0
  | (_, value) :: rest => max (nesting value + 1) (entriesNesting rest)

end

end Marshal.Value
