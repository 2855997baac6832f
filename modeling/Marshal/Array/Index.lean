import Marshal.Array.Layout

namespace Marshal.Index

def first? (shape : List Nat) : Option (List Nat) :=
  if shape.contains 0 then none else some (shape.map fun _ => 0)

/-- Counts one step on, or says that all axes have run over.  Axes that run over start again at
zero and carry into the axis before them. -/
def step (shape index : List Nat) : Bool × List Nat :=
  match shape, index with
  | dim :: shape, i :: index =>
    match step shape index with
    | (false, rest) => (false, i :: rest)
    | (true, rest) => if i + 1 < dim then (false, (i + 1) :: rest) else (true, 0 :: rest)
  | _, _ => (true, [])

def succ? (shape index : List Nat) : Option (List Nat) :=
  match step shape index with
  | (false, next) => some next
  | (true, _) => none

/-- At most `count` indices, from `start` on. -/
def takeFrom (shape : List Nat) : Nat → Option (List Nat) → List (List Nat)
  | 0, _ | _, none => []
  | count + 1, some index => index :: takeFrom shape count (succ? shape index)

/-- The first `count` indices of a shape. -/
def take (count : Nat) (shape : List Nat) : List (List Nat) := takeFrom shape count (first? shape)

def product : List Nat → List (List Nat)
  | [] => [[]]
  | dim :: shape => (List.range dim).flatMap fun i => (product shape).map (i :: ·)

def all (shape : List Nat) : List (List Nat) := if shape.contains 0 then [] else product shape

end Marshal.Index
