/-!
# Items of configuration documents

A document is a table of keys.  Besides plain items a table holds tables, each with the way it came
about, because that decides what may still be added to it: a header names a table once, dotted keys
extend only tables that dotted keys began, and an inline table is closed.
-/

namespace Marshal.Toml

/-- How a table came about. -/
inductive Origin
  /-- Named by a header. -/
  | header
  /-- On the way to a table that a header names. -/
  | implied
  /-- On the way to a dotted key. -/
  | dotted
  /-- Written between braces. -/
  | inline
  deriving DecidableEq, Repr

/-- What a key can stand for.  Numbers with a fraction, dates, and arrays with items are not among
the items, since no setting can hold them. -/
inductive Item
  | string (s : String)
  | integer (n : Int)
  | boolean (b : Bool)
  | emptyArray
  | table (origin : Origin) (entries : List (String × Item))

abbrev Table := List (String × Item)

namespace Table

def get? (entries : Table) (key : String) : Option Item := entries.lookup key

/-- Replaces what a key stands for, or adds it at the end. -/
def put : Table → String → Item → Table
  | [], key, item => [(key, item)]
  | entry :: rest, key, item =>
    if entry.1 = key then (key, item) :: rest else entry :: put rest key item

/-- Changes the table at the end of a path, making the tables that are missing on the way.  With
`dotted` the path is that of a dotted key, which may not pass through tables named by a header. -/
def descend (dotted : Bool) (change : Origin → Table → Option (Origin × Table)) :
    List String → Origin → Table → Option (Origin × Table)
  | [], origin, entries => change origin entries
  | key :: path, origin, entries =>
    match entries.get? key with
    | none => do
      let (inner, made) ← descend dotted change path (if dotted then .dotted else .implied) []
      return (origin, entries.put key (.table inner made))
    | some (.table inner made) =>
      if inner = .inline ∨ (dotted ∧ inner = .header) then none
      else do
        let (inner, made) ← descend dotted change path inner made
        return (origin, entries.put key (.table inner made))
    | some _ => none

/-- Opens the table that a header names; it may exist only on the way to another header. -/
def open? (entries : Table) (path : List String) (last : String) : Option Table := do
  let change (origin : Origin) (parent : Table) : Option (Origin × Table) :=
    match parent.get? last with
    | none => some (origin, parent.put last (.table .header []))
    | some (.table .implied made) => some (origin, parent.put last (.table .header made))
    | some _ => none
  let (_, entries) ← descend false change path .header entries
  return entries

/-- Adds a key of the table at `current`; `path` leads from there to the key's own table. -/
def add? (entries : Table) (current path : List String) (key : String) (item : Item) :
    Option Table := do
  let place (origin : Origin) (parent : Table) : Option (Origin × Table) :=
    if decide (origin = .dotted) == path.isEmpty then none
    else
      match parent.get? key with
      | none => some (origin, parent.put key item)
      | some _ => none
  let (_, entries) ←
    descend false (fun origin table => descend true place path origin table) current .header entries
  return entries

end Table

end Marshal.Toml
