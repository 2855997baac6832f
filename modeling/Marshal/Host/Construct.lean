import Marshal.Host.Object

namespace Marshal.Host

/-- The fault of a number that is no integer where one is needed. -/
def notIntegral : Fault := ⟨.type, "'float' object cannot be interpreted as an integer"⟩

/-- A quotient of integers; a number that is no integer makes none. -/
def Object.quotient (numerator? denominator? : Option Int) : Except Fault Object :=
  match numerator?, denominator? with
  | some numerator, some denominator =>
    if denominator = 0 then .error ⟨.zeroDivision, s!"Fraction({numerator}, 0)"⟩
    else .ok (.number "Fraction" (Reading.ofQuotient? numerator denominator))
  | _, _ => .error ⟨.type, "both arguments should be Rational instances"⟩

def codePoint (n? : Option Int) : Except Fault Nat :=
  match n? with
  | none => .error notIntegral
  | some n =>
    if n < -0x80000000 ∨ 0x80000000 ≤ n then
      .error ⟨.overflow, "Python int too large to convert to C int"⟩
    else if n < 0 ∨ 0x110000 ≤ n then .error ⟨.value, "chr() arg not in range(0x110000)"⟩
    else .ok n.toNat

def Object.ofCodePoints (ns : List (Option Int)) : Except Fault Object :=
  .text <$> ns.mapM codePoint

def Object.integersBelow (bound? : Option Int) : Except Fault Object :=
  if bound?.isSome then .ok (.foreign "range" Option.none) else .error notIntegral

variable {σ : Type}

def Exporter.keyFault? (e : Exporter) : Option Fault :=
  if e.className = "memoryview" then
    if e.isReleased then some .released
    else if !e.isReadonly then some ⟨.value, "cannot hash writable memoryview object"⟩
    else if ["B", "b", "c", "@B", "@b", "@c"].contains e.format then none
    else some ⟨.value, "memoryview: hashing is restricted to formats 'B', 'b' or 'c'"⟩
  else if e.isGrowable then some ⟨.type, s!"unhashable type: '{(Object.exporter e).qualifiedName}'"⟩
  else some ⟨.type, "unhashable type"⟩

/-- Why an object cannot be looked up by its value, if it cannot: it may change, or a part of it may.
So many levels of parts are looked at. -/
def keyFault? (h : Host σ) : Nat → ObjectId → Option Fault
  | 0, _ => none
  | steps + 1, id =>
    let o := h.object id
    match o.builtIn with
    | .tuple items => items.findSome? (keyFault? h steps)
    | .list _ | .dict _ | .set _ => some ⟨.type, s!"unhashable type: '{o.qualifiedName}'"⟩
    | .exporter e => e.keyFault?
    | _ => none

/-- Refuses an object that cannot be looked up by its value. -/
def Action.requireKey (id : ObjectId) : Action σ Fault Unit := do
  let h ← get
  if let some fault := keyFault? h h.objects.size id then throw fault

end Marshal.Host
