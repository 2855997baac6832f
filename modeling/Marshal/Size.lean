namespace Marshal.Size

-- Powers with natural exponents are the core ones, whatever else is in scope.
attribute [local instance (2000)] instPowNat

/-- Sizes are those of a 64-bit address space. -/
def bound : Nat := 2 ^ (64 : Nat)

def max : Nat := bound - 1

/-- The largest signed size, which is also the most bytes that one allocation can hold. -/
def signedMax : Nat := 2 ^ (63 : Nat) - 1

def checked (n : Nat) : Option Nat := if n ≤ max then some n else none

def checkedSigned (n : Nat) : Option Nat := if n ≤ signedMax then some n else none

/-- The product of sizes, `none` as soon as a partial product, taken from the left, is too large. -/
def checkedProduct (sizes : List Nat) : Option Nat :=
  sizes.foldlM (fun product size => checked (product * size)) 1

/-- A size plus further ones, `none` as soon as one of them or a partial sum, taken from the left, is
too large. -/
def checkedSum (start : Nat) (sizes : List Nat) : Option Nat :=
  sizes.foldlM (fun sum size => do checked (sum + (← checked size))) start

end Marshal.Size
