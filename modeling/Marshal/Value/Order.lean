import Marshal.Value.Text

namespace Marshal

def Key.notAfter : Key → Key → Bool
  | .int m, .int n => m ≤ n
  | k, l => !(l.text < k.text)

namespace Value

mutual

/-- The value with the entries of all its mappings sorted. -/
def sorted : Value → Value
  | .seq items => .seq (sortedItems items)
  | .map entries => .map ((sortedEntries entries).mergeSort fun a b => a.1.notAfter b.1)
  | v => v

def sortedItems : List Value → List Value
  | [] => []
  | item :: rest => sorted item :: sortedItems rest

def sortedEntries : List (Key × Value) → List (Key × Value)
  | [] => []
  | (key, value) :: rest => (key, sorted value) :: sortedEntries rest

end

end Value

end Marshal
