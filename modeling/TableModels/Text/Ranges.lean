/-! Sets of characters given as ranges of code points. -/

namespace TableModels.Text

/-- Ranges of code points with both ends included. -/
abbrev Ranges := List (Nat × Nat)

def Ranges.contains (ranges : Ranges) (code : Nat) : Bool :=
  ranges.any fun range => range.1 ≤ code && code ≤ range.2

/-- How far into its range a code point lies. -/
def Ranges.offset? (ranges : Ranges) (code : Nat) : Option Nat :=
  (ranges.find? fun range => range.1 ≤ code && code ≤ range.2).map fun range => code - range.1

end TableModels.Text
