import TableModels.Text.WidthTable

/-! The number of columns that a text takes on a terminal. -/

namespace TableModels.Text

def charWidth (c : Char) : Nat :=
  if c.toNat < 0x300 then 1
  else if zeroWidthRanges.contains c.toNat then 0
  else if wideRanges.contains c.toNat then 2
  else 1

def width (text : String) : Nat := (text.toList.map charWidth).foldl (· + ·) 0

end TableModels.Text
