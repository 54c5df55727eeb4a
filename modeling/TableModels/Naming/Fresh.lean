/-! Names that stand apart from others. -/

namespace TableModels.Naming

/-- Puts the mark at the end of the name until it is none of the used ones. As many tries as there are
used names suffice. -/
def freshWithin (mark : String) : Nat → List String → String → String
  | 0, _, name => name
  | tries + 1, used, name => if used.contains name then freshWithin mark tries used (name ++ mark) else name

def fresh (mark : String) (used : List String) (name : String) : String := freshWithin mark used.length used name

end TableModels.Naming
