import TableModels.Keyed

/-! Overrides of relations, by table and relation. -/

namespace TableModels.Model

structure Override where
  enabled : Bool := true
  table : Option String := none
  foreignKey : Option String := none
  referencedColumn : Option String := none
  deriving DecidableEq, Repr

abbrev Overrides := Keyed (Keyed Override)

def Overrides.get? (overrides : Overrides) (table relation : String) : Option Override :=
  (Keyed.get? overrides table).bind fun relations => Keyed.get? relations relation

/-- A text that is set and not empty takes the place of another. -/
def orElse (text : Option String) (fallback : String) : String :=
  match text with
  | none => fallback
  | some text => if text == "" then fallback else text

end TableModels.Model
