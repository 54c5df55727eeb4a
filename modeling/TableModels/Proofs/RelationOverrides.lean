import TableModels.Proofs.FreeNames

/-! Which foreign keys become fields, and what is said of that. An override counts under the plain name of its relation
and, if there is none, under the name of the field. The question whether a relation is embedded is answered from the
one name it is asked with, so for the name of the field the answer is right unless an override of the plain name says
otherwise. -/

namespace TableModels.Model

open Schema

variable {style : Style} {table : Table} {name : String} {known : List String} {column : Column} {key : ForeignKey}

/-- The override that counts does not switch the relation off. -/
def Style.allows (style : Style) (table : String) (key : ForeignKey) : Bool :=
  ((style.override? table key).map Override.enabled).getD true

end TableModels.Model
