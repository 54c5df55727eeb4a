import TableModels.Text.Case
import TableModels.Text.Scan
import TableModels.Typing.Catalog

/-! Column types as a database reports them: a base type and an array mark at its end. -/

namespace TableModels.Typing

open Text

structure SourceType where
  base : String
  isArray : Bool
  deriving DecidableEq, Repr

namespace SourceType

def arrayMark : String := "[]"

/-- Blanks around the type and before the mark do not count. -/
def ofText (text : String) : SourceType :=
  let stripped := strip text
  match withoutSuffix? arrayMark stripped with
  | some base => ⟨strip base, true⟩
  | none => ⟨stripped, false⟩

/-- The name under which a base type is looked up. -/
def key (type : SourceType) : String := lower type.base

end SourceType

def keyOf (source : String) : String := (SourceType.ofText source).key

/-- Whether a column of this type holds semi-structured objects. -/
def isObjectType (source : String) : Bool := objectTypes.contains (keyOf source)

/-- Whether a column of this type can refer to another row. -/
def isIdentifierType (source : String) : Bool :=
  !(SourceType.ofText source).isArray && identifierTypes.contains (keyOf source)

end TableModels.Typing
