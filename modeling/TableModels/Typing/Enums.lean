import TableModels.Keyed
import TableModels.Typing.SourceType

/-! The enumerated types of one run, by lower-case name, and the field type of every column type. -/

namespace TableModels.Typing

abbrev Enums := Keyed (List String)

namespace Enums

/-- A name in other case replaces the values of the first. -/
def register (enums : Enums) (name : String) (values : List String) : Enums :=
  Keyed.set enums (Text.lower name) values

def ofDeclared (declared : List (String × List String)) : Enums :=
  declared.foldl (fun enums entry => register enums entry.1 entry.2) []

def isEnum (enums : Enums) (source : String) : Bool := Keyed.contains enums (keyOf source)

def values (enums : Enums) (source : String) : List String := (Keyed.get? enums (keyOf source)).getD []

/-- The field type of a base type. An enumerated type is text, even under a catalogued name. -/
def baseType? (enums : Enums) (key : String) : Option FieldType :=
  if Keyed.contains enums key then some .str else catalogued? key

/-- A type that nobody knows may hold anything. -/
def fieldType (enums : Enums) (source : String) : FieldType :=
  let item := (baseType? enums (keyOf source)).getD .any
  if (SourceType.ofText source).isArray then .list item else item

def isKnown (enums : Enums) (source : String) : Bool := (baseType? enums (keyOf source)).isSome

end Enums

end TableModels.Typing
