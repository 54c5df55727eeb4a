import TableModels.Text.Class
import TableModels.Typing.FieldType

/-! The imports that a field type needs. -/

namespace TableModels.Typing

/-- A name and the module that provides it. -/
structure Import where
  module : String
  name : String
  deriving DecidableEq, Repr

/-- In ascending order of module and name. -/
def knownImports : List Import :=
  [⟨"datetime", "date"⟩, ⟨"datetime", "datetime"⟩, ⟨"datetime", "time"⟩, ⟨"datetime", "timedelta"⟩,
    ⟨"decimal", "Decimal"⟩, ⟨"typing", "Any"⟩, ⟨"uuid", "UUID"⟩]

private def startsName (c : Char) : Bool := Text.isAsciiUpper c || Text.isAsciiLower c || c == '_'
private def continuesName (c : Char) : Bool := startsName c || Text.isAsciiDigit c

/-- The maximal ASCII identifiers of a text, left to right; `word` is the one being read, last first. -/
def identifiersFrom (word : List Char) : List Char → List String
  | [] => if word.isEmpty then [] else [String.ofList word.reverse]
  | c :: rest =>
    if startsName c || (!word.isEmpty && continuesName c) then identifiersFrom (c :: word) rest
    else if word.isEmpty then identifiersFrom [] rest
    else String.ofList word.reverse :: identifiersFrom [] rest

def identifiers (text : String) : List String := identifiersFrom [] text.toList

/-- What the names in the text of a type need, in ascending order. -/
def requiredImports (text : String) : List Import :=
  let names := identifiers text
  knownImports.filter fun required => names.contains required.name

end TableModels.Typing
