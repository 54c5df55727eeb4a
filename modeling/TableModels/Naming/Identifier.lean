import TableModels.Naming.Plural
import TableModels.Naming.Reserved
import TableModels.Naming.Words

/-! Identifiers for the generated package, made from the names of tables and columns. -/

namespace TableModels.Naming

open Text

def isFieldChar (c : Char) : Bool := isAsciiLower c || isAsciiDigit c || c == '_'

/-- The characters of a name that may stand in a field name, without leading underscores. -/
def fieldChars (name : String) : List Char :=
  ((snakeChars name.toList).filter isFieldChar).dropWhile (· == '_')

/-- A field name: never empty, never starting with a digit or an underscore, never reserved. -/
def fieldName (name : String) : String :=
  match fieldChars name with
  | [] => "field"
  | c :: rest =>
    let text := String.ofList (c :: rest)
    let text := if isAsciiDigit c then "field_" ++ text else text
    if reservedFieldNames.contains text then text ++ "_" else text

/-- The base name of the files that belong to a table. -/
def moduleName (table : String) : String := fieldName table

/-- A class name from text that holds letters and digits only. -/
def classNameOf (pascalName : String) : String :=
  let text := if pascalName == "" then "Table" else pascalName
  let text := if (text.toList.head?.map isAsciiDigit).getD false then "Table" ++ text else text
  if reservedClassNames.contains (lower text) then text ++ "Model" else text

/-- The name in the number that classes are to have; a name that is no plural stays as it is. -/
def inNumber (toSingular : List Char → Option (List Char)) (name : String) : String :=
  match toSingular name.toList with
  | some single => if single.isEmpty then name else String.ofList single
  | none => name

/-- The class name of a table, with the plural read by `toSingular`. -/
def classNameWith (toSingular : List Char → Option (List Char)) (table : String) : String :=
  classNameOf (pascal (inNumber toSingular table))

/-- A text has no singular when it is empty. -/
inductive NoWord where
  | emptyName
  deriving Repr, DecidableEq

/-- The name with capitals, in the singular if asked. -/
def pascalName (singular : Bool) (name : String) : Except NoWord String :=
  if singular then
    if name == "" then .error .emptyName else .ok (pascal (inNumber Plural.singularOf? name))
  else .ok (pascal name)

/-- The class name of a table, in the singular if asked. -/
def className (singular : Bool) (table : String) : Except NoWord String :=
  (pascalName singular table).map classNameOf

/-- The column name without its `_id`, unless nothing would be left. -/
def withoutIdSuffix (column : String) : String :=
  if column == "_id" then column else (withoutSuffix? "_id" column).getD column

/-- The name of a relation before it is made a field name. -/
def relationKey (column : String) : String := withoutIdSuffix (snake column)

/-- The field name of a relation. -/
def relationName (column : String) : String := fieldName (relationKey column)

/-- Whether a text is an identifier and not a keyword. -/
def isFreeIdentifier (name : String) : Bool :=
  match name.toList with
  | [] => false
  | c :: rest => isIdentifierStart c && rest.all isIdentifierContinue && !keywords.contains name

end TableModels.Naming
