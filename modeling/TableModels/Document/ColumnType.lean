import TableModels.Text.Case
import TableModels.Text.Scan
import TableModels.Typing.SourceType
import TableModels.Value

/-! Column types from the property schemas of a document. The format wins if it names a catalogued type;
otherwise the JSON type decides, for arrays by way of their items. -/

namespace TableModels.Document

open Text

/-- Data in a place where data of its kind cannot stand. -/
inductive Fault where
  /-- Something other than an object was asked for a member. -/
  | noMember (kind member : String)
  | notACollection (kind : String)
  /-- A list or an object where names are compared. -/
  | notAName (kind : String)
  | notText (kind : String)
  /-- An object gives a name twice. -/
  | repeated (message : String)
  deriving DecidableEq, Repr

def Fault.message : Fault → String
  | .noMember kind member => s!"'{kind}' object has no attribute '{member}'"
  | .notACollection kind => s!"'{kind}' object is not iterable"
  | .notAName kind => s!"unhashable type: '{kind}'"
  | .notText kind => s!"expected string or bytes-like object, got '{kind}'"
  | .repeated message => message

abbrev Parsed := Except Fault

/-- The fields of an object. -/
def fieldsOf : Value → Parsed Fields
  | .object fields => .ok fields
  | value => .error (.noMember value.kindName "get")

/-- A field, null if it is absent. -/
def fieldOf (fields : Fields) (name : String) : Value := (Keyed.get? fields name).getD .null

def formatAliases : List (String × String) :=
  [("date-time", "timestamptz"), ("int64", "int8"), ("int32", "int4"), ("int16", "int2"), ("double", "float8")]

def jsonTypes : List (String × String) :=
  [("integer", "int4"), ("number", "float8"), ("boolean", "bool"), ("object", "jsonb"), ("string", "text")]

/-- The type that a format names, if it is a catalogued one or an array of one. -/
def typeOfFormat? : Value → Option String
  | .text format =>
    let name := lower (strip format)
    let type := (formatAliases.lookup name).getD name
    let base := (withoutSuffix? Typing.SourceType.arrayMark type).getD type
    if format != "" && (Typing.catalogued? base).isSome then some type else none
  | _ => none

/-- The type that goes with a JSON type. -/
def typeOfJson : Value → Parsed String
  | .text name => .ok ((jsonTypes.lookup name).getD "text")
  | .list _ => .error (.notAName "list")
  | .object _ => .error (.notAName "dict")
  | _ => .ok "text"

def isArray : Value → Bool
  | .text name => name == "array"
  | _ => false

mutual
/-- The type of a column. -/
def columnType : Fields → Parsed String
  | fields =>
    match typeOfFormat? (fieldOf fields "format") with
    | some type => .ok type
    | none =>
      if isArray (fieldOf fields "type") then arrayType fields
      else typeOfJson (fieldOf fields "type")
termination_by fields => (sizeOf fields, 1)

/-- The type of an array, from the first description of its items. -/
def arrayType : Fields → Parsed String
  | [] => .ok "jsonb"
  | (name, value) :: rest =>
    if name == "items" then
      match value with
      | .object items => (columnType items).map (· ++ Typing.SourceType.arrayMark)
      | _ => .ok "jsonb"
    else arrayType rest
termination_by fields => (sizeOf fields, 0)
end

end TableModels.Document
