/-! The types of generated fields. -/

namespace TableModels.Typing

inductive FieldType where
  | any
  | int
  | float
  | decimal
  | str
  | bool
  | bytes
  | uuid
  | date
  | datetime
  | time
  | timedelta
  | none
  | list (item : FieldType)
  /-- A mapping from texts. -/
  | dict (value : FieldType)
  deriving DecidableEq, Repr

namespace FieldType

def text : FieldType → String
  | .any => "Any"
  | .int => "int"
  | .float => "float"
  | .decimal => "Decimal"
  | .str => "str"
  | .bool => "bool"
  | .bytes => "bytes"
  | .uuid => "UUID"
  | .date => "date"
  | .datetime => "datetime"
  | .time => "time"
  | .timedelta => "timedelta"
  | .none => "None"
  | .list item => "list[" ++ item.text ++ "]"
  | .dict value => "dict[str, " ++ value.text ++ "]"

end FieldType

end TableModels.Typing
