import TableModels.Keyed
import TableModels.Number.FloatText
import TableModels.Text.Quoted
import TableModels.Text.Scan

/-! Data without a fixed shape: documents from a server, cache files and configuration files. The
fields of an object keep the order in which they were first given. -/

namespace TableModels

inductive Value where
  | null
  | bool (value : Bool)
  | int (value : Int)
  | float (value : Binary64)
  | text (value : String)
  /-- A date or a point in time, which only configuration files can hold. -/
  | moment (text : String)
  | list (items : List Value)
  | object (fields : List (String × Value))
  deriving Repr, Inhabited

/-- The fields of an object. -/
abbrev Fields := Keyed Value

namespace Value

/-- The name of the kind of a value, as messages give it. -/
def kindName : Value → String
  | .null => "NoneType"
  | .bool _ => "bool"
  | .int _ => "int"
  | .float _ => "float"
  | .text _ => "str"
  | .moment _ => "date"
  | .list _ => "list"
  | .object _ => "dict"

/-- Whether a value counts as present: empty containers and texts, zero, false and null do not. -/
def isTruthy : Value → Bool
  | .null => false
  | .bool value => value
  | .int value => value != 0
  | .float value => !value.sameValue (.zero false)
  | .text value => value != ""
  | .moment _ => true
  | .list items => !items.isEmpty
  | .object fields => !fields.isEmpty

mutual
/-- The value as generated code would spell it. -/
def literal : Value → String
  | .null => "None"
  | .bool true => "True"
  | .bool false => "False"
  | .int value => toString value
  | .float value => value.text
  | .text value => Text.quoted value
  | .moment value => value
  | .list items => "[" ++ ", ".intercalate (literals items) ++ "]"
  | .object fields => "\x7b" ++ ", ".intercalate (fieldLiterals fields) ++ "\x7d"

def literals : List Value → List String
  | [] => []
  | item :: rest => item.literal :: literals rest

def fieldLiterals : List (String × Value) → List String
  | [] => []
  | (name, value) :: rest => (Text.quoted name ++ ": " ++ value.literal) :: fieldLiterals rest
end

/-- What there is to run through: the items of a list, the characters of a text, the names of an object. -/
def elements? : Value → Option (List Value)
  | .list items => some items
  | .text value => some (value.toList.map fun c => .text (String.singleton c))
  | .object fields => some (fields.map fun field => .text field.1)
  | _ => none

/-- Whether a text stands among the items of a list, inside a text or among the names of an object. -/
def mentions? (part : String) : Value → Option Bool
  | .list items => some (items.any fun item => match item with | .text value => value == part | _ => false)
  | .text value => some (Text.containsText part value)
  | .object fields => some (Keyed.contains fields part)
  | _ => none

/-- The value as text: a text is itself, anything else is spelled as in code. -/
def toText : Value → String
  | .text value => value
  | value => value.literal

end Value

end TableModels
