import TableModels.Text.Quoted
import TableModels.Value

/-! Writing JSON text in ASCII: on one line, or indented by two spaces with sorted keys. -/

namespace TableModels.Json

def unitEscape (n : Nat) : List Char := '\\' :: 'u' :: Text.hexDigits 4 n

def escapeChar (c : Char) : List Char :=
  let n := c.toNat
  if c == '"' then ['\\', '"']
  else if c == '\\' then ['\\', '\\']
  else if c == '\n' then ['\\', 'n']
  else if c == '\r' then ['\\', 'r']
  else if c == '\t' then ['\\', 't']
  else if c == '\x0c' then ['\\', 'f']
  else if c == '\x08' then ['\\', 'b']
  else if 0x20 ≤ n && n < 0x7F then [c]
  else if n < 0x10000 then unitEscape n
  else unitEscape (0xD800 + (n - 0x10000) / 0x400) ++ unitEscape (0xDC00 + (n - 0x10000) % 0x400)

def quoteChars (chars : List Char) : List Char := '"' :: chars.flatMap escapeChar ++ ['"']

/-- A text as a JSON string. -/
def quoted (text : String) : String := String.ofList (quoteChars text.toList)

def floatNames : Binary64.SpecialNames := ⟨"Infinity", "NaN"⟩

/-- Values that are not containers. -/
def scalar : Value → String
  | .null => "null"
  | .bool true => "true"
  | .bool false => "false"
  | .int value => toString value
  | .float value => value.render floatNames
  | .text value => quoted value
  | .moment value => quoted value
  | .list _ => ""
  | .object _ => ""

mutual
/-- The value on one line, with a blank after each comma and colon. -/
def compact : Value → String
  | .list items => "[" ++ ", ".intercalate (compactItems items) ++ "]"
  | .object fields => "\x7b" ++ ", ".intercalate (compactFields fields) ++ "\x7d"
  | value => scalar value

def compactItems : List Value → List String
  | [] => []
  | item :: rest => compact item :: compactItems rest

def compactFields : List (String × Value) → List String
  | [] => []
  | (name, value) :: rest => (quoted name ++ ": " ++ compact value) :: compactFields rest
end

def newLine (depth : Nat) : String := "\n" ++ String.ofList (List.replicate (2 * depth) ' ')

/-- Items between brackets, each on a line of its own. -/
def block (opening closing : String) (depth : Nat) : List String → String
  | [] => opening ++ closing
  | items => opening ++ newLine (depth + 1) ++ (("," ++ newLine (depth + 1)).intercalate items) ++
      newLine depth ++ closing

mutual
/-- The value over several lines, the keys of every object in ascending order. -/
def indentedAt (depth : Nat) : Value → String
  | .list items => block "[" "]" depth (indentedItems (depth + 1) items)
  | .object fields =>
    let rows := indentedFields (depth + 1) fields
    block "\x7b" "\x7d" depth ((rows.mergeSort fun a b => !(b.1 < a.1)).map Prod.snd)
  | value => scalar value

def indentedItems (depth : Nat) : List Value → List String
  | [] => []
  | item :: rest => indentedAt depth item :: indentedItems depth rest

def indentedFields (depth : Nat) : List (String × Value) → List (String × String)
  | [] => []
  | (name, value) :: rest => (name, quoted name ++ ": " ++ indentedAt depth value) :: indentedFields depth rest
end

def indented (value : Value) : String := indentedAt 0 value

end TableModels.Json
