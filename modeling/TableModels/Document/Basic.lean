import TableModels.Document.ColumnType
import TableModels.Json.Printer
import TableModels.Log
import TableModels.Schema.Snapshot
import TableModels.Typing.Enums

/-! Schema documents: the tables that a server describes, with enumerated types and references. Marks
in the description of a column tell primary keys and references. -/

namespace TableModels.Document

open Text Schema

structure Contents where
  snapshot : Snapshot
  /-- The values of enumerated types, by table and column. -/
  enums : Keyed (List String)
  /-- The declared references, by table and column. -/
  foreignKeys : Keyed ForeignKey
  deriving Repr

def isQuote (c : Char) : Bool := c == '\'' || c == '"'

def afterText? (text : String) (chars : List Char) : Option (List Char) := text.toList.isPrefixOf? chars

def afterBlanks? (chars : List Char) : Option (List Char) :=
  if (chars.head?.map isBlank).getD false then some (chars.dropWhile isBlank) else none

def quoted? (chars : List Char) : Option (List Char × List Char) :=
  match chars with
  | c :: rest =>
    let name := rest.takeWhile fun c => !isQuote c
    if !isQuote c || name.isEmpty then none
    else match rest.drop name.length with
      | _ :: after => some (name, after)
      | [] => none
  | [] => none

/-- The table and the column in a mark at the start of the text. -/
def referenceAt? (chars : List Char) : Option (String × String) := do
  let rest ← afterText? "<fk" chars
  let rest ← afterText? "table=" (← afterBlanks? rest)
  let (table, rest) ← quoted? rest
  let rest ← afterText? "column=" (← afterBlanks? rest)
  let (column, rest) ← quoted? rest
  let _ ← afterText? "/>" (rest.dropWhile isBlank)
  some (String.ofList table, String.ofList column)

/-- The first reference in a text. -/
def reference? : List Char → Option (String × String)
  | [] => none
  | c :: rest =>
    match referenceAt? (c :: rest) with
    | some found => some found
    | none => reference? rest

def primaryKeyMark : String := "<pk/>"

/-- A value that may be absent: what does not count as present is. -/
def present? (value : Value) : Option Value := if value.isTruthy then some value else none

def elements (value : Value) : Parsed (List Value) :=
  match value.elements? with
  | some items => .ok items
  | none => .error (.notACollection value.kindName)

def defaultText : Value → Option String
  | .null => none
  | .text value => some value
  | value => some (Json.compact value)

def description (fields : Fields) : Parsed String :=
  match present? (fieldOf fields "description") with
  | none => .ok ""
  | some (.text value) => .ok value
  | some value => .error (.notText value.kindName)

/-- A column, and the values it may have if its type is enumerated. -/
structure ColumnEntry where
  column : Column
  values : Option (List String)

def enumName (table column : String) : String := table ++ "_" ++ column

def columnEntry (table : String) (required : List String) (name : String) (schema : Value) : Parsed ColumnEntry := do
  let fields ← fieldsOf schema
  let values? ← match present? (fieldOf fields "enum") with
    | none => pure none
    | some values => do pure (some ((← elements values).map Value.toText))
  let sourceType ← match values? with
    | some _ => pure (enumName table name)
    | none => columnType fields
  let description ← description fields
  let foreignKey := (reference? description.toList).map fun (table, column) =>
    { column := name, referencedTable := table, referencedColumn := column : ForeignKey }
  let column : Column :=
    { name, sourceType, foreignKey
      nullable := !required.contains name
      default := defaultText (fieldOf fields "default")
      isPrimaryKey := containsText primaryKeyMark description }
  return { column, values := values? }

def nameOf : Value → Parsed (Option String)
  | .text name => .ok (some name)
  | .list _ => .error (.notAName "list")
  | .object _ => .error (.notAName "dict")
  | _ => .ok none

/-- The names among the elements of `required`. -/
def requiredNames (fields : Fields) : Parsed (List String) :=
  match present? (fieldOf fields "required") with
  | none => .ok []
  | some value => do return (← (← elements value).mapM nameOf).filterMap id

def properties (fields : Fields) : Parsed Fields :=
  match present? (fieldOf fields "properties") with
  | none => .ok []
  | some (.object properties) => .ok properties
  | some value => .error (.noMember value.kindName "items")

structure TableEntry where
  name : String
  columns : List ColumnEntry

def tableEntry (name : String) (fields : Fields) : Parsed TableEntry := do
  let required ← requiredNames fields
  let columns ← (← properties fields).mapM fun (column, schema) => columnEntry name required column schema
  return { name, columns }

/-- Reads the definitions that are objects. -/
def tableEntries : Fields → Parsed (List TableEntry)
  | [] => .ok []
  | (name, .object fields) :: rest => do return (← tableEntry name fields) :: (← tableEntries rest)
  | _ :: rest => tableEntries rest

/-- The definitions of a document, in the place of older or of newer documents. -/
def definitions (document : Fields) : Parsed Fields := do
  let found ← match fieldOf document "definitions" with
    | .null =>
      match present? (fieldOf document "components") with
      | none => pure .null
      | some components => do pure (fieldOf (← fieldsOf components) "schemas")
    | found => pure found
  match found with
  | .object definitions => return definitions
  | _ => return []

def unrepeated {α : Type} (result : Except Clash α) : Parsed α :=
  result.mapError fun clash => .repeated clash.message

def tableOf (entry : TableEntry) : Parsed Table :=
  unrepeated (Table.ofColumns entry.name (entry.columns.map ColumnEntry.column))

def enumsOf (entries : List TableEntry) : Keyed (List String) :=
  Keyed.ofList (entries.flatMap fun entry => entry.columns.filterMap fun column =>
    column.values.map fun values => (enumName entry.name column.column.name, values))

def foreignKeysOf (entries : List TableEntry) : Keyed ForeignKey :=
  Keyed.ofList (entries.flatMap fun entry => entry.columns.filterMap fun column =>
    column.column.foreignKey.map fun key => (entry.name ++ "." ++ column.column.name, key))

/-- Reads a document. Definitions without columns are no tables. -/
def read (document : Value) : Parsed Contents := do
  let entries ← tableEntries (← definitions (← fieldsOf document))
  let tables ← (entries.filter fun entry => !entry.columns.isEmpty).mapM tableOf
  let snapshot ← unrepeated (Snapshot.ofTables tables)
  return { snapshot, enums := enumsOf entries, foreignKeys := foreignKeysOf entries }

def notes (contents : Contents) : List Log.Line :=
  if contents.enums.isEmpty then [] else [Log.debug s!"Detected {contents.enums.length} enum types"]

end TableModels.Document
