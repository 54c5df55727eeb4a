import TableModels.Document.Basic

/-! The reader of schema documents. It goes through a document once and notes enumerated types and references as it
comes to them. What it has noted of a document it keeps only when it has come to the end, so a document that cannot be
read leaves no trace. -/

namespace TableModels.Document

open Schema

/-- Enumerated types and references, by table and column. -/
structure Notes where
  enums : Keyed (List String) := []
  foreignKeys : Keyed ForeignKey := []
  deriving DecidableEq, Repr

/-- Reading with notes. What was noted before a failure stays noted. -/
abbrev Pass := ExceptT Fault (StateM Notes)

namespace Pass

/-- Reads with notes at hand and gives the notes that are there afterwards. -/
def runWith {α : Type} (pass : Pass α) (notes : Notes) : Parsed α × Notes := (ExceptT.run pass).run notes

def noteEnum (name : String) (values : List String) : Pass Unit :=
  modify fun notes => { notes with enums := Keyed.set notes.enums name values }

def noteForeignKey (name : String) (key? : Option ForeignKey) : Pass Unit :=
  modify fun notes => { notes with foreignKeys := (key?.map (Keyed.set notes.foreignKeys name)).getD notes.foreignKeys }

/-- The type of a column. The values of an enumerated type are noted before the rest of the column is looked at. -/
def sourceType (table name : String) (fields : Fields) : Pass String := do
  match present? (fieldOf fields "enum") with
  | none => columnType fields
  | some values =>
    noteEnum (enumName table name) ((← elements values).map Value.toText)
    return enumName table name

def column (table : String) (required : List String) (name : String) (schema : Value) : Pass Column := do
  let fields ← fieldsOf schema
  let sourceType ← sourceType table name fields
  let description ← description fields
  let foreignKey := (reference? description.toList).map fun (table, column) =>
    { column := name, referencedTable := table, referencedColumn := column : ForeignKey }
  return {
    name, sourceType, foreignKey
    nullable := !required.contains name
    default := defaultText (fieldOf fields "default")
    isPrimaryKey := Text.containsText primaryKeyMark description }

def columns (table : String) (required : List String) : Fields → Pass (List Column)
  | [] => return []
  | (name, schema) :: rest => do
    let column ← column table required name schema
    noteForeignKey (table ++ "." ++ name) column.foreignKey
    return column :: (← columns table required rest)

/-- The columns of a definition that is an object. -/
def columnsOf (table : String) (fields : Fields) : Pass (List Column) := do
  let required ← requiredNames fields
  columns table required (← properties fields)

/-- The tables of the definitions that are objects and have columns. -/
def tables : Fields → Pass (List Table)
  | [] => return []
  | (name, .object fields) :: rest => do
    let columns ← columnsOf name fields
    if columns.isEmpty then tables rest
    else return (← unrepeated (Table.ofColumns name columns)) :: (← tables rest)
  | _ :: rest => tables rest

/-- Reads a document with empty notes, and puts these in the place of what was kept of another document when there are
no more tables to be read. -/
def document (document : Value) : Pass Snapshot := do
  let (tables?, notes) := (tables (← definitions (← fieldsOf document))).runWith {}
  let tables ← tables?
  set notes
  unrepeated (Snapshot.ofTables tables)

/-- Reads documents one after the other, those that cannot be read included. -/
def inTurn : List Value → StateM Notes (List (Parsed Snapshot))
  | [] => return []
  | first :: rest => do return (← (document first).run) :: (← inTurn rest)

end Pass

end TableModels.Document
