import TableModels.Schema.Snapshot
import TableModels.Value

/-! The stored form of tables, and reading it back from data of any shape. References between tables
are not stored. -/

namespace TableModels.Schema

inductive StoredFault where
  | missingField (name : String)
  | wrongKind (field expected given : String)
  | badDefault (column given : String)
  | clash (cause : Clash)
  /-- Data that cannot be searched, indexed or run through. -/
  | unusable
  deriving DecidableEq, Repr

def StoredFault.message? : StoredFault → Option String
  | .missingField name => some s!"Missing required field '{name}'"
  | .wrongKind field expected given => some s!"Field '{field}' must be {expected}, got {given}"
  | .badDefault column given => some s!"Column '{column}': default must be a string or null, got {given}"
  | .clash cause => some cause.message
  | .unusable => none

abbrev Stored := Except StoredFault

/-- A field that may be absent. Data other than an object has no field that could be read. -/
def field? (data : Value) (name : String) : Stored (Option Value) :=
  match data with
  | .object fields => .ok (Keyed.get? fields name)
  | data =>
    match data.mentions? name with
    | some false => .ok none
    | _ => .error .unusable

def textField (data : Value) (name : String) : Stored String := do
  match ← field? data name with
  | none => .error (.missingField name)
  | some (.text value) => .ok value
  | some value => .error (.wrongKind name "str" value.kindName)

def flagField (data : Value) (name : String) (fallback : Bool) : Stored Bool := do
  match ← field? data name with
  | none => .ok fallback
  | some (.bool value) => .ok value
  | some value => .error (.wrongKind name "bool" value.kindName)

def elements (data : Value) : Stored (List Value) :=
  match data.elements? with
  | some items => .ok items
  | none => .error .unusable

namespace Column

def stored (column : Column) : Value :=
  .object [("name", .text column.name), ("source_type", .text column.sourceType), ("nullable", .bool column.nullable),
    ("default", (column.default.map Value.text).getD .null), ("is_primary_key", .bool column.isPrimaryKey)]

def ofStored (data : Value) : Stored Column := do
  let name ← textField data "name"
  let sourceType ← textField data "source_type"
  let nullable ← flagField data "nullable" true
  let isPrimaryKey ← flagField data "is_primary_key" false
  match ← field? data "default" with
  | none | some .null => .ok { name, sourceType, nullable, isPrimaryKey }
  | some (.text default) => .ok { name, sourceType, nullable, isPrimaryKey, default := some default }
  | some value => .error (.badDefault name value.kindName)

end Column

namespace Table

def stored (table : Table) : Value :=
  .object [("name", .text table.name), ("columns", .list (table.columns.map Column.stored))]

def ofStored (data : Value) : Stored Table := do
  let name ← textField data "name"
  let columns ← elements ((← field? data "columns").getD (.list []))
  (ofColumns name (← columns.mapM Column.ofStored)).mapError .clash

end Table

namespace Snapshot

/-- The stored form of tables in a given order. -/
def storedTables (tables : List Table) : Value := .object [("tables", .list (tables.map Table.stored))]

def stored (snapshot : Snapshot) : Value := storedTables snapshot.tables

def ofStored (data : Value) : Stored Snapshot := do
  match data with
  | .object fields =>
    let tables ← elements ((Keyed.get? fields "tables").getD .null)
    (ofTables (← tables.mapM Table.ofStored)).mapError .clash
  | _ => .error .unusable

end Snapshot

end TableModels.Schema
