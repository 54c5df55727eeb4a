import TableModels.Model.Default
import TableModels.Model.Relation
import TableModels.Log
import TableModels.Naming.Fresh
import TableModels.Naming.Identifier
import TableModels.Schema.Snapshot
import TableModels.Typing.Enums

/-! The fields of a model: one for every column, and after them the related models that are embedded. -/

namespace TableModels.Model

open Schema Typing

/-- How models are made. -/
structure Style where
  embedRelations : Bool := false
  overrides : Overrides := []
  singular : Bool := false
  deriving Repr

def freeName (used : List String) (name : String) : String := Naming.fresh "_" used name

structure ScalarField where
  column : Column
  name : String
  type : FieldType
  default : Option Default
  deriving DecidableEq, Repr

namespace ScalarField

def isRequired (field : ScalarField) : Bool := !field.column.nullable && field.default.isNone

/-- Required fields come first, then the order is by type and by column. -/
def precedes (first second : ScalarField) : Bool :=
  if first.isRequired != second.isRequired then first.isRequired
  else if first.type.text != second.type.text then first.type.text < second.type.text
  else !(second.column.name < first.column.name)

end ScalarField

/-- The default of a field. The database alone makes primary keys. -/
def columnDefault (type : FieldType) (column : Column) : Except Number.TooManyDigits (Option Default) :=
  if column.isPrimaryKey then .ok none
  else match column.default with
    | none => .ok none
    | some default => readDefault type.text default

/-- The fields of columns in their order, given the names that are taken. -/
def scalarFieldsFrom (enums : Enums) (used : List String) :
    List Column → Except Number.TooManyDigits (List ScalarField)
  | [] => .ok []
  | column :: rest => do
    let type := Enums.fieldType enums column.sourceType
    let default ← columnDefault type column
    let name := freeName used (Naming.fieldName column.name)
    return { column, name, type, default } :: (← scalarFieldsFrom enums (name :: used) rest)

def scalarFields (enums : Enums) (table : Table) : Except Number.TooManyDigits (List ScalarField) :=
  (scalarFieldsFrom enums [] table.columns).map fun fields => fields.mergeSort ScalarField.precedes

private def defaultNote (enums : Enums) (table : String) (column : Column) : List Log.Line :=
  let type := Enums.fieldType enums column.sourceType
  let unknown :=
    if Enums.isKnown enums column.sourceType then []
    else [Log.debug s!"Unrecognized source type '{column.sourceType}', mapping to Any"]
  let dropped :=
    match column.default, columnDefault type column with
    | some default, .ok none =>
      if column.isPrimaryKey then []
      else [Log.debug s!"Default {Text.quoted default} of {table}.{column.name} is not a literal; skipping it"]
    | _, _ => []
  unknown ++ dropped

/-- What there is to say about columns, up to one whose default cannot be read. -/
def columnNotes (enums : Enums) (table : String) : List Column → List Log.Line
  | [] => []
  | column :: rest =>
    defaultNote enums table column ++
      match columnDefault (Enums.fieldType enums column.sourceType) column with
      | .ok _ => columnNotes enums table rest
      | .error _ => []

structure RelationField where
  name : String
  targetTable : String
  targetClass : String
  foreignKeyColumn : String
  referencedColumn : String
  deriving DecidableEq, Repr

def RelationField.description (field : RelationField) : String :=
  s!"{field.foreignKeyColumn} -> {field.targetTable}.{field.referencedColumn}"

/-- Whether a relation is embedded, going by its name in the overrides. -/
def Style.embeds (style : Style) (table relation : String) : Bool :=
  style.embedRelations && ((style.overrides.get? table relation).map Override.enabled).getD true

/-- The override of the relation of a foreign key: one for the plain name comes before one for the
name of the field. -/
def Style.override? (style : Style) (table : String) (key : ForeignKey) : Option Override :=
  match style.overrides.get? table (Naming.relationKey key.column) with
  | some override => some override
  | none => style.overrides.get? table (Naming.relationName key.column)

/-- The table that a relation embeds. -/
def Style.target (style : Style) (table : String) (key : ForeignKey) : String :=
  orElse ((style.override? table key).bind Override.table) key.referencedTable

/-- What becomes of a foreign key. -/
inductive Embedding where
  | disabled
  | absent (target : String)
  | embedded (target foreignKeyColumn referencedColumn : String)
  deriving DecidableEq, Repr

def Style.embedding (style : Style) (table : String) (known : List String) (key : ForeignKey) : Embedding :=
  let override? := style.override? table key
  if (override?.map fun override => !override.enabled).getD false then .disabled
  else
    let target := style.target table key
    if !known.contains target then .absent target
    else .embedded target (orElse (override?.bind Override.foreignKey) key.column)
      (orElse (override?.bind Override.referencedColumn) key.referencedColumn)

/-- A relation whose name is taken gets an ending of its own. -/
def relationFieldName (used : List String) (name : String) : String :=
  freeName used (if used.contains name then name ++ "_rel" else name)

def relationFieldsFrom (style : Style) (table : String) (known : List String) (used : List String) :
    List ForeignKey → Except Naming.NoWord (List RelationField)
  | [] => .ok []
  | key :: rest =>
    match style.embedding table known key with
    | .embedded target foreignKeyColumn referencedColumn => do
      let targetClass ← Naming.className style.singular target
      let name := relationFieldName used (Naming.relationName key.column)
      return { name, targetTable := target, targetClass, foreignKeyColumn, referencedColumn } ::
        (← relationFieldsFrom style table known (name :: used) rest)
    | _ => relationFieldsFrom style table known used rest

/-- The embedded relations of a table, in the order of its columns. -/
def relationFields (style : Style) (table : Table) (known : List String) (scalarNames : List String) :
    Except Naming.NoWord (List RelationField) :=
  if style.embedRelations then relationFieldsFrom style table.name known scalarNames table.foreignKeys
  else .ok []

def relationNotes (style : Style) (table : Table) (known : List String) : List Log.Line :=
  if !style.embedRelations then []
  else table.foreignKeys.flatMap fun key =>
    match style.embedding table.name known key with
    | .disabled =>
      [Log.debug s!"Relation '{Naming.relationKey key.column}' on '{table.name}' disabled by configuration"]
    | .absent target =>
      [Log.debug
        s!"Relation '{Naming.relationName key.column}' on '{table.name}' skipped: table '{target}' not generated"]
    | .embedded .. => []

end TableModels.Model
