import TableModels.Log
import TableModels.Schema.Snapshot
import TableModels.Typing.SourceType

/-! References that follow from names: a column `author_id` of a type that can identify a row refers
to the table `author`, `authors` or one of the other candidates. A declared reference always stays. -/

namespace TableModels.Schema

open Text

structure Convention where
  suffix : String := "_id"
  referencedColumn : String := "id"
  deriving Repr

/-- The text without its last character. -/
private def withoutLast (text : String) : String := String.ofList text.toList.dropLast

/-- The tables that a base name may mean, the likeliest first. -/
def candidates (base : String) : List String :=
  [base, base ++ "s", base ++ "es"]
    ++ (if hasSuffix "y" base then [withoutLast base ++ "ies"] else [])
    ++ (if hasSuffix "s" base then [withoutLast base] else [])

def resolve? (base : String) (names : List String) : Option String :=
  (candidates base).find? fun candidate => names.contains candidate

namespace Convention

/-- The base name of a column that ends in the suffix and is longer. Before an empty suffix the base
name is empty. -/
def base? (convention : Convention) (column : String) : Option String :=
  if column == convention.suffix then none
  else (withoutSuffix? convention.suffix column).map fun base => if convention.suffix == "" then "" else base

/-- The table that the name of a column without reference points to. -/
def target? (convention : Convention) (names : List String) (column : Column) : Option String :=
  if column.foreignKey.isSome then none
  else (convention.base? column.name).bind fun base => resolve? base names

/-- The reference that a column has afterwards. -/
def foreignKey? (convention : Convention) (names : List String) (column : Column) : Option ForeignKey :=
  match convention.target? names column with
  | none => column.foreignKey
  | some table =>
    if Typing.isIdentifierType column.sourceType then
      some { column := column.name, referencedTable := table, referencedColumn := convention.referencedColumn }
    else none

def inferTable (convention : Convention) (names : List String) (table : Table) : Table :=
  table.withForeignKeys (convention.foreignKey? names)

def infer (convention : Convention) (snapshot : Snapshot) : Snapshot :=
  snapshot.withForeignKeys (convention.foreignKey? snapshot.names)

private def columnNote (convention : Convention) (names : List String) (table : Table) (column : Column) :
    List Log.Line :=
  match convention.target? names column with
  | none => []
  | some target =>
    if Typing.isIdentifierType column.sourceType then
      [Log.debug s!"Inferred relationship {table.name}.{column.name} -> {target}.{convention.referencedColumn}"]
    else
      [Log.debug
        s!"Column '{column.name}' matches table '{target}' but type '{column.sourceType}' is not an identifier type; skipping"]

/-- What inference has to say about every column. -/
def notes (convention : Convention) (snapshot : Snapshot) : List Log.Line :=
  snapshot.tables.flatMap fun table => table.columns.flatMap (columnNote convention snapshot.names table)

end Convention

end TableModels.Schema
