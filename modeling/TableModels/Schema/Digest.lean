import TableModels.Digest.Sha256
import TableModels.Schema.Table

/-! The digest of a table covers what is declared: its name and, for each column in order, the name,
the type, the two flags and the default. References between tables do not count. -/

namespace TableModels.Schema

def flag (value : Bool) : String := if value then "true" else "false"

def Column.digestLine (column : Column) : String :=
  "  column:" ++ "|".intercalate
    [column.name, column.sourceType, flag column.nullable, flag column.isPrimaryKey, column.default.getD "null"]

def Table.digestText (table : Table) : String :=
  "\n".intercalate (("table:" ++ table.name) :: table.columns.map Column.digestLine)

def Table.digest (table : Table) : String := Digest.sha256Hex table.digestText.toUTF8.toList

end TableModels.Schema
