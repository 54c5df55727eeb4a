/-! Columns of a table and the references they make to other tables. -/

namespace TableModels.Schema

structure ForeignKey where
  column : String
  referencedTable : String
  referencedColumn : String := "id"
  isOneToOne : Bool := false
  deriving DecidableEq, Repr

/-- A column as the database reports it. The type may end in an array mark, and the default is the
expression as written there. -/
structure Column where
  name : String
  sourceType : String
  nullable : Bool := true
  default : Option String := none
  isPrimaryKey : Bool := false
  foreignKey : Option ForeignKey := none
  deriving DecidableEq, Repr

namespace Column

def hasDefault (column : Column) : Bool := column.default.isSome

def isForeignKey (column : Column) : Bool := column.foreignKey.isSome

def withForeignKey (column : Column) (key : Option ForeignKey) : Column := { column with foreignKey := key }

/-- The column without what is worked out anew on every run. -/
def declared (column : Column) : Column := column.withForeignKey none

end Column

end TableModels.Schema
