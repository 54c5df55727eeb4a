import TableModels.Schema.Column

/-! Tables. The columns of a table keep their order and have distinct names. -/

namespace TableModels.Schema

/-- A name that stands twice where names must differ. -/
inductive Clash where
  | column (name table : String)
  | table (name : String)
  deriving DecidableEq, Repr

def Clash.message : Clash → String
  | .column name owner => s!"Duplicate column '{name}' in table '{owner}'"
  | .table name => s!"Duplicate table '{name}' in schema snapshot"

/-- The first name that already stands among those before it. -/
def repeatedAfter? (seen : List String) : List String → Option String
  | [] => none
  | name :: rest => if seen.contains name then some name else repeatedAfter? (name :: seen) rest

def repeated? (names : List String) : Option String := repeatedAfter? [] names

theorem repeatedAfter?_eq_none {seen names : List String} (none : repeatedAfter? seen names = none) :
    names.Nodup ∧ ∀ name ∈ names, name ∉ seen := by
  induction names generalizing seen with
  | nil => simp
  | cons name rest ih =>
    simp only [repeatedAfter?] at none
    split at none
    · contradiction
    · rename_i fresh
      obtain ⟨distinct, apart⟩ := ih none
      simp only [List.contains_iff_mem] at fresh
      simp only [List.mem_cons, not_or] at apart
      refine ⟨List.nodup_cons.2 ⟨fun member => (apart name member).1 rfl, distinct⟩, ?_⟩
      intro other member
      rcases List.mem_cons.1 member with rfl | member
      · exact fresh
      · exact (apart other member).2

theorem nodup_of_repeated?_eq_none {names : List String} (none : repeated? names = none) : names.Nodup :=
  (repeatedAfter?_eq_none none).1

structure Table where
  name : String
  columns : List Column
  distinct : (columns.map Column.name).Nodup
  deriving DecidableEq, Repr

namespace Table

def ofColumns (name : String) (columns : List Column) : Except Clash Table :=
  match clear : repeated? (columns.map Column.name) with
  | none => .ok { name, columns, distinct := nodup_of_repeated?_eq_none clear }
  | some column => .error (.column column name)

def columnNames (table : Table) : List String := table.columns.map Column.name

def foreignKeys (table : Table) : List ForeignKey := table.columns.filterMap Column.foreignKey

def primaryKey (table : Table) : List String := (table.columns.filter Column.isPrimaryKey).map Column.name

def column? (table : Table) (name : String) : Option Column := table.columns.find? fun column => column.name == name

/-- Gives every column the foreign key that `choose` finds for it. -/
def withForeignKeys (table : Table) (choose : Column → Option ForeignKey) : Table where
  name := table.name
  columns := table.columns.map fun column => column.withForeignKey (choose column)
  distinct := by simpa [Function.comp_def, Column.withForeignKey] using table.distinct

/-- The table without what is worked out anew on every run. -/
def declared (table : Table) : Table := table.withForeignKeys fun _ => none

end Table

end TableModels.Schema
