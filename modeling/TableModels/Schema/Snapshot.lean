import TableModels.Schema.Table

/-! The tables of one fetch, in ascending order of their names. -/

namespace TableModels.Schema

structure Snapshot where
  tables : List Table
  ascending : (tables.map Table.name).Pairwise (· < ·)
  deriving DecidableEq, Repr

namespace Snapshot

def empty : Snapshot := ⟨[], .nil⟩

/-- Puts a table at its place, instead of one of the same name. -/
def insertTable (table : Table) : List Table → List Table
  | [] => [table]
  | first :: rest =>
    if table.name < first.name then table :: first :: rest
    else if table.name = first.name then table :: rest
    else first :: insertTable table rest

theorem mem_names_insertTable {table : Table} {tables : List Table} {name : String}
    (member : name ∈ (insertTable table tables).map Table.name) :
    name = table.name ∨ name ∈ tables.map Table.name := by
  induction tables with
  | nil => simpa [insertTable] using member
  | cons first rest ih =>
    simp only [insertTable] at member
    split at member
    · simpa using member
    · split at member
      · simp only [List.map_cons, List.mem_cons] at member ⊢
        exact member.imp_right .inr
      · simp only [List.map_cons, List.mem_cons] at member ⊢
        rcases member with same | member
        · exact .inr (.inl same)
        · exact (ih member).imp_right .inr

theorem ascending_insertTable (table : Table) {tables : List Table}
    (ascending : (tables.map Table.name).Pairwise (· < ·)) :
    ((insertTable table tables).map Table.name).Pairwise (· < ·) := by
  induction tables with
  | nil => simp [insertTable]
  | cons first rest ih =>
    simp only [List.map_cons, List.pairwise_cons] at ascending
    obtain ⟨above, ascending⟩ := ascending
    simp only [insertTable]
    split
    · rename_i before
      simp only [List.map_cons, List.pairwise_cons, List.mem_cons]
      refine ⟨?_, above, ascending⟩
      rintro name (rfl | member)
      · exact before
      · exact String.lt_trans before (above name member)
    · split
      · rename_i same
        simp only [List.map_cons, List.pairwise_cons, same]
        exact ⟨above, ascending⟩
      · rename_i notBefore notSame
        simp only [List.map_cons, List.pairwise_cons]
        refine ⟨fun name member => ?_, ih ascending⟩
        rcases mem_names_insertTable member with rfl | member
        · exact (Std.lt_trichotomy first.name table.name).resolve_right
            (not_or.2 ⟨fun same => notSame same.symm, notBefore⟩)
        · exact above name member

def insert (snapshot : Snapshot) (table : Table) : Snapshot :=
  ⟨insertTable table snapshot.tables, ascending_insertTable table snapshot.ascending⟩

/-- Puts in tables by name. Of several of one name the last stays. -/
def replace (snapshot : Snapshot) (tables : List Table) : Snapshot := tables.foldl insert snapshot

def ofTables (tables : List Table) : Except Clash Snapshot :=
  match repeated? (tables.map Table.name) with
  | none => .ok (empty.replace tables)
  | some name => .error (.table name)

def names (snapshot : Snapshot) : List String := snapshot.tables.map Table.name

def size (snapshot : Snapshot) : Nat := snapshot.tables.length

def get? (snapshot : Snapshot) (name : String) : Option Table :=
  snapshot.tables.find? fun table => table.name == name

def contains (snapshot : Snapshot) (name : String) : Bool := snapshot.tables.any fun table => table.name == name

/-- The tables whose name is kept. -/
def filter (keep : String → Bool) (snapshot : Snapshot) : Snapshot where
  tables := snapshot.tables.filter fun table => keep table.name
  ascending := snapshot.ascending.sublist ((List.filter_sublist).map Table.name)

/-- Gives every column of every table the foreign key that `choose` finds for it. -/
def withForeignKeys (snapshot : Snapshot) (choose : Column → Option ForeignKey) : Snapshot where
  tables := snapshot.tables.map fun table => table.withForeignKeys choose
  ascending := by
    have same : (Table.name ∘ fun table => table.withForeignKeys choose) = Table.name := rfl
    simpa [same] using snapshot.ascending

/-- The snapshot without what is worked out anew on every run. -/
def declared (snapshot : Snapshot) : Snapshot := snapshot.withForeignKeys fun _ => none

end Snapshot

end TableModels.Schema
