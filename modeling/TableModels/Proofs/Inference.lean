import TableModels.Proofs.Snapshot
import TableModels.Proofs.Trimming

/-! References that follow from names. Inference gives a column the reference that it declares, or else the one that its
name implies, and changes nothing else. What it has given it would give again. -/

namespace TableModels

namespace Schema

open Text

variable {convention : Convention} {names : List String} {column : Column} {key : ForeignKey}

/-- The tables that a base name may mean, the likeliest first. -/
inductive Meanings : String → List String → Prop where
  | y (stem : String) : Meanings (stem ++ "y") [stem ++ "y", stem ++ "ys", stem ++ "yes", stem ++ "ies"]
  | s (stem : String) : Meanings (stem ++ "s") [stem ++ "s", stem ++ "ss", stem ++ "ses", stem]
  | other {base : String} (apart : ∀ stem, base ≠ stem ++ "y" ∧ base ≠ stem ++ "s") :
      Meanings base [base, base ++ "s", base ++ "es"]

/-- The first of some tables that there is. -/
def First (names tables : List String) (table : String) : Prop :=
  table ∈ names ∧ ∃ before after, tables = before ++ table :: after ∧ ∀ other ∈ before, other ∉ names

/-- A type of single values that can identify a row. -/
def Identifies (type : String) : Prop :=
  ¬ "[]".toList <:+ (strip type).toList ∧ lower (strip type) ∈ Typing.identifierTypes

/-- The reference that a column has by its name. Before the suffix stands a base name, and this is the first table it
may mean that there is. -/
structure Implied (convention : Convention) (names : List String) (column : Column) (key : ForeignKey) : Prop where
  name : ∃ base tables, base ≠ "" ∧ column.name = base ++ convention.suffix ∧ Meanings base tables ∧
    First names tables key.referencedTable
  type : Identifies column.sourceType
  rest : key = ⟨column.name, key.referencedTable, convention.referencedColumn, false⟩

private theorem candidates_eq (base : String) : candidates base = [base, base ++ "s", base ++ "es"]
    ++ (if hasSuffix "y" base then [String.ofList base.toList.dropLast ++ "ies"] else [])
    ++ (if hasSuffix "s" base then [String.ofList base.toList.dropLast] else []) := rfl

private theorem not_both (stem : String) :
    hasSuffix "s" (stem ++ "y") = false ∧ hasSuffix "y" (stem ++ "s") = false := by
  simp only [← Bool.not_eq_true, hasSuffix_iff, String.ext_iff, String.toList_append]
  constructor <;> rintro ⟨other, same⟩ <;> simpa using (List.append_inj' same rfl).2

private theorem candidates_y (stem : String) :
    candidates (stem ++ "y") = [stem ++ "y", stem ++ "ys", stem ++ "yes", stem ++ "ies"] := by
  have ends : hasSuffix "y" (stem ++ "y") = true := hasSuffix_iff.mpr ⟨stem, rfl⟩
  have endings : "y" ++ "s" = "ys" ∧ "y" ++ "es" = "yes" := ⟨rfl, rfl⟩
  simp [candidates_eq, ends, not_both, String.append_assoc, endings]

private theorem candidates_s (stem : String) :
    candidates (stem ++ "s") = [stem ++ "s", stem ++ "ss", stem ++ "ses", stem] := by
  have ends : hasSuffix "s" (stem ++ "s") = true := hasSuffix_iff.mpr ⟨stem, rfl⟩
  have endings : "s" ++ "s" = "ss" ∧ "s" ++ "es" = "ses" := ⟨rfl, rfl⟩
  simp [candidates_eq, ends, not_both, String.append_assoc, endings]

private theorem candidates_other {base : String} (apart : ∀ stem, base ≠ stem ++ "y" ∧ base ≠ stem ++ "s") :
    candidates base = [base, base ++ "s", base ++ "es"] := by
  have plain : hasSuffix "y" base = false ∧ hasSuffix "s" base = false := by
    simp only [← Bool.not_eq_true, hasSuffix_iff, not_exists]
    exact ⟨fun stem => (apart stem).1, fun stem => (apart stem).2⟩
  simp [candidates_eq, plain]

private theorem meanings_iff {base : String} {tables : List String} :
    Meanings base tables ↔ candidates base = tables := by
  constructor
  · intro means
    cases means with
    | y stem => exact candidates_y stem
    | s stem => exact candidates_s stem
    | other apart => exact candidates_other apart
  · rintro rfl
    by_cases y : ∃ stem, base = stem ++ "y"
    · obtain ⟨stem, rfl⟩ := y
      exact candidates_y stem ▸ .y stem
    by_cases s : ∃ stem, base = stem ++ "s"
    · obtain ⟨stem, rfl⟩ := s
      exact candidates_s stem ▸ .s stem
    have apart : ∀ stem, base ≠ stem ++ "y" ∧ base ≠ stem ++ "s" :=
      fun stem => ⟨fun same => y ⟨stem, same⟩, fun same => s ⟨stem, same⟩⟩
    exact candidates_other apart ▸ .other apart

private theorem resolve?_eq_some {base table : String} :
    resolve? base names = some table ↔ First names (candidates base) table := by
  simp [resolve?, List.find?_eq_some_iff_append, First]

private theorem base?_eq_some (filled : convention.suffix ≠ "") {name base : String} :
    convention.base? name = some base ↔ base ≠ "" ∧ name = base ++ convention.suffix := by
  simp only [Convention.base?, beq_iff_eq, filled, if_false, Option.map_id']
  split
  · rename_i bare
    have longer : base ≠ "" → convention.suffix ≠ base ++ convention.suffix := by
      intro some same
      exact some ((String.append_left_inj convention.suffix).mp (same.symm.trans String.empty_append.symm))
    simpa [bare] using longer
  · rename_i longer
    rw [withoutSuffix?_eq_some]
    constructor
    · rintro rfl
      exact ⟨fun empty => longer (by simp [empty]), rfl⟩
    · exact And.right

private theorem isIdentifierType_iff {type : String} : Typing.isIdentifierType type = true ↔ Identifies type := by
  rw [Typing.isIdentifierType, Typing.keyOf, Typing.SourceType.key, Typing.SourceType.ofText, Identifies,
    ← withoutSuffix?_eq_none, ← Typing.SourceType.arrayMark]
  split
  · rename_i base array
    simp [array]
  · rename_i single
    simp [single]

private theorem foreignKey?_of_declared (declares : column.foreignKey = some key) :
    convention.foreignKey? names column = some key := by
  simp [Convention.foreignKey?, Convention.target?, declares]

private theorem foreignKey?_of_bare (bare : column.foreignKey = none) : convention.foreignKey? names column = some key ↔
    ∃ base table, convention.base? column.name = some base ∧ resolve? base names = some table ∧
      Typing.isIdentifierType column.sourceType = true ∧ ⟨column.name, table, convention.referencedColumn, false⟩ =
        key := by
  have target : convention.target? names column = (convention.base? column.name).bind
      fun base => resolve? base names := by
    simp [Convention.target?, bare]
  rw [Convention.foreignKey?, target, bare]
  cases convention.base? column.name with
  | none => simp
  | some base =>
    simp only [Option.bind_some, Option.some.injEq, exists_and_left, exists_eq_left']
    cases resolve? base names with
    | none => simp
    | some table => simp

private theorem foreignKey?_eq_some (filled : convention.suffix ≠ "") : convention.foreignKey? names column = some key ↔
    column.foreignKey = some key ∨ column.foreignKey = none ∧ Implied convention names column key := by
  cases declares : column.foreignKey with
  | some declared => simp [foreignKey?_of_declared declares]
  | none =>
    simp only [foreignKey?_of_bare declares, base?_eq_some filled, resolve?_eq_some, isIdentifierType_iff,
      reduceCtorEq, false_or, true_and]
    constructor
    · rintro ⟨base, table, ⟨some, name⟩, first, type, rfl⟩
      exact ⟨⟨base, _, some, name, meanings_iff.mpr rfl, first⟩, type, rfl⟩
    · rintro ⟨⟨base, tables, some, name, means, first⟩, type, rest⟩
      obtain rfl := meanings_iff.mp means
      exact ⟨base, key.referencedTable, ⟨some, name⟩, first, type, rest.symm⟩

/-- The reference that was found for a column is found again. -/
private theorem foreignKey?_again :
    convention.foreignKey? names (column.withForeignKey (convention.foreignKey? names column)) =
    convention.foreignKey? names column := by
  cases found : convention.foreignKey? names column with
  | some key => exact foreignKey?_of_declared rfl
  | none =>
    have bare : column.foreignKey = none := by
      cases declares : column.foreignKey with
      | none => rfl
      | some key => simp [foreignKey?_of_declared declares] at found
    have same : column.withForeignKey none = column := by simp [Column.withForeignKey, ← bare]
    rw [same, found]

private theorem infer_infer (convention : Convention) (snapshot : Snapshot) :
    convention.infer (convention.infer snapshot) = convention.infer snapshot := by
  have names : (convention.infer snapshot).names = snapshot.names := Snapshot.names_withForeignKeys _ snapshot
  have again : ∀ table : Table, (table.withForeignKeys (convention.foreignKey? snapshot.names)).withForeignKeys
      (convention.foreignKey? snapshot.names) = table.withForeignKeys (convention.foreignKey? snapshot.names) := by
    intro table
    have columns : ∀ column : Column,
        (column.withForeignKey (convention.foreignKey? snapshot.names column)).withForeignKey
        (convention.foreignKey? snapshot.names (column.withForeignKey (convention.foreignKey? snapshot.names column))) =
        column.withForeignKey (convention.foreignKey? snapshot.names column) := by
      intro column
      rw [foreignKey?_again]
      rfl
    simp [Table.withForeignKeys, columns]
  rw [Convention.infer, names]
  simp [Convention.infer, Snapshot.withForeignKeys, again]

/-- What inference makes of a column: it has the reference that was declared, or else the one that its name implies. -/
structure Column.Inferred (convention : Convention) (names : List String) (before after : Column) : Prop where
  declared : after.declared = before.declared
  reference : ∀ key, after.foreignKey = some key ↔
    before.foreignKey = some key ∨ before.foreignKey = none ∧ Implied convention names before key

structure Table.Inferred (convention : Convention) (names : List String) (before after : Table) : Prop where
  name : after.name = before.name
  columns : List.Forall₂ (Column.Inferred convention names) before.columns after.columns

/-- Inference gives references and changes nothing else: the tables with their columns stand where they stood, and
have the digests that they had. To infer again makes no difference. -/
theorem infer_attaches_references (filled : convention.suffix ≠ "") (snapshot : Snapshot) :
    List.Forall₂ (Table.Inferred convention snapshot.names) snapshot.tables (convention.infer snapshot).tables ∧
    (convention.infer snapshot).tables.map Table.digest = snapshot.tables.map Table.digest ∧
    convention.infer (convention.infer snapshot) = convention.infer snapshot := by
  refine ⟨?_, ?_, infer_infer convention snapshot⟩
  · rw [Convention.infer, Snapshot.withForeignKeys, List.forall₂_map_right_iff, List.forall₂_same]
    intro table _
    refine ⟨rfl, ?_⟩
    rw [Table.withForeignKeys, List.forall₂_map_right_iff, List.forall₂_same]
    intro column _
    exact ⟨rfl, fun key => foreignKey?_eq_some filled⟩
  · simp [Convention.infer, Snapshot.withForeignKeys, Function.comp_def, Table.digest_withForeignKeys]

namespace Library

def books : Table where
  name := "books"
  columns := [{ name := "category_ref", sourceType := " INT8 " }, { name := "shelf_refs", sourceType := "int8" },
    { name := "address_ref", sourceType := "uuid[]" }, { name := "_ref", sourceType := "uuid" },
    { name := "address", sourceType := "text", foreignKey := some ⟨"address", "streets", "number", true⟩ }]
  distinct := by decide

def table (name : String) : Table := ⟨name, [{ name := "id", sourceType := "uuid" }], by simp⟩

def schema : Snapshot := ⟨[table "address", books, table "categories", table "categoryes"], by decide⟩

/-- The convention that references end in `_ref` and name a code. -/
def codes : Convention := ⟨"_ref", "code"⟩

end Library

/-- Of the tables that a category may be in, the first that there is counts. -/
theorem library_refers : ∃ inferred, Library.codes.infer Library.schema = inferred ∧
    List.Forall₂ (Table.Inferred Library.codes Library.schema.names) Library.schema.tables inferred.tables ∧
    inferred.tables.map Table.digest = Library.schema.tables.map Table.digest ∧
      Library.codes.infer inferred = inferred ∧
    ∃ books ∈ inferred.tables, books.foreignKeys =
      [⟨"category_ref", "categoryes", "code", false⟩, ⟨"address", "streets", "number", true⟩] := by
  have filled : Library.codes.suffix ≠ "" := by decide
  obtain ⟨tables, digests, again⟩ := infer_attaches_references filled Library.schema
  have books : ∃ books ∈ (Library.codes.infer Library.schema).tables, books.foreignKeys =
      [⟨"category_ref", "categoryes", "code", false⟩, ⟨"address", "streets", "number", true⟩] := by decide +kernel
  exact ⟨_, rfl, tables, digests, again, books⟩

end Schema

end TableModels
