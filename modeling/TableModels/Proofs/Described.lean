import TableModels.Proofs.Payloads
import TableModels.Proofs.Stored

/-! Data that describes columns, tables and schemas. Reading stored data of any shape gives what it describes, and fails
exactly if it describes nothing. -/

namespace TableModels

namespace Schema

/-- Fields that describe a column. Those that may be left out have their usual value then. -/
structure Column.Described (fields : Fields) (column : Column) : Prop where
  name : Keyed.get? fields "name" = some (.text column.name)
  sourceType : Keyed.get? fields "source_type" = some (.text column.sourceType)
  nullable : (Keyed.get? fields "nullable").getD (.bool true) = .bool column.nullable
  isPrimaryKey : (Keyed.get? fields "is_primary_key").getD (.bool false) = .bool column.isPrimaryKey
  default : (Keyed.get? fields "default").getD .null = (column.default.map .text).getD .null
  foreignKey : column.foreignKey = none

/-- Fields that describe a table: its name and, one by one, its columns. Without columns there are none. An empty text
or object has no elements either. -/
structure Table.Described (fields : Fields) (table : Table) : Prop where
  name : Keyed.get? fields "name" = some (.text table.name)
  columns : ∃ items, ((Keyed.get? fields "columns").getD (.list [])).elements? = some items ∧
    List.Forall₂ (fun item column => ∃ fields, item = .object fields ∧
      Column.Described fields column) items table.columns

/-- Data that describes a schema: an object with its tables, in any order. -/
structure Snapshot.Described (data : Value) (snapshot : Snapshot) : Prop where
  tables : ∃ fields items tables, data = .object fields ∧ ((Keyed.get? fields "tables").bind Value.elements?) =
    some items ∧
    List.Forall₂ (fun item table => ∃ fields, item = .object fields ∧ Table.Described fields table) items tables ∧
    tables.Perm snapshot.tables

variable {data : Value} {fields : Fields} {name : String}

private theorem object_of_textField {value : String} (ends : textField data name = .ok value) :
    ∃ fields, data = .object fields := by
  have found : ∀ given, field? data name = .ok (some given) → ∃ fields, data = .object fields := by
    intro given ends
    rw [field?.eq_def] at ends
    split at ends
    · exact ⟨_, rfl⟩
    · split at ends <;> simp at ends
  rw [textField] at ends
  cases given : field? data name with
  | error fault => simp [given, bind, Except.bind] at ends
  | ok value? =>
    cases value? with
    | none => simp [given, bind, Except.bind] at ends
    | some value => exact found value given

private theorem textField_object {value : String} :
    textField (.object fields) name = .ok value ↔ Keyed.get? fields name = some (.text value) := by
  simp only [textField, field?, bind, Except.bind]
  cases found : Keyed.get? fields name with
  | none => simp
  | some given => cases given <;> simp

private theorem flagField_object {value fallback : Bool} :
    flagField (.object fields) name fallback = .ok value ↔ (Keyed.get? fields name).getD (.bool fallback) =
      .bool value := by
  simp only [flagField, field?, bind, Except.bind]
  cases found : Keyed.get? fields name with
  | none => simp
  | some given => cases given <;> simp

theorem elements_ok {items : List Value} : elements data = .ok items ↔ data.elements? = some items := by
  rw [elements]
  cases data.elements? <;> simp

theorem Column.ofStored_ok {column : Column} :
    Column.ofStored data = .ok column ↔ ∃ fields, data = .object fields ∧ Column.Described fields column := by
  constructor
  · intro ends
    simp only [Column.ofStored, bind_ok] at ends
    obtain ⟨name, named, sourceType, typed, nullable, flagged, isPrimaryKey, marked, default, found, ends⟩ := ends
    obtain ⟨fields, rfl⟩ := object_of_textField named
    rw [textField_object] at named typed
    rw [flagField_object] at flagged marked
    obtain rfl : Keyed.get? fields "default" = default := by simpa [field?] using found
    refine ⟨fields, rfl, ?_⟩
    split at ends
    · rename_i absent
      obtain rfl := Except.ok.inj ends
      exact ⟨named, typed, flagged, marked, by rw [absent]; rfl, rfl⟩
    · rename_i given
      obtain rfl := Except.ok.inj ends
      exact ⟨named, typed, flagged, marked, by rw [given]; rfl, rfl⟩
    · rename_i given
      obtain rfl := Except.ok.inj ends
      exact ⟨named, typed, flagged, marked, by rw [given]; rfl, rfl⟩
    · contradiction
  · rintro ⟨fields, rfl, described⟩
    obtain ⟨name, sourceType, nullable, default, isPrimaryKey, foreignKey⟩ := column
    obtain ⟨named, typed, flagged, marked, given, rfl⟩ := described
    simp only [Column.ofStored, textField_object.mpr named, textField_object.mpr typed, flagField_object.mpr flagged,
      flagField_object.mpr marked, field?, bind, Except.bind]
    cases found : Keyed.get? fields "default" with
    | none =>
      cases default <;> simp_all
    | some value =>
      cases default <;> simp_all

theorem Table.ofColumns_ok {columns : List Column} {table : Table} :
    Table.ofColumns name columns = .ok table ↔ table.name = name ∧ table.columns = columns := by
  constructor
  · intro ends
    rw [Table.ofColumns] at ends
    split at ends
    · obtain rfl := Except.ok.inj ends
      exact ⟨rfl, rfl⟩
    · contradiction
  · rintro ⟨rfl, rfl⟩
    exact table.ofColumns_self

theorem Table.ofStored_ok {table : Table} :
    Table.ofStored data = .ok table ↔ ∃ fields, data = .object fields ∧ Table.Described fields table := by
  have columns : ∀ items columns, items.mapM Column.ofStored = .ok columns ↔
      List.Forall₂ (fun item column => ∃ fields, item = .object fields ∧
          Column.Described fields column) items columns := by
    intro items columns
    simp only [mapM_ok_iff, Column.ofStored_ok]
  constructor
  · intro ends
    simp only [Table.ofStored, bind_ok] at ends
    obtain ⟨name, named, listed, found, items, run, read, each, made⟩ := ends
    obtain ⟨fields, rfl⟩ := object_of_textField named
    obtain rfl : Keyed.get? fields "columns" = listed := by simpa [field?] using found
    rw [elements_ok] at run
    cases whole : Table.ofColumns name read with
    | error clash => simp [whole, Except.mapError] at made
    | ok result =>
      obtain rfl : result = table := by simpa [whole, Except.mapError] using made
      obtain ⟨rfl, rfl⟩ := Table.ofColumns_ok.mp whole
      exact ⟨fields, rfl, textField_object.mp named, items, run, (columns items _).mp each⟩
  · rintro ⟨fields, rfl, named, items, run, each⟩
    simp only [Table.ofStored, textField_object.mpr named, field?, elements_ok.mpr run, (columns items _).mpr each,
      Table.ofColumns_ok.mpr ⟨rfl, rfl⟩, bind, Except.bind]
    rfl

private theorem Snapshot.insertTable_perm {table : Table} {tables : List Table}
    (fresh : table.name ∉ tables.map Table.name) :
    (insertTable table tables).Perm (table :: tables) := by
  induction tables with
  | nil => exact .refl _
  | cons first rest ih =>
    rw [List.map_cons, List.mem_cons, not_or] at fresh
    obtain ⟨apart, fresh⟩ := fresh
    rw [insertTable, if_neg apart]
    split
    · exact .refl _
    · exact ((ih fresh).cons first).trans (.swap table first rest)

private theorem Snapshot.replace_perm (snapshot : Snapshot) {tables : List Table}
    (distinct : ((snapshot.tables ++ tables).map Table.name).Nodup) :
    (snapshot.replace tables).tables.Perm (snapshot.tables ++ tables) := by
  induction tables generalizing snapshot with
  | nil => rw [List.append_nil, replace, List.foldl_nil]
  | cons table rest ih =>
    have joined : (snapshot.tables ++ table :: rest).Perm (table :: snapshot.tables ++ rest) := List.perm_middle
    have names := (joined.map Table.name).nodup_iff.mp distinct
    have fresh : table.name ∉ snapshot.tables.map Table.name := by
      rw [List.cons_append, List.map_cons, List.nodup_cons, List.map_append, List.mem_append, not_or] at names
      exact names.1.1
    have inserted : (snapshot.insert table).tables.Perm (table :: snapshot.tables) := insertTable_perm fresh
    have both := inserted.append_right rest
    have later := ih (snapshot.insert table) ((both.map Table.name).nodup_iff.mpr names)
    exact (later.trans both).trans joined.symm

/-- Tables make up a schema exactly if they are its tables in some order. -/
theorem Snapshot.ofTables_ok {tables : List Table} {snapshot : Snapshot} :
    ofTables tables = .ok snapshot ↔ tables.Perm snapshot.tables := by
  have made : repeated? (tables.map Table.name) = none → (empty.replace tables).tables.Perm tables := fun fresh =>
    empty.replace_perm (nodup_of_repeated?_eq_none fresh)
  constructor
  · intro ends
    rw [ofTables] at ends
    split at ends
    · rename_i fresh
      obtain rfl := Except.ok.inj ends
      exact (made fresh).symm
    · contradiction
  · intro same
    have distinct : (tables.map Table.name).Nodup := (same.map Table.name).nodup_iff.mpr snapshot.names_nodup
    have fresh := repeated?_of_nodup distinct
    rw [ofTables, fresh]
    have order : ∀ snapshot : Snapshot, snapshot.tables.Pairwise fun first second => first.name < second.name :=
      fun snapshot => List.pairwise_map.mp snapshot.ascending
    have tables : (empty.replace tables).tables = snapshot.tables :=
      ((made fresh).trans same).eq_of_pairwise
        (fun first second _ _ before after => absurd after (String.lt_asymm before))
        (order _) (order _)
    cases snapshot
    cases whole : empty.replace _
    simp_all

/-- What is read as a schema describes it. -/
theorem Snapshot.ofStored_ok {snapshot : Snapshot} :
    Snapshot.ofStored data = .ok snapshot ↔ Snapshot.Described data snapshot := by
  have tables : ∀ items tables, items.mapM Table.ofStored = .ok tables ↔
      List.Forall₂ (fun item table => ∃ fields, item = .object fields ∧ Table.Described fields table) items tables := by
    intro items tables
    simp only [mapM_ok_iff, Table.ofStored_ok]
  constructor
  · intro ends
    cases data with
    | object fields =>
      simp only [Snapshot.ofStored, bind_ok] at ends
      obtain ⟨items, run, read, each, made⟩ := ends
      rw [elements_ok] at run
      cases whole : ofTables read with
      | error clash => simp [whole, Except.mapError] at made
      | ok result =>
        obtain rfl : result = snapshot := by simpa [whole, Except.mapError] using made
        refine ⟨fields, items, read, rfl, ?_, (tables items read).mp each, ofTables_ok.mp whole⟩
        cases found : Keyed.get? fields "tables" with
        | none => simp [found, Value.elements?] at run
        | some value => simpa [found] using run
    | _ => simp [Snapshot.ofStored] at ends
  · rintro ⟨fields, items, read, rfl, run, each, same⟩
    obtain ⟨value, found, run⟩ := Option.bind_eq_some_iff.mp run
    simp only [Snapshot.ofStored, found, Option.getD_some, elements_ok.mpr run, (tables items read).mpr each,
      ofTables_ok.mpr same, bind, Except.bind]
    rfl

end Schema

end TableModels
