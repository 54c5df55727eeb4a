import TableModels.Proofs.Digests
import TableModels.Proofs.Snapshot

/-! What is stored of a schema reads back. Of tables and columns that is all but the references, and of enumerated
types it is all, by name. -/

namespace TableModels

namespace Json

private theorem arePlain_iff {room : Nat} {items : List Value} :
    ArePlain room items ↔ ∀ item ∈ items, IsPlain room item := by
  induction items with
  | nil => simp [ArePlain]
  | cons item rest ih => simp [ArePlain, ih]

private theorem hasPlain_iff {room : Nat} {fields : Fields} :
    HasPlain room fields ↔ ∀ field ∈ fields, IsPlain room field.2 := by
  induction fields with
  | nil => simp [HasPlain]
  | cons field rest ih =>
    rcases field with ⟨name, value⟩
    simp [HasPlain, ih]

end Json

namespace Schema

private theorem isPlain_storedColumn (room : Nat) (column : Column) : Json.IsPlain (room + 1) column.stored := by
  rcases column with ⟨name, sourceType, nullable, _ | default, key, reference⟩ <;>
    simp [Column.stored, Json.IsPlain, Json.HasPlain, Keyed.names]

private theorem isPlain_storedTable (room : Nat) (table : Table) : Json.IsPlain (room + 3) table.stored := by
  simp [Table.stored, Json.IsPlain, Json.HasPlain, Keyed.names, Json.arePlain_iff, isPlain_storedColumn]

theorem isPlain_storedTables {room : Nat} (deep : 5 ≤ room) (tables : List Table) :
    Json.IsPlain room (Snapshot.storedTables tables) := by
  obtain ⟨room, rfl⟩ := Nat.exists_eq_add_of_le' deep
  simp [Snapshot.storedTables, Json.IsPlain, Json.HasPlain, Keyed.names, Json.arePlain_iff, isPlain_storedTable]

private theorem repeatedAfter?_of_nodup {seen names : List String} (distinct : names.Nodup)
    (apart : ∀ name ∈ names, name ∉ seen) :
    repeatedAfter? seen names = none := by
  induction names generalizing seen with
  | nil => rfl
  | cons name rest ih =>
    obtain ⟨fresh, distinct⟩ := List.nodup_cons.mp distinct
    have unseen : seen.contains name = false := by simpa using apart name List.mem_cons_self
    rw [repeatedAfter?, unseen, if_neg Bool.false_ne_true]
    refine ih distinct fun other member => ?_
    rw [List.mem_cons, not_or]
    exact ⟨fun same => fresh (same ▸ member), apart other (List.mem_cons_of_mem _ member)⟩

theorem repeated?_of_nodup {names : List String} (distinct : names.Nodup) : repeated? names = none :=
  repeatedAfter?_of_nodup distinct (by simp)

theorem Column.ofStored_stored (column : Column) :
    Column.ofStored (Json.sorted column.stored) = .ok column.declared := by
  have fields : Json.sorted column.stored = .object [("default", (column.default.map Value.text).getD .null),
      ("is_primary_key", .bool column.isPrimaryKey), ("name", .text column.name), ("nullable", .bool column.nullable),
      ("source_type", .text column.sourceType)] := by
    rcases column with ⟨name, sourceType, nullable, _ | default, key, reference⟩ <;>
      simp only [Column.stored, Json.sorted, Json.sortedFields, Json.inOrder, Option.map, Option.getD, List.mergeSort,
        List.merge, List.MergeSort.Internal.splitInTwo_fst, List.MergeSort.Internal.splitInTwo_snd, List.length,
        List.take, List.drop,
        String.reduceLT, decide_false, decide_true, Bool.not_true, Bool.not_false, Bool.false_eq_true,
        if_true, if_false]
  rw [fields]
  rcases column with ⟨name, sourceType, nullable, _ | default, key, reference⟩ <;> rfl

theorem Table.ofColumns_self (table : Table) : ofColumns table.name table.columns = .ok table := by
  rw [ofColumns]
  split
  · rfl
  · rename_i column clash
    simp [repeated?_of_nodup table.distinct] at clash

theorem Table.ofStored_stored (table : Table) : Table.ofStored (Json.sorted table.stored) = .ok table.declared := by
  have fields : Json.sorted table.stored =
      .object [("columns", .list (table.columns.map fun column => Json.sorted column.stored)),
          ("name", .text table.name)] := by
    simp only [Table.stored, Json.sorted, Json.sortedFields, Json.sortedItems_eq, Json.inOrder, List.map_map,
      Function.comp_def, List.mergeSort, List.merge, List.MergeSort.Internal.splitInTwo_fst,
      List.MergeSort.Internal.splitInTwo_snd, List.length,
      List.take, List.drop, String.reduceLT, decide_true, Bool.not_true, Bool.false_eq_true, if_false]
  have read : Table.ofStored (Json.sorted table.stored) = (do
      let columns ← (table.columns.map fun column => Json.sorted column.stored).mapM Column.ofStored
      (ofColumns table.name columns).mapError .clash) := by
    rw [fields]
    rfl
  have whole : ofColumns table.name (table.columns.map Column.declared) = .ok table.declared :=
    table.declared.ofColumns_self
  rw [read, mapM_map_ok Column.ofStored_stored]
  exact congrArg (Except.mapError StoredFault.clash) whole

private theorem Snapshot.insertTable_last {table : Table} {tables : List Table}
    (last : ∀ other ∈ tables, other.name < table.name) :
    insertTable table tables = tables ++ [table] := by
  induction tables with
  | nil => rfl
  | cons first rest ih =>
    have before := last first List.mem_cons_self
    have apart : table.name ≠ first.name := fun same => String.lt_irrefl _ (same ▸ before)
    rw [insertTable, if_neg (String.lt_asymm before), if_neg apart,
      ih fun other member => last other (List.mem_cons_of_mem _ member)]
    rfl

private theorem Snapshot.replace_ascending (snapshot : Snapshot) {tables : List Table}
    (ascending : ((snapshot.tables ++ tables).map Table.name).Pairwise (· < ·)) :
    (snapshot.replace tables).tables = snapshot.tables ++ tables := by
  induction tables generalizing snapshot with
  | nil => simp [replace]
  | cons table rest ih =>
    have last : ∀ other ∈ snapshot.tables, other.name < table.name := by
      rw [List.map_append, List.pairwise_append] at ascending
      exact fun other member => ascending.2.2 _ (List.mem_map_of_mem member) _ (by simp)
    have inserted : (snapshot.insert table).tables = snapshot.tables ++ [table] := insertTable_last last
    have step : snapshot.replace (table :: rest) = (snapshot.insert table).replace rest := rfl
    rw [step, ih _ (by simpa [inserted] using ascending), inserted, List.append_assoc, List.singleton_append]

private theorem Snapshot.ofTables_self (snapshot : Snapshot) : ofTables snapshot.tables = .ok snapshot := by
  have ascending : ((empty.tables ++ snapshot.tables).map Table.name).Pairwise (· < ·) := snapshot.ascending
  have same := empty.replace_ascending ascending
  have distinct : (snapshot.tables.map Table.name).Nodup := snapshot.names_nodup
  rw [ofTables, repeated?_of_nodup distinct]
  refine congrArg Except.ok ?_
  cases replaced : empty.replace snapshot.tables
  rw [replaced] at same
  cases snapshot
  simpa [empty] using same

/-- Stored tables make a snapshot as the tables themselves would without their references. -/
theorem Snapshot.ofStored_storedTables (tables : List Table) :
    Snapshot.ofStored (Json.sorted (storedTables tables)) = (ofTables (tables.map Table.declared)).mapError .clash := by
  have fields : Json.sorted (storedTables tables) =
      .object [("tables", .list (tables.map fun table => Json.sorted table.stored))] := by
    simp [storedTables, Json.sorted, Json.sortedFields, Json.sortedItems_eq, Json.inOrder, Function.comp_def]
  have read : Snapshot.ofStored (Json.sorted (storedTables tables)) = (do
      let tables ← (tables.map fun table => Json.sorted table.stored).mapM Table.ofStored
      (ofTables tables).mapError .clash) := by
    rw [fields]
    rfl
  rw [read, mapM_map_ok Table.ofStored_stored]
  rfl

theorem Snapshot.ofStored_stored (snapshot : Snapshot) :
    Snapshot.ofStored (Json.sorted (storedTables snapshot.tables)) = .ok snapshot.declared := by
  have whole : ofTables (snapshot.tables.map Table.declared) = .ok snapshot.declared := snapshot.declared.ofTables_self
  rw [ofStored_storedTables, whole]
  rfl

end Schema

namespace Run.Cache

theorem isPlain_enumsData {room : Nat} (deep : 5 ≤ room) {enums : Keyed (List String)}
    (distinct : (Keyed.names enums).Nodup) : Json.IsPlain room (enumsData enums) := by
  obtain ⟨room, rfl⟩ := Nat.exists_eq_add_of_le' deep
  refine ⟨by simpa [Keyed.names, Function.comp_def] using distinct, Json.hasPlain_iff.mpr fun field member => ?_⟩
  obtain ⟨entry, _, rfl⟩ := List.mem_map.mp member
  simp [Json.IsPlain, Json.arePlain_iff]

theorem sorted_enumsData (enums : Keyed (List String)) :
    Json.sorted (enumsData enums) = enumsData (Json.inOrder enums) := by
  have fields : Json.sortedFields (enums.map fun entry => (entry.1, Value.list (entry.2.map .text))) =
      enums.map fun entry => (entry.1, Value.list (entry.2.map .text)) := by
    simp [Json.sortedFields_eq, Json.sorted, Json.sortedItems_eq]
  have data : ∀ enums : Keyed (List String),
      enumsData enums = .object (enums.map fun entry => (entry.1, .list (entry.2.map .text))) := fun _ => rfl
  rw [data, data, Json.sorted, fields, Json.inOrder_map fun entry : String × List String =>
    Value.list (entry.2.map .text)]

theorem enumsOf?_enumsData (enums : Keyed (List String)) : enumsOf? (enumsData enums) = some enums := by
  rw [enumsData, enumsOf?]
  induction enums with
  | nil => rfl
  | cons entry rest ih =>
    have values : (entry.2.map Value.text).map Value.toText = entry.2 := by simp [Function.comp_def, Value.toText]
    simp [ih, values]

end Run.Cache

end TableModels
