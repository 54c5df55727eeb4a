import TableModels.Proofs.Documents
import TableModels.Document.Reader

/-! Documents that are read one after the other. The notes that are taken in one pass come to what is read of a whole
document, part by part, and they replace the notes kept so far only if the document can be read to its end. Nothing
can fail once they have: what would still have to differ are the names of tables, and these are names of one
object. -/

namespace TableModels.Document

open Schema

namespace Pass

section

variable {α β : Type}

@[simp] theorem runWith_pure (value : α) (notes : Notes) : runWith (pure value : Pass α) notes = (.ok value, notes) :=
  rfl

@[simp] theorem runWith_parsed (parsed : Parsed α) (notes : Notes) :
    runWith (liftM parsed : Pass α) notes = (parsed, notes) := by
  cases parsed <;> rfl

@[simp] theorem runWith_set (next notes : Notes) : runWith (set next : Pass Unit) notes = (.ok (), next) := rfl

@[simp] theorem runWith_noteEnum (name : String) (values : List String) (notes : Notes) :
    runWith (noteEnum name values) notes = (.ok (), { notes with enums := Keyed.set notes.enums name values }) := rfl

@[simp] theorem runWith_noteForeignKey (name : String) (key? : Option ForeignKey) (notes : Notes) :
    runWith (noteForeignKey name key?) notes = (.ok (), {
      notes with foreignKeys := (key?.map (Keyed.set notes.foreignKeys name)).getD notes.foreignKeys }) := rfl

private theorem runWith_bind (first : Pass α) (next : α → Pass β) (notes : Notes) :
    runWith (first >>= next) notes =
      match runWith first notes with
      | (.ok value, after) => runWith (next value) after
      | (.error fault, after) => (.error fault, after) := by
  unfold runWith ExceptT.run StateT.run
  simp only [Bind.bind, ExceptT.bind, ExceptT.mk, ExceptT.bindCont, StateT.bind]
  rcases first notes with ⟨result, after⟩
  cases result <;> rfl

end

end Pass

def Notes.noted (notes : Notes) (table : String) (columns : List ColumnEntry) : Notes where
  enums := (columns.filterMap fun column => column.values.map (enumName table column.column.name, ·)).foldl
    (fun known entry => Keyed.set known entry.1 entry.2) notes.enums
  foreignKeys :=
    (columns.filterMap fun column => column.column.foreignKey.map (table ++ "." ++ column.column.name, ·)).foldl
    (fun known entry => Keyed.set known entry.1 entry.2) notes.foreignKeys

private theorem Notes.noted_cons (notes : Notes) (table : String) (column : ColumnEntry) (rest : List ColumnEntry) :
    notes.noted table (column :: rest) = Notes.noted {
      enums := (column.values.map (Keyed.set notes.enums (enumName table column.column.name))).getD notes.enums
      foreignKeys :=
        (column.column.foreignKey.map (Keyed.set notes.foreignKeys (table ++ "." ++ column.column.name))).getD
        notes.foreignKeys } table rest := by
  cases values : column.values <;> cases key : column.column.foreignKey <;> simp [noted, values, key]

private theorem Notes.foldl_noted (entries : List TableEntry) (notes : Notes) :
    entries.foldl (fun notes entry => notes.noted entry.name entry.columns) notes = {
      enums := (entries.flatMap fun entry => entry.columns.filterMap fun column =>
          column.values.map fun values => (enumName entry.name column.column.name, values)).foldl
        (fun known entry => Keyed.set known entry.1 entry.2) notes.enums
      foreignKeys := (entries.flatMap fun entry => entry.columns.filterMap fun column =>
          column.column.foreignKey.map fun key => (entry.name ++ "." ++ column.column.name, key)).foldl
        (fun known entry => Keyed.set known entry.1 entry.2) notes.foreignKeys } := by
  induction entries generalizing notes with
  | nil => rfl
  | cons entry rest ih =>
    rw [List.foldl_cons, ih, List.flatMap_cons, List.flatMap_cons, List.foldl_append, List.foldl_append]
    rfl

def Contents.notes (contents : Contents) : Notes := ⟨contents.enums, contents.foreignKeys⟩

namespace Pass

variable {table name : String} {required : List String}

private theorem runWith_sourceType (table name : String) (fields : Fields) (notes : Notes) :
    runWith (sourceType table name fields) notes =
    match present? (fieldOf fields "enum") with
    | none => (columnType fields, notes)
    | some values =>
      match elements values with
      | .error fault => (.error fault, notes)
      | .ok items => (.ok (enumName table name),
        { notes with enums := Keyed.set notes.enums (enumName table name) (items.map Value.toText) }) := by
  rw [sourceType]
  cases present? (fieldOf fields "enum") with
  | none => exact runWith_parsed _ _
  | some values =>
    cases items : elements values <;> simp only [runWith_bind, runWith_parsed, items, runWith_noteEnum, runWith_pure]

private theorem column_cases (table : String) (required : List String) (name : String)
    (schema : Value) (notes : Notes) :
    (∃ entry, columnEntry table required name schema = .ok entry ∧ runWith (column table required name schema) notes =
      (.ok entry.column,
        { notes with enums := (entry.values.map (Keyed.set notes.enums (enumName table name))).getD notes.enums })) ∨
    ∃ fault left, columnEntry table required name schema = .error fault ∧
      runWith (column table required name schema) notes = (.error fault, left) := by
  simp only [column, runWith_bind, runWith_parsed, runWith_sourceType, runWith_pure]
  cases object : fieldsOf schema with
  | error fault => exact .inr ⟨fault, notes, by simp [columnEntry, object, bind, Except.bind], rfl⟩
  | ok fields =>
    cases given : present? (fieldOf fields "enum") with
    | none =>
      cases type : columnType fields <;> cases text : description fields <;>
        simp [columnEntry, object, given, type, text, bind, Except.bind, pure, Except.pure]
    | some values =>
      cases items : elements values <;> cases text : description fields <;>
        simp [columnEntry, object, given, items, text, bind, Except.bind, pure, Except.pure]

private theorem columns_cases (table : String) (required : List String) (properties : Fields) (notes : Notes) :
    (∃ entries, properties.mapM (fun property => columnEntry table required property.1 property.2) = .ok entries ∧
      runWith (columns table required properties) notes =
        (.ok (entries.map ColumnEntry.column), notes.noted table entries)) ∨
    ∃ fault left, properties.mapM (fun property => columnEntry table required property.1 property.2) = .error fault ∧
      runWith (columns table required properties) notes = (.error fault, left) := by
  induction properties generalizing notes with
  | nil => exact .inl ⟨[], rfl, rfl⟩
  | cons property rest ih =>
    obtain ⟨name, schema⟩ := property
    simp only [columns, List.mapM_cons, runWith_bind]
    rcases column_cases table required name schema notes with ⟨entry, own, ran⟩ | ⟨fault, left, own, ran⟩
    · have named := name_of_columnEntry own
      simp only [own, ran, runWith_noteForeignKey]
      rcases ih { enums := (entry.values.map (Keyed.set notes.enums (enumName table name))).getD notes.enums
                  foreignKeys := (entry.column.foreignKey.map (Keyed.set notes.foreignKeys (table ++ "." ++ name))).getD
                    notes.foreignKeys } with
        ⟨entries, later, rest⟩ | ⟨fault, left, later, rest⟩
      · refine .inl ⟨entry :: entries, by rw [later]; rfl, ?_⟩
        rw [rest, Notes.noted_cons, named]
        rfl
      · exact .inr ⟨fault, left, by rw [later]; rfl, by rw [rest]⟩
    · exact .inr ⟨fault, left, by rw [own]; rfl, by rw [ran]⟩

private theorem columnsOf_cases (table : String) (fields : Fields) (notes : Notes) :
    (∃ entries, tableEntry table fields = .ok ⟨table, entries⟩ ∧
      runWith (columnsOf table fields) notes = (.ok (entries.map ColumnEntry.column), notes.noted table entries)) ∨
    ∃ fault left, tableEntry table fields = .error fault ∧ runWith (columnsOf table fields) notes =
      (.error fault, left) := by
  simp only [columnsOf, runWith_bind, runWith_parsed]
  cases needed : requiredNames fields with
  | error fault => exact .inr ⟨fault, notes, by simp [tableEntry, needed, bind, Except.bind], rfl⟩
  | ok required =>
    cases given : properties fields with
    | error fault => exact .inr ⟨fault, notes, by simp [tableEntry, needed, given, bind, Except.bind], rfl⟩
    | ok properties =>
      rcases columns_cases table required properties notes with ⟨entries, all, ran⟩ | ⟨fault, left, all, ran⟩
      · exact .inl ⟨entries,
          bind_ok.mpr ⟨required, needed, bind_ok.mpr ⟨properties, given, bind_ok.mpr ⟨entries, all, rfl⟩⟩⟩, ran⟩
      · exact .inr ⟨fault, left, by simp [tableEntry, needed, given, all, bind, Except.bind], ran⟩

private theorem tables_skip {value : Value} {rest : Fields} (other : ¬ ∃ fields, value = .object fields) :
    tables ((name, value) :: rest) = tables rest := by
  cases value with
  | object fields => exact absurd ⟨fields, rfl⟩ other
  | _ => rfl

/-- The tables of a document are read to the last, or reading them fails as it does for each on its own: names of
columns of one table cannot clash, since they are names of one object. -/
private theorem tables_cases {definitions : Fields} (distinct : Json.Distinct (.object definitions)) (notes : Notes) :
    (∃ entries made, tableEntries definitions = .ok entries ∧
      (entries.filter fun entry => !entry.columns.isEmpty).mapM tableOf = .ok made ∧
        runWith (tables definitions) notes =
        (.ok made, entries.foldl (fun notes entry => notes.noted entry.name entry.columns) notes)) ∨
    ∃ fault left, tableEntries definitions = .error fault ∧ runWith (tables definitions) notes =
      (.error fault, left) := by
  cases distinct with | object names each =>
  induction definitions generalizing notes with
  | nil => exact .inl ⟨[], [], rfl, rfl, rfl⟩
  | cons definition rest ih =>
    obtain ⟨name, value⟩ := definition
    have later :=
      fun notes => ih notes (List.nodup_cons.mp names).2 fun field member => each field (List.mem_cons_of_mem _ member)
    by_cases object : ∃ fields, value = .object fields
    · obtain ⟨fields, rfl⟩ := object
      simp only [tables, tableEntries, runWith_bind]
      rcases columnsOf_cases name fields notes with ⟨entries, own, ran⟩ | ⟨fault, left, own, ran⟩
      · have apart := (tableEntry_names (each _ List.mem_cons_self) own).2
        have table : tableOf ⟨name, entries⟩ = .ok ⟨name, _, apart⟩ := tableOf_ok.mpr ⟨rfl, rfl⟩
        have named : unrepeated (Table.ofColumns name (entries.map ColumnEntry.column)) = .ok ⟨name, _, apart⟩ := table
        simp only [own, ran]
        rcases later (notes.noted name entries) with ⟨others, made, all, built, ran⟩ | ⟨fault, left, all, ran⟩
        · cases entries with
          | nil => exact .inl ⟨⟨name, []⟩ :: others, made, by rw [all]; rfl, built, ran⟩
          | cons first more =>
            refine .inl ⟨⟨name, first :: more⟩ :: others, ⟨name, _, apart⟩ :: made, by rw [all]; rfl, ?_, ?_⟩
            · rw [List.filter_cons_of_pos rfl, List.mapM_cons, table, built]
              rfl
            · rw [if_neg (by simp), runWith_bind, runWith_parsed, named]
              simp only [runWith_bind, ran, runWith_pure]
              rfl
        · refine .inr ⟨fault, left, by rw [all]; rfl, ?_⟩
          cases entries with
          | nil => exact ran
          | cons first more =>
            rw [if_neg (by simp), runWith_bind, runWith_parsed, named]
            simp only [runWith_bind, ran]
      · exact .inr ⟨fault, left, by rw [own]; rfl, by rw [ran]⟩
    · rw [tableEntries_skip object, tables_skip object]
      exact later notes

private theorem runWith_document {document : Value} (distinct : Json.Distinct document) (notes : Notes) :
    runWith (Pass.document document) notes =
      match read document with
      | .ok contents => (.ok contents.snapshot, contents.notes)
      | .error fault => (.error fault, notes) := by
  simp only [Pass.document, read, runWith_bind, runWith_parsed]
  cases object : fieldsOf document with
  | error fault => rfl
  | ok fields =>
    obtain rfl := fieldsOf_ok.mp object
    cases defined : definitions fields with
    | error fault => simp [bind, Except.bind, defined]
    | ok found =>
      have apart : Json.Distinct (.object found) := by
        rcases defines_of_definitions defined with defines | rfl
        · exact defines.distinct distinct
        · exact .object .nil (by simp)
      rcases tables_cases apart {} with ⟨entries, made, all, built, ran⟩ | ⟨fault, left, all, ran⟩
      · obtain ⟨_, snapshot, same, whole⟩ := snapshot_of_definitions apart all
        obtain rfl := Except.ok.inj (built.symm.trans same)
        simp [bind, Except.bind, defined, all, built, whole, ran, Notes.foldl_noted]
        rfl
      · simp [bind, Except.bind, defined, all, ran]

end Pass

/-- The name stands among the elements of what a definition requires. -/
def Requires (fields : Fields) (name : String) : Prop :=
  ∃ names, (fieldOf fields "required").elements? = some names ∧ .text name ∈ names

/-- The table that a definition describes: a column for each of its properties, which may be null unless it is
required. -/
structure Describing (fields : Fields) (table : Table) : Prop where
  columns : ∃ properties, fieldOf fields "properties" = .object properties ∧ properties ≠ [] ∧
    List.Forall₂ (fun property column => column.name = property.1 ∧
      (column.nullable = true ↔ ¬ Requires fields property.1))
      properties table.columns

private theorem mem_requiredNames {fields : Fields} {required : List String}
    (ends : requiredNames fields = .ok required) (name : String) :
    name ∈ required ↔ Requires fields name := by
  rw [requiredNames] at ends
  by_cases given : (fieldOf fields "required").isTruthy
  · rw [present?_of_truthy given] at ends
    obtain ⟨names, run, ends⟩ := bind_ok.mp ends
    obtain ⟨read, each, ends⟩ := bind_ok.mp ends
    obtain rfl := Except.ok.inj ends
    have named : ∀ value other, nameOf value = .ok (some other) ↔ value = .text other := by
      intro value other
      cases value <;> simp [nameOf]
    have all := mapM_ok_iff.mp each
    simp only [List.mem_filterMap, id_eq, exists_eq_right, Requires, elements_ok.mp run,
      Option.some_inj, exists_eq_left']
    constructor
    · intro member
      obtain ⟨value, inside, found⟩ := exists_of_mem all.flip member
      exact (named value name).mp found ▸ inside
    · intro member
      obtain ⟨found, inside, same⟩ := exists_of_mem all member
      obtain rfl : some name = found := Except.ok.inj (((named _ name).mpr rfl).symm.trans same)
      exact inside
  · rw [present?_of_not_truthy given] at ends
    obtain rfl := Except.ok.inj ends
    simp only [List.not_mem_nil, false_iff]
    rintro ⟨names, run, member⟩
    rw [eq_nil_of_elements given run] at member
    cases member

private theorem nullable_of_columnEntry {table name : String} {required : List String} {schema : Value}
    {entry : ColumnEntry}
    (ends : columnEntry table required name schema = .ok entry) : entry.column.nullable = true ↔ name ∉ required := by
  obtain ⟨_, _, _, nullable, _⟩ := parts_of_columnEntry ends
  simp [nullable]

private theorem describing_of_tableEntry {fields : Fields} {name : String} {entry : TableEntry}
    (ends : tableEntry name fields = .ok entry)
    (some : entry.columns ≠ []) {table : Table} (same : table.columns = entry.columns.map ColumnEntry.column) :
    Describing fields table := by
  obtain ⟨_, required, properties, named, given, each⟩ := parts_of_tableEntry ends
  have filled : properties ≠ [] := by
    rintro rfl
    exact some (List.forall₂_nil_left_iff.mp each)
  rw [properties_ok] at given
  split at given
  · refine ⟨properties, given, filled, ?_⟩
    rw [same, List.forall₂_map_right_iff]
    refine each.imp fun property column read => ⟨name_of_columnEntry read, ?_⟩
    rw [nullable_of_columnEntry read, mem_requiredNames named]
  · exact absurd given filled

section

variable {document : Fields} {contents : Contents} (ends : read (.object document) = .ok contents)

include ends

private theorem described_of_read {table : Table} (member : table ∈ contents.snapshot.tables) : ∃ definitions fields,
    Defines document definitions ∧ (table.name, .object fields) ∈ definitions ∧ Describing fields table := by
  obtain ⟨_, found, entries, tables, snapshot, object, defined, all, made, whole, rfl⟩ := read_ok.mp ends
  obtain rfl := Value.object.inj object
  have listed : table ∈ tables := (Snapshot.ofTables_ok.mp (unrepeated_ok.mp whole)).symm.subset member
  obtain ⟨entry, kept, built⟩ := exists_of_mem (mapM_ok_iff.mp made).flip listed
  obtain ⟨named, columns⟩ := tableOf_ok.mp built
  obtain ⟨inside, some⟩ := List.mem_filter.mp kept
  obtain ⟨name, fields, given, own⟩ := (mem_tableEntries all).mp inside
  refine ⟨found, fields, ?_, ?_, describing_of_tableEntry own (by simpa using some) columns⟩
  · rcases defines_of_definitions defined with defines | rfl
    · exact defines
    · cases given
  · rwa [named, (parts_of_tableEntry own).1]

private theorem exists_described {definitions fields : Fields} {name : String} (defines : Defines document definitions)
    (defined : (name, .object fields) ∈ definitions) {property : String × Value} {rest : Fields}
    (properties : fieldOf fields "properties" = .object (property :: rest)) :
    ∃ table ∈ contents.snapshot.tables, table.name = name ∧ Describing fields table := by
  obtain ⟨entries, reading⟩ := exists_reading ends
  obtain ⟨found, own, all⟩ := reading.found
  obtain rfl := Except.ok.inj ((definitions_of_defines defines).symm.trans own)
  obtain ⟨entry, read⟩ := (tableEntry_ok _ _).mpr (tableEntries_ok.mp ⟨entries, all⟩ _ _ defined)
  obtain ⟨named, required, columns, _, given, each⟩ := parts_of_tableEntry read
  rw [properties_ok, if_pos (isTruthy_of_mem properties List.mem_cons_self), properties] at given
  obtain rfl := Value.object.inj given
  have some : entry.columns ≠ [] := by
    intro none
    rw [none] at each
    cases each
  obtain ⟨table, listed, same, columns⟩ := reading.tables entry ((mem_tableEntries all).mpr ⟨_, _, defined, read⟩) some
  exact ⟨table, listed, same.trans named, describing_of_tableEntry read some columns⟩

end

namespace Pass

private theorem runWith_document_fresh {document : Value} (distinct : Json.Distinct document) (notes : Notes) :
    runWith (Pass.document document) notes = ((runWith (Pass.document document) {}).1,
      match (runWith (Pass.document document) {}).1 with
      | .ok _ => (runWith (Pass.document document) {}).2
      | .error _ => notes) := by
  rw [runWith_document distinct, runWith_document distinct]
  cases read document <;> rfl

private theorem run_inTurn (document : Value) (rest : List Value) (notes : Notes) :
    (inTurn (document :: rest)).run notes =
      ((runWith (Pass.document document) notes).1 :: ((inTurn rest).run (runWith (Pass.document document) notes).2).1,
        ((inTurn rest).run (runWith (Pass.document document) notes).2).2) := rfl

private theorem inTurn_results {documents : List Value} (distinct : ∀ document ∈ documents, Json.Distinct document)
    (notes : Notes) :
    ((inTurn documents).run notes).1 = documents.map fun document => (runWith (Pass.document document) {}).1 := by
  induction documents generalizing notes with
  | nil => rfl
  | cons document rest ih =>
    obtain ⟨own, others⟩ := List.forall_mem_cons.mp distinct
    rw [run_inTurn, List.map_cons, ih others, runWith_document_fresh own notes]

private theorem inTurn_append (documents others : List Value) (notes : Notes) :
    ((inTurn (documents ++ others)).run notes).2 = ((inTurn others).run ((inTurn documents).run notes).2).2 := by
  induction documents generalizing notes with
  | nil => rfl
  | cons document rest ih =>
    rw [List.cons_append, run_inTurn, run_inTurn]
    exact ih _

private theorem inTurn_kept {documents : List Value} (distinct : ∀ document ∈ documents, Json.Distinct document)
    {notes : Notes}
    (fails : ∀ document ∈ documents, ∃ fault, (runWith (Pass.document document) {}).1 = .error fault) :
    ((inTurn documents).run notes).2 = notes := by
  induction documents with
  | nil => rfl
  | cons document rest ih =>
    obtain ⟨own, others⟩ := List.forall_mem_cons.mp distinct
    obtain ⟨⟨fault, first⟩, later⟩ := List.forall_mem_cons.mp fails
    have same : (runWith (Pass.document document) notes).2 = notes := by rw [runWith_document_fresh own, first]
    rw [run_inTurn, same]
    exact ih others later

end Pass

open Pass in
/-- Documents are read one after the other. Each is read as if it were the only one, and it can be read exactly if it
has the right shape. What is kept in the end is what the last document that can be read leaves in a reader that has
read nothing, or, if none can be read, what was there. The tables of a document that is read are those of the
definitions with properties, with a column for each property in their order, and what is kept of it are the enumerated
types and references that are read of it. -/
theorem documents_in_turn {documents : List Value} (distinct : ∀ document ∈ documents, Json.Distinct document)
    (notes : Notes) :
    ((inTurn documents).run notes).1 = documents.map (fun document => (runWith (Pass.document document) {}).1) ∧
    ((∀ document ∈ documents, ∃ fault, (runWith (Pass.document document) {}).1 = .error fault) →
      ((inTurn documents).run notes).2 = notes) ∧
    (∀ earlier document later, documents = earlier ++ document :: later →
      (∃ snapshot, (runWith (Pass.document document) {}).1 = .ok snapshot) →
      (∀ other ∈ later, ∃ fault, (runWith (Pass.document other) {}).1 = .error fault) →
      ((inTurn documents).run notes).2 = (runWith (Pass.document document) {}).2) ∧
    ∀ document, .object document ∈ documents →
      ((∃ snapshot, (runWith (Pass.document (.object document)) {}).1 = .ok snapshot) ↔ Shape document) ∧
      ∀ snapshot, (runWith (Pass.document (.object document)) {}).1 = .ok snapshot →
        (∀ table ∈ snapshot.tables, ∃ definitions fields, Defines document definitions ∧
          (table.name, .object fields) ∈ definitions ∧ Describing fields table) ∧
        (∀ definitions name fields property rest, Defines document definitions → (name, .object fields) ∈ definitions →
          fieldOf fields "properties" = .object (property :: rest) →
          ∃ table ∈ snapshot.tables, table.name = name ∧ Describing fields table) ∧
        ∃ contents, read (.object document) = .ok contents ∧ contents.snapshot = snapshot ∧
          (runWith (Pass.document (.object document)) {}).2 = contents.notes := by
  refine ⟨inTurn_results distinct notes, inTurn_kept distinct, ?_, fun document member => ?_⟩
  · rintro earlier document later rfl ⟨snapshot, ends⟩ fails
    have own := distinct document (by simp)
    have others : ∀ other ∈ later, Json.Distinct other := fun other member => distinct other (by simp [member])
    rw [inTurn_append, run_inTurn, runWith_document_fresh own, ends]
    exact inTurn_kept others fails
  · have own := distinct _ member
    rw [← read_ok_iff own, runWith_document own]
    cases found : read (.object document) with
    | error fault => simp
    | ok contents =>
      refine ⟨by simp, fun snapshot ends => ?_⟩
      obtain rfl := Except.ok.inj ends
      exact ⟨fun table => described_of_read found, fun definitions name fields property rest defines defined =>
        exists_described found defines defined, contents, rfl, rfl, rfl⟩

namespace Twins

def users : Fields := [("required", .list [.text "rank"]), ("properties", .object [
  ("rank", .object [("enum", .list [.text "low"])]), ("role", .object [("enum", .list [.text "admin"])])])]

/-- A document with one table, and a definition without columns. -/
def whole : Fields := [("definitions", .object [("users", .object users), ("nothing", .object [])])]

/-- The same table with other values, and then with a column that is none. -/
def broken : Fields := [("definitions", .object [
  ("users",
    .object [("properties", .object [("role", .object [("enum", .list [.text "guest"])]), ("rank", .int 5)])])])]

private theorem distinct_whole : Json.Distinct (.object whole) := by
  simp [whole, users, Json.distinct_object, Json.distinct_list, Json.Distinct.text, Keyed.names]

private theorem distinct_broken : Json.Distinct (.object broken) := by
  simp [broken, Json.distinct_object, Json.distinct_list, Json.Distinct.text, Json.Distinct.int, Keyed.names]

private theorem read_whole :
    ∃ contents, read (.object whole) = .ok contents ∧
      contents.enums = [("users_rank", ["low"]), ("users_role", ["admin"])] :=
  ⟨_, rfl, rfl⟩

end Twins

open Pass Twins in
/-- The values that a document gives before it turns out to be broken do not take the place of those of the document
before. -/
theorem broken_after_whole : (∀ document ∈ [Value.object whole, .object broken], Json.Distinct document) ∧
    ((inTurn [.object whole, .object broken]).run {}).2.enums = [("users_rank", ["low"]), ("users_role", ["admin"])] ∧
    ∃ snapshot, (runWith (Pass.document (.object whole)) {}).1 = .ok snapshot ∧
      ∃ table ∈ snapshot.tables, table.name = "users" ∧ Describing users table := by
  have distinct : ∀ document ∈ [Value.object whole, .object broken], Json.Distinct document := by
    simp [distinct_whole, distinct_broken]
  obtain ⟨_, _, last, each⟩ := documents_in_turn distinct {}
  obtain ⟨contents, ends, enums⟩ := read_whole
  have own := runWith_document distinct_whole {}
  rw [ends] at own
  have fails : ∃ fault, (runWith (Pass.document (.object broken)) {}).1 = .error fault := ⟨_, rfl⟩
  have described :=
    ((each whole List.mem_cons_self).2 _ (congrArg Prod.fst own)).2.1 _ "users" users _ _
      (.inl rfl) List.mem_cons_self rfl
  refine ⟨distinct, ?_, contents.snapshot, congrArg Prod.fst own, described⟩
  rw [last [] _ [.object broken] rfl ⟨_, congrArg Prod.fst own⟩ (by simpa using fails), own]
  exact enums

end TableModels.Document
