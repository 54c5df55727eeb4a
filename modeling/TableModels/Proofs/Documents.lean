import TableModels.Proofs.Described
import TableModels.Document.Basic

/-! Schema documents that can be read. A document is read exactly if the parts of it that are looked at have the right
kinds. -/

namespace TableModels.Document

open Schema

variable {fields document : Fields} {name : String}

/-- What can be compared as a name: anything but a list and an object. -/
def Nameable (value : Value) : Prop := (∀ items, value ≠ .list items) ∧ ∀ fields, value ≠ .object fields

/-- Fields from which a type can be told: by a format that is known, for an array by its items, or else by a type that
can be compared as a name. -/
inductive Typed : Fields → Prop where
  | format {fields : Fields} (known : (typeOfFormat? (fieldOf fields "format")).isSome) : Typed fields
  | array {fields : Fields} (kind : fieldOf fields "type" = .text "array")
      (items : ∀ inner, fieldOf fields "items" = .object inner → Typed inner) : Typed fields
  | plain {fields : Fields} (kind : Nameable (fieldOf fields "type")) (single : fieldOf fields "type" ≠
      .text "array") : Typed fields

/-- The fields of a column: those that are given are a collection of values, or else what a type can be told from, and
a text. -/
structure ColumnShape (fields : Fields) : Prop where
  values : (fieldOf fields "enum").isTruthy → ∃ values, (fieldOf fields "enum").elements? = some values
  type : ¬ (fieldOf fields "enum").isTruthy → Typed fields
  description : (fieldOf fields "description").isTruthy → ∃ text, fieldOf fields "description" = .text text

/-- The fields of a table: those that are given are a collection of names and an object of columns. -/
structure TableShape (fields : Fields) : Prop where
  required : (fieldOf fields "required").isTruthy →
    ∃ names, (fieldOf fields "required").elements? = some names ∧ ∀ name ∈ names, Nameable name
  properties : (fieldOf fields "properties").isTruthy → ∃ properties, fieldOf fields "properties" = .object properties ∧
    ∀ property ∈ properties, ∃ column, property.2 = .object column ∧ ColumnShape column

/-- The definitions in a document of either kind. -/
def Defines (document definitions : Fields) : Prop :=
  fieldOf document "definitions" = .object definitions ∨ fieldOf document "definitions" = .null ∧
    ∃ components, fieldOf document "components" = .object components ∧ fieldOf components "schemas" =
      .object definitions

/-- A document that can be read. A definition that is no object is none of a table. -/
structure Shape (document : Fields) : Prop where
  components : fieldOf document "definitions" = .null → (fieldOf document "components").isTruthy →
    ∃ components, fieldOf document "components" = .object components
  tables : ∀ definitions, Defines document definitions → ∀ name fields, (name, .object fields) ∈ definitions →
    TableShape fields

private theorem mem_of_fieldOf {value : Value} (found : fieldOf fields name = value) (some : value ≠ .null) :
    (name, value) ∈ fields := by
  rw [fieldOf] at found
  cases got : Keyed.get? fields name with
  | none => exact absurd (by simpa [got] using found.symm) some
  | some given =>
    obtain rfl : given = value := by simpa [got] using found
    exact Keyed.mem_of_get? got

theorem sizeOf_fieldOf {inner : Fields} (found : fieldOf fields name = .object inner) :
    sizeOf inner < sizeOf fields := by
  have smaller := List.sizeOf_lt_of_mem (mem_of_fieldOf found (by simp))
  simp only [Prod.mk.sizeOf_spec, Value.object.sizeOf_spec] at smaller
  omega

theorem fieldsOf_ok {value : Value} : fieldsOf value = .ok fields ↔ value = .object fields := by
  cases value <;> simp [fieldsOf]

theorem present?_of_truthy {value : Value} (truthy : value.isTruthy = true) : present? value = some value := by
  rw [present?, if_pos truthy]

theorem present?_of_not_truthy {value : Value} (missing : ¬ value.isTruthy = true) : present? value = none := by
  rw [present?, if_neg missing]

theorem elements_ok {value : Value} {items : List Value} :
    elements value = .ok items ↔ value.elements? = some items := by
  rw [elements]
  cases value.elements? <;> simp

/-- Nothing that counts as present runs through no items. -/
theorem ne_nil_of_elements {value : Value} {items : List Value} (truthy : value.isTruthy = true)
    (elements : value.elements? = some items) :
    items ≠ [] := by
  rintro rfl
  cases value <;> simp_all [Value.isTruthy, Value.elements?]

/-- What does not count as present has no items. -/
theorem eq_nil_of_elements {value : Value} {items : List Value} (missing : ¬ value.isTruthy = true)
    (elements : value.elements? = some items) :
    items = [] := by
  cases value <;> simp_all [Value.isTruthy, Value.elements?]

private theorem arrayType_eq (fields : Fields) : arrayType fields = match fieldOf fields "items" with
    | .object items => (columnType items).map (· ++ Typing.SourceType.arrayMark)
    | _ => .ok "jsonb" := by
  induction fields with
  | nil =>
    rw [arrayType]
    rfl
  | cons field rest ih =>
    obtain ⟨given, value⟩ := field
    rw [arrayType.eq_def]
    by_cases own : given = "items"
    · subst own
      have found : fieldOf (("items", value) :: rest) "items" = value := by simp [fieldOf, Keyed.get?]
      rw [found]
      cases value <;> simp
    · have other : fieldOf ((given, value) :: rest) "items" = fieldOf rest "items" := by
        have apart : ("items" == given) = false := by simpa using Ne.symm own
        simp [fieldOf, Keyed.get?, List.lookup_cons, apart]
      simp [own, other, ih]

private theorem typeOfJson_ok {value : Value} : (∃ type, typeOfJson value = .ok type) ↔ Nameable value := by
  cases value <;> simp [typeOfJson, Nameable]

section

variable (unknown : typeOfFormat? (fieldOf fields "format") = none)

include unknown

theorem columnType_of_array (kind : fieldOf fields "type" = .text "array") :
    columnType fields = match fieldOf fields "items" with
    | .object items => (columnType items).map (· ++ Typing.SourceType.arrayMark)
    | _ => .ok "jsonb" := by
  rw [← arrayType_eq, columnType, unknown]
  simp [kind, isArray]

theorem columnType_of_items (kind : fieldOf fields "type" = .text "array") {inner : Fields}
    (items : fieldOf fields "items" = .object inner) :
    columnType fields = (columnType inner).map (· ++ Typing.SourceType.arrayMark) := by
  rw [columnType_of_array unknown kind, items]

theorem columnType_of_single (single : fieldOf fields "type" ≠ .text "array") :
    columnType fields = typeOfJson (fieldOf fields "type") := by
  rw [columnType, unknown]
  cases type : fieldOf fields "type" <;> simp_all [isArray]

end

theorem columnType_of_format {type : String} (known : typeOfFormat? (fieldOf fields "format") = some type) :
    columnType fields = .ok type := by
  rw [columnType, known]

private theorem columnType_ok (fields : Fields) : (∃ type, columnType fields = .ok type) ↔ Typed fields := by
  cases known : typeOfFormat? (fieldOf fields "format") with
  | some type => exact ⟨fun _ => .format (by simp [known]), fun _ => ⟨type, columnType_of_format known⟩⟩
  | none =>
    by_cases kind : fieldOf fields "type" = .text "array"
    · rw [columnType_of_array known kind]
      have typed : Typed fields ↔ ∀ inner, fieldOf fields "items" = .object inner → Typed inner := by
        refine ⟨fun typed => ?_, .array kind⟩
        cases typed with
        | format named => simp [known] at named
        | array _ items => exact items
        | plain _ single => exact absurd kind single
      rw [typed]
      cases items : fieldOf fields "items" with
      | object inner =>
        have smaller := sizeOf_fieldOf items
        have told := columnType_ok inner
        simp only [Value.object.injEq, forall_eq', ← told]
        cases columnType inner <;> simp [Except.map]
      | _ => simp
    · rw [columnType_of_single known kind, typeOfJson_ok]
      refine ⟨fun nameable => .plain nameable kind, fun typed => ?_⟩
      cases typed with
      | format named => simp [known] at named
      | array array _ => exact absurd array kind
      | plain nameable _ => exact nameable
termination_by sizeOf fields

private theorem description_ok : (∃ text, description fields = .ok text) ↔
    ((fieldOf fields "description").isTruthy → ∃ text, fieldOf fields "description" = .text text) := by
  rw [description]
  by_cases given : (fieldOf fields "description").isTruthy
  · rw [present?_of_truthy given]
    simp only [given, forall_const]
    cases fieldOf fields "description" <;> simp
  · rw [present?_of_not_truthy given]
    simp [given]

private theorem columnEntry_ok (table : String) (required : List String) (name : String) (schema : Value) :
    (∃ entry, columnEntry table required name schema = .ok entry) ↔ ∃ fields, schema = .object fields ∧
      ColumnShape fields := by
  by_cases object : ∃ fields, schema = .object fields
  · obtain ⟨fields, rfl⟩ := object
    have shape : (∃ given, Value.object fields = .object given ∧ ColumnShape given) ↔ ColumnShape fields := by simp
    rw [shape, columnEntry]
    by_cases given : (fieldOf fields "enum").isTruthy
    · have reads : ColumnShape fields ↔ (∃ values, elements (fieldOf fields "enum") = .ok values) ∧
          ∃ text, description fields = .ok text := by
        simp only [elements_ok, description_ok]
        constructor
        · exact fun shape => ⟨shape.values given, shape.description⟩
        · rintro ⟨values, text⟩
          exact ⟨fun _ => values, absurd given, text⟩
      rw [reads]
      simp only [fieldsOf, present?_of_truthy given, bind, Except.bind, pure, Except.pure]
      cases elements (fieldOf fields "enum") <;> cases description fields <;> simp
    · have reads : ColumnShape fields ↔ (∃ type, columnType fields = .ok type) ∧ ∃ text,
          description fields = .ok text := by
        simp only [columnType_ok, description_ok]
        constructor
        · exact fun shape => ⟨shape.type given, shape.description⟩
        · rintro ⟨type, text⟩
          exact ⟨fun is => absurd is given, fun _ => type, text⟩
      rw [reads]
      simp only [fieldsOf, present?_of_not_truthy given, bind, Except.bind, pure, Except.pure]
      cases columnType fields <;> cases description fields <;> simp
  · constructor
    · rintro ⟨entry, ends⟩
      obtain ⟨fields, found, _⟩ := bind_ok.mp ends
      exact absurd ⟨fields, fieldsOf_ok.mp found⟩ object
    · rintro ⟨fields, same, _⟩
      exact absurd ⟨fields, same⟩ object

/-- All that is read of a column: its name, whether it may be empty and the text of its default, and the values that
its fields enumerate with the type that is named for them, or else the type that is told of its fields. -/
theorem parts_of_columnEntry {table name : String} {required : List String} {schema : Value} {entry : ColumnEntry}
    (ends : columnEntry table required name schema = .ok entry) :
    ∃ fields, schema = .object fields ∧ entry.column.name = name ∧
      entry.column.nullable = !required.contains name ∧ entry.column.default = defaultText (fieldOf fields "default") ∧
      ((fieldOf fields "enum").isTruthy = true ∧ (∃ values, (fieldOf fields "enum").elements? = some values ∧
          entry.values = some (values.map Value.toText)) ∧ entry.column.sourceType = enumName table name ∨
        (fieldOf fields "enum").isTruthy = false ∧ entry.values = none ∧
          columnType fields = .ok entry.column.sourceType) := by
  obtain ⟨fields, object, ends⟩ := bind_ok.mp ends
  refine ⟨fields, fieldsOf_ok.mp object, ?_⟩
  cases given : (fieldOf fields "enum").isTruthy with
  | true =>
    simp only [present?_of_truthy given, bind, Except.bind, pure, Except.pure] at ends
    cases values : elements (fieldOf fields "enum") <;> cases text : description fields <;> simp [values, text] at ends
    subst ends
    exact ⟨rfl, by simp, rfl, .inl ⟨rfl, ⟨_, elements_ok.mp values, rfl⟩, rfl⟩⟩
  | false =>
    simp only [present?_of_not_truthy (Bool.eq_false_iff.mp given), bind, Except.bind, pure, Except.pure] at ends
    cases type : columnType fields <;> cases text : description fields <;> simp [type, text] at ends
    subst ends
    exact ⟨rfl, by simp, rfl, .inr ⟨rfl, rfl, rfl⟩⟩

theorem name_of_columnEntry {table : String} {required : List String} {schema : Value} {entry : ColumnEntry}
    (ends : columnEntry table required name schema = .ok entry) : entry.column.name = name := by
  obtain ⟨_, _, named, _⟩ := parts_of_columnEntry ends
  exact named

theorem enumerated_of_columnEntry {table name : String} {required : List String} {entry : ColumnEntry}
    {values : List Value}
    (ends : columnEntry table required name (.object fields) = .ok entry)
    (given : (fieldOf fields "enum").isTruthy = true)
    (elements : (fieldOf fields "enum").elements? = some values) :
    entry.values = some (values.map Value.toText) ∧ entry.column.sourceType = enumName table name := by
  obtain ⟨_, object, _, _, _, kind⟩ := parts_of_columnEntry ends
  obtain rfl := Value.object.inj object
  rcases kind with ⟨_, ⟨own, same, valued⟩, typed⟩ | ⟨missing, _⟩
  · obtain rfl := Option.some.inj (elements.symm.trans same)
    exact ⟨valued, typed⟩
  · rw [given] at missing
    cases missing

private theorem nameOf_ok {value : Value} : (∃ name, nameOf value = .ok name) ↔ Nameable value := by
  cases value <;> simp [nameOf, Nameable]

private theorem requiredNames_ok : (∃ names, requiredNames fields = .ok names) ↔ ((fieldOf fields "required").isTruthy →
    ∃ names, (fieldOf fields "required").elements? = some names ∧ ∀ name ∈ names, Nameable name) := by
  rw [requiredNames]
  by_cases given : (fieldOf fields "required").isTruthy
  · rw [present?_of_truthy given]
    simp only [given, forall_const]
    constructor
    · rintro ⟨_, ends⟩
      obtain ⟨names, run, ends⟩ := bind_ok.mp ends
      obtain ⟨read, each, _⟩ := bind_ok.mp ends
      exact ⟨names, elements_ok.mp run, fun name member => nameOf_ok.mp (mapM_ends_iff.mp ⟨read, each⟩ name member)⟩
    · rintro ⟨names, run, each⟩
      obtain ⟨read, done⟩ := mapM_ends_iff.mpr fun name member => nameOf_ok.mpr (each name member)
      exact ⟨_, bind_ok.mpr ⟨names, elements_ok.mpr run, bind_ok.mpr ⟨read, done, rfl⟩⟩⟩
  · rw [present?_of_not_truthy given]
    simp [given]

theorem properties_ok {columns : Fields} : properties fields = .ok columns ↔
    if (fieldOf fields "properties").isTruthy then fieldOf fields "properties" = .object columns else columns = [] := by
  rw [properties]
  by_cases given : (fieldOf fields "properties").isTruthy
  · rw [present?_of_truthy given, if_pos given]
    cases fieldOf fields "properties" <;> simp
  · rw [present?_of_not_truthy given, if_neg given]
    simp [eq_comm]

theorem tableEntry_ok (name : String) (fields : Fields) :
    (∃ entry, tableEntry name fields = .ok entry) ↔ TableShape fields := by
  constructor
  · rintro ⟨entry, ends⟩
    obtain ⟨required, named, ends⟩ := bind_ok.mp ends
    obtain ⟨columns, given, ends⟩ := bind_ok.mp ends
    obtain ⟨entries, each, _⟩ := bind_ok.mp ends
    refine ⟨requiredNames_ok.mp ⟨required, named⟩, fun truthy => ?_⟩
    rw [properties_ok, if_pos truthy] at given
    exact ⟨columns, given,
      fun property member => (columnEntry_ok _ _ _ _).mp (mapM_ends_iff.mp ⟨entries, each⟩ property member)⟩
  · intro shape
    obtain ⟨required, named⟩ := requiredNames_ok.mpr shape.required
    obtain ⟨columns, given, described⟩ : ∃ columns, properties fields = .ok columns ∧
        ∀ property ∈ columns, ∃ column, property.2 = .object column ∧ ColumnShape column := by
      simp only [properties_ok]
      by_cases truthy : (fieldOf fields "properties").isTruthy
      · simpa only [if_pos truthy] using shape.properties truthy
      · exact ⟨[], by rw [if_neg truthy], by simp⟩
    obtain ⟨entries, each⟩ := mapM_ends_iff.mpr fun property member =>
      (columnEntry_ok name required property.1 property.2).mpr (described property member)
    exact ⟨_, bind_ok.mpr ⟨required, named, bind_ok.mpr ⟨columns, given, bind_ok.mpr ⟨entries, each, rfl⟩⟩⟩⟩

private theorem Distinct.fieldOf_object {inner : Fields} (distinct : Json.Distinct (.object fields))
    (found : fieldOf fields name = .object inner) :
    Json.Distinct (.object inner) := by
  cases distinct with
  | object _ each => exact each _ (mem_of_fieldOf found (by simp))

private theorem columnEntries_names {table : String} {required : List String} {columns : Fields}
    {entries : List ColumnEntry}
    (each : List.Forall₂ (fun property entry => columnEntry table required property.1 property.2 =
      .ok entry) columns entries) :
    (entries.map ColumnEntry.column).map Column.name = Keyed.names columns := by
  rw [List.map_map]
  exact map_eq_of_each each fun own => name_of_columnEntry own

/-- What is read of a table has its name, and a column for each property, given the names that it requires. -/
theorem parts_of_tableEntry {entry : TableEntry} (ends : tableEntry name fields = .ok entry) : entry.name = name ∧
    ∃ required columns, requiredNames fields = .ok required ∧ properties fields = .ok columns ∧
      List.Forall₂ (fun property column => columnEntry name required property.1 property.2 =
        .ok column) columns entry.columns := by
  obtain ⟨required, named, ends⟩ := bind_ok.mp ends
  obtain ⟨columns, given, ends⟩ := bind_ok.mp ends
  obtain ⟨entries, each, ends⟩ := bind_ok.mp ends
  obtain rfl := Except.ok.inj ends
  exact ⟨rfl, required, columns, named, given, mapM_ok_iff.mp each⟩

theorem isTruthy_of_mem {columns : Fields} {property : String × Value}
    (properties : fieldOf fields "properties" = .object columns)
    (inside : property ∈ columns) : (fieldOf fields "properties").isTruthy = true := by
  rw [properties]
  cases columns with
  | nil => cases inside
  | cons _ _ => rfl

/-- What is read of a table has its name, and columns that differ in their names. -/
theorem tableEntry_names (distinct : Json.Distinct (.object fields)) {entry : TableEntry}
    (ends : tableEntry name fields = .ok entry) :
    entry.name = name ∧ ((entry.columns.map ColumnEntry.column).map Column.name).Nodup := by
  obtain ⟨named, required, columns, _, given, each⟩ := parts_of_tableEntry ends
  refine ⟨named, ?_⟩
  rw [columnEntries_names each]
  rw [properties_ok] at given
  split at given
  · cases Distinct.fieldOf_object distinct given with
    | object distinct _ => exact distinct
  · rw [given]
    exact .nil

/-- A definition that is no object is passed over. -/
theorem tableEntries_skip {value : Value} {rest : Fields} (other : ¬ ∃ fields, value = .object fields) :
    tableEntries ((name, value) :: rest) = tableEntries rest := by
  cases value with
  | object fields => exact absurd ⟨fields, rfl⟩ other
  | _ => rfl

theorem tableEntries_ok {definitions : Fields} : (∃ entries, tableEntries definitions = .ok entries) ↔
    ∀ name fields, (name, .object fields) ∈ definitions → TableShape fields := by
  induction definitions with
  | nil => simp [tableEntries]
  | cons definition rest ih =>
    obtain ⟨name, value⟩ := definition
    by_cases object : ∃ fields, value = .object fields
    · obtain ⟨fields, rfl⟩ := object
      rw [tableEntries]
      constructor
      · rintro ⟨_, ends⟩
        obtain ⟨entry, first, ends⟩ := bind_ok.mp ends
        obtain ⟨others, later, _⟩ := bind_ok.mp ends
        rintro other given (_ | ⟨_, member⟩)
        · exact (tableEntry_ok name fields).mp ⟨entry, first⟩
        · exact ih.mp ⟨others, later⟩ other given member
      · intro each
        obtain ⟨entry, first⟩ := (tableEntry_ok name fields).mpr (each name fields List.mem_cons_self)
        obtain ⟨others, later⟩ := ih.mpr fun other given member => each other given (List.mem_cons_of_mem _ member)
        exact ⟨_, bind_ok.mpr ⟨entry, first, bind_ok.mpr ⟨others, later, rfl⟩⟩⟩
    · rw [tableEntries_skip object, ih]
      refine ⟨fun each other fields member => ?_,
        fun each other fields member => each other fields (List.mem_cons_of_mem _ member)⟩
      rcases List.mem_cons.mp member with same | later
      · exact absurd ⟨fields, (Prod.mk.inj same).2.symm⟩ object
      · exact each other fields later

/-- The tables that are read are those of the definitions that are objects. -/
theorem mem_tableEntries {definitions : Fields} {entries : List TableEntry}
    (ends : tableEntries definitions = .ok entries) {entry : TableEntry} :
    entry ∈ entries ↔ ∃ name fields, (name, .object fields) ∈ definitions ∧ tableEntry name fields = .ok entry := by
  induction definitions generalizing entries with
  | nil =>
    obtain rfl := Except.ok.inj ends
    simp
  | cons definition rest ih =>
    obtain ⟨given, value⟩ := definition
    by_cases object : ∃ fields, value = .object fields
    · obtain ⟨inner, rfl⟩ := object
      rw [tableEntries] at ends
      obtain ⟨first, own, ends⟩ := bind_ok.mp ends
      obtain ⟨later, read, ends⟩ := bind_ok.mp ends
      obtain rfl := Except.ok.inj ends
      simp [ih read, or_and_right, exists_or, and_assoc, own, eq_comm]
    · rw [tableEntries_skip object] at ends
      rw [ih ends]
      constructor
      · intro found
        obtain ⟨name, fields, member, own⟩ := found
        exact ⟨name, fields, List.mem_cons_of_mem _ member, own⟩
      · intro found
        obtain ⟨name, fields, member, own⟩ := found
        rcases List.mem_cons.mp member with same | member
        · exact absurd ⟨fields, (Prod.mk.inj same).2.symm⟩ object
        · exact ⟨name, fields, member, own⟩

private theorem tableEntries_names {definitions : Fields} (distinct : Json.Distinct (.object definitions))
    {entries : List TableEntry}
    (ends : tableEntries definitions = .ok entries) : (entries.map TableEntry.name).Sublist (Keyed.names definitions) ∧
      ∀ entry ∈ entries, ((entry.columns.map ColumnEntry.column).map Column.name).Nodup := by
  cases distinct with | object names each =>
  induction definitions generalizing entries with
  | nil =>
    obtain rfl : [] = entries := by simpa [tableEntries] using ends
    exact ⟨.slnil, by simp⟩
  | cons definition rest ih =>
    obtain ⟨name, value⟩ := definition
    have apart := (List.nodup_cons.mp names).2
    have inner : ∀ field ∈ rest, Json.Distinct field.2 := fun field member => each field (List.mem_cons_of_mem _ member)
    by_cases object : ∃ fields, value = .object fields
    · obtain ⟨fields, rfl⟩ := object
      rw [tableEntries] at ends
      obtain ⟨entry, first, ends⟩ := bind_ok.mp ends
      obtain ⟨later, read, ends⟩ := bind_ok.mp ends
      obtain rfl := Except.ok.inj ends
      obtain ⟨named, columns⟩ := tableEntry_names (each _ List.mem_cons_self) first
      obtain ⟨sublist, more⟩ := ih read apart inner
      exact ⟨named ▸ sublist.cons_cons _, List.forall_mem_cons.mpr ⟨columns, more⟩⟩
    · rw [tableEntries_skip object] at ends
      obtain ⟨sublist, more⟩ := ih ends apart inner
      exact ⟨sublist.cons _, more⟩

theorem definitions_of_defines {found : Fields} (defines : Defines document found) :
    definitions document = .ok found := by
  rcases defines with direct | ⟨none, components, given, schemas⟩
  · rw [definitions, direct]
    rfl
  · have truthy : (fieldOf document "components").isTruthy := by
      rw [given]
      cases components with
      | nil => simp [fieldOf, Keyed.get?] at schemas
      | cons _ _ => rfl
    rw [definitions, none, present?_of_truthy truthy, given]
    simp only [fieldsOf, schemas, bind, Except.bind, pure, Except.pure]

private theorem definitions_ok : (∃ found, definitions document = .ok found) ↔ (fieldOf document "definitions" = .null →
    (fieldOf document "components").isTruthy → ∃ components, fieldOf document "components" = .object components) := by
  rw [definitions]
  cases own : fieldOf document "definitions" with
  | null =>
    by_cases given : (fieldOf document "components").isTruthy
    · rw [present?_of_truthy given]
      simp only [given, forall_const]
      cases components : fieldOf document "components" with
      | object fields =>
        simp only [fieldsOf, bind, Except.bind, pure, Except.pure]
        cases fieldOf fields "schemas" <;> simp
      | _ => simp [fieldsOf, bind, Except.bind]
    · rw [present?_of_not_truthy given]
      simp [given, bind, Except.bind, pure, Except.pure]
  | _ => simp [bind, Except.bind, pure, Except.pure]

/-- Definitions that are found are those of the document. -/
theorem defines_of_definitions {found : Fields} (ends : definitions document = .ok found) :
    Defines document found ∨ found = [] := by
  rw [definitions] at ends
  cases own : fieldOf document "definitions" with
  | null =>
    rw [own] at ends
    by_cases given : (fieldOf document "components").isTruthy
    · rw [present?_of_truthy given] at ends
      cases components : fieldOf document "components" with
      | object fields =>
        simp only [components, fieldsOf, bind, Except.bind, pure, Except.pure] at ends
        cases schemas : fieldOf fields "schemas" with
        | object inner =>
          obtain rfl : inner = found := by simpa [schemas] using ends
          exact .inl (.inr ⟨own, fields, components, schemas⟩)
        | _ => exact .inr (by simpa [schemas, eq_comm] using ends)
      | _ => simp [components, fieldsOf, bind, Except.bind] at ends
    · rw [present?_of_not_truthy given] at ends
      exact .inr (by simpa [bind, Except.bind, pure, Except.pure, eq_comm] using ends)
  | object inner =>
    obtain rfl : inner = found := by simpa [own, bind, Except.bind, pure, Except.pure] using ends
    exact .inl (.inl own)
  | _ => exact .inr (by simpa [own, bind, Except.bind, pure, Except.pure, eq_comm] using ends)

theorem Defines.distinct {found : Fields} (distinct : Json.Distinct (.object document))
    (defines : Defines document found) :
    Json.Distinct (.object found) := by
  rcases defines with direct | ⟨_, components, given, schemas⟩
  · exact Distinct.fieldOf_object distinct direct
  · exact Distinct.fieldOf_object (Distinct.fieldOf_object distinct given) schemas

theorem unrepeated_ok {α : Type} {result : Except Clash α} {value : α} :
    unrepeated result = .ok value ↔ result = .ok value := mapError_ok

theorem tableOf_ok {entry : TableEntry} {table : Table} :
    tableOf entry = .ok table ↔ table.name = entry.name ∧ table.columns = entry.columns.map ColumnEntry.column := by
  rw [tableOf, unrepeated_ok, Table.ofColumns_ok]

private theorem snapshot_of_entries {entries : List TableEntry} (names : (entries.map TableEntry.name).Nodup)
    (columns : ∀ entry ∈ entries, ((entry.columns.map ColumnEntry.column).map Column.name).Nodup) :
    ∃ tables snapshot, entries.mapM tableOf = .ok tables ∧ unrepeated (Snapshot.ofTables tables) = .ok snapshot := by
  obtain ⟨tables, made⟩ := mapM_ends_iff.mpr fun entry member =>
    ⟨(⟨entry.name, _, columns entry member⟩ : Table), tableOf_ok.mpr ⟨rfl, rfl⟩⟩
  have same : tables.map Table.name = entries.map TableEntry.name :=
    map_eq_of_each (mapM_ok_iff.mp made) fun own => (tableOf_ok.mp own).1
  refine ⟨tables, Snapshot.empty.replace tables, made, unrepeated_ok.mpr ?_⟩
  rw [Snapshot.ofTables, repeated?_of_nodup (same ▸ names)]

/-- What is read of definitions makes up a schema: the names of tables, and those of the columns of one table, are
names of one object. -/
theorem snapshot_of_definitions {definitions : Fields} (distinct : Json.Distinct (.object definitions))
    {entries : List TableEntry}
    (read : tableEntries definitions = .ok entries) : ∃ tables snapshot,
      (entries.filter fun entry => !entry.columns.isEmpty).mapM tableOf = .ok tables ∧
        unrepeated (Snapshot.ofTables tables) = .ok snapshot := by
  obtain ⟨sublist, columns⟩ := tableEntries_names distinct read
  have names : (entries.map TableEntry.name).Nodup := by
    cases distinct with
    | object names _ => exact names.sublist sublist
  have kept : (entries.filter fun entry => !entry.columns.isEmpty).Sublist entries := List.filter_sublist
  exact snapshot_of_entries (names.sublist (kept.map _)) fun entry member => columns entry (kept.subset member)

/-- What a document gives: its definitions, the tables that they describe and the schema of those that have columns. -/
theorem read_ok {value : Value} {contents : Contents} : read value = .ok contents ↔
    ∃ document found entries tables snapshot, value = .object document ∧ definitions document = .ok found ∧
      tableEntries found = .ok entries ∧
      (entries.filter fun entry => !entry.columns.isEmpty).mapM tableOf = .ok tables ∧
        unrepeated (Snapshot.ofTables tables) = .ok snapshot ∧
      contents = { snapshot, enums := enumsOf entries, foreignKeys := foreignKeysOf entries } := by
  constructor
  · intro ends
    obtain ⟨document, object, ends⟩ := bind_ok.mp ends
    obtain ⟨found, defined, ends⟩ := bind_ok.mp ends
    obtain ⟨entries, all, ends⟩ := bind_ok.mp ends
    obtain ⟨tables, made, ends⟩ := bind_ok.mp ends
    obtain ⟨snapshot, whole, ends⟩ := bind_ok.mp ends
    exact ⟨document, found, entries, tables, snapshot, fieldsOf_ok.mp object, defined, all, made, whole,
      (Except.ok.inj ends).symm⟩
  · rintro ⟨document, found, entries, tables, snapshot, rfl, defined, all, made, whole, rfl⟩
    exact bind_ok.mpr ⟨document, rfl, bind_ok.mpr ⟨found, defined, bind_ok.mpr ⟨entries, all, bind_ok.mpr ⟨tables, made,
      bind_ok.mpr ⟨snapshot, whole, rfl⟩⟩⟩⟩⟩

/-- A document is read exactly if it has the right shape. -/
theorem read_ok_iff (distinct : Json.Distinct (.object document)) :
    (∃ contents, read (.object document) = .ok contents) ↔ Shape document := by
  constructor
  · rintro ⟨contents, ends⟩
    obtain ⟨_, found, entries, _, _, same, defined, read, _⟩ := read_ok.mp ends
    obtain rfl := Value.object.inj same
    refine ⟨definitions_ok.mp ⟨found, defined⟩, fun others defines => ?_⟩
    obtain rfl : found = others := Except.ok.inj (defined.symm.trans (definitions_of_defines defines))
    exact tableEntries_ok.mp ⟨entries, read⟩
  · intro shape
    obtain ⟨found, defined⟩ := definitions_ok.mpr shape.components
    obtain ⟨own, tables⟩ : Json.Distinct (.object found) ∧ ∀ name fields, (name, .object fields) ∈ found →
        TableShape fields := by
      rcases defines_of_definitions defined with defines | rfl
      · exact ⟨defines.distinct distinct, shape.tables found defines⟩
      · exact ⟨.object .nil (by simp), by simp⟩
    obtain ⟨entries, read⟩ := tableEntries_ok.mpr tables
    obtain ⟨tables, snapshot, made, whole⟩ := snapshot_of_definitions own read
    exact ⟨_, read_ok.mpr ⟨document, found, entries, tables, snapshot, rfl, defined, read, made, whole, rfl⟩⟩

/-- A property of a definition in a document. -/
inductive Describes (document : Fields) (owner name : String) (schema : Value) : Prop where
  | property {definitions fields columns : Fields} (defines : Defines document definitions)
      (table : (owner, .object fields) ∈ definitions)
    (properties : fieldOf fields "properties" = .object columns) (column : (name, schema) ∈ columns) :
      Describes document owner name schema

/-- What has been read of a document, table by table. -/
structure Reading (document : Fields) (entries : List TableEntry) (contents : Contents) : Prop where
  found : ∃ found, definitions document = .ok found ∧ tableEntries found = .ok entries
  enums : contents.enums = enumsOf entries
  tables : ∀ entry ∈ entries, entry.columns ≠ [] →
    ∃ table ∈ contents.snapshot.tables, table.name = entry.name ∧ table.columns = entry.columns.map ColumnEntry.column

theorem exists_reading {contents : Contents} (ends : read (.object document) = .ok contents) :
    ∃ entries, Reading document entries contents := by
  obtain ⟨_, found, entries, tables, snapshot, same, defined, all, made, whole, rfl⟩ := read_ok.mp ends
  obtain rfl := Value.object.inj same
  refine ⟨entries, ⟨found, defined, all⟩, rfl, ?_⟩
  intro entry inside some
  have kept : entry ∈ entries.filter fun entry => !entry.columns.isEmpty :=
    List.mem_filter.mpr ⟨inside, by simpa using some⟩
  obtain ⟨table, listed, built⟩ := exists_of_mem (mapM_ok_iff.mp made) kept
  exact ⟨table, (Snapshot.ofTables_ok.mp (unrepeated_ok.mp whole)).subset listed, tableOf_ok.mp built⟩

namespace Reading

variable {owner : String} {schema : Value} {entries : List TableEntry} {contents : Contents}
    (reading : Reading document entries contents)

include reading

/-- For each property of a definition a column is read. -/
theorem exists_columnEntry (described : Describes document owner name schema) : ∃ entry ∈ entries, entry.name = owner ∧
    ∃ column ∈ entry.columns, ∃ required, columnEntry owner required name schema = .ok column := by
  obtain ⟨defines, table, properties, property⟩ := described
  obtain ⟨found, defined, all⟩ := reading.found
  obtain rfl := Except.ok.inj ((definitions_of_defines defines).symm.trans defined)
  obtain ⟨entry, own⟩ := (tableEntry_ok _ _).mpr (tableEntries_ok.mp ⟨entries, all⟩ _ _ table)
  obtain ⟨named, required, columns, _, given, each⟩ := parts_of_tableEntry own
  rw [properties_ok, if_pos (isTruthy_of_mem properties property), properties] at given
  obtain rfl := Value.object.inj given
  obtain ⟨column, among, read⟩ := exists_of_mem each property
  exact ⟨entry, (mem_tableEntries all).mpr ⟨_, _, table, own⟩, named, column, among, required, read⟩

/-- Each column is read of a property. -/
theorem describes {entry : TableEntry} (inside : entry ∈ entries) {column : ColumnEntry}
    (among : column ∈ entry.columns) :
    ∃ schema required, Describes document entry.name column.column.name schema ∧
      columnEntry entry.name required column.column.name schema = .ok column := by
  obtain ⟨found, defined, all⟩ := reading.found
  obtain ⟨owner, fields, table, own⟩ := (mem_tableEntries all).mp inside
  obtain ⟨rfl, required, columns, _, given, each⟩ := parts_of_tableEntry own
  obtain ⟨⟨name, schema⟩, property, read⟩ := exists_of_mem each.flip among
  obtain rfl := name_of_columnEntry read
  rw [properties_ok] at given
  split at given
  · rcases defines_of_definitions defined with defines | rfl
    · exact ⟨schema, required, ⟨defines, table, given, property⟩, read⟩
    · cases table
  · rw [given] at property
    cases property

end Reading

/-- For each property of a definition the document that is read has a column in the table of the definition. -/
theorem exists_column {document definitions fields columns : Fields} {contents : Contents}
    {owner name : String} {schema : Value}
    (ends : read (.object document) = .ok contents) (defines : Defines document definitions)
    (described : (owner, .object fields) ∈ definitions) (given : fieldOf fields "properties" = .object columns)
    (property : (name, schema) ∈ columns) :
    ∃ table ∈ contents.snapshot.tables, table.name = owner ∧ ∃ column ∈ table.columns,
      column.name = name ∧ ∃ inner, schema = .object inner ∧
        column.default = defaultText (fieldOf inner "default") := by
  obtain ⟨entries, reading⟩ := exists_reading ends
  obtain ⟨entry, inside, rfl, column, among, _, read⟩ :=
    reading.exists_columnEntry ⟨defines, described, given, property⟩
  obtain ⟨inner, shape, named, _, text, _⟩ := parts_of_columnEntry read
  obtain ⟨table, listed, same, columns⟩ := reading.tables entry inside (List.ne_nil_of_mem among)
  exact ⟨table, listed, same, column.column, columns ▸ List.mem_map_of_mem among, named, inner, shape, text⟩

end TableModels.Document
