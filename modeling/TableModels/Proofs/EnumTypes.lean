import TableModels.Proofs.Documents
import TableModels.Proofs.Trimming
import TableModels.Typing.Enums

/-! Enumerated types of a document. Such a type is registered under a name that is made of its table and its column. A
column asks for it by the same name, but the name is read like any other type: blanks around it and an array mark at
its end are taken off, and then only its lower case counts. So a column finds its own values if its name is looked up
as it stands and no other column makes the same name in lower case. -/

namespace TableModels

namespace Typing

open Text

namespace Enums

variable {declared : List (String × List String)}

private theorem get?_ofDeclared (declared : List (String × List String)) (key : String) :
    Keyed.get? (ofDeclared declared) key = (declared.reverse.find? fun entry => lower entry.1 == key).map Prod.snd := by
  have found := Keyed.get?_foldl_set (fun entry => lower entry.1) Prod.snd declared [] key
  rw [show Keyed.get? [] key = (none : Option (List String)) from rfl, Option.or_none] at found
  exact found

/-- Enumerated types count by name, in whatever order. -/
theorem mem_names_ofDeclared {key : String} :
    key ∈ Keyed.names (ofDeclared declared) ↔ ∃ entry ∈ declared, lower entry.1 = key := by
  rw [Keyed.mem_names, get?_ofDeclared, Option.isSome_map, List.find?_isSome]
  simp

private theorem values_ofDeclared_iff {source : String} {own : List String} (some : own ≠ []) :
    values (ofDeclared declared) source = own ↔
      ∃ type, Keyed.Latest (fun entry => lower entry.1) declared (keyOf source) (type, own) := by
  rw [values, get?_ofDeclared]
  cases found : declared.reverse.find? fun entry => lower entry.1 == keyOf source with
  | none =>
    simp only [Option.map_none, Option.getD_none]
    refine iff_of_false (Ne.symm some) ?_
    intro latest
    obtain ⟨type, latest⟩ := latest
    rw [← Keyed.find?_reverse, found] at latest
    cases latest
  | some entry =>
    simp only [Option.map_some, Option.getD_some, ← Keyed.find?_reverse, found, Option.some.injEq]
    constructor
    · rintro rfl
      exact ⟨entry.1, rfl⟩
    · rintro ⟨type, rfl⟩
      rfl

private theorem exists_of_registered {source : String} (known : keyOf source ∈ Keyed.names (ofDeclared declared)) :
    ∃ entry ∈ declared, lower entry.1 = keyOf source ∧ values (ofDeclared declared) source = entry.2 := by
  rw [Keyed.mem_names, get?_ofDeclared, Option.isSome_map] at known
  obtain ⟨entry, found⟩ := Option.isSome_iff_exists.mp known
  refine ⟨entry, List.mem_reverse.mp (List.mem_of_find?_eq_some found), by simpa using List.find?_some found, ?_⟩
  rw [values, get?_ofDeclared, found]
  rfl

private theorem fieldType_eq_str {enums : Enums} {source : String} : fieldType enums source = .str ↔
    (SourceType.ofText source).isArray = false ∧
      (keyOf source ∈ Keyed.names enums ∨ catalogued? (keyOf source) = some .str) := by
  rw [fieldType, baseType?, Keyed.contains, Keyed.mem_names]
  cases (SourceType.ofText source).isArray with
  | true => simp
  | false =>
    by_cases registered : (Keyed.get? enums (keyOf source)).isSome <;> cases catalogued? (keyOf source)
      <;> simp [registered]

end Enums

end Typing

namespace Document

open Text Typing

variable {document : Fields} {contents : Contents} {owner name : String} {own : List Value}

/-- Names of a table and of a column of which a name is made that is read as it stands. -/
structure Plain (owner name : String) : Prop where
  first : ∀ c, owner.toList.head? = some c → isBlank c = false
  last : ∀ c, name.toList.getLast? = some c → isBlank c = false
  unmarked : ¬ SourceType.arrayMark.toList <:+ name.toList

private theorem plain_iff : Plain owner name ↔ (owner.toList.head?.all fun c => !isBlank c) = true ∧
    (name.toList.getLast?.all fun c => !isBlank c) = true ∧ ¬ SourceType.arrayMark.toList <:+ name.toList := by
  simp only [Option.all_eq_true, Bool.not_eq_true']
  constructor
  · intro plain
    exact ⟨plain.first, plain.last, plain.unmarked⟩
  · intro parts
    exact ⟨parts.1, parts.2.1, parts.2.2⟩

instance : Decidable (Plain owner name) := decidable_of_iff' _ plain_iff

private theorem toList_enumName (owner name : String) :
    (enumName owner name).toList = owner.toList ++ (['_'] ++ name.toList) := by
  simp [enumName]

theorem Plain.strip_eq (plain : Plain owner name) : strip (enumName owner name) = enumName owner name := by
  have joint : ∀ c, '_' = c → isBlank c = false := by
    rintro _ rfl
    rfl
  have first : ∀ c, (enumName owner name).toList.head? = some c → isBlank c = false := by
    intro c start
    rw [toList_enumName, List.head?_append, Option.or_eq_some_iff] at start
    rcases start with own | ⟨_, other⟩
    · exact plain.first c own
    · exact joint c (Option.some.inj other)
  have last : ∀ c, (enumName owner name).toList.getLast? = some c → isBlank c = false := by
    intro c ending
    rw [toList_enumName, ← List.append_assoc, List.getLast?_append, Option.or_eq_some_iff] at ending
    rcases ending with own | ⟨_, other⟩
    · exact plain.last c own
    · exact joint c (by simpa using other)
  rw [strip, stripChars_trimmed first last, String.ofList_toList]

private theorem mark_of_enumName (marked : SourceType.arrayMark.toList <:+ (enumName owner name).toList) :
    SourceType.arrayMark.toList <:+ name.toList := by
  have mark : SourceType.arrayMark.toList = ['[', ']'] := rfl
  rw [toList_enumName, mark] at marked
  rw [mark]
  have tail : name.toList <:+ owner.toList ++ (['_'] ++ name.toList) :=
    (List.suffix_append _ _).trans (List.suffix_append _ _)
  by_cases long : 2 ≤ name.toList.length
  · exact List.suffix_of_suffix_length_le marked tail long
  · -- A shorter name would leave the mark room for the joint.
    have own : ['_'] ++ name.toList <:+ ['[', ']'] := by
      apply List.suffix_of_suffix_length_le (List.suffix_append _ _) marked
      simp only [List.length_append, List.length_cons, List.length_nil]
      omega
    have among := own.subset (List.mem_append_left _ List.mem_cons_self)
    exact absurd among (by decide)

private theorem Plain.ofText_enumName (plain : Plain owner name) :
    SourceType.ofText (enumName owner name) = ⟨enumName owner name, false⟩ := by
  have unmarked : withoutSuffix? SourceType.arrayMark (enumName owner name) = none :=
    withoutSuffix?_eq_none.mpr fun marked => plain.unmarked (mark_of_enumName marked)
  simp only [SourceType.ofText, plain.strip_eq, unmarked]

/-- A column of a table in a document, with the values that its property enumerates. -/
inductive Enumerates (document : Fields) (owner name : String) (values : List Value) : Prop where
  | property {schema : Fields} (described : Describes document owner name (.object schema))
      (given : (fieldOf schema "enum").isTruthy)
    (elements : (fieldOf schema "enum").elements? = some values) : Enumerates document owner name values

private theorem Enumerates.ne_nil (enumerates : Enumerates document owner name own) : own ≠ [] := by
  obtain ⟨_, given, elements⟩ := enumerates
  exact ne_nil_of_elements given elements

namespace Reading

variable {entries : List TableEntry} (reading : Reading document entries contents)

include reading

private theorem mem_declared {entry : String × List String} :
    entry ∈ (entries.flatMap fun entry => entry.columns.filterMap fun column =>
        column.values.map fun values => (enumName entry.name column.column.name, values)) ↔
      ∃ owner name values, Enumerates document owner name values ∧
        entry = (enumName owner name, values.map Value.toText) := by
  simp only [List.mem_flatMap, List.mem_filterMap, Option.map_eq_some_iff]
  constructor
  · rintro ⟨table, inside, column, among, texts, valued, rfl⟩
    obtain ⟨schema, required, described, read⟩ := reading.describes inside among
    obtain ⟨fields, rfl, _, _, _, kind⟩ := parts_of_columnEntry read
    rcases kind with ⟨given, ⟨values, elements, same⟩, _⟩ | ⟨_, none, _⟩
    · obtain rfl := Option.some.inj (valued.symm.trans same)
      exact ⟨_, _, values, ⟨described, given, elements⟩, rfl⟩
    · rw [none] at valued
      cases valued
  · rintro ⟨owner, name, values, ⟨described, given, elements⟩, rfl⟩
    obtain ⟨table, inside, rfl, column, among, required, read⟩ := reading.exists_columnEntry described
    obtain ⟨valued, _⟩ := enumerated_of_columnEntry read given elements
    refine ⟨table, inside, column, among, _, valued, ?_⟩
    rw [name_of_columnEntry read]

private theorem enumerates_of_mem {entry : String × List String} (member : entry ∈ contents.enums) :
    ∃ owner name values, Enumerates document owner name values ∧
      entry = (enumName owner name, values.map Value.toText) := by
  rw [reading.enums] at member
  exact reading.mem_declared.mp (Keyed.mem_of_mem_ofList member)

private theorem mem_names_enums {type : String} : type ∈ Keyed.names contents.enums ↔
    ∃ owner name values, Enumerates document owner name values ∧ enumName owner name = type := by
  rw [reading.enums, enumsOf, Keyed.mem_names_ofList, Keyed.names, List.mem_map]
  constructor
  · rintro ⟨entry, member, rfl⟩
    obtain ⟨owner, name, values, enumerates, rfl⟩ := reading.mem_declared.mp member
    exact ⟨owner, name, values, enumerates, rfl⟩
  · rintro ⟨owner, name, values, enumerates, rfl⟩
    exact ⟨_, reading.mem_declared.mpr ⟨owner, name, values, enumerates, rfl⟩, rfl⟩

private theorem registered_iff {key : String} : key ∈ Keyed.names (Enums.ofDeclared contents.enums) ↔
    ∃ owner name values, Enumerates document owner name values ∧ lower (enumName owner name) = key := by
  rw [Enums.mem_names_ofDeclared]
  constructor
  · rintro ⟨entry, member, rfl⟩
    obtain ⟨owner, name, values, enumerates, rfl⟩ := reading.enumerates_of_mem member
    exact ⟨owner, name, values, enumerates, rfl⟩
  · rintro ⟨owner, name, values, enumerates, rfl⟩
    obtain ⟨entry, member, same⟩ := List.mem_map.mp (reading.mem_names_enums.mpr ⟨owner, name, values, enumerates, rfl⟩)
    exact ⟨entry, member, by rw [same]⟩

private theorem exists_enumerated (enumerates : Enumerates document owner name own) :
    ∃ table ∈ contents.snapshot.tables, table.name = owner ∧
    ∃ column ∈ table.columns, column.name = name ∧ column.sourceType = enumName owner name := by
  obtain ⟨described, given, elements⟩ := enumerates
  obtain ⟨entry, inside, rfl, column, among, _, read⟩ := reading.exists_columnEntry described
  obtain ⟨table, listed, same, columns⟩ := reading.tables entry inside (List.ne_nil_of_mem among)
  obtain ⟨_, typed⟩ := enumerated_of_columnEntry read given elements
  exact ⟨table, listed, same, column.column, columns ▸ List.mem_map_of_mem among, name_of_columnEntry read, typed⟩

end Reading

/-- Whatever the document, an enumerated column gets the type that is named for its table and itself. A field of that
type is a text exactly if no array mark ends the name and what is left of it is registered for some column or
catalogued as text. Its values are those of the column exactly if they are what was registered last under what is left
of the name. A plain name is always registered, but the values may be those of another column, of which the name is
the same in lower case. -/
theorem enumerated_values_iff (ends : read (.object document) = .ok contents)
    (enumerates : Enumerates document owner name own) :
    (∃ table ∈ contents.snapshot.tables, table.name = owner ∧
      ∃ column ∈ table.columns, column.name = name ∧ column.sourceType = enumName owner name) ∧
    (Enums.fieldType (.ofDeclared contents.enums) (enumName owner name) = .str ↔
      (SourceType.ofText (enumName owner name)).isArray = false ∧
        ((∃ other column values, Enumerates document other column values ∧ lower (enumName other column) =
          keyOf (enumName owner name)) ∨
          catalogued? (keyOf (enumName owner name)) = some .str)) ∧
    (Enums.values (.ofDeclared contents.enums) (enumName owner name) = own.map Value.toText ↔
      ∃ type, Keyed.Latest (fun entry => lower entry.1) contents.enums (keyOf (enumName owner name)) (type,
        own.map Value.toText)) ∧
    (Plain owner name → Enums.fieldType (.ofDeclared contents.enums) (enumName owner name) = .str ∧
      ∃ other column values, Enumerates document other column values ∧ lower (enumName other column) =
        lower (enumName owner name) ∧
        Enums.values (.ofDeclared contents.enums) (enumName owner name) = values.map Value.toText) := by
  obtain ⟨entries, reading⟩ := exists_reading ends
  have text : Enums.fieldType (.ofDeclared contents.enums) (enumName owner name) = .str ↔
      (SourceType.ofText (enumName owner name)).isArray = false ∧
        ((∃ other column values, Enumerates document other column values ∧ lower (enumName other column) =
          keyOf (enumName owner name)) ∨
          catalogued? (keyOf (enumName owner name)) = some .str) := by
    rw [Enums.fieldType_eq_str, reading.registered_iff]
  refine ⟨reading.exists_enumerated enumerates, text, ?_, fun plain => ?_⟩
  · apply Enums.values_ofDeclared_iff
    simpa using enumerates.ne_nil
  · have key : keyOf (enumName owner name) = lower (enumName owner name) := by
      rw [keyOf, plain.ofText_enumName, SourceType.key]
    rw [text, key, plain.ofText_enumName]
    refine ⟨⟨rfl, .inl ⟨owner, name, own, enumerates, rfl⟩⟩, ?_⟩
    have known := reading.registered_iff.mpr ⟨owner, name, own, enumerates, key.symm⟩
    obtain ⟨entry, member, same, found⟩ := Enums.exists_of_registered known
    obtain ⟨other, column, values, rival, rfl⟩ := reading.enumerates_of_mem member
    exact ⟨other, column, values, rival, same.trans key, found⟩

namespace Orders

def valued (texts : List String) : Fields := [("type", .text "string"), ("enum", .list (texts.map .text))]

def orderColumns : Fields := [("item_status", .object (valued ["open"]))]

def itemColumns : Fields :=
  [("status", .object (valued ["sent"])), ("kind", .object (valued ["gift", "sale"])),
    ("role[]", .object (valued ["buyer"]))]

def tables : Fields :=
  [("order", .object [("properties", .object orderColumns)]),
    ("order_item", .object [("properties", .object itemColumns)])]

/-- Two tables that make the same name with one of their columns each, and a column with a name like that of an
array. -/
def orders : Fields := [("definitions", .object tables)]

private theorem read_orders : ∃ contents, read (.object orders) = .ok contents ∧
    contents.enums = [("order_item_status", ["sent"]), ("order_item_kind", ["gift", "sale"]),
      ("order_item_role[]", ["buyer"])] :=
  ⟨_, rfl, rfl⟩

end Orders

open Orders in
/-- A plain name finds its own values, unless the same name is registered for another column. A name with an array
mark at its end is not registered under what is left of it. -/
theorem orders_mixed : ∃ contents, read (.object orders) = .ok contents ∧
    Plain "order_item" "kind" ∧ Enums.fieldType (.ofDeclared contents.enums) "order_item_kind" = .str ∧
      Enums.values (.ofDeclared contents.enums) "order_item_kind" = ["gift", "sale"] ∧
    ¬ Plain "order_item" "role[]" ∧ Enums.fieldType (.ofDeclared contents.enums) "order_item_role[]" ≠ .str ∧
      Enums.values (.ofDeclared contents.enums) "order_item_role[]" ≠ ["buyer"] ∧
    Plain "order" "item_status" ∧ Enums.fieldType (.ofDeclared contents.enums) "order_item_status" = .str ∧
      Enums.values (.ofDeclared contents.enums) "order_item_status" = ["sent"] := by
  obtain ⟨contents, ends, enums⟩ := read_orders
  have kind : Enumerates orders "order_item" "kind" [.text "gift", .text "sale"] :=
    ⟨⟨.inl rfl, List.mem_cons_of_mem _ List.mem_cons_self, rfl, List.mem_cons_of_mem _ List.mem_cons_self⟩, rfl, rfl⟩
  have role : Enumerates orders "order_item" "role[]" [.text "buyer"] :=
    ⟨⟨.inl rfl, List.mem_cons_of_mem _ List.mem_cons_self, rfl,
      List.mem_cons_of_mem _ (List.mem_cons_of_mem _ List.mem_cons_self)⟩, rfl, rfl⟩
  have status : Enumerates orders "order" "item_status" [.text "open"] :=
    ⟨⟨.inl rfl, List.mem_cons_self, rfl, List.mem_cons_self⟩, rfl, rfl⟩
  have plain : Plain "order_item" "kind" ∧ ¬ Plain "order_item" "role[]" ∧ Plain "order" "item_status" := by
    decide +kernel
  obtain ⟨_, _, kindValues, kindPlain⟩ := enumerated_values_iff ends kind
  obtain ⟨_, roleText, roleValues, _⟩ := enumerated_values_iff ends role
  obtain ⟨_, _, _, statusPlain⟩ := enumerated_values_iff ends status
  refine ⟨contents, ends, plain.1, (kindPlain plain.1).1, kindValues.mpr ⟨"order_item_kind", ?_⟩, plain.2.1, ?_, ?_,
    plain.2.2, (statusPlain plain.2.2).1, ?_⟩
  · exact ⟨[("order_item_status", ["sent"])], [("order_item_role[]", ["buyer"])],
      enums ▸ rfl, by decide +kernel, by decide +kernel⟩
  · exact fun text => absurd (roleText.mp text).1 (by decide +kernel)
  · intro own
    obtain ⟨type, before, after, order, same, _⟩ := roleValues.mp own
    have member : (type, ["buyer"]) ∈ contents.enums := order ▸ List.mem_append_right _ List.mem_cons_self
    have apart : ∀ entry ∈ contents.enums, lower entry.1 ≠ keyOf (enumName "order_item" "role[]") := by
      rw [enums]
      decide +kernel
    exact apart _ member same
  · rw [enums]
    decide +kernel

end Document

end TableModels
