import TableModels.Proofs.Scoping
import TableModels.Proofs.SnakeCase

/-! Fields by name. The fields of a generated class have legal names that differ, and data fills each column under the
name of the column. A relation never takes the name of a column, for a legal name stays as it is when it is
cleaned. -/

namespace TableModels

namespace Naming

open Text

private theorem low_of_isFieldChar {c : Char} (field : isFieldChar c = true) :
    c.toNat < 0x80 ∧ isAsciiUpper c = false := by
  rw [← Bool.not_eq_true, isAsciiUpper]
  simp only [isFieldChar, isAsciiLower, isAsciiDigit, Bool.or_eq_true, Bool.and_eq_true, decide_eq_true_eq,
    beq_iff_eq, Char.le_def, UInt32.le_iff_toNat_le] at field ⊢
  rcases field with (lower | digit) | rfl
  · have last : 'Z'.val.toNat < 'a'.val.toNat ∧ 'z'.val.toNat < 0x80 := by decide
    have code : c.val.toNat = c.toNat := rfl
    omega
  · have last : '9'.val.toNat < 'A'.val.toNat ∧ '9'.val.toNat < 0x80 := by decide
    have code : c.val.toNat = c.toNat := rfl
    omega
  · decide

structure Legal (name : String) : Prop where
  plain : IsPlainName name
  free : name ∉ reservedFieldNames

theorem legal_fieldName (name : String) : Legal (fieldName name) :=
  ⟨isPlainName_fieldName name, fieldName_not_reserved name⟩

theorem Legal.fieldName_eq {name : String} (legal : Legal name) : fieldName name = name := by
  obtain ⟨c, rest, chars, lower, others⟩ := legal.plain
  have clean : ∀ d ∈ c :: rest, isFieldChar d = true := by
    intro d member
    rcases List.mem_cons.mp member with rfl | inside
    · simp [isFieldChar, lower]
    · exact others d inside
  have opens : (c == '_') = false := by
    rw [beq_eq_false_iff_ne]
    rintro rfl
    cases lower
  have kept : fieldChars name = c :: rest := by
    rw [fieldChars, chars, snakeChars_low fun d member => low_of_isFieldChar (clean d member),
      List.filter_eq_self.mpr clean, List.dropWhile_cons, opens]
    rfl
  exact fieldName_of_plain legal.plain legal.free (kept.trans chars.symm)

private theorem suffix_append (name ending : String) : ending.toList <:+ (name ++ ending).toList := by
  rw [String.toList_append]
  exact List.suffix_append _ _

theorem Legal.marked {name : String} (legal : Legal name) : Legal (name ++ "_") := by
  refine ⟨legal.plain.append (List.all_eq_true.mp rfl), fun reserved => ?_⟩
  have whole := (endings_of_reserved _ reserved).1 (suffix_append name "_")
  obtain ⟨c, rest, chars, _⟩ := legal.plain
  simp [String.ext_iff, chars] at whole

theorem Legal.related {name : String} (legal : Legal name) : Legal (name ++ "_rel") :=
  ⟨legal.plain.append (List.all_eq_true.mp rfl),
    fun reserved => (endings_of_reserved _ reserved).2 (suffix_append name "_rel")⟩

/-- A name is tried and, as long as it is used, tried again with the mark at its end. This is the name in the end. -/
inductive Tried (mark : String) (used : List String) : String → String → Prop where
  | free {name : String} (unused : name ∉ used) : Tried mark used name name
  | taken {name last : String} (member : name ∈ used) (rest : Tried mark used (name ++ mark) last) :
      Tried mark used name last

theorem Tried.unused {mark name last : String} {used : List String} (tried : Tried mark used name last) :
    last ∉ used := by
  induction tried with
  | free unused => exact unused
  | taken _ _ ih => exact ih

/-- The name tried first is the last one, unless it is used. -/
theorem Tried.first {mark name last : String} {used : List String} (tried : Tried mark used name last) :
    last = name ∨ name ∈ used := by
  cases tried with
  | free _ => exact .inl rfl
  | taken member _ => exact .inr member

/-- Of the used names, each try leaves fewer that are long enough to be in the way. -/
private theorem freshWithin_tried {mark : String} (filled : mark ≠ "") {used : List String}
    {tries : Nat} {name : String}
    (enough : used.countP (fun other => decide (name.length ≤ other.length)) ≤ tries) :
    Tried mark used name (freshWithin mark tries used name) := by
  induction tries generalizing name with
  | zero =>
    refine .free fun member => ?_
    have none := List.countP_eq_zero.mp (Nat.le_zero.mp enough) name member
    simp at none
  | succ tries ih =>
    rw [freshWithin]
    split
    · rename_i member
      rw [List.contains_iff_mem] at member
      refine .taken member (ih ?_)
      have longer : name.length < (name ++ mark).length := by
        have long : 0 < mark.length := Nat.pos_of_ne_zero fun empty => filled (String.length_eq_zero_iff.mp empty)
        rw [String.length_append]
        omega
      have apart := (List.perm_cons_erase member).countP_eq
      have fewer : (used.erase name).countP (fun other => decide ((name ++ mark).length ≤ other.length)) ≤
          (used.erase name).countP fun other => decide (name.length ≤ other.length) := by
        refine List.countP_mono_left fun other _ => ?_
        simp only [decide_eq_true_eq]
        omega
      rw [apart, List.countP_cons_of_pos (by simp)] at enough
      rw [apart, List.countP_cons_of_neg (by simpa only [decide_eq_true_eq, Nat.not_le] using longer)]
      omega
    · rename_i unused
      rw [List.contains_iff_mem] at unused
      exact .free unused

private theorem fresh_tried {mark : String} (filled : mark ≠ "") (used : List String) (name : String) :
    Tried mark used name (fresh mark used name) :=
  freshWithin_tried filled List.countP_le_length

theorem Tried.legal {used : List String} {name last : String} (tried : Tried "_" used name last)
    (legal : Legal name) : Legal last := by
  induction tried with
  | free _ => exact legal
  | taken _ _ ih => exact ih legal.marked

end Naming

namespace Code

def Expr.alias? : Expr → Option String
  | .call _ _ keywords => (keywords.lookup "alias").bind fun
    | .text value => some value
    | _ => none
  | _ => none

def Statement.inputKey? : Statement → Option String
  | .declare target _ value => some ((value.bind Expr.alias?).getD target)
  | _ => none

def Block.inputKeys : Block → List String
  | .definition d => d.body.filterMap Statement.inputKey?
  | _ => []

def Module.inputKeys (module : Module) : List String := module.blocks.flatMap Block.inputKeys

end Code

namespace Model

open Schema Typing Code Naming

variable {style : Style} {enums : Enums} {known : List String} {table : Table}

private theorem tried_freeName (used : List String) (name : String) : Tried "_" used name (freeName used name) :=
  fresh_tried (by decide) used name

private theorem alias?_defaultKeyword {field : ScalarField} {name : String} {value : Expr}
    (given : field.defaultKeyword = some (name, value)) :
    ("alias" == name) = false ∧ value.alias? = none := by
  rcases field.defaultKeyword_eq_some.mp given with ⟨default, _, same⟩ | ⟨_, _, same⟩
  · cases default <;> obtain ⟨rfl, rfl⟩ := Prod.mk.inj same <;> exact ⟨by decide, rfl⟩
  · obtain ⟨rfl, rfl⟩ := Prod.mk.inj same
    exact ⟨by decide, rfl⟩

private theorem ScalarField.inputKey?_declaration (field : ScalarField) :
    field.declaration.inputKey? = some field.column.name := by
  have key : field.declaration.inputKey? = some ((field.value.bind Expr.alias?).getD field.name) := rfl
  rw [key, field.value_eq]
  cases aliased : field.needsAlias with
  | true =>
    rcases given : field.defaultKeyword with _ | ⟨name, value⟩
    · rfl
    · simp [Expr.alias?, List.lookup_cons, (alias?_defaultKeyword given).1]
  | false =>
    have own : field.name = field.column.name := by
      rw [ScalarField.needsAlias, Bool.or_eq_false_iff] at aliased
      simpa using aliased.1
    rcases given : field.defaultKeyword with _ | ⟨name, value⟩
    · simp [own]
    · obtain ⟨other, unnamed⟩ := alias?_defaultKeyword given
      have alone : (Expr.call (.name "Field") [] [(name, value)]).alias? = none := by
        simp [Expr.alias?, List.lookup_cons, other]
      by_cases plain : name = "default"
      · simp [plain, unnamed, own]
      · simp [plain, alone, own]

private theorem RelationField.inputKey?_declaration (relation : RelationField) :
    relation.declaration.inputKey? = some relation.name := rfl

/-- Names that differ from each other and from those used before. -/
structure Apart (used names : List String) : Prop where
  distinct : names.Nodup
  unused : ∀ name ∈ names, name ∉ used

theorem Apart.cons {used names : List String} {name : String} (unused : name ∉ used)
    (rest : Apart (name :: used) names) :
    Apart used (name :: names) := by
  refine ⟨List.nodup_cons.mpr ⟨fun member => rest.unused name member List.mem_cons_self, rest.distinct⟩,
    fun other member => ?_⟩
  rcases List.mem_cons.mp member with rfl | inside
  · exact unused
  · exact fun before => rest.unused other inside (List.mem_cons_of_mem _ before)

/-- How the fields of columns are named when some names are used. -/
structure Named (used : List String) (columns : List Column) (scalars : List ScalarField) : Prop where
  each : scalars.map ScalarField.column = columns
  apart : Apart used (scalars.map ScalarField.name)
  /-- What the name of a column is cleaned to is the name of some field, though perhaps of another column's. -/
  covered : ∀ column ∈ columns, fieldName column.name ∈ used ++ scalars.map ScalarField.name

theorem scalarFieldsFrom_named {columns : List Column} {used : List String} {scalars : List ScalarField}
    (found : scalarFieldsFrom enums used columns = .ok scalars) : Named used columns scalars := by
  induction columns generalizing used scalars with
  | nil =>
    obtain rfl : [] = scalars := Except.ok.inj found
    exact ⟨rfl, ⟨.nil, by simp⟩, by simp⟩
  | cons column rest ih =>
    obtain ⟨default, others, _, later, rfl⟩ := scalarFieldsFrom_cons.mp found
    obtain ⟨each, apart, covered⟩ := ih later
    have tried := tried_freeName used (fieldName column.name)
    refine ⟨by simp [each], Apart.cons tried.unused apart, fun other member => ?_⟩
    simp only [List.map_cons, List.mem_append, List.mem_cons] at member covered ⊢
    rcases member with rfl | inside
    · rcases tried.first with same | used
      · exact .inr (.inl same.symm)
      · exact .inl used
    · rcases covered other inside with (same | earlier) | late
      · exact .inr (.inl same)
      · exact .inl earlier
      · exact .inr (.inr late)

theorem scalarFields_named {scalars : List ScalarField} (found : scalarFields enums table = .ok scalars) :
    (scalars.map ScalarField.column).Perm table.columns ∧ (scalars.map ScalarField.name).Nodup ∧
      (∀ field ∈ scalars, Legal field.name) ∧ ∀ column ∈ table.columns, fieldName column.name ∈
        scalars.map ScalarField.name := by
  have made := made_of_mem found
  obtain ⟨fields, inOrder, rfl⟩ := scalarFields_ok.mp found
  obtain ⟨each, apart, covered⟩ := scalarFieldsFrom_named inOrder
  have order := List.mergeSort_perm fields ScalarField.precedes
  refine ⟨each ▸ order.map _, (order.map _).nodup_iff.mpr apart.distinct, fun field member => ?_,
    fun column member => ?_⟩
  · obtain ⟨used, same⟩ := (made field member).name
    exact same ▸ (tried_freeName used _).legal (legal_fieldName _)
  · exact (order.map _).mem_iff.mpr (by simpa using covered column member)

private theorem linkFields_apart {links : List Link} {used : List String} {relations : List RelationField}
    (found : linkFields style used links = .ok relations) : Apart used (relations.map RelationField.name) := by
  induction links generalizing used relations with
  | nil =>
    obtain rfl : [] = relations := Except.ok.inj found
    exact ⟨.nil, by simp⟩
  | cons link rest ih =>
    obtain ⟨targetClass, others, _, later, rfl⟩ := linkFields_cons.mp found
    exact Apart.cons (tried_freeName used _).unused (ih later)

theorem RelationField.Made.legal {relation : RelationField} (made : relation.Made style known) :
    Legal relation.name := by
  obtain ⟨used, column, same⟩ := made.name
  rw [same, relationFieldName]
  refine (tried_freeName used _).legal ?_
  split
  · exact (legal_fieldName _).related
  · exact legal_fieldName _

private theorem relationFields_apart {scalarNames : List String} {relations : List RelationField}
    (found : relationFields style table known scalarNames = .ok relations) :
    Apart scalarNames (relations.map RelationField.name) :=
  linkFields_apart (relationFields_links scalarNames ▸ found)

private theorem inputKeys_of_blocks {made : Module} {own name : String} {scalars : List ScalarField}
    {relations : List RelationField}
    (blocks : made.blocks = imports own scalars relations ++ [.definition (modelClass name own scalars relations)]) :
    made.inputKeys = scalars.map (fun field => field.column.name) ++ relations.map RelationField.name := by
  have defined : (Block.definition (modelClass name own scalars relations)).inputKeys =
      (scalars.map ScalarField.declaration).filterMap Statement.inputKey? ++
        (relations.map RelationField.declaration).filterMap Statement.inputKey? := by
    simp only [Block.inputKeys, modelClass, List.filterMap_append]
    rfl
  rw [Module.inputKeys, flatMap_blocks Block.inputKeys blocks, flatMap_standardImports fun _ _ => rfl, defined]
  simp [Block.inputKeys, List.filterMap_map, Function.comp_def, ScalarField.inputKey?_declaration,
    RelationField.inputKey?_declaration]

theorem legal_of_fields {made : Module} (ends : module style enums known table = .ok made) :
    ∀ name ∈ made.fields, Legal name := by
  obtain ⟨scalars, relations, name, found, _, blocks⟩ := module_blocks ends
  obtain ⟨_, _, legal, _⟩ := scalarFields_named (fields_ok.mp found).1
  intro name member
  rw [fields_of_blocks blocks, List.mem_append, List.mem_map, List.mem_map] at member
  rcases member with ⟨field, inside, rfl⟩ | ⟨relation, inside, rfl⟩
  · exact legal field inside
  · exact (fields_made found relation inside).legal

/-- The fields of a generated class, each a column's or a relation's, have legal names that differ. Trying names until
one is free comes to an end. Data fills the field of a column under the name of the column and that of a relation
under its own name, which no column has, so the keys differ, too. -/
theorem field_names_apart {made : Module} (ends : module style enums known table = .ok made) :
    (∀ used name, Tried "_" used name (freeName used name)) ∧
    made.fields.Nodup ∧ (∀ name ∈ made.fields, Legal name) ∧
    ∃ scalars relations, fields style enums known table = .ok (scalars, relations) ∧
      made.fields = scalars.map ScalarField.name ++ relations.map RelationField.name ∧
      made.inputKeys = scalars.map (fun field => field.column.name) ++ relations.map RelationField.name ∧
      (scalars.map ScalarField.column).Perm table.columns ∧
      (∀ relation ∈ relations, relation.name ∉ table.columnNames) ∧ made.inputKeys.Nodup := by
  have legal := legal_of_fields ends
  obtain ⟨scalars, relations, name, found, _, rfl⟩ := module_ok ends
  generalize whole : Code.Module.mk _ _ = made at legal ⊢
  have blocks : made.blocks = imports table.name scalars relations ++
      [.definition (modelClass name table.name scalars relations)] := by
    rw [← whole]
  obtain ⟨columns, links⟩ := fields_ok.mp found
  obtain ⟨each, distinct, _, covered⟩ := scalarFields_named columns
  have apart := relationFields_apart links
  have linked : ∀ relation ∈ relations, Legal relation.name :=
    fun relation member => (fields_made found relation member).legal
  have foreign : ∀ relation ∈ relations, relation.name ∉ table.columnNames := by
    intro relation member taken
    obtain ⟨column, known, same⟩ := List.mem_map.mp taken
    have clean : fieldName column.name = relation.name := same ▸ (linked relation member).fieldName_eq
    exact apart.unused _ (List.mem_map_of_mem member) (clean ▸ covered column known)
  have own : (scalars.map fun field => field.column.name).Perm table.columnNames := by
    simpa [List.map_map, Function.comp_def, Table.columnNames] using each.map Column.name
  refine ⟨tried_freeName, ?_, legal, scalars, relations, found, fields_of_blocks blocks, inputKeys_of_blocks blocks,
    each, foreign, ?_⟩
  · rw [fields_of_blocks blocks]
    exact List.nodup_append.mpr ⟨distinct, apart.distinct,
      fun name inside other linked same => apart.unused _ linked (same ▸ inside)⟩
  · rw [inputKeys_of_blocks blocks]
    refine List.nodup_append.mpr ⟨own.nodup_iff.mpr table.distinct, apart.distinct, ?_⟩
    rintro name inside other linked rfl
    obtain ⟨relation, member, rfl⟩ := List.mem_map.mp linked
    exact foreign relation member (own.mem_iff.mp inside)

/-- A letter with columns of which the names come to one another's, and to those of its relations. -/
def crowded : Table where
  name := "letters"
  columns :=
    [{ name := "author_rel", sourceType := "text", nullable := false }, { name := "author", sourceType := "jsonb" },
    { name := "author_id", sourceType := "int4", foreignKey := some ⟨"author_id", "people", "id", false⟩ },
    { name := "class", sourceType := "int4" }, { name := "Author", sourceType := "text" }]
  distinct := by decide

/-- The relation to the author makes way for two columns that have its name. -/
theorem crowded_fields_apart : ∃ made, module { embedRelations := true } [] ["people"] crowded = .ok made ∧
    made.fields = ["author_rel", "author", "author_id", "class_", "author_", "author_rel_"] ∧ made.fields.Nodup ∧
    made.inputKeys = ["author_rel", "author", "author_id", "class", "Author", "author_rel_"] ∧
      made.inputKeys.Nodup := by
  obtain ⟨unsorted, found, sorted, names, keys⟩ : ∃ unsorted, scalarFieldsFrom [] [] crowded.columns = .ok unsorted ∧
      unsorted.Pairwise (fun first second => first.precedes second) ∧
      unsorted.map ScalarField.name = ["author_rel", "author", "author_id", "class_", "author_"] ∧
      unsorted.map (fun field => field.column.name) = ["author_rel", "author", "author_id", "class", "Author"] :=
    ⟨_, rfl, by decide +kernel, by decide +kernel, by decide +kernel⟩
  have columns : scalarFields [] crowded = .ok unsorted := by
    rw [scalarFields, found, Except.map, List.mergeSort_of_pairwise sorted]
  obtain ⟨relations, links, linked⟩ : ∃ relations, relationFields { embedRelations := true } crowded ["people"]
      ["author_rel", "author", "author_id", "class_", "author_"] = .ok relations ∧
      relations.map RelationField.name = ["author_rel_"] := ⟨_, rfl, by decide +kernel⟩
  have found : fields { embedRelations := true } [] ["people"] crowded = .ok (unsorted, relations) :=
    fields_ok.mpr ⟨columns, names ▸ links⟩
  obtain ⟨made, ends⟩ : ∃ made, module { embedRelations := true } [] ["people"] crowded = .ok made := by
    rw [module, found]
    exact ⟨_, rfl⟩
  obtain ⟨_, distinct, _, scalars, others, same, named, keyed, _, _, apart⟩ := field_names_apart ends
  obtain ⟨rfl, rfl⟩ : unsorted = scalars ∧ relations = others := by simpa [found] using same
  rw [names, linked] at named
  rw [keys, linked] at keyed
  exact ⟨made, ends, named, distinct, keyed, apart⟩

end Model

end TableModels
