import TableModels.Proofs.ModuleText

/-! The text of a schema in the text of its modules. Names of tables and columns, values of enumerated types and
defaults come into a module as names made fit for it, as numbers, between quotes and in the comments at its head. They
are never code, unless the name of a table goes on over several lines, which no comment holds. -/

namespace TableModels.Model

open Schema Typing Code

/-- The words that do not depend on the table. -/
def fixedWords : List String :=
  ["from", "import", "if", "class", "None", "True", "False", "model_config", "populate_by_name",
    "protected_namespaces", "default",
    "default_factory", "alias", "description"] ++ builtinTypes ++ providers.flatMap fun source => source.1 :: source.2

private theorem vocabulary_typeExpr (type : FieldType) : ∀ word ∈ (typeExpr type).vocabulary, word ∈ fixedWords := by
  have list : "list" ∈ fixedWords := by decide
  have dict : "dict" ∈ fixedWords ∧ "str" ∈ fixedWords := by decide
  induction type with
  | list item ih => simpa [typeExpr, Expr.vocabulary, vocabularyOfItems, list] using ih
  | dict value ih => simpa [typeExpr, Expr.vocabulary, vocabularyOfItems, dict] using ih
  | _ => simp only [typeExpr, Expr.vocabulary, FieldType.text, List.forall_mem_singleton]; decide +kernel

private theorem vocabularyOfKeywords_eq (keywords : List (String × Expr)) :
    vocabularyOfKeywords keywords = keywords.flatMap fun keyword => keyword.1 :: keyword.2.vocabulary := by
  induction keywords with
  | nil => rfl
  | cons keyword rest ih => rw [vocabularyOfKeywords, ih, List.flatMap_cons]

private theorem vocabulary_fieldCall {keywords : List (String × Expr)}
    (each : ∀ keyword ∈ keywords, ∀ word ∈ keyword.1 :: keyword.2.vocabulary, word ∈ fixedWords) :
    ∀ word ∈ (Expr.call (.name "Field") [] keywords).vocabulary, word ∈ fixedWords := by
  rw [Expr.vocabulary, vocabularyOfItems, List.append_nil, vocabularyOfKeywords_eq]
  refine List.forall_mem_append.mpr ⟨List.forall_mem_singleton.mpr (by decide +kernel), fun word member => ?_⟩
  obtain ⟨keyword, among, inside⟩ := List.mem_flatMap.mp member
  exact each keyword among word inside

private theorem vocabulary_keyword (default : Default) :
    ∀ word ∈ default.keyword.1 :: default.keyword.2.vocabulary, word ∈ fixedWords := by
  cases default with
  | truth value => cases value <;> decide +kernel
  | _ => simp only [Default.keyword, Expr.vocabulary, vocabularyOfItems, vocabularyOfKeywords,
      List.append_nil]; decide +kernel

namespace ScalarField

variable (field : ScalarField)

private theorem vocabulary_defaultKeyword {keyword : String × Expr} (given : field.defaultKeyword = some keyword) :
    ∀ word ∈ keyword.1 :: keyword.2.vocabulary, word ∈ fixedWords := by
  rcases field.defaultKeyword_eq_some.mp given with ⟨default, _, rfl⟩ | ⟨_, _, rfl⟩
  · exact vocabulary_keyword default
  · decide +kernel

private theorem vocabulary_value {value : Expr} (given : field.value = some value) :
    ∀ word ∈ value.vocabulary, word ∈ fixedWords := by
  have each : ∀ keyword ∈ field.defaultKeyword.toList, ∀ word ∈ keyword.1 :: keyword.2.vocabulary, word ∈ fixedWords :=
    fun keyword member => field.vocabulary_defaultKeyword (Option.mem_toList.mp member)
  rw [value_eq] at given
  split at given
  · obtain rfl := Option.some.inj given
    refine vocabulary_fieldCall (List.forall_mem_append.mpr ⟨each, List.forall_mem_singleton.mpr ?_⟩)
    simp only [Expr.vocabulary]
    decide +kernel
  · obtain ⟨keyword, stored, same⟩ := Option.map_eq_some_iff.mp given
    have own := field.vocabulary_defaultKeyword stored
    split at same
    · rw [← same]
      exact fun word member => own word (List.mem_cons_of_mem _ member)
    · rw [← same]
      exact vocabulary_fieldCall (List.forall_mem_singleton.mpr own)

private theorem vocabulary_declaration :
    ∀ word ∈ field.declaration.vocabulary, word = field.name ∨ word ∈ fixedWords := by
  have optional : "Optional" ∈ fixedWords := by decide +kernel
  have type := vocabulary_typeExpr field.type
  rw [declaration_eq, Statement.vocabulary, List.cons_append, List.forall_mem_cons, List.forall_mem_append]
  refine ⟨.inl rfl, fun word member => .inr ?_, fun word member => .inr ?_⟩
  · split at member
    · simp only [Expr.vocabulary, vocabularyOfItems, List.append_nil, List.singleton_append, List.mem_cons] at member
      rcases member with rfl | inside
      · exact optional
      · exact type word inside
    · exact type word member
  · cases given : field.value with
    | none => simp [given] at member
    | some value =>
      rw [given] at member
      exact field.vocabulary_value given word member

end ScalarField

private theorem RelationField.vocabulary_declaration (relation : RelationField) :
    ∀ word ∈ relation.declaration.vocabulary, word = relation.name ∨ word ∈ fixedWords := by
  have shape : relation.declaration.vocabulary = relation.name ::
    ["Optional", "Field", "default", "None", "description"] := rfl
  have fixed : ∀ word ∈ ["Optional", "Field", "default", "None", "description"], word ∈ fixedWords := by decide +kernel
  rw [shape, List.forall_mem_cons]
  exact ⟨.inl rfl, fun word member => .inr (fixed word member)⟩

/-- The words of the module of a table, given the tables that have modules. What comes from the schema among them is
numbers, and names of fields, modules and classes, which are made fit. -/
inductive ModuleWord (style : Style) (known : List String) (table : Table) (made : Module) : List Char → Prop where
  | fixed {word : String} (member : word ∈ fixedWords) : ModuleWord style known table made word.toList
  | number {word : List Char} (figure : IsFigure word) : ModuleWord style known table made word
  | field {name : String} (declared : name ∈ made.fields) (fit : Naming.Legal name) :
      ModuleWord style known table made name.toList
  | ownClass {name : String} (named : Naming.className style.singular table.name = .ok name)
      (fit : Naming.LegalClass name) :
    ModuleWord style known table made name.toList
  | relatedModule {target : String} (member : target ∈ known) (fit : Naming.Legal (Naming.moduleName target)) :
    ModuleWord style known table made (Naming.moduleName target).toList
  | relatedClass {target name : String} (member : target ∈ known) (named : Naming.className style.singular target =
      .ok name)
    (fit : Naming.LegalClass name) : ModuleWord style known table made name.toList

section

variable {style : Style} {enums : Enums} {known : List String} {table : Table} {made : Module}

private theorem spelled_fixed {word : String} (member : word ∈ fixedWords) :
    Spelled (ModuleWord style known table made) word := by
  have each : ∀ word ∈ fixedWords, (!word.toList.isEmpty && word.toList.all isWordChar) = true :=
    List.all_eq_true.mp (by decide +kernel)
  simp only [Bool.and_eq_true, Bool.not_eq_true', List.isEmpty_eq_false_iff, List.all_eq_true] at each
  exact ⟨(each word member).1, (each word member).2, .fixed member⟩

private theorem spelled_of_legal {name : String} (legal : Naming.Legal name)
    (allows : ModuleWord style known table made name.toList) :
    Spelled (ModuleWord style known table made) name := by
  obtain ⟨c, rest, same, lower, others⟩ := legal.plain
  have each : ∀ d ∈ c :: rest, isWordChar d = true := by
    refine List.forall_mem_cons.mpr ⟨wordChar_of_alphanumeric (by simp [Text.isAsciiAlphanumeric, lower]),
      fun d member => ?_⟩
    have field := others d member
    simp only [Naming.isFieldChar, Bool.or_eq_true, beq_iff_eq] at field
    rcases field with (lower | digit) | rfl
    · exact wordChar_of_alphanumeric (by simp [Text.isAsciiAlphanumeric, lower])
    · exact wordChar_of_alphanumeric (by simp [Text.isAsciiAlphanumeric, digit])
    · decide
  exact ⟨by simp [same], same ▸ each, allows⟩

private theorem spelled_of_className {target name : String} (named : Naming.className style.singular target = .ok name)
    (allows : Naming.LegalClass name → ModuleWord style known table made name.toList) :
    Spelled (ModuleWord style known table made) name := by
  have legal := Naming.legalClass_of_className named
  obtain ⟨c, rest, same, _, _⟩ := legal.capital
  exact ⟨by simp [same], fun d member => wordChar_of_alphanumeric (legal.capital.letters d member), allows legal⟩

private theorem fixed_of_import {provider : String × List String} (among : provider ∈ providers) {names : List String}
    (provided : names ⊆ provider.2) :
    ∀ word ∈ (Statement.importFrom 0 provider.1 names).vocabulary, word ∈ fixedWords := by
  have provides : ∀ word ∈ provider.1 :: provider.2, word ∈ fixedWords :=
    fun word own => List.mem_append_right _ (List.mem_flatMap.mpr ⟨provider, among, own⟩)
  obtain ⟨source, known⟩ := List.forall_mem_cons.mp provides
  rw [Statement.vocabulary, List.forall_mem_cons, List.forall_mem_cons, List.forall_mem_cons]
  exact ⟨by decide +kernel, source, by decide +kernel, fun word member => known word (provided member)⟩

private theorem spelled_of_related {target name : String} (member : target ∈ known)
    (named : Naming.className style.singular target = .ok name) :
    ∀ word ∈ (Statement.importFrom 1 (Naming.moduleName target) [name]).vocabulary,
      Spelled (ModuleWord style known table made) word := by
  have legal : Naming.Legal (Naming.moduleName target) := Naming.legal_fieldName target
  rw [Statement.vocabulary, List.forall_mem_cons, List.forall_mem_cons, List.forall_mem_cons, List.forall_mem_singleton]
  exact ⟨spelled_fixed (by decide +kernel), spelled_of_legal legal (.relatedModule member legal),
    spelled_fixed (by decide +kernel), spelled_of_className named (.relatedClass member named)⟩

/-- The blocks of the module of a table: imports from what provides its names, imports of related models for type
checking if there are any, and one class. -/
structure OneClass (style : Style) (known : List String) (table : Table) (made : Module)
    (standard : List (String × List String))
    (related : List (String × String)) (definition : ClassDefinition) : Prop where
  blocks : made.blocks = standard.map (fun source => .statement (.importFrom 0 source.1 source.2)) ++
    (if related.isEmpty then [] else
      [.guarded "TYPE_CHECKING" (related.map fun pair => .importFrom 1 pair.1 [pair.2])]) ++ [.definition definition]
  filled : standard ≠ []
  provided : ∀ source ∈ standard, ∃ provider ∈ providers, source.1 = provider.1 ∧ source.2 ⊆ provider.2
  linked : ∀ pair ∈ related, ∃ target ∈ known, pair.1 = Naming.moduleName target ∧
    Naming.className style.singular target = .ok pair.2
  own : Naming.className style.singular table.name = .ok definition.name
  base : definition.base = "BaseModel"

theorem OneClass.begins {standard : List (String × List String)} {related : List (String × String)}
    {definition : ClassDefinition}
    (shape : OneClass style known table made standard related definition) : made.BeginsWithImport := by
  obtain ⟨source, rest, same⟩ := List.exists_cons_of_ne_nil shape.filled
  exact ⟨0, source.1, source.2, _, by rw [shape.blocks, same]; rfl⟩

private theorem pairs_of_imports {statements : List Statement}
    (each : ∀ statement ∈ statements, ∃ source ∈ standardNames, ∃ names, names ⊆ source.2 ∧
      statement = .importFrom 0 source.1 names) :
    ∃ pairs : List (String × List String), statements = pairs.map (fun source => .importFrom 0 source.1 source.2) ∧
      ∀ pair ∈ pairs, ∃ source ∈ standardNames, pair.1 = source.1 ∧ pair.2 ⊆ source.2 := by
  induction statements with
  | nil => exact ⟨[], rfl, nofun⟩
  | cons statement rest ih =>
    obtain ⟨⟨source, known, names, provided, rfl⟩, others⟩ := List.forall_mem_cons.mp each
    obtain ⟨pairs, rfl, provides⟩ := ih others
    exact ⟨(source.1, names) :: pairs, rfl, List.forall_mem_cons.mpr ⟨⟨source, known, rfl, provided⟩, provides⟩⟩

private theorem vocabulary_body (name own : String) (scalars : List ScalarField) (relations : List RelationField) :
    ∀ word ∈ (modelClass name own scalars relations).body.flatMap Statement.vocabulary,
      word ∈ scalars.map ScalarField.name ++ relations.map RelationField.name ∨ word ∈ fixedWords := by
  obtain ⟨settings, body, fixed⟩ : ∃ settings : Statement, (modelClass name own scalars relations).body =
      settings :: scalars.map ScalarField.declaration ++ relations.map RelationField.declaration ∧
          ∀ word ∈ settings.vocabulary, word ∈ fixedWords :=
    ⟨_, rfl, by decide +kernel⟩
  rw [body, List.flatMap_append, List.flatMap_cons, List.flatMap_map, List.flatMap_map, List.forall_mem_append,
    List.forall_mem_append]
  refine ⟨⟨fun word member => .inr (fixed word member), fun word member => ?_⟩, fun word member => ?_⟩
  · obtain ⟨field, among, inside⟩ := List.mem_flatMap.mp member
    refine (field.vocabulary_declaration word inside).imp_left fun same => List.mem_append_left _ ?_
    exact same ▸ List.mem_map_of_mem among
  · obtain ⟨relation, among, inside⟩ := List.mem_flatMap.mp member
    refine (relation.vocabulary_declaration word inside).imp_left fun same => List.mem_append_right _ ?_
    exact same ▸ List.mem_map_of_mem among

private theorem oneClass_of_module (ends : module style enums known table = .ok made) : ∃ standard related definition,
    OneClass style known table made standard related definition ∧ EndsInPoint definition.doc.toList ∧
      ∀ word ∈ definition.body.flatMap Statement.vocabulary, word ∈ made.fields ∨ word ∈ fixedWords := by
  obtain ⟨scalars, relations, name, found, named, blocks⟩ := module_blocks ends
  have linked : ∀ relation ∈ relations, relation.Made style known := fields_made found
  obtain ⟨pairs, standard, provided⟩ : ∃ pairs : List (String × List String),
      standardImports (neededNames table.name scalars relations) =
      pairs.map (fun source => .importFrom 0 source.1 source.2) ∧ ∀ pair ∈ pairs, ∃ source ∈ standardNames,
          pair.1 = source.1 ∧ pair.2 ⊆ source.2 := by
    refine pairs_of_imports fun statement member => ?_
    obtain ⟨source, known, names, rfl, _, rfl⟩ := mem_standardImports.mp member
    exact ⟨source, known, _, List.filter_subset_self _, rfl⟩
  refine ⟨pairs ++ [("pydantic", baseNames scalars relations)], relationImports table.name relations,
    modelClass name table.name scalars relations,
    { blocks := ?_, filled := by simp, provided := ?_, linked := ?_, own := named, base := rfl }, ?_, ?_⟩
  · rw [blocks, imports, standard]
    simp
  · refine List.forall_mem_append.mpr ⟨fun pair member => ?_,
      List.forall_mem_singleton.mpr ⟨_, List.mem_append_right _ List.mem_cons_self, rfl, ?_⟩⟩
    · obtain ⟨source, known, same⟩ := provided pair member
      exact ⟨source, List.mem_append_left _ known, same⟩
    · rw [baseNames]
      split <;> simp
  · intro pair member
    obtain ⟨relation, among, _, rfl⟩ := mem_relationImports.mp member
    exact ⟨relation.targetTable, (linked relation among).target, rfl, (linked relation among).targetClass⟩
  · have doc : (modelClass name table.name scalars relations).doc = "Represents the '" ++ table.name ++ "' table." :=
      rfl
    rw [doc, String.toList_append]
    exact EndsInPoint.append _ rfl
  · rw [fields_of_blocks blocks]
    exact vocabulary_body _ _ _ _

private theorem spelled_of_module (ends : module style enums known table = .ok made)
    {standard : List (String × List String)} {related : List (String × String)}
    {definition : ClassDefinition} (shape : OneClass style known table made standard related definition)
    (body : ∀ word ∈ definition.body.flatMap Statement.vocabulary, word ∈ made.fields ∨ word ∈ fixedWords) :
    ∀ block ∈ made.blocks, ∀ word ∈ block.vocabulary, Spelled (ModuleWord style known table made) word := by
  rw [shape.blocks, List.forall_mem_append, List.forall_mem_append, List.forall_mem_map, List.forall_mem_singleton]
  refine ⟨⟨fun source member word inside => spelled_fixed ?_, ?_⟩, ?_⟩
  · obtain ⟨provider, among, same, names⟩ := shape.provided source member
    exact fixed_of_import among names word (same ▸ inside)
  · split
    · exact List.forall_mem_nil _
    · rw [List.forall_mem_singleton, Block.vocabulary, List.forall_mem_cons, List.forall_mem_cons]
      refine ⟨spelled_fixed (by decide +kernel), spelled_fixed (by decide +kernel), fun word inside => ?_⟩
      obtain ⟨statement, member, inside⟩ := List.mem_flatMap.mp inside
      obtain ⟨pair, among, rfl⟩ := List.mem_map.mp member
      obtain ⟨target, listed, same, named⟩ := shape.linked pair among
      exact spelled_of_related listed named word (same ▸ inside)
  · rw [Block.vocabulary, shape.base, List.forall_mem_cons, List.forall_mem_cons, List.forall_mem_cons]
    refine ⟨spelled_fixed (by decide +kernel), spelled_of_className shape.own (.ownClass shape.own),
      spelled_fixed (by decide +kernel), fun word inside => ?_⟩
    rcases body word inside with declared | member
    · have legal := legal_of_fields ends word declared
      exact spelled_of_legal legal (.field declared legal)
    · exact spelled_fixed member

private theorem header_remarks_iff (ends : module style enums known table = .ok made) :
    (∀ line ∈ made.header.flatMap Text.linesOf, IsRemark line) ↔ ∀ line ∈ (Text.linesOf table.name).tail,
      IsRemark line := by
  obtain ⟨scalars, relations, name, _, _, rfl⟩ := module_ok ends
  have lines : Text.linesOf ("# Source table: " ++ table.name) = _ := linesOf_append (by decide) (by decide) table.name
  have mark : Text.linesOf generatedMark = [generatedMark] := linesOf_whole (by decide) (by decide)
  have first : IsRemark generatedMark := by
    rintro _ ⟨⟩
    rfl
  have second : ∀ part, IsRemark ("# Source table: " ++ part) := by
    intro part
    have chars : ("# Source table: " ++ part).toList = '#' :: (" Source table: ".toList ++ part.toList) := by simp
    rw [IsRemark, chars]
    rintro _ ⟨⟩
    rfl
  simp only [List.flatMap_cons, List.flatMap_nil, mark, lines, List.append_nil, List.singleton_append,
    List.forall_mem_cons, first, second, true_and]

/-- Whatever texts a schema holds, the module of a table is a head and after it imports, imports for type checking if
there are any, and one class. Every line before the first import is empty or a comment, exactly if every further line
of the name of the table is blank or a comment. Then all text of the schema stands in comments or between quotes, and
the words of the code that is left without it are fixed ones, numbers, and names that are made fit. -/
theorem schema_text_confined {text : String} (ends : render style enums known table = .ok text) :
    ∃ made head own, module style enums known table = .ok made ∧ text = head ++ own ∧ "from".toList <+: own.toList ∧
      (∃ standard related definition, OneClass style known table made standard related definition) ∧
      ((∀ line ∈ Text.linesOf head, IsPlainRemark line) ↔ ∀ line ∈ (Text.linesOf table.name).tail, IsRemark line) ∧
      ((∀ line ∈ (Text.linesOf table.name).tail, IsRemark line) →
        ∃ code, skeleton? text = some code ∧ Proper (ModuleWord style known table made) code) := by
  obtain ⟨made, relations, ⟨emitted, _, _, _⟩, rfl⟩ := render_emitted ends
  obtain ⟨standard, related, definition, shape, doc, body⟩ := oneClass_of_module emitted
  have documented : ∀ block ∈ made.blocks, block.Documented := by
    rw [shape.blocks, List.forall_mem_append, List.forall_mem_append, List.forall_mem_map, List.forall_mem_singleton]
    refine ⟨⟨fun _ _ => trivial, ?_⟩, doc⟩
    split
    · exact nofun
    · exact List.forall_mem_singleton.mpr trivial
  obtain ⟨head, own, parts, opens, remarks, _⟩ := Module.text_parts shape.begins
  refine ⟨made, head, own, emitted, parts, opens, ⟨standard, related, definition, shape⟩,
    remarks.trans (header_remarks_iff emitted), fun plain => ?_⟩
  exact Module.skeleton_of_remarks shape.begins (fun word figure => .number figure)
    (spelled_of_module emitted shape body) documented
    ((header_remarks_iff emitted).mpr plain)

end

/-- A table of which the name goes on with a call on a second line. -/
def shouting : Table where
  name := "t\nprint(1)"
  columns := [{ name := "id", sourceType := "int4" }]
  distinct := List.nodup_singleton _

/-- A table of which the name holds quotes, and goes on with a comment. -/
def quoting : Table where
  name := "it's \"\"\"so\"\"\"\n# or '''not\\"
  columns := [{ name := "id", sourceType := "int4" }]
  distinct := List.nodup_singleton _

/-- The call stands in its module as it is, and the quotes end nothing. -/
theorem name_runs_as_code : (∃ text head own, render {} [] [shouting.name] shouting = .ok text ∧ text = head ++ own ∧
      "from".toList <+: own.toList ∧ ∃ line ∈ Text.linesOf head, ¬ IsPlainRemark line) ∧
    ∃ made text code, render {} [] [quoting.name] quoting = .ok text ∧ skeleton? text = some code ∧
      Proper (ModuleWord {} [quoting.name] quoting made) code := by
  constructor
  · obtain ⟨text, ends⟩ : ∃ text, render {} [] [shouting.name] shouting = .ok text :=
      render_ends (by simp [shouting]) (by simp) (by simp)
    obtain ⟨made, head, own, _, parts, opens, _, remarks, _⟩ := schema_text_confined ends
    refine ⟨text, head, own, ends, parts, opens, ?_⟩
    by_contra none
    have lines : Text.linesOf shouting.name = ["t", "print(1)"] := by cbv
    have remark : IsRemark "print(1)" := by
      refine remarks.mp (fun line member => ?_) _ (by rw [lines, List.tail_cons]; exact List.mem_cons_self)
      by_contra other
      exact none ⟨line, member, other⟩
    exact absurd (remark 'p' rfl) (by decide)
  · obtain ⟨text, ends⟩ : ∃ text, render {} [] [quoting.name] quoting = .ok text :=
      render_ends (by simp [quoting]) (by simp) (by simp)
    obtain ⟨made, head, own, _, _, _, _, _, confined⟩ := schema_text_confined ends
    have lines : Text.linesOf quoting.name = ["it's \"\"\"so\"\"\"", "# or '''not\\"] := by cbv
    obtain ⟨code, skeleton, proper⟩ := confined (by
      rw [lines, List.tail_cons, List.forall_mem_singleton]
      rintro _ ⟨⟩
      rfl)
    exact ⟨made, text, code, ends, skeleton, proper⟩

end TableModels.Model
