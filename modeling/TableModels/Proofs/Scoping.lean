import TableModels.Proofs.Declarations
import TableModels.Proofs.Identifiers
import TableModels.Proofs.Rendering

/-! Scopes of generated modules. What a module refers to is built in, imported or defined there, what it imports it
refers to, and no field or class hides any of it. What imports are needed is worked out apart from the declarations
that need them, so both are compared name by name. -/

namespace TableModels

namespace Model

open Schema Typing Code

variable {style : Style} {enums : Enums} {known : List String} {table : Table}

/-- How a field follows from a column. -/
structure ScalarField.Made (enums : Enums) (field : ScalarField) : Prop where
  type : field.type = Enums.fieldType enums field.column.sourceType
  default : columnDefault field.type field.column = .ok field.default
  name : ∃ used, field.name = freeName used (Naming.fieldName field.column.name)

private theorem made_of_mem_from {columns : List Column} {used : List String} {scalars : List ScalarField}
    (found : scalarFieldsFrom enums used columns = .ok scalars) : ∀ field ∈ scalars, field.Made enums := by
  induction columns generalizing used scalars with
  | nil =>
    obtain rfl : [] = scalars := Except.ok.inj found
    simp
  | cons column rest ih =>
    obtain ⟨default, others, first, later, rfl⟩ := scalarFieldsFrom_cons.mp found
    refine List.forall_mem_cons.mpr ⟨{ type := ?_, default := ?_, name := ⟨used, ?_⟩ }, ih later⟩
    · dsimp only
    · simpa only using first
    · dsimp only

theorem made_of_mem {scalars : List ScalarField} (found : scalarFields enums table = .ok scalars) :
    ∀ field ∈ scalars, field.Made enums := by
  obtain ⟨fields, inOrder, rfl⟩ := scalarFields_ok.mp found
  exact fun field member => made_of_mem_from inOrder field (List.mem_mergeSort.mp member)

namespace ScalarField.Made

variable {field : ScalarField}

private theorem not_annotated (made : field.Made enums) : field.name ∉ Naming.annotationNames := by
  obtain ⟨used, same⟩ := made.name
  rw [same]
  exact Naming.fresh_not_annotated (Naming.fieldName_not_annotated _)

private theorem kind_of_decimal {kind : LiteralKind} {literal : List Char} {digits : String}
    (read : readLiteral kind literal = .ok (some (.decimal digits))) : kind = .decimal := by
  cases kind with
  | decimal => rfl
  | int =>
    simp only [readLiteral] at read
    split at read
    · cases number : Number.readWhole literal <;> simp [number, Except.map] at read
    · cases read
  | _ => simp [readLiteral] at read

/-- A default in digits goes with the type that it needs. -/
theorem decimal (made : field.Made enums) {digits : String} (given : field.default = some (.decimal digits)) :
    "Decimal" ∈ (typeExpr field.type).names := by
  have read := made.default
  rw [given, columnDefault] at read
  split at read
  · cases read
  · split at read
    · cases read
    · have kind := kind_of_decimal read
      have text : field.type.text = "Decimal" := by
        unfold LiteralKind.ofTypeText at kind
        repeat' split at kind
        all_goals simp_all
      rw [names_typeExpr, text]
      decide

end ScalarField.Made

private theorem RelationField.Made.not_annotated {relation : RelationField} (made : relation.Made style known) :
    relation.name ∉ Naming.annotationNames := by
  obtain ⟨used, column, same⟩ := made.name
  rw [same, relationFieldName]
  apply Naming.fresh_not_annotated
  split
  · exact Naming.marked_not_annotated _
  · exact Naming.fieldName_not_annotated _

/-- What a module may import to run, by the modules that provide it. -/
def providers : List (String × List String) := standardNames ++ [("pydantic", ["BaseModel", "ConfigDict", "Field"])]

section

variable {made : Module} {own name : String} {scalars : List ScalarField} {relations : List RelationField}
  (blocks : made.blocks = imports own scalars relations ++ [.definition (modelClass name own scalars relations)])

include blocks

theorem mem_imported {id : String} : id ∈ made.imported ↔
    (∃ source ∈ standardNames, id ∈ source.2 ∧ ⟨source.1, id⟩ ∈ neededNames own scalars relations) ∨
      id ∈ baseNames scalars relations := by
  rw [imported_of_blocks blocks, List.mem_append, imported_standardImports]

private theorem imported_of_needed {required : Import} (needed : required ∈ neededNames own scalars relations) :
    required.name ∈ made.imported := by
  have standard : ∀ required ∈ knownImports ++ [⟨"typing", "Optional"⟩, ⟨"typing", "TYPE_CHECKING"⟩],
      ∃ source ∈ standardNames, source.1 = required.module ∧ required.name ∈ source.2 := by decide +kernel
  have listed : required ∈ knownImports ++ [⟨"typing", "Optional"⟩, ⟨"typing", "TYPE_CHECKING"⟩] := by
    rcases mem_neededNames.mp needed with ⟨_, _, known, _⟩ | ⟨rfl, _⟩ | ⟨rfl, _⟩
    · exact List.mem_append_left _ known
    · simp
    · simp
  obtain ⟨source, known, same, provided⟩ := standard required listed
  exact (mem_imported blocks).mpr (.inl ⟨source, known, provided, same ▸ needed⟩)

private theorem type_bound {field : ScalarField} (member : field ∈ scalars) {id : String}
    (refers : id ∈ (typeExpr field.type).names) :
    id ∈ builtinTypes ∨ id ∈ made.imported := by
  rcases known_of_names refers with builtin | ⟨required, known, rfl⟩
  · exact .inl builtin
  · exact .inr (imported_of_needed blocks (mem_neededNames.mpr (.inl ⟨field, member, known, refers⟩)))

private theorem column_bound {field : ScalarField} (member : field ∈ scalars) (follows : field.Made enums) {id : String}
    (refers : id ∈ field.declaration.names) : id ∈ builtinTypes ∨ id ∈ made.imported := by
  rw [field.names_declaration, List.mem_append, List.mem_append] at refers
  rcases refers with (optional | type) | value
  · cases nullable : field.column.nullable with
    | false => simp [nullable] at optional
    | true =>
      obtain rfl : id = "Optional" := by simpa [nullable] using optional
      exact .inr (imported_of_needed blocks (mem_neededNames.mpr (.inr (.inl ⟨rfl, .inl ⟨field, member, nullable⟩⟩))))
  · exact type_bound blocks member type
  · rcases field.names_value value with ⟨rfl, uses⟩ | builtin | ⟨rfl, digits, default⟩
    · have calls : scalars.any ScalarField.usesFieldCall = true := List.any_eq_true.mpr ⟨field, member, uses⟩
      exact .inr ((mem_imported blocks).mpr (.inr (by simp [baseNames, calls])))
    · exact .inl builtin
    · exact type_bound blocks member (follows.decimal default)

private theorem names_bound (columns : ∀ field ∈ scalars, field.Made enums) {id : String} (refers : id ∈ made.names) :
    id ∈ builtinTypes ∨ id ∈ made.imported := by
  rw [names_of_blocks blocks, List.mem_append, List.mem_append, List.mem_append] at refers
  rcases refers with ((guard | base) | column) | relation
  · split at guard
    · cases guard
    · rename_i related
      obtain rfl := List.mem_singleton.mp guard
      exact .inr (imported_of_needed blocks (mem_neededNames.mpr (.inr (.inr ⟨rfl, related⟩))))
  · exact .inr ((mem_imported blocks).mpr (.inr (List.mem_append_left _ base)))
  · obtain ⟨field, member, refers⟩ := List.mem_flatMap.mp column
    exact column_bound blocks member (columns field member) refers
  · obtain ⟨relation, member, refers⟩ := List.mem_flatMap.mp relation
    have some : relations ≠ [] := List.ne_nil_of_mem member
    rw [relation.names_declaration] at refers
    rcases List.mem_pair.mp refers with rfl | rfl
    · exact .inr (imported_of_needed blocks (mem_neededNames.mpr (.inr (.inl ⟨rfl, .inr some⟩))))
    · exact .inr ((mem_imported blocks).mpr (.inr (by simp [baseNames, some])))

private theorem used_by_column {field : ScalarField} (member : field ∈ scalars) {id : String}
    (refers : id ∈ field.declaration.names) :
    id ∈ made.names := by
  rw [names_of_blocks blocks]
  exact List.mem_append_left _ (List.mem_append_right _ (List.mem_flatMap.mpr ⟨field, member, refers⟩))

private theorem used_by_relation (some : relations ≠ []) {id : String} (refers : id ∈ ["Optional", "Field"]) :
    id ∈ made.names := by
  obtain ⟨relation, member⟩ := List.exists_mem_of_ne_nil relations some
  rw [names_of_blocks blocks]
  exact List.mem_append_right _ (List.mem_flatMap.mpr ⟨relation, member, relation.names_declaration ▸ refers⟩)

private theorem used_of_needed {required : Import} (needed : required ∈ neededNames own scalars relations) :
    required.name ∈ made.names := by
  rcases mem_neededNames.mp needed with ⟨field, member, _, refers⟩ | ⟨rfl, optional⟩ | ⟨rfl, related⟩
  · exact used_by_column blocks member (by simp [field.names_declaration, refers])
  · rcases optional with ⟨field, member, nullable⟩ | some
    · exact used_by_column blocks member (by simp [field.names_declaration, nullable])
    · exact used_by_relation blocks some (by simp)
  · rw [names_of_blocks blocks, if_neg related]
    simp

private theorem imported_used {id : String} (provided : id ∈ made.imported) : id ∈ made.names := by
  rcases (mem_imported blocks).mp provided with ⟨source, _, _, needed⟩ | base
  · exact used_of_needed blocks needed
  · rcases List.mem_append.mp base with always | call
    · rw [names_of_blocks blocks]
      exact List.mem_append_left _ (List.mem_append_left _ (List.mem_append_right _ always))
    · split at call
      · rename_i calls
        obtain rfl := List.mem_singleton.mp call
        rcases Bool.or_eq_true_iff.mp calls with column | some
        · obtain ⟨field, member, uses⟩ := List.any_eq_true.mp column
          exact used_by_column blocks member (by simp [field.names_declaration, field.field_of_usesFieldCall uses])
        · exact used_by_relation blocks (by simpa using some) (by simp)
      · cases call

private theorem provided_of_statement {statement : Statement} (block : .statement statement ∈ made.blocks) :
    ∃ source ∈ providers, ∃ names, names ⊆ source.2 ∧ statement = .importFrom 0 source.1 names := by
  simp only [blocks, imports, List.mem_append, List.mem_map, List.mem_singleton, Block.statement.injEq,
    exists_eq_right, reduceCtorEq, or_false] at block
  rcases block with (standard | rfl) | guarded
  · obtain ⟨source, known, names, rfl, _, rfl⟩ := mem_standardImports.mp standard
    exact ⟨source, List.mem_append_left _ known, _, List.filter_subset_self _, rfl⟩
  · refine ⟨_, List.mem_append_right _ List.mem_cons_self, _, fun id base => ?_, rfl⟩
    rcases List.mem_append.mp base with always | call
    · exact List.mem_append_left ["Field"] always
    · split at call
      · exact List.mem_append_right ["BaseModel", "ConfigDict"] call
      · cases call
  · split at guarded <;> simp at guarded

private theorem references_bound (linked : ∀ relation ∈ relations, relation.Made style known)
    (named : Naming.className style.singular own = .ok name)
    {id : String} (refers : id ∈ made.references) : id ∈ made.classes ∨ id ∈ made.guardedImports := by
  rw [references_of_blocks blocks] at refers
  obtain ⟨relation, member, rfl⟩ := List.mem_map.mp refers
  rw [classes_of_blocks blocks, guardedImports_of_blocks blocks]
  by_cases same : relation.targetTable = own
  · have target := (linked relation member).targetClass
    rw [same, named] at target
    exact .inl (List.mem_singleton.mpr (Except.ok.inj target).symm)
  · exact .inr (List.mem_map.mpr ⟨_, mem_relationImports.mpr ⟨relation, member, same, rfl⟩, rfl⟩)

private theorem guarded_referred : made.guardedImports ⊆ made.references := by
  intro id provided
  rw [guardedImports_of_blocks blocks] at provided
  obtain ⟨pair, related, rfl⟩ := List.mem_map.mp provided
  obtain ⟨relation, member, _, rfl⟩ := mem_relationImports.mp related
  rw [references_of_blocks blocks]
  exact List.mem_map_of_mem member

private theorem guarded_linked (linked : ∀ relation ∈ relations, relation.Made style known) {condition : String}
    {body : List Statement}
    (block : .guarded condition body ∈ made.blocks) : condition = "TYPE_CHECKING" ∧ ∀ statement ∈ body,
      ∃ target ∈ known, target ≠ own ∧ ∃ targetClass, Naming.className style.singular target = .ok targetClass ∧
        statement = .importFrom 1 (Naming.moduleName target) [targetClass] := by
  have inside : .guarded condition body ∈ imports own scalars relations := by simpa [blocks] using block
  obtain ⟨rfl, rfl⟩ := guarded_of_imports inside
  refine ⟨rfl, fun statement provided => ?_⟩
  obtain ⟨pair, related, rfl⟩ := List.mem_map.mp provided
  obtain ⟨relation, member, other, rfl⟩ := mem_relationImports.mp related
  have target := linked relation member
  exact ⟨_, target.target, other, _, target.targetClass, rfl⟩

private theorem declared_not_annotated (columns : ∀ field ∈ scalars, field.Made enums)
    (linked : ∀ relation ∈ relations, relation.Made style known)
    (named : Naming.className style.singular own = .ok name) {id : String}
    (declared : id ∈ made.fields ++ made.classes) :
    id ∉ Naming.annotationNames := by
  rw [fields_of_blocks blocks, classes_of_blocks blocks, List.mem_append, List.mem_append] at declared
  rcases declared with (column | relation) | own
  · obtain ⟨field, member, rfl⟩ := List.mem_map.mp column
    exact (columns field member).not_annotated
  · obtain ⟨field, member, rfl⟩ := List.mem_map.mp relation
    exact (linked field member).not_annotated
  · obtain rfl := List.mem_singleton.mp own
    exact Naming.className_not_annotated named

end

theorem splitChars_ne_nil (isSeparator : Char → Bool) (chars : List Char) : Text.splitChars isSeparator chars ≠ [] := by
  cases chars with
  | nil => simp [Text.splitChars]
  | cons c rest =>
    rw [Text.splitChars]
    split
    · simp
    · split <;> simp

private theorem splitChars_append_of_whole {isSeparator : Char → Bool} {start : List Char}
    (whole : ∀ c ∈ start, isSeparator c = false)
    (rest : List Char) : Text.splitChars isSeparator (start ++ rest) =
      (start ++ (Text.splitChars isSeparator rest).headD []) :: (Text.splitChars isSeparator rest).tail := by
  induction start with
  | nil =>
    obtain ⟨part, parts, split⟩ := List.exists_cons_of_ne_nil (splitChars_ne_nil isSeparator rest)
    simp [split]
  | cons c others ih =>
    obtain ⟨inside, later⟩ := List.forall_mem_cons.mp whole
    simp [Text.splitChars, inside, ih later]

private theorem withoutReturn_append {start : List Char} (whole : '\r' ∉ start) (rest : List Char) :
    Text.withoutReturn (start ++ rest) = start ++ Text.withoutReturn rest := by
  cases rest with
  | nil =>
    have last : start.getLast? ≠ some '\r' := fun last => whole (List.mem_of_getLast? last)
    simp [Text.withoutReturn, last]
  | cons c others =>
    have last : (start ++ c :: others).getLast? = (c :: others).getLast? :=
      List.getLast?_append_of_ne_nil _ (List.cons_ne_nil _ _)
    rw [Text.withoutReturn, Text.withoutReturn, last, List.dropLast_append_of_ne_nil (List.cons_ne_nil _ _)]
    split <;> rfl

/-- What stands before a text without a line end stands before its first line. -/
theorem linesOf_append {start : String} (lineFeed : '\n' ∉ start.toList) (carriageReturn : '\r' ∉ start.toList)
    (text : String) :
    Text.linesOf (start ++ text) = (start ++ (Text.linesOf text).headD "") :: (Text.linesOf text).tail := by
  have without : ∀ {mark : Char}, mark ∉ start.toList → ∀ c ∈ start.toList, (c == mark) = false := fun apart c member =>
    beq_eq_false_iff_ne.mpr fun same => apart (same ▸ member)
  obtain ⟨first, others, fed⟩ := List.exists_cons_of_ne_nil (splitChars_ne_nil (· == '\n') text.toList)
  obtain ⟨part, parts, returned⟩ :=
    List.exists_cons_of_ne_nil (splitChars_ne_nil (· == '\r') (Text.withoutReturn first))
  have lines : Text.linesOf text = String.ofList part :: (parts.map String.ofList ++ others.flatMap fun line =>
      (Text.splitChars (· == '\r') (Text.withoutReturn line)).map String.ofList) := by
    simp [Text.linesOf, fed, returned]
  rw [lines, Text.linesOf, String.toList_append, splitChars_append_of_whole (without lineFeed), fed, List.headD_cons,
    List.tail_cons, List.flatMap_cons, withoutReturn_append carriageReturn,
    splitChars_append_of_whole (without carriageReturn), returned]
  simp [String.ofList_append]

theorem linesOf_whole {text : String} (lineFeed : '\n' ∉ text.toList) (carriageReturn : '\r' ∉ text.toList) :
    Text.linesOf text = [text] := by
  have empty : Text.linesOf "" = [""] := rfl
  have lines := linesOf_append lineFeed carriageReturn ""
  rwa [String.append_empty, empty, List.headD_cons, String.append_empty] at lines

private theorem readHeader_eq (text : String) : ∃ comment, readHeader? [generatedMark, "# Source table: " ++ text] =
    ((Text.linesOf text).tail.mapM HeaderLine.read?).map ([.comment generatedMark, .comment comment] ++ ·) := by
  have lines : Text.linesOf ("# Source table: " ++ text) = _ := linesOf_append (by decide) (by decide) text
  have mark : Text.linesOf generatedMark = [generatedMark] := linesOf_whole (by decide) (by decide)
  have first : HeaderLine.read? generatedMark = some (.comment generatedMark) := by
    cbv
  have second : ∀ part, ∃ comment, HeaderLine.read? ("# Source table: " ++ part) = some (.comment comment) := by
    intro part
    have chars : ("# Source table: " ++ part).toList = '#' :: (" Source table: ".toList ++ part.toList) := by simp
    exact ⟨_, by rw [HeaderLine.read?, chars]; rfl⟩
  obtain ⟨comment, second⟩ := second ((Text.linesOf text).headD "")
  refine ⟨comment, ?_⟩
  simp only [readHeader?, List.flatMap_cons, List.flatMap_nil, mark, lines, List.append_nil, List.cons_append,
    List.nil_append, List.mapM_cons, first, second]
  cases (Text.linesOf text).tail.mapM HeaderLine.read? <;> rfl

/-- What holds of the names of the module of a table, given the tables that have modules. -/
structure Scoped (style : Style) (known : List String) (table : Table) (made : Module) : Prop where
  /-- Whatever is referred to is built in or imported. -/
  closed : ∀ name ∈ made.names, name ∈ builtinTypes ∨ name ∈ made.imported
  /-- Classes that are referred to in quotes are the module's own or imported for type checking. -/
  references : ∀ name ∈ made.references, name ∈ made.classes ∨ name ∈ made.guardedImports
  provided : ∀ statement, .statement statement ∈ made.blocks → ∃ source ∈ providers, ∃ names, names ⊆ source.2 ∧
    statement = .importFrom 0 source.1 names
  guarded : ∀ condition body, .guarded condition body ∈ made.blocks → condition = "TYPE_CHECKING" ∧ ∀ statement ∈ body,
    ∃ target ∈ known, target ≠ table.name ∧ ∃ name, Naming.className style.singular target = .ok name ∧
      statement = .importFrom 1 (Naming.moduleName target) [name]
  used : made.imported ⊆ made.names
  referred : made.guardedImports ⊆ made.references
  /-- Neither fields nor classes hide what is built in or imported. -/
  apart : ∀ name ∈ made.fields ++ made.classes, name ∉ builtinTypes ∧ ∀ source ∈ providers, name ∉ source.2
  own : ∃ name, Naming.className style.singular table.name = .ok name ∧ made.classes = [name]
  /-- The head is comments, but for further lines of the name of the table, which are read for what they are. -/
  head : ∃ comment, readHeader? made.header =
    ((Text.linesOf table.name).tail.mapM HeaderLine.read?).map ([.comment generatedMark, .comment comment] ++ ·)

/-- A module is closed, imports what it uses alone and hides nothing of it. -/
theorem module_scoped {made : Module} (ends : module style enums known table = .ok made) :
    Scoped style known table made := by
  obtain ⟨scalars, relations, name, found, named, rfl⟩ := module_ok ends
  have columns : ∀ field ∈ scalars, field.Made enums := made_of_mem (fields_ok.mp found).1
  have linked : ∀ relation ∈ relations, relation.Made style known := fields_made found
  generalize whole : Code.Module.mk _ _ = made
  have blocks : made.blocks = imports table.name scalars relations ++
      [.definition (modelClass name table.name scalars relations)] := by
    rw [← whole]
  exact
    { closed := fun id => names_bound blocks columns
      references := fun id => references_bound blocks linked named
      provided := fun statement => provided_of_statement blocks
      guarded := fun condition body => guarded_linked blocks linked
      used := fun id => imported_used blocks
      referred := guarded_referred blocks
      apart := by
        have builtin : ∀ id ∈ builtinTypes, id ∈ Naming.annotationNames := by decide +kernel
        have imported : ∀ source ∈ providers, ∀ id ∈ source.2, id ∈ Naming.annotationNames := by decide +kernel
        intro id declared
        have free := declared_not_annotated blocks columns linked named declared
        exact ⟨fun member => free (builtin id member),
          fun source known member => free (imported source known id member)⟩
      own := ⟨name, named, classes_of_blocks blocks⟩
      head := by
        rw [← whole]
        exact readHeader_eq table.name }

private theorem Scoped.imported_provided {made : Module} (whole : Scoped style known table made) {id : String}
    (imports : id ∈ made.imported) :
    ∃ source ∈ providers, id ∈ source.2 := by
  obtain ⟨block, member, inside⟩ := List.mem_flatMap.mp imports
  cases block with
  | statement statement =>
    obtain ⟨source, known, names, provided, rfl⟩ := whole.provided statement member
    exact ⟨source, known, provided inside⟩
  | guarded condition body => cases inside
  | definition definition => cases inside

def twoLines : Table where
  name := "t\nimport os"
  columns := [{ name := "id", sourceType := "int4" }]
  distinct := by decide

/-- The second line of a name is read as an import, which nothing uses. -/
theorem second_line_imported : ∃ made lines, module {} [] ["t\nimport os"] twoLines = .ok made ∧
    Scoped {} ["t\nimport os"] twoLines made ∧ readHeader? made.header = some lines ∧
      .statement (.importModule "os") ∈ lines ∧ "os" ∉ made.names := by
  have rendered : ∃ text, render {} [] ["t\nimport os"] twoLines = .ok text :=
    render_ends (by simp [twoLines]) (by simp [twoLines]) (by simp)
  obtain ⟨text, ends⟩ := rendered
  obtain ⟨made, relations, emitted, _⟩ := render_emitted ends
  have whole := module_scoped emitted.module
  obtain ⟨comment, head⟩ := whole.head
  have parts : Text.linesOf twoLines.name = ["t", "import os"] := by cbv
  have lines : (Text.linesOf twoLines.name).tail.mapM HeaderLine.read? = some [.statement (.importModule "os")] := by
    rw [parts, List.tail_cons]
    cbv
  rw [lines] at head
  refine ⟨made, _, emitted.module, whole, head, by simp, fun refers => ?_⟩
  rcases whole.closed _ refers with builtin | imported
  · exact absurd builtin (by decide)
  · obtain ⟨source, known, provided⟩ := whole.imported_provided imported
    have foreign : ∀ source ∈ providers, "os" ∉ source.2 := by decide
    exact foreign source known provided

end Model

end TableModels
