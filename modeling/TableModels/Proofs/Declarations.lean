import TableModels.Model.Emit

/-! Names in generated code: what expressions, statements and modules refer to, what they import and what they declare.
The imports that a type needs are read off its text, and come to the names that its expression refers to. -/

namespace TableModels

namespace Code

def Expr.names (expr : Expr) : List String := expr.leaves.filterMap fun
  | .name id => some id
  | _ => none

/-- The texts in an expression. In a type, each is a reference to a class. -/
def Expr.texts (expr : Expr) : List String := expr.leaves.filterMap fun
  | .text value => some value
  | _ => none

section

variable (value index : Expr) (id : String) (keywords : List (String × Expr))

theorem leavesOfKeywords_eq : leavesOfKeywords keywords = keywords.flatMap fun keyword => keyword.2.leaves := by
  induction keywords with
  | nil => rfl
  | cons keyword rest ih => rw [leavesOfKeywords, ih, List.flatMap_cons]

@[simp] theorem Expr.names_name : (Expr.name id).names = [id] := rfl

@[simp] theorem Expr.names_subscript : (Expr.subscript value [index]).names = value.names ++ index.names := by
  simp [names, leaves, leavesOfItems]

@[simp] theorem Expr.texts_subscript : (Expr.subscript value [index]).texts = value.texts ++ index.texts := by
  simp [texts, leaves, leavesOfItems]

@[simp] theorem Expr.names_call :
    (Expr.call value [] keywords).names = value.names ++ keywords.flatMap fun keyword => keyword.2.names := by
  simp [names, leaves, leavesOfItems, leavesOfKeywords_eq, List.filterMap_flatMap]

end

namespace Statement

def names : Statement → List String
  | .assign _ value => value.names
  | .declare _ type value => type.names ++ (value.map Expr.names).getD []
  | .evaluate value => value.names
  | _ => []

def references : Statement → List String
  | .declare _ type _ => type.texts
  | _ => []

def imported : Statement → List String
  | .importModule module => [module]
  | .importFrom _ _ names => names
  | _ => []

def field? : Statement → Option String
  | .declare target _ _ => some target
  | _ => none

section

variable (level : Nat) (module : String) (provided : List String)

@[simp] theorem names_importFrom : (importFrom level module provided).names = [] := rfl

@[simp] theorem references_importFrom : (importFrom level module provided).references = [] := rfl

@[simp] theorem imported_importFrom : (importFrom level module provided).imported = provided := rfl

end

end Statement

namespace Block

/-- The names that a block refers to, a base class and a condition among them. -/
def names : Block → List String
  | .statement line => line.names
  | .guarded condition body => condition :: body.flatMap Statement.names
  | .definition d => d.base :: d.body.flatMap Statement.names

def references : Block → List String
  | .statement line => line.references
  | .guarded _ body => body.flatMap Statement.references
  | .definition d => d.body.flatMap Statement.references

/-- What a block imports whenever the module runs. -/
def imported : Block → List String
  | .statement line => line.imported
  | _ => []

/-- What a block imports under a condition. -/
def guardedImports : Block → List String
  | .guarded _ body => body.flatMap Statement.imported
  | _ => []

def classes : Block → List String
  | .definition d => [d.name]
  | _ => []

def fields : Block → List String
  | .definition d => d.body.filterMap Statement.field?
  | _ => []

end Block

namespace Module

variable (module : Module)

def names : List String := module.blocks.flatMap Block.names

def references : List String := module.blocks.flatMap Block.references

def imported : List String := module.blocks.flatMap Block.imported

def guardedImports : List String := module.blocks.flatMap Block.guardedImports

def classes : List String := module.blocks.flatMap Block.classes

def fields : List String := module.blocks.flatMap Block.fields

end Module

end Code

namespace Typing

def builtinTypes : List String := ["int", "float", "str", "bool", "bytes", "list", "dict"]

private theorem identifiersFrom_close (word chars : List Char) :
    identifiersFrom word (chars ++ [']']) = identifiersFrom word chars := by
  induction chars generalizing word with
  | nil => cases word <;> rfl
  | cons c rest ih => simp only [List.cons_append, identifiersFrom, ih]

private theorem identifiers_list (item : String) :
    identifiers ("list[" ++ item ++ "]") = "list" :: identifiers item := by
  have opened : ∀ rest, identifiersFrom [] ("list[".toList ++ rest) = "list" :: identifiersFrom [] rest := fun _ => rfl
  rw [identifiers, String.toList_append, String.toList_append, List.append_assoc, opened, identifiers]
  exact congrArg _ (identifiersFrom_close [] item.toList)

private theorem identifiers_dict (value : String) :
    identifiers ("dict[str, " ++ value ++ "]") = "dict" :: "str" :: identifiers value := by
  have opened : ∀ rest, identifiersFrom [] ("dict[str, ".toList ++ rest) = "dict" :: "str" ::
    identifiersFrom [] rest := fun _ => rfl
  rw [identifiers, String.toList_append, String.toList_append, List.append_assoc, opened, identifiers]
  exact congrArg _ (congrArg _ (identifiersFrom_close [] value.toList))

end Typing

namespace Model

open Schema Typing Code

private theorem names_dict (value : FieldType) :
    (typeExpr (.dict value)).names = "dict" :: "str" :: (typeExpr value).names := by
  simp [typeExpr, Expr.names, Expr.leaves, leavesOfItems]

private theorem names_list (item : FieldType) : (typeExpr (.list item)).names = "list" :: (typeExpr item).names := by
  simp [typeExpr]

/-- A type refers to all that stands in its text. -/
theorem names_typeExpr (type : FieldType) : (typeExpr type).names = (identifiers type.text).filter (· != "None") := by
  induction type with
  | list item ih => simp [names_list, FieldType.text, identifiers_list, ih]
  | dict value ih => simp [names_dict, FieldType.text, identifiers_dict, ih]
  | _ => rfl

private theorem texts_typeExpr (type : FieldType) : (typeExpr type).texts = [] := by
  induction type with
  | list item ih =>
    rw [typeExpr, Expr.texts_subscript, ih]
    rfl
  | dict value ih =>
    have pair : (typeExpr (.dict value)).texts = (typeExpr value).texts := by
      simp [typeExpr, Expr.texts, Expr.leaves, leavesOfItems]
    rw [pair, ih]
  | _ => rfl

/-- A type is made of types that need no import and of types that are known to need one. -/
theorem known_of_names {type : FieldType} {name : String} (member : name ∈ (typeExpr type).names) :
    name ∈ builtinTypes ∨ ∃ required ∈ knownImports, required.name = name := by
  have atoms : ∀ name ∈ ["Any", "int", "float", "Decimal", "str", "bool", "bytes", "UUID", "date", "datetime", "time",
      "timedelta", "list", "dict"], name ∈ builtinTypes ∨ ∃ required ∈ knownImports, required.name = name := by
    decide +kernel
  induction type with
  | list item ih =>
    rcases List.mem_cons.mp (names_list item ▸ member) with rfl | inside
    · exact atoms _ (by simp)
    · exact ih inside
  | dict value ih =>
    rcases List.mem_cons.mp (names_dict value ▸ member) with rfl | inside
    · exact atoms _ (by simp)
    · rcases List.mem_cons.mp inside with rfl | inside
      · exact atoms _ (by simp)
      · exact ih inside
  | none => cases member
  | _ =>
    obtain rfl := List.mem_singleton.mp member
    exact atoms _ (by simp [FieldType.text])

private theorem mem_requiredImports {type : FieldType} {required : Import} :
    required ∈ requiredImports type.text ↔ required ∈ knownImports ∧ required.name ∈ (typeExpr type).names := by
  have named : ∀ required ∈ knownImports, required.name ≠ "None" := by decide
  rw [requiredImports, List.mem_filter, List.contains_iff_mem, names_typeExpr, List.mem_filter]
  exact and_congr_right fun known => by simp [named required known]

private theorem names_keyword {default : Default} {name : String} (member : name ∈ default.keyword.2.names) :
    name ∈ builtinTypes ∨ name = "Decimal" ∧ ∃ digits, default = .decimal digits := by
  cases default with
  | decimal digits => exact .inr ⟨List.mem_singleton.mp member, digits, rfl⟩
  | newList =>
    obtain rfl := List.mem_singleton.mp member
    exact .inl (by decide)
  | newDict =>
    obtain rfl := List.mem_singleton.mp member
    exact .inl (by decide)
  | _ => cases member

namespace ScalarField

variable (field : ScalarField)

def valueNames : List String := (field.value.map Expr.names).getD []

theorem value_eq : field.value =
    if field.needsAlias then
      some (.call (.name "Field") [] (field.defaultKeyword.toList ++ [("alias", .text field.column.name)]))
    else field.defaultKeyword.map fun keyword => if keyword.1 == "default" then keyword.2 else
      .call (.name "Field") [] [keyword] := rfl

theorem declaration_eq : field.declaration =
    .declare field.name (if field.column.nullable then .subscript (.name "Optional") [typeExpr field.type] else
      typeExpr field.type)
      field.value := rfl

/-- The keyword of a field is that of its default, if it has one, and else one for a column that may be empty. -/
theorem defaultKeyword_eq_some {keyword : String × Expr} : field.defaultKeyword = some keyword ↔
    (∃ default, field.default = some default ∧ default.keyword = keyword) ∨
      field.default = none ∧ field.column.nullable = true ∧ ("default", Expr.nothing) = keyword := by
  rw [defaultKeyword]
  cases field.default <;> simp

theorem names_declaration : field.declaration.names =
    (if field.column.nullable then ["Optional"] else []) ++ (typeExpr field.type).names ++ field.valueNames := by
  rw [declaration_eq, Statement.names, valueNames]
  cases field.column.nullable <;> simp

private theorem references_declaration : field.declaration.references = [] := by
  rw [declaration_eq, Statement.references]
  cases field.column.nullable with
  | true =>
    rw [if_pos rfl, Expr.texts_subscript, texts_typeExpr]
    rfl
  | false => exact texts_typeExpr field.type

private theorem names_defaultKeyword {keyword : String × Expr} (given : field.defaultKeyword = some keyword)
    {name : String}
    (member : name ∈ keyword.2.names) :
    name ∈ builtinTypes ∨ name = "Decimal" ∧ ∃ digits, field.default = some (.decimal digits) := by
  rcases field.defaultKeyword_eq_some.mp given with ⟨default, stored, rfl⟩ | ⟨_, _, rfl⟩
  · rcases names_keyword member with builtin | ⟨decimal, digits, rfl⟩
    · exact .inl builtin
    · exact .inr ⟨decimal, digits, stored⟩
  · cases member

private theorem isFactory_of_keyword {keyword : String × Expr} (given : field.defaultKeyword = some keyword)
    (other : (keyword.1 == "default") = false) :
    (field.default.map Default.isFactory).getD false = true := by
  rcases field.defaultKeyword_eq_some.mp given with ⟨default, stored, rfl⟩ | ⟨_, _, rfl⟩
  · rw [stored]
    cases default with
    | newList => rfl
    | newDict => rfl
    | _ => simp [Default.keyword] at other
  · simp at other

/-- What the value of a field refers to. -/
theorem names_value {name : String} (member : name ∈ field.valueNames) :
    name = "Field" ∧ field.usesFieldCall = true ∨ name ∈ builtinTypes ∨
      name = "Decimal" ∧ ∃ digits, field.default = some (.decimal digits) := by
  rw [valueNames, value_eq] at member
  cases aliased : field.needsAlias with
  | true =>
    simp only [aliased, if_true, Option.map_some, Option.getD_some, Expr.names_call, Expr.names_name, List.mem_append,
      List.mem_singleton, List.flatMap_append, List.flatMap_cons, List.flatMap_nil, List.append_nil] at member
    rcases member with rfl | inside | none
    · exact .inl ⟨rfl, by simp [usesFieldCall, aliased]⟩
    · obtain ⟨keyword, given, inside⟩ := List.mem_flatMap.mp inside
      exact .inr (field.names_defaultKeyword (Option.mem_toList.mp given) inside)
    · cases none
  | false =>
    cases given : field.defaultKeyword with
    | none => simp [aliased, given] at member
    | some keyword =>
      cases plain : keyword.1 == "default" with
      | true =>
        simp only [aliased, given, plain, Bool.false_eq_true, if_false, if_true, Option.map_some, Option.getD_some]
          at member
        exact .inr (field.names_defaultKeyword given member)
      | false =>
        simp only [aliased, given, plain, Bool.false_eq_true, if_false, Option.map_some, Option.getD_some,
          Expr.names_call, Expr.names_name, List.flatMap_cons, List.flatMap_nil, List.append_nil, List.mem_append,
          List.mem_singleton] at member
        rcases member with rfl | inside
        · exact .inl ⟨rfl, by rw [usesFieldCall, field.isFactory_of_keyword given plain, Bool.or_true]⟩
        · exact .inr (field.names_defaultKeyword given inside)

/-- A field that is said to use the call does. -/
theorem field_of_usesFieldCall (uses : field.usesFieldCall = true) : "Field" ∈ field.valueNames := by
  rw [valueNames, value_eq]
  cases aliased : field.needsAlias with
  | true => simp
  | false =>
    rw [usesFieldCall, aliased, Bool.false_or] at uses
    cases stored : field.default with
    | none => simp [stored] at uses
    | some default =>
      cases default with
      | newList => simp [defaultKeyword, stored, Default.keyword]
      | newDict => simp [defaultKeyword, stored, Default.keyword]
      | _ => simp [stored, Default.isFactory] at uses

end ScalarField

theorem RelationField.names_declaration (relation : RelationField) :
    relation.declaration.names = ["Optional", "Field"] := rfl

private theorem RelationField.references_declaration (relation : RelationField) :
    relation.declaration.references = [relation.targetClass] := rfl

theorem mem_standardImports {needed : List Import} {statement : Statement} :
    statement ∈ standardImports needed ↔ ∃ source ∈ standardNames, ∃ names,
      names = source.2.filter (needed.contains ⟨source.1, ·⟩) ∧
      names ≠ [] ∧ statement = .importFrom 0 source.1 names := by
  rw [standardImports, List.mem_filterMap]
  refine exists_congr fun source => and_congr_right fun _ => ?_
  dsimp only
  generalize source.2.filter (needed.contains ⟨source.1, ·⟩) = names
  cases names <;> simp [eq_comm]

theorem imported_standardImports {needed : List Import} {name : String} :
    name ∈ (standardImports needed).flatMap Statement.imported ↔ ∃ source ∈ standardNames, name ∈ source.2 ∧
      ⟨source.1, name⟩ ∈ needed := by
  rw [List.mem_flatMap]
  constructor
  · rintro ⟨statement, member, inside⟩
    obtain ⟨source, known, names, rfl, _, rfl⟩ := mem_standardImports.mp member
    obtain ⟨provided, asked⟩ := List.mem_filter.mp inside
    exact ⟨source, known, provided, List.contains_iff_mem.mp asked⟩
  · rintro ⟨source, known, provided, asked⟩
    have kept : name ∈ source.2.filter (needed.contains ⟨source.1, ·⟩) :=
      List.mem_filter.mpr ⟨provided, List.contains_iff_mem.mpr asked⟩
    exact ⟨_, mem_standardImports.mpr ⟨source, known, _, rfl, List.ne_nil_of_mem kept, rfl⟩, kept⟩

section

variable {made : Module} {own name : String} {scalars : List ScalarField} {relations : List RelationField}

theorem mem_neededNames {required : Import} : required ∈ neededNames own scalars relations ↔
    (∃ field ∈ scalars, required ∈ knownImports ∧ required.name ∈ (typeExpr field.type).names) ∨
      (required = ⟨"typing", "Optional"⟩ ∧ ((∃ field ∈ scalars, field.column.nullable = true) ∨ relations ≠ [])) ∨
      (required = ⟨"typing", "TYPE_CHECKING"⟩ ∧ relationImports own relations ≠ []) := by
  simp only [neededNames, List.mem_append, List.mem_flatMap, mem_requiredImports, or_assoc]
  refine or_congr_right (or_congr ?_ ?_)
  · simp [and_comm]
  · simp [and_comm]

/-- What the statements of a module come to is what its imports and those for type checking, its class and the fields of
its columns and relations come to. -/
theorem flatMap_blocks {α : Type} (gather : Block → List α)
    (blocks : made.blocks = imports own scalars relations ++ [.definition (modelClass name own scalars relations)]) :
    made.blocks.flatMap gather =
      (standardImports (neededNames own scalars relations)).flatMap (fun statement => gather (.statement statement)) ++
      gather (.statement (.importFrom 0 "pydantic" (baseNames scalars relations))) ++
      (if relationImports own relations = [] then []
        else gather
          (.guarded "TYPE_CHECKING" ((relationImports own relations).map fun pair => .importFrom 1 pair.1 [pair.2]))) ++
      gather (.definition (modelClass name own scalars relations)) := by
  rw [blocks, imports]
  cases relationImports own relations <;> simp [List.flatMap_map]

theorem flatMap_standardImports {α : Type} {gather : Statement → List α}
    (none : ∀ module names, gather (.importFrom 0 module names) = [])
    (needed : List Import) : (standardImports needed).flatMap gather = [] := by
  rw [List.flatMap_eq_nil_iff]
  intro statement member
  obtain ⟨source, _, names, _, _, rfl⟩ := mem_standardImports.mp member
  exact none _ _

variable (blocks : made.blocks = imports own scalars relations ++ [.definition (modelClass name own scalars relations)])

include blocks

theorem imported_of_blocks : made.imported =
    (standardImports (neededNames own scalars relations)).flatMap Statement.imported ++
      baseNames scalars relations := by
  rw [Module.imported, flatMap_blocks Block.imported blocks]
  simp [Block.imported]

theorem guardedImports_of_blocks : made.guardedImports = (relationImports own relations).map Prod.snd := by
  rw [Module.guardedImports, flatMap_blocks Block.guardedImports blocks, flatMap_standardImports fun _ _ => rfl]
  cases relationImports own relations with
  | nil => rfl
  | cons pair rest => simp [Block.guardedImports, List.flatMap_map, ← List.map_eq_flatMap]

theorem names_of_blocks : made.names = (if relationImports own relations = [] then [] else ["TYPE_CHECKING"]) ++
    ["BaseModel", "ConfigDict"] ++ scalars.flatMap (fun field => field.declaration.names) ++
      relations.flatMap fun relation => relation.declaration.names := by
  have defined : (Block.definition (modelClass name own scalars relations)).names = ["BaseModel", "ConfigDict"] ++
      (scalars.map ScalarField.declaration).flatMap Statement.names ++
          (relations.map RelationField.declaration).flatMap Statement.names := by
    simp only [Block.names, modelClass, List.flatMap_append]
    rfl
  have guarded :
      ((relationImports own relations).map fun pair => Statement.importFrom 1 pair.1 [pair.2]).flatMap
          Statement.names = [] :=
    List.flatMap_eq_nil_iff.mpr (List.forall_mem_map.mpr fun _ _ => rfl)
  rw [Module.names, flatMap_blocks Block.names blocks, flatMap_standardImports fun _ _ => rfl, defined,
    List.flatMap_map, List.flatMap_map]
  simp [Block.names, guarded]

theorem references_of_blocks : made.references = relations.map RelationField.targetClass := by
  have defined : (Block.definition (modelClass name own scalars relations)).references =
      (scalars.map ScalarField.declaration).flatMap Statement.references ++
        (relations.map RelationField.declaration).flatMap Statement.references := by
    simp only [Block.references, modelClass, List.flatMap_append]
    rfl
  have guarded :
      ((relationImports own relations).map fun pair => Statement.importFrom 1 pair.1 [pair.2]).flatMap
          Statement.references = [] :=
    List.flatMap_eq_nil_iff.mpr (List.forall_mem_map.mpr fun _ _ => rfl)
  have columns : (scalars.map ScalarField.declaration).flatMap Statement.references = [] :=
    List.flatMap_eq_nil_iff.mpr (List.forall_mem_map.mpr fun field _ => field.references_declaration)
  rw [Module.references, flatMap_blocks Block.references blocks, flatMap_standardImports fun _ _ => rfl, defined,
    columns, List.flatMap_map]
  simp [Block.references, guarded, RelationField.references_declaration, ← List.map_eq_flatMap]

theorem fields_of_blocks : made.fields = scalars.map ScalarField.name ++ relations.map RelationField.name := by
  have defined : (Block.definition (modelClass name own scalars relations)).fields =
      (scalars.map ScalarField.declaration).filterMap Statement.field? ++
          (relations.map RelationField.declaration).filterMap Statement.field? := by
    simp only [Block.fields, modelClass, List.filterMap_append]
    rfl
  have columns : Statement.field? ∘ ScalarField.declaration = some ∘ ScalarField.name := rfl
  have others : Statement.field? ∘ RelationField.declaration = some ∘ RelationField.name := rfl
  rw [Module.fields, flatMap_blocks Block.fields blocks, flatMap_standardImports fun _ _ => rfl, defined,
    List.filterMap_map, List.filterMap_map, columns, others]
  simp [Block.fields]

theorem classes_of_blocks : made.classes = [name] := by
  rw [Module.classes, flatMap_blocks Block.classes blocks, flatMap_standardImports fun _ _ => rfl]
  simp [Block.classes]
  rfl

end

end Model

end TableModels
