import TableModels.Code.Formatted
import TableModels.Model.Field
import TableModels.Report
import TableModels.Typing.Import

/-! The module that holds the model of one table. -/

namespace TableModels.Model

open Schema Typing Code

/-- The type in generated code. -/
def typeExpr : FieldType → Expr
  | .list item => .subscript (.name "list") [typeExpr item]
  | .dict value => .subscript (.name "dict") [.name "str", typeExpr value]
  | .none => .nothing
  | type => .name type.text

private def optional (type : Expr) : Expr := .subscript (.name "Optional") [type]

private def fieldCall (keywords : List (String × Expr)) : Expr := .call (.name "Field") [] keywords

namespace ScalarField

/-- The field is filled from its column by name only if both names agree. -/
def needsAlias (field : ScalarField) : Bool :=
  field.name != field.column.name || isObjectType field.column.sourceType

/-- Optional columns without a default of their own start empty. -/
def defaultKeyword (field : ScalarField) : Option (String × Expr) :=
  match field.default with
  | some default => some default.keyword
  | none => if field.column.nullable then some ("default", .nothing) else none

def value (field : ScalarField) : Option Expr :=
  if field.needsAlias then
    some (fieldCall (field.defaultKeyword.toList ++ [("alias", .text field.column.name)]))
  else field.defaultKeyword.map fun keyword => if keyword.1 == "default" then keyword.2 else fieldCall [keyword]

def declaration (field : ScalarField) : Statement :=
  let type := typeExpr field.type
  .declare field.name (if field.column.nullable then optional type else type) field.value

def usesFieldCall (field : ScalarField) : Bool :=
  field.needsAlias || (field.default.map Default.isFactory).getD false

end ScalarField

def RelationField.value (field : RelationField) : Expr :=
  fieldCall [("default", .nothing), ("description", .text field.description)]

def RelationField.declaration (field : RelationField) : Statement :=
  .declare field.name (optional (.text field.targetClass)) (some field.value)

/-- The modules of the standard library that a model may import from, with their names, in order. -/
def standardNames : List (String × List String) :=
  [("datetime", ["date", "datetime", "time", "timedelta"]), ("decimal", ["Decimal"]),
    ("typing", ["Any", "Optional", "TYPE_CHECKING"]), ("uuid", ["UUID"])]

/-- Pairs in ascending order without repetition. -/
def insertPair (pair : String × String) : List (String × String) → List (String × String)
  | [] => [pair]
  | first :: rest =>
    if pair = first then first :: rest
    else if pair.1 < first.1 || (pair.1 == first.1 && pair.2 < first.2) then pair :: first :: rest
    else first :: insertPair pair rest

/-- The modules and classes of the related models, a table's own excepted. -/
def relationImports (table : String) (relations : List RelationField) : List (String × String) :=
  (relations.filter fun relation => relation.targetTable != table).foldl
    (fun imports relation => insertPair (Naming.moduleName relation.targetTable, relation.targetClass) imports) []

def neededNames (table : String) (scalars : List ScalarField) (relations : List RelationField) : List Import :=
  scalars.flatMap (fun field => requiredImports field.type.text)
    ++ (if scalars.any (·.column.nullable) || !relations.isEmpty then [⟨"typing", "Optional"⟩] else [])
    ++ (if (relationImports table relations).isEmpty then [] else [⟨"typing", "TYPE_CHECKING"⟩])

def standardImports (needed : List Import) : List Statement :=
  standardNames.filterMap fun (module, names) =>
    let names := names.filter fun name => needed.contains ⟨module, name⟩
    if names.isEmpty then none else some (.importFrom 0 module names)

def baseNames (scalars : List ScalarField) (relations : List RelationField) : List String :=
  ["BaseModel", "ConfigDict"]
    ++ (if scalars.any ScalarField.usesFieldCall || !relations.isEmpty then ["Field"] else [])

def imports (table : String) (scalars : List ScalarField) (relations : List RelationField) : List Block :=
  let related := relationImports table relations
  (standardImports (neededNames table scalars relations)).map .statement
    ++ [.statement (.importFrom 0 "pydantic" (baseNames scalars relations))]
    ++ (if related.isEmpty then []
      else [.guarded "TYPE_CHECKING" (related.map fun (module, className) => .importFrom 1 module [className])])

inductive EmitFault where
  /-- A default of a column cannot be read. -/
  | default (table : String) (cause : Number.TooManyDigits)
  /-- A table has no name to make a class name of. -/
  | noWord (cause : Naming.NoWord)
  deriving DecidableEq, Repr

/-- The failure of a model with a default that cannot be read. -/
def renderFailure (table : String) (cause : Number.TooManyDigits) : Report :=
  .codeGeneration s!"Failed to render model for table '{table}': {cause.message}" (some table)

def generatedMark : String := "# GENERATED CODE - DO NOT MODIFY BY HAND"

private def settings : Statement :=
  .assign "model_config" (.call (.name "ConfigDict") []
    [("populate_by_name", .truth true), ("protected_namespaces", .emptyTuple)])

def modelClass (name : String) (table : String) (scalars : List ScalarField) (relations : List RelationField) :
    ClassDefinition where
  name := name
  base := "BaseModel"
  doc := s!"Represents the '{table}' table."
  body := settings :: scalars.map ScalarField.declaration ++ relations.map RelationField.declaration

/-- The fields of a table. -/
def fields (style : Style) (enums : Enums) (known : List String) (table : Table) :
    Except EmitFault (List ScalarField × List RelationField) := do
  let scalars ← (scalarFields enums table).mapError (.default table.name)
  let relations ← (relationFields style table known (scalars.map ScalarField.name)).mapError .noWord
  return (scalars, relations)

/-- The module of a table, when `known` are the tables that have a module. -/
def module (style : Style) (enums : Enums) (known : List String) (table : Table) : Except EmitFault Module := do
  let (scalars, relations) ← fields style enums known table
  let name ← (Naming.className style.singular table.name).mapError .noWord
  return {
    header := [generatedMark, "# Source table: " ++ table.name]
    blocks := imports table.name scalars relations ++ [.definition (modelClass name table.name scalars relations)] }

def render (style : Style) (enums : Enums) (known : List String) (table : Table) : Except EmitFault String :=
  (module style enums known table).map Module.text

def fileName (table : String) : String := Naming.moduleName table ++ ".py"

/-- The files that go when a table is dropped. -/
def artifacts (table : String) : List String :=
  [Naming.moduleName table ++ ".py", Naming.moduleName table ++ ".pyi"]

/-- What the layout of a module has to say. -/
def layoutNotes (file : String) (module : Module) : List Log.Line :=
  match module.formatted? with
  | some _ => [Log.debug s!"Formatted code using Black: {file}"]
  | none =>
    [Log.error "Could not format Python code using Black",
      Log.warning "Writing unformatted Python code due to Black error."]

def renderNotes (style : Style) (enums : Enums) (known : List String) (table : Table) : List Log.Line :=
  columnNotes enums table.name table.columns ++
    match scalarFields enums table with
    | .error _ => []
    | .ok _ =>
      relationNotes style table known ++
        match module style enums known table with
        | .ok module => layoutNotes (fileName table.name) module
        | .error _ => []

end TableModels.Model
