import TableModels.Proofs.Keyed
import TableModels.Proofs.Snapshot
import TableModels.Proofs.Steps
import TableModels.Model.Manifest

/-! What the module of a table depends on. Its columns count as they are declared. Other tables, and references to them,
count only as far as relations are embedded, and embedded relations lead to known tables. -/

namespace TableModels.Model

open Schema Typing Code

variable {style : Style} {enums : Enums} {known : List String} {table : Table}

theorem scalarFieldsFrom_cons {column : Column} {rest : List Column} {used : List String} {scalars : List ScalarField} :
    scalarFieldsFrom enums used (column :: rest) = .ok scalars ↔
      ∃ default others, columnDefault (Enums.fieldType enums column.sourceType) column = .ok default ∧
        scalarFieldsFrom enums (freeName used (Naming.fieldName column.name) :: used) rest = .ok others ∧
        scalars =
          { column, name := freeName used (Naming.fieldName column.name),
            type := Enums.fieldType enums column.sourceType, default } :: others := by
  simp only [scalarFieldsFrom, bind_ok, pure, Except.pure, Except.ok.injEq, exists_and_left, @eq_comm _ scalars]

/-- Columns are made fields exactly if each of their defaults can be read. -/
theorem scalarFieldsFrom_ok_iff {columns : List Column} (used : List String) :
    (∃ scalars, scalarFieldsFrom enums used columns = .ok scalars) ↔
      ∀ column ∈ columns, ∃ default, columnDefault (Enums.fieldType enums column.sourceType) column = .ok default := by
  induction columns generalizing used with
  | nil => exact iff_of_true ⟨[], rfl⟩ (by simp)
  | cons column rest ih =>
    rw [List.forall_mem_cons, ← ih (freeName used (Naming.fieldName column.name) :: used)]
    constructor
    · rintro ⟨_, ends⟩
      obtain ⟨default, others, first, later, _⟩ := scalarFieldsFrom_cons.mp ends
      exact ⟨⟨default, first⟩, others, later⟩
    · rintro ⟨⟨default, first⟩, others, later⟩
      exact ⟨_, scalarFieldsFrom_cons.mpr ⟨default, others, first, later, rfl⟩⟩

theorem scalarFields_ok {scalars : List ScalarField} : scalarFields enums table = .ok scalars ↔
    ∃ inOrder, scalarFieldsFrom enums [] table.columns = .ok inOrder ∧
      inOrder.mergeSort ScalarField.precedes = scalars := map_ok

theorem scalarFields_ok_iff : (∃ scalars, scalarFields enums table = .ok scalars) ↔
    ∀ column ∈ table.columns, ∃ default, columnDefault (Enums.fieldType enums column.sourceType) column =
      .ok default := by
  rw [← scalarFieldsFrom_ok_iff []]
  constructor
  · rintro ⟨_, found⟩
    obtain ⟨inOrder, read, _⟩ := scalarFields_ok.mp found
    exact ⟨inOrder, read⟩
  · rintro ⟨inOrder, read⟩
    exact ⟨_, scalarFields_ok.mpr ⟨inOrder, read, rfl⟩⟩

private theorem embedding_known {name : String} {key : ForeignKey} {target column referenced : String}
    (embedded : style.embedding name known key = .embedded target column referenced) : target ∈ known := by
  simp only [Style.embedding] at embedded
  split at embedded
  · cases embedded
  · split at embedded
    · cases embedded
    · rename_i present
      cases embedded
      simpa using present

/-- What a foreign key embeds: the column that names the relation, and where the relation leads. -/
structure Link where
  column : String
  targetTable : String
  foreignKeyColumn : String
  referencedColumn : String
  deriving DecidableEq, Repr

def Style.link? (style : Style) (table : String) (known : List String) (key : ForeignKey) : Option Link :=
  match style.embedding table known key with
  | .embedded target column referenced => some ⟨key.column, target, column, referenced⟩
  | _ => none

def Style.links (style : Style) (known : List String) (table : Table) : List Link :=
  if style.embedRelations then table.foreignKeys.filterMap (style.link? table.name known) else []

def linkFields (style : Style) (used : List String) : List Link → Except Naming.NoWord (List RelationField)
  | [] => .ok []
  | link :: rest => do
    let targetClass ← Naming.className style.singular link.targetTable
    let name := relationFieldName used (Naming.relationName link.column)
    return { name, targetTable := link.targetTable, targetClass, foreignKeyColumn := link.foreignKeyColumn,
             referencedColumn := link.referencedColumn } :: (← linkFields style (name :: used) rest)

theorem linkFields_cons {link : Link} {rest : List Link} {used : List String} {relations : List RelationField} :
    linkFields style used (link :: rest) = .ok relations ↔
      ∃ targetClass others, Naming.className style.singular link.targetTable = .ok targetClass ∧
        linkFields style (relationFieldName used (Naming.relationName link.column) :: used) rest = .ok others ∧
        relations = { name := relationFieldName used (Naming.relationName link.column), targetTable :=
          link.targetTable, targetClass,
                      foreignKeyColumn := link.foreignKeyColumn, referencedColumn := link.referencedColumn } ::
                          others := by
  simp only [linkFields, bind_ok, pure, Except.pure, Except.ok.injEq, exists_and_left, @eq_comm _ relations]

theorem relationFieldsFrom_links (name : String) (keys : List ForeignKey) (used : List String) :
    relationFieldsFrom style name known used keys =
      linkFields style used (keys.filterMap (style.link? name known)) := by
  induction keys generalizing used with
  | nil => rfl
  | cons key rest ih =>
    rw [relationFieldsFrom]
    split
    · rename_i target column referenced embedded
      have link : style.link? name known key = some ⟨key.column, target, column, referenced⟩ := by
        simp only [Style.link?, embedded]
      rw [List.filterMap_cons_some link, linkFields]
      simp only [ih]
    · rename_i nothing
      have link : style.link? name known key = none := by
        rw [Style.link?]
        split
        · rename_i target column referenced embedded
          exact absurd embedded (nothing target column referenced)
        · rfl
      rw [List.filterMap_cons_none link, ih]

/-- Other tables, and the foreign keys of a table, matter only for the links. -/
theorem relationFields_links (used : List String) :
    relationFields style table known used = linkFields style used (style.links known table) := by
  rw [relationFields, Style.links]
  split
  · exact relationFieldsFrom_links _ _ _
  · rfl

private theorem known_of_links {link : Link} (member : link ∈ style.links known table) : link.targetTable ∈ known := by
  rw [Style.links] at member
  split at member
  · obtain ⟨key, _, found⟩ := List.mem_filterMap.mp member
    rw [Style.link?] at found
    split at found
    · rename_i embedded
      obtain rfl := Option.some.inj found
      exact embedding_known embedded
    · cases found
  · cases member

/-- How the field of a relation follows from where it leads. -/
structure RelationField.Made (style : Style) (known : List String) (relation : RelationField) : Prop where
  target : relation.targetTable ∈ known
  targetClass : Naming.className style.singular relation.targetTable = .ok relation.targetClass
  name : ∃ used column, relation.name = relationFieldName used (Naming.relationName column)

private theorem linkFields_made {links : List Link} {used : List String} {relations : List RelationField}
    (leads : ∀ link ∈ links, link.targetTable ∈ known)
    (found : linkFields style used links = .ok relations) : ∀ relation ∈ relations, relation.Made style known := by
  induction links generalizing used relations with
  | nil =>
    obtain rfl : [] = relations := Except.ok.inj found
    simp
  | cons link rest ih =>
    obtain ⟨targetClass, others, named, later, rfl⟩ := linkFields_cons.mp found
    obtain ⟨target, leads⟩ := List.forall_mem_cons.mp leads
    exact List.forall_mem_cons.mpr ⟨{ target, targetClass := named, name := ⟨used, link.column, rfl⟩ }, ih leads later⟩

private theorem relationFields_made {scalarNames : List String} {relations : List RelationField}
    (found : relationFields style table known scalarNames = .ok relations) :
    ∀ relation ∈ relations, relation.Made style known :=
  linkFields_made (fun _ => known_of_links) (relationFields_links scalarNames ▸ found)

theorem className_ends {singular : Bool} {name : String} (named : singular = true → name ≠ "") :
    ∃ className, Naming.className singular name = .ok className := by
  cases singular with
  | false => exact ⟨_, rfl⟩
  | true => exact ⟨_, by rw [Naming.className, Naming.pascalName, if_pos rfl, if_neg (by simpa using named rfl)]; rfl⟩

private theorem linkFields_ends {links : List Link}
    (named : style.singular = true → ∀ link ∈ links, link.targetTable ≠ "") (used : List String) :
    ∃ relations, linkFields style used links = .ok relations := by
  induction links generalizing used with
  | nil => exact ⟨[], rfl⟩
  | cons link rest ih =>
    obtain ⟨targetClass, own⟩ := className_ends fun singular => named singular link List.mem_cons_self
    obtain ⟨others, later⟩ := ih (fun singular other member => named singular other (List.mem_cons_of_mem _ member)) _
    exact ⟨_, linkFields_cons.mpr ⟨targetClass, others, own, later, rfl⟩⟩

theorem relationFields_ends (named : style.singular = true → "" ∉ known) (table : Table) (used : List String) :
    ∃ relations, relationFields style table known used = .ok relations := by
  rw [relationFields_links]
  refine linkFields_ends (fun singular link member same => ?_) used
  exact named singular (same ▸ known_of_links member)

theorem fields_ok {scalars : List ScalarField} {relations : List RelationField} :
    fields style enums known table = .ok (scalars, relations) ↔ scalarFields enums table = .ok scalars ∧
      relationFields style table known (scalars.map ScalarField.name) = .ok relations := by
  simp only [fields, bind_ok, mapError_ok, pure, Except.pure, Except.ok.injEq, Prod.mk.injEq]
  constructor
  · rintro ⟨_, read, _, related, rfl, rfl⟩
    exact ⟨read, related⟩
  · rintro ⟨read, related⟩
    exact ⟨scalars, read, relations, related, rfl, rfl⟩

theorem fields_made {scalars : List ScalarField} {relations : List RelationField}
    (found : fields style enums known table = .ok (scalars, relations)) :
    ∀ relation ∈ relations, relation.Made style known :=
  relationFields_made (fields_ok.mp found).2

private theorem mem_insertPair {pair other : String × String} {pairs : List (String × String)} :
    other ∈ insertPair pair pairs ↔ other = pair ∨ other ∈ pairs := by
  induction pairs with
  | nil => simp [insertPair]
  | cons first rest ih =>
    rw [insertPair]
    split
    · rename_i same
      simp [same]
    · split
      · simp
      · simp [ih, or_left_comm]

/-- What a module imports for type checking are the models of its relations. -/
theorem mem_relationImports {name : String} {relations : List RelationField} {pair : String × String} :
    pair ∈ relationImports name relations ↔ ∃ relation ∈ relations, relation.targetTable ≠ name ∧
      pair = (Naming.moduleName relation.targetTable, relation.targetClass) := by
  have gathered : ∀ (kept : List RelationField) (pairs : List (String × String)),
      pair ∈ kept.foldl
        (fun pairs relation => insertPair (Naming.moduleName relation.targetTable, relation.targetClass) pairs) pairs ↔
        pair ∈ pairs ∨ ∃ relation ∈ kept, pair = (Naming.moduleName relation.targetTable, relation.targetClass) := by
    intro kept
    induction kept with
    | nil => simp
    | cons relation rest ih =>
      intro pairs
      rw [List.foldl_cons, ih, mem_insertPair, or_assoc, or_left_comm]
      simp only [List.mem_cons, exists_eq_or_imp]
  rw [relationImports, gathered]
  simp [and_assoc]

/-- The module of a table as it follows from its relations. What it imports for type checking are models of related
tables, and these are known. -/
structure Emitted (style : Style) (enums : Enums) (known : List String) (table : Table) (made : Module)
    (relations : List RelationField) : Prop where
  module : Model.module style enums known table = .ok made
  blocks : ∃ scalars name, fields style enums known table = .ok (scalars, relations) ∧
    made.blocks = imports table.name scalars relations ++ [.definition (modelClass name table.name scalars relations)]
  imported : ∀ condition body, .guarded condition body ∈ made.blocks → ∀ statement ∈ body,
    ∃ relation ∈ relations, statement = .importFrom 1 (Naming.moduleName relation.targetTable) [relation.targetClass]
  known : ∀ relation ∈ relations, relation.targetTable ∈ known

theorem guarded_of_imports {name : String} {scalars : List ScalarField} {relations : List RelationField}
    {condition : String}
    {body : List Statement} (block : .guarded condition body ∈ imports name scalars relations) :
    condition = "TYPE_CHECKING" ∧ body = (relationImports name relations).map
      fun pair => .importFrom 1 pair.1 [pair.2] := by
  simp only [imports, List.mem_append, List.mem_map, List.mem_singleton, reduceCtorEq, and_false,
    exists_false, false_or] at block
  split at block
  · simp at block
  · exact Block.guarded.inj (List.mem_singleton.mp block)

/-- A module is made of its fields and of the name of its class. -/
theorem module_ok {made : Module} (ends : module style enums known table = .ok made) :
    ∃ scalars relations name, fields style enums known table = .ok (scalars, relations) ∧
      Naming.className style.singular table.name = .ok name ∧
        made = {
          header := [generatedMark, "# Source table: " ++ table.name]
          blocks :=
              imports table.name scalars relations ++
                  [.definition (modelClass name table.name scalars relations)] } := by
  obtain ⟨⟨scalars, relations⟩, found, ends⟩ := bind_ok.mp ends
  obtain ⟨name, named, ends⟩ := bind_ok.mp ends
  exact ⟨scalars, relations, name, found, mapError_ok.mp named, (Except.ok.inj ends).symm⟩

theorem module_blocks {made : Module} (ends : module style enums known table = .ok made) :
    ∃ scalars relations name, fields style enums known table = .ok (scalars, relations) ∧
      Naming.className style.singular table.name = .ok name ∧
        made.blocks = imports table.name scalars relations ++
          [.definition (modelClass name table.name scalars relations)] := by
  obtain ⟨scalars, relations, name, found, named, rfl⟩ := module_ok ends
  exact ⟨scalars, relations, name, found, named, rfl⟩

theorem module_emitted {made : Module} (ends : module style enums known table = .ok made) :
    ∃ relations, Emitted style enums known table made relations := by
  obtain ⟨scalars, relations, name, found, _, blocks⟩ := module_blocks ends
  refine ⟨relations, ends, ⟨scalars, name, found, blocks⟩, fun condition body block statement member => ?_,
    fun relation member => (fields_made found relation member).target⟩
  have guarded : Block.guarded condition body ∈ imports table.name scalars relations := by simpa [blocks] using block
  rw [(guarded_of_imports guarded).2] at member
  obtain ⟨pair, inside, rfl⟩ := List.mem_map.mp member
  obtain ⟨relation, known, _, rfl⟩ := mem_relationImports.mp inside
  exact ⟨relation, known, rfl⟩

theorem render_emitted {text : String} (ends : render style enums known table = .ok text) :
    ∃ made relations, Emitted style enums known table made relations ∧ made.text = text := by
  obtain ⟨made, whole, same⟩ := map_ok.mp ends
  obtain ⟨relations, emitted⟩ := module_emitted whole
  exact ⟨made, relations, emitted, same⟩

private theorem render_of_scalars {names : List String} {scalars : List ScalarField}
    (read : scalarFields enums table = .ok scalars)
    (known : table.name ∈ names) (named : style.singular = true → "" ∉ names) :
    ∃ text, render style enums names table = .ok text := by
  obtain ⟨relations, embedded⟩ := relationFields_ends named table (scalars.map ScalarField.name)
  have filled : style.singular = true → table.name ≠ "" := fun singular same => named singular (same ▸ known)
  obtain ⟨name, own⟩ := className_ends filled
  have whole : ∃ made, module style enums names table = .ok made :=
    ⟨_, bind_ok.mpr ⟨(scalars, relations), fields_ok.mpr ⟨read, embedded⟩,
      bind_ok.mpr ⟨name, mapError_ok.mpr own, rfl⟩⟩⟩
  obtain ⟨made, whole⟩ := whole
  exact ⟨made.text, map_ok.mpr ⟨made, whole, rfl⟩⟩

/-- The columns of a table without defaults can be read. -/
theorem render_ends {names : List String} (plain : ∀ column ∈ table.columns, column.default = none)
    (known : table.name ∈ names)
    (named : style.singular = true → "" ∉ names) : ∃ text, render style enums names table = .ok text := by
  have defaults : ∀ column ∈ table.columns, columnDefault (Enums.fieldType enums column.sourceType) column =
      .ok none := by
    intro column member
    simp [columnDefault, plain column member]
  obtain ⟨scalars, read⟩ := scalarFields_ok_iff.mpr fun column member => ⟨none, defaults column member⟩
  exact render_of_scalars read known named

private theorem scalars_of_render {text : String} (ends : render style enums known table = .ok text) :
    ∃ scalars, scalarFields enums table = .ok scalars := by
  obtain ⟨made, relations, emitted, _⟩ := render_emitted ends
  obtain ⟨scalars, _, found, _⟩ := emitted.blocks
  exact ⟨scalars, (fields_ok.mp found).1⟩

/-- A table that is rendered in the singular has a name. -/
theorem named_of_render {text : String} (ends : render style enums known table = .ok text)
    (singular : style.singular = true) :
    table.name ≠ "" := by
  obtain ⟨made, relations, emitted, _⟩ := render_emitted ends
  obtain ⟨_, _, name, _, named, _⟩ := module_ok emitted.module
  intro nameless
  rw [singular, nameless] at named
  cases named

/-- A field without what is worked out anew on every run. -/
def ScalarField.declared (field : ScalarField) : ScalarField := { field with column := field.column.declared }

private theorem scalarFieldsFrom_declared (columns : List Column) (used : List String) :
    scalarFieldsFrom enums used (columns.map Column.declared) =
      (scalarFieldsFrom enums used columns).map (List.map ScalarField.declared) := by
  induction columns generalizing used with
  | nil => rfl
  | cons column rest ih =>
    have default : columnDefault (Enums.fieldType enums column.sourceType) column.declared =
      columnDefault (Enums.fieldType enums column.sourceType) column := rfl
    have type : column.declared.sourceType = column.sourceType := rfl
    have name : column.declared.name = column.name := rfl
    simp only [List.map_cons, scalarFieldsFrom, type, name, default, ih, bind, Except.bind]
    cases columnDefault (Enums.fieldType enums column.sourceType) column with
    | error cause => simp only [Except.map]
    | ok value =>
      cases scalarFieldsFrom enums (freeName used (Naming.fieldName column.name) :: used) rest with
      | error cause => simp only [Except.map]
      | ok others => simp only [Except.map, pure, Except.pure, List.map_cons, ScalarField.declared]

private theorem scalarFields_declared (table : Table) :
    scalarFields enums table.declared = (scalarFields enums table).map (List.map ScalarField.declared) := by
  have columns : table.declared.columns = table.columns.map Column.declared := rfl
  rw [scalarFields, scalarFields, columns, scalarFieldsFrom_declared]
  cases scalarFieldsFrom enums [] table.columns with
  | error cause => rfl
  | ok scalars =>
    have same : ∀ first ∈ scalars, ∀ second ∈ scalars,
        first.precedes second = first.declared.precedes second.declared := fun _ _ _ _ => rfl
    simp only [Except.map, List.map_mergeSort same]

/-- Of the enumerated types only the names make a difference to the types of columns. -/
theorem fieldType_congr {others : Enums} (names : ∀ name, name ∈ Keyed.names others ↔ name ∈ Keyed.names enums) :
    Enums.fieldType others = Enums.fieldType enums := by
  have contains : ∀ key, Keyed.contains others key = Keyed.contains enums key := by
    intro key
    have both := names key
    rw [Keyed.mem_names, Keyed.mem_names] at both
    exact Bool.eq_iff_iff.mpr both
  funext source
  simp only [Enums.fieldType, Enums.baseType?, contains]

private theorem scalarFieldsFrom_types {others : Enums} (types : Enums.fieldType others = Enums.fieldType enums)
    (columns : List Column)
    (used : List String) : scalarFieldsFrom others used columns = scalarFieldsFrom enums used columns := by
  induction columns generalizing used with
  | nil => rfl
  | cons column rest ih => simp only [scalarFieldsFrom, types, ih]

private theorem scalarFields_alike {others : Enums} {other : Table}
    (types : Enums.fieldType others = Enums.fieldType enums)
    (same : other.declared = table.declared) :
    (scalarFields others other).map (List.map ScalarField.declared) =
      (scalarFields enums table).map (List.map ScalarField.declared) := by
  rw [← scalarFields_declared, ← scalarFields_declared, same, scalarFields, scalarFields, scalarFieldsFrom_types types]

/-- A table that can be rendered can also be rendered with other references. -/
theorem render_ends_alike {others : Enums} {other : Table} {less : List String} {text : String}
    (types : Enums.fieldType others = Enums.fieldType enums) (same : other.declared = table.declared)
    (ends : render style enums known table = .ok text) (member : other.name ∈ less)
    (named : style.singular = true → "" ∉ less) :
    ∃ text, render style others less other = .ok text := by
  obtain ⟨scalars, read⟩ := scalars_of_render ends
  have alike := scalarFields_alike types same
  rw [read] at alike
  cases again : scalarFields others other with
  | error cause => simp [again, Except.map] at alike
  | ok fields => exact render_of_scalars again member named

private theorem imports_declared (name : String) (scalars : List ScalarField) (relations : List RelationField) :
    imports name (scalars.map ScalarField.declared) relations = imports name scalars relations := by
  have needed : neededNames name (scalars.map ScalarField.declared) relations = neededNames name scalars relations := by
    simp only [neededNames, List.flatMap_map, List.any_map]
    rfl
  have bases : baseNames (scalars.map ScalarField.declared) relations = baseNames scalars relations := by
    simp only [baseNames, List.any_map]
    rfl
  simp only [imports, needed, bases]

private theorem modelClass_declared (name table : String) (scalars : List ScalarField)
    (relations : List RelationField) :
    modelClass name table (scalars.map ScalarField.declared) relations = modelClass name table scalars relations := by
  have declarations : (scalars.map ScalarField.declared).map ScalarField.declaration =
      scalars.map ScalarField.declaration := by
    rw [List.map_map]
    rfl
  simp only [modelClass, declarations]

/-- A text follows from what is declared of its table, from the types of its columns and from its links. -/
theorem render_alike {others : Enums} {other : Table} {less : List String}
    (types : Enums.fieldType others = Enums.fieldType enums)
    (same : other.declared = table.declared) (links : style.links less other = style.links known table) :
    render style others less other = render style enums known table := by
  have name : other.name = table.name := (congrArg Table.name same : other.declared.name = table.declared.name)
  have alike := scalarFields_alike types same
  simp only [render, module, fields, relationFields_links, links, name]
  cases left : scalarFields others other with
  | error cause =>
    cases right : scalarFields enums table with
    | error fault =>
      rw [left, right] at alike
      cases alike
      rfl
    | ok scalars => simp [left, right, Except.map] at alike
  | ok first =>
    cases right : scalarFields enums table with
    | error fault => simp [left, right, Except.map] at alike
    | ok second =>
      rw [left, right] at alike
      have declared : first.map ScalarField.declared = second.map ScalarField.declared := Except.ok.inj alike
      have names : first.map ScalarField.name = second.map ScalarField.name := by
        have forgotten : ∀ scalars : List ScalarField, (scalars.map ScalarField.declared).map ScalarField.name =
            scalars.map ScalarField.name := by
          intro scalars
          rw [List.map_map]
          rfl
        rw [← forgotten first, declared, forgotten second]
      have imported : ∀ relations, imports table.name first relations = imports table.name second relations := by
        intro relations
        rw [← imports_declared, declared, imports_declared]
      have defined : ∀ className relations,
          modelClass className table.name first relations = modelClass className table.name second relations := by
        intro className relations
        rw [← modelClass_declared, declared, modelClass_declared]
      simp only [Except.map, bind, Except.bind, Except.mapError, names]
      cases linkFields style (second.map ScalarField.name) (style.links known table) with
      | error cause => rfl
      | ok relations => simp only [pure, Except.pure, imported, defined]

/-- Without embedded relations other tables do not matter at all. -/
theorem render_congr (plain : style.embedRelations = false) {other : Table} (same : other.declared = table.declared)
    (known others : List String) : render style enums known table = render style enums others other :=
  (render_alike rfl same (by simp [Style.links, plain])).symm

end TableModels.Model
