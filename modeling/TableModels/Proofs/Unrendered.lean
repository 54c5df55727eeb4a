import TableModels.Proofs.TypeTexts
import TableModels.Proofs.NumericDefaults
import TableModels.Run.Failure

/-! Tables that cannot be rendered. The one step of rendering that fails is the reading of a default as a whole
number, and it fails for too many digits only. Numbers that have been read have few enough digits to be written. -/

namespace TableModels

namespace Number

private theorem withSign_splitSign (chars : List Char) : withSign (splitSign chars).1 (splitSign chars).2 = chars := by
  unfold splitSign
  split <;> rfl

private theorem splitSign_digits (negative : Bool) {digits : List Char} (each : ∀ c ∈ digits, Text.isDigit c = true) :
    splitSign (withSign negative digits) = (negative, digits) := by
  cases negative with
  | true => rfl
  | false =>
    rw [withSign, if_neg Bool.false_ne_true, splitSign.eq_def]
    split
    · exact absurd (each '-' List.mem_cons_self) (by decide)
    · rfl

private theorem isWhole_iff {chars : List Char} : isWhole chars = true ↔
    ∃ negative digits, chars = withSign negative digits ∧ digits ≠ [] ∧ ∀ c ∈ digits, Text.isDigit c = true := by
  constructor
  · intro whole
    simp only [isWhole, Bool.and_eq_true, Bool.not_eq_true', List.isEmpty_eq_false_iff, List.all_eq_true] at whole
    exact ⟨_, _, (withSign_splitSign chars).symm, whole⟩
  · rintro ⟨negative, digits, rfl, some, each⟩
    rw [isWhole, splitSign_digits negative each]
    simpa using ⟨some, each⟩

private theorem digitValue?_lt {c : Char} {value : Nat} (digit : Text.digitValue? c = some value) : value < 10 := by
  rw [Text.digitValue?] at digit
  split at digit
  · split at digit
    · rename_i ascii
      obtain rfl := Option.some.inj digit
      simp only [Text.isAsciiDigit, Bool.and_eq_true, decide_eq_true_eq] at ascii
      have below : c.toNat ≤ '9'.toNat := ascii.2
      have nine : '9'.toNat = 57 := rfl
      have zero : '0'.toNat = 48 := rfl
      omega
    · cases digit
  · obtain ⟨offset, _, rfl⟩ := Option.map_eq_some_iff.mp digit
    exact Nat.mod_lt _ (by decide)

private theorem ofDigits_lt (digits : List Char) : ofDigits digits < 10 ^ digits.length := by
  have onward : ∀ chars start length, start < 10 ^ length →
      List.foldl (fun n c => n * 10 + (Text.digitValue? c).getD 0) start chars < 10 ^ (length + chars.length) := by
    intro chars
    induction chars with
    | nil => exact fun _ _ below => below
    | cons c rest ih =>
      intro start length below
      have small : (Text.digitValue? c).getD 0 < 10 := by
        cases digit : Text.digitValue? c with
        | none => decide
        | some value => exact digitValue?_lt digit
      have next : start * 10 + (Text.digitValue? c).getD 0 < 10 ^ (length + 1) := by
        rw [Nat.pow_succ]
        omega
      have later := ih _ _ next
      rw [List.foldl_cons, List.length_cons]
      rwa [Nat.add_assoc, Nat.add_comm 1] at later
  have whole := onward digits 0 0 (by decide)
  rwa [Nat.zero_add] at whole

private theorem digitCount_of_readWhole {chars : List Char} {value : Int} (read : readWhole chars = .ok value) :
    Binary64.digitCount value.natAbs ≤ digitLimit := by
  rw [readWhole] at read
  split at read
  rename_i negative digits _
  split at read
  · cases read
  · rename_i few
    obtain rfl := Except.ok.inj read
    have size : (signed negative (ofDigits digits)).natAbs = ofDigits digits := by
      cases negative <;> simp [signed]
    have below : ofDigits digits < 10 ^ digitLimit :=
      Nat.lt_of_lt_of_le (ofDigits_lt digits) (Nat.pow_le_pow_right (by decide) (Nat.le_of_not_lt few))
    rw [size]
    exact (Binary64.digitCount_le (by decide)).mpr below

private theorem readWhole_error {negative : Bool} {digits : List Char} (each : ∀ c ∈ digits, Text.isDigit c = true)
    {cause : TooManyDigits} :
    readWhole (withSign negative digits) = .error cause ↔ digitLimit < digits.length ∧ cause = ⟨digits.length⟩ := by
  rw [readWhole, splitSign_digits negative each]
  dsimp only
  split
  · rename_i many
    simp [many, eq_comm]
  · rename_i few
    simp [few]

end Number

namespace Model

open Schema Typing Code

/-- The default of a column that is no primary key and whose field is a whole number is one, but for casts and a sign,
of more digits than are converted. -/
structure Overlong (enums : Enums) (column : Column) (count : Nat) : Prop where
  free : column.isPrimaryKey = false
  type : Enums.fieldType enums column.sourceType = .int
  default : ∃ default negative digits, column.default = some default ∧ withoutCastsChars default.toList =
    Number.withSign negative digits ∧
    (∀ c ∈ digits, Text.isDigit c = true) ∧ digits.length = count
  long : Number.digitLimit < count

private theorem kind_int_iff (type : FieldType) : LiteralKind.ofTypeText type.text = .int ↔ type = .int := by
  have kind : ∀ text, LiteralKind.ofTypeText text = .int → text = "int" := by
    intro text same
    unfold LiteralKind.ofTypeText at same
    repeat' split at same
    all_goals simp_all
  have other : ∀ start text ending, start.toList.head? = some 'l' ∨ start.toList.head? = some 'd' →
      start ++ text ++ ending ≠ "int" := by
    intro start text ending first same
    have chars := congrArg (·.toList.head?) same
    rcases first with first | first <;> simp [List.head?_append, first] at chars
  cases type with
  | list item => exact ⟨fun same => absurd (kind _ same) (other _ _ _ (.inl rfl)), fun same => by cases same⟩
  | dict value => exact ⟨fun same => absurd (kind _ same) (other _ _ _ (.inr rfl)), fun same => by cases same⟩
  | _ => decide

private theorem readLiteral_error {kind : LiteralKind} {literal : List Char} {cause : Number.TooManyDigits} :
    readLiteral kind literal = .error cause ↔ kind = .int ∧ ∃ negative digits,
      literal = Number.withSign negative digits ∧
      (∀ c ∈ digits, Text.isDigit c = true) ∧ Number.digitLimit < digits.length ∧ cause = ⟨digits.length⟩ := by
  constructor
  · intro fails
    cases kind with
    | int =>
      rw [readLiteral] at fails
      split at fails
      · rename_i whole
        obtain ⟨negative, digits, rfl, _, each⟩ := Number.isWhole_iff.mp whole
        cases read : Number.readWhole (Number.withSign negative digits) with
        | ok value => simp [read, Except.map] at fails
        | error fault =>
          rw [read] at fails
          obtain rfl := Except.error.inj fails
          exact ⟨rfl, negative, digits, rfl, each, (Number.readWhole_error each).mp read⟩
      · cases fails
    | _ => simp [readLiteral] at fails
  · rintro ⟨rfl, negative, digits, rfl, each, long⟩
    have some : digits ≠ [] := by
      rintro rfl
      exact absurd long.1 (by decide)
    rw [readLiteral, if_pos (Number.isWhole_iff.mpr ⟨negative, digits, rfl, some, each⟩),
      (Number.readWhole_error each).mpr long]
    rfl

variable {enums : Enums} {column : Column}

private theorem columnDefault_error {cause : Number.TooManyDigits} :
    columnDefault (Enums.fieldType enums column.sourceType) column = .error cause ↔
      Overlong enums column cause.count := by
  obtain ⟨count⟩ := cause
  rw [columnDefault]
  constructor
  · intro fails
    split at fails
    · cases fails
    · rename_i free
      split at fails
      · cases fails
      · rename_i default given
        obtain ⟨kind, negative, digits, literal, each, long, same⟩ := readLiteral_error.mp fails
        obtain rfl := Number.TooManyDigits.mk.inj same
        exact ⟨by simpa using free, (kind_int_iff _).mp kind, ⟨default, negative, digits, given, literal, each, rfl⟩,
          long⟩
  · rintro ⟨free, type, ⟨default, negative, digits, given, literal, each, rfl⟩, long⟩
    rw [if_neg (by simp [free]), given]
    exact readLiteral_error.mpr ⟨(kind_int_iff _).mpr type, negative, digits, literal, each, long, rfl⟩

theorem Overlong.columnDefault {count : Nat} (overlong : Overlong enums column count) :
    columnDefault (Enums.fieldType enums column.sourceType) column = .error ⟨count⟩ := columnDefault_error.mpr overlong

private theorem scalarFieldsFrom_overlong {rest : List Column} {used : List String} {cause : Number.TooManyDigits}
    (first : columnDefault (Enums.fieldType enums column.sourceType) column = .error cause) :
    scalarFieldsFrom enums used (column :: rest) = .error cause := by
  simp only [scalarFieldsFrom, first, bind, Except.bind]

private theorem scalarFieldsFrom_later {rest : List Column} {used : List String} {default : Option Default}
    (first : columnDefault (Enums.fieldType enums column.sourceType) column = .ok default)
    (cause : Number.TooManyDigits) :
    scalarFieldsFrom enums used (column :: rest) = .error cause ↔
      scalarFieldsFrom enums (freeName used (Naming.fieldName column.name) :: used) rest = .error cause := by
  simp only [scalarFieldsFrom, first, bind, Except.bind]
  cases scalarFieldsFrom enums (freeName used (Naming.fieldName column.name) :: used) rest <;> simp [pure, Except.pure]

private theorem scalarFieldsFrom_error {columns : List Column} {used : List String} {cause : Number.TooManyDigits} :
    scalarFieldsFrom enums used columns = .error cause ↔ ∃ before column after, columns = before ++ column :: after ∧
      (∀ other ∈ before, ∀ count, ¬ Overlong enums other count) ∧ Overlong enums column cause.count := by
  induction columns generalizing used with
  | nil => simp [scalarFieldsFrom]
  | cons column rest ih =>
    cases first : columnDefault (Enums.fieldType enums column.sourceType) column with
    | error fault =>
      have own := columnDefault_error.mp first
      rw [scalarFieldsFrom_overlong first]
      constructor
      · intro same
        obtain rfl := Except.error.inj same
        exact ⟨[], column, rest, rfl, by simp, own⟩
      · rintro ⟨before, other, after, same, none, overlong⟩
        cases before with
        | nil =>
          obtain rfl := (List.cons.inj same).1
          obtain rfl := Except.error.inj (first.symm.trans (columnDefault_error.mpr overlong))
          rfl
        | cons head before =>
          obtain rfl := (List.cons.inj same).1
          exact absurd own (none column List.mem_cons_self fault.count)
    | ok default =>
      have read : ∀ count, ¬ Overlong enums column count := by
        intro count overlong
        cases first.symm.trans overlong.columnDefault
      rw [scalarFieldsFrom_later first, ih]
      constructor
      · rintro ⟨before, other, after, rfl, none, overlong⟩
        exact ⟨column :: before, other, after, rfl, List.forall_mem_cons.mpr ⟨read, none⟩, overlong⟩
      · rintro ⟨before, other, after, same, none, overlong⟩
        cases before with
        | nil =>
          obtain rfl := (List.cons.inj same).1
          exact absurd overlong (read _)
        | cons head before =>
          exact ⟨before, other, after, (List.cons.inj same).2, (List.forall_mem_cons.mp none).2, overlong⟩

private theorem scalarFieldsFrom_ok {columns : List Column} {used : List String} {scalars : List ScalarField}
    (ends : scalarFieldsFrom enums used columns = .ok scalars) :
    ∀ column ∈ columns, ∀ count, ¬ Overlong enums column count := by
  intro column member count overlong
  obtain ⟨default, read⟩ := (scalarFieldsFrom_ok_iff used).mp ⟨scalars, ends⟩ column member
  cases read.symm.trans overlong.columnDefault

private theorem scalarFields_error {table : Table} {cause : Number.TooManyDigits} :
    scalarFields enums table = .error cause ↔ ∃ before column after, table.columns = before ++ column :: after ∧
      (∀ other ∈ before, ∀ count, ¬ Overlong enums other count) ∧ Overlong enums column cause.count := by
  rw [← @scalarFieldsFrom_error enums table.columns [] cause, scalarFields]
  cases scalarFieldsFrom enums [] table.columns <;> simp [Except.map]

section

variable (value index : Expr) (keywords : List (String × Expr))

private theorem wholes_subscript : (Expr.subscript value [index]).wholes = value.wholes ++ index.wholes := by
  simp [Expr.wholes, Expr.leaves, leavesOfItems]

private theorem wholes_call :
    (Expr.call value [] keywords).wholes = value.wholes ++ keywords.flatMap fun keyword => keyword.2.wholes := by
  simp [Expr.wholes, Expr.leaves, leavesOfItems, leavesOfKeywords_eq, List.filterMap_flatMap]

private theorem wholes_name (id : String) : (Expr.name id).wholes = [] := rfl

private theorem wholes_text (text : String) : (Expr.text text).wholes = [] := rfl

end

private theorem wholes_typeExpr (type : FieldType) : (typeExpr type).wholes = [] := by
  induction type with
  | list item ih => rw [typeExpr, wholes_subscript, ih]; rfl
  | dict value ih =>
    have both : (typeExpr (.dict value)).wholes = (Expr.name "dict").wholes ++
        ((Expr.name "str").wholes ++ (typeExpr value).wholes) := by
      simp [typeExpr, Expr.wholes, Expr.leaves, leavesOfItems]
    rw [both, ih]
    rfl
  | _ => rfl

private theorem whole_of_defaultKeyword {field : ScalarField} {keyword : String × Expr}
    (given : field.defaultKeyword = some keyword) {value : Int}
    (member : value ∈ keyword.2.wholes) : field.default = some (.int value) := by
  rcases field.defaultKeyword_eq_some.mp given with ⟨default, stored, rfl⟩ | ⟨_, _, rfl⟩
  · rw [stored]
    cases default with
    | int number =>
      obtain rfl := List.mem_singleton.mp member
      rfl
    | _ => cases member
  · cases member

private theorem whole_of_declaration {field : ScalarField} {value : Int} (member : value ∈ field.declaration.wholes) :
    field.default = some (.int value) := by
  have type : (if field.column.nullable then Expr.subscript (.name "Optional") [typeExpr field.type] else
      typeExpr field.type).wholes = [] := by
    split
    · rw [wholes_subscript, wholes_typeExpr, wholes_name]; rfl
    · exact wholes_typeExpr _
  rw [field.declaration_eq, Statement.wholes, type, List.nil_append, field.value_eq] at member
  cases given : field.defaultKeyword with
  | none =>
    rw [given] at member
    split at member
    · simp [wholes_call, wholes_name, wholes_text] at member
    · cases member
  | some keyword =>
    apply whole_of_defaultKeyword given
    rw [given] at member
    split at member
    · simpa [wholes_call, wholes_name, wholes_text] using member
    · simp only [Option.map_some, Option.getD_some] at member
      split at member
      · exact member
      · simpa [wholes_call, wholes_name] using member

private theorem wholes_of_blocks {made : Module} {own name : String} {scalars : List ScalarField}
    {relations : List RelationField}
    (blocks : made.blocks = imports own scalars relations ++ [.definition (modelClass name own scalars relations)]) :
    made.wholes = scalars.flatMap fun field => field.declaration.wholes := by
  have guarded :
      ((relationImports own relations).map fun pair => Statement.importFrom 1 pair.1 [pair.2]).flatMap
          Statement.wholes = [] :=
    List.flatMap_eq_nil_iff.mpr (List.forall_mem_map.mpr fun _ _ => rfl)
  have related : (relations.map RelationField.declaration).flatMap Statement.wholes = [] :=
    List.flatMap_eq_nil_iff.mpr (List.forall_mem_map.mpr fun _ _ => rfl)
  have defined : (Block.definition (modelClass name own scalars relations)).wholes = scalars.flatMap
      fun field => field.declaration.wholes := by
    have body : (Block.definition (modelClass name own scalars relations)).wholes =
        (scalars.map ScalarField.declaration).flatMap Statement.wholes ++
        (relations.map RelationField.declaration).flatMap Statement.wholes := by
      rw [← List.flatMap_append]
      rfl
    rw [body, related, List.append_nil, List.flatMap_map]
  have checked :
    (Block.guarded "TYPE_CHECKING" ((relationImports own relations).map
      fun pair => .importFrom 1 pair.1 [pair.2])).wholes = [] := guarded
  rw [Module.wholes, flatMap_blocks Block.wholes blocks, flatMap_standardImports fun _ _ => rfl,
    defined, checked, ite_self]
  rfl

private theorem short_of_columnDefault {type : FieldType} {column : Column} {value : Int}
    (read : columnDefault type column = .ok (some (.int value))) :
    Binary64.digitCount value.natAbs ≤ Number.digitLimit := by
  rw [columnDefault] at read
  split at read
  · cases read
  · split at read
    · cases read
    · rw [readDefault] at read
      cases kind : LiteralKind.ofTypeText type.text with
      | int =>
        rw [kind, readLiteral] at read
        split at read
        · rename_i default _ _
          cases number : Number.readWhole (withoutCastsChars default.toList) with
          | error cause => simp [number, Except.map] at read
          | ok whole =>
            obtain rfl : whole = value := by simpa [number, Except.map] using read
            exact Number.digitCount_of_readWhole number
        · cases read
      | _ => simp [kind, readLiteral] at read

variable {style : Style} {known : List String} {table : Table}

private theorem renderStepwise_eq (style : Style) (enums : Enums) (known : List String) (table : Table) :
    renderStepwise style enums known table = (render style enums known table).mapError .fault := by
  rw [renderStepwise, moduleStepwise_eq, render]
  cases ends : module style enums known table with
  | error fault => rfl
  | ok made =>
    obtain ⟨scalars, relations, name, found, _, rfl⟩ := module_ok ends
    have short : (Code.Module.mk [generatedMark, "# Source table: " ++ table.name]
        (imports table.name scalars relations ++
            [.definition (modelClass name table.name scalars relations)])).wholes.find? isOverlong = none := by
      rw [List.find?_eq_none, wholes_of_blocks rfl]
      intro value member
      obtain ⟨field, known, inside⟩ := List.mem_flatMap.mp member
      have given := whole_of_declaration inside
      have read := (made_of_mem (fields_ok.mp found).1 field known).default
      rw [given] at read
      simpa [isOverlong] using short_of_columnDefault read
    simp only [bind, Except.bind, Except.mapError, short]
    rfl

private theorem message_renderFailure (table : String) (cause : Number.TooManyDigits) :
    (renderFailure table cause).message = "Failed to render model for table '" ++ table ++ "': " ++ cause.message := by
  simp [renderFailure, Report.codeGeneration, toString]

private theorem context_renderFailure {table : String} (cause : Number.TooManyDigits) (named : table ≠ "") :
    (renderFailure table cause).context = [("table", .text table)] := by
  have noted : (renderFailure table cause).context = if table == "" then [] else Keyed.set [] "table" (.text table) :=
    rfl
  rw [noted, if_neg (by simpa using named)]
  rfl

private theorem fields_error (known : List String) (plural : style.singular = false) {fault : EmitFault} :
    fields style enums known table = .error fault ↔
    ∃ cause, scalarFields enums table = .error cause ∧ fault = .default table.name cause := by
  rw [fields]
  cases read : scalarFields enums table with
  | error cause => simp [bind, Except.bind, Except.mapError, eq_comm]
  | ok scalars =>
    have named : style.singular = true → "" ∉ known := fun singular => by simp [plural] at singular
    obtain ⟨relations, found⟩ := relationFields_ends named table (scalars.map ScalarField.name)
    simp [bind, Except.bind, Except.mapError, found, pure, Except.pure]

private theorem render_error (known : List String) (plural : style.singular = false) {fault : EmitFault} :
    render style enums known table = .error fault ↔
    ∃ cause, scalarFields enums table = .error cause ∧ fault = .default table.name cause := by
  rw [← fields_error known plural, render, module]
  cases found : fields style enums known table with
  | error other => simp [bind, Except.bind, Except.map]
  | ok both =>
    have named : ∃ name, Naming.className style.singular table.name = .ok name :=
      className_ends fun singular => by simp [plural] at singular
    obtain ⟨name, named⟩ := named
    simp [bind, Except.bind, Except.mapError, named, pure, Except.pure, Except.map]

/-- Unless classes are named in the singular, the one thing that keeps a table from being rendered is a column whose
field is a whole number and whose default has more digits than are converted. The first such column decides what is
reported, and the report is one about the table. Neither an annotation that cannot be read back nor a number that
cannot be written ever ends the rendering, and a module that cannot be laid out is given as it is. -/
theorem render_fails_iff_overlong (plural : style.singular = false) (enums : Enums)
    (known : List String) (table : Table) :
    renderStepwise style enums known table = (render style enums known table).mapError .fault ∧
    ((∃ made, module style enums known table = .ok made ∧ render style enums known table =
      .ok (made.formatted?.getD made.plain)) ↔
      ∀ column ∈ table.columns, ∀ count, ¬ Overlong enums column count) ∧
    ∀ fault, render style enums known table = .error fault ↔ ∃ before column after count,
      table.columns = before ++ column :: after ∧
      (∀ other ∈ before, ∀ count, ¬ Overlong enums other count) ∧ Overlong enums column count ∧
        fault = .default table.name ⟨count⟩ ∧
      ∃ report, (Failure.emit fault).report? = some report ∧ report.code = some "CODE_GENERATION_ERROR" ∧
        report.message = "Failed to render model for table '" ++ table.name ++ "': " ++
          Number.TooManyDigits.message ⟨count⟩ ∧
        (table.name ≠ "" → report.context = [("table", .text table.name)]) := by
  refine ⟨renderStepwise_eq style enums known table, ?_, fun fault => ?_⟩
  · cases columns : scalarFields enums table with
    | error cause =>
      have fails := (render_error known plural).mpr ⟨cause, columns, rfl⟩
      obtain ⟨before, column, after, order, _, overlong⟩ := scalarFields_error.mp columns
      have member : column ∈ table.columns := by simp [order]
      constructor
      · rintro ⟨made, _, ends⟩
        cases fails.symm.trans ends
      · exact fun none => absurd overlong (none column member _)
    | ok scalars =>
      cases ends : module style enums known table with
      | error fault =>
        obtain ⟨cause, fails, _⟩ := (render_error known plural).mp (by rw [render, ends]; rfl)
        cases columns.symm.trans fails
      | ok made =>
        have read : ∃ fields, scalarFieldsFrom enums [] table.columns = .ok fields := by
          cases unsorted : scalarFieldsFrom enums [] table.columns with
          | error cause => simp [scalarFields, unsorted, Except.map] at columns
          | ok fields => exact ⟨fields, rfl⟩
        obtain ⟨fields, read⟩ := read
        exact ⟨fun _ => scalarFieldsFrom_ok read, fun _ => ⟨made, rfl, by rw [render, ends]; rfl⟩⟩
  · rw [render_error known plural]
    constructor
    · rintro ⟨cause, fails, rfl⟩
      obtain ⟨before, column, after, order, none, overlong⟩ := scalarFields_error.mp fails
      exact ⟨before, column, after, cause.count, order, none, overlong, rfl, _, rfl, rfl, message_renderFailure _ _,
        context_renderFailure _⟩
    · rintro ⟨before, column, after, count, order, none, overlong, same, _⟩
      exact ⟨⟨count⟩, scalarFields_error.mpr ⟨before, column, after, order, none, overlong⟩, same⟩

namespace Counters

def serial : Column :=
  { name := "id", sourceType := "int4", isPrimaryKey := true,
    default := some (String.ofList (List.replicate 5000 '1')) }

def hits : Column := { name := "hits", sourceType := "int8", default := some (String.ofList (List.replicate 4301 '9')) }

def counters : Table where
  name := "counters"
  columns := [serial, hits]
  distinct := by decide

private theorem hits_overlong : Overlong [] hits 4301 where
  free := rfl
  type := by decide +kernel
  default := by
    have nines : ∀ c ∈ List.replicate 4301 '9', c = '9' := fun c member => List.eq_of_mem_replicate member
    have solid : ∀ c ∈ List.replicate 4301 '9', Text.isBlank c = false ∧ c ≠ ':' :=
      fun c member => nines c member ▸ by decide
    refine ⟨_, false, List.replicate 4301 '9', rfl, ?_, fun c member => nines c member ▸ by decide,
      List.length_replicate⟩
    rw [String.toList_ofList, withoutCastsChars_solid solid]
    rfl
  long := by decide

end Counters

open Counters in
/-- Digits of a primary key do no harm, but those of another column do. -/
theorem counters_unrendered : ({} : Style).singular = false ∧
    render {} [] ["counters"] counters = .error (.default "counters" ⟨4301⟩) := by
  have plural : ({} : Style).singular = false := rfl
  refine ⟨plural, ?_⟩
  obtain ⟨_, _, fails⟩ := render_fails_iff_overlong plural [] ["counters"] counters
  refine (fails _).mpr ⟨[serial], hits, [], 4301, rfl, ?_, hits_overlong, rfl, _, rfl, rfl, message_renderFailure _ _,
    context_renderFailure _⟩
  intro other member count overlong
  obtain rfl := List.mem_singleton.mp member
  cases overlong.free

end Model

end TableModels
