import TableModels.Proofs.Documents
import TableModels.Proofs.FieldOrder
import TableModels.Proofs.NumberText
import TableModels.Proofs.TextDefaults

/-! Flags and numbers as defaults. A document holds them as data, and what is stored of them is their text, which is
read again when fields are made. The reader knows no exponents, so a number is lost if it is so small or so large that
its text has one. -/

namespace TableModels

namespace Model

open Text Code Typing Schema

private theorem beforeCasts_solid {chars : List Char} (solid : ∀ c ∈ chars, c ≠ ':') : beforeCasts chars = chars := by
  induction chars with
  | nil => rfl
  | cons c rest ih =>
    obtain ⟨own, others⟩ := List.forall_mem_cons.mp solid
    rw [beforeCasts_of_ne (isCasts_cons own), ih others]

/-- Nothing is taken off a text without blanks and colons. -/
theorem withoutCastsChars_solid {chars : List Char} (solid : ∀ c ∈ chars, isBlank c = false ∧ c ≠ ':') :
    withoutCastsChars chars = chars := by
  have stripped := stripChars_solid fun c member => (solid c member).1
  rw [withoutCastsChars, stripped, beforeCasts_solid fun c member => (solid c member).2, stripped]

private theorem solid_of_inNumber {c : Char} (written : Binary64.InNumber c) : isBlank c = false ∧ c ≠ ':' := by
  rcases written with digit | mark
  · simp only [Char.isDigit, Bool.and_eq_true, decide_eq_true_eq, ge_iff_le, UInt32.le_iff_toNat_le] at digit
    have zero : '0'.val.toNat = 48 := rfl
    have nine : '9'.val.toNat = 57 := rfl
    constructor
    · rw [← Bool.not_eq_true]
      intro blank
      simp only [isBlank, Char.toNat, Bool.or_eq_true, Bool.and_eq_true, decide_eq_true_eq, beq_iff_eq] at blank
      omega
    · rintro rfl
      have colon : ':'.val.toNat = 58 := rfl
      omega
  · simp only [List.mem_cons, List.not_mem_nil, or_false] at mark
    rcases mark with rfl | rfl | rfl | rfl <;> decide

private theorem solid_withSign (negative : Bool) {chars : List Char} (written : ∀ c ∈ chars, Binary64.InNumber c) :
    ∀ c ∈ Number.withSign negative chars, isBlank c = false ∧ c ≠ ':' := by
  have minus : isBlank '-' = false ∧ '-' ≠ ':' := by decide
  cases negative with
  | true => exact List.forall_mem_cons.mpr ⟨minus, fun c member => solid_of_inNumber (written c member)⟩
  | false => exact fun c member => solid_of_inNumber (written c member)

/-- A number in a document whose text has an exponent. -/
def NeedsExponent : Value → Prop
  | .float (.finite _ mantissa exponent) => Binary64.Exponential mantissa exponent
  | _ => False

instance : DecidablePred NeedsExponent := fun value =>
  match value with
  | .float (.finite _ _ _) => inferInstanceAs (Decidable (_ ∧ _))
  | .float (.infinite _) | .float .notANumber => isFalse id
  | .null | .bool _ | .int _ | .text _ | .moment _ | .list _ | .object _ => isFalse id

/-- A default in a document, the type of a field that can have it, and the literal for it: a flag, a whole number that
is not too long to convert, and a number with a fraction. -/
inductive Carries : Value → String → Expr → Prop where
  | truth (value : Bool) : Carries (.bool value) "bool" (.truth value)
  | int {value : Int} (short : Binary64.digitCount value.natAbs ≤ Number.digitLimit) :
      Carries (.int value) "int" (.int value)
  | float {negative : Bool} {mantissa : Nat} {exponent : Int} (canonical : Binary64.Canonical mantissa exponent) :
    Carries (.float (.finite negative mantissa exponent)) "float" (.float (.finite negative mantissa exponent))

private theorem readDefault_solid {type text : String} {kind : LiteralKind} (named : LiteralKind.ofTypeText type = kind)
    (solid : ∀ c ∈ text.toList, isBlank c = false ∧ c ≠ ':') :
    readDefault type text = readLiteral kind text.toList := by
  rw [readDefault, named, withoutCastsChars_solid solid]

private theorem readDefault_defaultText {value : Value} {type : String} {literal : Expr}
    (carries : Carries value type literal) :
    ∃ text, Document.defaultText value = some text ∧
      (readDefault type text).map (Option.map Default.keyword) =
        .ok (if NeedsExponent value then none else some ("default", literal)) := by
  cases carries with
  | truth value =>
    cases value with
    | true => exact ⟨"true", by simp [Document.defaultText, Json.compact, Json.scalar], rfl⟩
    | false => exact ⟨"false", by simp [Document.defaultText, Json.compact, Json.scalar], rfl⟩
  | @int value short =>
    refine ⟨toString value, by simp [Document.defaultText, Json.compact, Json.scalar], ?_⟩
    obtain ⟨whole, read⟩ := Number.readWhole_toString short
    have solid : ∀ c ∈ (toString value).toList, isBlank c = false ∧ c ≠ ':' := by
      rw [Number.toList_toString_int]
      exact solid_withSign _ fun c member => .inl (Number.digits_toDigits _ c member)
    rw [readDefault_solid (show LiteralKind.ofTypeText "int" = .int by decide) solid, readLiteral, if_pos whole, read]
    rfl
  | @float negative mantissa exponent canonical =>
    refine ⟨_, rfl, ?_⟩
    have text : (Json.compact (.float (.finite negative mantissa exponent))).toList =
        Number.withSign negative (Binary64.magnitudeText mantissa exponent) := by
      simp [Json.compact, Json.scalar, Binary64.render, Number.withSign]
    have solid := solid_withSign negative (Binary64.inNumber_magnitudeText mantissa exponent)
    rw [readDefault_solid (show LiteralKind.ofTypeText "float" = .float by decide) (text ▸ solid), readLiteral, text]
    by_cases exponential : Binary64.Exponential mantissa exponent
    · rw [Binary64.not_isDecimal_magnitudeText negative canonical exponential]
      simp [NeedsExponent, exponential, Except.map]
    · obtain ⟨decimal, read⟩ := Binary64.readDecimal_magnitudeText negative canonical exponential
      rw [decimal, read]
      simp [NeedsExponent, exponential, Except.map, Default.keyword]

/-- The default of a column in a document, if it is a flag, a whole number or a number with a fraction, is the default
of the field that is made of the column, except for a number whose text has an exponent. That one is lost: the field
has no default, and if the column may not be empty it must be given. -/
theorem document_default_kept {document definitions fields columns schema : Fields} {contents : Document.Contents}
    {owner name : String}
    (ends : Document.read (.object document) = .ok contents) (defines : Document.Defines document definitions)
    (described : (owner, .object fields) ∈ definitions) (given : Document.fieldOf fields "properties" = .object columns)
    (property : (name, .object schema) ∈ columns) :
    ∃ table ∈ contents.snapshot.tables, table.name = owner ∧ ∃ column ∈ table.columns, column.name = name ∧
      ∀ (enums : Enums) (literal : Expr), column.isPrimaryKey = false →
        Carries (Document.fieldOf schema "default") (Enums.fieldType enums column.sourceType).text literal →
        (columnDefault (Enums.fieldType enums column.sourceType) column).map (Option.map Default.keyword) =
          .ok (if NeedsExponent (Document.fieldOf schema "default") then none else some ("default", literal)) ∧
        ∀ scalars, scalarFields enums table = .ok scalars → ∀ field ∈ scalars, field.column = column →
          (field.isRequired = true ↔ column.nullable = false ∧ NeedsExponent (Document.fieldOf schema "default")) := by
  obtain ⟨table, listed, named, column, among, own, inner, shape, stored⟩ :=
    Document.exists_column ends defines described given property
  obtain rfl := Value.object.inj shape
  refine ⟨table, listed, named, column, among, own, fun enums literal plain carries => ?_⟩
  obtain ⟨text, written, read⟩ := readDefault_defaultText carries
  have default : (columnDefault (Enums.fieldType enums column.sourceType) column).map (Option.map Default.keyword) =
      .ok (if NeedsExponent (Document.fieldOf schema "default") then none else some ("default", literal)) := by
    rw [columnDefault, plain, if_neg Bool.false_ne_true, stored, written]
    exact read
  refine ⟨default, fun scalars found field member same => ?_⟩
  have made := made_of_mem found field member
  have keyword : field.default.map Default.keyword =
      if NeedsExponent (Document.fieldOf schema "default") then none else some ("default", literal) := by
    have read := made.default
    rw [made.type, same] at read
    rw [read] at default
    exact Except.ok.inj default
  have none : field.default = none ↔ NeedsExponent (Document.fieldOf schema "default") := by
    rw [← Option.map_eq_none_iff (f := Default.keyword), keyword]
    simp
  rw [ScalarField.isRequired, Bool.and_eq_true, Bool.not_eq_true', Option.isNone_iff_eq_none, none, same]

def rateSchema (default : Value) : Fields := [("type", .text "number"), ("default", default)]

/-- The columns of a table in a document. The default of the first is 1e-07, that of the second 0.0001. -/
def rateColumns : Fields :=
  [("rate", .object (rateSchema (.float (.finite false 7555786372591432 (-76))))),
    ("share", .object (rateSchema (.float (.finite false 7378697629483821 (-66)))))]

def rateFields : Fields := [("required", .list [.text "rate", .text "share"]), ("properties", .object rateColumns)]

def ratesDocument : Fields := [("definitions", .object [("rates", .object rateFields)])]

def rates : Table where
  name := "rates"
  columns := [{ name := "rate", sourceType := "float8", nullable := false, default := some "1e-07" },
    { name := "share", sourceType := "float8", nullable := false, default := some "0.0001" }]
  distinct := by decide

private theorem columnEntry_rate (name : String) (default : Value) :
    Document.columnEntry "rates" ["rate", "share"] name (.object (rateSchema default)) =
    .ok ⟨{ name, sourceType := "float8", nullable := !(List.contains ["rate", "share"] name),
           default := Document.defaultText default }, none⟩ := by
  have enum : Document.present? (Document.fieldOf (rateSchema default) "enum") = none := rfl
  have type : Document.columnType (rateSchema default) = .ok "float8" := by
    have format : Document.typeOfFormat? (Document.fieldOf (rateSchema default) "format") = none := rfl
    rw [Document.columnType, format]
    rfl
  rw [Document.columnEntry]
  simp only [Document.fieldsOf, enum, type, bind, Except.bind, pure, Except.pure]
  rfl

private theorem read_rates :
    ∃ contents, Document.read (.object ratesDocument) = .ok contents ∧ contents.snapshot.tables = [rates] := by
  have entries : Document.tableEntries [("rates", .object rateFields)] =
      .ok [⟨"rates", rates.columns.map fun column => ⟨column, none⟩⟩] := by
    have names : Document.requiredNames rateFields = .ok ["rate", "share"] := rfl
    have columns : Document.properties rateFields = .ok rateColumns := rfl
    have small : Document.defaultText (.float (.finite false 7555786372591432 (-76))) = some "1e-07" := by
      decide +kernel
    have large : Document.defaultText (.float (.finite false 7378697629483821 (-66))) = some "0.0001" := by
      decide +kernel
    simp only [Document.tableEntries, Document.tableEntry, names, columns, rateColumns, List.mapM_cons, List.mapM_nil,
      columnEntry_rate, small, large, bind, Except.bind, pure, Except.pure]
    rfl
  have definitions : Document.definitions ratesDocument = .ok [("rates", .object rateFields)] := rfl
  refine ⟨⟨Snapshot.empty.replace [rates], [], []⟩, ?_, rfl⟩
  rw [Document.read]
  simp only [Document.fieldsOf, definitions, entries, bind, Except.bind, pure, Except.pure]
  rfl

/-- The default of the one column is kept and that of the other is lost, so that its field must be given. -/
theorem rates_default_lost : ∃ contents rate share scalars, Document.read (.object ratesDocument) = .ok contents ∧
    contents.snapshot.tables = [rates] ∧ rates.columns = [rate, share] ∧
    rate.default = some "1e-07" ∧ (columnDefault .float rate).map (Option.map Default.keyword) = .ok none ∧
    share.default = some "0.0001" ∧ (columnDefault .float share).map (Option.map Default.keyword) =
      .ok (some ("default", .float (.finite false 7378697629483821 (-66)))) ∧
    scalarFields [] rates = .ok scalars ∧
    (∀ field ∈ scalars, field.column = rate → field.isRequired = true) ∧ ∀ field ∈ scalars, field.column = share →
      field.isRequired = false := by
  obtain ⟨contents, ends, tables⟩ := read_rates
  have defines : Document.Defines ratesDocument [("rates", .object rateFields)] := .inl rfl
  obtain ⟨_, listed, _, rate, among, rateNamed, rateRead⟩ :=
    document_default_kept ends defines List.mem_cons_self rfl (show ("rate", _) ∈ rateColumns from List.mem_cons_self)
  obtain rfl := List.mem_singleton.mp (tables ▸ listed)
  obtain ⟨_, listed, _, share, inside, shareNamed, shareRead⟩ :=
    document_default_kept ends defines List.mem_cons_self rfl
      (show ("share", _) ∈ rateColumns from List.mem_cons_of_mem _ List.mem_cons_self)
  obtain rfl := List.mem_singleton.mp (tables ▸ listed)
  obtain rfl : { name := "rate", sourceType := "float8", nullable := false, default := some "1e-07" } = rate := by
    rcases List.mem_cons.mp among with rfl | among
    · rfl
    · rw [List.mem_singleton.mp among] at rateNamed
      exact absurd rateNamed (by decide)
  obtain rfl : { name := "share", sourceType := "float8", nullable := false, default := some "0.0001" } = share := by
    rcases List.mem_cons.mp inside with rfl | inside
    · exact absurd shareNamed (by decide)
    · exact (List.mem_singleton.mp inside).symm
  obtain ⟨rateDefault, rateField⟩ := rateRead [] _ rfl (.float ⟨by decide, by decide, by decide, by decide⟩)
  obtain ⟨shareDefault, shareField⟩ := shareRead [] _ rfl (.float ⟨by decide, by decide, by decide, by decide⟩)
  have lost :
      NeedsExponent (Document.fieldOf (rateSchema (.float (.finite false 7555786372591432 (-76)))) "default") := by
    decide +kernel
  have kept :
      ¬ NeedsExponent (Document.fieldOf (rateSchema (.float (.finite false 7378697629483821 (-66)))) "default") := by
    decide +kernel
  rw [if_pos lost] at rateDefault
  rw [if_neg kept] at shareDefault
  have reads {result : Except Number.TooManyDigits (Option Default)} {keyword : Option (String × Expr)}
      (ends : result.map (Option.map Default.keyword) = .ok keyword) : ∃ default, result = .ok default := by
    cases result with
    | error fault => cases ends
    | ok default => exact ⟨default, rfl⟩
  obtain ⟨scalars, found⟩ : ∃ scalars, scalarFields [] rates = .ok scalars :=
    scalarFields_ok_iff.mpr
      (List.forall_mem_cons.mpr ⟨reads rateDefault, List.forall_mem_singleton.mpr (reads shareDefault)⟩)
  refine ⟨contents, _, _, scalars, ends, tables, rfl, rfl, rateDefault, rfl, shareDefault, found, ?_, ?_⟩
  · exact fun field member same => (rateField scalars found field member same).mpr ⟨rfl, lost⟩
  · exact fun field member same => Bool.eq_false_iff.mpr
      fun must => kept ((shareField scalars found field member same).mp must).2

end Model

end TableModels
