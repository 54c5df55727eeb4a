import Mathlib.Data.Prod.Lex
import Mathlib.Data.String.Basic
import TableModels.Proofs.FieldNames
import TableModels.Proofs.JsonText

/-! The order of the fields of columns. Fields that must be given come first, then the order is by type and by column.
The columns of a table have names of their own, so no order of theirs shows in that of the fields. Whether a field
must be given is worked out apart from its declaration, and the two agree. -/

namespace TableModels

namespace Code

/-- Whether a value given to a field is a default. Any value is, but a call of `Field` needs a default or a factory
among its keywords. -/
def Expr.fills : Expr → Bool
  | .call (.name "Field") _ keywords =>
    keywords.any fun keyword => keyword.1 == "default" || keyword.1 == "default_factory"
  | _ => true

def Statement.fills : Statement → Bool
  | .declare _ _ (some value) => value.fills
  | _ => false

end Code

namespace Model

open Schema Typing Code

variable {enums : Enums} {table : Table}

namespace ScalarField

/-- Fields are in ascending order of this: whether they may be left out, the text of their type, and the name of their
column. -/
def sortKey (field : ScalarField) : Bool ×ₗ String ×ₗ String :=
  toLex (!field.isRequired, toLex (field.type.text, field.column.name))

private theorem precedes_iff (first second : ScalarField) :
    first.precedes second = true ↔ first.sortKey ≤ second.sortKey := by
  simp only [precedes, sortKey, Prod.Lex.toLex_le_toLex]
  by_cases required : first.isRequired = second.isRequired
  · by_cases type : first.type.text = second.type.text
    · simp only [required, type, bne_self_eq_false, Bool.false_eq_true, if_false, Bool.not_eq_true',
        decide_eq_false_iff_not, lt_irrefl, true_and, false_or, not_lt]
    · have other : (first.type.text != second.type.text) = true := bne_iff_ne.mpr type
      simp only [required, other, bne_self_eq_false, Bool.false_eq_true, if_false, if_true, decide_eq_true_eq,
        lt_irrefl, true_and, type, false_and, or_false, false_or]
  · have other : (first.isRequired != second.isRequired) = true := bne_iff_ne.mpr required
    rw [if_pos other]
    cases early : first.isRequired <;> cases late : second.isRequired
    · exact absurd (early.trans late.symm) required
    · simp
    · simp
    · exact absurd (early.trans late.symm) required

private theorem sortKey_ne {first second : ScalarField} (apart : first.column.name ≠ second.column.name) :
    first.sortKey ≠ second.sortKey := by
  intro same
  have parts := Prod.mk.inj (toLex.injective same)
  exact apart (Prod.mk.inj (toLex.injective parts.2)).2

end ScalarField

private theorem ascending_mergeSort {fields : List ScalarField}
    (distinct : (fields.map fun field => field.column.name).Nodup) :
    ((fields.mergeSort ScalarField.precedes).map ScalarField.sortKey).Pairwise (· < ·) := by
  have ordered : (fields.mergeSort ScalarField.precedes).Pairwise fun first second => first.precedes second = true := by
    apply List.pairwise_mergeSort
    · intro first second third early late
      rw [ScalarField.precedes_iff] at early late ⊢
      exact early.trans late
    · intro first second
      rw [Bool.or_eq_true, ScalarField.precedes_iff, ScalarField.precedes_iff]
      exact le_total _ _
  have apart : ((fields.mergeSort ScalarField.precedes).map fun field => field.column.name).Nodup :=
    ((List.mergeSort_perm fields ScalarField.precedes).map _).nodup_iff.mpr distinct
  apply List.pairwise_map.mpr
  apply (ordered.and (List.pairwise_map.mp apart)).imp
  intro first second both
  exact lt_of_le_of_ne ((ScalarField.precedes_iff first second).mp both.1) (ScalarField.sortKey_ne both.2)

/-- What there is to tell of a field but its name, which depends on the columns before its own. -/
structure Gist where
  column : Column
  type : FieldType
  default : Option Default
  isRequired : Bool

def ScalarField.gist (field : ScalarField) : Gist := ⟨field.column, field.type, field.default, field.isRequired⟩

def gistOf (enums : Enums) (column : Column) : Gist :=
  let type := Enums.fieldType enums column.sourceType
  let default := (columnDefault type column).toOption.join
  ⟨column, type, default, !column.nullable && default.isNone⟩

private theorem ScalarField.Made.gist_eq {field : ScalarField} (made : field.Made enums) :
    field.gist = gistOf enums field.column := by
  have default : ((columnDefault (Enums.fieldType enums field.column.sourceType) field.column).toOption).join =
      field.default := by
    rw [← made.type, made.default]
    rfl
  rw [gistOf, gist, isRequired, ← made.type]
  rw [← made.type] at default
  rw [default]

private theorem gists_eq {fields others : List ScalarField} (made : ∀ field ∈ fields, field.Made enums)
    (remade : ∀ field ∈ others, field.Made enums)
    (ascending : (fields.map ScalarField.sortKey).Pairwise (· < ·))
    (rising : (others.map ScalarField.sortKey).Pairwise (· < ·))
    (columns : (others.map ScalarField.column).Perm (fields.map ScalarField.column)) :
    others.map ScalarField.gist = fields.map ScalarField.gist := by
  let key (gist : Gist) : Bool ×ₗ String ×ₗ String := toLex (!gist.isRequired, toLex (gist.type.text, gist.column.name))
  have told : ∀ {scalars : List ScalarField}, (∀ field ∈ scalars, field.Made enums) →
      scalars.map ScalarField.gist = (scalars.map ScalarField.column).map (gistOf enums) := by
    intro scalars each
    rw [List.map_map]
    exact List.map_congr_left fun field member => (each field member).gist_eq
  have sorted : ∀ {scalars : List ScalarField}, (scalars.map ScalarField.sortKey).Pairwise (· < ·) →
      (scalars.map ScalarField.gist).Pairwise fun first second => key first < key second := by
    intro scalars order
    exact List.pairwise_map.mpr (List.pairwise_map.mp order)
  have perm : (others.map ScalarField.gist).Perm (fields.map ScalarField.gist) := by
    rw [told made, told remade]
    exact columns.map _
  refine perm.eq_of_pairwise ?_ (sorted rising) (sorted ascending)
  intro first second _ _ less more
  exact absurd more less.asymm

private theorem scalarFields_ascending {fields : List ScalarField} (found : scalarFields enums table = .ok fields) :
    (fields.map ScalarField.sortKey).Pairwise (· < ·) := by
  obtain ⟨scalars, inOrder, rfl⟩ := scalarFields_ok.mp found
  apply ascending_mergeSort
  have each : scalars.map (fun field => field.column.name) = table.columns.map Column.name := by
    rw [← (scalarFieldsFrom_named inOrder).each, List.map_map]
    rfl
  rw [each]
  exact table.distinct

namespace ScalarField

variable (field : ScalarField)

private theorem isSome_defaultKeyword :
    field.defaultKeyword.isSome = (field.column.nullable || field.default.isSome) := by
  rw [defaultKeyword]
  cases field.default with
  | some default => simp
  | none => cases field.column.nullable <;> rfl

private theorem fills_defaultKeyword {keyword : String × Expr} (given : field.defaultKeyword = some keyword) :
    keyword.1 = "default" ∧ keyword.2.fills = true ∨ keyword.1 = "default_factory" := by
  rcases field.defaultKeyword_eq_some.mp given with ⟨default, _, rfl⟩ | ⟨_, _, rfl⟩
  · cases default with
    | newList => exact .inr rfl
    | newDict => exact .inr rfl
    | _ => exact .inl ⟨rfl, rfl⟩
  · exact .inl ⟨rfl, rfl⟩

private theorem fills_declaration : field.declaration.fills = (field.column.nullable || field.default.isSome) := by
  have value : field.declaration.fills = (field.value.map Expr.fills).getD false := by
    rw [declaration]
    cases field.value <;> rfl
  rw [value, value_eq, ← isSome_defaultKeyword]
  cases given : field.defaultKeyword with
  | none => cases field.needsAlias <;> rfl
  | some keyword =>
    obtain ⟨name, expr⟩ := keyword
    rcases field.fills_defaultKeyword given with ⟨plain, filled⟩ | factory
    · obtain rfl : name = "default" := plain
      cases field.needsAlias with
      | true => rfl
      | false => exact filled
    · obtain rfl : name = "default_factory" := factory
      cases field.needsAlias <;> rfl

private theorem fills_iff_not_isRequired : field.declaration.fills = !field.isRequired := by
  rw [fills_declaration, isRequired]
  cases field.column.nullable <;> cases field.default <;> rfl

private theorem Made.default_eq_none_iff {field : ScalarField} (made : field.Made enums) : field.default = none ↔
    field.column.isPrimaryKey = true ∨ ∀ default, field.column.default = some default →
      readDefault field.type.text default = .ok none := by
  have read := made.default
  rw [columnDefault] at read
  cases key : field.column.isPrimaryKey with
  | true =>
    rw [key, if_pos rfl] at read
    simpa using (Except.ok.inj read).symm
  | false =>
    rw [key, if_neg Bool.false_ne_true] at read
    cases given : field.column.default with
    | none =>
      rw [given] at read
      simpa using (Except.ok.inj read).symm
    | some default =>
      rw [given] at read
      simp [read]

end ScalarField

private theorem split_of_ascending {fields : List ScalarField}
    (ascending : (fields.map ScalarField.sortKey).Pairwise (· < ·)) :
    ∃ required optional, fields = required ++ optional ∧ (∀ field ∈ required, field.isRequired = true) ∧
      ∀ field ∈ optional, field.isRequired = false := by
  induction fields with
  | nil => exact ⟨[], [], rfl, by simp, by simp⟩
  | cons first rest ih =>
    obtain ⟨above, ordered⟩ := List.pairwise_cons.mp ascending
    obtain ⟨required, optional, rfl, must, may⟩ := ih ordered
    cases need : first.isRequired with
    | true => exact ⟨first :: required, optional, rfl, List.forall_mem_cons.mpr ⟨need, must⟩, may⟩
    | false =>
      have later : ∀ field ∈ required ++ optional, field.isRequired = false := by
        intro field member
        have less := above _ (List.mem_map_of_mem member)
        cases still : field.isRequired with
        | false => rfl
        | true =>
          rw [ScalarField.sortKey, ScalarField.sortKey, Prod.Lex.toLex_lt_toLex, need, still] at less
          rcases less with before | ⟨same, _⟩
          · cases Bool.lt_iff.mp before with | intro _ wrong => cases wrong
          · cases same
      exact ⟨[], first :: (required ++ optional), rfl, by simp, List.forall_mem_cons.mpr ⟨need, later⟩⟩

/-- Each column of a table is made one field. The fields are in strictly ascending order of whether they may be left
out, of type and of column, and any other order of the columns gives fields of which the same is to be told. The
declaration of a field has no default exactly if its column may not be empty and is a primary key or has no default
that is a literal, and these declarations come before all others. -/
theorem scalarFields_in_order {fields : List ScalarField} (found : scalarFields enums table = .ok fields) :
    (fields.map ScalarField.column).Perm table.columns ∧
    (∀ field ∈ fields, field.type = Enums.fieldType enums field.column.sourceType) ∧
    (fields.map ScalarField.sortKey).Pairwise (· < ·) ∧
    (∀ other : Table, other.columns.Perm table.columns →
      ∃ others, scalarFields enums other = .ok others ∧ others.map ScalarField.gist = fields.map ScalarField.gist) ∧
    (∀ field ∈ fields, field.declaration.fills = false ↔ field.column.nullable = false ∧
      (field.column.isPrimaryKey = true ∨
        ∀ default, field.column.default = some default → readDefault field.type.text default = .ok none)) ∧
    ∃ bare filled, fields.map ScalarField.declaration = bare ++ filled ∧
      (∀ declaration ∈ bare, declaration.fills = false) ∧ ∀ declaration ∈ filled, declaration.fills = true := by
  have made := made_of_mem found
  have ascending := scalarFields_ascending found
  have columns := (scalarFields_named found).1
  refine ⟨columns, fun field member => (made field member).type, ascending, ?_, ?_, ?_⟩
  · intro other same
    have readable := scalarFields_ok_iff.mp ⟨fields, found⟩
    obtain ⟨others, again⟩ := scalarFields_ok_iff.mpr fun column member => readable column (same.mem_iff.mp member)
    refine ⟨others, again, ?_⟩
    apply gists_eq made (made_of_mem again) ascending (scalarFields_ascending again)
    exact (scalarFields_named again).1.trans (same.trans columns.symm)
  · intro field member
    rw [field.fills_declaration, Bool.or_eq_false_iff, Option.isSome_eq_false_iff, Option.isNone_iff_eq_none,
      (made field member).default_eq_none_iff]
  · obtain ⟨required, optional, rfl, must, may⟩ := split_of_ascending ascending
    refine ⟨required.map ScalarField.declaration, optional.map ScalarField.declaration, List.map_append, ?_, ?_⟩
    · intro declaration member
      obtain ⟨field, inside, rfl⟩ := List.mem_map.mp member
      simp [field.fills_iff_not_isRequired, must field inside]
    · intro declaration member
      obtain ⟨field, inside, rfl⟩ := List.mem_map.mp member
      simp [field.fills_iff_not_isRequired, may field inside]

/-- Goods with columns of every kind: a value of the database's own making and one of no literal, an alias, and
defaults that are given by name, directly and made anew. -/
def goods : Table where
  name := "goods"
  columns := [{ name := "made", sourceType := "timestamptz", nullable := false, default := some "now()" },
    { name := "notes", sourceType := "jsonb", nullable := false },
    { name := "ack", sourceType := "int8", nullable := false },
    { name := "id", sourceType := "int8", nullable := false, isPrimaryKey := true, default := some "7" },
    { name := "price", sourceType := "numeric" },
    { name := "count", sourceType := "int4", nullable := false, default := some "0" },
    { name := "tags", sourceType := "text[]", nullable := false, default := some "'\x7b\x7d'::text[]" }]
  distinct := by decide

/-- The columns of the goods may as well come last to first. -/
theorem goods_in_order : ∃ fields others, scalarFields [] goods = .ok fields ∧
    scalarFields [] { goods with columns := goods.columns.reverse, distinct := by decide } = .ok others ∧
    others.map ScalarField.gist = fields.map ScalarField.gist ∧
    fields.map (fun field => field.column.name) = ["made", "notes", "ack", "id", "price", "count", "tags"] ∧
    (fields.map ScalarField.sortKey).Pairwise (· < ·) ∧
    fields.map (fun field => field.declaration.fills) = [false, false, false, false, true, true, true] := by
  obtain ⟨fields, unsorted, sorted, names, filled⟩ : ∃ fields, scalarFieldsFrom [] [] goods.columns = .ok fields ∧
      fields.Pairwise (fun first second => first.precedes second) ∧
      fields.map (fun field => field.column.name) = ["made", "notes", "ack", "id", "price", "count", "tags"] ∧
      fields.map (fun field => field.declaration.fills) = [false, false, false, false, true, true, true] :=
    ⟨_, rfl, by decide +kernel, by decide +kernel, by decide +kernel⟩
  have found : scalarFields [] goods = .ok fields := by
    rw [scalarFields, unsorted, Except.map, List.mergeSort_of_pairwise sorted]
  obtain ⟨_, _, ascending, reordered, _⟩ := scalarFields_in_order found
  obtain ⟨others, again, same⟩ :=
    reordered { goods with columns := goods.columns.reverse, distinct := by decide } (List.reverse_perm goods.columns)
  exact ⟨fields, others, found, again, same, names, ascending, filled⟩

end Model

end TableModels
