import TableModels.Proofs.Documents
import TableModels.Proofs.LowerCase
import TableModels.Proofs.Trimming
import TableModels.Typing.Enums

/-! Types of columns, as documents give them and as fields get them. What is told of a property is a catalogued type
with array marks after it, one for each array around the format or the plain type that is found at last. Fields know
arrays of one level: what is left under the outermost mark has to be catalogued as it stands. -/

namespace TableModels

namespace Typing

open Text

def arrayOf (base : String) : Nat → String
  | 0 => base
  | depth + 1 => arrayOf base depth ++ SourceType.arrayMark

/-- A text in lower case that no blanks surround, so that it is looked up as it stands. -/
structure Neat (text : String) : Prop where
  low : ∀ c ∈ text.toList, c.toNat < 0x80 ∧ isAsciiUpper c = false
  first : ∀ c, text.toList.head? = some c → isBlank c = false
  last : ∀ c, text.toList.getLast? = some c → isBlank c = false

theorem Neat.strip_eq {text : String} (neat : Neat text) : strip text = text := by
  rw [strip, stripChars_trimmed neat.first neat.last, String.ofList_toList]

private theorem neat_iff {text : String} :
    Neat text ↔ (text.toList.all fun c => c.toNat < 0x80 && !isAsciiUpper c) = true ∧
    (text.toList.head?.all fun c => !isBlank c) = true ∧ (text.toList.getLast?.all fun c => !isBlank c) = true := by
  simp only [List.all_eq_true, Option.all_eq_true, Bool.and_eq_true, decide_eq_true_eq, Bool.not_eq_true']
  constructor
  · intro neat
    exact ⟨neat.low, neat.first, neat.last⟩
  · intro parts
    exact ⟨parts.1, parts.2.1, parts.2.2⟩

instance {text : String} : Decidable (Neat text) := decidable_of_iff' _ neat_iff

private theorem Neat.append_mark {text : String} (neat : Neat text) : Neat (text ++ SourceType.arrayMark) := by
  have mark : Neat SourceType.arrayMark := by decide
  constructor
  · intro c member
    rw [String.toList_append] at member
    rcases List.mem_append.mp member with inside | inside
    · exact neat.low c inside
    · exact mark.low c inside
  · intro c start
    rw [String.toList_append, List.head?_append, Option.or_eq_some_iff] at start
    rcases start with own | ⟨_, added⟩
    · exact neat.first c own
    · exact mark.first c added
  · intro c ending
    rw [String.toList_append, List.getLast?_append, Option.or_eq_some_iff] at ending
    rcases ending with added | ⟨_, own⟩
    · exact mark.last c added
    · exact neat.last c own

private theorem Neat.arrayOf {base : String} (neat : Neat base) (depth : Nat) : Neat (arrayOf base depth) := by
  induction depth with
  | zero => exact neat
  | succ depth ih => exact ih.append_mark

private theorem Neat.ofText_append_mark {text : String} (neat : Neat text) :
    SourceType.ofText (text ++ SourceType.arrayMark) = ⟨text, true⟩ := by
  have marked : withoutSuffix? SourceType.arrayMark (text ++ SourceType.arrayMark) = some text :=
    withoutSuffix?_eq_some.mpr rfl
  simp only [SourceType.ofText, neat.append_mark.strip_eq, marked, neat.strip_eq]

private theorem Neat.ofText_unmarked {text : String} (neat : Neat text)
    (unmarked : ¬ SourceType.arrayMark.toList <:+ text.toList) :
    SourceType.ofText text = ⟨text, false⟩ := by
  simp only [SourceType.ofText, neat.strip_eq, withoutSuffix?_eq_none.mpr unmarked]

private theorem catalog_entries : ∀ entry ∈ catalog, Neat entry.1 ∧ ¬ SourceType.arrayMark.toList <:+ entry.1.toList ∧
    entry.2 ≠ .any := by
  decide +kernel

section

variable {base : String} {item : FieldType} (known : catalogued? base = some item)

include known

private theorem neat_of_catalogued : Neat base := (catalog_entries _ (Keyed.mem_of_get? known)).1

private theorem unmarked_of_catalogued : ¬ SourceType.arrayMark.toList <:+ base.toList ∧ item ≠ .any :=
  (catalog_entries _ (Keyed.mem_of_get? known)).2

private theorem fieldType_catalogued : Enums.fieldType [] base = item := by
  have neat := neat_of_catalogued known
  have plain := neat.ofText_unmarked (unmarked_of_catalogued known).1
  have key : keyOf base = base := by rw [keyOf, plain, SourceType.key, lower_low neat.low]
  simp [Enums.fieldType, Enums.baseType?, Keyed.contains, Keyed.get?, key, known, plain]

private theorem fieldType_arrayOf (depth : Nat) :
    Enums.fieldType [] (arrayOf base (depth + 1)) = .list (if depth = 0 then item else .any) := by
  have neat := (neat_of_catalogued known).arrayOf depth
  have marked := neat.ofText_append_mark
  have key : keyOf (arrayOf base depth ++ SourceType.arrayMark) = arrayOf base depth := by
    rw [keyOf, marked, SourceType.key, lower_low neat.low]
  cases depth with
  | zero => simp_all [Enums.fieldType, Enums.baseType?, Keyed.contains, Keyed.get?, arrayOf]
  | succ depth =>
    have foreign : catalogued? (arrayOf base (depth + 1)) = none := by
      rw [Option.eq_none_iff_forall_ne_some]
      intro other found
      apply (unmarked_of_catalogued found).1
      rw [arrayOf, String.toList_append]
      exact List.suffix_append _ _
    rw [arrayOf, Enums.fieldType, key, marked]
    simp [Enums.baseType?, Keyed.contains, Keyed.get?, foreign]

end

end Typing

namespace Document

open Text Typing

/-- A catalogued type with array marks after it. -/
def Known (type : String) : Prop := ∃ base item depth, catalogued? base = some item ∧ type = arrayOf base depth

theorem Known.array {type : String} (known : Known type) : Known (type ++ SourceType.arrayMark) := by
  obtain ⟨base, item, depth, listed, same⟩ := known
  exact ⟨base, item, depth + 1, listed, by rw [arrayOf, same]⟩

private theorem known_of_format {value : Value} {type : String} (named : typeOfFormat? value = some type) :
    Known type := by
  cases value with
  | text format =>
    simp only [typeOfFormat?, Option.ite_none_right_eq_some, Bool.and_eq_true, Option.some.injEq] at named
    obtain ⟨⟨_, listed⟩, rfl⟩ := named
    generalize (formatAliases.lookup (lower (strip format))).getD (lower (strip format)) = type at listed ⊢
    obtain ⟨item, listed⟩ := Option.isSome_iff_exists.mp listed
    cases ending : withoutSuffix? SourceType.arrayMark type with
    | some base =>
      rw [ending] at listed
      exact ⟨base, item, 1, listed, withoutSuffix?_eq_some.mp ending⟩
    | none =>
      rw [ending] at listed
      exact ⟨type, item, 0, listed, rfl⟩
  | _ => cases named

private theorem known_of_json {value : Value} {type : String} (told : typeOfJson value = .ok type) : Known type := by
  have plain : ∀ type ∈ "jsonb" :: "text" :: jsonTypes.map Prod.snd, (catalogued? type).isSome := by decide +kernel
  have among : type ∈ "jsonb" :: "text" :: jsonTypes.map Prod.snd := by
    cases value with
    | text name =>
      obtain rfl := Except.ok.inj told
      cases found : jsonTypes.lookup name with
      | none => simp
      | some type => simpa using .inr (.inr ⟨name, Keyed.mem_of_get? found⟩)
    | list items => cases told
    | object fields => cases told
    | _ =>
      obtain rfl := Except.ok.inj told
      simp
  obtain ⟨item, listed⟩ := Option.isSome_iff_exists.mp (plain type among)
  exact ⟨type, item, 0, listed, rfl⟩

/-- Whatever is told of a property is known. The induction is on the property, through the items of arrays. -/
private theorem known_of_columnType (fields : Fields) {type : String} (told : columnType fields = .ok type) :
    Known type := by
  cases named : typeOfFormat? (fieldOf fields "format") with
  | some other =>
    rw [columnType_of_format named] at told
    exact known_of_format (Except.ok.inj told ▸ named)
  | none =>
    by_cases kind : fieldOf fields "type" = .text "array"
    · cases items : fieldOf fields "items" with
      | object inner =>
        have smaller := sizeOf_fieldOf items
        rw [columnType_of_items named kind items] at told
        cases deeper : columnType inner with
        | error fault =>
          rw [deeper] at told
          cases told
        | ok element =>
          rw [deeper] at told
          obtain rfl := Except.ok.inj told
          exact (known_of_columnType inner deeper).array
      | _ =>
        rw [columnType_of_array named kind, items] at told
        obtain rfl := Except.ok.inj told
        exact ⟨"jsonb", _, 0, rfl, rfl⟩
    · rw [columnType_of_single named kind] at told
      exact known_of_json told
termination_by sizeOf fields

/-- Whatever property a type is told of, it is a catalogued type with array marks after it, one for each array that it
is inside of. Without enumerated types its field has the type of the catalog, a list of that, or from the second mark
on a list of anything, so it never may hold anything at all. -/
theorem columnType_mapped {fields : Fields} {type : String} (told : columnType fields = .ok type) :
    ∃ base item depth, catalogued? base = some item ∧ type = arrayOf base depth ∧
      Enums.fieldType [] type = (match depth with
        | 0 => item
        | 1 => .list item
        | _ + 2 => .list .any) ∧
      Enums.fieldType [] type ≠ .any := by
  obtain ⟨base, item, depth, listed, rfl⟩ := known_of_columnType fields told
  refine ⟨base, item, depth, listed, rfl, ?_⟩
  cases depth with
  | zero =>
    have same : Enums.fieldType [] (arrayOf base 0) = item := fieldType_catalogued listed
    exact ⟨same, same ▸ (unmarked_of_catalogued listed).2⟩
  | succ depth =>
    have same := fieldType_arrayOf listed depth
    cases depth with
    | zero => exact ⟨same, by simp [same]⟩
    | succ depth => exact ⟨same, by simp [same]⟩

/-- A property with rows of rows of numbers. -/
def matrix : Fields :=
  [("type", .text "array"),
    ("items", .object [("type", .text "array"), ("items", .object [("format", .text " Double Precision ")])])]

/-- What is inside of the rows is no longer told apart. -/
theorem matrix_mapped : columnType matrix = .ok "double precision[][]" ∧
    (∃ base item depth, catalogued? base = some item ∧ "double precision[][]" = arrayOf base depth ∧
      Enums.fieldType [] "double precision[][]" = (match depth with
        | 0 => item
        | 1 => .list item
        | _ + 2 => .list .any) ∧
      Enums.fieldType [] "double precision[][]" ≠ .any) ∧
    Enums.fieldType [] "double precision[][]" = .list .any := by
  have number : columnType [("format", .text " Double Precision ")] = .ok "double precision" :=
    columnType_of_format (by decide +kernel)
  have row : columnType [("type", .text "array"), ("items", .object [("format", .text " Double Precision ")])] =
      .ok "double precision[]" := by
    rw [columnType_of_items rfl rfl rfl, number]
    rfl
  have told : columnType matrix = .ok "double precision[][]" := by
    rw [columnType_of_items rfl rfl rfl, row]
    rfl
  exact ⟨told, columnType_mapped told, by decide +kernel⟩

end Document

end TableModels
