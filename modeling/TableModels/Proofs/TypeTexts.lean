import TableModels.Model.Stepwise
import TableModels.Proofs.FreeNames

/-! Annotations come back from their text as the expressions that are declared, so rendering a model step by step ends
as rendering it at once does, and the only step that fails is the reading of a default. -/

namespace TableModels

namespace Code.TypeText

variable {rest : List Char}

/-- What may come after an annotation: no part of a word, and no opening bracket. -/
def Ends (rest : List Char) : Prop := ∀ c ∈ rest.head?, isNameChar c = false ∧ c ≠ '['

private theorem ends_closing (rest : List Char) : Ends (']' :: rest) := by
  intro c first
  obtain rfl : ']' = c := by simpa using first
  decide

theorem ends_comma (rest : List Char) : Ends (',' :: rest) := by
  intro c first
  obtain rfl : ',' = c := by simpa using first
  decide

private theorem takeWhile_word {word : List Char} (inside : ∀ c ∈ word, isNameChar c = true)
    (ends : ∀ c ∈ rest.head?, isNameChar c = false) :
    (word ++ rest).takeWhile isNameChar = word ∧ (word ++ rest).dropWhile isNameChar = rest := by
  rw [List.takeWhile_append_of_pos inside, List.dropWhile_append_of_pos inside]
  cases rest with
  | nil => simp
  | cons c rest => simp [ends c rfl]

/-- Words that are read as they stand. -/
structure IsWord (name : String) : Prop where
  inside : ∀ c ∈ name.toList, isNameChar c = true
  first : ∃ c word, name.toList = c :: word ∧ Text.isAsciiDigit c = false ∧ c ≠ '\''
  free : name ≠ "None" → name ∉ Naming.keywords

theorem IsWord.readWord? {name : String} (word : IsWord name) (ends : ∀ c ∈ rest.head?, isNameChar c = false) :
    readAtom? (name.toList ++ rest) = some (if name = "None" then .nothing else .name name, rest) := by
  obtain ⟨c, letters, same, digit, quote⟩ := word.first
  obtain ⟨taken, left⟩ := takeWhile_word word.inside ends
  have atom : readAtom? (name.toList ++ rest) = TypeText.readWord? (name.toList ++ rest) := by
    rw [same, List.cons_append, readAtom?]
    rintro _ first
    exact quote (List.cons.inj first).1
  rw [atom, TypeText.readWord?, taken, left, same]
  have whole : String.ofList (c :: letters) = name := by rw [← same, String.ofList_toList]
  simp only [whole, digit, Bool.false_eq_true, if_false, beq_iff_eq]
  split
  · rfl
  · rename_i other
    rw [if_neg (by simpa using word.free other)]

private theorem readFrom?_atom {chars : List Char} {value : Expr} {fuel : Nat}
    (atom : readAtom? (chars ++ rest) = some (value, rest))
    (ends : Ends rest) : readFrom? (fuel + 1) (chars ++ rest) = some (value, rest) := by
  rw [readFrom?, atom]
  cases rest with
  | nil => rfl
  | cons c rest =>
    have other := (ends c rfl).2
    simp only [bind, Option.bind]
    split
    · rename_i same
      exact absurd (List.cons.inj same).1 other
    · rfl

private theorem readFrom?_brackets {name : String} (word : IsWord name) (other : name ≠ "None") {fuel : Nat}
    {chars : List Char} {indices : List Expr}
    (inside : readIndices? fuel chars = some (indices, rest)) :
    readFrom? (fuel + 1) (name.toList ++ '[' :: chars) = some (.subscript (.name name) indices, rest) := by
  have ends : ∀ c ∈ ('[' :: chars).head?, isNameChar c = false := by
    intro c first
    obtain rfl : '[' = c := by simpa using first
    decide
  rw [readFrom?, word.readWord? ends, if_neg other]
  simp only [bind, Option.bind, inside]

private theorem readIndices?_last {fuel : Nat} {chars : List Char} {index : Expr}
    (read : readFrom? fuel (chars ++ ']' :: rest) = some (index, ']' :: rest)) :
    readIndices? (fuel + 1) (chars ++ ']' :: rest) = some ([index], rest) := by
  simp only [readIndices?, read, bind, Option.bind]

private theorem readIndices?_next {fuel : Nat} {chars more : List Char} {index : Expr} {others : List Expr}
    (read : readFrom? fuel (chars ++ ',' :: ' ' :: more) = some (index, ',' :: ' ' :: more))
    (later : readIndices? fuel more = some (others, rest)) :
    readIndices? (fuel + 1) (chars ++ ',' :: ' ' :: more) = some (index :: others, rest) := by
  simp only [readIndices?, read, bind, Option.bind, later]

end Code.TypeText

namespace Model

open Schema Typing Code TypeText

private theorem isWord_of_checked {name : String} (inside : name.toList.all isNameChar = true)
    (first : (name.toList.head?.map fun c => !Text.isAsciiDigit c && c != '\'') = some true)
    (free : name = "None" ∨ Naming.keywords.contains name = false) : IsWord name := by
  cases chars : name.toList with
  | nil => simp [chars] at first
  | cons c word =>
    rw [chars] at first
    refine ⟨by simpa using inside, ⟨c, word, chars, ?_⟩, fun other => ?_⟩
    · simpa using first
    · simpa using free.resolve_left other

private theorem readFrom?_word {name : String} {value : Expr} (word : IsWord name)
    (same : (if name = "None" then .nothing else .name name) = value)
    {fuel : Nat} (enough : 2 * name.length ≤ fuel) {rest : List Char} (ends : Ends rest) :
    readFrom? fuel (name.toList ++ rest) = some (value, rest) := by
  obtain ⟨c, letters, chars, _⟩ := word.first
  have filled : 0 < name.length := by rw [← String.length_toList, chars, List.length_cons]; omega
  obtain ⟨fuel, rfl⟩ : ∃ less, fuel = less + 1 := ⟨fuel - 1, by omega⟩
  exact readFrom?_atom (same ▸ word.readWord? fun c first => (ends c first).1) ends

private theorem readFrom?_typeExpr (type : FieldType) {fuel : Nat} (enough : 2 * type.text.length ≤ fuel)
    {rest : List Char} (ends : Ends rest) :
    readFrom? fuel (type.text.toList ++ rest) = some (typeExpr type, rest) := by
  have closing : "]".length = 1 := by decide
  induction type generalizing fuel rest with
  | list item ih =>
    have opening : "list[".length = 5 := by decide
    rw [FieldType.text, String.length_append, String.length_append] at enough
    obtain ⟨fuel, rfl⟩ : ∃ less, fuel = less + 2 := ⟨fuel - 2, by omega⟩
    have word : IsWord "list" := isWord_of_checked (by decide) (by decide) (.inr (by decide))
    have inside := readIndices?_last (ih (show 2 * item.text.length ≤ fuel by omega) (ends_closing rest))
    simpa [FieldType.text, typeExpr] using readFrom?_brackets word (by decide) inside
  | dict value ih =>
    have opening : "dict[str, ".length = 10 := by decide
    rw [FieldType.text, String.length_append, String.length_append] at enough
    obtain ⟨fuel, rfl⟩ : ∃ less, fuel = less + 3 := ⟨fuel - 3, by omega⟩
    have word : IsWord "dict" := isWord_of_checked (by decide) (by decide) (.inr (by decide))
    have key : IsWord "str" := isWord_of_checked (by decide) (by decide) (.inr (by decide))
    have small : 2 * "str".length ≤ fuel + 1 := by
      have three : "str".length = 3 := by decide
      omega
    have last := readIndices?_last (ih (show 2 * value.text.length ≤ fuel by omega) (ends_closing rest))
    have first := readFrom?_word key rfl small (ends_comma (' ' :: (value.text.toList ++ ']' :: rest)))
    simpa [FieldType.text, typeExpr] using readFrom?_brackets word (by decide) (readIndices?_next first last)
  | none => exact readFrom?_word (isWord_of_checked (by decide) (by decide) (.inl rfl)) rfl enough ends
  | any | int | float | decimal | str | bool | bytes | uuid | date | datetime | time | timedelta =>
    exact readFrom?_word (isWord_of_checked (by decide) (by decide) (.inr (by decide))) rfl enough ends

private theorem escapeChar_letter {c : Char} (letter : Text.isAsciiAlphanumeric c = true) :
    c ≠ '\'' ∧ Text.escapeChar c = [c] := by
  have ascii : c.toNat < 128 := by
    simp only [Text.isAsciiAlphanumeric, Text.isAsciiUpper, Text.isAsciiLower, Text.isAsciiDigit, Bool.or_eq_true,
      Bool.and_eq_true, decide_eq_true_eq] at letter
    rcases letter with (⟨_, below⟩ | ⟨_, below⟩) | ⟨_, below⟩ <;> exact Nat.lt_of_le_of_lt below (by decide)
  have all : ∀ code < 128, Text.isAsciiAlphanumeric (Char.ofNat code) = true →
      Char.ofNat code ≠ '\'' ∧ Text.escapeChar (Char.ofNat code) = [Char.ofNat code] := by decide
  have own := all c.toNat ascii
  rw [Char.ofNat_toNat] at own
  exact own letter

private theorem quoted_letters {name : String} (letters : ∀ c ∈ name.toList, Text.isAsciiAlphanumeric c = true) :
    (Text.quoted name).toList = '\'' :: (name.toList ++ ['\'']) := by
  have absent : name.toList.contains '\'' = false := by
    rw [List.contains_eq_mem, decide_eq_false_iff_not]
    intro member
    cases letters _ member
  have quote : Text.quoteFor name.toList = '\'' := by rw [Text.quoteFor, absent]; rfl
  have escaped : ∀ chars : List Char, (∀ c ∈ chars, Text.isAsciiAlphanumeric c = true) →
      Text.escapeWithin '\'' chars = chars := by
    intro chars
    induction chars with
    | nil => exact fun _ => rfl
    | cons c rest ih =>
      intro letters
      obtain ⟨own, others⟩ := List.forall_mem_cons.mp letters
      have plain : c ≠ '\'' ∧ Text.escapeChar c = [c] := escapeChar_letter own
      rw [Text.escapeWithin, if_neg (by simpa using plain.1), plain.2, ih others, List.singleton_append]
  rw [Text.quoted, String.toList_ofList, Text.quoteChars, quote, escaped _ letters]
  rfl

private theorem readFrom?_quoted {name : String} (letters : ∀ c ∈ name.toList, Text.isAsciiAlphanumeric c = true)
    {fuel : Nat} (enough : 0 < fuel)
    {rest : List Char} (ends : Ends rest) :
    readFrom? fuel ((Text.quoted name).toList ++ rest) = some (.text name, rest) := by
  obtain ⟨fuel, rfl⟩ : ∃ less, fuel = less + 1 := ⟨fuel - 1, by omega⟩
  have inside : ∀ c ∈ name.toList, isNameChar c = true := fun c member => by rw [isNameChar, letters c member]; rfl
  have close : ∀ c ∈ ('\'' :: rest).head?, isNameChar c = false := by
    intro c first
    obtain rfl : '\'' = c := by simpa using first
    decide
  obtain ⟨taken, left⟩ := takeWhile_word inside close
  refine readFrom?_atom ?_ ends
  have chars : (Text.quoted name).toList ++ rest = '\'' :: (name.toList ++ '\'' :: rest) := by
    simp [quoted_letters letters]
  rw [chars, readAtom?, readQuoted?, left]
  simp only [taken, String.ofList_toList]

private theorem read?_optional {text : String} {type : Expr}
    (read : ∀ fuel, 2 * text.length ≤ fuel → ∀ rest, Ends rest →
      readFrom? fuel (text.toList ++ rest) = some (type, rest)) :
    TypeText.read? (optionalText text) = some (.subscript (.name "Optional") [type]) := by
  have opening : "Optional[".length = 9 := by decide
  have word : IsWord "Optional" := isWord_of_checked (by decide) (by decide) (.inr (by decide))
  have length : 2 * (optionalText text).length = 2 * text.length + 20 := by
    have closing : "]".length = 1 := by decide
    rw [optionalText, String.length_append, String.length_append]
    omega
  have inside := readIndices?_last (read (2 * text.length + 18) (by omega) _ (ends_closing []))
  have whole := readFrom?_brackets word (by decide) inside
  have chars : (optionalText text).toList = "Optional".toList ++ '[' :: (text.toList ++ [']']) := by simp [optionalText]
  rw [TypeText.read?, length, chars, whole]

private theorem read?_typeExpr (type : FieldType) : TypeText.read? type.text = some (typeExpr type) := by
  have read := readFrom?_typeExpr type (Nat.le_refl _) (show Ends [] by simp [Ends])
  rw [List.append_nil] at read
  rw [TypeText.read?, read]

private theorem ScalarField.declare_eq (field : ScalarField) : field.declare = .ok field.declaration := by
  have optional := read?_optional fun fuel enough rest ends => readFrom?_typeExpr field.type enough ends
  have read : readType field.typeText =
      .ok (if field.column.nullable then .subscript (.name "Optional") [typeExpr field.type] else
          typeExpr field.type) := by
    rw [ScalarField.typeText]
    split
    · rw [readType, optional]
    · rw [readType, read?_typeExpr]
  rw [ScalarField.declare, read]
  rfl

private theorem RelationField.declare_eq {field : RelationField}
    (letters : ∀ c ∈ field.targetClass.toList, Text.isAsciiAlphanumeric c = true) :
    field.declare = .ok field.declaration := by
  have filled : 0 < 2 * (Text.quoted field.targetClass).length := by
    rw [← String.length_toList, quoted_letters letters, List.length_cons]
    omega
  have optional := read?_optional fun fuel enough rest ends => readFrom?_quoted letters (by omega) ends
  rw [RelationField.declare, readType, RelationField.typeText, optional]
  rfl

variable {style : Style} {enums : Enums} {known : List String} {table : Table}

private theorem mapM_declared {α : Type} {declare : α → Except Trouble Statement} {declaration : α → Statement}
    {fields : List α}
    (each : ∀ field ∈ fields, declare field = .ok (declaration field)) :
    fields.mapM declare = .ok (fields.map declaration) := by
  induction fields with
  | nil => rfl
  | cons field rest ih =>
    obtain ⟨own, others⟩ := List.forall_mem_cons.mp each
    rw [List.mapM_cons, own, ih others]
    rfl

/-- All annotations of a module are read back. -/
theorem moduleStepwise_eq (style : Style) (enums : Enums) (known : List String) (table : Table) :
    moduleStepwise style enums known table = (module style enums known table).mapError .fault := by
  rw [moduleStepwise, module]
  cases found : fields style enums known table with
  | error fault => rfl
  | ok both =>
    obtain ⟨scalars, relations⟩ := both
    have columns : scalars.mapM ScalarField.declare = .ok (scalars.map ScalarField.declaration) :=
      mapM_declared fun field _ => field.declare_eq
    have related := mapM_declared fun relation member => RelationField.declare_eq
      (Naming.legalClass_of_className (fields_made found relation member).targetClass).capital.letters
    simp only [Except.mapError, bind, Except.bind, columns, related]
    cases Naming.className style.singular table.name with
    | error cause => rfl
    | ok name => simp [modelClass, pure, Except.pure]

end Model

end TableModels
