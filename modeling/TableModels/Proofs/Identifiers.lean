import TableModels.Naming.Fresh
import TableModels.Proofs.Places

/-! The identifiers of a generated package. Whatever the names of tables and columns are, a module or a field begins
with a small letter and goes on with small letters, digits and underscores, and no identifier has a meaning of its
own. -/

namespace TableModels.Naming

open Text

/-- A small letter, and after it small letters, digits and underscores. -/
def IsPlainName (name : String) : Prop := ∃ c rest, name.toList = c :: rest ∧ isAsciiLower c ∧ ∀ d ∈ rest, isFieldChar d

theorem IsPlainName.append {name : String} (plain : IsPlainName name) {ending : String}
    (legal : ∀ c ∈ ending.toList, isFieldChar c) :
    IsPlainName (name ++ ending) := by
  obtain ⟨c, rest, chars, lower, others⟩ := plain
  refine ⟨c, rest ++ ending.toList, by rw [String.toList_append, chars, List.cons_append], lower, fun d member => ?_⟩
  rcases List.mem_append.mp member with inside | inside
  · exact others d inside
  · exact legal d inside

private theorem isFieldChar_of_mem_fieldChars {name : String} {c : Char} (member : c ∈ fieldChars name) :
    isFieldChar c :=
  (List.mem_filter.mp ((List.dropWhile_sublist _).subset member)).2

private theorem fieldName_cases (name : String) : fieldName name = "field" ∨
    ∃ word, IsPlainName word ∧ fieldName name = if reservedFieldNames.contains word then word ++ "_" else word := by
  have legal := @isFieldChar_of_mem_fieldChars name
  have first := head?_fieldChars name
  rw [fieldName]
  cases chars : fieldChars name with
  | nil => exact .inl rfl
  | cons c rest =>
    rw [chars] at legal first
    refine .inr ⟨_, ?_, rfl⟩
    cases digit : isAsciiDigit c with
    | true =>
      have word : IsPlainName "field_" := ⟨'f', "ield_".toList, rfl, rfl, List.all_eq_true.mp (by decide)⟩
      exact word.append fun d member => legal (by simpa using member)
    | false =>
      have lower : isAsciiLower c := by
        have field := legal List.mem_cons_self
        simp only [isFieldChar, digit, Bool.or_false, Bool.or_eq_true, beq_iff_eq] at field
        exact field.resolve_right fun mark => first (by rw [mark]; rfl)
      exact ⟨c, rest, by simp, lower, fun d member => legal (List.mem_cons_of_mem _ member)⟩

theorem isPlainName_fieldName (name : String) : IsPlainName (fieldName name) := by
  rcases fieldName_cases name with same | ⟨word, plain, same⟩
  · rw [same]
    exact ⟨'f', "ield".toList, rfl, rfl, List.all_eq_true.mp (by decide)⟩
  · rw [same]
    split
    · exact plain.append (List.all_eq_true.mp (by decide))
    · exact plain

/-- Characters that spell a name that a field may have are kept. -/
theorem fieldName_of_plain {name word : String} (plain : IsPlainName word) (free : word ∉ reservedFieldNames)
    (kept : fieldChars name = word.toList) : fieldName name = word := by
  obtain ⟨c, rest, chars, lower, _⟩ := plain
  have digit : isAsciiDigit c = false := by
    rw [← Bool.not_eq_true]
    intro digit
    simp only [isAsciiDigit, isAsciiLower, Bool.and_eq_true, decide_eq_true_eq] at digit lower
    exact absurd (Char.le_trans lower.1 digit.2) (by decide)
  have text : String.ofList (c :: rest) = word := by rw [← chars, String.ofList_toList]
  have reserved : reservedFieldNames.contains word = false := by
    rw [← Bool.not_eq_true, List.contains_iff_mem]
    exact free
  rw [fieldName, kept, chars]
  simp only [digit, text, reserved, Bool.false_eq_true, if_false]

theorem isPlainName_moduleName (table : String) : IsPlainName (moduleName table) := isPlainName_fieldName table

/-- The only reserved word that ends in the mark for reserved words is the mark itself. None ends in the mark for
relations. -/
theorem endings_of_reserved :
    ∀ word ∈ reservedFieldNames, ("_".toList <:+ word.toList → word = "_") ∧ ¬ "_rel".toList <:+ word.toList := by
  decide +kernel

/-- A marked word is no word of a list again, if no more than one word of the list ends in the mark. -/
theorem not_marked_again {words : List String} {root mark : String}
    (only : ∀ word ∈ words, mark.toList <:+ word.toList → word = root ++ mark)
    (free : root ∉ words) {word : String} (reserved : word ∈ words) : word ++ mark ∉ words := by
  intro member
  have same : word ++ mark = root ++ mark := only _ member (by simp)
  exact free ((String.append_left_inj _).mp same ▸ reserved)

private theorem marked_not_reserved {word : String} (reserved : word ∈ reservedFieldNames) :
    word ++ "_" ∉ reservedFieldNames :=
  not_marked_again (fun word member => (endings_of_reserved word member).1)
    (show "" ∉ reservedFieldNames by decide +kernel) reserved

theorem fieldName_not_reserved (name : String) : fieldName name ∉ reservedFieldNames := by
  rcases fieldName_cases name with same | ⟨word, _, same⟩
  · rw [same]
    decide +kernel
  · rw [same]
    split
    · rename_i reserved
      exact marked_not_reserved (List.contains_iff_mem.mp reserved)
    · rename_i free
      exact fun member => free (List.contains_iff_mem.mpr member)

private theorem fresh_cases (mark : String) (used : List String) (name : String) :
    fresh mark used name = name ∨ ∃ stem, fresh mark used name = stem ++ mark := by
  have within : ∀ tries name, freshWithin mark tries used name = name ∨ ∃ stem, freshWithin mark tries used name =
      stem ++ mark := by
    intro tries
    induction tries with
    | zero => exact fun name => .inl rfl
    | succ tries ih =>
      intro name
      rw [freshWithin]
      split
      · rcases ih (name ++ mark) with same | marked
        · exact .inr ⟨name, same⟩
        · exact .inr marked
      · exact .inl rfl
  exact within _ name

private theorem unmarked_of_annotated :
    ∀ name ∈ annotationNames, ¬ "_".toList <:+ name.toList ∧ ¬ "_rel".toList <:+ name.toList := by
  decide +kernel

theorem fresh_not_annotated {used : List String} {name : String} (apart : name ∉ annotationNames) :
    fresh "_" used name ∉ annotationNames := by
  rcases fresh_cases "_" used name with same | ⟨stem, same⟩
  · rwa [same]
  · intro member
    exact (unmarked_of_annotated _ member).1 (by simp [same])

theorem marked_not_annotated (name : String) : name ++ "_rel" ∉ annotationNames :=
  fun member => (unmarked_of_annotated _ member).2 (by simp)

theorem fieldName_not_annotated (name : String) : fieldName name ∉ annotationNames :=
  fun member => fieldName_not_reserved name (by simp [reservedFieldNames, member])

theorem lower_of_reserved :
    ∀ word ∈ keywords ++ softKeywords ++ annotationNames, lower word ∈ reservedClassNames := by decide +kernel

private theorem base_of_annotated : ∀ word, word ++ "Model" ∈ annotationNames → word = "Base" := by
  have endings : ∀ name ∈ annotationNames, "Model".toList <:+ name.toList → name = "Base" ++ "Model" := by
    decide +kernel
  intro word member
  have same := congrArg String.toList (endings _ member (by simp))
  rw [String.toList_append, String.toList_append] at same
  exact String.toList_inj.mp (List.append_cancel_right same)

private theorem classNameOf_not_annotated (text : String) : classNameOf text ∉ annotationNames := by
  obtain ⟨word, same⟩ : ∃ word, classNameOf text = if reservedClassNames.contains (lower word) then
      word ++ "Model" else word := by
    simp only [classNameOf]
    exact ⟨_, rfl⟩
  rw [same]
  split
  · rename_i reserved
    intro member
    rw [base_of_annotated word member] at reserved
    revert reserved
    decide +kernel
  · rename_i free
    exact fun member => free (List.contains_iff_mem.mpr (lower_of_reserved word (List.mem_append_right _ member)))

theorem className_not_annotated {singular : Bool} {table name : String} (named : className singular table = .ok name) :
    name ∉ annotationNames := by
  rw [className] at named
  cases made : pascalName singular table with
  | error cause =>
    rw [made] at named
    cases named
  | ok text =>
    rw [made] at named
    obtain rfl := Except.ok.inj named
    exact classNameOf_not_annotated text

end TableModels.Naming
