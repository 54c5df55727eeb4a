import TableModels.Proofs.Identifiers
import TableModels.Proofs.LowerCase

/-! Names that come to the same identifier. What is cleaned away of names is lost, so names that differ in nothing else
share a module or a class. Apart from that they share one only if one name is spelled as the other has to be marked. -/

namespace TableModels.Naming

open Text

variable {name first second : String}

/-- What becomes of the characters that may stand in a field name. -/
inductive FieldForm (name : String) : Prop where
  | kept (same : (fieldName name).toList = fieldChars name)
  | opened (rest : List Char) (same : (fieldName name).toList = "field".toList ++ rest)
      (left : rest = [] ∧ fieldChars name = [] ∨ rest = '_' :: fieldChars name)
  | marked (reserved : String.ofList (fieldChars name) ∈ reservedFieldNames) (same : (fieldName name).toList =
      fieldChars name ++ ['_'])

private theorem opening_not_marked : ∀ word ∈ reservedFieldNames, ¬ "field".toList <+: (word ++ "_").toList := by
  decide +kernel

private theorem not_opened {words : List String} {opening mark : String}
    (apart : ∀ word ∈ words, ¬ opening.toList <+: (word ++ mark).toList)
    (word : String) (reserved : word ∈ words) : ¬ opening.toList <+: word.toList := by
  intro opens
  apply apart word reserved
  rw [String.toList_append]
  exact opens.trans (List.prefix_append _ _)

private theorem marked_not_opened {chars : List Char} (reserved : String.ofList chars ∈ reservedFieldNames)
    (rest : List Char) :
    chars ++ ['_'] ≠ "field".toList ++ rest := by
  intro same
  have text : (String.ofList chars ++ "_").toList = chars ++ ['_'] := by simp
  exact opening_not_marked _ reserved ⟨rest, (text.trans same).symm⟩

private theorem fieldName_form (name : String) : FieldForm name := by
  cases chars : fieldChars name with
  | nil => exact .opened [] (by rw [fieldName, chars]; rfl) (.inl ⟨rfl, chars⟩)
  | cons c rest =>
    cases digit : isAsciiDigit c with
    | true =>
      have text : ("field_" ++ String.ofList (c :: rest)).toList = "field".toList ++ '_' :: c :: rest := by simp
      have free : reservedFieldNames.contains ("field_" ++ String.ofList (c :: rest)) = false := by
        rw [← Bool.not_eq_true, List.contains_iff_mem]
        intro member
        exact not_opened opening_not_marked _ member ⟨'_' :: c :: rest, text.symm⟩
      refine .opened ('_' :: c :: rest) ?_ (.inr (by rw [chars]))
      rw [fieldName, chars]
      simp only [digit, free, Bool.false_eq_true, if_true, if_false, text]
    | false =>
      cases reserved : reservedFieldNames.contains (String.ofList (c :: rest)) with
      | true =>
        refine .marked (by rw [chars]; exact List.contains_iff_mem.mp reserved) ?_
        rw [fieldName, chars]
        simp only [digit, reserved, Bool.false_eq_true, if_true, if_false, String.toList_append, String.toList_ofList]
        rfl
      | false =>
        refine .kept ?_
        rw [fieldName, chars]
        simp only [digit, reserved, Bool.false_eq_true, if_false, String.toList_ofList]

private theorem fieldName_of_chars (spelled : fieldChars first = (fieldName second).toList) :
    fieldName first = fieldName second :=
  fieldName_of_plain (isPlainName_fieldName second) (fieldName_not_reserved second) spelled

theorem fieldName_eq_iff : fieldName first = fieldName second ↔
    fieldChars first = fieldChars second ∨ fieldChars first = (fieldName second).toList ∨
      fieldChars second = (fieldName first).toList := by
  constructor
  · intro same
    have chars := congrArg String.toList same
    cases fieldName_form first with
    | kept own => exact .inr (.inl (own ▸ chars))
    | opened rest own left =>
      cases fieldName_form second with
      | kept other => exact .inr (.inr (other ▸ chars.symm))
      | opened others other right =>
        rw [own, other] at chars
        obtain rfl : rest = others := List.append_cancel_left chars
        rcases left with ⟨rfl, nothing⟩ | opens
        · rcases right with ⟨_, empty⟩ | opens
          · exact .inl (nothing.trans empty.symm)
          · cases opens
        · rcases right with ⟨rfl, _⟩ | also
          · cases opens
          · rw [opens] at also
            exact .inl (List.cons.inj also).2
      | marked reserved other =>
        rw [own, other] at chars
        exact absurd chars.symm (marked_not_opened reserved rest)
    | marked reserved own =>
      cases fieldName_form second with
      | kept other => exact .inr (.inr (other ▸ chars.symm))
      | opened others other _ =>
        rw [own, other] at chars
        exact absurd chars (marked_not_opened reserved others)
      | marked _ other =>
        rw [own, other] at chars
        exact .inl (List.append_cancel_right chars)
  · rintro (same | spelled | spelled)
    · rw [fieldName, fieldName, same]
    · exact fieldName_of_chars spelled
    · exact (fieldName_of_chars spelled).symm

private theorem lower_opened (text : String) : ∃ rest, (lower ("Table" ++ text)).toList = "table".toList ++ rest := by
  refine ⟨lowerFrom "Table".toList.reverse text.toList, ?_⟩
  rw [lower, String.toList_ofList, String.toList_append, lowerChars, lowerFrom_append (by decide)]
  rfl

theorem lower_marked {text : String} (plain : 'Σ' ∉ text.toList) : lower (text ++ "Model") = lower text ++ "model" := by
  rw [← String.toList_inj, String.toList_append, lower, lower, String.toList_ofList, String.toList_ofList,
    String.toList_append, lowerChars, lowerFrom_append plain]
  rfl

private theorem ends_in_model :
    ∀ word ∈ reservedClassNames, "model".toList <:+ word.toList → word = "base" ++ "model" := by
  decide +kernel

theorem model_not_reserved {word : String} (reserved : word ∈ reservedClassNames) :
    word ++ "model" ∉ reservedClassNames :=
  not_marked_again ends_in_model (by decide +kernel) reserved

private theorem model_not_opened : ∀ word ∈ reservedClassNames, ¬ "table".toList <+: (word ++ "model").toList := by
  decide +kernel

/-- What becomes of a text that is to name a class. -/
inductive ClassForm (text : String) : Prop where
  | kept (same : classNameOf text = text)
  | opened (same : classNameOf text = "Table" ++ text)
  | marked (letter : ∃ c rest, text.toList = c :: rest ∧ isAsciiDigit c = false)
      (reserved : lower text ∈ reservedClassNames)
      (same : classNameOf text = text ++ "Model")

/-- A class name may be any text that begins with no digit and has no meaning of its own. -/
theorem classNameOf_kept {text : String} {c : Char} {rest : List Char} (chars : text.toList = c :: rest)
    (letter : isAsciiDigit c = false)
    (free : lower text ∉ reservedClassNames) : classNameOf text = text := by
  have filled : (text == "") = false := by
    rw [beq_eq_false_iff_ne]
    rintro rfl
    cases chars
  have unreserved : reservedClassNames.contains (lower text) = false := by
    rw [← Bool.not_eq_true, List.contains_iff_mem]
    exact free
  simp only [classNameOf, filled, chars, letter, unreserved, Bool.false_eq_true, if_false, List.head?_cons,
    Option.map_some, Option.getD_some]

private theorem table_free (text : String) : reservedClassNames.contains (lower ("Table" ++ text)) = false := by
  obtain ⟨rest, opens⟩ := lower_opened text
  rw [← Bool.not_eq_true, List.contains_iff_mem]
  intro member
  exact not_opened model_not_opened _ member ⟨rest, opens.symm⟩

private theorem classNameOf_form (text : String) : ClassForm text := by
  cases chars : text.toList with
  | nil =>
    obtain rfl : text = "" := String.toList_eq_nil_iff.mp chars
    exact .opened (by decide +kernel)
  | cons c rest =>
    have filled : (text == "") = false := by
      rw [beq_eq_false_iff_ne]
      rintro rfl
      cases chars
    cases digit : isAsciiDigit c with
    | true =>
      refine .opened ?_
      simp only [classNameOf, filled, chars, digit, table_free, Bool.false_eq_true, if_true, if_false,
        List.head?_cons, Option.map_some, Option.getD_some]
    | false =>
      cases reserved : reservedClassNames.contains (lower text) with
      | true =>
        refine .marked ⟨c, rest, chars, digit⟩ (List.contains_iff_mem.mp reserved) ?_
        simp only [classNameOf, filled, chars, digit, reserved, Bool.false_eq_true, if_true, if_false,
          List.head?_cons, Option.map_some, Option.getD_some]
      | false =>
        refine .kept (classNameOf_kept chars digit ?_)
        rw [← List.contains_iff_mem, reserved]
        exact Bool.false_ne_true

private theorem classNameOf_classNameOf {text : String} (plain : 'Σ' ∉ text.toList) :
    classNameOf (classNameOf text) = classNameOf text := by
  cases classNameOf_form text with
  | kept same => rw [same, same]
  | opened same =>
    rw [same]
    have chars : ("Table" ++ text).toList = 'T' :: ("able".toList ++ text.toList) := by simp
    refine classNameOf_kept chars rfl ?_
    rw [← List.contains_iff_mem, table_free]
    exact Bool.false_ne_true
  | marked letter reserved same =>
    obtain ⟨c, rest, chars, letter⟩ := letter
    have more : (text ++ "Model").toList = c :: (rest ++ "Model".toList) := by
      rw [String.toList_append, chars, List.cons_append]
    rw [same]
    refine classNameOf_kept more letter ?_
    rw [lower_marked plain]
    exact model_not_reserved reserved

private theorem classNameOf_eq_iff (plain : 'Σ' ∉ first.toList) (also : 'Σ' ∉ second.toList) :
    classNameOf first = classNameOf second ↔ first = second ∨ first = classNameOf second ∨
      second = classNameOf first := by
  -- a text that is opened and one that is marked differ in how they begin
  have apart : ∀ opened marked : String, 'Σ' ∉ marked.toList → lower marked ∈ reservedClassNames →
      "Table" ++ opened ≠ marked ++ "Model" := by
    intro opened marked plain reserved same
    obtain ⟨rest, opens⟩ := lower_opened opened
    rw [same, lower_marked plain] at opens
    exact model_not_opened _ reserved ⟨rest, opens.symm⟩
  constructor
  · intro same
    cases classNameOf_form first with
    | kept own => exact .inr (.inl (own.symm.trans same))
    | opened own =>
      cases classNameOf_form second with
      | kept other => exact .inr (.inr (other.symm.trans same.symm))
      | opened other =>
        rw [own, other, String.append_right_inj] at same
        exact .inl same
      | marked _ reserved other => exact absurd (own.symm.trans (same.trans other)) (apart _ _ also reserved)
    | marked _ reserved own =>
      cases classNameOf_form second with
      | kept other => exact .inr (.inr (other.symm.trans same.symm))
      | opened other => exact absurd (other.symm.trans (same.symm.trans own)) (apart _ _ plain reserved)
      | marked _ _ other =>
        rw [own, other, String.append_left_inj] at same
        exact .inl same
  · rintro (rfl | spelled | spelled)
    · rfl
    · rw [spelled, classNameOf_classNameOf also]
    · rw [spelled, classNameOf_classNameOf plain]

theorem mem_splitChars {isSeparator : Char → Bool} {chars part : List Char}
    (member : part ∈ splitChars isSeparator chars) :
    ∀ c ∈ part, c ∈ chars ∧ isSeparator c = false := by
  induction chars generalizing part with
  | nil =>
    obtain rfl : part = [] := by simpa [splitChars] using member
    exact List.forall_mem_nil _
  | cons first rest ih =>
    have onward : ∀ {other : List Char}, (∀ c ∈ other, c ∈ rest ∧ isSeparator c = false) → ∀ c ∈ other,
        c ∈ first :: rest ∧ isSeparator c = false :=
      fun each c inside => (each c inside).imp_left (List.mem_cons_of_mem first)
    rw [splitChars] at member
    split at member
    · rcases List.mem_cons.mp member with rfl | later
      · exact List.forall_mem_nil _
      · exact onward (ih later)
    · rename_i inside
      have letter : first ∈ first :: rest ∧ isSeparator first = false := ⟨List.mem_cons_self, by simpa using inside⟩
      split at member
      · obtain rfl : part = [first] := by simpa using member
        exact List.forall_mem_singleton.mpr letter
      · rename_i opening parts runs
        rw [runs] at ih
        rcases List.mem_cons.mp member with rfl | later
        · exact List.forall_mem_cons.mpr ⟨letter, onward (ih List.mem_cons_self)⟩
        · exact onward (ih (List.mem_cons_of_mem _ later))

private theorem sigma_not_mem_pascal (name : String) : 'Σ' ∉ (pascal name).toList := by
  rw [pascal, String.toList_ofList, List.mem_flatMap]
  rintro ⟨word, member, inside⟩
  have letters := fun c inside => (mem_splitChars (List.mem_filter.mp member).1 c inside).2
  cases word with
  | nil => cases inside
  | cons c rest =>
    rcases List.mem_cons.mp inside with capital | later
    · have letter := letters c List.mem_cons_self
      rw [upperAsciiChar] at capital
      split at capital
      · rename_i lower
        have small : c.toNat < 123 := by
          simp only [isAsciiLower, Bool.and_eq_true, decide_eq_true_eq] at lower
          exact Nat.lt_succ_of_le lower.2
        have apart : ∀ code < 123, 'Σ' ≠ Char.ofNat (code - 32) := by decide
        exact apart c.toNat small capital
      · rw [← capital] at letter
        cases letter
    · cases letters 'Σ' (List.mem_cons_of_mem _ later)

theorem classNameWith_eq_iff (toSingular : List Char → Option (List Char)) :
    classNameWith toSingular first = classNameWith toSingular second ↔
      pascal (inNumber toSingular first) = pascal (inNumber toSingular second) ∨
      pascal (inNumber toSingular first) = classNameWith toSingular second ∨
      pascal (inNumber toSingular second) = classNameWith toSingular first :=
  classNameOf_eq_iff (sigma_not_mem_pascal _) (sigma_not_mem_pascal _)

end TableModels.Naming
