import TableModels.Proofs.FieldNames
import TableModels.Proofs.SharedNames

/-! Names that are free to use. Whatever a table or a column is called, the names made for it have the form of an
identifier, hide nothing that the package relies on, and a name that could stand as it is does stand as it is. Marking
a name must not make it a reserved one again, so the marked words are compared with the reserved ones. -/

namespace TableModels

namespace Naming

open Text

private theorem fieldName_eq_self_iff {name : String} : fieldName name = name ↔ Legal name := by
  constructor
  · intro same
    rw [← same]
    exact legal_fieldName name
  · exact Legal.fieldName_eq

/-- Whatever text a name is made of, for a field or for a module, it is a small letter with small letters, digits and
underscores after it, it is not reserved, and to make a name of it once more changes nothing. -/
theorem fieldName_settled (name : String) : IsPlainName (fieldName name) ∧ fieldName name ∉ reservedFieldNames ∧
    fieldName (fieldName name) = fieldName name ∧ moduleName name = fieldName name ∧
      (fieldName name = name ↔ Legal name) := by
  have legal := legal_fieldName name
  exact ⟨legal.plain, legal.free, legal.fieldName_eq, rfl, fieldName_eq_self_iff⟩

private theorem upperAsciiChar_letter {c : Char} (letter : isAsciiAlphanumeric c = true) :
    isAsciiAlphanumeric (upperAsciiChar c) = true ∧ isAsciiLower (upperAsciiChar c) = false := by
  rw [upperAsciiChar]
  cases lower : isAsciiLower c with
  | true =>
    have capital : ∀ code < 123, 97 ≤ code →
        isAsciiAlphanumeric (Char.ofNat (code - 32)) = true ∧ isAsciiLower (Char.ofNat (code - 32)) = false := by decide
    simp only [isAsciiLower, Bool.and_eq_true, decide_eq_true_eq] at lower
    exact capital c.toNat (Nat.lt_succ_of_le lower.2) lower.1
  | false => exact ⟨letter, lower⟩

private theorem letters_of_words {name : String} {word : List Char} (member : word ∈ words name) :
    word ≠ [] ∧ ∀ c ∈ word, isAsciiAlphanumeric c = true := by
  obtain ⟨part, filled⟩ := List.mem_filter.mp member
  refine ⟨by simpa using filled, ?_⟩
  intro c inside
  simpa using (mem_splitChars part c inside).2

private theorem capitaliseWord_letters {word : List Char} (letters : ∀ c ∈ word, isAsciiAlphanumeric c = true) :
    ∀ c ∈ capitaliseWord word, isAsciiAlphanumeric c = true := by
  cases word with
  | nil => exact letters
  | cons first rest =>
    obtain ⟨own, others⟩ := List.forall_mem_cons.mp letters
    exact List.forall_mem_cons.mpr ⟨(upperAsciiChar_letter own).1, others⟩

private theorem pascal_letters (name : String) : (∀ c ∈ (pascal name).toList, isAsciiAlphanumeric c = true) ∧
    ∀ c, (pascal name).toList.head? = some c → isAsciiLower c = false := by
  rw [pascal, String.toList_ofList]
  constructor
  · intro c member
    obtain ⟨word, among, inside⟩ := List.mem_flatMap.mp member
    exact capitaliseWord_letters (letters_of_words among).2 c inside
  · intro c first
    have each := fun word => @letters_of_words name word
    cases all : words name with
    | nil => simp [all] at first
    | cons word others =>
      obtain ⟨filled, letters⟩ := each word (all ▸ List.mem_cons_self)
      cases word with
      | nil => exact absurd rfl filled
      | cons start rest =>
        obtain rfl : upperAsciiChar start = c := by simpa [all, capitaliseWord] using first
        exact (upperAsciiChar_letter (letters start List.mem_cons_self)).2

/-- A capital, and after it letters and digits. -/
def IsCapitalName (name : String) : Prop :=
  ∃ c rest, name.toList = c :: rest ∧ isAsciiUpper c ∧ ∀ d ∈ rest, isAsciiAlphanumeric d

theorem IsCapitalName.append {name ending : String} (capital : IsCapitalName name)
    (letters : ∀ c ∈ ending.toList, isAsciiAlphanumeric c = true) : IsCapitalName (name ++ ending) := by
  obtain ⟨c, rest, chars, upper, others⟩ := capital
  refine ⟨c, rest ++ ending.toList, by rw [String.toList_append, chars, List.cons_append], upper, ?_⟩
  intro d member
  rcases List.mem_append.mp member with inside | inside
  · exact others d inside
  · exact letters d inside

private theorem IsCapitalName.sigma_not_mem {name : String} (capital : IsCapitalName name) : 'Σ' ∉ name.toList := by
  obtain ⟨c, rest, chars, upper, others⟩ := capital
  rw [chars]
  intro member
  rcases List.mem_cons.mp member with rfl | inside
  · cases upper
  · cases others 'Σ' inside

/-- A name that a class may have. -/
structure LegalClass (name : String) : Prop where
  capital : IsCapitalName name
  free : lower name ∉ reservedClassNames

private theorem classNameOf_eq_self {name : String} (legal : LegalClass name) : classNameOf name = name := by
  obtain ⟨c, rest, chars, upper, _⟩ := legal.capital
  obtain ⟨_, digit⟩ := Bool.or_eq_false_iff.mp (not_small_of_isAsciiUpper upper)
  exact classNameOf_kept chars digit legal.free

private theorem classNameOf_cases {text : String} (letters : ∀ c ∈ text.toList, isAsciiAlphanumeric c = true)
    (first : ∀ c, text.toList.head? = some c → isAsciiLower c = false) : ∃ word, IsCapitalName word ∧
      classNameOf text = if reservedClassNames.contains (lower word) then word ++ "Model" else word := by
  have table : IsCapitalName "Table" := ⟨'T', "able".toList, rfl, rfl, List.all_eq_true.mp (by decide)⟩
  cases chars : text.toList with
  | nil =>
    obtain rfl : text = "" := String.toList_eq_nil_iff.mp chars
    exact ⟨"Table", table, rfl⟩
  | cons c rest =>
    have filled : (text == "") = false := by
      rw [beq_eq_false_iff_ne]
      rintro rfl
      cases chars
    cases digit : isAsciiDigit c with
    | true =>
      refine ⟨"Table" ++ text, table.append letters, ?_⟩
      simp only [classNameOf, filled, chars, digit, Bool.false_eq_true, if_true, if_false, List.head?_cons,
        Option.map_some, Option.getD_some]
    | false =>
      rw [chars] at letters first
      have letter := letters c List.mem_cons_self
      have upper : isAsciiUpper c = true := by
        simpa only [isAsciiAlphanumeric, digit, first c rfl, Bool.or_false] using letter
      refine ⟨text, ⟨c, rest, chars, upper, fun d member => letters d (List.mem_cons_of_mem _ member)⟩, ?_⟩
      simp only [classNameOf, filled, chars, digit, Bool.false_eq_true, if_false, List.head?_cons, Option.map_some,
        Option.getD_some]

private theorem legalClass_classNameOf {text : String} (letters : ∀ c ∈ text.toList, isAsciiAlphanumeric c = true)
    (first : ∀ c, text.toList.head? = some c → isAsciiLower c = false) : LegalClass (classNameOf text) := by
  obtain ⟨word, capital, same⟩ := classNameOf_cases letters first
  rw [same]
  split
  · rename_i reserved
    refine ⟨capital.append (List.all_eq_true.mp (by decide)), ?_⟩
    rw [lower_marked capital.sigma_not_mem]
    exact model_not_reserved (List.contains_iff_mem.mp reserved)
  · rename_i free
    exact ⟨capital, fun reserved => free (List.contains_iff_mem.mpr reserved)⟩

private theorem classNameOf_pascal_eq_iff {name : String} :
    classNameOf (pascal name) = pascal name ↔ LegalClass (pascal name) := by
  obtain ⟨letters, first⟩ := pascal_letters name
  constructor
  · intro same
    rw [← same]
    exact legalClass_classNameOf letters first
  · exact classNameOf_eq_self

/-- No singular is looked for, or else that of a text that is not empty. -/
theorem className_eq (singular : Bool) (table : String) : className singular table =
    if singular = true ∧ table = "" then .error .emptyName
    else .ok (classNameWith (if singular then Plural.singularOf? else fun _ => none) table) := by
  cases singular with
  | false => rfl
  | true =>
    by_cases empty : table = ""
    · subst empty
      rfl
    · have filled : (table == "") = false := beq_eq_false_iff_ne.mpr empty
      simp [className, pascalName, classNameWith, empty, filled, Except.map]

theorem legalClass_of_className {singular : Bool} {table name : String}
    (named : className singular table = .ok name) : LegalClass name := by
  rw [className_eq] at named
  split at named
  · cases named
  · obtain rfl := Except.ok.inj named
    obtain ⟨letters, first⟩ := pascal_letters (inNumber (if singular then Plural.singularOf? else fun _ => none) table)
    exact legalClass_classNameOf letters first

theorem IsCapitalName.letters {name : String} (capital : IsCapitalName name) :
    ∀ c ∈ name.toList, isAsciiAlphanumeric c = true := by
  obtain ⟨c, rest, chars, upper, others⟩ := capital
  rw [chars]
  exact List.forall_mem_cons.mpr ⟨by simp [isAsciiAlphanumeric, upper], others⟩

private theorem IsCapitalName.not_plain {name : String} (capital : IsCapitalName name) : ¬ IsPlainName name := by
  obtain ⟨c, rest, chars, upper, _⟩ := capital
  rintro ⟨d, others, same, lower, _⟩
  obtain ⟨rfl, _⟩ := List.cons.inj (chars.symm.trans same)
  simp only [isAsciiUpper, isAsciiLower, Bool.and_eq_true, decide_eq_true_eq] at upper lower
  exact absurd (Char.le_trans lower.1 upper.2) (by decide)

end Naming

namespace Model

open Schema Typing Code Naming

variable {style : Style} {enums : Enums} {known : List String} {table : Table}

private theorem annotated_of_imported {made : Module} (ends : module style enums known table = .ok made) {id : String}
    (provided : id ∈ made.imported) : id ∈ annotationNames := by
  have standard : ∀ source ∈ standardNames, ∀ id ∈ source.2, id ∈ annotationNames := by decide +kernel
  have base : ∀ id ∈ ["BaseModel", "ConfigDict"] ++ ["Field"], id ∈ annotationNames := by decide +kernel
  obtain ⟨scalars, relations, name, _, _, rfl⟩ := module_ok ends
  rcases (mem_imported rfl).mp provided with ⟨source, among, inside, _⟩ | always
  · exact standard source among id inside
  · apply base id
    rw [baseNames] at always
    split at always
    · exact always
    · exact List.mem_append_left _ (by simpa using always)

/-- Whatever text a table is called, and whatever its singular is taken to be, the name of its class is a capital with
letters and digits after it, and in lower case it is none of the reserved words. So no module imports that name or has
a field of it. The words of the text stand as they are if that is so of them. The only text without a class name is
the empty one, when its singular is asked for. -/
theorem className_legal (toSingular : List Char → Option (List Char)) (name : String) :
    LegalClass (classNameWith toSingular name) ∧
    (∀ word ∈ keywords ++ softKeywords ++ annotationNames, Text.lower (classNameWith toSingular name) ≠
      Text.lower word) ∧
    (∀ (style : Style) (enums : Enums) (known : List String) (table : Table) (made : Module),
      module style enums known table = .ok made →
      classNameWith toSingular name ∉ made.imported ∧ classNameWith toSingular name ∉ made.fields) ∧
    (classNameWith toSingular name = pascal (inNumber toSingular name) ↔
      LegalClass (pascal (inNumber toSingular name))) ∧
    ∀ singular, className singular name = if singular = true ∧ name = "" then .error .emptyName
      else .ok (classNameWith (if singular then Plural.singularOf? else fun _ => none) name) := by
  obtain ⟨letters, first⟩ := pascal_letters (inNumber toSingular name)
  have legal : LegalClass (classNameWith toSingular name) := legalClass_classNameOf letters first
  have apart : ∀ word ∈ keywords ++ softKeywords ++ annotationNames, Text.lower (classNameWith toSingular name) ≠
      Text.lower word := by
    intro word member same
    apply legal.free
    rw [same]
    exact lower_of_reserved word member
  refine ⟨legal, apart, ?_, classNameOf_pascal_eq_iff, fun singular => className_eq singular name⟩
  intro style enums known table made ends
  constructor
  · intro provided
    have annotated := annotated_of_imported ends provided
    exact apart _ (List.mem_append_right _ annotated) rfl
  · intro field
    exact legal.capital.not_plain (legal_of_fields ends _ field).plain

end Model

end TableModels
