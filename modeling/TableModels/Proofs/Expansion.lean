import Mathlib.Data.List.Count
import Mathlib.Data.List.TakeWhile
import TableModels.Settings.Variables

/-! References to variables, and the text in which they are replaced. Every text is made up of references and of
characters that begin none. The three kinds of reference are replaced one after the other, each in the text that the
one before leaves, so a value can bring in a reference, and a value can complete one with the text around it. As long
as neither happens, all references are replaced as if at once. -/

namespace TableModels.Settings.Variables

/-- The scopes in which a reference looks up its variable. -/
inductive Form where
  | any
  | environment
  | file
  deriving DecidableEq, Repr

namespace Form

def mark : Form → List Char
  | any => anyMark
  | environment => environmentMark
  | file => fileMark

def value (scope : Variables) : Form → String → String
  | any, name => (scope.get? name).getD ""
  | environment, name => (Keyed.get? scope.environment name).getD ""
  | file, name => (Keyed.get? scope.file name).getD ""

end Form

structure Name where
  chars : List Char
  filled : chars ≠ []
  word : ∀ c ∈ chars, Text.isWord c = true
  deriving DecidableEq

inductive Part where
  | char (c : Char)
  | reference (form : Form) (name : Name)
  deriving DecidableEq

def Part.spelled : Part → List Char
  | char c => [c]
  | reference form name => form.mark ++ name.chars ++ ['\x7d']

def spelled (parts : List Part) : List Char := parts.flatMap Part.spelled

/-- The text begins with a reference. -/
def Begins (form : Form) (chars : List Char) : Prop := ∃ name, (Part.reference form name).spelled <+: chars

/-- The text that parts spell has no reference of this form but theirs: none begins at one of their characters. -/
def Unmixed (form : Form) (parts : List Part) : Prop :=
  ∀ c rest, Part.char c :: rest <:+ parts → ¬ Begins form (c :: spelled rest)

/-- The references of a text and its other characters. -/
structure Cut (chars : List Char) (parts : List Part) : Prop where
  spells : spelled parts = chars
  unmixed : ∀ form, Unmixed form parts

@[simp] theorem spelled_nil : spelled [] = [] := rfl

@[simp] theorem spelled_cons (part : Part) (rest : List Part) :
    spelled (part :: rest) = part.spelled ++ spelled rest := List.flatMap_cons

@[simp] theorem spelled_append (first second : List Part) :
    spelled (first ++ second) = spelled first ++ spelled second := List.flatMap_append

private theorem spelled_chars (chars : List Char) : spelled (chars.map Part.char) = chars := by
  induction chars with
  | nil => rfl
  | cons c rest ih => simp [Part.spelled, ih]

private theorem isWord_dollar : Text.isWord '$' = false := by decide

private theorem isWord_brace : Text.isWord '\x7d' = false := by decide

private theorem exists_body (form : Form) (name : Name) :
    ∃ body, (Part.reference form name).spelled = '$' :: body ∧ '$' ∉ body := by
  have apart : '$' ∉ name.chars := fun member => by simpa [isWord_dollar] using name.word _ member
  cases form with
  | any => exact ⟨'\x7b' :: (name.chars ++ ['\x7d']), rfl, by simp [apart]⟩
  | environment => exact ⟨'e' :: 'n' :: 'v' :: '\x7b' :: (name.chars ++ ['\x7d']), rfl, by simp [apart]⟩
  | file => exact ⟨'d' :: 'o' :: 't' :: 'e' :: 'n' :: 'v' :: '\x7b' :: (name.chars ++ ['\x7d']), rfl, by simp [apart]⟩

private theorem spelled_ne_nil (part : Part) (rest : List Part) : spelled (part :: rest) ≠ [] := by
  cases part with
  | char c => exact List.cons_ne_nil _ _
  | reference form name =>
    obtain ⟨body, whole, _⟩ := exists_body form name
    rw [spelled_cons, whole]
    exact List.cons_ne_nil _ _

private theorem not_begins_of_ne {form : Form} {c : Char} {rest : List Char} (apart : c ≠ '$') :
    ¬ Begins form (c :: rest) := by
  intro ⟨name, begins⟩
  obtain ⟨body, same, _⟩ := exists_body form name
  rw [same, List.cons_prefix_cons] at begins
  exact apart begins.1.symm

private theorem takeWhile_name (name : Name) (rest : List Char) :
    (name.chars ++ '\x7d' :: rest).takeWhile Text.isWord = name.chars := by
  rw [List.takeWhile_append_of_pos name.word, List.takeWhile_cons_of_neg (by simp [isWord_brace]), List.append_nil]

private theorem reference_inj {form other : Form} {name another : Name} {rest after : List Char}
    (same : (Part.reference form name).spelled ++ rest = (Part.reference other another).spelled ++ after) :
    form = other ∧ name = another ∧ rest = after := by
  have forms : form = other := by
    cases form <;> cases other <;>
      simp [Part.spelled, Form.mark, anyMark, environmentMark, fileMark] at same ⊢
  subst forms
  have inside : name.chars ++ '\x7d' :: rest = another.chars ++ '\x7d' :: after := by
    simpa [Part.spelled] using same
  have both : name.chars = another.chars := by rw [← takeWhile_name name rest, inside, takeWhile_name]
  rw [both] at inside
  refine ⟨rfl, ?_, by simpa using inside⟩
  cases name
  cases another
  simpa using both

private theorem reference?_spelled (form : Form) (name : Name) (rest : List Char) :
    reference? form.mark ((Part.reference form name).spelled ++ rest) =
      some (name.chars, (Part.reference form name).spelled.length) := by
  have start : form.mark.isPrefixOf? ((Part.reference form name).spelled ++ rest) =
      some (name.chars ++ '\x7d' :: rest) :=
    List.isPrefixOf?_eq_some_iff_append_eq.mpr (by simp [Part.spelled])
  have filled : name.chars.isEmpty = false := by simpa using name.filled
  simp only [reference?, start, bind, Option.bind, takeWhile_name, filled, List.drop_left]
  simp [Part.spelled, Nat.add_assoc]

private theorem begins_of_reference? {form : Form} {chars : List Char} {found : List Char × Nat}
    (some : reference? form.mark chars = some found) : Begins form chars := by
  simp only [reference?, bind, Option.bind_eq_some_iff] at some
  obtain ⟨rest, start, some⟩ := some
  obtain rfl := List.isPrefixOf?_eq_some_iff_append_eq.mp start
  split at some
  · contradiction
  · rename_i filled
    split at some
    · rename_i after closes
      have whole : rest = rest.takeWhile Text.isWord ++ '\x7d' :: after := by
        rw [← closes]
        exact (List.prefix_iff_eq_append.mp (List.takeWhile_prefix _)).symm
      refine ⟨⟨rest.takeWhile Text.isWord, by simpa using filled, fun c member => List.mem_takeWhile_imp member⟩,
        after, ?_⟩
      simp only [Part.spelled, List.append_assoc, List.cons_append, List.nil_append]
      rw [← whole]
    · contradiction

variable {form : Form} {value : String → String} {parts : List Part}

private theorem replaceFrom_eq (mark : List Char) (value : String → String) (count : Nat) (chars : List Char) :
    replaceFrom mark value count chars = replace mark value (chars.drop count) := by
  induction count generalizing chars with
  | zero => rfl
  | succ count ih =>
    cases chars with
    | nil => rfl
    | cons c rest => exact ih rest

private theorem replace_reference (form : Form) (value : String → String) (name : Name) (rest : List Char) :
    replace form.mark value ((Part.reference form name).spelled ++ rest) =
      (value (String.ofList name.chars)).toList ++ replace form.mark value rest := by
  obtain ⟨body, whole, _⟩ := exists_body form name
  have found := reference?_spelled form name rest
  rw [whole, List.cons_append] at found ⊢
  simp only [replace, replaceFrom, found]
  rw [replaceFrom_eq, List.length_cons, Nat.add_sub_cancel, List.drop_left]
  rfl

private theorem replace_plain {c : Char} {rest : List Char} (apart : ¬ Begins form (c :: rest)) :
    replace form.mark value (c :: rest) = c :: replace form.mark value rest := by
  have none : reference? form.mark (c :: rest) = none := by
    cases found : reference? form.mark (c :: rest) with
    | none => rfl
    | some found' => exact absurd (begins_of_reference? found) apart
  simp only [replace, replaceFrom, none]

private theorem replace_body {body : List Char} (clear : '$' ∉ body) (rest : List Char) :
    replace form.mark value (body ++ rest) = body ++ replace form.mark value rest := by
  induction body with
  | nil => rfl
  | cons c body ih =>
    rw [List.mem_cons, not_or] at clear
    rw [List.cons_append, replace_plain (not_begins_of_ne (Ne.symm clear.1)), ih clear.2, List.cons_append]

private theorem replace_other {other : Form} (differs : other ≠ form) (name : Name) (rest : List Char) :
    replace form.mark value ((Part.reference other name).spelled ++ rest) =
      (Part.reference other name).spelled ++ replace form.mark value rest := by
  have apart : ¬ Begins form ((Part.reference other name).spelled ++ rest) := by
    intro ⟨another, after, same⟩
    exact differs (reference_inj same).1.symm
  obtain ⟨body, whole, clear⟩ := exists_body other name
  rw [whole, List.cons_append] at apart ⊢
  rw [replace_plain apart, replace_body clear, List.cons_append]

/-- Values in the place of the references of one form. -/
def put (form : Form) (value : String → String) (parts : List Part) : List Part := parts.flatMap fun
  | .char c => [.char c]
  | .reference other name =>
    if other = form then (value (String.ofList name.chars)).toList.map Part.char else [.reference other name]

@[simp] theorem put_nil : put form value [] = [] := rfl

@[simp] theorem put_char (c : Char) (rest : List Part) :
    put form value (.char c :: rest) = .char c :: put form value rest := rfl

@[simp] theorem put_reference (other : Form) (name : Name) (rest : List Part) :
    put form value (.reference other name :: rest) =
      (if other = form then (value (String.ofList name.chars)).toList.map Part.char else [.reference other name]) ++
        put form value rest := rfl

@[simp] theorem put_append (first second : List Part) :
    put form value (first ++ second) = put form value first ++ put form value second :=
  List.flatMap_append

@[simp] theorem put_chars (chars : List Char) : put form value (chars.map Part.char) = chars.map Part.char := by
  induction chars with
  | nil => rfl
  | cons c rest ih => rw [List.map_cons, put_char, ih]

private theorem put_of_absent (absent : ∀ name, .reference form name ∉ parts) : put form value parts = parts := by
  induction parts with
  | nil => rfl
  | cons part rest ih =>
    have later := ih fun name member => absent name (List.mem_cons_of_mem _ member)
    cases part with
    | char c => rw [put_char, later]
    | reference other name =>
      have apart : other ≠ form := by
        intro same
        exact absent name (same ▸ List.mem_cons_self)
      rw [put_reference, if_neg apart, later, List.singleton_append]

theorem Unmixed.tail {part : Part} (unmixed : Unmixed form (part :: parts)) : Unmixed form parts := by
  intro c rest inside
  exact unmixed c rest (inside.trans (List.suffix_cons part parts))

theorem Unmixed.head {c : Char} (unmixed : Unmixed form (.char c :: parts)) : ¬ Begins form (c :: spelled parts) :=
  unmixed c parts (List.suffix_refl _)

theorem Unmixed.reference (other : Form) (name : Name) (unmixed : Unmixed form parts) :
    Unmixed form (.reference other name :: parts) := by
  intro c rest inside
  rcases List.suffix_cons_iff.mp inside with same | later
  · cases same
  · exact unmixed c rest later

theorem Unmixed.char {c : Char} (apart : ¬ Begins form (c :: spelled parts)) (unmixed : Unmixed form parts) :
    Unmixed form (.char c :: parts) := by
  intro other rest inside
  rcases List.suffix_cons_iff.mp inside with same | later
  · cases same
    exact apart
  · exact unmixed other rest later

private theorem replace_unmixed (unmixed : Unmixed form parts) :
    replace form.mark value (spelled parts) = spelled (put form value parts) := by
  induction parts with
  | nil => rfl
  | cons part rest ih =>
    have later := ih unmixed.tail
    cases part with
    | char c =>
      exact (replace_plain unmixed.head).trans (congrArg (List.cons c) later)
    | reference other name =>
      by_cases same : other = form
      · subst same
        rw [spelled_cons, replace_reference, later, put_reference, if_pos rfl, spelled_append, spelled_chars]
      · rw [spelled_cons, replace_other same, later, put_reference, if_neg same, List.singleton_append, spelled_cons]

theorem Cut.nil : Cut [] [] where
  spells := rfl
  unmixed := fun _ _ _ inside => by simp at inside

theorem Cut.reference {chars : List Char} (form : Form) (name : Name) (cut : Cut chars parts) :
    Cut ((Part.reference form name).spelled ++ chars) (.reference form name :: parts) where
  spells := by rw [spelled_cons, cut.spells]
  unmixed := fun other => (cut.unmixed other).reference form name

theorem Cut.char {c : Char} {chars : List Char} (apart : ∀ form, ¬ Begins form (c :: chars)) (cut : Cut chars parts) :
    Cut (c :: chars) (.char c :: parts) where
  spells := by
    rw [spelled_cons, cut.spells]
    rfl
  unmixed := fun form => .char (cut.spells.symm ▸ apart form) (cut.unmixed form)

private theorem exists_cut (chars : List Char) : ∃ parts, Cut chars parts := by
  match chars with
  | [] => exact ⟨[], .nil⟩
  | c :: rest =>
    by_cases begins : ∃ form, Begins form (c :: rest)
    · obtain ⟨form, name, after, same⟩ := begins
      obtain ⟨parts, cut⟩ := exists_cut after
      exact ⟨.reference form name :: parts, same ▸ cut.reference form name⟩
    · obtain ⟨parts, cut⟩ := exists_cut rest
      exact ⟨.char c :: parts, cut.char fun form starts => begins ⟨form, starts⟩⟩
termination_by chars.length
decreasing_by
  · obtain ⟨body, whole, _⟩ := exists_body form name
    have length := congrArg List.length same
    rw [whole, List.length_append, List.length_cons, List.length_cons] at length
    rw [List.length_cons]
    omega
  · exact Nat.lt_succ_self _

/-- A text has its references in one way only. -/
theorem Cut.unique {chars : List Char} {first second : List Part} (cut : Cut chars first) (other : Cut chars second) :
    first = second := by
  induction first generalizing chars second with
  | nil =>
    cases second with
    | nil => rfl
    | cons part rest => exact absurd (other.spells.trans cut.spells.symm) (spelled_ne_nil part rest)
  | cons part rest ih =>
    have same := cut.spells.trans other.spells.symm
    have tails : ∀ later, spelled rest = spelled later → (∀ form, Unmixed form later) → rest = later := by
      intro later alike unmixed
      exact ih ⟨rfl, fun form => (cut.unmixed form).tail⟩ ⟨alike.symm, unmixed⟩
    cases second with
    | nil => exact absurd same (spelled_ne_nil part rest)
    | cons another later =>
      have unmixed : ∀ form, Unmixed form later := fun form => (other.unmixed form).tail
      rw [spelled_cons, spelled_cons] at same
      cases part with
      | char c =>
        cases another with
        | char d =>
          obtain ⟨rfl, alike⟩ := List.cons.inj same
          rw [tails later alike unmixed]
        | reference form name => exact absurd ⟨name, _, same.symm⟩ (cut.unmixed form).head
      | reference form name =>
        cases another with
        | char d => exact absurd ⟨name, _, same⟩ (other.unmixed form).head
        | reference form' name' =>
          obtain ⟨rfl, rfl, alike⟩ := reference_inj same
          rw [tails later alike unmixed]

variable {scope : Variables}

def Part.expanded (scope : Variables) : Part → List Char
  | char c => [c]
  | reference form name => (form.value scope (String.ofList name.chars)).toList

/-- The values of all references, and everything else as it is. -/
def expandedAtOnce (scope : Variables) (parts : List Part) : List Char := parts.flatMap (Part.expanded scope)

/-- No pass meets a reference that is not one of the parts. -/
structure Settled (scope : Variables) (parts : List Part) : Prop where
  environment : Unmixed .environment (put .any (Form.any.value scope) parts)
  file : Unmixed .file (put .environment (Form.environment.value scope) (put .any (Form.any.value scope) parts))

private theorem expandChars_eq (scope : Variables) (chars : List Char) :
    scope.expandChars chars = replace (Form.mark .file) (Form.file.value scope)
      (replace (Form.mark .environment) (Form.environment.value scope)
        (replace (Form.mark .any) (Form.any.value scope) chars)) := rfl

private theorem spelled_put_all (scope : Variables) (parts : List Part) :
    spelled (put .file (Form.file.value scope) (put .environment (Form.environment.value scope)
      (put .any (Form.any.value scope) parts))) = expandedAtOnce scope parts := by
  induction parts with
  | nil => rfl
  | cons part rest ih =>
    have whole : expandedAtOnce scope (part :: rest) = part.expanded scope ++ expandedAtOnce scope rest :=
      List.flatMap_cons
    rw [whole, ← ih]
    cases part with
    | char c => simp [Part.spelled, Part.expanded]
    | reference form name => cases form <;> simp [Part.expanded, spelled_chars]

private theorem expandChars_settled {chars : List Char} (cut : Cut chars parts) (settled : Settled scope parts) :
    scope.expandChars chars = expandedAtOnce scope parts := by
  rw [expandChars_eq, ← cut.spells, replace_unmixed (cut.unmixed .any), replace_unmixed settled.environment,
    replace_unmixed settled.file, spelled_put_all]

private theorem unmixed_of_clear {form : Form} (clear : ∀ c, .char c ∈ parts → c ≠ '$') : Unmixed form parts := by
  intro c rest inside
  exact not_begins_of_ne (clear c (inside.subset List.mem_cons_self))

private theorem put_clear {form : Form} {value : String → String} (clear : ∀ c, .char c ∈ parts → c ≠ '$')
    (values : ∀ name, .reference form name ∈ parts → '$' ∉ (value (String.ofList name.chars)).toList) :
    ∀ c, .char c ∈ put form value parts → c ≠ '$' := by
  intro c member
  obtain ⟨part, listed, inside⟩ := List.mem_flatMap.mp member
  cases part with
  | char d =>
    obtain rfl : c = d := by simpa using inside
    exact clear c listed
  | reference other name =>
    by_cases same : other = form
    · subst same
      have own : c ∈ (value (String.ofList name.chars)).toList := by simpa using inside
      rintro rfl
      exact values name listed own
    · simp [same] at inside

/-- Where only references have a dollar sign, and no value brings one in, every pass meets the references of the text
alone. -/
private theorem settled_of_clear (clear : ∀ c, .char c ∈ parts → c ≠ '$')
    (values : ∀ form name, .reference form name ∈ parts → '$' ∉ (form.value scope (String.ofList name.chars)).toList) :
    Settled scope parts := by
  have first := put_clear clear (values .any)
  have kept : ∀ name, .reference .environment name ∈ put .any (Form.any.value scope) parts →
      .reference .environment name ∈ parts := by
    intro name member
    obtain ⟨part, listed, inside⟩ := List.mem_flatMap.mp member
    cases part with
    | char d => simp at inside
    | reference other another =>
      by_cases same : other = .any
      · simp [same] at inside
      · obtain ⟨rfl, rfl⟩ : other = .environment ∧ another = name := by simpa [same, eq_comm] using inside
        exact listed
  exact ⟨unmixed_of_clear first, unmixed_of_clear (put_clear first fun name member => values _ name (kept name member))⟩

def Part.literal : Part → List Char
  | char c => [c]
  | reference _ _ => []

/-- How many dollar signs of a text begin none of its references. -/
def dollars (parts : List Part) : Nat := (parts.flatMap Part.literal).count '$'

@[simp] theorem dollars_nil : dollars [] = 0 := rfl

@[simp] theorem dollars_char (c : Char) (rest : List Part) :
    dollars (.char c :: rest) = (if c = '$' then 1 else 0) + dollars rest := by
  simp [dollars, Part.literal, List.count_cons, Nat.add_comm]

@[simp] theorem dollars_reference (form : Form) (name : Name) (rest : List Part) :
    dollars (.reference form name :: rest) = dollars rest := rfl

@[simp] theorem dollars_append (first second : List Part) :
    dollars (first ++ second) = dollars first + dollars second := by
  simp [dollars]

private theorem dollars_chars {chars : List Char} (clear : '$' ∉ chars) (rest : List Part) :
    dollars (chars.map Part.char ++ rest) = dollars rest := by
  induction chars with
  | nil => rfl
  | cons c chars ih =>
    rw [List.mem_cons, not_or] at clear
    rw [List.map_cons, List.cons_append, dollars_char, if_neg (Ne.symm clear.1), ih clear.2, Nat.zero_add]

private theorem exists_rest_of_clear {body after : List Char} (clear : '$' ∉ body)
    (same : spelled parts = body ++ after) :
    ∃ later, parts = body.map Part.char ++ later ∧ spelled later = after := by
  induction body generalizing parts with
  | nil => exact ⟨parts, rfl, same⟩
  | cons c body ih =>
    rw [List.mem_cons, not_or] at clear
    cases parts with
    | nil => cases same
    | cons part rest =>
      cases part with
      | char d =>
        obtain ⟨rfl, inside⟩ := List.cons.inj same
        obtain ⟨later, rfl, ends⟩ := ih clear.2 inside
        exact ⟨later, rfl, ends⟩
      | reference form name =>
        obtain ⟨own, whole, _⟩ := exists_body form name
        rw [spelled_cons, whole] at same
        exact absurd (List.cons.inj same).1 clear.1

/-- What a pass leaves of parts, when the values are made up of references: no more dollar signs of the text itself,
and no references but those that were there and those of the values. -/
structure Leaves (form : Form) (value : String → String) (within : Name → List Part) (parts left : List Part) :
    Prop where
  spells : spelled left = replace form.mark value (spelled parts)
  fewer : dollars left ≤ dollars parts
  known : ∀ other name, .reference other name ∈ left → other ≠ form ∧ .reference other name ∈ parts ∨ ∃ own,
    .reference other name ∈ within own

namespace Leaves

variable {form : Form} {value : String → String} {within : Name → List Part} {rest left : List Part}

theorem nil : Leaves form value within [] [] := ⟨rfl, Nat.le_refl _, nofun⟩

theorem reference (spells : ∀ name, spelled (within name) = (value (String.ofList name.chars)).toList)
    (clear : ∀ name, dollars (within name) = 0)
    (name : Name) (later : Leaves form value within rest left) :
    Leaves form value within (.reference form name :: rest) (within name ++ left) := by
  refine ⟨?_, ?_, fun other another member => ?_⟩
  · rw [spelled_append, spells, later.spells, spelled_cons, replace_reference]
  · rw [dollars_append, clear, Nat.zero_add]
    exact later.fewer
  · rcases List.mem_append.mp member with own | behind
    · exact .inr ⟨name, own⟩
    · exact (later.known other another behind).imp_left fun kept => ⟨kept.1, List.mem_cons_of_mem _ kept.2⟩

theorem other {other : Form} (differs : other ≠ form) (name : Name) (later : Leaves form value within rest left) :
    Leaves form value within (.reference other name :: rest) (.reference other name :: left) := by
  refine ⟨?_, later.fewer, fun third another member => ?_⟩
  · rw [spelled_cons, later.spells, spelled_cons, replace_other differs]
  · rcases List.mem_cons.mp member with here | behind
    · cases here
      exact .inl ⟨differs, List.mem_cons_self⟩
    · exact (later.known third another behind).imp_left fun kept => ⟨kept.1, List.mem_cons_of_mem _ kept.2⟩

/-- A dollar sign and the characters after it may come to a reference. They are parts of their own, and none of the
references. -/
theorem formed (spells : ∀ name, spelled (within name) = (value (String.ofList name.chars)).toList)
    (clear : ∀ name, dollars (within name) = 0)
    {name : Name} {body : List Char} (whole : (Part.reference form name).spelled = '$' :: body) (free : '$' ∉ body)
    (later : Leaves form value within rest left) :
    Leaves form value within (.char '$' :: (body.map Part.char ++ rest)) (within name ++ left) := by
  have same : spelled (.char '$' :: (body.map Part.char ++ rest)) = (Part.reference form name).spelled ++
      spelled rest := by
    rw [spelled_cons, spelled_append, spelled_chars, whole]
    rfl
  refine ⟨?_, ?_, fun other another member => ?_⟩
  · rw [spelled_append, spells, later.spells, same, replace_reference]
  · rw [dollars_append, clear, dollars_char, dollars_chars free]
    have := later.fewer
    omega
  · rcases List.mem_append.mp member with own | behind
    · exact .inr ⟨name, own⟩
    · exact (later.known other another behind).imp_left
        fun kept => ⟨kept.1, List.mem_cons_of_mem _ (List.mem_append_right _ kept.2)⟩

theorem char {c : Char} (plain : ¬ Begins form (c :: spelled rest)) (later : Leaves form value within rest left) :
    Leaves form value within (.char c :: rest) (.char c :: left) := by
  refine ⟨?_, ?_, fun other another member => ?_⟩
  · rw [spelled_cons, later.spells, spelled_cons]
    exact (replace_plain plain).symm
  · rw [dollars_char, dollars_char]
    have := later.fewer
    omega
  · have behind : .reference other another ∈ left := by simpa using member
    exact (later.known other another behind).imp_left fun kept => ⟨kept.1, List.mem_cons_of_mem _ kept.2⟩

end Leaves

private theorem exists_leaves (form : Form) (value : String → String) (within : Name → List Part)
    (spells : ∀ name, spelled (within name) = (value (String.ofList name.chars)).toList)
    (clear : ∀ name, dollars (within name) = 0)
    (parts : List Part) : ∃ left, Leaves form value within parts left := by
  match parts with
  | [] => exact ⟨[], .nil⟩
  | .reference other name :: rest =>
    obtain ⟨left, later⟩ := exists_leaves form value within spells clear rest
    by_cases same : other = form
    · subst same
      exact ⟨_, later.reference spells clear name⟩
    · exact ⟨_, later.other same name⟩
  | .char c :: rest =>
    by_cases begins : Begins form (c :: spelled rest)
    · obtain ⟨name, after, same⟩ := begins
      obtain ⟨body, whole, free⟩ := exists_body form name
      have opened := same
      rw [whole] at opened
      obtain ⟨rfl, inside⟩ := List.cons.inj opened
      obtain ⟨behind, parted, _⟩ := exists_rest_of_clear free inside.symm
      have shorter : behind.length ≤ rest.length := by simp [parted]
      obtain ⟨left, later⟩ := exists_leaves form value within spells clear behind
      exact ⟨_, parted ▸ later.formed spells clear whole free⟩
    · obtain ⟨left, later⟩ := exists_leaves form value within spells clear rest
      exact ⟨_, later.char begins⟩
termination_by parts.length
decreasing_by
  · exact Nat.lt_succ_self _
  · exact Nat.lt_succ_of_le shorter
  · exact Nat.lt_succ_self _

private theorem dollars_le (scope : Variables) (parts : List Part) :
    dollars parts ≤ (expandedAtOnce scope parts).count '$' := by
  induction parts with
  | nil => exact Nat.le_refl _
  | cons part rest ih =>
    have whole : expandedAtOnce scope (part :: rest) = part.expanded scope ++ expandedAtOnce scope rest :=
      List.flatMap_cons
    rw [whole, List.count_append]
    cases part with
    | char c =>
      rw [dollars_char, Part.expanded, List.count_singleton]
      simp only [beq_iff_eq]
      omega
    | reference form name =>
      rw [dollars_reference]
      omega

private theorem dollars_lt {form : Form} {name : Name} (member : .reference form name ∈ parts)
    (brought : '$' ∈ (form.value scope (String.ofList name.chars)).toList) :
    dollars parts < (expandedAtOnce scope parts).count '$' := by
  obtain ⟨before, after, rfl⟩ := List.append_of_mem member
  have whole : expandedAtOnce scope (before ++ .reference form name :: after) = expandedAtOnce scope before ++
      ((form.value scope (String.ofList name.chars)).toList ++ expandedAtOnce scope after) := by
    rw [expandedAtOnce, List.flatMap_append, List.flatMap_cons]
    rfl
  have first := dollars_le scope before
  have last := dollars_le scope after
  have own := List.count_pos_iff.mpr brought
  rw [whole, List.count_append, List.count_append, dollars_append, dollars_reference]
  omega

/-- The environment in which a variable refers to a variable of the file, which is not set. -/
def forwarding (name : Name) : Variables where
  environment := [(String.ofList name.chars, String.ofList (Part.reference .file name).spelled)]

/-- The references in the value that a variable has there. -/
def forwarded (name other : Name) : List Part := if other.chars = name.chars then [.reference .file name] else []

private theorem spelled_forwarded (name other : Name) : spelled (forwarded name other) =
    ((Keyed.get? (forwarding name).environment (String.ofList other.chars)).getD "").toList := by
  by_cases same : other.chars = name.chars
  · simp [forwarded, same, forwarding, Keyed.get?]
  · have apart : (String.ofList other.chars == String.ofList name.chars) = false :=
      beq_eq_false_iff_ne.mpr fun equal => same (String.ofList_injective equal)
    simp [forwarded, same, forwarding, Keyed.get?, List.lookup_cons, apart]

private theorem dollars_forwarded (name other : Name) : dollars (forwarded name other) = 0 := by
  by_cases same : other.chars = name.chars <;> simp [forwarded, same]

private theorem file_of_mem_forwarded {name other another : Name} {form : Form}
    (member : .reference form another ∈ forwarded name other) :
    form = .file := by
  rw [forwarded] at member
  split at member
  · cases List.mem_singleton.mp member
    rfl
  · cases member

private theorem count_spelled (parts : List Part) (free : ∀ form name, .reference form name ∉ parts) :
    (spelled parts).count '$' = dollars parts := by
  induction parts with
  | nil => rfl
  | cons part rest ih =>
    have later := ih fun form name member => free form name (List.mem_cons_of_mem _ member)
    cases part with
    | char c =>
      rw [spelled_cons, List.count_append, later, dollars_char, Part.spelled, List.count_singleton]
      simp
    | reference form name => exact absurd List.mem_cons_self (free form name)

private theorem dollars_expandChars {chars : List Char} (cut : Cut chars parts) (name : Name) :
    ((forwarding name).expandChars chars).count '$' ≤ dollars parts := by
  obtain ⟨first, spelled₁, fewer₁, known₁⟩ := exists_leaves .any (Form.any.value (forwarding name))
    (forwarded name) (spelled_forwarded name) (dollars_forwarded name) parts
  obtain ⟨second, spelled₂, fewer₂, known₂⟩ := exists_leaves .environment (Form.environment.value (forwarding name))
    (forwarded name) (spelled_forwarded name) (dollars_forwarded name) first
  obtain ⟨third, spelled₃, fewer₃, known₃⟩ := exists_leaves .file (Form.file.value (forwarding name))
    (fun _ => []) (fun _ => rfl) (fun _ => rfl) second
  have files : ∀ form another, .reference form another ∈ second → form = .file := by
    intro form another member
    rcases known₂ form another member with ⟨differs, kept⟩ | ⟨own, brought⟩
    · rcases known₁ form another kept with ⟨apart, _⟩ | ⟨own, brought⟩
      · cases form with
        | any => exact absurd rfl apart
        | environment => exact absurd rfl differs
        | file => rfl
      · exact file_of_mem_forwarded brought
    · exact file_of_mem_forwarded brought
  have free : ∀ form another, .reference form another ∉ third := by
    intro form another member
    rcases known₃ form another member with ⟨differs, kept⟩ | ⟨own, brought⟩
    · exact differs (files form another kept)
    · cases brought
  rw [expandChars_eq, ← cut.spells, ← spelled₁, ← spelled₂, ← spelled₃, count_spelled third free]
  omega

def filled? (chars : List Char) : Option String := if chars.isEmpty then none else some (String.ofList chars)

private theorem filled?_inj {first second : List Char} (same : filled? first = filled? second) : first = second := by
  cases first with
  | nil =>
    cases second with
    | nil => rfl
    | cons d rest => cases same
  | cons c start =>
    cases second with
    | nil => cases same
    | cons d rest => exact String.ofList_injective (Option.some.inj same)

private theorem expand?_eq (scope : Variables) (text : String) :
    scope.expand? text = filled? (scope.expandChars text.toList) := rfl

/-- The passes give what replacing all references at once does, if none of them meets a reference that is not the
text's own. They do so whatever the variables are exactly if the text refers to variables of the file only. -/
theorem expand?_at_once (text : String) : ∃ parts, Cut text.toList parts ∧
    ((∀ scope, scope.expand? text = filled? (expandedAtOnce scope parts)) ↔
      ∀ form name, .reference form name ∈ parts → form = .file) ∧
    ∀ scope, Settled scope parts → scope.expand? text = filled? (expandedAtOnce scope parts) := by
  obtain ⟨parts, cut⟩ := exists_cut text.toList
  have settles : ∀ scope, Settled scope parts → scope.expand? text = filled? (expandedAtOnce scope parts) := by
    intro scope settled
    rw [expand?_eq, expandChars_settled cut settled]
  refine ⟨parts, cut, ⟨?_, ?_⟩, settles⟩
  · intro always form name member
    by_contra looked
    have same := filled?_inj ((expand?_eq _ text).symm.trans (always (forwarding name)))
    have brought : '$' ∈ (form.value (forwarding name) (String.ofList name.chars)).toList := by
      obtain ⟨body, whole, _⟩ := exists_body .file name
      cases form with
      | any => simp [Form.value, Variables.get?, forwarding, Keyed.get?, whole]
      | environment => simp [Form.value, forwarding, Keyed.get?, whole]
      | file => exact absurd rfl looked
    have more := dollars_lt member brought
    have less := dollars_expandChars cut name
    rw [same] at less
    omega
  · intro files scope
    have kept : ∀ form, form ≠ .file → put form (form.value scope) parts = parts :=
      fun form looked => put_of_absent fun name member => looked (files form name member)
    apply settles scope
    constructor
    · rw [kept .any nofun]
      exact cut.unmixed .environment
    · rw [kept .any nofun, kept .environment nofun]
      exact cut.unmixed .file

/-- A variable that has one value in the environment and another one in the file. -/
def hosts : Variables where
  environment := [("H", "b")]
  file := [("H", "a")]

def host : Name := ⟨['H'], List.cons_ne_nil _ _, List.forall_mem_singleton.mpr rfl⟩

/-- A reference of every form to that variable. -/
def hostParts : List Part := [.reference .any host, .reference .environment host, .reference .file host]

theorem host_at_once : Settled hosts hostParts ∧
    hosts.expand? "$\x7bH\x7d$env\x7bH\x7d$dotenv\x7bH\x7d" = filled? (expandedAtOnce hosts hostParts) ∧
    filled? (expandedAtOnce hosts hostParts) = some "aba" := by
  obtain ⟨parts, cut, _, settles⟩ := expand?_at_once "$\x7bH\x7d$env\x7bH\x7d$dotenv\x7bH\x7d"
  obtain rfl : parts = hostParts :=
    cut.unique (((Cut.nil.reference .file host).reference .environment host).reference .any host)
  have settled : Settled hosts hostParts := by
    apply settled_of_clear
    · intro c member
      simp [hostParts] at member
    · intro form name member
      obtain rfl : name = host := by
        simp only [hostParts, List.mem_cons, Part.reference.injEq, List.not_mem_nil, or_false] at member
        rcases member with ⟨_, same⟩ | ⟨_, same⟩ | ⟨_, same⟩ <;> exact same
      cases form <;> decide
  exact ⟨settled, settles hosts settled, by decide⟩

/-- A variable of the environment leads to one of the file. -/
example : ({ environment := [("A", "$dotenv\x7bB\x7d")], file := [("B", "x")] } : Variables).expand? "$env\x7bA\x7d" =
    some "x" := rfl

end TableModels.Settings.Variables
