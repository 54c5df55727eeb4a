import TableModels.Model.Default
import TableModels.Proofs.Trimming

/-! Texts as defaults. A database writes a text as a literal, in quotes and with each inner quote doubled, and may put
casts after it. Whatever the text holds, it is read back. But what is read need not be a literal: anything between two
quotes is taken for one, even if a quote inside it stands alone. -/

namespace TableModels

namespace Model

open Text Code

/-- A cast to a type: the first character of its name and all others, and whether an array mark follows. -/
structure Cast where
  first : Char
  rest : List Char
  isArray : Bool
  starts : (isAsciiUpper first || isAsciiLower first || first == '_') = true
  continues : ∀ c ∈ rest, (isWord c || c == ' ') = true

namespace Cast

def chars (cast : Cast) : List Char :=
  ':' :: ':' :: cast.first :: (cast.rest ++ if cast.isArray then ['[', ']'] else [])

def trimmed (cast : Cast) : Cast where
  first := cast.first
  rest := if cast.isArray then cast.rest else dropTrailing isBlank cast.rest
  isArray := cast.isArray
  starts := cast.starts
  continues := by
    split
    · exact cast.continues
    · exact fun c member => cast.continues c (mem_of_mem_dropTrailing member)

private theorem solid_first (cast : Cast) : isBlank cast.first = false := by
  have starts := cast.starts
  rw [← Bool.not_eq_true]
  intro blank
  simp only [isAsciiUpper, isAsciiLower, Bool.or_eq_true, Bool.and_eq_true, decide_eq_true_eq, beq_iff_eq, Char.le_def,
    UInt32.le_iff_toNat_le] at starts
  simp only [isBlank, Char.toNat, Bool.or_eq_true, Bool.and_eq_true, decide_eq_true_eq, beq_iff_eq] at blank
  have capital : 'A'.val.toNat = 65 ∧ 'Z'.val.toNat = 90 := by decide
  have small : 'a'.val.toNat = 97 ∧ 'z'.val.toNat = 122 := by decide
  rcases starts with (upper | lower) | same
  · omega
  · omega
  · have code : '_'.val.toNat = 95 := by decide
    rw [same] at blank
    omega

private theorem chars_trimmed (cast : Cast) (before : List Char) :
    dropTrailing isBlank (before ++ cast.chars) = before ++ cast.trimmed.chars := by
  cases array : cast.isArray with
  | true =>
    have shape : before ++ cast.chars = (before ++ (':' :: ':' :: cast.first :: (cast.rest ++ ['[']))) ++ [']'] := by
      simp [chars, array]
    rw [shape, dropTrailing_append_singleton (by decide), ← shape]
    simp [chars, trimmed, array]
  | false =>
    have shape : before ++ cast.chars = (before ++ [':', ':']) ++ cast.first :: cast.rest := by
      simp [chars, array]
    rw [shape, dropTrailing_append_cons _ cast.solid_first]
    simp [chars, trimmed, array]

end Cast

def chain (casts : List Cast) : List Char := casts.flatMap Cast.chars

private theorem dropTrailing_chain {casts : List Cast} (some : casts ≠ []) (before : List Char) :
    ∃ others, others ≠ [] ∧ dropTrailing isBlank (before ++ chain casts) = before ++ chain others := by
  obtain rfl | ⟨earlier, last, rfl⟩ := List.eq_nil_or_concat' casts
  · exact absurd rfl some
  · refine ⟨earlier ++ [last.trimmed], by simp, ?_⟩
    have whole := last.chars_trimmed (before ++ chain earlier)
    simpa [chain] using whole

private theorem next?_firstLetter (c : Char) : CastPlace.firstLetter.next? c =
    if isAsciiUpper c || isAsciiLower c || c == '_' then some .name else none := rfl

private theorem next?_name (c : Char) : CastPlace.name.next? c =
    if c == ':' then some .secondColon else if c == '[' then some .closing else if isWord c || c == ' ' then
      some .name else none := rfl

private theorem isCastsFrom_name {chars : List Char} (continues : ∀ c ∈ chars, (isWord c || c == ' ') = true)
    (after : List Char) :
    isCastsFrom .name (chars ++ after) = isCastsFrom .name after := by
  induction chars with
  | nil => rfl
  | cons c rest ih =>
    obtain ⟨own, others⟩ := List.forall_mem_cons.mp continues
    have colon : (c == ':') = false := by
      rw [beq_eq_false_iff_ne]
      rintro rfl
      exact absurd own (by decide)
    have bracket : (c == '[') = false := by
      rw [beq_eq_false_iff_ne]
      rintro rfl
      exact absurd own (by decide)
    rw [List.cons_append, isCastsFrom, next?_name, own, colon, bracket]
    exact ih others

private theorem isCastsFrom_cast (cast : Cast) (casts : List Cast) :
    isCastsFrom .start (cast.chars ++ chain casts) = isCastsFrom .afterCast (chain casts) := by
  have ends : isCastsFrom .name (chain casts) = isCastsFrom .afterCast (chain casts) := by
    cases casts with
    | nil => rfl
    | cons next rest => rfl
  have opens : isCastsFrom .start (cast.chars ++ chain casts) =
      isCastsFrom .firstLetter
          (cast.first :: (cast.rest ++ ((if cast.isArray then ['[', ']'] else []) ++ chain casts))) := by
    simp only [Cast.chars, List.cons_append, List.append_assoc]
    rfl
  rw [opens, isCastsFrom, next?_firstLetter, if_pos cast.starts]
  simp only [isCastsFrom_name cast.continues]
  cases cast.isArray with
  | true => rfl
  | false => exact ends

private theorem isCasts_chain {casts : List Cast} (some : casts ≠ []) : isCasts (chain casts) = true := by
  have later : ∀ casts : List Cast, isCastsFrom .afterCast (chain casts) = true := by
    intro casts
    induction casts with
    | nil => rfl
    | cons cast rest ih => exact (isCastsFrom_cast cast rest).trans ih
  cases casts with
  | nil => exact absurd rfl some
  | cons cast rest => exact (isCastsFrom_cast cast rest).trans (later rest)

private theorem quote_not_mem_casts {place : CastPlace} {chars : List Char} (casts : isCastsFrom place chars = true) :
    '\'' ∉ chars := by
  induction chars generalizing place with
  | nil => simp
  | cons c rest ih =>
    rw [isCastsFrom] at casts
    cases step : place.next? c with
    | none => simp [step] at casts
    | some next =>
      rw [step] at casts
      have apart : c ≠ '\'' := by
        rintro rfl
        cases place <;> cases step
      simpa using ⟨apart.symm, ih casts⟩

theorem isCasts_cons {c : Char} {rest : List Char} (apart : c ≠ ':') : isCasts (c :: rest) = false := by
  have step : CastPlace.start.next? c = none := if_neg (by simpa using apart)
  rw [isCasts, isCastsFrom, step]

private theorem isCasts_of_quote {chars : List Char} (quote : '\'' ∈ chars) : isCasts chars = false := by
  rw [← Bool.not_eq_true]
  exact fun casts => quote_not_mem_casts casts quote

theorem beforeCasts_of_ne {c : Char} {rest : List Char} (other : isCasts (c :: rest) = false) :
    beforeCasts (c :: rest) = c :: beforeCasts rest := by
  rw [beforeCasts, other]
  rfl

/-- Casts after a quote, with blanks between, are all that is taken off: no cast begins before a quote, and none with
a blank. -/
private theorem beforeCasts_quote {casts blanks : List Char} (chained : casts = [] ∨ isCasts casts = true)
    (blank : ∀ c ∈ blanks, isBlank c = true)
    (body : List Char) : beforeCasts (body ++ '\'' :: (blanks ++ casts)) = body ++ '\'' :: blanks := by
  have none : beforeCasts casts = [] := by
    cases casts with
    | nil => rfl
    | cons c rest => rw [beforeCasts, if_pos (chained.resolve_left (by simp))]
  have between : beforeCasts (blanks ++ casts) = blanks := by
    induction blanks with
    | nil => exact none
    | cons c rest ih =>
      obtain ⟨own, others⟩ := List.forall_mem_cons.mp blank
      have apart : c ≠ ':' := by
        rintro rfl
        exact absurd own (by decide)
      rw [List.cons_append, beforeCasts_of_ne (isCasts_cons apart), ih others]
  induction body with
  | nil => rw [List.nil_append, beforeCasts_of_ne (isCasts_cons (by decide)), between, List.nil_append]
  | cons c rest ih => rw [List.cons_append, beforeCasts_of_ne (isCasts_of_quote (by simp)), ih, List.cons_append]

def doubled : List Char → List Char
  | [] => []
  | c :: rest => if c = '\'' then '\'' :: '\'' :: doubled rest else c :: doubled rest

def enclosed (body : List Char) : List Char := '\'' :: (body ++ ['\''])

/-- The literal that the database writes for a text. -/
def sqlLiteral (value : String) : String := String.ofList (enclosed (doubled value.toList))

private theorem undoubled_cons {c : Char} (other : c ≠ '\'') (rest : List Char) :
    undoubled (c :: rest) = c :: undoubled rest := by
  rw [undoubled.eq_def]
  split
  · rename_i same
    exact absurd (List.cons.inj same).1 other
  · rename_i same
    obtain ⟨rfl, rfl⟩ := List.cons.inj same
    rfl
  · rename_i same
    cases same

private theorem undoubled_doubled (chars : List Char) : undoubled (doubled chars) = chars := by
  induction chars with
  | nil => rfl
  | cons c rest ih =>
    by_cases quote : c = '\''
    · rw [doubled, if_pos quote, undoubled, ih, quote]
    · rw [doubled, if_neg quote, undoubled_cons quote, ih]

private theorem betweenQuotes?_eq_some {chars body : List Char} :
    betweenQuotes? chars = some body ↔ chars = enclosed body := by
  rw [betweenQuotes?.eq_def]
  split
  · rename_i rest
    rw [Option.ite_none_right_eq_some, Option.some.injEq, beq_iff_eq, enclosed, List.cons.injEq]
    constructor
    · rintro ⟨last, rfl⟩
      exact ⟨rfl, (List.dropLast_append_getLast? _ last).symm⟩
    · rintro ⟨_, rfl⟩
      simp
  · rename_i other
    simp only [reduceCtorEq, false_iff]
    intro same
    exact other _ same

/-- The body holds a run of quotes of odd length. -/
def HasOddRun (body : List Char) : Prop :=
  ∃ before count after, body = before ++ (List.replicate (2 * count + 1) '\'' ++ after) ∧
  before.getLast? ≠ some '\'' ∧ after.head? ≠ some '\''

private theorem hasOddRun_cons {c : Char} (other : c ≠ '\'') {rest : List Char} :
    HasOddRun (c :: rest) ↔ HasOddRun rest := by
  constructor
  · rintro ⟨before, count, after, same, last, next⟩
    cases before with
    | nil => exact absurd (List.cons.inj same).1 other
    | cons first before =>
      refine ⟨before, count, after, (List.cons.inj same).2, ?_, next⟩
      cases before with
      | nil => simp
      | cons => simpa using last
  · rintro ⟨before, count, after, rfl, last, next⟩
    refine ⟨c :: before, count, after, rfl, ?_, next⟩
    cases before with
    | nil => simpa using other
    | cons => simpa using last

private theorem hasOddRun_pair {rest : List Char} : HasOddRun ('\'' :: '\'' :: rest) ↔ HasOddRun rest := by
  constructor
  · rintro ⟨before, count, after, same, last, next⟩
    match before with
    | [] =>
      cases count with
      | zero =>
        obtain rfl : '\'' :: rest = after := (List.cons.inj same).2
        exact absurd rfl next
      | succ count => exact ⟨[], count, after, (List.cons.inj (List.cons.inj same).2).2, by simp, next⟩
    | [first] =>
      obtain rfl : '\'' = first := (List.cons.inj same).1
      exact absurd rfl last
    | first :: second :: before =>
      obtain ⟨one, later⟩ := List.cons.inj same
      obtain ⟨two, rest⟩ := List.cons.inj later
      subst one two
      refine ⟨before, count, after, rest, ?_, next⟩
      cases before with
      | nil => simp
      | cons => simpa using last
  · rintro ⟨before, count, after, rfl, last, next⟩
    cases before with
    | nil => exact ⟨[], count + 1, after, rfl, by simp, next⟩
    | cons first before => exact ⟨'\'' :: '\'' :: first :: before, count, after, rfl, by simpa using last, next⟩

/-- What stands between quotes is a doubled text exactly if it has no run of an odd number of quotes. -/
private theorem doubled_undoubled_iff (body : List Char) : doubled (undoubled body) = body ↔ ¬ HasOddRun body := by
  fun_induction undoubled body with
  | case1 rest ih =>
    rw [hasOddRun_pair, ← ih, doubled, if_pos rfl]
    simp
  | case2 c rest single ih =>
    by_cases quote : c = '\''
    · subst quote
      have apart : rest.head? ≠ some '\'' := by
        intro next
        obtain ⟨tail, rfl⟩ := List.head?_eq_some_iff.mp next
        exact single tail rfl rfl
      have odd : HasOddRun ('\'' :: rest) := ⟨[], 0, rest, rfl, by simp, apart⟩
      refine iff_of_false (fun same => apart ?_) (not_not.mpr odd)
      rw [doubled, if_pos rfl] at same
      rw [← (List.cons.inj same).2]
      rfl
    · rw [hasOddRun_cons quote, ← ih, doubled, if_neg quote, List.cons.injEq, eq_self, true_and]
  | case3 => exact iff_of_true rfl (by rintro ⟨before, count, after, same, _⟩; simp at same)

private theorem readDefault_str (default : String) : readDefault "str" default =
    .ok ((betweenQuotes? (withoutCasts default).toList).map fun body => .text (String.ofList (undoubled body))) := by
  have kind : LiteralKind.ofTypeText "str" = .text := by decide
  rw [readDefault, kind, withoutCasts, String.toList_ofList]
  rfl

private theorem withoutCastsChars_literal {before between after : List Char}
    (blankBefore : ∀ c ∈ before, isBlank c = true)
    (blankBetween : ∀ c ∈ between, isBlank c = true) (blankAfter : ∀ c ∈ after, isBlank c = true) (casts : List Cast)
    (body : List Char) :
    withoutCastsChars (before ++ (enclosed body ++ (between ++ (chain casts ++ after)))) = enclosed body := by
  have quote : isBlank '\'' = false := by decide
  obtain ⟨blanks, ending, blank, chained, trimmed⟩ : ∃ blanks ending, (∀ c ∈ blanks, isBlank c = true) ∧
      (ending = [] ∨ isCasts ending = true) ∧ dropTrailing isBlank (between ++ chain casts) = blanks ++ ending := by
    by_cases none : casts = []
    · refine ⟨[], [], by simp, .inl rfl, ?_⟩
      rw [none, chain, List.flatMap_nil, List.append_nil, ← List.nil_append between,
        dropTrailing_append_of_pos blankBetween]
      rfl
    · obtain ⟨others, some, same⟩ := dropTrailing_chain none between
      exact ⟨between, chain others, blankBetween, .inr (isCasts_chain some), same⟩
  have shape : before ++ (enclosed body ++ (between ++ (chain casts ++ after))) =
      before ++ ('\'' :: (body ++ '\'' :: (between ++ chain casts)) ++ after) := by
    simp [enclosed]
  have inner : beforeCasts ('\'' :: (body ++ '\'' :: (blanks ++ ending))) = '\'' :: (body ++ '\'' :: blanks) :=
    beforeCasts_quote chained blank ('\'' :: body)
  have outer : stripChars ([] ++ ('\'' :: (body ++ ['\'']) ++ blanks)) = '\'' ::
      dropTrailing isBlank (body ++ ['\'']) :=
    stripChars_around (by simp) blank quote
  rw [withoutCastsChars, shape, stripChars_around blankBefore blankAfter quote, dropTrailing_append_cons _ quote,
    trimmed, inner]
  rw [dropTrailing_append_singleton quote] at outer
  simpa [enclosed] using outer

/-- A literal is read as its text, whatever the text is, with blanks around it and after it any casts, between
blanks. -/
theorem readDefault_literal (value : String) (casts : List Cast) {before between after : List Char}
    (blank : ∀ c ∈ before ++ (between ++ after), isBlank c = true) :
    (readDefault "str"
      (String.ofList (before ++ ((sqlLiteral value).toList ++ (between ++ (chain casts ++ after)))))).map
      (Option.map Default.keyword) = .ok (some ("default", .text value)) := by
  simp only [List.forall_mem_append] at blank
  obtain ⟨blankBefore, blankBetween, blankAfter⟩ := blank
  have stripped := withoutCastsChars_literal blankBefore blankBetween blankAfter casts (doubled value.toList)
  rw [readDefault_str, withoutCasts, String.toList_ofList, String.toList_ofList, sqlLiteral, String.toList_ofList,
    stripped, betweenQuotes?_eq_some.mpr rfl, Option.map_some, undoubled_doubled, String.ofList_toList]
  rfl

/-- A text with quotes, brackets and colons that look like a cast, and with a line end. -/
theorem tricky_text_read :
    (readDefault "str" "\n 'it''s ''x''::text[]\n'::character varying ::text[]\u3000").map
      (Option.map Default.keyword) =
    .ok (some ("default", .text "it's 'x'::text[]\n")) := by
  let varying : Cast := ⟨'c', "haracter varying ".toList, false, by decide, List.all_eq_true.mp (by decide)⟩
  let texts : Cast := ⟨'t', "ext".toList, true, by decide, List.all_eq_true.mp (by decide)⟩
  have blank : ∀ c ∈ ['\n', ' '] ++ ([] ++ ['\u3000']), isBlank c = true := List.all_eq_true.mp (by decide)
  have read := readDefault_literal "it's 'x'::text[]\n" [varying, texts] blank
  exact read

/-- What stands between quotes after all casts are taken off is read as a text, and nothing else is. What was taken
for a literal is the literal of the text that was read exactly if no run of an odd number of quotes stands in it. -/
theorem text_default_iff (default value : String) :
    (readDefault "str" default = .ok (some (.text value)) ↔
      ∃ body, (withoutCasts default).toList = enclosed body ∧ value = String.ofList (undoubled body)) ∧
    (withoutCasts default = sqlLiteral value ↔
      ∃ body, (withoutCasts default).toList = enclosed body ∧ value = String.ofList (undoubled body) ∧
        ¬ HasOddRun body) ∧
    (readDefault "str" default = .ok none ↔ ∀ body, (withoutCasts default).toList ≠ enclosed body) := by
  rw [readDefault_str]
  refine ⟨?_, ?_, ?_⟩
  · simp only [Except.ok.injEq, Option.map_eq_some_iff, betweenQuotes?_eq_some, Default.text.injEq]
    exact exists_congr fun body => and_congr_right fun _ => eq_comm
  · rw [sqlLiteral, ← String.toList_inj, String.toList_ofList]
    constructor
    · intro same
      refine ⟨doubled value.toList, same, ?_, ?_⟩
      · rw [undoubled_doubled, String.ofList_toList]
      · rw [← doubled_undoubled_iff, undoubled_doubled]
    · rintro ⟨body, same, rfl, even⟩
      rw [same, String.toList_ofList, (doubled_undoubled_iff body).mpr even]
  · rw [Except.ok.injEq, Option.map_eq_none_iff, Option.eq_none_iff_forall_ne_some]
    simp only [ne_eq, betweenQuotes?_eq_some]

/-- Two literals that are joined are read as one text, though they are no literal. -/
theorem joined_literals_read : readDefault "str" "'a' || 'b'" = .ok (some (.text "a' || 'b")) ∧
    ∀ value, withoutCasts "'a' || 'b'" ≠ sqlLiteral value := by
  have chars : (withoutCasts "'a' || 'b'").toList = enclosed "a' || 'b".toList := by decide +kernel
  have odd : HasOddRun "a' || 'b".toList := ⟨['a'], 0, " || 'b".toList, by decide, by decide, by decide⟩
  refine ⟨(text_default_iff _ _).1.mpr ⟨_, chars, by decide +kernel⟩, fun value same => ?_⟩
  obtain ⟨body, others, _, even⟩ := (text_default_iff _ value).2.1.mp same
  obtain rfl : "a' || 'b".toList = body := by
    have inner := chars.symm.trans others
    exact List.append_cancel_right (List.cons.inj inner).2
  exact even odd

end Model

end TableModels
