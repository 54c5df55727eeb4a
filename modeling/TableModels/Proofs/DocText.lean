import Mathlib.Data.List.TakeWhile
import TableModels.Code.Formatted
import TableModels.Proofs.Skeleton
import TableModels.Proofs.Trimming

/-! Documentation in text. It stands between tripled quotes, and neither the text itself, escaped as it is, nor what
is made of its lines when these are moved and trimmed ends it before its last quotes. -/

namespace TableModels.Code

open Text

/-- Characters between tripled quotes, after so many quotes that may be closing ones: never are there three in a row,
and every backslash goes with a character that is not blank. -/
inductive Inside (quote : Char) : Nat → List Char → Prop where
  | nil {closing : Nat} : Inside quote closing []
  | mark {closing : Nat} {rest : List Char} (few : closing < 2) (later : Inside quote (closing + 1) rest) :
      Inside quote closing (quote :: rest)
  | escape {closing : Nat} {c : Char} {rest : List Char} (shown : isBlank c = false) (later : Inside quote 0 rest) :
    Inside quote closing ('\\' :: c :: rest)
  | plain {closing : Nat} {c : Char} {rest : List Char} (apart : c ≠ quote) (backslash : c ≠ '\\')
      (later : Inside quote 0 rest) :
    Inside quote closing (c :: rest)

section

variable {quote : Char} {closing : Nat} {chars : List Char}

private theorem Inside.weaken (inside : Inside quote closing chars) {fewer : Nat} (less : fewer ≤ closing) :
    Inside quote fewer chars := by
  induction inside generalizing fewer with
  | nil => exact .nil
  | mark few later ih => exact .mark (by omega) (ih (by omega))
  | escape shown later => exact .escape shown later
  | plain apart backslash later => exact .plain apart backslash later

private theorem apart_of_isBlank (mark : isQuote quote = true) {c : Char} (blank : isBlank c = true) :
    c ≠ quote ∧ c ≠ '\\' := by
  constructor
  · rintro rfl
    cases blank.symm.trans (mere_of_isQuote mark).notBlank
  · rintro rfl
    cases blank

/-- The reader stays between the quotes. After a last character that is no quote it has passed none that may be
closing. -/
theorem Inside.read (mark : isQuote quote = true) (inside : Inside quote closing chars) :
    ∃ more, Reading.read? (.tripled quote closing) chars = some (.tripled quote more, []) ∧ ∀ c ∈ chars.getLast?,
      c ≠ quote → more = 0 := by
  -- what holds at the end of the rest holds at the end of the whole, whose last character it has unless it is empty
  have ending : ∀ {c : Char} {rest : List Char} {more : Nat}, Reading.read? (.tripled quote 0) rest =
      some (.tripled quote more, []) →
      (∀ d ∈ rest.getLast?, d ≠ quote → more = 0) → ∀ d ∈ (c :: rest).getLast?, d ≠ quote → more = 0 := by
    intro c rest more read last d member apart
    cases rest with
    | nil =>
      obtain ⟨⟨⟩⟩ := Prod.mk.inj (Option.some.inj read)
      rfl
    | cons e rest => exact last d (by rwa [List.getLast?_cons_cons] at member) apart
  induction inside with
  | nil => exact ⟨_, rfl, nofun⟩
  | @mark closing rest few later ih =>
    obtain ⟨more, read, last⟩ := ih
    have step : Reading.next? (.tripled quote closing) quote = some (.tripled quote (closing + 1), []) := by
      have other : (closing == 2) = false := beq_eq_false_iff_ne.mpr (by omega)
      simp [Reading.next?, other]
    refine ⟨more, Reading.read?_cons step read, fun d member apart => ?_⟩
    cases rest with
    | nil =>
      obtain rfl : quote = d := by simpa using member
      exact absurd rfl apart
    | cons e rest => exact last d (by rwa [List.getLast?_cons_cons] at member) apart
  | @escape closing c rest shown later ih =>
    obtain ⟨more, read, last⟩ := ih
    have step : Reading.next? (.tripled quote closing) '\\' = some (.tripledEscaped quote, []) := by
      simp [Reading.next?, (mere_of_isQuote mark).notBackslash]
    have skip : Reading.next? (.tripledEscaped quote) c = some (.tripled quote 0, []) := rfl
    exact ⟨more,
      Reading.read?_cons step
        (Reading.read?_cons skip read), by simpa only [List.getLast?_cons_cons] using ending read last⟩
  | @plain closing c rest apart backslash later ih =>
    obtain ⟨more, read, last⟩ := ih
    have step : Reading.next? (.tripled quote closing) c = some (.tripled quote 0, []) := by
      simp [Reading.next?, apart, backslash]
    exact ⟨more, Reading.read?_cons step read, ending read last⟩

theorem Inside.dropWhile (mark : isQuote quote = true) (inside : Inside quote closing chars) :
    Inside quote 0 (chars.dropWhile isBlank) := by
  induction inside with
  | nil => exact .nil
  | mark few later =>
    rw [List.dropWhile_cons_of_neg (by simp [(mere_of_isQuote mark).notBlank])]
    exact (Inside.mark few later).weaken (Nat.zero_le _)
  | escape shown later =>
    rw [List.dropWhile_cons_of_neg (by decide)]
    exact .escape shown later
  | plain apart backslash later ih =>
    rw [List.dropWhile_cons]
    split
    · exact ih
    · exact .plain apart backslash later

private theorem Inside.after_blanks (mark : isQuote quote = true) (inside : Inside quote 0 chars) {blanks : List Char}
    (blank : ∀ c ∈ blanks, isBlank c = true) :
    Inside quote 0 (blanks ++ chars) := by
  induction blanks with
  | nil => exact inside
  | cons c rest ih =>
    obtain ⟨own, others⟩ := List.forall_mem_cons.mp blank
    obtain ⟨apart, backslash⟩ := apart_of_isBlank mark own
    exact .plain apart backslash (ih others)

theorem dropTrailing_cons_of_neg {c : Char} (kept : isBlank c = false) (rest : List Char) :
    dropTrailing isBlank (c :: rest) = c :: dropTrailing isBlank rest :=
  dropTrailing_append_cons [] kept

private theorem dropTrailing_cons (c : Char) (rest : List Char) : dropTrailing isBlank (c :: rest) =
    if (dropTrailing isBlank rest).isEmpty ∧ isBlank c = true then [] else c :: dropTrailing isBlank rest := by
  simp only [dropTrailing, List.reverse_cons, List.dropWhile_append, List.isEmpty_reverse]
  by_cases none : List.dropWhile isBlank rest.reverse = [] <;> cases blank : isBlank c <;> simp [none, blank]

theorem Inside.dropTrailing (mark : isQuote quote = true) (inside : Inside quote closing chars) :
    Inside quote closing (dropTrailing isBlank chars) := by
  induction inside with
  | nil => exact .nil
  | mark few later ih =>
    rw [dropTrailing_cons_of_neg (mere_of_isQuote mark).notBlank]
    exact .mark few ih
  | escape shown later ih =>
    rw [dropTrailing_cons_of_neg (by decide), dropTrailing_cons_of_neg shown]
    exact .escape shown ih
  | @plain closing c rest apart backslash later ih =>
    rw [dropTrailing_cons]
    split
    · exact .nil
    · exact .plain apart backslash ih

private theorem Inside.append_line (inside : Inside quote closing chars) (mark : isQuote quote = true)
    {more : List Char} (later : Inside quote 0 more) :
    Inside quote closing (chars ++ '\n' :: more) := by
  obtain ⟨apart, backslash⟩ : '\n' ≠ quote ∧ '\n' ≠ '\\' := apart_of_isBlank mark rfl
  induction inside with
  | nil => exact .plain apart backslash later
  | mark few _ ih => exact .mark few ih
  | escape shown _ ih => exact .escape shown ih
  | plain own other _ ih => exact .plain own other ih

theorem splitChars_cons_of_neg {c : Char} (other : c ≠ '\n') {rest first : List Char} {more : List (List Char)}
    (split : splitChars (· == '\n') rest = first :: more) :
    splitChars (· == '\n') (c :: rest) = (c :: first) :: more := by
  rw [splitChars, if_neg (by simpa using other), split]

theorem splitChars_line (rest : List Char) :
    splitChars (· == '\n') ('\n' :: rest) = [] :: splitChars (· == '\n') rest := rfl

theorem Inside.split (mark : isQuote quote = true) (inside : Inside quote closing chars) :
    ∃ first rest, splitChars (· == '\n') chars = first :: rest ∧ Inside quote closing first ∧ ∀ line ∈ rest,
      Inside quote 0 line := by
  have lineEnd := (apart_of_isBlank mark rfl : '\n' ≠ quote ∧ '\n' ≠ '\\')
  induction inside with
  | nil => exact ⟨[], [], rfl, .nil, nofun⟩
  | mark few later ih =>
    obtain ⟨first, more, split, own, others⟩ := ih
    exact ⟨_, more, splitChars_cons_of_neg lineEnd.1.symm split, .mark few own, others⟩
  | @escape closing c rest shown later ih =>
    obtain ⟨first, more, split, own, others⟩ := ih
    have other : c ≠ '\n' := by
      rintro rfl
      cases shown
    exact ⟨_, more, splitChars_cons_of_neg (by decide) (splitChars_cons_of_neg other split), .escape shown own, others⟩
  | @plain closing c rest apart backslash later ih =>
    obtain ⟨first, more, split, own, others⟩ := ih
    by_cases ends : c = '\n'
    · subst ends
      exact ⟨[], _, splitChars_line rest, .nil, split ▸ List.forall_mem_cons.mpr ⟨own, others⟩⟩
    · exact ⟨_, more, splitChars_cons_of_neg ends split, .plain apart backslash own, others⟩

theorem Inside.expandIndent (mark : isQuote quote = true) (inside : Inside quote 0 chars) :
    Inside quote 0 (expandIndent chars) := by
  have blanks : ∀ (line : List Char) (column : Nat), (∀ c ∈ line, isBlank c = true) → ∀ c ∈ expandTabs column line,
      isBlank c = true := by
    intro line
    induction line with
    | nil => exact fun _ _ => nofun
    | cons c rest ih =>
      intro column blank
      obtain ⟨own, others⟩ := List.forall_mem_cons.mp blank
      rw [expandTabs]
      split
      · refine List.forall_mem_append.mpr ⟨fun d member => ?_, ih _ others⟩
        rw [List.eq_of_mem_replicate member]
        rfl
      · exact List.forall_mem_cons.mpr ⟨own, ih _ others⟩
  rw [Code.expandIndent]
  split
  · exact inside
  · exact (inside.dropWhile mark).after_blanks mark (blanks _ 0 fun c member => List.mem_takeWhile_imp member)

theorem Inside.drop (mark : isQuote quote = true) (inside : Inside quote 0 chars) {count : Nat}
    (blank : count ≤ indentOf chars ∨ chars.all isBlank = true) : Inside quote 0 (chars.drop count) := by
  induction chars generalizing count with
  | nil => simpa using inside
  | cons c rest ih =>
    cases count with
    | zero => exact inside
    | succ count =>
      obtain ⟨own, others⟩ : isBlank c = true ∧ (count ≤ indentOf rest ∨ rest.all isBlank = true) := by
        rcases blank with few | all
        · cases own : isBlank c with
          | true => exact ⟨rfl, .inl (by simpa [indentOf, own] using few)⟩
          | false => simp [indentOf, own] at few
        · obtain ⟨own, others⟩ := Bool.and_eq_true_iff.mp all
          exact ⟨own, .inr others⟩
      have later : Inside quote 0 rest := by
        cases inside with
        | mark => exact absurd rfl (apart_of_isBlank mark own).1
        | escape => exact absurd rfl (apart_of_isBlank mark own).2
        | plain _ _ later => exact later
      exact ih later others

private theorem reindentRest_inside (mark : isQuote quote = true) {margin : List Char}
    (blank : ∀ c ∈ margin, isBlank c = true) {least : Nat}
    {lines : List (List Char)}
    (each : ∀ line ∈ lines, Inside quote 0 line ∧ (least ≤ indentOf line ∨ line.all isBlank = true)) :
    ∀ line ∈ reindentRest margin least lines, Inside quote 0 line := by
  induction lines with
  | nil => exact nofun
  | cons line rest ih =>
    obtain ⟨⟨own, few⟩, others⟩ := List.forall_mem_cons.mp each
    rw [reindentRest]
    refine List.forall_mem_cons.mpr ⟨?_, ih others⟩
    split
    · exact .nil
    · exact ((own.drop mark few).dropTrailing mark).after_blanks mark blank

private theorem least_of_smallestIndent {lines : List (List Char)} {least : Nat}
    (found : smallestIndent lines = some least) :
    ∀ line ∈ lines, least ≤ indentOf line ∨ line.all isBlank = true := by
  intro line member
  cases blank : line.all isBlank with
  | true => exact .inr rfl
  | false =>
    have among : indentOf line ∈ (lines.filter fun line => !line.all isBlank).map indentOf :=
      List.mem_map_of_mem (List.mem_filter.mpr ⟨member, by simp [blank]⟩)
    exact .inl ((List.min?_eq_some_iff.mp found).2 _ among)

theorem Inside.reindent (mark : isQuote quote = true) (inside : Inside quote 0 chars) {margin : List Char}
    (blank : ∀ c ∈ margin, isBlank c = true) :
    ∀ line ∈ reindent margin chars, Inside quote 0 line := by
  obtain ⟨first, rest, split, own, others⟩ := inside.split mark
  rw [Code.reindent, split]
  refine List.forall_mem_cons.mpr ⟨((own.expandIndent mark).dropWhile mark).dropTrailing mark, ?_⟩
  have each : ∀ line ∈ rest.map Code.expandIndent, Inside quote 0 line := by
    intro line member
    obtain ⟨line, among, rfl⟩ := List.mem_map.mp member
    exact (others line among).expandIndent mark
  cases found : smallestIndent (rest.map Code.expandIndent) with
  | none => exact nofun
  | some least =>
    exact reindentRest_inside mark blank
      fun line member => ⟨each line member, least_of_smallestIndent found line member⟩

end

def EndsInPoint (chars : List Char) : Prop := chars.getLast? = some '.'

namespace EndsInPoint

variable {chars : List Char}

private theorem iff_append : EndsInPoint chars ↔ ∃ before, chars = before ++ ['.'] := List.getLast?_eq_some_iff

theorem append (before : List Char) (ends : EndsInPoint chars) : EndsInPoint (before ++ chars) := by
  rw [EndsInPoint, List.getLast?_append, ends]
  rfl

private theorem not_blank (ends : EndsInPoint chars) : chars.all isBlank = false := by
  obtain ⟨before, rfl⟩ := iff_append.mp ends
  have point : isBlank '.' = false := by decide
  simp [point]

theorem dropTrailing (ends : EndsInPoint chars) : EndsInPoint (dropTrailing isBlank chars) := by
  obtain ⟨before, rfl⟩ := iff_append.mp ends
  rwa [dropTrailing_append_singleton (by decide)]

theorem dropWhile (ends : EndsInPoint chars) : EndsInPoint (chars.dropWhile isBlank) := by
  obtain ⟨before, rfl⟩ := iff_append.mp ends
  rw [List.dropWhile_append]
  split
  · rfl
  · exact append _ rfl

theorem expandIndent (ends : EndsInPoint chars) : EndsInPoint (expandIndent chars) := by
  rw [Code.expandIndent]
  split
  · exact ends
  · exact ends.dropWhile.append _

theorem drop (ends : EndsInPoint chars) {count : Nat} (few : count ≤ indentOf chars) :
    EndsInPoint (chars.drop count) := by
  obtain ⟨before, rfl⟩ := iff_append.mp ends
  have inner : indentOf (before ++ ['.']) ≤ before.length := by
    rw [indentOf, List.takeWhile_append]
    split
    · rw [List.takeWhile_cons_of_neg (by decide), List.append_nil]
    · exact (List.takeWhile_sublist _).length_le
  rw [List.drop_append_of_le_length (few.trans inner)]
  exact append _ rfl

/-- The last line of a text ends as the text does. -/
theorem split (ends : EndsInPoint chars) :
    ∃ before last, splitChars (· == '\n') chars = before ++ [last] ∧ EndsInPoint last := by
  obtain ⟨before, rfl⟩ := iff_append.mp ends
  clear ends
  induction before with
  | nil => exact ⟨[], ['.'], rfl, rfl⟩
  | cons c rest ih =>
    obtain ⟨lines, last, split, ends⟩ := ih
    rw [List.cons_append]
    by_cases lineEnd : c = '\n'
    · subst lineEnd
      exact ⟨[] :: lines, last, by rw [splitChars_line, split]; rfl, ends⟩
    · cases lines with
      | nil => exact ⟨[], c :: last, splitChars_cons_of_neg lineEnd split, ends.append [c]⟩
      | cons first more => exact ⟨(c :: first) :: more, last, splitChars_cons_of_neg lineEnd split, ends⟩

theorem reindentRest (margin : List Char) {least : Nat} (ends : EndsInPoint chars) (few : least ≤ indentOf chars)
    (lines : List (List Char)) :
    ∃ before last, reindentRest margin least (lines ++ [chars]) = before ++ [last] ∧ EndsInPoint last := by
  induction lines with
  | nil =>
    refine ⟨[], _, rfl, ?_⟩
    simp only [List.isEmpty_nil, Bool.not_true, Bool.and_false, Bool.false_eq_true, if_false]
    exact (ends.drop few).dropTrailing.append margin
  | cons line rest ih =>
    obtain ⟨before, last, same, ends⟩ := ih
    rw [List.cons_append, Code.reindentRest, same]
    exact ⟨_ :: before, last, rfl, ends⟩

theorem reindent (margin : List Char) (ends : EndsInPoint chars) :
    ∃ before last, reindent margin chars = before ++ [last] ∧ EndsInPoint last := by
  obtain ⟨before, last, split, ends⟩ := ends.split
  rw [Code.reindent, split, List.map_append, List.map_singleton]
  cases before with
  | nil => exact ⟨[], _, rfl, ends.expandIndent.dropWhile.dropTrailing⟩
  | cons first rest =>
    have kept : Code.expandIndent last ∈ rest.map Code.expandIndent ++ [Code.expandIndent last] := by simp
    have among : Code.expandIndent last ∈ (rest.map Code.expandIndent ++ [Code.expandIndent last]).filter
        fun line => !line.all isBlank :=
      List.mem_filter.mpr ⟨kept, by simp [ends.expandIndent.not_blank]⟩
    simp only [List.map_cons, List.cons_append]
    cases found : smallestIndent (rest.map Code.expandIndent ++ [Code.expandIndent last]) with
    | none =>
      rw [smallestIndent, List.min?_eq_none_iff, List.map_eq_nil_iff] at found
      rw [found] at among
      cases among
    | some least =>
      have few := (List.min?_eq_some_iff.mp found).2 _ (List.mem_map_of_mem among)
      obtain ⟨lines, last, same, ends⟩ := ends.expandIndent.reindentRest margin few (rest.map Code.expandIndent)
      exact ⟨_ :: lines, last, congrArg (List.cons _) same, ends⟩

end EndsInPoint

section

variable {quote : Char}

private theorem Inside.after_bare (mark : isQuote quote = true) {chars rest : List Char}
    (bare : ∀ c ∈ chars, isBare c = true) (later : Inside quote 0 rest) :
    Inside quote 0 (chars ++ rest) := by
  induction chars with
  | nil => exact later
  | cons c others ih =>
    obtain ⟨own, bare⟩ := List.forall_mem_cons.mp bare
    obtain ⟨apart, backslash, _⟩ := apart_of_isBare mark own
    exact .plain apart backslash (ih bare)

private theorem escapeWithin_eq (quote : Char) (chars : List Char) :
    escapeWithin quote chars = chars.flatMap fun c => if c == quote then ['\\', c] else escapeChar c := by
  induction chars with
  | nil => rfl
  | cons c rest ih => rw [escapeWithin, ih, List.flatMap_cons]

private theorem inside_escapeWithin (mark : isQuote quote = true) (chars : List Char) :
    Inside quote 0 (escapeWithin quote chars) := by
  induction chars with
  | nil => exact .nil
  | cons c rest ih =>
    rw [escapeWithin]
    split
    · rename_i same
      rw [beq_iff_eq] at same
      exact .escape (same ▸ (mere_of_isQuote mark).notBlank) ih
    · rename_i other
      rcases escapeChar_cases c with ⟨same, backslash, _⟩ | ⟨d, chars, same, shown, bare⟩
      · rw [same]
        exact .plain (by simpa using other) backslash ih
      · rw [same]
        exact .escape shown (ih.after_bare mark bare)

private theorem containsChars_append {part : List Char} (before : List Char) {chars : List Char}
    (apart : containsChars part (before ++ chars) = false) :
    containsChars part chars = false := by
  induction before with
  | nil => exact apart
  | cons c rest ih =>
    rw [List.cons_append, containsChars, afterFirst?] at apart
    split at apart
    · cases apart
    · exact ih apart

private theorem containsChars_self {part chars : List Char} (filled : part ≠ []) :
    containsChars part (part ++ chars) = true := by
  have found : part.isPrefixOf? (part ++ chars) = some chars := List.isPrefixOf?_eq_some_iff_append_eq.mpr rfl
  cases part with
  | nil => exact absurd rfl filled
  | cons c rest =>
    rw [List.cons_append] at found ⊢
    rw [containsChars, afterFirst?, found]
    rfl

private theorem escapeDocChar_cases (c : Char) : (escapeDocChar c = [c] ∧ c ≠ '\\') ∨
    ∃ d chars, escapeDocChar c = '\\' :: d :: chars ∧ isBlank d = false ∧ ∀ c ∈ chars, isBare c = true := by
  rw [escapeDocChar]
  split
  · rename_i kept
    refine .inl ⟨rfl, ?_⟩
    rintro rfl
    cases kept
  · rcases escapeChar_cases c with ⟨same, backslash, _⟩ | escaped
    · exact .inl ⟨same, backslash⟩
    · exact .inr escaped

private theorem inside_flatMap (mark : isQuote quote = true) (chars : List Char) {closing : Nat} (few : closing ≤ 2)
    (apart : containsChars (triple quote) (List.replicate closing quote ++ chars.flatMap escapeDocChar) = false) :
    Inside quote closing (chars.flatMap escapeDocChar) := by
  induction chars generalizing closing with
  | nil => exact .nil
  | cons c rest ih =>
    rw [List.flatMap_cons] at apart ⊢
    have later : Inside quote 0 (rest.flatMap escapeDocChar) :=
      ih (Nat.zero_le 2) (containsChars_append _ (containsChars_append _ apart))
    rcases escapeDocChar_cases c with ⟨same, backslash⟩ | ⟨d, chars, same, shown, bare⟩
    · rw [same] at apart ⊢
      by_cases again : c = quote
      · subst again
        have next : List.replicate closing c ++ ([c] ++ rest.flatMap escapeDocChar) =
            List.replicate (closing + 1) c ++ rest.flatMap escapeDocChar := by
          rw [List.replicate_succ', List.append_assoc]
        rw [next] at apart
        have fewer : closing < 2 := by
          refine lt_of_le_of_ne few ?_
          rintro rfl
          cases apart.symm.trans (containsChars_self (List.cons_ne_nil c [c, c]))
        exact .mark fewer (ih fewer apart)
      · exact .plain again backslash later
    · rw [same]
      exact .escape shown (later.after_bare mark bare)

end

private theorem docQuoted_inside {doc : String} (ends : EndsInPoint doc.toList) : isQuote (docQuoted doc).2 = true ∧
    Inside (docQuoted doc).2 0 (docQuoted doc).1 ∧ EndsInPoint (docQuoted doc).1 := by
  obtain ⟨before, same⟩ := EndsInPoint.iff_append.mp ends
  have point : escapeDocChar '.' = ['.'] := by decide
  have last : EndsInPoint (doc.toList.flatMap escapeDocChar) := by
    rw [same, List.flatMap_append, List.flatMap_singleton, point]
    exact .append _ rfl
  rw [docQuoted]
  dsimp only
  split
  · rename_i apart
    exact ⟨rfl, inside_flatMap rfl _ (Nat.zero_le 2) (by rwa [Bool.not_eq_true'] at apart), last⟩
  · split
    · rename_i apart
      exact ⟨rfl, inside_flatMap rfl _ (Nat.zero_le 2) (by rwa [Bool.not_eq_true'] at apart), last⟩
    · have mark : isQuote (quoteFor doc.toList) = true := by
        rw [quoteFor]
        split <;> rfl
      have kept : (if '.' == quoteFor doc.toList then ['\\', '.'] else escapeChar '.') = ['.'] := by
        rw [if_neg (by simpa using (mere_of_isQuote mark).notPoint)]
        decide
      refine ⟨mark, inside_escapeWithin mark _, ?_⟩
      rw [escapeWithin_eq, same, List.flatMap_append, List.flatMap_singleton, ← same, kept]
      exact .append _ rfl

section

variable {allowed : List Char → Prop} {quote : Char} {chars : List Char}

/-- What stands between tripled quotes is read to the last of them. -/
theorem Inside.reads (mark : isQuote quote = true) (inside : Inside quote 0 chars)
    (closed : ∀ c ∈ chars.getLast?, c ≠ quote) {margin : List Char}
    (blank : ∀ c ∈ margin, c = ' ') : Reads allowed (margin ++ triple quote ++ (chars ++ triple quote)) := by
  have before : Reading.read? (.code false) margin = some (.code false, margin) := by
    induction margin with
    | nil => rfl
    | cons c rest ih =>
      obtain ⟨rfl, others⟩ := List.forall_mem_cons.mp blank
      have step : Reading.next? (.code false) ' ' = some (.code false, [' ']) := by decide
      exact Reading.read?_cons step (ih others)
  have opened : Reading.read? (.code false) (triple quote) = some (.tripled quote 0, triple quote) := by
    have first : Reading.next? (.code false) quote = some (.opened quote, [quote]) := by
      simp [Reading.next?, Reading.inCode, mark]
    have second : Reading.next? (.opened quote) quote = some (.emptied quote, [quote]) := by simp [Reading.next?]
    have third : Reading.next? (.emptied quote) quote = some (.tripled quote 0, [quote]) := by simp [Reading.next?]
    exact Reading.read?_cons first (Reading.read?_cons second (Reading.read?_cons third rfl))
  have closing : Reading.read? (.tripled quote 0) (triple quote) = some (.code false, [quote]) := by
    simp [Reading.read?, Reading.next?, triple]
  have between : Reading.read? (.tripled quote 0) chars = some (.tripled quote 0, []) := by
    obtain ⟨more, read, last⟩ := inside.read mark
    obtain rfl | ⟨others, c, rfl⟩ := List.eq_nil_or_concat' chars
    · rfl
    · have ends : c ∈ (others ++ [c]).getLast? := by simp
      obtain rfl := last c ends (closed c ends)
      exact read
  have whole := Reading.read?_append (Reading.read?_append before opened) (Reading.read?_append between closing)
  have marks : ∀ c ∈ margin ++ triple quote ++ [quote], isWordChar c = false ∧
      (c ∈ punctuation ∨ isQuote c = true) := by
    simp only [triple, List.forall_mem_append, List.forall_mem_cons]
    have own : isWordChar quote = false ∧ (quote ∈ punctuation ∨ isQuote quote = true) :=
      ⟨(mere_of_isQuote mark).notWord, .inr mark⟩
    refine ⟨⟨fun c member => ?_, own, own, own, List.forall_mem_nil _⟩, own, List.forall_mem_nil _⟩
    rw [blank c member]
    decide
  refine ⟨_, _, whole, .code (fun inside => by cases inside), ?_, ?_, fun c member => .inr (marks c member).2, ?_⟩
  · simp only [List.append_assoc, List.head?_append]
    rfl
  · simp only [List.getLast?_append]
    rfl
  · rw [List.nil_append, words_marks fun c member => (marks c member).1]
    exact List.forall_mem_nil _

theorem Inside.intercalate (mark : isQuote quote = true) {lines : List (List Char)}
    (each : ∀ line ∈ lines, Inside quote 0 line) :
    Inside quote 0 (['\n'].intercalate lines) := by
  induction lines with
  | nil => exact .nil
  | cons first rest ih =>
    obtain ⟨own, others⟩ := List.forall_mem_cons.mp each
    by_cases none : rest = []
    · subst none
      simpa [List.intercalate] using own
    · rw [List.intercalate_cons_of_ne_nil none, List.append_assoc, List.singleton_append]
      exact own.append_line mark (ih others)

theorem EndsInPoint.intercalate {last : List Char} (ends : EndsInPoint last) (before : List (List Char)) :
    EndsInPoint (['\n'].intercalate (before ++ [last])) := by
  induction before with
  | nil => simpa [List.intercalate] using ends
  | cons first rest ih =>
    rw [List.cons_append, List.intercalate_cons_of_ne_nil (by simp), List.append_assoc, List.singleton_append]
    exact append _ (ih.append ['\n'])

/-- Documentation that ends in a point is read from code to code. -/
theorem reads_docLayout {doc : String} (ends : EndsInPoint doc.toList) : Reads allowed (docLayout doc).toList := by
  obtain ⟨mark, inside, last⟩ := docQuoted_inside ends
  have blank : ∀ c ∈ (indent 1).toList, isBlank c = true := List.all_eq_true.mp (by decide)
  have margin : ∀ c ∈ (indent 1).toList, c = ' ' :=
    fun c member => List.eq_of_mem_replicate (by rwa [indent, String.toList_ofList] at member)
  have quoted : ∀ {chars : List Char}, EndsInPoint chars → ∀ c ∈ chars.getLast?, c ≠ (docQuoted doc).2 := by
    intro chars ends c member
    obtain rfl : '.' = c := Option.some.inj (ends.symm.trans member)
    exact (mere_of_isQuote mark).notPoint
  rw [docLayout]
  dsimp only
  rw [String.toList_ofList]
  split
  · exact inside.reads mark (quoted last) margin
  · split
    · obtain ⟨before, final, same, point⟩ := last.reindent (indent 1).toList
      have joined : Inside (docQuoted doc).2 0 (['\n'].intercalate (reindent (indent 1).toList (docQuoted doc).1)) :=
        .intercalate mark (inside.reindent mark blank)
      have ending : EndsInPoint (['\n'].intercalate (reindent (indent 1).toList (docQuoted doc).1)) := by
        rw [same]
        exact point.intercalate before
      split
      · have below : Inside (docQuoted doc).2 0 (indent 1).toList := by
          have none : Inside (docQuoted doc).2 0 ((indent 1).toList ++ []) := Inside.nil.after_blanks mark blank
          rwa [List.append_nil] at none
        have blankEnd :
            ∀ c ∈ (['\n'].intercalate (reindent (indent 1).toList (docQuoted doc).1) ++ '\n' ::
              (indent 1).toList).getLast?,
            c ≠ (docQuoted doc).2 := by
          intro c member
          obtain rfl : ' ' = c := by simpa [indent] using member
          exact (apart_of_isBlank mark rfl).1
        simpa using (joined.append_line mark below).reads mark blankEnd margin
      · exact joined.reads mark (quoted ending) margin
    · exact Inside.reads mark ((inside.dropWhile mark).dropTrailing mark) (quoted last.dropWhile.dropTrailing) margin

end

end TableModels.Code
