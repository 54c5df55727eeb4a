import Mathlib.Data.List.Infix
import TableModels.Text.Scan

/-! Texts cut at their ends: the blanks around them, and endings that are taken off. -/

namespace TableModels.Text

section

variable {drop : Char → Bool} {chars before after : List Char} {c : Char}

theorem dropTrailing_append_of_pos (dropped : ∀ c ∈ after, drop c = true) :
    dropTrailing drop (chars ++ after) = dropTrailing drop chars := by
  rw [dropTrailing, dropTrailing, List.reverse_append, List.dropWhile_append_of_pos (by simpa using dropped)]

theorem dropTrailing_append_singleton (kept : drop c = false) : dropTrailing drop (chars ++ [c]) = chars ++ [c] := by
  simp [dropTrailing, kept]

theorem dropTrailing_append_cons (before : List Char) (kept : drop c = false) :
    dropTrailing drop (before ++ c :: chars) = before ++ c :: dropTrailing drop chars := by
  simp only [dropTrailing, List.reverse_append, List.reverse_cons, List.append_assoc, List.dropWhile_append,
    List.isEmpty_iff]
  split
  · rename_i none
    simp [none, kept]
  · simp

theorem mem_of_mem_dropTrailing (member : c ∈ dropTrailing drop chars) : c ∈ chars := by
  rw [dropTrailing, List.mem_reverse] at member
  exact List.mem_reverse.mp ((List.dropWhile_sublist drop).subset member)

/-- Nothing is taken off a text that no blanks surround. -/
theorem stripChars_trimmed (first : ∀ c, chars.head? = some c → isBlank c = false)
    (last : ∀ c, chars.getLast? = some c → isBlank c = false) :
    stripChars chars = chars := by
  have start : chars.dropWhile isBlank = chars := by
    cases chars with
    | nil => rfl
    | cons c rest => rw [List.dropWhile_cons_of_neg (by simp [first c rfl])]
  rw [stripChars, trimChars, start]
  obtain rfl | ⟨before, c, rfl⟩ := List.eq_nil_or_concat' chars
  · rfl
  · exact dropTrailing_append_singleton (last c (by simp))

theorem stripChars_solid (solid : ∀ c ∈ chars, isBlank c = false) : stripChars chars = chars := by
  apply stripChars_trimmed
  · intro c first
    exact solid c (List.mem_of_mem_head? first)
  · intro c last
    exact solid c (List.mem_of_mem_getLast? last)

/-- Blanks around a text that opens with another character go, and so do those at its own end. -/
theorem stripChars_around (blankBefore : ∀ c ∈ before, isBlank c = true) (blankAfter : ∀ c ∈ after, isBlank c = true)
    (solid : isBlank c = false) : stripChars (before ++ (c :: chars ++ after)) = c :: dropTrailing isBlank chars := by
  rw [stripChars, trimChars, List.dropWhile_append_of_pos blankBefore, List.cons_append,
    List.dropWhile_cons_of_neg (by simp [solid]), ← List.cons_append, dropTrailing_append_of_pos blankAfter]
  exact dropTrailing_append_cons [] solid

end

theorem hasSuffix_iff {ending text : String} : hasSuffix ending text = true ↔ ∃ stem, text = stem ++ ending := by
  rw [hasSuffix, List.isSuffixOf_iff_suffix]
  constructor
  · rintro ⟨stem, same⟩
    exact ⟨String.ofList stem, by simp [String.ext_iff, same]⟩
  · rintro ⟨stem, rfl⟩
    simp

theorem withoutSuffix?_eq_some {ending text stem : String} :
    withoutSuffix? ending text = some stem ↔ text = stem ++ ending := by
  rw [withoutSuffix?, Option.map_eq_some_iff]
  constructor
  · rintro ⟨chars, found, rfl⟩
    rw [List.isSuffixOf?_eq_some_iff_append_eq] at found
    simp [String.ext_iff, found]
  · rintro rfl
    exact ⟨stem.toList, by simp [List.isSuffixOf?_eq_some_iff_append_eq], by simp⟩

theorem withoutSuffix?_eq_none {ending text : String} :
    withoutSuffix? ending text = none ↔ ¬ ending.toList <:+ text.toList := by
  rw [← List.isSuffixOf_iff_suffix, ← hasSuffix, hasSuffix_iff, Option.eq_none_iff_forall_ne_some]
  simp only [ne_eq, withoutSuffix?_eq_some, not_exists]

end TableModels.Text
