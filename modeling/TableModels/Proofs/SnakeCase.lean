import Mathlib.Data.List.Chain
import TableModels.Naming.Words
import TableModels.Proofs.LowerCase

/-! Snake case. The underscores that part words come and go, and no other character of a name is lost, added or moved.
What has no capitals has no words to part, so writing a name twice is the same as writing it once. -/

namespace TableModels.Naming

open Text

def withoutUnderscores (chars : List Char) : List Char := chars.filter (· != '_')

private theorem withoutUnderscores_underscore (rest : List Char) :
    withoutUnderscores ('_' :: rest) = withoutUnderscores rest := rfl

private theorem withoutUnderscores_cons {first second : List Char}
    (same : withoutUnderscores first = withoutUnderscores second) (c : Char) :
    withoutUnderscores (c :: first) = withoutUnderscores (c :: second) := by
  rw [withoutUnderscores, withoutUnderscores] at same ⊢
  rw [List.filter_cons, List.filter_cons, same]

private theorem withoutUnderscores_between {first second : List Char}
    (same : withoutUnderscores first = withoutUnderscores second) (c : Char) :
    withoutUnderscores (c :: '_' :: first) = withoutUnderscores (c :: second) := withoutUnderscores_cons same c

private theorem withoutUnderscores_markCapitalised (inWord : Bool) (chars : List Char) :
    withoutUnderscores (markCapitalised inWord chars) = withoutUnderscores chars := by
  fun_induction markCapitalised inWord chars with
  | case1 => rfl
  | case2 => rfl
  | case3 inWord c next rest _ ih => exact withoutUnderscores_cons ih c
  | case4 inWord c next rest _ _ ih => exact withoutUnderscores_between (withoutUnderscores_cons ih next) c
  | case5 inWord c next rest _ _ ih => exact withoutUnderscores_cons ih c

private theorem withoutUnderscores_mergeUnderscores (chars : List Char) :
    withoutUnderscores (mergeUnderscores chars) = withoutUnderscores chars := by
  fun_induction mergeUnderscores chars with
  | case1 c rest _ ih =>
    rw [withoutUnderscores_underscore, withoutUnderscores_underscore, withoutUnderscores_underscore]
    exact withoutUnderscores_cons ih c
  | case2 c rest _ ih => exact withoutUnderscores_cons ih '_'
  | case3 c rest _ ih => exact withoutUnderscores_cons ih c
  | case4 => rfl

private theorem withoutUnderscores_markCapitals (chars : List Char) :
    withoutUnderscores (markCapitals chars) = withoutUnderscores chars := by
  fun_induction markCapitals chars with
  | case1 c next rest _ ih => exact withoutUnderscores_between (withoutUnderscores_cons ih next) c
  | case2 c next rest _ ih => exact withoutUnderscores_cons ih c
  | case3 => rfl

private theorem withoutUnderscores_parted (chars : List Char) :
    withoutUnderscores (markCapitals (mergeUnderscores (markCapitalised false chars))) = withoutUnderscores chars := by
  rw [withoutUnderscores_markCapitals, withoutUnderscores_mergeUnderscores, withoutUnderscores_markCapitalised]

private theorem mem_of_withoutUnderscores {first second : List Char}
    (same : withoutUnderscores first = withoutUnderscores second) {c : Char}
    (member : c ∈ first) : c = '_' ∨ c ∈ second := by
  by_cases mark : c = '_'
  · exact .inl mark
  · have inside : c ∈ withoutUnderscores first := List.mem_filter.mpr ⟨member, bne_iff_ne.mpr mark⟩
    rw [same] at inside
    exact .inr (List.mem_filter.mp inside).1

section

variable {chars : List Char} (small : ∀ c ∈ chars, isAsciiUpper c = false)

include small

private theorem markCapitalised_small (inWord : Bool) : markCapitalised inWord chars = chars := by
  fun_induction markCapitalised inWord chars with
  | case1 => rfl
  | case2 => rfl
  | case3 inWord c next rest _ ih => rw [ih fun d member => small d (List.mem_cons_of_mem _ member)]
  | case4 inWord c next rest _ capital _ => simp [small next (by simp)] at capital
  | case5 inWord c next rest _ _ ih => rw [ih fun d member => small d (List.mem_cons_of_mem _ member)]

private theorem mergeUnderscores_small : mergeUnderscores chars = chars := by
  fun_induction mergeUnderscores chars with
  | case1 c rest capital _ => simp [small c (by simp)] at capital
  | case2 c rest _ ih => rw [ih fun d member => small d (List.mem_cons_of_mem _ member)]
  | case3 c rest _ ih => rw [ih fun d member => small d (List.mem_cons_of_mem _ member)]
  | case4 => rfl

private theorem markCapitals_small : markCapitals chars = chars := by
  fun_induction markCapitals chars with
  | case1 c next rest capital _ => simp [small next (by simp)] at capital
  | case2 c next rest _ ih => rw [ih fun d member => small d (List.mem_cons_of_mem _ member)]
  | case3 => rfl

end

theorem snakeChars_low {chars : List Char} (low : ∀ c ∈ chars, c.toNat < 0x80 ∧ isAsciiUpper c = false) :
    snakeChars chars = chars := by
  have small : ∀ c ∈ chars, isAsciiUpper c = false := fun c member => (low c member).2
  rw [snakeChars, markCapitalised_small small, mergeUnderscores_small small, markCapitals_small small,
    lowerChars, lowerFrom_low low]

private theorem toLower_eq_underscore {c : Char} (ascii : c.toNat < 0x80) : c.toLower = '_' ↔ c = '_' := by
  apply of_ascii _ ascii
  decide +kernel

section

variable {chars : List Char} (ascii : ∀ c ∈ chars, c.toNat < 0x80)

include ascii

private theorem withoutUnderscores_toLower :
    withoutUnderscores (chars.map Char.toLower) = (withoutUnderscores chars).map Char.toLower := by
  rw [withoutUnderscores, withoutUnderscores, List.filter_map]
  apply congrArg
  apply List.filter_congr
  intro c member
  simp only [Function.comp_apply, bne, Bool.beq_eq_decide_eq, toLower_eq_underscore (ascii c member)]

private theorem ascii_parted {c : Char} (member : c ∈ markCapitals (mergeUnderscores (markCapitalised false chars))) :
    c.toNat < 0x80 := by
  rcases mem_of_withoutUnderscores (withoutUnderscores_parted chars) member with rfl | inside
  · decide
  · exact ascii c inside

/-- The lower case of an ASCII name hangs on each character alone, so it may be taken after the words are parted. -/
private theorem snakeChars_ascii :
    snakeChars chars = (markCapitals (mergeUnderscores (markCapitalised false chars))).map Char.toLower :=
  lowerFrom_ascii (fun _ => ascii_parted ascii) []

end

/-- No capital follows a small letter or a digit. -/
def Parted (chars : List Char) : Prop :=
  chars.IsChain fun c next => (isAsciiLower c || isAsciiDigit c) = true → isAsciiUpper next = false

private theorem head?_markCapitals (chars : List Char) : (markCapitals chars).head? = chars.head? := by
  fun_induction markCapitals chars with
  | case1 => rfl
  | case2 => rfl
  | case3 => rfl

theorem not_small_of_isAsciiUpper {c : Char} (capital : isAsciiUpper c = true) :
    (isAsciiLower c || isAsciiDigit c) = false := by
  simp only [isAsciiUpper, isAsciiLower, isAsciiDigit, Bool.and_eq_true, decide_eq_true_eq, Bool.or_eq_false_iff,
    Bool.and_eq_false_iff, decide_eq_false_iff_not] at capital ⊢
  constructor
  · left
    intro small
    exact absurd (Char.le_trans small capital.2) (by decide)
  · right
    intro digit
    exact absurd (Char.le_trans capital.1 digit) (by decide)

private theorem parted_markCapitals (chars : List Char) : Parted (markCapitals chars) := by
  fun_induction markCapitals chars with
  | case1 c next rest capital ih =>
    rw [Bool.and_eq_true] at capital
    refine .cons_cons (fun _ => by decide) (.cons_cons (fun mark => absurd mark (by decide)) (.cons ih ?_))
    intro _ _ small
    rw [not_small_of_isAsciiUpper capital.2] at small
    cases small
  | case2 c next rest together ih =>
    refine .cons ih ?_
    intro first head small
    rw [head?_markCapitals] at head
    obtain rfl := Option.some.inj head
    simpa [small] using together
  | case3 chars short =>
    match chars, short with
    | [], _ => exact .nil
    | [c], _ => exact .singleton c
    | c :: next :: rest, short => exact absurd rfl (short c next rest)

/-- Of an ASCII name snake case is the lower case of a text that parts its words: but for underscores it has the
characters of the name, in their order, and it has no capital right after a small letter or a digit. So the result has
no capitals, is the name in lower case but for underscores, and stays as it is when it is written in snake case
again. -/
theorem snake_moves_underscores {name : String} (ascii : ∀ c ∈ name.toList, c.toNat < 0x80) :
    (∃ parted, snake name = String.ofList (parted.map Char.toLower) ∧ Parted parted ∧
        withoutUnderscores parted = withoutUnderscores name.toList) ∧
      (∀ c ∈ (snake name).toList, c.toNat < 0x80 ∧ isAsciiUpper c = false) ∧
      withoutUnderscores (snake name).toList = withoutUnderscores (lower name).toList ∧
        snake (snake name) = snake name := by
  have low : ∀ c ∈ (snake name).toList, c.toNat < 0x80 ∧ isAsciiUpper c = false := by
    rw [snake, String.toList_ofList, snakeChars_ascii ascii]
    intro c member
    obtain ⟨d, inside, rfl⟩ := List.mem_map.mp member
    exact low_toLower (ascii_parted ascii inside)
  refine ⟨⟨_, congrArg String.ofList (snakeChars_ascii ascii), parted_markCapitals _, withoutUnderscores_parted _⟩,
    low, ?_, ?_⟩
  · calc withoutUnderscores (snake name).toList
        = withoutUnderscores
            ((markCapitals (mergeUnderscores (markCapitalised false name.toList))).map Char.toLower) := by
          rw [snake, String.toList_ofList, snakeChars_ascii ascii]
      _ = (withoutUnderscores name.toList).map Char.toLower := by
          rw [withoutUnderscores_toLower (fun _ => ascii_parted ascii), withoutUnderscores_parted]
      _ = withoutUnderscores (lower name).toList := by
          rw [lower, String.toList_ofList, lowerChars, lowerFrom_ascii ascii, withoutUnderscores_toLower ascii]
  · rw [snake, snakeChars_low low, String.ofList_toList]

theorem snake_of_request : snake "XMLHttpRequest__ID2Go" = "xml_http_request_id2_go" ∧
    (∃ parted, "xml_http_request_id2_go" = String.ofList (parted.map Char.toLower) ∧ Parted parted ∧
      withoutUnderscores parted = withoutUnderscores "XMLHttpRequest__ID2Go".toList) ∧
    (∀ c ∈ "xml_http_request_id2_go".toList, c.toNat < 0x80 ∧ isAsciiUpper c = false) ∧
    withoutUnderscores "xml_http_request_id2_go".toList = withoutUnderscores (lower "XMLHttpRequest__ID2Go").toList ∧
    snake "xml_http_request_id2_go" = "xml_http_request_id2_go" := by
  have written : snake "XMLHttpRequest__ID2Go" = "xml_http_request_id2_go" := by decide +kernel
  have moves := snake_moves_underscores (by simp : ∀ c ∈ "XMLHttpRequest__ID2Go".toList, c.toNat < 0x80)
  rw [written] at moves
  exact ⟨written, moves⟩

end TableModels.Naming
