import TableModels.Code.Formatted
import TableModels.Proofs.NumberText
import TableModels.Proofs.TokenText

/-! Statements in text. Their tokens are words of their own, numbers, quoted texts and marks, which run together
nowhere, so each line of a statement is read from code to code and has no other words. -/

namespace TableModels.Code

variable {allowed : List Char → Prop}

namespace Legible

theorem nil : Legible allowed [] := ⟨nofun, .nil⟩

theorem single {token : Token} (own : token.Legible allowed) : Legible allowed [token] :=
  ⟨by simpa using own, .singleton _⟩

theorem append {tokens more : List Token} (first : Legible allowed tokens) (second : Legible allowed more)
    (begins : ∀ token ∈ more.head?, token.Begins) : Legible allowed (tokens ++ more) where
  each := List.forall_mem_append.mpr ⟨first.each, second.each⟩
  apart := first.apart.append second.apart fun _ _ token member => .inl (begins token member)

theorem cons {token : Token} {tokens : List Token} (own : token.Legible allowed) (ends : token.Ends)
    (others : Legible allowed tokens) :
    Legible allowed (token :: tokens) where
  each := List.forall_mem_cons.mpr ⟨own, others.each⟩
  apart := others.apart.cons fun _ _ => .inr ends

theorem afterBlank {tokens : List Token} (whole : Legible allowed tokens) :
    Legible allowed (Token.afterBlank tokens) := by
  cases tokens with
  | nil => exact nil
  | cons first rest =>
    obtain ⟨own, others⟩ := List.forall_mem_cons.mp whole.each
    refine ⟨List.forall_mem_cons.mpr ⟨⟨own.filled, own.reads, fun _ _ _ => rfl⟩, others⟩, ?_⟩
    exact whole.apart.tail.cons fun second member => whole.apart.rel_head? member

theorem separated {items : List (List Token)} (each : ∀ item ∈ items, Legible allowed item) :
    Legible allowed (Token.separated items) := by
  induction items using Token.separated.induct with
  | case1 =>
    rw [Token.separated]
    exact nil
  | case2 item =>
    rw [Token.separated]
    exact each item List.mem_cons_self
  | case3 item rest some ih =>
    rw [List.map_attach_eq_pmap, List.pmap_eq_map] at ih
    obtain ⟨own, others⟩ := List.forall_mem_cons.mp each
    have later : ∀ more ∈ rest.map Token.afterBlank, Legible allowed more := by
      intro spaced member
      obtain ⟨more, inside, rfl⟩ := List.mem_map.mp member
      exact (others more inside).afterBlank
    have begins : ∀ token ∈ (Token.comma :: Token.separated (rest.map Token.afterBlank)).head?, token.Begins := by
      rintro _ ⟨⟩
      exact .inr free_comma
    rw [Token.separated]
    · exact own.append (.cons Token.legible_comma ends_comma (ih later)) begins
    · exact some

end Legible

structure IsMark (text : String) (c : Char) : Prop where
  chars : text.toList = [c]
  known : c ∈ punctuation

namespace IsMark

variable {text : String} {c : Char} (mark : IsMark text c)

include mark

theorem legible {kind : TokenKind} {spaced : Bool}
    (blank : ∀ bracket, kind = .opening bracket → bracket.optional = true → spaced = true) :
    Token.Legible allowed ⟨kind, text, spaced⟩ :=
  ⟨by simp [mark.chars], by simpa only [mark.chars] using reads_mark mark.known, blank⟩

theorem legible_word : (Token.word text).Legible allowed := mark.legible nofun

theorem free : Free text.toList := mark.chars ▸ free_mark mark.known

theorem loose : Loose text.toList := mark.chars ▸ loose_mark mark.known

end IsMark

/-- Brackets keep what is inside apart from what is around them. -/
theorem Gives.enclosed {opening closing : String} {first last : Char} (opens : IsMark opening first)
    (closes : IsMark closing last)
    {optional explodes spaced : Bool} (blank : optional = true → spaced = true) {inside : Numbered (List Token)}
    (legible : Gives inside (Legible allowed)) :
    Gives (Token.enclosed opening closing optional explodes spaced inside) fun tokens =>
      Legible allowed tokens ∧ ∀ token ∈ tokens.head?, token.Begins := by
  rw [Token.enclosed]
  refine .bind (.any _) fun pair _ => .bind (.any _) fun _ _ => .bind legible fun tokens whole => .pure ⟨?_, ?_⟩
  · refine .cons (opens.legible ?_) ⟨opens.loose, rfl⟩ (whole.append (.single (closes.legible nofun)) ?_)
    · rintro _ ⟨⟩
      exact blank
    · rintro _ ⟨⟩
      exact .inr closes.free
  · rintro _ ⟨⟩
    exact .inr opens.free

theorem Gives.round {optional explodes spaced : Bool} (blank : optional = true → spaced = true)
    {inside : Numbered (List Token)}
    (legible : Gives inside (Legible allowed)) :
    Gives (Token.enclosed "(" ")" optional explodes spaced inside) fun tokens =>
      Legible allowed tokens ∧ ∀ token ∈ tokens.head?, token.Begins :=
  .enclosed (⟨rfl, by decide⟩ : IsMark "(" '(') (⟨rfl, by decide⟩ : IsMark ")" ')') blank legible

private theorem Gives.square {explodes : Bool} {inside : Numbered (List Token)}
    (legible : Gives inside (Legible allowed)) :
    Gives (Token.enclosed "[" "]" false explodes false inside) fun tokens => Legible allowed tokens ∧
      ∀ token ∈ tokens.head?, token.Begins :=
  .enclosed (⟨rfl, by decide⟩ : IsMark "[" '[') (⟨rfl, by decide⟩ : IsMark "]" ']') id legible

structure Spelled (allowed : List Char → Prop) (word : String) : Prop where
  filled : word.toList ≠ []
  each : ∀ c ∈ word.toList, isWordChar c = true
  allows : allowed word.toList

theorem Spelled.legible {word : String} (own : Spelled allowed word) (spaced : Bool) :
    (Token.word word spaced).Legible allowed :=
  ⟨own.filled, reads_word own.each fun _ => own.allows, nofun⟩

private theorem Spelled.legible_dotted {word : String} (own : Spelled allowed word) (level : Nat) :
    (Token.word (dots level ++ word) true).Legible allowed := by
  have chars : (dots level ++ word).toList = List.replicate level '.' ++ word.toList := by
    rw [String.toList_append, dots, String.toList_ofList]
  have same : words (List.replicate level '.' ++ word.toList) = [word.toList] := by
    have alone : words word.toList = [word.toList] := wordsFrom_solid (.inr own.filled) own.each
    induction level with
    | zero => exact alone
    | succ level ih => exact ih (by rw [String.toList_append, dots, String.toList_ofList])
  refine ⟨?_, ?_, nofun⟩
  · rw [Token.word, chars]
    simp [own.filled]
  · rw [Token.word, chars]
    refine reads_plain
      (List.forall_mem_append.mpr ⟨fun c member => .inr ?_, fun c member => .inl (own.each c member)⟩) ?_
    · rw [List.eq_of_mem_replicate member]
      decide
    · rw [same]
      exact List.forall_mem_singleton.mpr own.allows

private theorem legible_quoted (value : String) : (Token.word (layoutQuoted value)).Legible allowed where
  filled := by simp [Token.word, layoutQuoted]
  reads := by
    rw [Token.word, layoutQuoted, String.toList_ofList]
    exact reads_quoted (by split <;> rfl) _
  spaced := nofun

/-- A word that begins with a digit. -/
def IsFigure (word : List Char) : Prop := ∃ c rest, word = c :: rest ∧ Text.isAsciiDigit c = true

def startsInDigits (inWord : Bool) : List Char → Bool
  | [] => true
  | c :: rest => (inWord || !isWordChar c || Text.isAsciiDigit c) && startsInDigits (isWordChar c) rest

private theorem figure_of_startsInDigits {word chars : List Char} (led : startsInDigits (!word.isEmpty) chars = true)
    (own : word = [] ∨ IsFigure word.reverse) :
    ∀ other ∈ wordsFrom word chars, IsFigure other := by
  induction chars generalizing word with
  | nil =>
    rw [wordsFrom]
    split
    · exact List.forall_mem_nil _
    · rename_i some
      exact List.forall_mem_singleton.mpr (own.resolve_left (by simpa using some))
  | cons c rest ih =>
    obtain ⟨first, later⟩ := Bool.and_eq_true_iff.mp led
    rw [wordsFrom]
    split
    · rename_i inside
      refine ih (by rw [inside] at later; simpa using later) (.inr ?_)
      rw [List.reverse_cons]
      rcases own with rfl | ⟨d, others, same, digit⟩
      · exact ⟨c, [], rfl, by simpa [inside] using first⟩
      · exact ⟨d, others ++ [c], by rw [same]; rfl, digit⟩
    · rename_i outside
      have later : startsInDigits false rest = true := by simpa [outside] using later
      split
      · exact ih later (.inl rfl)
      · rename_i some
        exact List.forall_mem_cons.mpr ⟨own.resolve_left (by simpa using some), ih later (.inl rfl)⟩

/-- The characters of a number without its sign. -/
structure IsNumeral (chars : List Char) : Prop where
  filled : chars ≠ []
  unsigned : chars.head? ≠ some '-'
  marks : ∀ c ∈ chars, isWordChar c = true ∨ c ∈ punctuation
  led : startsInDigits false chars = true

private theorem wordChar_of_isDigit {c : Char} (digit : c.isDigit = true) : isWordChar c = true :=
  wordChar_of_alphanumeric (by simp [Text.isAsciiAlphanumeric, Number.isAsciiDigit_of_isDigit digit])

private theorem startsInDigits_append {digits : List Char} (some : digits ≠ [])
    (each : ∀ c ∈ digits, c.isDigit = true) (inWord : Bool) (rest : List Char) :
    startsInDigits inWord (digits ++ rest) = startsInDigits true rest := by
  induction digits generalizing inWord with
  | nil => exact absurd rfl some
  | cons c others ih =>
    obtain ⟨digit, each⟩ := List.forall_mem_cons.mp each
    have word := wordChar_of_isDigit digit
    simp only [List.cons_append, startsInDigits, Number.isAsciiDigit_of_isDigit digit, word,
      Bool.or_true, Bool.true_and]
    cases others with
    | nil => rfl
    | cons d others => exact ih (List.cons_ne_nil _ _) each true

private theorem isNumeral_of_all {text : List Char} (filled : text ≠ []) (unsigned : text.head? ≠ some '-')
    (marks : (text.all fun c => isWordChar c || punctuation.contains c) = true)
    (led : startsInDigits false text = true) : IsNumeral text where
  filled := filled
  unsigned := unsigned
  marks c member := by simpa using List.all_eq_true.mp marks c member
  led := led

private theorem isNumeral_append {digits rest : List Char} (some : digits ≠ []) (each : ∀ c ∈ digits, c.isDigit = true)
    (marks : ∀ c ∈ rest, isWordChar c = true ∨ c ∈ punctuation) (led : startsInDigits true rest = true) :
    IsNumeral (digits ++ rest) where
  filled := by simp [some]
  unsigned := by
    rw [List.head?_append_of_ne_nil _ some]
    intro first
    exact absurd (each _ (List.mem_of_head? first)) (by decide)
  marks := List.forall_mem_append.mpr ⟨fun c member => .inl (wordChar_of_isDigit (each c member)), marks⟩
  led := by rwa [startsInDigits_append some each]

private theorem startsInDigits_digits {digits : List Char} (each : ∀ c ∈ digits, c.isDigit = true) (inWord : Bool) :
    startsInDigits inWord digits = true := by
  cases digits with
  | nil => rfl
  | cons c rest => simpa [startsInDigits] using startsInDigits_append (List.cons_ne_nil c rest) each inWord []

private theorem marks_digits {digits : List Char} (each : ∀ c ∈ digits, c.isDigit = true) :
    ∀ c ∈ digits, isWordChar c = true ∨ c ∈ punctuation :=
  fun c member => .inl (wordChar_of_isDigit (each c member))

private theorem isNumeral_digits {digits : List Char} (some : digits ≠ []) (each : ∀ c ∈ digits, c.isDigit = true) :
    IsNumeral digits := by
  have whole : IsNumeral (digits ++ []) := isNumeral_append some each nofun rfl
  rwa [List.append_nil] at whole

private theorem isNumeral_toDigits (n : Nat) : IsNumeral (Nat.toDigits 10 n) := by
  obtain ⟨c, rest, same, _⟩ := Number.exists_cons_toDigits n
  exact isNumeral_digits (by simp [same]) (Number.digits_toDigits n)

private theorem isNumeral_pointed {whole fraction : List Char} (some : whole ≠ [])
    (each : ∀ c ∈ whole ++ fraction, c.isDigit = true) :
    IsNumeral (whole ++ '.' :: fraction) := by
  obtain ⟨before, after⟩ := List.forall_mem_append.mp each
  refine isNumeral_append some before (List.forall_mem_cons.mpr ⟨.inr (by decide), marks_digits after⟩) ?_
  simpa [startsInDigits] using startsInDigits_digits after (isWordChar '.')

private theorem unsigned_digits {digits : List Char} (each : ∀ c ∈ digits, c.isDigit = true) :
    digits.filter (· != '+') = digits := by
  refine List.filter_eq_self.mpr fun c member => ?_
  rw [bne_iff_ne]
  rintro rfl
  exact absurd (each _ member) (by decide)

private theorem exponent_led {size : List Char} (each : ∀ c ∈ size, c.isDigit = true) (negative : Bool) :
    (∀ c ∈ 'e' :: ((if negative then ['-'] else []) ++ size), isWordChar c = true ∨ c ∈ punctuation) ∧
      startsInDigits true ('e' :: ((if negative then ['-'] else []) ++ size)) = true := by
  have letter : isWordChar 'e' = true := by decide
  have mark : isWordChar '-' = false := by decide
  constructor
  · refine List.forall_mem_cons.mpr ⟨.inl letter, List.forall_mem_append.mpr ⟨?_, marks_digits each⟩⟩
    cases negative
    · exact nofun
    · exact List.forall_mem_singleton.mpr (.inr (by decide))
  · cases negative <;> simp [startsInDigits, letter, mark, startsInDigits_digits each]

private theorem isNumeral_withExponent {digits : List Char} (each : ∀ c ∈ digits, c.isDigit = true) (exponent : Int) :
    IsNumeral ((Binary64.withExponent digits exponent).filter (· != '+')) := by
  generalize size : Binary64.zeros (2 - (Nat.toDigits 10 exponent.natAbs).length) ++ Nat.toDigits 10 exponent.natAbs =
    places
  have sized : ∀ c ∈ places, c.isDigit = true := by
    rw [← size]
    exact List.forall_mem_append.mpr ⟨Binary64.isDigit_zeros, Number.digits_toDigits _⟩
  have sign : ('e' :: (if exponent < 0 then '-' else '+') :: places).filter (· != '+') =
      'e' :: ((if decide (exponent < 0) then ['-'] else []) ++ places) := by
    by_cases negative : exponent < 0 <;> simpa [negative] using unsigned_digits sized
  obtain ⟨marks, led⟩ := exponent_led sized (decide (exponent < 0))
  rw [Binary64.withExponent.eq_def]
  dsimp only
  rw [size, List.filter_append, sign]
  cases digits with
  | nil => exact isNumeral_append (List.cons_ne_nil '0' []) (List.forall_mem_singleton.mpr rfl) marks led
  | cons first rest =>
    obtain ⟨digit, others⟩ := List.forall_mem_cons.mp each
    have own : ∀ c ∈ [first], c.isDigit = true := List.forall_mem_singleton.mpr digit
    cases rest with
    | nil =>
      rw [unsigned_digits own]
      exact isNumeral_append (List.cons_ne_nil _ _) own marks led
    | cons second rest =>
      have mantissa : (first :: '.' :: second :: rest).filter (· != '+') = [first] ++ '.' :: second :: rest := by
        rw [← List.singleton_append, List.filter_append, unsigned_digits own, List.filter_cons_of_pos (by decide),
          unsigned_digits others]
      rw [mantissa, List.append_assoc]
      refine isNumeral_append (List.cons_ne_nil _ _) own ?_ ?_
      · rw [List.cons_append]
        exact List.forall_mem_cons.mpr ⟨.inr (by decide), List.forall_mem_append.mpr ⟨marks_digits others, marks⟩⟩
      · have point : isWordChar '.' = false := by decide
        rw [List.cons_append, startsInDigits, startsInDigits_append (List.cons_ne_nil _ _) others, led, point]
        rfl

private theorem isNumeral_magnitude (mantissa : Nat) (exponent : Int) :
    IsNumeral ((Binary64.magnitudeText mantissa exponent).filter (· != '+')) := by
  rw [Binary64.magnitudeText]
  split
  · exact isNumeral_of_all (by decide) (by decide) (by decide) (by decide)
  · have each := Number.digits_toDigits (Binary64.shortest mantissa exponent).digits
    dsimp only
    split
    · exact isNumeral_withExponent each _
    · obtain ⟨whole, fraction, text, pointed⟩ :=
        Binary64.positional_pointed each (Binary64.shortest mantissa exponent).exponent
      obtain ⟨before, after⟩ := List.forall_mem_append.mp pointed.each
      rw [text, List.filter_append, List.filter_cons_of_pos (by decide), unsigned_digits before, unsigned_digits after]
      exact isNumeral_pointed pointed.begins pointed.each

theorem IsNumeral.legible {text : String} (numeral : IsNumeral text.toList)
    (figures : ∀ word, IsFigure word → allowed word) :
    (Token.word text).Legible allowed where
  filled := numeral.filled
  reads := by
    have each : ∀ word ∈ words text.toList, IsFigure word := figure_of_startsInDigits numeral.led (.inl rfl)
    exact reads_plain numeral.marks fun word member => figures word (each word member)
  spaced := nofun

private theorem legible_numberTokens {text : String} {negative : Bool} {digits : List Char}
    (same : text.toList = Number.withSign negative digits)
    (numeral : IsNumeral digits) (figures : ∀ word, IsFigure word → allowed word) :
    Legible allowed (numberTokens text) := by
  cases negative with
  | true =>
    have minus : IsMark "-" '-' := ⟨rfl, by decide⟩
    have split : numberTokens text = [.word "-", .word (String.ofList digits)] := by
      rw [numberTokens, same]
      rfl
    rw [split]
    exact .cons (minus.legible_word) ⟨minus.loose, rfl⟩
      (.single (IsNumeral.legible (by rwa [String.toList_ofList]) figures))
  | false =>
    have whole : numberTokens text = [.word text] := by
      rw [numberTokens, same, Number.withSign, if_neg Bool.false_ne_true]
      split
      · exact absurd rfl numeral.unsigned
      · rfl
    rw [whole]
    exact .single (IsNumeral.legible (by rwa [same]) figures)

private theorem numeral_of_int (value : Int) :
    ∃ negative digits, (toString value).toList = Number.withSign negative digits ∧ IsNumeral digits :=
  ⟨_, _, Number.toList_toString_int value, isNumeral_toDigits _⟩

private theorem numeral_of_float (value : Binary64) :
    ∃ negative digits, (layoutFloat value).toList = Number.withSign negative digits ∧ IsNumeral digits := by
  rw [layoutFloat, String.toList_ofList, floatText]
  cases value with
  | finite negative mantissa exponent =>
    refine ⟨negative, _, ?_, isNumeral_magnitude mantissa exponent⟩
    rw [Binary64.render]
    cases negative <;> simp [Number.withSign]
  | infinite negative =>
    refine ⟨negative, "1e309".toList, ?_, isNumeral_of_all (by decide) (by decide) (by decide) (by decide)⟩
    cases negative <;> rfl
  | notANumber =>
    exact ⟨false, "(1e309-1e309)".toList, rfl, isNumeral_of_all (by decide) (by decide) (by decide) (by decide)⟩

mutual
/-- The words that an expression is written with, apart from numbers. -/
def Expr.vocabulary : Expr → List String
  | .name id => [id]
  | .truth value => [if value then "True" else "False"]
  | .nothing => ["None"]
  | .list items => vocabularyOfItems items
  | .attribute value member => value.vocabulary ++ [member]
  | .subscript value indices => value.vocabulary ++ vocabularyOfItems indices
  | .call function arguments keywords =>
    function.vocabulary ++ vocabularyOfItems arguments ++ vocabularyOfKeywords keywords
  | _ => []

def vocabularyOfItems : List Expr → List String
  | [] => []
  | item :: rest => item.vocabulary ++ vocabularyOfItems rest

def vocabularyOfKeywords : List (String × Expr) → List String
  | [] => []
  | (keyword, value) :: rest => keyword :: value.vocabulary ++ vocabularyOfKeywords rest
end

def Statement.vocabulary : Statement → List String
  | .importModule module => ["import", module]
  | .importFrom _ module names => "from" :: module :: "import" :: names
  | .assign target value => target :: value.vocabulary
  | .declare target type value => target :: type.vocabulary ++ (value.map Expr.vocabulary).getD []
  | .evaluate value => value.vocabulary

mutual
private theorem Expr.tokens_legible (figures : ∀ word, IsFigure word → allowed word) (expr : Expr)
    (spelled : ∀ word ∈ expr.vocabulary, Spelled allowed word) :
    Gives expr.tokens (Legible allowed) := by
  match expr, spelled with
  | .name id, spelled =>
    rw [Expr.tokens]
    exact .pure (.single ((spelled id List.mem_cons_self).legible false))
  | .text value, _ =>
    rw [Expr.tokens]
    exact .pure (.single (legible_quoted value))
  | .int value, _ =>
    obtain ⟨negative, digits, same, numeral⟩ := numeral_of_int value
    rw [Expr.tokens]
    exact .pure (legible_numberTokens same numeral figures)
  | .float value, _ =>
    obtain ⟨negative, digits, same, numeral⟩ := numeral_of_float value
    rw [Expr.tokens]
    exact .pure (legible_numberTokens same numeral figures)
  | .truth value, spelled =>
    rw [Expr.tokens]
    exact .pure (.single ((spelled _ List.mem_cons_self).legible false))
  | .nothing, spelled =>
    rw [Expr.tokens]
    exact .pure (.single ((spelled _ List.mem_cons_self).legible false))
  | .emptyTuple, _ =>
    rw [Expr.tokens]
    exact fun pair => (Gives.round id (.pure .nil) pair).1
  | .list items, spelled =>
    rw [Expr.vocabulary] at spelled
    rw [Expr.tokens]
    exact fun pair =>
      (Gives.square ((itemTokens_legible figures items spelled).bind fun _ each => .pure (.separated each)) pair).1
  | .attribute value member, spelled =>
    rw [Expr.vocabulary] at spelled
    obtain ⟨own, last⟩ := List.forall_mem_append.mp spelled
    have point : IsMark "." '.' := ⟨rfl, by decide⟩
    rw [Expr.tokens]
    refine (Expr.tokens_legible figures value own).bind fun tokens whole => .pure (whole.append ?_ ?_)
    · exact .cons (point.legible_word) ⟨point.loose, rfl⟩ (.single ((last member List.mem_cons_self).legible false))
    · rintro _ ⟨⟩
      exact .inr point.free
  | .subscript value indices, spelled =>
    rw [Expr.vocabulary] at spelled
    obtain ⟨own, others⟩ := List.forall_mem_append.mp spelled
    rw [Expr.tokens]
    refine (Expr.tokens_legible figures value own).bind fun tokens whole => ?_
    have inside := itemTokens_legible figures indices others
    exact (Gives.square (inside.bind fun _ each => .pure (.separated each))).bind
      fun more both => .pure (whole.append both.1 both.2)
  | .call function arguments keywords, spelled =>
    rw [Expr.vocabulary] at spelled
    obtain ⟨own, named⟩ := List.forall_mem_append.mp spelled
    obtain ⟨own, given⟩ := List.forall_mem_append.mp own
    rw [Expr.tokens]
    refine (Expr.tokens_legible figures function own).bind fun tokens whole => ?_
    have inside := itemTokens_legible figures arguments given
    have others := keywordTokens_legible figures keywords named
    have both : ∀ items more, (∀ item ∈ items, Legible allowed item) → (∀ item ∈ more, Legible allowed item) →
        Legible allowed (Token.separated (items ++ more)) :=
          fun items more each rest => .separated (List.forall_mem_append.mpr ⟨each, rest⟩)
    have within := inside.bind fun items each => others.bind fun more rest => .pure (both items more each rest)
    exact (Gives.round id within).bind fun more both => .pure (whole.append both.1 both.2)

private theorem itemTokens_legible (figures : ∀ word, IsFigure word → allowed word) (items : List Expr)
    (spelled : ∀ word ∈ vocabularyOfItems items, Spelled allowed word) :
    Gives (Expr.itemTokens items) fun each => ∀ item ∈ each, Legible allowed item := by
  match items, spelled with
  | [], _ =>
    rw [Expr.itemTokens]
    exact .pure nofun
  | item :: rest, spelled =>
    rw [vocabularyOfItems] at spelled
    obtain ⟨own, others⟩ := List.forall_mem_append.mp spelled
    rw [Expr.itemTokens]
    refine (Expr.tokens_legible figures item own).bind
      fun tokens whole => (itemTokens_legible figures rest others).bind fun more each => ?_
    exact .pure (List.forall_mem_cons.mpr ⟨whole, each⟩)

private theorem keywordTokens_legible (figures : ∀ word, IsFigure word → allowed word) (keywords : List (String × Expr))
    (spelled : ∀ word ∈ vocabularyOfKeywords keywords, Spelled allowed word) :
    Gives (Expr.keywordTokens keywords) fun each => ∀ item ∈ each, Legible allowed item := by
  match keywords, spelled with
  | [], _ =>
    rw [Expr.keywordTokens]
    exact .pure nofun
  | (keyword, value) :: rest, spelled =>
    rw [vocabularyOfKeywords] at spelled
    obtain ⟨own, others⟩ := List.forall_mem_append.mp spelled
    obtain ⟨first, own⟩ := List.forall_mem_cons.mp own
    have equals : IsMark "=" '=' := ⟨rfl, by decide⟩
    rw [Expr.keywordTokens]
    refine (Expr.tokens_legible figures value own).bind
      fun tokens whole => (keywordTokens_legible figures rest others).bind fun more each => ?_
    have item : Legible allowed ([.word keyword] ++ ⟨.equals, "=", false⟩ :: tokens) := by
      refine (Legible.single (first.legible false)).append (.cons (equals.legible nofun) ⟨equals.loose, rfl⟩ whole) ?_
      rintro _ ⟨⟩
      exact .inr equals.free
    exact .pure (List.forall_mem_cons.mpr ⟨item, each⟩)
end

section

variable (figures : ∀ word, IsFigure word → allowed word)

include figures

private theorem valueTokens_legible {value : Expr} (spelled : ∀ word ∈ value.vocabulary, Spelled allowed word) :
    Gives (Statement.valueTokens value) fun tokens => Legible allowed tokens ∧ ∀ token ∈ tokens.head?,
      token.Begins := by
  have equals : IsMark "=" '=' := ⟨rfl, by decide⟩
  have inside := Expr.tokens_legible figures value spelled
  rw [Statement.valueTokens]
  refine (Gives.round (fun _ => rfl) inside).bind
    fun tokens both => .pure ⟨.cons (equals.legible nofun) ⟨equals.loose, rfl⟩ both.1, ?_⟩
  rintro _ ⟨⟩
  exact .inl rfl

private theorem Statement.tokens_legible (statement : Statement)
    (spelled : ∀ word ∈ statement.vocabulary, Spelled allowed word) :
    Gives statement.tokens (Legible allowed) := by
  have colon : IsMark ":" ':' := ⟨rfl, by decide⟩
  cases statement with
  | importModule module =>
    rw [Statement.tokens]
    obtain ⟨own, provider⟩ := List.forall_mem_cons.mp spelled
    refine .pure
      ((Legible.single (own.legible false)).append (.single ((provider module List.mem_cons_self).legible true)) ?_)
    rintro _ ⟨⟩
    exact .inl rfl
  | importFrom level module names =>
    rw [Statement.vocabulary] at spelled
    simp only [List.forall_mem_cons] at spelled
    obtain ⟨source, provider, provides, each⟩ := spelled
    have start : Legible allowed [.word "from", .word (dots level ++ module) true, .word "import" true] := by
      refine ⟨?_, .cons_cons (.inl (.inl rfl)) (.cons_cons (.inl (.inl rfl)) (.singleton _))⟩
      simp only [List.forall_mem_cons]
      exact ⟨source.legible false, provider.legible_dotted level, provides.legible true, List.forall_mem_nil _⟩
    have listed : Legible allowed (Token.separated (names.map fun name => [.word name])) := by
      refine .separated fun item member => ?_
      obtain ⟨name, inside, rfl⟩ := List.mem_map.mp member
      exact .single ((each name inside).legible false)
    rw [Statement.tokens]
    exact (Gives.round (fun _ => rfl) (.pure listed)).bind fun tokens both => .pure (start.append both.1 both.2)
  | assign target value =>
    obtain ⟨own, others⟩ := List.forall_mem_cons.mp spelled
    rw [Statement.tokens]
    refine (valueTokens_legible figures others).bind fun tokens both => .pure ?_
    exact (Legible.single (own.legible false)).append both.1 both.2
  | declare target type value? =>
    rw [Statement.vocabulary] at spelled
    obtain ⟨declared, given⟩ := List.forall_mem_append.mp spelled
    obtain ⟨own, inside⟩ := List.forall_mem_cons.mp declared
    have begins : ∀ tokens : List Token, ∀ token ∈ (Token.word ":" :: tokens).head?, token.Begins := by
      rintro tokens _ ⟨⟩
      exact .inr colon.free
    rw [Statement.tokens]
    refine (Gives.round (fun _ => rfl) (Expr.tokens_legible figures type inside)).bind fun tokens both => ?_
    have declared : Legible allowed (.word target :: .word ":" :: tokens) :=
      (Legible.single (own.legible false)).append (.cons (colon.legible_word) ⟨colon.loose, rfl⟩ both.1) (begins tokens)
    cases value? with
    | none => exact .pure declared
    | some value =>
      exact (valueTokens_legible figures given).bind fun tokens both => .pure (declared.append both.1 both.2)
  | evaluate value =>
    rw [Statement.tokens]
    exact Expr.tokens_legible figures value spelled

/-- Every line of a statement is read from code to code. -/
theorem Statement.reads_layout (statement : Statement) (spelled : ∀ word ∈ statement.vocabulary, Spelled allowed word)
    (depth : Nat) :
    ∀ line ∈ statement.layout depth, Reads allowed line.toList := by
  have legible := statement.tokens_legible figures spelled 0
  obtain ⟨shown, first, rest, same, _, _, each⟩ := layout_lines legible_lasting depth statement.isImport legible
  rw [Statement.layout, same]
  intro text member
  obtain ⟨line, inside, rfl⟩ := List.mem_map.mp member
  exact line.reads_text (each line inside) shown

end

end TableModels.Code
