import Mathlib.Data.List.Infix
import TableModels.Code.Layout

/-! What laying out a statement keeps. Whatever way a line is split, the tokens of each part stand next to one another
in the line, but for a comma that may be put at the end. So what holds of the tokens of a statement and of all runs of
them, with such a comma or without, holds of the tokens of every line. The way to split at is looked for with a state
and given up at many places, which does not matter to what the parts are. -/

namespace TableModels.Code

/-- What a step with a state gives satisfies a condition. -/
def Gives {σ α : Type} (step : StateM σ α) (post : α → Prop) : Prop := ∀ state, post (step.run state).1

section

variable {σ α β : Type} {post : α → Prop} {last : β → Prop}

theorem Gives.pure {value : α} (holds : post value) : Gives (Pure.pure value : StateM σ α) post := fun _ => holds

theorem Gives.bind {step : StateM σ α} {next : α → StateM σ β} (first : Gives step post)
    (rest : ∀ value, post value → Gives (next value) last) :
    Gives (step >>= next) last := fun state => rest _ (first state) _

theorem Gives.any (step : StateM σ α) : Gives step fun _ => True := fun _ => trivial

end

namespace Attempt

variable {α β : Type} {post : α → Prop}

/-- What an attempt gives, if it is not given up, satisfies a condition. -/
def Yields (attempt : Attempt α) (post : α → Prop) : Prop :=
  ∀ shown value after, attempt.run.run shown = (some value, after) → post value

theorem Yields.pure {value : α} (holds : post value) : Yields (Pure.pure value) post := by
  intro shown other after same
  obtain rfl := Option.some.inj (Prod.mk.inj same).1
  exact holds

theorem Yields.failure : Yields failure post := by
  intro shown value after same
  cases (Prod.mk.inj same).1

theorem Yields.any (attempt : Attempt α) : Yields attempt fun _ => True := fun _ _ _ _ => trivial

private theorem Yields.of_option {value? : Option α} (holds : ∀ value, value? = some value → post value) :
    Yields (OptionT.mk (Pure.pure value?)) post := by
  intro shown value after same
  exact holds value (Prod.mk.inj same).1

theorem Yields.bind {attempt : Attempt α} {next : α → Attempt β} {last : β → Prop} (first : Yields attempt post)
    (rest : ∀ value, post value → Yields (next value) last) : Yields (attempt >>= next) last := by
  intro shown value after same
  have step : (attempt >>= next).run.run shown = match attempt.run.run shown with
      | (some value, middle) => (next value).run.run middle
      | (none, middle) => (none, middle) := by
    simp only [Bind.bind, OptionT.bind, OptionT.run, OptionT.mk, StateT.run, StateT.bind]
    rcases attempt shown with ⟨value?, middle⟩
    cases value? <;> rfl
  rw [step] at same
  split at same
  · rename_i value middle ran
    exact rest value (first _ _ _ ran) _ _ _ same
  · cases (Prod.mk.inj same).1

theorem Yields.mono {attempt : Attempt α} {last : α → Prop} (yields : Yields attempt post)
    (implies : ∀ value, post value → last value) :
    Yields attempt last := fun shown value after same => implies value (yields shown value after same)

theorem Yields.map {attempt : Attempt α} {change : α → β} {last : β → Prop}
    (yields : Yields attempt fun value => last (change value)) :
    Yields (change <$> attempt) last := by
  rw [map_eq_pure_bind]
  exact yields.bind fun _ holds => .pure holds

theorem Yields.outcome {attempt : Attempt α} (yields : Yields attempt post) :
    Yields (Code.outcome attempt) fun value? => ∀ value, value? = some value → post value := by
  intro shown value? after same value found
  subst found
  have ran : (Code.outcome attempt).run.run shown = ((some (attempt.run.run shown).1), (attempt.run.run shown).2) := rfl
  rw [ran] at same
  obtain ⟨first, second⟩ := Prod.mk.inj same
  exact yields shown value after (Prod.ext (Option.some.inj first) second)

theorem Yields.run {attempt : Attempt α} (yields : Yields attempt post) :
    Gives attempt.run fun value? => ∀ value, value? = some value → post value :=
  fun shown value found => yields shown value (attempt.run.run shown).2 (Prod.ext found rfl)

/-- Lines are tried for, and where that is given up another step is taken. -/
theorem Yields.orElse {post : List Line → Prop} {attempt : Attempt (List Line)} {otherwise : StateM Shown (List Line)}
    (yields : Yields attempt post)
    (other : Gives otherwise post) : Gives (do
      if let some lines ← attempt.run then return lines
      otherwise) post := by
  refine Gives.bind yields.run fun lines? holds => ?_
  cases lines? with
  | some lines => exact .pure (holds lines rfl)
  | none => exact other

theorem Yields.lift {step : StateM Shown α} (gives : Gives step post) : Yields (liftM step) post := by
  intro shown value after same
  have ran : (liftM step : Attempt α).run.run shown = (some (step.run shown).1, (step.run shown).2) := rfl
  rw [ran] at same
  exact Option.some.inj (Prod.mk.inj same).1 ▸ gives shown

end Attempt

/-- Conditions on tokens that hold of all that stand next to one another where they hold, with a comma at the end or
without. -/
structure Lasting (holds : List Token → Prop) : Prop where
  within : ∀ {tokens piece}, holds tokens → piece <:+: tokens → holds piece
  comma : ∀ {tokens}, holds tokens → holds (tokens ++ [.comma])

theorem Lasting.withFinalComma {holds : List Token → Prop} (lasting : Lasting holds) {tokens : List Token}
    (whole : holds tokens) :
    holds (withFinalComma tokens) := by
  rw [Code.withFinalComma]
  split
  · exact whole
  · exact lasting.comma whole

private theorem head?_withFinalComma {tokens : List Token} (some : tokens ≠ []) :
    (withFinalComma tokens).head? = tokens.head? := by
  rw [withFinalComma]
  split
  · rfl
  · exact List.head?_append_of_ne_nil _ some

/-- The lines that a line is split into: a condition lasts, and the first of them begins as the line does. -/
structure Kept (holds : List Token → Prop) (line : Line) (lines : List Line) : Prop where
  each : ∀ part ∈ lines, holds part.tokens
  opens : ∃ first rest, lines = first :: rest ∧ first.depth = line.depth ∧ first.tokens.head? = line.tokens.head?

theorem Kept.refl {holds : List Token → Prop} {line : Line} (whole : holds line.tokens) : Kept holds line [line] :=
  ⟨by simpa using whole, line, [], rfl, rfl, rfl⟩

private theorem infix_of_commaPieces {depth : Nat} {done tokens piece : List Token}
    (member : piece ∈ commaPieces depth done tokens) :
    piece <:+: done.reverse ++ tokens ∧ piece ≠ [] := by
  induction tokens generalizing depth done with
  | nil =>
    rw [commaPieces] at member
    split at member
    · cases member
    · rename_i some
      obtain rfl := List.mem_singleton.mp member
      exact ⟨by simp, by simpa using some⟩
  | cons token rest ih =>
    have onward : ∀ {depth}, piece ∈ commaPieces depth (token :: done) rest → piece <:+: done.reverse ++ token ::
        rest ∧ piece ≠ [] := by
      intro depth member
      simpa using ih member
    rw [commaPieces] at member
    split at member
    · split at member
      · rcases List.mem_cons.mp member with rfl | later
        · exact ⟨⟨[], rest, by simp⟩, by simp⟩
        · obtain ⟨inside, some⟩ := ih later
          exact ⟨inside.trans ⟨done.reverse ++ [token], [], by simp⟩, some⟩
      · exact onward member
    all_goals exact onward member

private theorem head?_commaPieces {depth : Nat} {done tokens : List Token} {first : List Token}
    {rest : List (List Token)}
    (pieces : commaPieces depth done tokens = first :: rest) : first.head? = (done.reverse ++ tokens).head? := by
  induction tokens generalizing depth done with
  | nil =>
    rw [commaPieces] at pieces
    split at pieces
    · cases pieces
    · obtain rfl := (List.cons.inj pieces).1
      simp
  | cons token later ih =>
    have onward : ∀ {depth}, commaPieces depth (token :: done) later = first :: rest →
        first.head? = (done.reverse ++ token :: later).head? := by
      intro depth same
      simpa using ih same
    rw [commaPieces] at pieces
    split at pieces
    · split at pieces
      · obtain rfl := (List.cons.inj pieces).1
        cases same : done.reverse <;> simp [same]
      · exact onward pieces
    all_goals exact onward pieces

section

variable {holds : List Token → Prop} (lasting : Lasting holds) {line : Line} (whole : holds line.tokens)

include lasting whole

private theorem splitAfterCommas_kept : Attempt.Yields (splitAfterCommas line) (Kept holds line) := by
  rw [splitAfterCommas]
  split
  · rename_i items
    apply Attempt.Yields.pure
    constructor
    · intro part member
      obtain ⟨piece, inside, rfl⟩ := List.mem_map.mp member
      exact lasting.withFinalComma (lasting.within whole (by simpa using (infix_of_commaPieces inside).1))
    · cases pieces : commaPieces 0 [] line.tokens with
      | nil => simp [hasItems, pieces] at items
      | cons first rest =>
        have some := (infix_of_commaPieces (pieces ▸ List.mem_cons_self)).2
        refine ⟨_, _, rfl, rfl, ?_⟩
        rw [head?_withFinalComma some, head?_commaPieces pieces]
        rfl
  · exact Attempt.Yields.failure

end

/-- What has been cut so far are the tokens that have been taken, in their order. Parts are filled from the last to
the first. -/
structure Cut.Whole (cut : Cut) (taken : List Token) : Prop where
  order : cut.head ++ cut.body ++ cut.tail = taken
  begun : ∀ bracket, cut.place = .head bracket → cut.head ≠ []
  body : ∀ bracket, cut.place = .body bracket → cut.head = []
  tail : cut.place = .tail → cut.head = [] ∧ cut.body = []

theorem Cut.Whole.take {cut : Cut} {taken : List Token} (whole : cut.Whole taken) (omitted : List Nat) (token : Token) :
    (cut.take omitted token).Whole (token :: taken) := by
  obtain ⟨place, head, body, tail⟩ := cut
  obtain ⟨rfl, _, inBody, inTail⟩ := whole
  cases place with
  | head bracket => exact ⟨rfl, fun _ _ => List.cons_ne_nil _ _, nofun, nofun⟩
  | body bracket =>
    obtain rfl : head = [] := inBody bracket rfl
    simp only [Cut.take]
    split
    · split
      · rename_i empty
        obtain rfl : body = [] := by simpa using empty
        exact ⟨rfl, nofun, nofun, fun _ => ⟨rfl, rfl⟩⟩
      · exact ⟨rfl, fun _ _ => List.cons_ne_nil _ _, nofun, nofun⟩
    · exact ⟨rfl, nofun, fun _ _ => rfl, nofun⟩
  | tail =>
    obtain ⟨rfl, rfl⟩ : head = [] ∧ body = [] := inTail rfl
    simp only [Cut.take]
    split
    · refine ⟨rfl, fun other started => ?_, fun _ _ => rfl, fun _ => ⟨rfl, rfl⟩⟩
      dsimp only at started
      split at started <;> cases started
    · exact ⟨rfl, nofun, nofun, fun _ => ⟨rfl, rfl⟩⟩

private theorem lastSplit?_whole {omitted : List Nat} {tokens : List Token} {split : Split}
    (found : lastSplit? omitted tokens = some split) :
    split.head ++ split.body ++ split.tail = tokens ∧ split.head ≠ [] := by
  have taken : ∀ (rest done : List Token) (cut : Cut), cut.Whole done →
      (rest.foldl (Cut.take omitted) cut).Whole (rest.reverse ++ done) := by
    intro rest
    induction rest with
    | nil => exact fun _ _ whole => whole
    | cons token rest ih =>
      intro done cut whole
      simpa using ih _ _ (whole.take omitted token)
  have whole := taken tokens.reverse [] {} ⟨rfl, nofun, fun _ _ => rfl, fun _ => ⟨rfl, rfl⟩⟩
  rw [List.reverse_reverse, List.append_nil] at whole
  simp only [lastSplit?] at found
  split at found
  · rename_i bracket place
    obtain rfl := Option.some.inj found
    exact ⟨whole.order, whole.begun bracket place⟩
  · cases found

section

variable {holds : List Token → Prop} (lasting : Lasting holds) {line : Line} (whole : holds line.tokens)

include lasting whole

private theorem Split.lines_kept {split : Split} (order : split.head ++ split.body ++ split.tail = line.tokens)
    (begun : split.head ≠ []) :
    Kept holds line (split.lines line) := by
  have head : holds split.head := lasting.within whole ⟨[], split.body ++ split.tail, by rw [← order]; simp⟩
  have body : holds split.body := lasting.within whole ⟨split.head, split.tail, order⟩
  have tail : holds split.tail := lasting.within whole ⟨split.head ++ split.body, [], by rw [← order]; simp⟩
  constructor
  · intro part member
    have inside := (List.mem_filter.mp member).1
    simp only [List.mem_cons, List.not_mem_nil, or_false] at inside
    rcases inside with rfl | rfl | rfl
    · exact head
    · rw [Split.bodyLine]
      dsimp only
      split
      · exact lasting.withFinalComma body
      · exact body
    · exact tail
  · have first : ∃ rest, split.lines line = split.headLine line :: rest :=
      ⟨_, by rw [Split.lines, List.filter_cons_of_pos (by simpa [Split.headLine] using begun)]⟩
    obtain ⟨rest, first⟩ := first
    refine ⟨split.headLine line, rest, first, rfl, ?_⟩
    · rw [← order, List.append_assoc, List.head?_append_of_ne_nil _ begun]
      rfl

private theorem settle_kept (forced : Bool) (fuel : Nat) (omitted : List Nat) {split : Split}
    (order : split.head ++ split.body ++ split.tail = line.tokens) (begun : split.head ≠ []) :
    Attempt.Yields (settle forced line fuel omitted split) (Kept holds line) := by
  induction fuel generalizing omitted split with
  | zero => exact Attempt.Yields.failure
  | succ fuel ih =>
    have own := Split.lines_kept lasting whole order begun
    have settled : Attempt.Yields (do showPair split.bracket; return split.lines line) (Kept holds line) :=
      (Attempt.Yields.any _).bind fun _ _ => Attempt.Yields.pure own
    rw [settle]
    refine Attempt.Yields.bind (.any _) fun shown _ => ?_
    dsimp only
    split
    · refine Attempt.Yields.bind
        (Attempt.Yields.outcome (?_ : Attempt.Yields _ fun lines? => ∀ lines, lines? = some lines →
        Kept holds line lines)) fun found preferred => ?_
      · refine Attempt.Yields.bind (.of_option fun other found => lastSplit?_whole found) fun other parts => ?_
        split
        · exact Attempt.Yields.map ((ih _ parts.1 parts.2).mono fun lines kept _ same => Option.some.inj same ▸ kept)
        · exact .pure nofun
      · split
        · exact .pure (preferred _ rfl _ rfl)
        · exact settled
        · refine Attempt.Yields.bind (.any _) fun shown _ => ?_
          split
          · exact Attempt.Yields.bind (Attempt.Yields.failure : Attempt.Yields failure fun _ => False)
              fun _ none => none.elim
          · exact settled
    · exact settled

private theorem splitAt_kept (forced : Bool) (omitted : List Nat) :
    Attempt.Yields (splitAt forced line omitted) (Kept holds line) := by
  rw [splitAt]
  refine Attempt.Yields.bind (.of_option fun split found => lastSplit?_whole found) fun split parts => ?_
  exact settle_kept lasting whole forced _ omitted parts.1 parts.2

private theorem walk_kept (forced : Bool) (state : Walk) (tokens : List Token) :
    Attempt.Yields (walk forced line state tokens) (Kept holds line) := by
  induction tokens generalizing state with
  | nil =>
    rw [walk]
    exact splitAt_kept lasting whole forced []
  | cons token rest ih =>
    rw [walk]
    refine Attempt.Yields.bind (.any _) fun shown _ => ?_
    have again := splitAt_kept lasting whole forced []
    have advance : ∀ (pair : Nat) (state : Walk),
        Attempt.Yields (if endsInComma (rest.take 1) then splitAt forced line []
        else if token.isHidden shown then walk forced line state rest
        else walk forced line { state with within := some pair, last := some pair } rest) (Kept holds line) := by
      intro pair state
      split
      · exact again
      · split <;> exact ih _
    dsimp only
    generalize state.length + (if (token.spaced && !rest.isEmpty) = true then 1 else 0) +
      (token.visible shown).length = length
    split
    · exact again
    · split
      · exact ih _
      · exact ih _
      · split
        · exact ih _
        · split
          · exact advance _ _
          · refine Attempt.Yields.bind (splitAt_kept lasting whole forced _)
              fun lines kept => Attempt.Yields.bind (.any _) fun shown _ => ?_
            split
            · exact .pure kept
            · exact advance _ _
      · exact ih _

private theorem splitAtBrackets_kept (forced : Bool) :
    Attempt.Yields (splitAtBrackets forced line) (Kept holds line) := by
  rw [splitAtBrackets]
  refine Attempt.Yields.bind (splitAt_kept lasting whole forced []) fun lines kept => Attempt.Yields.bind (.any _)
    fun shown _ => ?_
  split
  · exact .pure kept
  · exact walk_kept lasting whole forced _ _

end

theorem Kept.trans {holds : List Token → Prop} {line first : Line} {rest lines : List Line}
    (kept : Kept holds line (first :: rest))
    (later : Kept holds first lines) {more : List Line} (each : ∀ part ∈ more, holds part.tokens) :
    Kept holds line (lines ++ more) := by
  obtain ⟨_, _, same, depth, head⟩ := kept.opens
  obtain ⟨rfl, rfl⟩ := List.cons.inj same
  obtain ⟨start, others, rfl, depth', head'⟩ := later.opens
  refine ⟨fun part member => ?_, start, others ++ more, rfl, depth'.trans depth, head'.trans head⟩
  rcases List.mem_append.mp member with inside | inside
  · exact later.each part inside
  · exact each part inside

/-- What the four parts of the layout keep, with so much fuel. -/
structure Keeping (holds : List Token → Prop) (fuel : Nat) : Prop where
  line : ∀ forced line, holds line.tokens → Gives (layoutLine fuel forced line) (Kept holds line)
  split : ∀ forced line split, Attempt.Yields split (Kept holds line) →
    Attempt.Yields (splitUp fuel forced line split) (Kept holds line)
  parts : ∀ forced whole parts, (∀ part ∈ parts, holds part.tokens) →
      Attempt.Yields (layoutParts fuel forced whole parts) fun lines =>
    (∀ part ∈ lines, holds part.tokens) ∧ ∀ line, Kept holds line parts → Kept holds line lines
  brackets : ∀ forced line, holds line.tokens → Attempt.Yields (bracketed fuel forced line) (Kept holds line)

namespace Keeping

variable {holds : List Token → Prop} {fuel : Nat}

theorem zero : Keeping holds 0 := by
  refine ⟨fun forced line whole shown => ?_, fun _ _ _ _ => ?_, fun _ _ _ _ => ?_, fun _ _ _ => ?_⟩
  · rw [layoutLine]
    exact .refl whole
  · rw [splitUp]
    exact .failure
  · rw [layoutParts]
    exact .failure
  · rw [bracketed]
    exact .failure

variable (keeping : Keeping holds fuel) (forced : Bool)

include keeping

private theorem line_succ (lasting : Lasting holds) {line : Line} (whole : holds line.tokens) :
    Gives (layoutLine (fuel + 1) forced line) (Kept holds line) := by
  have alone : Gives (pure [line] : StateM Shown _) (Kept holds line) := .pure (.refl whole)
  have split := (keeping.brackets forced line whole).orElse alone
  rw [layoutLine]
  refine Gives.bind (.any _) fun shown _ => ?_
  split
  · exact alone
  · split
    · exact (keeping.split forced line _ (splitAfterCommas_kept lasting whole)).orElse split
    · exact split

private theorem split_succ {line : Line} {split : Attempt (List Line)}
    (yields : Attempt.Yields split (Kept holds line)) :
    Attempt.Yields (splitUp (fuel + 1) forced line split) (Kept holds line) := by
  rw [splitUp]
  refine Attempt.Yields.bind (.any _) fun shown _ => Attempt.Yields.bind yields fun parts kept => ?_
  exact (keeping.parts forced _ parts kept.each).mono fun lines both => both.2 line kept

private theorem parts_succ (whole : String) {parts : List Line} (each : ∀ part ∈ parts, holds part.tokens) :
    Attempt.Yields (layoutParts (fuel + 1) forced whole parts) fun lines =>
      (∀ part ∈ lines, holds part.tokens) ∧ ∀ line, Kept holds line parts → Kept holds line lines := by
  cases parts with
  | nil =>
    rw [layoutParts]
    exact .pure ⟨List.forall_mem_nil _, fun line kept => kept⟩
  | cons part rest =>
    obtain ⟨own, others⟩ := List.forall_mem_cons.mp each
    rw [layoutParts]
    refine Attempt.Yields.bind (.any _) fun shown _ => ?_
    have onward : Attempt.Yields (do
        let first ← layoutLine fuel forced part
        return first ++ (← layoutParts fuel forced whole rest)) fun lines =>
          (∀ part ∈ lines, holds part.tokens) ∧ ∀ line, Kept holds line (part :: rest) → Kept holds line lines := by
      refine Attempt.Yields.bind (.lift (keeping.line forced part own)) fun first kept => ?_
      refine Attempt.Yields.bind (keeping.parts forced whole rest others)
        fun more both => .pure ⟨?_, fun line whole => whole.trans kept both.1⟩
      exact List.forall_mem_append.mpr ⟨kept.each, both.1⟩
    split
    · exact Attempt.Yields.bind (Attempt.Yields.failure : Attempt.Yields failure fun _ => False) fun _ none => none.elim
    · exact onward

private theorem brackets_succ (lasting : Lasting holds) {line : Line} (whole : holds line.tokens) :
    Attempt.Yields (bracketed (fuel + 1) forced line) (Kept holds line) := by
  rw [bracketed]
  refine Attempt.Yields.bind (.any _) fun before _ => ?_
  refine Attempt.Yields.bind (keeping.split forced line _ (splitAtBrackets_kept lasting whole forced))
    fun lines kept => ?_
  refine Attempt.Yields.bind (.any _) fun shown _ => ?_
  dsimp only
  split
  · exact .pure kept
  · refine Attempt.Yields.bind (keeping.split true line _ (splitAtBrackets_kept lasting whole true))
      fun others better => ?_
    refine Attempt.Yields.bind (.any _) fun now _ => ?_
    split
    · exact .pure better
    · exact Attempt.Yields.bind (.any _) fun _ _ => .pure kept

end Keeping

/-- What a laid out line is split into. The four parts of the layout call one another, so the induction on the fuel is
about all of them. -/
private theorem layout_keeping {holds : List Token → Prop} (lasting : Lasting holds) (fuel : Nat) :
    Keeping holds fuel := by
  induction fuel with
  | zero => exact .zero
  | succ fuel ih =>
    exact {
      line := fun forced _ => ih.line_succ forced lasting
      split := fun forced _ _ => ih.split_succ forced
      parts := fun forced whole _ => ih.parts_succ forced whole
      brackets := fun forced _ => ih.brackets_succ forced lasting }

/-- A statement is laid out in lines of its own tokens, of which the first begins as the statement does. -/
theorem layout_lines {holds : List Token → Prop} (lasting : Lasting holds) (depth : Nat) (isImport : Bool)
    {tokens : List Token}
    (whole : holds tokens) : ∃ shown first rest, layout depth isImport tokens = (first :: rest).map (Line.text shown) ∧
      first.depth = depth ∧ first.tokens.head? = tokens.head? ∧ ∀ line ∈ first :: rest, holds line.tokens := by
  have kept := (layout_keeping lasting (4 * tokens.length + 8)).line false { depth, tokens, isImport } whole []
  generalize ran : (layoutLine (4 * tokens.length + 8) false { depth, tokens, isImport }).run [] = result at kept
  have lines : layout depth isImport tokens = result.1.map (Line.text result.2) := by
    rw [layout, ran]
    rfl
  obtain ⟨first, rest, same, depth, head⟩ := kept.opens
  exact ⟨result.2, first, rest, same ▸ lines, depth, head, same ▸ kept.each⟩

end TableModels.Code
