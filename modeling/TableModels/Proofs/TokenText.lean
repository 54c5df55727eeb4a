import Mathlib.Data.List.Chain
import TableModels.Proofs.Layout
import TableModels.Proofs.Skeleton

/-! Tokens in the text of lines. If each token is read from code to code, and next to each other they run together
nowhere, then every line that a statement is laid out in is read so, whether optional brackets are shown or not. -/

namespace TableModels.Code

variable {allowed : List Char → Prop}

structure Token.Legible (allowed : List Char → Prop) (token : Token) : Prop where
  filled : token.text.toList ≠ []
  reads : Reads allowed token.text.toList
  /-- A bracket that may be hidden leaves a blank behind. -/
  spaced : ∀ bracket, token.kind = .opening bracket → bracket.optional = true → token.spaced = true

/-- A closing bracket that may be hidden, so that what comes before it meets what comes after it. -/
def Token.mayVanish (token : Token) : Bool :=
  match token.kind with
  | .closing bracket => bracket.optional
  | _ => false

/-- Nothing that comes before a token runs together with it. -/
def Token.Begins (token : Token) : Prop := token.spaced = true ∨ Free token.text.toList

/-- Nothing that comes after a token runs together with it. -/
def Token.Ends (token : Token) : Prop := Loose token.text.toList ∧ token.mayVanish = false

/-- Two tokens that do not run together where they are written one after the other. -/
def Token.Apart (first second : Token) : Prop := second.Begins ∨ first.Ends

structure Legible (allowed : List Char → Prop) (tokens : List Token) : Prop where
  each : ∀ token ∈ tokens, token.Legible allowed
  apart : tokens.IsChain Token.Apart

theorem Token.legible_comma : Token.comma.Legible allowed := ⟨by decide, reads_mark (by decide), nofun⟩

theorem free_comma : Free Token.comma.text.toList := free_mark (by decide : ',' ∈ punctuation)

theorem ends_comma : Token.comma.Ends := ⟨loose_mark (by decide : ',' ∈ punctuation), rfl⟩

theorem legible_lasting : Lasting (Legible allowed) where
  within := fun whole inside => ⟨fun token member => whole.each token (inside.subset member), whole.apart.infix inside⟩
  comma := fun {tokens} whole => by
    refine ⟨List.forall_mem_append.mpr ⟨whole.each, by simpa using Token.legible_comma⟩, ?_⟩
    refine whole.apart.append (.singleton _) fun last _ comma member => ?_
    obtain rfl : Token.comma = comma := by simpa using member
    exact .inl (.inr free_comma)

theorem loose_append {chars more : List Char} (some : more ≠ []) : Loose (chars ++ more) ↔ Loose more := by
  rw [Loose, Loose, List.getLast?_append_of_ne_nil _ some]

private theorem reads_blanks (count : Nat) : Reads allowed (List.replicate count ' ') := by
  have blank : ∀ c ∈ List.replicate count ' ', c = ' ' := fun c member => List.eq_of_mem_replicate member
  refine reads_plain (fun c member => .inr ?_) ?_
  · rw [blank c member]
    decide
  · rw [words_marks fun c member => blank c member ▸ rfl]
    exact nofun

private theorem loose_blanks (count : Nat) : Loose (List.replicate count ' ') := by
  intro c last
  rw [List.eq_of_mem_replicate (List.mem_of_getLast? last)]
  decide

def Token.written (shown : Shown) (token : Token) : List Char :=
  (if token.spaced then [' '] else []) ++ (token.visible shown).toList

/-- What comes so far is read from code to code, and it runs together with nothing unless its last token says so. -/
structure Upto (allowed : List Char → Prop) (chars : List Char) (last : Token) : Prop where
  reads : Reads allowed chars
  loose : Loose last.text.toList → last.mayVanish = false → Loose chars

private theorem Token.visible_cases (shown : Shown) (token : Token) : token.visible shown = token.text ∨
    token.visible shown = "" ∧
      ((∃ bracket, token.kind = .opening bracket ∧ bracket.optional = true) ∨ token.mayVanish = true) := by
  rw [visible]
  split
  · rename_i hidden
    rw [isHidden] at hidden
    split at hidden
    · rename_i bracket kind
      exact .inr ⟨rfl, .inl ⟨bracket, kind, (Bool.and_eq_true_iff.mp hidden).1⟩⟩
    · rename_i bracket kind
      exact .inr ⟨rfl, .inr (by rw [mayVanish, kind]; exact (Bool.and_eq_true_iff.mp hidden).1)⟩
    · cases hidden
  · exact .inl rfl

/-- A token is written where nothing runs together with it, and then it is the last. -/
theorem Upto.write {chars : List Char} {token : Token} (reads : Reads allowed chars) (legible : token.Legible allowed)
    (shown : Shown)
    (apart : Loose chars ∨ Free token.text.toList)
    (spaced : (∃ bracket, token.kind = .opening bracket ∧ bracket.optional = true) → Loose chars) :
    Upto allowed (chars ++ (token.visible shown).toList) token := by
  rcases token.visible_cases shown with same | ⟨none, opening | vanishing⟩
  · rw [same]
    exact ⟨reads.append legible.reads apart, fun loose _ => (loose_append legible.filled).mpr loose⟩
  · rw [none]
    exact ⟨by simpa using reads, fun _ _ => by simpa using spaced opening⟩
  · rw [none]
    exact ⟨by simpa using reads, fun _ kept => by cases vanishing.symm.trans kept⟩

theorem Upto.next {chars : List Char} {last token : Token} (upto : Upto allowed chars last)
    (legible : token.Legible allowed)
    (apart : last.Apart token) (shown : Shown) : Upto allowed (chars ++ token.written shown) token := by
  rw [Token.written, ← List.append_assoc]
  cases spaced : token.spaced with
  | true =>
    rw [if_pos rfl]
    have blank : Reads allowed (chars ++ [' ']) :=
      upto.reads.append (reads_mark (by decide)) (.inr (free_mark (by decide)))
    have loose : Loose (chars ++ [' ']) := (loose_append (List.cons_ne_nil _ _)).mpr (loose_mark (by decide))
    exact .write blank legible shown (.inl loose) fun _ => loose
  | false =>
    rw [if_neg Bool.false_ne_true, List.append_nil]
    refine .write upto.reads legible shown ?_ ?_
    · rcases apart with (blank | free) | ⟨loose, kept⟩
      · cases spaced.symm.trans blank
      · exact .inr free
      · exact .inl (upto.loose loose kept)
    · rintro ⟨bracket, kind, optional⟩
      cases spaced.symm.trans (legible.spaced bracket kind optional)

theorem Upto.all {chars : List Char} {last : Token} {tokens : List Token} (upto : Upto allowed chars last)
    (legible : Legible allowed (last :: tokens))
    (shown : Shown) : Reads allowed (chars ++ tokens.flatMap (Token.written shown)) := by
  induction tokens generalizing chars last with
  | nil => simpa using upto.reads
  | cons token rest ih =>
    obtain ⟨_, own, others⟩ := List.forall_mem_cons.mp legible.each |>.imp_right List.forall_mem_cons.mp
    obtain ⟨apart, later⟩ := List.isChain_cons_cons.mp legible.apart
    rw [List.flatMap_cons, ← List.append_assoc]
    exact ih (upto.next own apart shown) ⟨List.forall_mem_cons.mpr ⟨own, others⟩, later⟩

theorem Line.toList_text (shown : Shown) (line : Line) {first : Token} {rest : List Token}
    (tokens : line.tokens = first :: rest) :
    (line.text shown).toList = List.replicate (4 * line.depth) ' ' ++ (first.visible shown).toList ++
      rest.flatMap (Token.written shown) := by
  rw [Line.text, tokens]
  simp only [String.toList_append, String.toList_join, indent, String.toList_ofList, List.flatMap_map]
  congr 1
  congr 1
  funext token
  rw [Token.written]
  split <;> rfl

/-- A line of legible tokens is read from code to code. -/
theorem Line.reads_text {line : Line} (legible : Legible allowed line.tokens) (shown : Shown) :
    Reads allowed (line.text shown).toList := by
  cases tokens : line.tokens with
  | nil =>
    rw [Line.text, tokens]
    exact .nil
  | cons first rest =>
    rw [Line.toList_text shown line tokens]
    rw [tokens] at legible
    have margin : Reads allowed (List.replicate (4 * line.depth) ' ') := reads_blanks _
    have loose := loose_blanks (4 * line.depth)
    exact (Upto.write margin (legible.each _ List.mem_cons_self) shown (.inl loose) fun _ => loose).all legible shown

end TableModels.Code
