import TableModels.Proofs.DocText
import TableModels.Proofs.FreeNames
import TableModels.Proofs.Scoping
import TableModels.Proofs.StatementText
import TableModels.Proofs.Steps

/-! The head of a module in text. Its lines are blank or comments exactly if the lines that it is made from are; any
other of these is read as a statement, and then its text begins as a statement does, or it stands in the text as it
is. -/

namespace TableModels.Code

open Text HeaderLine

/-- A line that is blank or a comment, which may be indented. -/
def IsRemark (line : String) : Prop := ∀ c ∈ (skipGap line.toList).head?, c = '#'

/-- A line that is empty or begins with the mark of comments. -/
def IsPlainRemark (line : String) : Prop := ∀ c ∈ line.toList.head?, c = '#'

theorem IsPlainRemark.isRemark {line : String} (plain : IsPlainRemark line) : IsRemark line := by
  cases chars : line.toList with
  | nil => simp [IsRemark, skipGap, chars]
  | cons c rest =>
    obtain rfl : c = '#' := plain c (by rw [chars]; rfl)
    simp [IsRemark, skipGap, isGap, chars]

def linesText (lines : List String) : String := String.join (lines.map (· ++ "\n"))

theorem toList_linesText_cons (line : String) (rest : List String) :
    (linesText (line :: rest)).toList = line.toList ++ ['\n'] ++ (linesText rest).toList := by
  rw [linesText, List.map_cons, String.join_cons, String.toList_append, String.toList_append, linesText]
  rfl

private theorem splitChars_append (first more : List Char) :
    splitChars (· == '\n') (first ++ '\n' :: more) = splitChars (· == '\n') first ++ splitChars (· == '\n') more := by
  induction first with
  | nil => rfl
  | cons c rest ih =>
    rw [List.cons_append]
    by_cases lineEnd : c = '\n'
    · subst lineEnd
      rw [splitChars_line, splitChars_line, ih]
      rfl
    · obtain ⟨part, parts, split⟩ := List.exists_cons_of_ne_nil (Model.splitChars_ne_nil (· == '\n') rest)
      have whole : splitChars (· == '\n') (rest ++ '\n' :: more) = part :: (parts ++ splitChars (· == '\n') more) := by
        rw [ih, split]
        rfl
      rw [splitChars_cons_of_neg lineEnd whole, splitChars_cons_of_neg lineEnd split]
      rfl

def IsWhole (text : String) : Prop := '\n' ∉ text.toList ∧ '\r' ∉ text.toList

private theorem withoutReturn_subset (line : List Char) : withoutReturn line ⊆ line := by
  rw [withoutReturn]
  split
  · exact List.dropLast_subset line
  · exact List.Subset.refl line

theorem isWhole_of_mem_linesOf {text line : String} (member : line ∈ linesOf text) : IsWhole line := by
  obtain ⟨fed, outer, member⟩ := List.mem_flatMap.mp member
  obtain ⟨part, inner, rfl⟩ := List.mem_map.mp member
  rw [IsWhole, String.toList_ofList]
  constructor
  · intro lineFeed
    have within := withoutReturn_subset fed (Naming.mem_splitChars inner '\n' lineFeed).1
    cases (Naming.mem_splitChars outer '\n' within).2
  · intro carriageReturn
    cases (Naming.mem_splitChars inner '\r' carriageReturn).2

theorem linesOf_line (first more : String) : linesOf (first ++ "\n" ++ more) = linesOf first ++ linesOf more := by
  have chars : (first ++ "\n" ++ more).toList = first.toList ++ '\n' :: more.toList := by simp
  rw [linesOf, chars, splitChars_append, List.flatMap_append]
  rfl

private theorem linesOf_linesText (lines : List String) :
    linesOf (linesText lines) = lines.flatMap linesOf ++ [""] := by
  induction lines with
  | nil => rfl
  | cons line rest ih =>
    rw [linesText, List.map_cons, String.join_cons, linesOf_line, ← linesText, ih, List.flatMap_cons, List.append_assoc]

/-- Characters that a statement can begin with. -/
def IsOpening (c : Char) : Prop := c ∉ [' ', '\t', '#', '\n', '\r']

instance (c : Char) : Decidable (IsOpening c) := inferInstanceAs (Decidable (c ∉ [' ', '\t', '#', '\n', '\r']))

private theorem opening_of_identifier {c : Char} (letter : isIdentifierStart c = true) : IsOpening c := by
  have apart : ∀ c ∈ [' ', '\t', '#', '\n', '\r'], ¬ isIdentifierStart c = true := List.any_eq_false.mp (by decide)
  exact fun member => apart c member letter

def Opened (tokens : List Token) : Prop :=
  ∃ first rest, tokens = first :: rest ∧ first.kind = .word ∧ ∃ c ∈ first.text.toList.head?, IsOpening c

theorem Opened.append {tokens : List Token} (opened : Opened tokens) (more : List Token) : Opened (tokens ++ more) := by
  obtain ⟨first, rest, rfl, own⟩ := opened
  exact ⟨first, rest ++ more, rfl, own⟩

private theorem opened_word {text : String} {c : Char} (first : text.toList.head? = some c) (opens : IsOpening c)
    (rest : List Token) : Opened (.word text :: rest) :=
  ⟨_, rest, rfl, rfl, c, first, opens⟩

private theorem readWord?_opens {chars rest : List Char} {word : String}
    (read : readWord? chars = some (word, rest)) : ∃ c ∈ word.toList.head?, IsOpening c := by
  cases chars with
  | nil => cases read
  | cons c others =>
    rw [readWord?] at read
    split at read
    · rename_i letter
      obtain ⟨rfl, _⟩ := Prod.mk.inj (Option.some.inj read)
      exact ⟨c, by simp, opening_of_identifier letter⟩
    · cases read

private theorem opened_name {id : String} (opens : ∃ c ∈ id.toList.head?, IsOpening c) :
    Gives (Expr.name id).tokens Opened := by
  obtain ⟨c, first, opens⟩ := opens
  rw [Expr.tokens]
  exact .pure (opened_word first opens [])

private theorem opened_text (value : String) : Gives (Expr.text value).tokens Opened := by
  rw [Expr.tokens]
  refine .pure ⟨_, [], rfl, rfl, _, by rw [Token.word, layoutQuoted, String.toList_ofList]; rfl, ?_⟩
  split <;> decide

private theorem opened_int (value : Nat) : Gives (Expr.int value).tokens Opened := by
  obtain ⟨c, rest, same, digit⟩ := Number.exists_cons_toDigits value
  have apart : ∀ c ∈ [' ', '\t', '#', '\n', '\r', '-'], ¬ c.isDigit = true := List.any_eq_false.mp (by decide)
  have other : c ∉ [' ', '\t', '#', '\n', '\r', '-'] := fun member => apart c member digit
  have chars : (toString (value : Int)).toList = c :: rest := by
    have positive : decide ((value : Int) < 0) = false := decide_eq_false (Int.natCast_nonneg value).not_gt
    rw [Number.toList_toString_int, positive, Int.natAbs_natCast]
    exact same
  have tokens : numberTokens (toString (value : Int)) = [.word (toString (value : Int))] := by
    rw [numberTokens, chars]
    split
    · rename_i minus
      obtain ⟨rfl, _⟩ := List.cons.inj minus
      simp at other
    · rfl
  rw [Expr.tokens, tokens]
  exact .pure (opened_word (by rw [chars]; rfl) (fun member => other (List.mem_append_left ['-'] member)) [])

private theorem readText?_opens {quote : Char} {chars rest : List Char} {value : Expr}
    (read : readText? quote chars = some (value, rest)) :
    Gives value.tokens Opened := by
  rw [readText?] at read
  split at read
  · split at read
    · obtain ⟨rfl, _⟩ := Prod.mk.inj (Option.some.inj read)
      exact opened_text _
    · cases read
  · cases read

private theorem readAtom?_opens {chars rest : List Char} {value : Expr}
    (read : readAtom? chars = some (value, rest)) : Gives value.tokens Opened := by
  rw [readAtom?.eq_def] at read
  split at read
  · exact readText?_opens read
  · exact readText?_opens read
  · split at read
    · rename_i word more found
      split at read
      · obtain ⟨rfl, _⟩ := Prod.mk.inj (Option.some.inj read)
        exact opened_name (readWord?_opens found)
      · cases read
    · rw [readNumber?] at read
      dsimp only at read
      split at read
      · cases read
      · obtain ⟨rfl, _⟩ := Prod.mk.inj (Option.some.inj read)
        exact opened_int _

private theorem readTrailers?_opens (fuel : Nat) {start value : Expr} (opened : Gives start.tokens Opened)
    {chars rest : List Char}
    (read : readTrailers? fuel start chars = some (value, rest)) : Gives value.tokens Opened := by
  induction fuel generalizing start chars with
  | zero => cases read
  | succ fuel ih =>
    rw [readTrailers?.eq_def] at read
    dsimp only at read
    split at read
    · obtain ⟨⟨member, more⟩, _, later⟩ := Option.bind_eq_some_iff.mp read
      refine ih ?_ later
      rw [Expr.tokens]
      exact opened.bind fun tokens first => .pure (first.append _)
    · obtain ⟨⟨arguments, keywords, more⟩, _, later⟩ := Option.bind_eq_some_iff.mp read
      refine ih ?_ later
      rw [Expr.tokens]
      exact opened.bind fun tokens first => Gives.bind (.any _) fun more _ => .pure (first.append _)
    · obtain ⟨rfl, _⟩ := Prod.mk.inj (Option.some.inj read)
      exact opened

private theorem readExpr?_opens {fuel : Nat} {chars rest : List Char} {value : Expr}
    (read : readExpr? fuel chars = some (value, rest)) :
    Gives value.tokens Opened := by
  cases fuel with
  | zero => cases read
  | succ fuel =>
    rw [readExpr?] at read
    obtain ⟨⟨start, more⟩, found, later⟩ := Option.bind_eq_some_iff.mp read
    exact readTrailers?_opens fuel (readAtom?_opens found) later

private theorem readImport?_opens {chars : List Char} {statement : Statement}
    (read : readImport? chars = some statement) : Gives statement.tokens Opened := by
  obtain ⟨⟨path, more⟩, _, kept⟩ := Option.bind_eq_some_iff.mp read
  dsimp only at kept
  obtain ⟨_, same⟩ := Option.ite_none_right_eq_some.mp kept
  obtain rfl := Option.some.inj same
  rw [Statement.tokens]
  exact .pure (opened_word (rfl : "import".toList.head? = some 'i') (by decide) _)

private theorem readImportFrom?_opens {chars : List Char} {statement : Statement}
    (read : readImportFrom? chars = some statement) :
    Gives statement.tokens Opened := by
  obtain ⟨⟨path, more⟩, _, read⟩ := Option.bind_eq_some_iff.mp read
  obtain ⟨⟨word, more⟩, _, read⟩ := Option.bind_eq_some_iff.mp read
  dsimp only at read
  split at read
  · obtain ⟨⟨names, more⟩, _, kept⟩ := Option.bind_eq_some_iff.mp read
    obtain ⟨_, same⟩ := Option.ite_none_right_eq_some.mp kept
    obtain rfl := Option.some.inj same
    rw [Statement.tokens]
    refine Gives.bind (.any _) fun names _ => .pure ?_
    exact opened_word (rfl : "from".toList.head? = some 'f') (by decide) _
  · cases read

private theorem readSimple?_opens {chars : List Char} {statement : Statement}
    (read : readSimple? chars = some statement) : Gives statement.tokens Opened := by
  obtain ⟨⟨value, more⟩, found, read⟩ := Option.bind_eq_some_iff.mp read
  have opened := readExpr?_opens found
  dsimp only at read
  split at read
  · cases read
  · obtain rfl := Option.some.inj read
    rwa [Statement.tokens]
  · rename_i target _ _
    obtain ⟨_, read⟩ := Option.ite_none_left_eq_some.mp read
    obtain ⟨⟨value, more⟩, _, kept⟩ := Option.bind_eq_some_iff.mp read
    obtain ⟨_, same⟩ := Option.ite_none_right_eq_some.mp kept
    obtain rfl := Option.some.inj same
    rw [Expr.tokens] at opened
    obtain ⟨first, rest, same, kind, opens⟩ := opened 0
    rw [Statement.tokens]
    refine Gives.bind (.any _) fun tokens _ => .pure ⟨first, tokens, ?_, kind, opens⟩
    exact congrArg (· :: tokens) (List.cons.inj same).1
  · cases read

private theorem readStatement?_opens {chars : List Char} {statement : Statement}
    (read : readStatement? chars = some statement) :
    Gives statement.tokens Opened := by
  rw [readStatement?.eq_def] at read
  split at read
  · exact readImport?_opens read
  · exact readImportFrom?_opens read
  · obtain ⟨_, same⟩ := Option.ite_none_right_eq_some.mp read
    obtain rfl := Option.some.inj same
    rw [Statement.tokens]
    exact opened_name ⟨'p', rfl, by decide⟩
  · exact readSimple?_opens read

private theorem lasting_any : Lasting fun _ => True := ⟨fun _ _ => trivial, fun _ => trivial⟩

/-- The first line of a statement begins as its first token does. -/
theorem Statement.layout_opens {statement : Statement} {token : Token} {more : List Token}
    (tokens : (statement.tokens.run 0).1 = token :: more)
    (kind : token.kind = .word) :
    ∃ first rest, statement.layout 0 = first :: rest ∧ token.text.toList <+: first.toList := by
  obtain ⟨shown, line, rest, same, depth, head, _⟩ :=
    @layout_lines _ lasting_any 0 statement.isImport (statement.tokens.run 0).1 trivial
  rw [tokens, List.head?_cons] at head
  obtain ⟨others, inside⟩ := List.head?_eq_some_iff.mp head
  have visible : token.visible shown = token.text := by simp [Token.visible, Token.isHidden, kind]
  refine ⟨line.text shown, rest.map (Line.text shown), same, ?_⟩
  rw [line.toList_text shown inside, depth, visible]
  simp

private theorem not_remark_of_opened {statement : Statement} (opened : Gives statement.tokens Opened) :
    ∃ text ∈ statement.layout 0, ∃ line ∈ linesOf text, ¬ IsPlainRemark line := by
  obtain ⟨token, more, tokens, kind, c, first, opens⟩ := opened 0
  obtain ⟨text, rest, lines, begins⟩ := Statement.layout_opens tokens kind
  obtain ⟨others, same⟩ := List.head?_eq_some_iff.mp first
  obtain ⟨ending, whole⟩ := begins
  rw [same, List.cons_append] at whole
  have apart : '\n' ∉ (String.singleton c).toList ∧ '\r' ∉ (String.singleton c).toList := by
    rw [String.toList_singleton, List.mem_singleton, List.mem_singleton]
    constructor
    · rintro rfl
      exact opens (by decide)
    · rintro rfl
      exact opens (by decide)
  obtain rfl : text = String.singleton c ++ String.ofList (others ++ ending) := by
    rw [← String.toList_inj, ← whole]
    simp
  refine ⟨_, by rw [lines]; exact List.mem_cons_self,
    _, by rw [Model.linesOf_append apart.1 apart.2]; exact List.mem_cons_self, fun remark => ?_⟩
  obtain rfl : c = '#' := remark c (by simp)
  exact opens (by decide)

def IsComment (text : String) : Prop := ∃ rest, text.toList = '#' :: rest ∧ '\n' ∉ rest ∧ '\r' ∉ rest

def HeaderLine.IsPlain : HeaderLine → Prop
  | .blank => True
  | .comment text => IsComment text
  | .statement _ => False

private theorem isComment_commentText {rest : List Char} (whole : '\n' ∉ rest ∧ '\r' ∉ rest) :
    IsComment (commentText ('#' :: rest)) := by
  have kept : ∀ c ∈ dropTrailing isBlank rest, c ∈ rest := fun c member => mem_of_mem_dropTrailing member
  have apart : '\n' ∉ dropTrailing isBlank rest ∧ '\r' ∉ dropTrailing isBlank rest :=
    ⟨fun member => whole.1 (kept _ member), fun member => whole.2 (kept _ member)⟩
  rw [commentText, dropTrailing_cons_of_neg (by decide)]
  cases trimmed : dropTrailing isBlank rest with
  | nil => exact ⟨[], rfl, by simp⟩
  | cons c others =>
    rw [trimmed] at apart
    simp only [List.mem_cons, not_or] at apart
    change IsComment (if _ then _ else if _ then _ else _)
    split
    · exact ⟨' ' :: others, String.toList_ofList, by simp [apart]⟩
    · split
      · exact ⟨c :: others, String.toList_ofList, by simp [apart]⟩
      · exact ⟨' ' :: c :: others, String.toList_ofList, by simp [apart]⟩

private theorem read?_of_isRemark {line : String} (remark : IsRemark line) (whole : IsWhole line) :
    ∃ part, HeaderLine.read? line = some part ∧ part.IsPlain := by
  rw [HeaderLine.read?]
  have kept : ∀ c ∈ skipGap line.toList, c ∈ line.toList := fun c member => (List.dropWhile_sublist _).subset member
  cases chars : skipGap line.toList with
  | nil => exact ⟨.blank, rfl, trivial⟩
  | cons c rest =>
    obtain rfl : c = '#' := remark c (by rw [chars]; rfl)
    rw [chars] at kept
    refine ⟨_, rfl, isComment_commentText ⟨fun member => whole.1 (kept _ ?_), fun member => whole.2 (kept _ ?_)⟩⟩
    all_goals exact List.mem_cons_of_mem _ member

private theorem read?_of_not_isRemark {line : String} (other : ¬ IsRemark line) {part : HeaderLine}
    (read : HeaderLine.read? line = some part) :
    ∃ statement, part = .statement statement ∧ readStatement? line.toList = some statement := by
  rw [HeaderLine.read?] at read
  split at read
  · rename_i chars
    exact absurd (fun c member => by simp [chars] at member) other
  · rename_i chars
    exact absurd (fun c member => by simpa [chars, eq_comm] using member) other
  · obtain ⟨statement, found, rfl⟩ := Option.map_eq_some_iff.mp read
    exact ⟨statement, rfl, found⟩

private theorem read_of_mapM {lines : List String} {parts : List HeaderLine}
    (read : lines.mapM HeaderLine.read? = some parts) :
    (∀ line ∈ lines, ∃ part ∈ parts, HeaderLine.read? line = some part) ∧ ∀ part ∈ parts, ∃ line ∈ lines,
      HeaderLine.read? line = some part := by
  have each := mapM_some read
  exact ⟨fun line => exists_of_mem each, fun part => exists_of_mem each.flip⟩

theorem mapM_of_isRemark {lines : List String} (remarks : ∀ line ∈ lines, IsRemark line)
    (whole : ∀ line ∈ lines, IsWhole line) :
    ∃ parts, lines.mapM HeaderLine.read? = some parts := by
  induction lines with
  | nil => exact ⟨[], rfl⟩
  | cons line rest ih =>
    obtain ⟨own, others⟩ := List.forall_mem_cons.mp remarks
    obtain ⟨part, read, _⟩ := read?_of_isRemark own (whole line List.mem_cons_self)
    obtain ⟨parts, later⟩ := ih others fun line member => whole line (List.mem_cons_of_mem _ member)
    exact ⟨part :: parts, by rw [List.mapM_cons, read, later]; rfl⟩

theorem headerLines_plain {parts : List HeaderLine} (plain : ∀ part ∈ parts, part.IsPlain) (blanks : Nat)
    (afterImport : Bool) :
    ∀ text ∈ headerLines blanks afterImport parts, text = "" ∨ IsComment text := by
  have blank : ∀ count, ∀ text ∈ blankLines count, text = "" ∨ IsComment text :=
    fun count text member => .inl (List.eq_of_mem_replicate member)
  induction parts generalizing blanks afterImport with
  | nil => exact blank _
  | cons part rest ih =>
    obtain ⟨own, others⟩ := List.forall_mem_cons.mp plain
    cases part with
    | blank => exact ih others _ _
    | comment text => exact List.forall_mem_append.mpr ⟨blank _, List.forall_mem_cons.mpr ⟨.inr own, ih others _ _⟩⟩
    | statement line => exact own.elim

private theorem layout_subset_headerLines {parts : List HeaderLine} {statement : Statement}
    (member : .statement statement ∈ parts) (blanks : Nat)
    (afterImport : Bool) : statement.layout 0 ⊆ headerLines blanks afterImport parts := by
  induction parts generalizing blanks afterImport with
  | nil => cases member
  | cons part rest ih =>
    cases part with
    | blank => exact ih ((List.mem_cons.mp member).resolve_left nofun) _ _
    | comment text =>
      refine fun line inside => List.mem_append_right _ (List.mem_cons_of_mem _ ?_)
      exact ih ((List.mem_cons.mp member).resolve_left nofun) _ _ inside
    | statement own =>
      intro line inside
      rw [headerLines, List.append_assoc]
      refine List.mem_append_right _ ?_
      rcases List.mem_cons.mp member with ⟨⟨⟩⟩ | later
      · exact List.mem_append_left _ inside
      · exact List.mem_append_right _ (ih later _ _ inside)

private theorem isPlainRemark_of_isComment {text : String} (comment : IsComment text) :
    ∀ line ∈ linesOf text, IsPlainRemark line := by
  obtain ⟨rest, chars, lineFeed, carriageReturn⟩ := comment
  have apart : ∀ c, c ≠ '#' → c ∉ rest → c ∉ text.toList := fun c other none => by simp [chars, other, none]
  rw [Model.linesOf_whole (apart _ (by decide) lineFeed) (apart _ (by decide) carriageReturn),
    List.forall_mem_singleton, IsPlainRemark, chars]
  rintro _ ⟨⟩
  rfl

theorem plain_of_isRemark {lines : List String} {parts : List HeaderLine}
    (read : lines.mapM HeaderLine.read? = some parts)
    (whole : ∀ line ∈ lines, IsWhole line) (remarks : ∀ line ∈ lines, IsRemark line) :
    ∀ part ∈ parts, part.IsPlain := by
  intro part member
  obtain ⟨line, among, own⟩ := (read_of_mapM read).2 part member
  obtain ⟨other, same, plain⟩ := read?_of_isRemark (remarks line among) (whole line among)
  obtain rfl := Option.some.inj (own.symm.trans same)
  exact plain

/-- The lines of the head that are read are remarks in text exactly if the lines that they are made from are. -/
theorem remarks_iff {lines : List String} {parts : List HeaderLine} (read : lines.mapM HeaderLine.read? = some parts)
    (whole : ∀ line ∈ lines, IsWhole line) :
    (∀ line ∈ linesOf (linesText (headerLines 0 false parts)), IsPlainRemark line) ↔ ∀ line ∈ lines, IsRemark line := by
  rw [linesOf_linesText]
  constructor
  · intro remarks line member
    by_contra other
    obtain ⟨part, among, own⟩ := (read_of_mapM read).1 line member
    obtain ⟨statement, rfl, found⟩ := read?_of_not_isRemark other own
    obtain ⟨text, laid, line, inside, none⟩ := not_remark_of_opened (readStatement?_opens found)
    exact none
      (remarks line
        (List.mem_append_left _ (List.mem_flatMap.mpr ⟨text, layout_subset_headerLines among _ _ laid, inside⟩)))
  · intro remarks
    refine List.forall_mem_append.mpr ⟨fun line member => ?_, List.forall_mem_singleton.mpr nofun⟩
    obtain ⟨text, laid, inside⟩ := List.mem_flatMap.mp member
    rcases headerLines_plain (plain_of_isRemark read whole remarks) 0 false text laid with rfl | comment
    · have empty : linesOf "" = [""] := rfl
      rw [empty, List.mem_singleton] at inside
      subst inside
      exact nofun
    · exact isPlainRemark_of_isComment comment line inside

private theorem read?_comment {chars : List Char} (whole : '\n' ∉ chars ∧ '\r' ∉ chars) :
    Reading.read? .comment (chars ++ ['\n']) = some (.code false, ['\n']) := by
  induction chars with
  | nil => rfl
  | cons c rest ih =>
    simp only [List.mem_cons, not_or] at whole
    obtain ⟨⟨lineFeed, later⟩, carriageReturn, others⟩ := whole
    have step : Reading.next? .comment c = some (.comment, []) := by
      simp [Reading.next?, Ne.symm lineFeed, Ne.symm carriageReturn]
    exact Reading.read?_cons step (ih ⟨later, others⟩)

/-- Nothing but line ends is left of blank lines and comments. -/
theorem read?_remarks {lines : List String} (plain : ∀ text ∈ lines, text = "" ∨ IsComment text) :
    Reading.read? (.code false) (linesText lines).toList = some (.code false, List.replicate lines.length '\n') := by
  induction lines with
  | nil => rfl
  | cons text rest ih =>
    obtain ⟨own, others⟩ := List.forall_mem_cons.mp plain
    have line : Reading.read? (.code false) (text.toList ++ ['\n']) = some (.code false, ['\n']) := by
      rcases own with rfl | ⟨chars, same, whole⟩
      · decide
      · have step : Reading.next? (.code false) '#' = some (.comment, []) := by decide
        rw [same, List.cons_append]
        exact Reading.read?_cons step (read?_comment whole)
    rw [toList_linesText_cons]
    exact Reading.read?_append line (ih others)

end TableModels.Code
