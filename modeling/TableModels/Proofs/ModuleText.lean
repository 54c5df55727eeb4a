import TableModels.Proofs.HeaderText

/-! Modules in text. After its head a module is read from code to code, and its code has the words of its own blocks
and numbers alone. All other text in it stands in comments and between quotes. -/

namespace TableModels.Code

open Text

/-- The words that a block is written with, apart from numbers. -/
def Block.vocabulary : Block → List String
  | .statement line => line.vocabulary
  | .guarded condition body => "if" :: condition :: body.flatMap Statement.vocabulary
  | .definition d => "class" :: d.name :: d.base :: d.body.flatMap Statement.vocabulary

/-- The documentation of each class ends in a point. -/
def Block.Documented : Block → Prop
  | .definition d => EndsInPoint d.doc.toList
  | _ => True

section

variable {allowed : List Char → Prop}

private theorem classTokens_legible {definition : ClassDefinition} (mark : Spelled allowed "class")
    (name : Spelled allowed definition.name)
    (base : Spelled allowed definition.base) : Gives (classTokens definition) (Legible allowed) := by
  have colon : IsMark ":" ':' := ⟨rfl, by decide⟩
  have start : Legible allowed [.word "class", .word definition.name true] := by
    refine (Legible.single (mark.legible false)).append (.single (name.legible true)) ?_
    rintro _ ⟨⟩
    exact .inl rfl
  rw [classTokens]
  refine (Gives.round id (.pure (.single (base.legible false)))).bind fun tokens both => .pure ?_
  refine (start.append both.1 both.2).append (.single (colon.legible_word)) ?_
  rintro _ ⟨⟩
  exact .inr colon.free

private theorem reads_condition {condition : String} (mark : Spelled allowed "if") (own : Spelled allowed condition) :
    Reads allowed ("if " ++ condition ++ ":").toList := by
  have chars : ("if " ++ condition ++ ":").toList = "if".toList ++ [' '] ++ condition.toList ++ [':'] := by
    rw [String.toList_append, String.toList_append]
    rfl
  have first : Reads allowed ("if".toList ++ [' ']) :=
    (reads_word mark.each fun _ => mark.allows).append (reads_mark (by decide))
    (.inr (free_mark (by decide)))
  rw [chars]
  refine (first.append (reads_word own.each fun _ => own.allows) (.inl ?_)).append (reads_mark (by decide))
    (.inr (free_mark (by decide)))
  exact (loose_append (List.cons_ne_nil _ _)).mpr (loose_mark (by decide))

theorem Block.reads_layout (figures : ∀ word, IsFigure word → allowed word) {block : Block}
    (spelled : ∀ word ∈ block.vocabulary, Spelled allowed word) (documented : block.Documented) :
    ∀ line ∈ block.layout, Reads allowed line.toList := by
  have body : ∀ statements : List Statement, (∀ word ∈ statements.flatMap Statement.vocabulary, Spelled allowed word) →
      ∀ line ∈ statements.flatMap (Statement.layout 1), Reads allowed line.toList := by
    intro statements each line member
    obtain ⟨statement, among, inside⟩ := List.mem_flatMap.mp member
    exact statement.reads_layout figures
      (fun word own => each word (List.mem_flatMap.mpr ⟨statement, among, own⟩)) 1 line inside
  cases block with
  | statement line => exact line.reads_layout figures spelled 0
  | guarded condition statements =>
    rw [vocabulary, List.forall_mem_cons, List.forall_mem_cons] at spelled
    obtain ⟨mark, own, each⟩ := spelled
    exact List.forall_mem_cons.mpr ⟨reads_condition mark own, body statements each⟩
  | definition d =>
    rw [vocabulary, List.forall_mem_cons, List.forall_mem_cons, List.forall_mem_cons] at spelled
    obtain ⟨mark, name, base, each⟩ := spelled
    rw [layout, ClassDefinition.layout]
    refine List.forall_mem_append.mpr ⟨?_,
      List.forall_mem_cons.mpr ⟨reads_docLayout documented, List.forall_mem_cons.mpr ⟨.nil, body d.body each⟩⟩⟩
    obtain ⟨shown, first, rest, same, _, _, legible⟩ :=
      layout_lines legible_lasting 0 false (classTokens_legible mark name base 0)
    rw [same]
    intro text member
    obtain ⟨line, inside, rfl⟩ := List.mem_map.mp member
    exact line.reads_text (legible line inside) shown

private theorem reads_linesText {lines : List String} (each : ∀ line ∈ lines, Reads allowed line.toList) :
    Reads allowed (linesText lines).toList := by
  induction lines with
  | nil => exact .nil
  | cons line rest ih =>
    obtain ⟨own, others⟩ := List.forall_mem_cons.mp each
    have ended : Reads allowed (line.toList ++ ['\n']) :=
      own.append (reads_mark (by decide)) (.inr (free_mark (by decide)))
    rw [toList_linesText_cons]
    exact ended.append (ih others) (.inl ((loose_append (List.cons_ne_nil _ _)).mpr (loose_mark (by decide))))

private theorem reads_blockLines (figures : ∀ word, IsFigure word → allowed word) {blocks : List Block}
    (spelled : ∀ block ∈ blocks, ∀ word ∈ block.vocabulary, Spelled allowed word)
    (documented : ∀ block ∈ blocks, block.Documented) (before : Option Block) :
    ∀ line ∈ blockLines before blocks, Reads allowed line.toList := by
  induction blocks generalizing before with
  | nil => exact nofun
  | cons block rest ih =>
    obtain ⟨own, others⟩ := List.forall_mem_cons.mp spelled
    obtain ⟨documentation, later⟩ := List.forall_mem_cons.mp documented
    rw [blockLines]
    refine List.forall_mem_append.mpr
      ⟨List.forall_mem_append.mpr ⟨fun line member => ?_, block.reads_layout figures own documentation⟩,
        ih others later _⟩
    rw [List.eq_of_mem_replicate member]
    exact .nil

end

/-- A module of which the first block imports names. -/
def Module.BeginsWithImport (module : Module) : Prop :=
  ∃ level source names rest, module.blocks = .statement (.importFrom level source names) :: rest

private theorem laid_out_opens {module : Module} (begins : module.BeginsWithImport) :
    "from".toList <+: (linesText (blockLines none module.blocks)).toList := by
  obtain ⟨level, source, names, rest, same⟩ := begins
  have tokens : ∃ more, ((Statement.importFrom level source names).tokens.run 0).1 = .word "from" :: more := ⟨_, rfl⟩
  obtain ⟨more, tokens⟩ := tokens
  obtain ⟨first, others, lines, opens⟩ := Statement.layout_opens tokens rfl
  have all : blockLines none module.blocks = first ::
      (others ++ blockLines (some (.statement (.importFrom level source names))) rest) := by
    rw [same, blockLines, Block.layout, lines]
    rfl
  rw [all, toList_linesText_cons, List.append_assoc]
  exact opens.trans (List.prefix_append _ _)

private theorem plain_opens {module : Module} (begins : module.BeginsWithImport) :
    "from".toList <+: (String.ofList ((plainBlocks module.blocks).toList.dropWhile isBlank)).toList := by
  obtain ⟨level, source, names, rest, same⟩ := begins
  obtain ⟨more, lines⟩ : ∃ more, module.blocks.flatMap Block.plainLines =
      (Statement.importFrom level source names).plain :: more := by
    rw [same]
    exact ⟨_, rfl⟩
  have opened : "from".toList <+: (plainBlocks module.blocks).toList := by
    have first : "from".toList <+: (Statement.importFrom level source names).plain.toList := by
      rw [Statement.plain, String.toList_append, String.toList_append, String.toList_append, String.toList_append,
        List.append_assoc, List.append_assoc, List.append_assoc]
      exact ⟨' ' :: _, rfl⟩
    rw [plainBlocks, lines]
    cases more with
    | nil => simpa using first
    | cons second more =>
      rw [String.intercalate_cons_cons, String.toList_append, String.toList_append, List.append_assoc]
      exact first.trans (List.prefix_append _ _)
  have kept : (plainBlocks module.blocks).toList.dropWhile isBlank = (plainBlocks module.blocks).toList := by
    obtain ⟨ending, chars⟩ := opened
    rw [← chars]
    rfl
  rwa [kept, String.ofList_toList]

private theorem linesText_append (first second : List String) :
    linesText (first ++ second) = linesText first ++ linesText second := by
  rw [linesText, List.map_append, String.join_append]
  rfl

private theorem linesOf_intercalate {header : List String} (filled : header ≠ []) (more : String) :
    linesOf ("\n".intercalate header ++ "\n" ++ more) = header.flatMap linesOf ++ linesOf more := by
  induction header with
  | nil => exact absurd rfl filled
  | cons first rest ih =>
    cases rest with
    | nil => simp [linesOf_line]
    | cons second rest =>
      have apart : "\n".intercalate (first :: second :: rest) ++ "\n" ++ more =
          first ++ "\n" ++ ("\n".intercalate (second :: rest) ++ "\n" ++ more) := by
        rw [String.intercalate_cons_cons]
        simp only [String.append_assoc]
      rw [apart, linesOf_line, ih (List.cons_ne_nil _ _), ← List.append_assoc, ← List.flatMap_cons]

private theorem isWhole_of_header {header : List String} : ∀ line ∈ header.flatMap linesOf, IsWhole line := by
  intro line member
  obtain ⟨text, _, inside⟩ := List.mem_flatMap.mp member
  exact isWhole_of_mem_linesOf inside

/-- The text of a module is that of its head and its own, which begins with its first import. What comes before that
is blank or a comment, line by line, exactly if the lines that the head is made from are. -/
theorem Module.text_parts {module : Module} (begins : module.BeginsWithImport) :
    ∃ head own, module.text = head ++ own ∧ "from".toList <+: own.toList ∧
      ((∀ line ∈ linesOf head, IsPlainRemark line) ↔ ∀ line ∈ module.header.flatMap linesOf, IsRemark line) ∧
      ((∀ line ∈ module.header.flatMap linesOf, IsRemark line) → own = linesText (blockLines none module.blocks) ∧
        ∃ count, Reading.read? (.code false) head.toList = some (.code false, List.replicate count '\n')) := by
  cases read : (module.header.flatMap linesOf).mapM HeaderLine.read? with
  | some parts =>
    have text : module.text = linesText (headerLines 0 false parts) ++ linesText (blockLines none module.blocks) := by
      rw [← linesText_append, Module.text, Module.formatted?, readHeader?, read]
      rfl
    refine ⟨_, _, text, laid_out_opens begins, remarks_iff read isWhole_of_header,
      fun remarks => ⟨rfl, _, read?_remarks ?_⟩⟩
    exact headerLines_plain (plain_of_isRemark read isWhole_of_header remarks) 0 false
  | none =>
    have other : ¬ ∀ line ∈ module.header.flatMap linesOf, IsRemark line := by
      intro remarks
      obtain ⟨parts, found⟩ := mapM_of_isRemark remarks isWhole_of_header
      cases read.symm.trans found
    have filled : module.header ≠ [] := by
      intro none
      rw [none] at read
      cases read
    have text : module.text = ("\n".intercalate module.header ++ "\n" ++ "\n") ++
        String.ofList ((plainBlocks module.blocks).toList.dropWhile isBlank) := by
      have ends : "\n\n" = "\n" ++ "\n" := rfl
      rw [Module.text, Module.formatted?, readHeader?, read, Option.map_none, Option.getD_none, Module.plain,
        withHeader, ends, ← String.append_assoc]
    refine ⟨_, _, text, plain_opens begins,
      ⟨fun remarks => absurd (fun line member => (remarks line ?_).isRemark) other,
        fun remarks => absurd remarks other⟩, fun remarks => absurd remarks other⟩
    rw [linesOf_intercalate filled]
    exact List.mem_append_left _ member

/-- Where the head is made of blank lines and comments, the whole text is read to its end, and its code is made of
what the blocks are written with. -/
theorem Module.skeleton_of_remarks {allowed : List Char → Prop} {module : Module} (begins : module.BeginsWithImport)
    (figures : ∀ word, IsFigure word → allowed word)
    (spelled : ∀ block ∈ module.blocks, ∀ word ∈ block.vocabulary, Spelled allowed word)
    (documented : ∀ block ∈ module.blocks, block.Documented)
    (remarks : ∀ line ∈ module.header.flatMap linesOf, IsRemark line) :
    ∃ code, skeleton? module.text = some code ∧ Proper allowed code := by
  obtain ⟨head, own, text, _, _, parts⟩ := Module.text_parts begins
  obtain ⟨rfl, count, before⟩ := parts remarks
  obtain ⟨last, code, read, rests, _, _, proper⟩ := reads_linesText (reads_blockLines figures spelled documented none)
  have closed : last.isClosed = true := by cases rests <;> rfl
  have all : Reading.read? (.code false) module.text.toList = some (last, List.replicate count '\n' ++ code) := by
    rw [text, String.toList_append]
    exact Reading.read?_append before read
  have ends : ∀ c ∈ List.replicate count '\n', c = '\n' := fun c member => List.eq_of_mem_replicate member
  have lineEnds : Proper allowed (List.replicate count '\n') := by
    refine ⟨fun c member => .inr (.inl (ends c member ▸ by decide)), ?_⟩
    rw [words_marks fun c member => ends c member ▸ rfl]
    exact nofun
  refine ⟨_, by rw [skeleton?, all]; exact if_pos closed, lineEnds.append proper (.inl fun c member => ?_)⟩
  rw [ends c (List.mem_of_getLast? member)]
  rfl

end TableModels.Code
