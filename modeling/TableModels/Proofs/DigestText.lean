import Mathlib.Data.List.Infix
import TableModels.Proofs.Stored
import TableModels.Schema.Digest

/-! What a digest tells apart. The digested text joins free texts with bars and line ends and escapes nothing, so two
tables may share it. It can be taken apart again as long as no name or type holds a bar and no text holds what opens
the line of a column. Then it gives everything that is stored of a table, but for a default that spells a missing
one. -/

namespace TableModels

namespace Digest

/-- Two messages that the digest does not tell apart. -/
def Collide (first second : List UInt8) : Prop := first ≠ second ∧ sha256Hex first = sha256Hex second

private theorem toList_loop (bytes : ByteArray) (index : Nat) (read : List UInt8) :
    ByteArray.toList.loop bytes index read = read.reverse ++ bytes.data.toList.drop index := by
  fun_induction ByteArray.toList.loop bytes index read with
  | case1 index read inside ih =>
    have bound : index < bytes.data.toList.length := inside
    rw [ih, List.drop_eq_getElem_cons bound, List.reverse_cons, List.append_assoc, List.singleton_append]
    simp [ByteArray.get!, getElem!_pos bytes.data index inside]
  | case2 index read outside =>
    have beyond : bytes.data.toList.length ≤ index := Nat.not_lt.mp outside
    rw [List.drop_eq_nil_of_le beyond, List.append_nil]

private theorem bytes_inj {first second : String} (same : first.toUTF8.toList = second.toUTF8.toList) :
    first = second := by
  have data : first.toUTF8.data.toList = second.toUTF8.data.toList := by
    simpa [ByteArray.toList, toList_loop] using same
  exact String.toByteArray_inj.mp (ByteArray.ext (Array.toList_inj.mp data))

end Digest

namespace Schema

section Marks

variable {mark first second early late : List Char}

/-- Nothing more comes, or a mark. -/
def Marked (mark rest : List Char) : Prop := rest = [] ∨ mark <+: rest

/-- A mark whose first character does not come again cannot begin within what is left over. -/
private theorem nothing_over {c : Char} {tail excess : List Char} (once : c ∉ tail)
    (free : ¬ c :: tail <:+: first ++ excess)
    (marked : Marked (c :: tail) (excess ++ late)) (rest : Marked (c :: tail) late) : excess = [] := by
  rcases marked with ends | opens
  · exact (List.append_eq_nil_iff.mp ends).1
  cases excess with
  | nil => rfl
  | cons d others =>
    rw [List.cons_append] at opens
    obtain ⟨rfl, follows⟩ := List.cons_prefix_cons.mp opens
    exfalso
    rcases List.prefix_or_prefix_of_prefix follows (List.prefix_append others late) with within | ⟨left, rfl⟩
    · exact free (((List.cons_prefix_cons.mpr ⟨rfl, within⟩).isInfix).trans (List.suffix_append _ _).isInfix)
    · have begins := (List.prefix_append_right_inj others).mp follows
      cases left with
      | nil => exact free (by simpa using (List.suffix_append first (c :: others)).isInfix)
      | cons d left =>
        rcases rest with rfl | ⟨more, rfl⟩
        · simp at begins
        · obtain ⟨rfl, _⟩ := List.cons_prefix_cons.mp begins
          exact once (by simp)

private theorem append_marked_inj {c : Char} {tail : List Char} (once : c ∉ tail) (freeFirst : ¬ c :: tail <:+: first)
    (freeSecond : ¬ c :: tail <:+: second) (markedEarly : Marked (c :: tail) early)
    (markedLate : Marked (c :: tail) late)
    (same : first ++ early = second ++ late) : first = second ∧ early = late := by
  rcases List.append_eq_append_iff.mp same with ⟨excess, rfl, rfl⟩ | ⟨excess, rfl, rfl⟩
  · obtain rfl := nothing_over once freeSecond markedEarly markedLate
    simp
  · obtain rfl := nothing_over once freeFirst markedLate markedEarly
    simp

private theorem append_bar_inj {early late : List Char} (freeFirst : '|' ∉ first) (freeSecond : '|' ∉ second)
    (same : first ++ '|' :: early = second ++ '|' :: late) : first = second ∧ early = late := by
  have marked : ∀ rest, Marked ['|'] ('|' :: rest) := fun rest => .inr ⟨rest, rfl⟩
  have both :=
    append_marked_inj List.not_mem_nil (by rwa [List.singleton_infix_iff]) (by rwa [List.singleton_infix_iff])
    (marked early) (marked late) same
  exact ⟨both.1, (List.cons.inj both.2).2⟩

end Marks

def columnMark : List Char := '\n' :: "  column:".toList

namespace Column

/-- The default as the digest spells it. -/
def spelledDefault (column : Column) : String := column.default.getD "null"

/-- What the digest takes in of a column. -/
def spelled (column : Column) : String × String × Bool × Bool × String :=
  (column.name, column.sourceType, column.nullable, column.isPrimaryKey, column.spelledDefault)

/-- No text of the column can be taken for what separates it from the others. -/
structure Legible (column : Column) : Prop where
  name : '|' ∉ column.name.toList
  sourceType : '|' ∉ column.sourceType.toList
  default : ¬ columnMark <:+: column.spelledDefault.toList

def fieldChars (column : Column) : List Char :=
  column.name.toList ++ '|' :: (column.sourceType.toList ++ '|' :: ((flag column.nullable).toList ++ '|' ::
    ((flag column.isPrimaryKey).toList ++ '|' :: column.spelledDefault.toList)))

private theorem toList_digestLine (column : Column) :
    '\n' :: column.digestLine.toList = columnMark ++ column.fieldChars := by
  simp [digestLine, fieldChars, columnMark, spelledDefault]

end Column

private theorem bar_not_mem_flag (value : Bool) : '|' ∉ (flag value).toList := by cases value <;> decide

private theorem flag_inj {first second : Bool} (same : (flag first).toList = (flag second).toList) :
    first = second := by
  revert first second
  decide

private theorem Column.fieldChars_inj {first second : Column} {early late : List Char} (legible : first.Legible)
    (other : second.Legible)
    (markedEarly : Marked columnMark early) (markedLate : Marked columnMark late)
    (same : first.fieldChars ++ early = second.fieldChars ++ late) : first.spelled = second.spelled ∧ early = late := by
  simp only [fieldChars, List.append_assoc, List.cons_append] at same
  obtain ⟨name, same⟩ := append_bar_inj legible.name other.name same
  obtain ⟨sourceType, same⟩ := append_bar_inj legible.sourceType other.sourceType same
  obtain ⟨nullable, same⟩ := append_bar_inj (bar_not_mem_flag _) (bar_not_mem_flag _) same
  obtain ⟨key, same⟩ := append_bar_inj (bar_not_mem_flag _) (bar_not_mem_flag _) same
  obtain ⟨default, rest⟩ := append_marked_inj (by decide) legible.default other.default markedEarly markedLate same
  refine ⟨?_, rest⟩
  rw [spelled, spelled, String.toList_inj.mp name, String.toList_inj.mp sourceType, flag_inj nullable, flag_inj key,
    String.toList_inj.mp default]

def columnChars (columns : List Column) : List Char := columns.flatMap fun column => columnMark ++ column.fieldChars

private theorem columnChars_cons (column : Column) (rest : List Column) :
    columnChars (column :: rest) = columnMark ++ (column.fieldChars ++ columnChars rest) := by simp [columnChars]

private theorem marked_columnChars (columns : List Column) : Marked columnMark (columnChars columns) := by
  cases columns with
  | nil => exact .inl rfl
  | cons column rest => exact .inr ⟨_, (columnChars_cons column rest).symm⟩

private theorem columnChars_inj {first second : List Column} (legible : ∀ column ∈ first, column.Legible)
    (other : ∀ column ∈ second, column.Legible) (same : columnChars first = columnChars second) :
    first.map Column.spelled = second.map Column.spelled := by
  induction first generalizing second with
  | nil =>
    cases second with
    | nil => rfl
    | cons column rest => simp [columnChars, columnMark] at same
  | cons column rest ih =>
    cases second with
    | nil => simp [columnChars, columnMark] at same
    | cons another others =>
      rw [columnChars_cons, columnChars_cons, List.append_cancel_left_eq] at same
      obtain ⟨spelled, same⟩ :=
        Column.fieldChars_inj (legible column List.mem_cons_self) (other another List.mem_cons_self)
        (marked_columnChars rest) (marked_columnChars others) same
      rw [List.map_cons, List.map_cons, spelled,
        ih (fun _ member => legible _ (List.mem_cons_of_mem _ member))
          (fun _ member => other _ (List.mem_cons_of_mem _ member)) same]

namespace Table

structure Legible (table : Table) : Prop where
  name : ¬ columnMark <:+: table.name.toList
  columns : ∀ column ∈ table.columns, column.Legible

/-- What is digested of a table. -/
def digested (table : Table) : List UInt8 := table.digestText.toUTF8.toList

private theorem toList_digestText (table : Table) :
    table.digestText.toList = "table:".toList ++ (table.name.toList ++ columnChars table.columns) := by
  have joined : ∀ (line : String) (columns : List Column),
      ("\n".intercalate (line :: columns.map Column.digestLine)).toList =
      line.toList ++ columnChars columns := by
    intro line columns
    induction columns generalizing line with
    | nil => simp [columnChars]
    | cons column rest ih =>
      rw [List.map_cons, String.intercalate_cons_cons, String.toList_append, String.toList_append, ih, columnChars_cons,
        ← List.append_assoc columnMark, ← Column.toList_digestLine]
      simp
  rw [digestText, joined, String.toList_append, List.append_assoc]

private theorem digestText_inj {first second : Table} (legible : first.Legible) (other : second.Legible)
    (same : first.digestText = second.digestText) :
    first.name = second.name ∧ first.columns.map Column.spelled = second.columns.map Column.spelled := by
  have chars := congrArg String.toList same
  rw [toList_digestText, toList_digestText, List.append_cancel_left_eq] at chars
  obtain ⟨name, columns⟩ :=
    append_marked_inj (by decide) legible.name other.name (marked_columnChars _) (marked_columnChars _) chars
  exact ⟨String.toList_inj.mp name, columnChars_inj legible.columns other.columns columns⟩

private theorem digestText_congr {first second : Table} (name : first.name = second.name)
    (columns : first.columns.map Column.spelled = second.columns.map Column.spelled) :
    first.digestText = second.digestText := by
  have lines : ∀ columns : List Column, columns.map Column.digestLine =
      (columns.map Column.spelled).map fun (name, sourceType, nullable, key, default) =>
        "  column:" ++ "|".intercalate [name, sourceType, flag nullable, flag key, default] := by
    intro columns
    rw [List.map_map]
    rfl
  rw [digestText, digestText, name, lines, lines, columns]

end Table

private theorem default_inj {first second : Option String} :
    (first.map Value.text).getD .null = (second.map Value.text).getD .null ↔ first = second := by
  cases first <;> cases second <;> simp

private theorem Column.stored_eq_iff_spelled {first second : Column} (spelt : first.default ≠ some "null")
    (other : second.default ≠ some "null") : first.stored = second.stored ↔ first.spelled = second.spelled := by
  have default : first.spelledDefault = second.spelledDefault ↔ first.default = second.default := by
    unfold spelledDefault
    cases left : first.default <;> cases right : second.default <;> simp_all [eq_comm]
  simp only [stored, spelled, Value.object.injEq, List.cons.injEq, Prod.mk.injEq, Value.text.injEq, Value.bool.injEq,
    default_inj, default, true_and, and_true]
  tauto

private theorem map_eq_map {α β γ : Type} {known : α → β} {wanted : α → γ} {first second : List α}
    (each : ∀ item ∈ first, ∀ other ∈ second, known item = known other → wanted item = wanted other)
    (same : first.map known = second.map known) : first.map wanted = second.map wanted := by
  induction first generalizing second with
  | nil =>
    obtain rfl : second = [] := by simpa using same.symm
    rfl
  | cons item rest ih =>
    cases second with
    | nil => cases same
    | cons other others =>
      obtain ⟨head, tail⟩ := List.cons.inj same
      have later :=
        ih (fun _ member _ inside => each _ (List.mem_cons_of_mem _ member) _ (List.mem_cons_of_mem _ inside)) tail
      rw [List.map_cons, List.map_cons, each item List.mem_cons_self other List.mem_cons_self head, later]

/-- As long as no text can be taken for what separates it from the others, a digest tells tables apart by all that is
stored of them, but takes a missing default for the text null. -/
theorem digest_eq_iff_declared {first second : Table} (legible : first.Legible) (other : second.Legible)
    (secure : ¬ Digest.Collide first.digested second.digested) :
    (first.digest = second.digest ↔
        first.name = second.name ∧ first.columns.map Column.spelled = second.columns.map Column.spelled) ∧
      ((∀ column ∈ first.columns ++ second.columns, column.default ≠ some "null") →
        (first.digest = second.digest ↔ first.stored = second.stored)) := by
  have spelled : first.digest = second.digest ↔
      first.name = second.name ∧ first.columns.map Column.spelled = second.columns.map Column.spelled := by
    constructor
    · intro same
      have bytes : first.digested = second.digested := not_not.mp fun apart => secure ⟨apart, same⟩
      exact Table.digestText_inj legible other (Digest.bytes_inj bytes)
    · rintro ⟨name, columns⟩
      rw [Table.digest, Table.digest, Table.digestText_congr name columns]
  refine ⟨spelled, fun spelt => spelled.trans ?_⟩
  have each : ∀ column ∈ first.columns, ∀ another ∈ second.columns, column.stored = another.stored ↔
      column.spelled = another.spelled :=
    fun column member another inside => Column.stored_eq_iff_spelled (spelt _ (List.mem_append_left _ member))
      (spelt _ (List.mem_append_right _ inside))
  have stored : first.stored = second.stored ↔
      first.name = second.name ∧ first.columns.map Column.stored = second.columns.map Column.stored := by
    simp [Table.stored]
  rw [stored]
  refine and_congr_right
    fun _ => ⟨map_eq_map fun column member another inside => (each column member another inside).mpr,
    map_eq_map fun column member another inside => (each column member another inside).mp⟩

def oneColumn (name sourceType : String) (default : Option String) : Table where
  name := "t"
  columns := [{ name, sourceType, default }]
  distinct := List.nodup_singleton name

private theorem oneColumn_legible {name sourceType : String} {default : Option String} (named : '|' ∉ name.toList)
    (typed : '|' ∉ sourceType.toList) (spelt : ¬ columnMark <:+: (default.getD "null").toList) :
    (oneColumn name sourceType default).Legible := by
  refine ⟨(by decide : ¬ columnMark <:+: "t".toList), fun column only => ?_⟩
  obtain rfl := List.mem_singleton.mp only
  exact ⟨named, typed, spelt⟩

/-- Types are told apart, but not a bar in a name from the bar after it. -/
theorem bar_moves_unseen :
    ((oneColumn "a" "int4" none).digest ≠ (oneColumn "a" "int8" none).digest ∧
        (oneColumn "a" "int4" none).digest = (oneColumn "a" "int4" (some "null")).digest) ∧
      (oneColumn "a|b" "int4" none).digest = (oneColumn "a" "b|int4" none).digest ∧
        (oneColumn "a|b" "int4" none).stored ≠ (oneColumn "a" "b|int4" none).stored := by
  have narrow : (oneColumn "a" "int4" none).Legible := oneColumn_legible (by decide) (by decide) (by decide)
  have wide : (oneColumn "a" "int8" none).Legible := oneColumn_legible (by decide) (by decide) (by decide)
  have spelt : (oneColumn "a" "int4" (some "null")).Legible := oneColumn_legible (by decide) (by decide) (by decide)
  refine ⟨⟨fun digest => ?_, ?_⟩, ?_, by simp [oneColumn, Table.stored, Column.stored]⟩
  · have secure : ¬ Digest.Collide (oneColumn "a" "int4" none).digested (oneColumn "a" "int8" none).digested := by
      rintro ⟨_, collide⟩
      revert collide
      decide +kernel
    have stored := ((digest_eq_iff_declared narrow wide secure).2 (by decide)).mp digest
    simp [oneColumn, Table.stored, Column.stored] at stored
  · have secure : ¬ Digest.Collide (oneColumn "a" "int4" none).digested (oneColumn "a" "int4" (some "null")).digested :=
      fun collide => collide.1 (by decide +kernel)
    exact (digest_eq_iff_declared narrow spelt secure).1.mpr ⟨rfl, rfl⟩
  · have texts : (oneColumn "a|b" "int4" none).digestText = (oneColumn "a" "b|int4" none).digestText := by decide
    rw [Table.digest, Table.digest, texts]

end Schema

end TableModels
