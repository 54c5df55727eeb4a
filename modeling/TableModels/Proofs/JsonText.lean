import Mathlib.Data.List.Nodup
import Mathlib.Data.List.TakeWhile
import TableModels.Json.Printer
import TableModels.Json.Reader
import TableModels.Proofs.Keyed
import TableModels.Proofs.Steps

/-! Written JSON reads back. A text that spells a value is read as the value wherever it stands, and what is
put together from such texts spells what is put together from their values. Whatever text is read, no object in
its value has a name twice. -/

namespace TableModels

namespace Json

private theorem hexValue?_hexDigit : ∀ n < 16, hexValue? (Text.hexDigit n) = some n := by decide

private theorem readHex4_hexDigits {n : Nat} (small : n < 0x10000) (rest : List Char) :
    readHex4 (Text.hexDigits 4 n ++ rest) = some (n, rest) := by
  simp only [Text.hexDigits, List.nil_append, List.cons_append, readHex4]
  rw [hexValue?_hexDigit _ (Nat.mod_lt _ (by omega)), hexValue?_hexDigit _ (Nat.mod_lt _ (by omega)),
    hexValue?_hexDigit _ (Nat.mod_lt _ (by omega)), hexValue?_hexDigit _ (Nat.mod_lt _ (by omega))]
  simp only [Option.bind_eq_bind, Option.bind_some, Option.some.injEq, Prod.mk.injEq, and_true]
  omega

private theorem toNat_not_surrogate (c : Char) : c.toNat < 0xD800 ∨ 0xDFFF < c.toNat ∧ c.toNat < 0x110000 := by
  rcases c.valid with low | ⟨above, below⟩
  · exact .inl low
  · exact .inr ⟨above, below⟩

private theorem readUnicodeEscape_unit {c : Char} (small : c.toNat < 0x10000) (rest : List Char) :
    readUnicodeEscape (Text.hexDigits 4 c.toNat ++ rest) = some (c, rest) := by
  have whole := toNat_not_surrogate c
  have notHigh : isHighSurrogate c.toNat = false := by
    simp only [isHighSurrogate, Bool.and_eq_false_iff, decide_eq_false_iff_not]
    omega
  have notHalf : ¬ (0xD800 ≤ c.toNat ∧ c.toNat ≤ 0xDFFF) := by omega
  simp [readUnicodeEscape, readHex4_hexDigits small, notHigh, unitChar, notHalf]

private theorem isHighSurrogate_iff {n : Nat} : isHighSurrogate n = true ↔ 0xD800 ≤ n ∧ n ≤ 0xDBFF := by
  simp [isHighSurrogate]

private theorem isLowSurrogate_iff {n : Nat} : isLowSurrogate n = true ↔ 0xDC00 ≤ n ∧ n ≤ 0xDFFF := by
  simp [isLowSurrogate]

private theorem readUnicodeEscape_pair {high low : Nat} (isHigh : isHighSurrogate high = true)
    (isLow : isLowSurrogate low = true)
    (rest : List Char) :
    readUnicodeEscape (Text.hexDigits 4 high ++ (unitEscape low ++ rest)) =
      some (Char.ofNat (0x10000 + (high - 0xD800) * 0x400 + (low - 0xDC00)), rest) := by
  have highSmall := (isHighSurrogate_iff.mp isHigh).2
  have lowSmall := (isLowSurrogate_iff.mp isLow).2
  rw [readUnicodeEscape, readHex4_hexDigits (by omega)]
  simp only [unitEscape, List.cons_append, Option.bind_eq_bind, Option.bind_some, isHigh, if_true]
  rw [readHex4_hexDigits (by omega)]
  simp only [isLow, if_true]

private theorem surrogates {n : Nat} (large : 0x10000 ≤ n) (valid : n < 0x110000) :
    isHighSurrogate (0xD800 + (n - 0x10000) / 0x400) = true ∧ isLowSurrogate (0xDC00 + (n - 0x10000) % 0x400) = true ∧
      0x10000 + (0xD800 + (n - 0x10000) / 0x400 - 0xD800) * 0x400 + (0xDC00 + (n - 0x10000) % 0x400 - 0xDC00) = n := by
  rw [isHighSurrogate_iff, isLowSurrogate_iff]
  omega

private theorem readUnicodeEscape_large {c : Char} (large : 0x10000 ≤ c.toNat) (rest : List Char) :
    readUnicodeEscape (Text.hexDigits 4 (0xD800 + (c.toNat - 0x10000) / 0x400) ++
      (unitEscape (0xDC00 + (c.toNat - 0x10000) % 0x400) ++ rest)) = some (c, rest) := by
  have valid : c.toNat < 0x110000 := by
    have := toNat_not_surrogate c
    omega
  obtain ⟨high, low, joined⟩ := surrogates large valid
  rw [readUnicodeEscape_pair high low, joined, Char.ofNat_toNat]

private theorem readString_unicode {fuel : Nat} {read rest after : List Char} {c : Char}
    (found : readUnicodeEscape rest = some (c, after)) :
    readString (fuel + 1) read ('\\' :: 'u' :: rest) = readString fuel (c :: read) after := by
  simp [readString, found]

private theorem readString_escapeChar (fuel : Nat) (read : List Char) (c : Char) (rest : List Char) :
    readString (fuel + 1) read (escapeChar c ++ rest) = readString fuel (c :: read) rest := by
  by_cases short : c = '"' ∨ c = '\\' ∨ c = '\n' ∨ c = '\r' ∨ c = '\t' ∨ c = '\x0c' ∨ c = '\x08'
  · rcases short with rfl | rfl | rfl | rfl | rfl | rfl | rfl <;> rfl
  simp only [not_or] at short
  obtain ⟨quote, backslash, lineFeed, carriageReturn, tab, formFeed, backspace⟩ := short
  simp only [escapeChar, beq_iff_eq, quote, backslash, lineFeed, carriageReturn, tab, formFeed, backspace, if_false]
  by_cases plain : 0x20 ≤ c.toNat ∧ c.toNat < 0x7F
  · have printable : ¬ c.toNat < 0x20 := by omega
    simp [plain, readString, backslash, printable]
  have coded : (decide (0x20 ≤ c.toNat) && decide (c.toNat < 0x7F)) = false := by simpa using plain
  simp only [coded, Bool.false_eq_true, if_false]
  by_cases small : c.toNat < 0x10000
  · rw [if_pos small]
    exact readString_unicode (readUnicodeEscape_unit small rest)
  · rw [if_neg small, List.append_assoc]
    exact readString_unicode (readUnicodeEscape_large (Nat.not_lt.mp small) rest)

private theorem readString_escaped (chars : List Char) {fuel : Nat} (enough : chars.length < fuel)
    (read rest : List Char) :
    readString fuel read (chars.flatMap escapeChar ++ '"' :: rest) =
      .ok (String.ofList (read.reverse ++ chars), rest) := by
  induction chars generalizing fuel read with
  | nil =>
    obtain ⟨fuel, rfl⟩ := Nat.exists_eq_add_of_lt enough
    simp [readString]
  | cons c chars ih =>
    obtain ⟨fuel, rfl⟩ : ∃ less, fuel = less + 1 := ⟨fuel - 1, by omega⟩
    rw [List.flatMap_cons, List.append_assoc, readString_escapeChar, ih (by simpa using enough)]
    simp

/-- Reading nothing would end a text where the next quote stands. -/
private theorem escapeChar_ne_nil (c : Char) : escapeChar c ≠ [] := by
  intro none
  have read := readString_escapeChar 0 [] c ['"']
  rw [none] at read
  cases read

private theorem length_flatMap_escapeChar (chars : List Char) : chars.length ≤ (chars.flatMap escapeChar).length := by
  induction chars with
  | nil => simp
  | cons c chars ih =>
    have some := List.length_pos_iff.mpr (escapeChar_ne_nil c)
    simp only [List.flatMap_cons, List.length_append, List.length_cons]
    omega

private theorem toList_quoted (text : String) :
    (quoted text).toList = '"' :: (text.toList.flatMap escapeChar ++ ['"']) := by
  simp [quoted, quoteChars]

private theorem readString_quoted (text : String) (rest : List Char) :
    readString ((text.toList.flatMap escapeChar ++ '"' :: rest).length + 1) []
      (text.toList.flatMap escapeChar ++ '"' :: rest) = .ok (text, rest) := by
  have long := length_flatMap_escapeChar text.toList
  rw [readString_escaped _ (by rw [List.length_append]; omega)]
  simp

/-- A text that is read as a value wherever it stands and there is room. It opens neither with a blank nor with the
end of a list. -/
structure Spells (limit room : Nat) (chars : List Char) (value : Value) : Prop where
  opens : ∃ first others, chars = first :: others ∧ Text.isBlank first = false ∧ first ≠ ']'
  reads : ∀ fuel rest, chars.length ≤ fuel → readValue limit fuel room (chars ++ rest) = .ok (value, rest)

namespace Spells

variable {limit room : Nat}

theorem text (value : String) : Spells limit room (quoted value).toList (.text value) := by
  refine ⟨⟨'"', _, toList_quoted value, by decide, by decide⟩, fun fuel rest enough => ?_⟩
  obtain ⟨fuel, rfl⟩ : ∃ less, fuel = less + 1 := ⟨fuel - 1, by simp [toList_quoted] at enough; omega⟩
  simp only [toList_quoted, List.cons_append, List.append_assoc, List.nil_append, readValue]
  rw [readString_quoted]
  rfl

theorem null : Spells limit room "null".toList .null := by
  refine ⟨⟨'n', _, rfl, by decide, by decide⟩, fun fuel rest enough => ?_⟩
  obtain ⟨fuel, rfl⟩ : ∃ less, fuel = less + 1 := ⟨fuel - 1, by simp at enough; omega⟩
  simp [readValue, readWord?, words, List.isPrefixOf?]

theorem bool (value : Bool) : Spells limit room (scalar (.bool value)).toList (.bool value) := by
  cases value with
  | true =>
    refine ⟨⟨'t', _, rfl, by decide, by decide⟩, fun fuel rest enough => ?_⟩
    obtain ⟨fuel, rfl⟩ : ∃ less, fuel = less + 1 := ⟨fuel - 1, by simp [scalar] at enough; omega⟩
    simp [scalar, readValue, readWord?, words, List.isPrefixOf?]
  | false =>
    refine ⟨⟨'f', _, rfl, by decide, by decide⟩, fun fuel rest enough => ?_⟩
    obtain ⟨fuel, rfl⟩ : ∃ less, fuel = less + 1 := ⟨fuel - 1, by simp [scalar] at enough; omega⟩
    simp [scalar, readValue, readWord?, words, List.isPrefixOf?]

private theorem emptyList : Spells limit (room + 1) "[]".toList (.list []) := by
  refine ⟨⟨'[', _, rfl, by decide, by decide⟩, fun fuel rest enough => ?_⟩
  obtain ⟨fuel, rfl⟩ : ∃ less, fuel = less + 1 := ⟨fuel - 1, by simp at enough; omega⟩
  simp [readValue, enter, bind, Except.bind, Json.skipSpace, isSpace]

private theorem emptyObject : Spells limit (room + 1) "\x7b\x7d".toList (.object []) := by
  refine ⟨⟨'\x7b', _, rfl, by decide, by decide⟩, fun fuel rest enough => ?_⟩
  obtain ⟨fuel, rfl⟩ : ∃ less, fuel = less + 1 := ⟨fuel - 1, by simp at enough; omega⟩
  simp [readValue, enter, bind, Except.bind, Json.skipSpace, isSpace]

end Spells

private theorem skipSpace_append {gap : List Char} (blank : ∀ c ∈ gap, isSpace c = true) (chars : List Char) :
    skipSpace (gap ++ chars) = skipSpace chars := List.dropWhile_append_of_pos blank

private theorem skipSpace_cons {c : Char} (solid : isSpace c = false) (chars : List Char) :
    skipSpace (c :: chars) = c :: chars := by simp [skipSpace, solid]

private theorem isSpace_of_not_blank {c : Char} (solid : Text.isBlank c = false) : isSpace c = false := by
  rw [← Bool.not_eq_true] at solid ⊢
  intro space
  simp only [isSpace, Bool.or_eq_true, beq_iff_eq] at space
  rcases space with ((rfl | rfl) | rfl) | rfl <;> exact solid (by decide)

theorem Spells.skip {limit room : Nat} {chars : List Char} {value : Value} (spells : Spells limit room chars value)
    (rest : List Char) : skipSpace (chars ++ rest) = chars ++ rest := by
  obtain ⟨first, others, rfl, solid, _⟩ := spells.opens
  exact skipSpace_cons (isSpace_of_not_blank solid) _

section Blocks

variable {limit room : Nat} {lead gap ending : List Char}

private theorem readItems_spells (blankLead : ∀ c ∈ lead, isSpace c = true) (blank : ∀ c ∈ gap, isSpace c = true)
    (blankEnding : ∀ c ∈ ending, isSpace c = true)
    {entries : List (List Char × Value)} (some : entries ≠ [])
    (each : ∀ entry ∈ entries, Spells limit room entry.1 entry.2)
    {fuel : Nat} (enough : ((',' :: gap).intercalate (entries.map Prod.fst)).length < fuel) (read : List Value)
    (rest : List Char) :
    readItems limit fuel room read
      (lead ++ ((',' :: gap).intercalate (entries.map Prod.fst) ++ (ending ++ ']' :: rest))) =
      .ok (read.reverse ++ entries.map Prod.snd, rest) := by
  induction entries generalizing lead fuel read with
  | nil => exact absurd rfl some
  | cons entry later ih =>
    obtain ⟨fuel, rfl⟩ : ∃ less, fuel = less + 1 := ⟨fuel - 1, by omega⟩
    have spells := each entry (by simp)
    cases later with
    | nil =>
      simp only [List.map_cons, List.map_nil, List.intercalate_singleton] at enough ⊢
      rw [readItems, skipSpace_append blankLead, spells.skip, spells.reads fuel _ (by omega)]
      simp only [bind, Except.bind, skipSpace_append blankEnding, skipSpace_cons (c := ']') (by decide)]
      simp
    | cons next others =>
      simp only [List.map_cons, List.intercalate_cons_cons, List.length_append, List.length_cons,
        List.append_assoc, List.cons_append] at enough ⊢
      rw [readItems, skipSpace_append blankLead, spells.skip, spells.reads fuel _ (by omega)]
      simp only [bind, Except.bind, skipSpace_cons (c := ',') (by decide)]
      have fewer : ((',' :: gap).intercalate ((next :: others).map Prod.fst)).length < fuel := by
        simp only [List.map_cons]
        omega
      simpa using ih blank (by simp) (fun entry member => each entry (by simp [member])) fewer (entry.2 :: read)

def rowChars (name : String) (chars : List Char) : List Char := (quoted name).toList ++ ':' :: ' ' :: chars

private theorem readFields_row (blankLead : ∀ c ∈ lead, isSpace c = true) {name : String}
    {chars : List Char} {value : Value}
    (spells : Spells limit room chars value) {fuel : Nat} (enough : chars.length ≤ fuel) (known : Fields)
    (after : List Char) :
    readFields limit (fuel + 1) room known (lead ++ (rowChars name chars ++ after)) =
      match skipSpace after with
      | ',' :: rest => readFields limit fuel room (Keyed.set known name value) rest
      | '\x7d' :: rest => .ok (Keyed.set known name value, rest)
      | _ => .error .malformed := by
  simp only [rowChars, toList_quoted, List.cons_append, List.append_assoc, List.nil_append]
  rw [readFields, skipSpace_append blankLead, skipSpace_cons (by decide)]
  simp only []
  rw [readString_quoted]
  simp only [bind, Except.bind, skipSpace_cons (c := ':') (by decide)]
  have single : ∀ c ∈ [' '], isSpace c = true := by simp [isSpace]
  have skip : skipSpace (' ' :: (chars ++ after)) = chars ++ after :=
    (skipSpace_append single _).trans (spells.skip after)
  rewrite [skip, spells.reads fuel after enough]
  rfl

private theorem readFields_spells (blankLead : ∀ c ∈ lead, isSpace c = true) (blank : ∀ c ∈ gap, isSpace c = true)
    (blankEnding : ∀ c ∈ ending, isSpace c = true)
    {entries : List (String × List Char × Value)} (some : entries ≠ [])
    (each : ∀ entry ∈ entries, Spells limit room entry.2.1 entry.2.2) {known : Fields}
    (distinct : (Keyed.names (known ++ entries.map fun entry => (entry.1, entry.2.2))).Nodup) {fuel : Nat}
    (enough : ((',' :: gap).intercalate (entries.map fun entry => rowChars entry.1 entry.2.1)).length < fuel)
    (rest : List Char) :
    readFields limit fuel room known
        (lead ++ ((',' :: gap).intercalate (entries.map fun entry => rowChars entry.1 entry.2.1) ++
          (ending ++ '\x7d' :: rest))) =
      .ok (known ++ entries.map fun entry => (entry.1, entry.2.2), rest) := by
  induction entries generalizing lead fuel known with
  | nil => exact absurd rfl some
  | cons entry later ih =>
    rcases entry with ⟨name, chars, value⟩
    obtain ⟨fuel, rfl⟩ : ∃ less, fuel = less + 1 := ⟨fuel - 1, by omega⟩
    have spells : Spells limit room chars value := each _ List.mem_cons_self
    have fresh : name ∉ Keyed.names known := by
      simp only [Keyed.names, List.map_append, List.nodup_append] at distinct
      exact fun member => distinct.2.2 _ member name (by simp) rfl
    have put := Keyed.set_of_not_mem value fresh
    have short : chars.length ≤ (rowChars name chars).length := by simp [rowChars]; omega
    cases later with
    | nil =>
      simp only [List.map_cons, List.map_nil, List.intercalate_singleton] at enough ⊢
      rw [readFields_row blankLead spells (by omega), skipSpace_append blankEnding, skipSpace_cons (by decide)]
      simp [put]
    | cons next others =>
      simp only [List.map_cons, List.intercalate_cons_cons, List.length_append, List.length_cons,
        List.append_assoc, List.cons_append] at enough ⊢
      rw [readFields_row blankLead spells (by omega), skipSpace_cons (by decide)]
      have fewer : ((',' :: gap).intercalate ((next :: others).map fun entry => rowChars entry.1 entry.2.1)).length <
          fuel := by
        simp only [List.map_cons]
        omega
      have still :
          (Keyed.names (Keyed.set known name value ++ (next :: others).map
              fun entry => (entry.1, entry.2.2))).Nodup := by
        simpa [put] using distinct
      simpa [put] using ih blank (by simp) (fun entry member => each entry (by simp [member])) still fewer

private theorem intercalate_opens {texts : List (List Char)} {Solid : Char → Prop} (some : texts ≠ [])
    (each : ∀ text ∈ texts, ∃ first others, text = first :: others ∧ Solid first) :
    ∃ first others, gap.intercalate texts = first :: others ∧ Solid first := by
  cases texts with
  | nil => exact absurd rfl some
  | cons text rest =>
    obtain ⟨first, others, rfl, solid⟩ := each _ List.mem_cons_self
    cases rest with
    | nil => exact ⟨first, others, by simp, solid⟩
    | cons next rest =>
      exact ⟨first, others ++ (gap ++ gap.intercalate (next :: rest)), by simp [List.intercalate_cons_cons], solid⟩

private theorem noBlank : ∀ c ∈ ([] : List Char), isSpace c = true := by simp

private theorem spells_list (blank : ∀ c ∈ gap, isSpace c = true) (blankEnding : ∀ c ∈ ending, isSpace c = true)
    {entries : List (List Char × Value)} (some : entries ≠ [])
    (each : ∀ entry ∈ entries, Spells limit room entry.1 entry.2) :
    Spells limit (room + 1) ('[' :: (gap ++ ((',' :: gap).intercalate (entries.map Prod.fst) ++ (ending ++ [']']))))
      (.list (entries.map Prod.snd)) := by
  refine ⟨⟨'[', _, rfl, by decide, by decide⟩, fun fuel rest enough => ?_⟩
  obtain ⟨fuel, rfl⟩ : ∃ less, fuel = less + 1 := ⟨fuel - 1, by simp at enough; omega⟩
  obtain ⟨first, others, opens, solid, notEnd⟩ : ∃ first others,
      (',' :: gap).intercalate (entries.map Prod.fst) = first :: others ∧ Text.isBlank first = false ∧ first ≠ ']' :=
    intercalate_opens (by simpa using some) fun text member => by
      obtain ⟨entry, inside, rfl⟩ := List.mem_map.mp member
      exact (each entry inside).opens
  have fewer : ((',' :: gap).intercalate (entries.map Prod.fst)).length < fuel := by
    simp only [List.length_cons, List.length_append] at enough
    omega
  have read := readItems_spells noBlank blank blankEnding some each fewer [] rest
  rw [opens] at read ⊢
  simp only [List.nil_append, List.cons_append, List.append_assoc] at read ⊢
  simp only [readValue, enter, bind, Except.bind, skipSpace_append blank, skipSpace_cons (isSpace_of_not_blank solid)]
  split
  · rename_i empty
    exact absurd (List.cons.inj empty).1 notEnd
  · rw [read]
    rfl

private theorem spells_object (blank : ∀ c ∈ gap, isSpace c = true) (blankEnding : ∀ c ∈ ending, isSpace c = true)
    {entries : List (String × List Char × Value)} (some : entries ≠ [])
    (each : ∀ entry ∈ entries, Spells limit room entry.2.1 entry.2.2) (distinct : (entries.map Prod.fst).Nodup) :
    Spells limit (room + 1)
      ('\x7b' :: (gap ++ ((',' :: gap).intercalate (entries.map fun entry => rowChars entry.1 entry.2.1) ++
        (ending ++ ['\x7d']))))
      (.object (entries.map fun entry => (entry.1, entry.2.2))) := by
  refine ⟨⟨'\x7b', _, rfl, by decide, by decide⟩, fun fuel rest enough => ?_⟩
  obtain ⟨fuel, rfl⟩ : ∃ less, fuel = less + 1 := ⟨fuel - 1, by simp at enough; omega⟩
  obtain ⟨first, others, opens, rfl⟩ : ∃ first others,
      (',' :: gap).intercalate (entries.map fun entry => rowChars entry.1 entry.2.1) = first :: others ∧ first = '"' :=
    intercalate_opens (by simpa using some) fun text member => by
      obtain ⟨entry, _, rfl⟩ := List.mem_map.mp member
      exact ⟨'"', _, by rw [rowChars, toList_quoted]; rfl, rfl⟩
  have fewer : ((',' :: gap).intercalate (entries.map fun entry => rowChars entry.1 entry.2.1)).length < fuel := by
    simp only [List.length_cons, List.length_append] at enough
    omega
  have apart : (Keyed.names (([] : Fields) ++ entries.map fun entry => (entry.1, entry.2.2))).Nodup := by
    simpa [Keyed.names, Function.comp_def] using distinct
  have read := readFields_spells noBlank blank blankEnding some each apart fewer rest
  rw [opens] at read ⊢
  simp only [List.nil_append, List.cons_append, List.append_assoc] at read ⊢
  have skip := (skipSpace_append blank ('"' :: (others ++ (ending ++ '\x7d' :: rest)))).trans
    (skipSpace_cons (by decide) _)
  simp only [readValue, enter, bind, Except.bind, skip]
  split
  · rename_i empty
    simp at empty
  · rw [read]

end Blocks

private theorem isSpace_newLine (depth : Nat) : ∀ c ∈ (newLine depth).toList, isSpace c = true := by
  intro c member
  simp only [newLine, String.toList_append, String.toList_ofList, List.mem_append, List.mem_replicate] at member
  rcases member with feed | ⟨_, rfl⟩
  · simp at feed
    simp [feed, isSpace]
  · rfl

private theorem toList_block (opening closing : String) (depth : Nat) {items : List String} (some : items ≠ []) :
    (block opening closing depth items).toList =
      opening.toList ++ ((newLine (depth + 1)).toList ++
        ((',' :: (newLine (depth + 1)).toList).intercalate (items.map String.toList) ++
          ((newLine depth).toList ++ closing.toList))) := by
  cases items with
  | nil => exact absurd rfl some
  | cons item rest => simp [block, String.toList_intercalate]

mutual
/-- Data as a cache keeps it: no numbers and no dates, no name twice in one object, and not nested too deep. -/
def IsPlain : Nat → Value → Prop
  | _, .null | _, .bool _ | _, .text _ => True
  | room + 1, .list items => ArePlain room items
  | room + 1, .object fields => (Keyed.names fields).Nodup ∧ HasPlain room fields
  | 0, .list _ | 0, .object _ => False
  | _, .int _ | _, .float _ | _, .moment _ => False

def ArePlain : Nat → List Value → Prop
  | _, [] => True
  | room, item :: rest => IsPlain room item ∧ ArePlain room rest

def HasPlain : Nat → List (String × Value) → Prop
  | _, [] => True
  | room, (_, value) :: rest => IsPlain room value ∧ HasPlain room rest
end

def inOrder {α : Type} (fields : Keyed α) : Keyed α := fields.mergeSort fun first second => !(second.1 < first.1)

mutual
/-- The value with the names of every object in ascending order. -/
def sorted : Value → Value
  | .list items => .list (sortedItems items)
  | .object fields => .object (inOrder (sortedFields fields))
  | value => value

def sortedItems : List Value → List Value
  | [] => []
  | item :: rest => sorted item :: sortedItems rest

def sortedFields : List (String × Value) → List (String × Value)
  | [] => []
  | (name, value) :: rest => (name, sorted value) :: sortedFields rest
end

theorem sortedItems_eq (items : List Value) : sortedItems items = items.map sorted := by
  induction items with
  | nil => rfl
  | cons item rest ih => simp [sortedItems, ih]

theorem sortedFields_eq (fields : List (String × Value)) :
    sortedFields fields = fields.map fun field => (field.1, sorted field.2) := by
  induction fields with
  | nil => rfl
  | cons field rest ih =>
    rcases field with ⟨name, value⟩
    simp [sortedFields, ih]

private theorem indentedItems_eq (depth : Nat) (items : List Value) :
    indentedItems depth items = items.map (indentedAt depth) := by
  induction items with
  | nil => rfl
  | cons item rest ih => simp [indentedItems, ih]

private theorem indentedFields_eq (depth : Nat) (fields : List (String × Value)) :
    indentedFields depth fields = fields.map
      fun field => (field.1, quoted field.1 ++ ": " ++ indentedAt depth field.2) := by
  induction fields with
  | nil => rfl
  | cons field rest ih =>
    rcases field with ⟨name, value⟩
    simp [indentedFields, ih]

/-- Putting fields in order looks at their names alone. -/
theorem inOrder_map {α β : Type} (change : String × α → β) (fields : Keyed α) :
    inOrder (fields.map fun field => (field.1, change field)) = (inOrder fields).map
      fun field => (field.1, change field) := by
  rw [inOrder, inOrder, List.map_mergeSort]
  exact fun _ _ _ _ => rfl

theorem inOrder_perm {α : Type} (fields : Keyed α) : (inOrder fields).Perm fields := List.mergeSort_perm ..

private theorem spells_list_of_items {limit room : Nat} {items : List Value} (depth : Nat)
    (each : ∀ item ∈ items, Spells limit room (indentedAt (depth + 1) item).toList (sorted item)) :
    Spells limit (room + 1) (indentedAt depth (.list items)).toList (sorted (.list items)) := by
  rw [indentedAt, sorted, indentedItems_eq, sortedItems_eq]
  by_cases some : items = []
  · subst some
    exact Spells.emptyList
  have spells : ∀ entry ∈ items.map fun item => ((indentedAt (depth + 1) item).toList, sorted item),
      Spells limit room entry.1 entry.2 := by
    intro entry member
    obtain ⟨item, inside, rfl⟩ := List.mem_map.mp member
    exact each item inside
  rw [toList_block _ _ _ (by simpa using some)]
  simpa [Function.comp_def] using
    spells_list (isSpace_newLine (depth + 1)) (isSpace_newLine depth) (by simpa using some) spells

private theorem spells_object_of_fields {limit room : Nat} {fields : Fields} (depth : Nat)
    (distinct : (Keyed.names fields).Nodup)
    (each : ∀ field ∈ fields, Spells limit room (indentedAt (depth + 1) field.2).toList (sorted field.2)) :
    Spells limit (room + 1) (indentedAt depth (.object fields)).toList (sorted (.object fields)) := by
  have rows : ((indentedFields (depth + 1) fields).mergeSort fun a b => !(b.1 < a.1)) =
      (inOrder fields).map fun field => (field.1, quoted field.1 ++ ": " ++ indentedAt (depth + 1) field.2) := by
    rw [indentedFields_eq]
    exact inOrder_map _ fields
  rw [indentedAt, sorted, rows, sortedFields_eq, inOrder_map fun field => sorted field.2]
  have same := inOrder_perm fields
  generalize inOrder fields = ordered at same
  by_cases some : ordered = []
  · subst some
    exact Spells.emptyObject
  have spells : ∀ entry ∈ ordered.map fun field => (field.1, (indentedAt (depth + 1) field.2).toList, sorted field.2),
      Spells limit room entry.2.1 entry.2.2 := by
    intro entry member
    obtain ⟨field, inside, rfl⟩ := List.mem_map.mp member
    exact each field (same.mem_iff.mp inside)
  have apart : ((ordered.map fun field => (field.1, (indentedAt (depth + 1) field.2).toList, sorted field.2)).map
      Prod.fst).Nodup := by
    simpa [Function.comp_def] using (same.map Prod.fst).nodup_iff.mpr distinct
  rw [toList_block _ _ _ (by simpa using some)]
  simpa [Function.comp_def, rowChars] using
    spells_object (isSpace_newLine (depth + 1)) (isSpace_newLine depth) (by simpa using some) spells apart

mutual
private theorem spells_indentedAt {limit : Nat} : ∀ {room : Nat} {value : Value}, IsPlain room value → ∀ depth,
    Spells limit room (indentedAt depth value).toList (sorted value)
  | _, .null, _, depth => by simpa [indentedAt, sorted, scalar] using Spells.null
  | _, .bool value, _, depth => by simpa [indentedAt, sorted] using Spells.bool value
  | _, .text value, _, depth => by simpa [indentedAt, sorted, scalar] using Spells.text value
  | _ + 1, .list _, plain, depth => spells_list_of_items depth (spells_items plain (depth + 1))
  | _ + 1, .object _, plain, depth => spells_object_of_fields depth plain.1 (spells_fields plain.2 (depth + 1))

private theorem spells_items {limit : Nat} : ∀ {room : Nat} {items : List Value}, ArePlain room items → ∀ depth,
    ∀ item ∈ items, Spells limit room (indentedAt depth item).toList (sorted item)
  | _, _ :: _, plain, depth, _, .head _ => spells_indentedAt plain.1 depth
  | _, _ :: _, plain, depth, other, .tail _ member => spells_items plain.2 depth other member

private theorem spells_fields {limit : Nat} :
    ∀ {room : Nat} {fields : List (String × Value)}, HasPlain room fields → ∀ depth,
    ∀ field ∈ fields, Spells limit room (indentedAt depth field.2).toList (sorted field.2)
  | _, (_, _) :: _, plain, depth, _, .head _ => spells_indentedAt plain.1 depth
  | _, (_, _) :: _, plain, depth, other, .tail _ member => spells_fields plain.2 depth other member
end

/-- What is written of plain data is read as the data with names in order. -/
theorem read_indented {room : Nat} {value : Value} (plain : IsPlain room value) :
    read room (indented value ++ "\n") = .ok (sorted value) := by
  have spells : Spells digitLimit room (indented value).toList (sorted value) := spells_indentedAt plain 0
  rw [read, readWith, String.toList_append]
  simp only []
  rw [spells.skip, spells.reads _ _ (by simp only [List.length_append]; omega)]
  simp [bind, Except.bind, skipSpace, isSpace]

theorem strip_solid {text : String} {first : Char} {others : List Char} (opens : text.toList = first :: others)
    (solid : Text.isBlank first = false) : (Text.strip text).isEmpty = false := by
  rw [String.isEmpty_eq_false_iff]
  intro empty
  have chars : Text.stripChars (first :: others) = [] := by
    simpa [Text.strip, opens] using empty
  simp only [Text.stripChars, Text.trimChars, Text.dropTrailing, List.dropWhile_cons, solid, Bool.false_eq_true,
    if_false, List.reverse_eq_nil_iff, List.dropWhile_eq_nil_iff, List.mem_reverse] at chars
  exact absurd (chars first List.mem_cons_self) (by simp [solid])

theorem strip_indented {room : Nat} {value : Value} (plain : IsPlain room value) :
    (Text.strip (indented value ++ "\n")).isEmpty = false := by
  have spells : Spells digitLimit room (indented value).toList (sorted value) := spells_indentedAt plain 0
  obtain ⟨first, others, opens, solid, _⟩ := spells.opens
  exact strip_solid (by rw [String.toList_append, opens, List.cons_append]) solid

/-- No object in the value has a name twice. -/
inductive Distinct : Value → Prop where
  | list {items : List Value} (each : ∀ item ∈ items, Distinct item) : Distinct (.list items)
  | object {fields : Fields} (names : (Keyed.names fields).Nodup) (each : ∀ field ∈ fields, Distinct field.2) :
      Distinct (.object fields)
  | null : Distinct .null
  | bool (value : Bool) : Distinct (.bool value)
  | int (value : Int) : Distinct (.int value)
  | float (value : Binary64) : Distinct (.float value)
  | text (value : String) : Distinct (.text value)
  | moment (text : String) : Distinct (.moment text)

theorem distinct_list {items : List Value} : Distinct (.list items) ↔ ∀ item ∈ items, Distinct item :=
  ⟨fun distinct => by cases distinct with | list each => exact each, .list⟩

theorem distinct_object {fields : Fields} :
    Distinct (.object fields) ↔ (Keyed.names fields).Nodup ∧ ∀ field ∈ fields, Distinct field.2 :=
  ⟨fun distinct => by cases distinct with | object names each => exact ⟨names, each⟩,
    fun ⟨names, each⟩ => .object names each⟩

private theorem readNumber_distinct {limit : Nat} {value : Value} {chars rest : List Char}
    (ends : readNumber limit chars = .ok (value, rest)) : Distinct value := by
  unfold readNumber at ends
  -- the sign, the digits before the point, the fraction and the exponent
  split at ends
  split at ends
  · cases ends
  split at ends
  split at ends
  split at ends
  · split at ends
    · cases ends
    · obtain ⟨rfl, _⟩ := Prod.mk.inj (Except.ok.inj ends)
      exact .int _
  · obtain ⟨rfl, _⟩ := Prod.mk.inj (Except.ok.inj ends)
    exact .float _

private theorem readWord?_distinct {value : Value} {chars rest : List Char}
    (found : readWord? chars = some (value, rest)) : Distinct value := by
  obtain ⟨⟨word, value⟩, known, read⟩ := List.exists_of_findSome?_eq_some found
  obtain ⟨_, _, same⟩ := Option.map_eq_some_iff.mp read
  obtain ⟨rfl, _⟩ := Prod.mk.inj same
  have kinds : value = .null ∨ (∃ flag, value = .bool flag) ∨ ∃ number, value = .float number := by
    simp only [words, List.mem_cons, Prod.mk.injEq, List.not_mem_nil, or_false] at known
    rcases known with ⟨_, rfl⟩ | ⟨_, rfl⟩ | ⟨_, rfl⟩ | ⟨_, rfl⟩ | ⟨_, rfl⟩ | ⟨_, rfl⟩ <;> simp
  rcases kinds with rfl | ⟨flag, rfl⟩ | ⟨number, rfl⟩
  · exact .null
  · exact .bool flag
  · exact .float number

theorem Distinct.set {fields : Fields} {name : String} {value : Value} (each : ∀ field ∈ fields, Distinct field.2)
    (own : Distinct value) :
    ∀ field ∈ Keyed.set fields name value, Distinct field.2 := by
  induction fields with
  | nil => simpa [Keyed.set] using own
  | cons first rest ih =>
    rw [Keyed.set]
    split
    · rintro field (_ | ⟨_, member⟩)
      · exact own
      · exact each field (List.mem_cons_of_mem _ member)
    · rintro field (_ | ⟨_, member⟩)
      · exact each first List.mem_cons_self
      · exact ih (fun field member => each field (List.mem_cons_of_mem _ member)) field member

private theorem readItems_ok {limit fuel room : Nat} {items read : List Value} {chars rest : List Char}
    (ends : readItems limit (fuel + 1) room items chars = .ok (read, rest)) :
    ∃ item after, readValue limit fuel room (skipSpace chars) = .ok (item, after) ∧
      ((∃ later, skipSpace after = ',' :: later ∧ readItems limit fuel room (item :: items) later = .ok (read, rest)) ∨
        skipSpace after = ']' :: rest ∧ read = (item :: items).reverse) := by
  rw [readItems] at ends
  obtain ⟨⟨item, after⟩, first, ends⟩ := bind_ok.mp ends
  refine ⟨item, after, first, ?_⟩
  dsimp only at ends
  split at ends
  · rename_i later comma
    exact .inl ⟨later, comma, ends⟩
  · rename_i last closed
    obtain ⟨rfl, rfl⟩ := Prod.mk.inj (Except.ok.inj ends)
    exact .inr ⟨closed, rfl⟩
  · cases ends

private theorem readFields_ok {limit fuel room : Nat} {fields read : Fields} {chars rest : List Char}
    (ends : readFields limit (fuel + 1) room fields chars = .ok (read, rest)) :
    ∃ opened name middle start value after, skipSpace chars = '"' :: opened ∧
      readString (opened.length + 1) [] opened = .ok (name, middle) ∧ skipSpace middle = ':' :: start ∧
      readValue limit fuel room (skipSpace start) = .ok (value, after) ∧
      ((∃ later, skipSpace after = ',' :: later ∧ readFields limit fuel room (Keyed.set fields name value) later =
        .ok (read, rest)) ∨
        skipSpace after = '\x7d' :: rest ∧ read = Keyed.set fields name value) := by
  rw [readFields] at ends
  split at ends
  · rename_i opened quote
    obtain ⟨⟨name, middle⟩, named, ends⟩ := bind_ok.mp ends
    dsimp only at ends
    split at ends
    · rename_i start colon
      obtain ⟨⟨value, after⟩, given, ends⟩ := bind_ok.mp ends
      refine ⟨opened, name, middle, start, value, after, quote, named, colon, given, ?_⟩
      dsimp only at ends
      split at ends
      · rename_i later comma
        exact .inl ⟨later, comma, ends⟩
      · rename_i last closed
        obtain ⟨rfl, rfl⟩ := Prod.mk.inj (Except.ok.inj ends)
        exact .inr ⟨closed, rfl⟩
      · cases ends
    · cases ends
  · cases ends

private theorem readFields_nodup {limit fuel room : Nat} {known fields : Fields} {chars rest : List Char}
    (distinct : (Keyed.names known).Nodup) (ends : readFields limit fuel room known chars = .ok (fields, rest)) :
    (Keyed.names fields).Nodup := by
  induction fuel generalizing known chars with
  | zero => simp [readFields] at ends
  | succ fuel ih =>
    obtain ⟨_, name, _, _, value, _, _, _, _, _, ⟨_, _, later⟩ | ⟨_, rfl⟩⟩ := readFields_ok ends
    · exact ih (Keyed.nodup_set distinct name value) later
    · exact Keyed.nodup_set distinct name value

private theorem readValue_distinct {limit fuel : Nat} :
    (∀ {room chars rest value}, readValue limit fuel room chars = .ok (value, rest) → Distinct value) ∧
    (∀ {room items read chars rest}, (∀ item ∈ items, Distinct item) →
      readItems limit fuel room items chars = .ok (read, rest) → ∀ item ∈ read, Distinct item) ∧
    (∀ {room fields read chars rest}, (∀ field ∈ fields, Distinct field.2) →
      readFields limit fuel room fields chars = .ok (read, rest) → ∀ field ∈ read, Distinct field.2) := by
  induction fuel with
  | zero => simp [readValue, readItems, readFields]
  | succ fuel ih =>
    obtain ⟨values, lists, objects⟩ := ih
    refine ⟨?_, ?_, ?_⟩
    · intro room chars rest value ends
      unfold readValue at ends
      split at ends
      · obtain ⟨_, _, ends⟩ := bind_ok.mp ends
        obtain ⟨rfl, _⟩ := Prod.mk.inj (Except.ok.inj ends)
        exact .text _
      · obtain ⟨_, _, ends⟩ := bind_ok.mp ends
        split at ends
        · obtain ⟨rfl, _⟩ := Prod.mk.inj (Except.ok.inj ends)
          exact .list (by simp)
        · obtain ⟨⟨items, after⟩, read, ends⟩ := bind_ok.mp ends
          obtain ⟨rfl, _⟩ := Prod.mk.inj (Except.ok.inj ends)
          exact .list (lists (by simp) read)
      · obtain ⟨_, _, ends⟩ := bind_ok.mp ends
        split at ends
        · obtain ⟨rfl, _⟩ := Prod.mk.inj (Except.ok.inj ends)
          exact .object (by simp [Keyed.names]) (by simp)
        · obtain ⟨⟨fields, after⟩, read, ends⟩ := bind_ok.mp ends
          obtain ⟨rfl, _⟩ := Prod.mk.inj (Except.ok.inj ends)
          exact .object (readFields_nodup (by simp [Keyed.names]) read) (objects (by simp) read)
      · split at ends
        · rename_i found
          obtain rfl := Except.ok.inj ends
          exact readWord?_distinct found
        · exact readNumber_distinct ends
    · intro room items read chars rest each ends
      obtain ⟨item, _, first, next⟩ := readItems_ok ends
      have more : ∀ other ∈ item :: items, Distinct other := List.forall_mem_cons.mpr ⟨values first, each⟩
      rcases next with ⟨_, _, later⟩ | ⟨_, rfl⟩
      · exact lists more later
      · exact fun other member => more other (List.mem_reverse.mp member)
    · intro room fields read chars rest each ends
      obtain ⟨_, name, _, _, value, _, _, _, _, given, next⟩ := readFields_ok ends
      have more : ∀ field ∈ Keyed.set fields name value, Distinct field.2 := Distinct.set each (values given)
      rcases next with ⟨_, _, later⟩ | ⟨_, rfl⟩
      · exact objects more later
      · exact more

theorem read_distinct {room : Nat} {text : String} {value : Value} (ends : read room text = .ok value) :
    Distinct value := by
  obtain ⟨⟨found, rest⟩, read, ends⟩ := bind_ok.mp ends
  dsimp only at ends
  split at ends
  · obtain rfl := Except.ok.inj ends
    exact readValue_distinct.1 read
  · cases ends

theorem read_nodup {room : Nat} {text : String} {fields : Fields} (ends : read room text = .ok (.object fields)) :
    (Keyed.names fields).Nodup := by
  cases read_distinct ends with
  | object names _ => exact names

section Long

variable {limit room : Nat} {first : Char} {rest : List Char}

private theorem readNumber_long (digits : ∀ c ∈ first :: rest, Text.isAsciiDigit c = true) (leading : first ≠ '0')
    (long : limit < rest.length + 1) :
    readNumber limit (first :: rest) = .error (.tooManyDigits (rest.length + 1)) := by
  have opens := digits first List.mem_cons_self
  have unsigned : first ≠ '-' := by
    rintro rfl
    cases opens
  have taken := List.takeWhile_eq_self_iff.mpr digits
  have dropped := List.dropWhile_eq_nil_iff.mpr digits
  have whole : readWhole (first :: rest) = some (first :: rest, []) := by
    simp [readWhole, leading, taken, dropped]
  have fraction : readFraction [] = ([], []) := rfl
  have exponent : readExponent [] = (none, []) := rfl
  unfold readNumber
  simp [unsigned, whole, fraction, exponent, long]

/-- Text of more digits than are converted cannot be read, though it spells a whole number. -/
theorem read_long (digits : ∀ c ∈ first :: rest, Text.isAsciiDigit c = true) (leading : first ≠ '0')
    (long : digitLimit < rest.length + 1) :
    read room (String.ofList (first :: rest)) = .error (.tooManyDigits (rest.length + 1)) := by
  have opens := digits first List.mem_cons_self
  have apart : ∀ c, Text.isAsciiDigit c = false → first ≠ c := by
    rintro c other rfl
    simp [other] at opens
  have solid : isSpace first = false := by
    simp [isSpace, apart ' ' rfl, apart '\t' rfl, apart '\n' rfl, apart '\r' rfl]
  have word : readWord? (first :: rest) = none := by
    simp [readWord?, words, List.isPrefixOf?, (apart 'n' rfl).symm, (apart 't' rfl).symm, (apart 'f' rfl).symm,
      (apart 'N' rfl).symm, (apart 'I' rfl).symm, (apart '-' rfl).symm]
  have value : ∀ fuel,
      readValue digitLimit (fuel + 1) room (first :: rest) = .error (.tooManyDigits (rest.length + 1)) := by
    intro fuel
    simp [readValue, apart '"' rfl, apart '[' rfl, apart '\x7b' rfl, word, readNumber_long digits leading long]
  have start : skipSpace (first :: rest) = first :: rest := by
    simp [skipSpace, solid]
  simp [read, readWith, start, value, bind, Except.bind]

end Long

private theorem readValue_deep {limit fuel room depth : Nat} (deep : room < depth) (enough : 2 * depth ≤ fuel)
    (rest : List Char) : readValue limit fuel room (List.replicate depth '[' ++ rest) = .error (.tooDeep .list) := by
  induction depth generalizing fuel room with
  | zero => omega
  | succ depth ih =>
    obtain ⟨fuel, rfl⟩ : ∃ less, fuel = less + 2 := ⟨fuel - 2, by omega⟩
    cases room with
    | zero => simp [List.replicate_succ, readValue, enter, bind, Except.bind]
    | succ room =>
      obtain ⟨depth, rfl⟩ : ∃ less, depth = less + 1 := ⟨depth - 1, by omega⟩
      have inner : readValue limit fuel room ('[' :: (List.replicate depth '[' ++ rest)) = .error (.tooDeep .list) :=
        ih (by omega) (by omega)
      have solid : ∀ chars, skipSpace ('[' :: chars) = '[' :: chars := skipSpace_cons (by decide)
      simp [List.replicate_succ, readValue, readItems, enter, solid, inner, bind, Except.bind]

/-- Text that opens more lists in each other than there is room for cannot be read, whatever follows. -/
theorem read_deep {room depth : Nat} (deep : room < depth) (rest : List Char) :
    read room (String.ofList (List.replicate depth '[' ++ rest)) = .error (.tooDeep .list) := by
  have start : skipSpace (List.replicate depth '[' ++ rest) = List.replicate depth '[' ++ rest := by
    obtain ⟨depth, rfl⟩ : ∃ less, depth = less + 1 := ⟨depth - 1, by omega⟩
    exact skipSpace_cons (by decide) _
  have enough : 2 * depth ≤ 2 * (List.replicate depth '[' ++ rest).length + 2 := by
    rw [List.length_append, List.length_replicate]
    omega
  have value : readValue digitLimit _ room _ = _ := readValue_deep deep enough rest
  simp only [read, readWith, String.toList_ofList, start, value, bind, Except.bind]

end Json

end TableModels
