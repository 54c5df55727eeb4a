import Mathlib.Data.List.Infix
import TableModels.Code.Plain

/-! The code in a text. A reader goes through a text character by character and tells code from comments and from what
stands between quotes. It leaves the skeleton of the text: its code, with nothing of comments and with the quotes
alone of quoted text. It gives up where a quoted text does not end, where one has a prefix, and where code is
continued over a line end. -/

namespace TableModels.Code

def isQuote (c : Char) : Bool := c == '\'' || c == '"'

def isWordChar (c : Char) : Bool := Text.isIdentifierContinue c

/-- Where in a text the reader stands. -/
inductive Reading where
  /-- In code, and within a word or not. -/
  | code (inWord : Bool)
  | comment
  /-- After a quote, and after two of them that stand for an empty text unless a third follows. -/
  | opened (quote : Char)
  | emptied (quote : Char)
  | quoted (quote : Char)
  | escaped (quote : Char)
  /-- Between tripled quotes, after so many quotes that may be closing ones. -/
  | tripled (quote : Char) (closing : Nat)
  | tripledEscaped (quote : Char)
  deriving DecidableEq, Repr

namespace Reading

def inCode (inWord : Bool) (c : Char) : Option (Reading × List Char) :=
  if isQuote c then if inWord then none else some (.opened c, [c])
  else if c == '#' then some (.comment, [])
  else if c == '\\' || c == '\r' then none
  else some (.code (isWordChar c), [c])

def inQuotes (quote c : Char) : Option (Reading × List Char) :=
  if c == quote then some (.code false, [c])
  else if c == '\\' then some (.escaped quote, [])
  else if c == '\n' || c == '\r' then none
  else some (.quoted quote, [])

/-- Where the reader stands after a character, and what that leaves. -/
def next? : Reading → Char → Option (Reading × List Char)
  | .code inWord, c => inCode inWord c
  | .comment, c => some (if c == '\n' || c == '\r' then (.code false, [c]) else (.comment, []))
  | .opened quote, c => if c == quote then some (.emptied quote, [c]) else inQuotes quote c
  | .emptied quote, c => if c == quote then some (.tripled quote 0, [c]) else inCode false c
  | .quoted quote, c => inQuotes quote c
  | .escaped quote, _ => some (.quoted quote, [])
  | .tripled quote closing, c =>
    some (if c == quote then if closing == 2 then (.code false, [c]) else (.tripled quote (closing + 1), [])
      else if c == '\\' then (.tripledEscaped quote, [])
      else (.tripled quote 0, []))
  | .tripledEscaped quote, _ => some (.tripled quote 0, [])

def read? : Reading → List Char → Option (Reading × List Char)
  | reading, [] => some (reading, [])
  | reading, c :: rest => do
    let (next, left) ← reading.next? c
    let (last, more) ← next.read? rest
    some (last, left ++ more)

def isClosed : Reading → Bool
  | .code _ => true
  | .comment => true
  | .emptied _ => true
  | _ => false

end Reading

/-- The skeleton of a text, if all quoted text in it ends. -/
def skeleton? (text : String) : Option (List Char) :=
  match Reading.read? (.code false) text.toList with
  | some (last, code) => if last.isClosed then some code else none
  | none => none

/-- The words of code, where `word` is the one that is being read, last character first. -/
def wordsFrom (word : List Char) : List Char → List (List Char)
  | [] => if word.isEmpty then [] else [word.reverse]
  | c :: rest =>
    if isWordChar c then wordsFrom (c :: word) rest
    else if word.isEmpty then wordsFrom [] rest
    else word.reverse :: wordsFrom [] rest

def words (code : List Char) : List (List Char) := wordsFrom [] code

theorem wordChar_of_alphanumeric {c : Char} (letter : Text.isAsciiAlphanumeric c = true) : isWordChar c = true := by
  have small : c.toNat < 0x80 := by
    simp only [Text.isAsciiAlphanumeric, Text.isAsciiUpper, Text.isAsciiLower, Text.isAsciiDigit, Bool.or_eq_true,
      Bool.and_eq_true, decide_eq_true_eq, Char.le_def, UInt32.le_iff_toNat_le] at letter
    have bounds : 'Z'.val.toNat = 90 ∧ 'z'.val.toNat = 122 ∧ '9'.val.toNat = 57 := ⟨rfl, rfl, rfl⟩
    rw [Char.toNat]
    omega
  simp [isWordChar, Text.isIdentifierContinue, small, letter]

namespace Reading

theorem read?_cons {reading next last : Reading} {c : Char} {rest left more : List Char}
    (step : reading.next? c = some (next, left))
    (later : next.read? rest = some (last, more)) : reading.read? (c :: rest) = some (last, left ++ more) := by
  rw [read?, step]
  simp only [Option.bind_eq_bind, Option.bind_some, later]

private theorem exists_of_read?_cons {reading last : Reading} {c : Char} {rest code : List Char}
    (read : reading.read? (c :: rest) = some (last, code)) :
    ∃ next left more, reading.next? c = some (next, left) ∧ next.read? rest = some (last, more) ∧
      code = left ++ more := by
  obtain ⟨⟨next, left⟩, step, read⟩ := Option.bind_eq_some_iff.mp read
  obtain ⟨⟨end', more⟩, later, same⟩ := Option.bind_eq_some_iff.mp read
  obtain ⟨rfl, rfl⟩ := Prod.mk.inj (Option.some.inj same)
  exact ⟨next, left, more, step, later, rfl⟩

/-- Where the reading of one text ends the next goes on. -/
theorem read?_append {reading middle last : Reading} {chars more code left : List Char}
    (first : reading.read? chars = some (middle, code))
    (second : middle.read? more = some (last, left)) : reading.read? (chars ++ more) = some (last, code ++ left) := by
  induction chars generalizing reading code with
  | nil =>
    obtain ⟨rfl, rfl⟩ := Prod.mk.inj (Option.some.inj first)
    exact second
  | cons c rest ih =>
    obtain ⟨next, own, others, step, later, rfl⟩ := exists_of_read?_cons first
    rw [List.append_assoc]
    exact read?_cons step (ih later)

end Reading

private theorem wordsFrom_append_apart (word : List Char) (code : List Char) {more : List Char}
    (apart : ∀ c ∈ more.head?, isWordChar c = false) :
    wordsFrom word (code ++ more) = wordsFrom word code ++ words more := by
  induction code generalizing word with
  | nil =>
    cases more with
    | nil => cases word <;> rfl
    | cons c rest => cases word <;> simp [wordsFrom, words, apart c rfl]
  | cons c rest ih =>
    rw [List.cons_append, wordsFrom, wordsFrom, ih, ih]
    split
    · rfl
    · split <;> rfl

/-- Words do not reach over from one text to the next if there is no part of a word at the end of the one or at the
start of the other. -/
private theorem words_append {code more : List Char}
    (apart : (∀ c ∈ code.getLast?, isWordChar c = false) ∨ ∀ c ∈ more.head?, isWordChar c = false) :
    words (code ++ more) = words code ++ words more := by
  rcases apart with before | after
  · obtain rfl | ⟨code, c, rfl⟩ := List.eq_nil_or_concat' code
    · rfl
    · have last : isWordChar c = false := before c (by simp)
      have alone : words ([c] ++ more) = words more := by simp [words, wordsFrom, last]
      have none : words [c] = [] := by simp [words, wordsFrom, last]
      have whole : words (code ++ ([c] ++ more)) = words code ++ words ([c] ++ more) :=
        wordsFrom_append_apart [] code (by simp [last])
      have part : words (code ++ [c]) = words code ++ words [c] := wordsFrom_append_apart [] code (by simp [last])
      rw [List.append_assoc, whole, part, alone, none, List.append_nil]
  · exact wordsFrom_append_apart [] code after

theorem wordsFrom_solid {word chars : List Char} (some : word ≠ [] ∨ chars ≠ [])
    (each : ∀ c ∈ chars, isWordChar c = true) :
    wordsFrom word chars = [word.reverse ++ chars] := by
  induction chars generalizing word with
  | nil =>
    cases word with
    | nil => simp at some
    | cons c word => simp [wordsFrom]
  | cons c rest ih =>
    obtain ⟨own, others⟩ := List.forall_mem_cons.mp each
    rw [wordsFrom, if_pos own, ih (.inl (List.cons_ne_nil _ _)) others]
    simp

theorem words_marks {code : List Char} (each : ∀ c ∈ code, isWordChar c = false) : words code = [] := by
  induction code with
  | nil => rfl
  | cons c rest ih =>
    obtain ⟨own, others⟩ := List.forall_mem_cons.mp each
    rw [words, wordsFrom, own]
    exact ih others

/-- The marks that generated code is written with, besides words and quotes. -/
def punctuation : List Char := [' ', '\n', '(', ')', '[', ']', ',', ':', '=', '.', '-']

/-- Code of nothing but marks, quotes, and words that are allowed. -/
structure Proper (allowed : List Char → Prop) (code : List Char) : Prop where
  marks : ∀ c ∈ code, isWordChar c = true ∨ c ∈ punctuation ∨ isQuote c = true
  words : ∀ word ∈ words code, allowed word

section

variable {allowed : List Char → Prop}

theorem Proper.nil : Proper allowed [] := ⟨nofun, nofun⟩

theorem Proper.append {code more : List Char} (first : Proper allowed code) (second : Proper allowed more)
    (apart : (∀ c ∈ code.getLast?, isWordChar c = false) ∨ ∀ c ∈ more.head?, isWordChar c = false) :
    Proper allowed (code ++ more) where
  marks := List.forall_mem_append.mpr ⟨first.marks, second.marks⟩
  words := by
    rw [words_append apart]
    exact List.forall_mem_append.mpr ⟨first.words, second.words⟩

/-- Characters that run together with others of their kind. -/
def isSticky (c : Char) : Bool := isWordChar c || isQuote c

private theorem not_sticky {c : Char} : isSticky c = false ↔ isWordChar c = false ∧ isQuote c = false := by
  rw [isSticky, Bool.or_eq_false_iff]

/-- Nothing that follows runs together with the end of a text. -/
def Loose (chars : List Char) : Prop := ∀ c ∈ chars.getLast?, isSticky c = false

/-- Nothing runs together with the start of a text. -/
def Free (chars : List Char) : Prop := ∀ c ∈ chars.head?, isSticky c = false

/-- Where the reader rests after a text from code to code. -/
inductive Rests (chars : List Char) : Reading → Prop where
  | code {inWord : Bool} (word : inWord = true → ∃ c ∈ chars.getLast?, isWordChar c = true) : Rests chars (.code inWord)
  | emptied {quote : Char} (mark : isQuote quote = true) (last : chars.getLast? = some quote) :
      Rests chars (.emptied quote)

/-- A text that is read from code to code, with proper code left of it. -/
def Reads (allowed : List Char → Prop) (chars : List Char) : Prop :=
  ∃ last code, Reading.read? (.code false) chars = some (last, code) ∧ Rests chars last ∧ code.head? = chars.head? ∧
    code.getLast? = chars.getLast? ∧ Proper allowed code

theorem Reads.nil : Reads allowed [] := ⟨.code false, [], rfl, .code nofun, rfl, rfl, .nil⟩

/-- Texts can be joined where they do not run together. -/
theorem Reads.append {chars more : List Char} (first : Reads allowed chars) (second : Reads allowed more)
    (apart : Loose chars ∨ Free more) : Reads allowed (chars ++ more) := by
  cases more with
  | nil => rwa [List.append_nil]
  | cons c rest =>
    obtain ⟨middle, code, read, rests, head, getLast, proper⟩ := first
    obtain ⟨last, left, later, ends, head', getLast', proper'⟩ := second
    have alike : middle.next? c = Reading.next? (.code false) c := by
      cases rests with
      | @code inWord word =>
        cases inWord with
        | false => rfl
        | true =>
          obtain ⟨d, mark, inside⟩ := word rfl
          have free :=
            (not_sticky.mp (apart.resolve_left (fun loose => by simpa [isSticky, inside] using loose d mark) c rfl)).2
          simp [Reading.next?, Reading.inCode, free]
      | @emptied quote mark same =>
        have free :=
          (not_sticky.mp (apart.resolve_left (fun loose => by simpa [isSticky, mark] using loose quote same) c rfl)).2
        have other : (c == quote) = false := by
          rw [beq_eq_false_iff_ne]
          rintro rfl
          rw [mark] at free
          cases free
        simp [Reading.next?, other]
    have onward : middle.read? (c :: rest) = some (last, left) := by
      rw [Reading.read?, alike]
      exact later
    refine ⟨last, code ++ left, Reading.read?_append read onward, ?_, ?_, ?_, proper.append proper' ?_⟩
    · cases ends with
      | code word => exact .code fun inside => by simpa using word inside
      | emptied mark same => exact .emptied mark (by simpa using same)
    · rw [List.head?_append, List.head?_append, head, head']
    · rw [List.getLast?_append, List.getLast?_append, getLast, getLast']
    · rcases apart with loose | free
      · exact .inl fun d last => (not_sticky.mp (loose d (getLast ▸ last))).1
      · exact .inr fun d first => (not_sticky.mp (free d (head' ▸ first))).1

private theorem plain_of_mark {c : Char} (mark : isWordChar c = true ∨ c ∈ punctuation) :
    isQuote c = false ∧ c ≠ '#' ∧ c ≠ '\\' ∧ c ≠ '\r' := by
  have apart : ∀ d ∈ ['\'', '"', '#', '\\', '\r'], ¬ (isWordChar d || punctuation.contains d) = true :=
    List.any_eq_false.mp (by decide)
  have different : ∀ d ∈ ['\'', '"', '#', '\\', '\r'], c ≠ d := by
    rintro d member rfl
    exact apart c member (by simpa using mark)
  simp only [List.mem_cons, List.not_mem_nil, or_false, forall_eq_or_imp, forall_eq] at different
  exact ⟨by simp [isQuote, different.1, different.2.1], different.2.2⟩

/-- Words and marks are read as they stand. -/
theorem reads_plain {chars : List Char} (marks : ∀ c ∈ chars, isWordChar c = true ∨ c ∈ punctuation)
    (each : ∀ word ∈ words chars, allowed word) :
    Reads allowed chars := by
  have read : ∀ (chars : List Char) (inWord : Bool), (∀ c ∈ chars, isWordChar c = true ∨ c ∈ punctuation) → ∃ last,
      Reading.read? (.code inWord) chars = some (.code last, chars) ∧
          (last = true → inWord = true ∧ chars = [] ∨ ∃ c ∈ chars.getLast?, isWordChar c = true) := by
    intro chars
    induction chars with
    | nil => exact fun inWord _ => ⟨inWord, rfl, fun inside => .inl ⟨inside, rfl⟩⟩
    | cons c rest ih =>
      intro inWord marks
      obtain ⟨own, others⟩ := List.forall_mem_cons.mp marks
      obtain ⟨quote, comment, backslash, lineEnd⟩ := plain_of_mark own
      obtain ⟨last, later, word⟩ := ih (isWordChar c) others
      have step : Reading.next? (.code inWord) c = some (.code (isWordChar c), [c]) := by
        simp [Reading.next?, Reading.inCode, quote, comment, backslash, lineEnd]
      refine ⟨last, Reading.read?_cons step later, fun inside => .inr ?_⟩
      rcases word inside with ⟨inside, rfl⟩ | ⟨d, mark, inside⟩
      · exact ⟨c, by simp, inside⟩
      · refine ⟨d, ?_, inside⟩
        rw [Option.mem_def] at mark ⊢
        rw [List.getLast?_cons, mark]
        rfl
  obtain ⟨last, read, word⟩ := read chars false marks
  refine ⟨.code last, chars, read, .code fun inside => ?_, rfl, rfl, fun c member => ?_, each⟩
  · rcases word inside with ⟨none, _⟩ | found
    · cases none
    · exact found
  · rcases marks c member with word | mark
    · exact .inl word
    · exact .inr (.inl mark)

theorem reads_word {chars : List Char} (each : ∀ c ∈ chars, isWordChar c = true)
    (allows : chars ≠ [] → allowed chars) : Reads allowed chars := by
  refine reads_plain (fun c member => .inl (each c member)) ?_
  intro word member
  by_cases some : chars = []
  · subst some
    cases member
  · rw [words, wordsFrom_solid (.inr some) each] at member
    obtain rfl := List.mem_singleton.mp member
    exact allows some

private theorem slack_of_punctuation {c : Char} (mark : c ∈ punctuation) : isSticky c = false := by
  have each : ∀ c ∈ punctuation, ¬ isSticky c = true := List.any_eq_false.mp (by decide)
  exact Bool.eq_false_iff.mpr (each c mark)

theorem free_mark {c : Char} (mark : c ∈ punctuation) : Free [c] := by
  rintro _ ⟨⟩
  exact slack_of_punctuation mark

theorem loose_mark {c : Char} (mark : c ∈ punctuation) : Loose [c] := by
  rintro _ ⟨⟩
  exact slack_of_punctuation mark

theorem reads_mark {c : Char} (mark : c ∈ punctuation) : Reads allowed [c] := by
  have slack := (not_sticky.mp (slack_of_punctuation mark)).1
  refine reads_plain (by simp [mark]) ?_
  rw [words_marks (by simpa using slack)]
  exact nofun

/-- What a quote is not. -/
structure IsMereQuote (quote : Char) : Prop where
  notWord : isWordChar quote = false
  notBlank : Text.isBlank quote = false
  notBackslash : '\\' ≠ quote
  notPoint : '.' ≠ quote

theorem mere_of_isQuote {quote : Char} (mark : isQuote quote = true) : IsMereQuote quote := by
  simp only [isQuote, Bool.or_eq_true, beq_iff_eq] at mark
  rcases mark with rfl | rfl
  all_goals exact ⟨by decide, by decide, by decide, by decide⟩

/-- Characters that stand for themselves between quotes, of whatever kind these are. -/
def isBare (c : Char) : Bool := !isQuote c && c != '\\' && c != '\n' && c != '\r'

theorem apart_of_isBare {quote : Char} (mark : isQuote quote = true) {c : Char} (bare : isBare c = true) :
    c ≠ quote ∧ c ≠ '\\' ∧ c ≠ '\n' ∧ c ≠ '\r' := by
  simp only [isBare, Bool.and_eq_true, Bool.not_eq_true', bne_iff_ne] at bare
  obtain ⟨⟨⟨own, backslash⟩, lineFeed⟩, carriageReturn⟩ := bare
  refine ⟨?_, backslash, lineFeed, carriageReturn⟩
  rintro rfl
  cases own.symm.trans mark

private theorem isBare_hexDigits (count n : Nat) : ∀ c ∈ Text.hexDigits count n, isBare c = true := by
  have digits : ∀ n < 16, isBare (Text.hexDigit n) = true := by decide
  induction count generalizing n with
  | zero => simp [Text.hexDigits]
  | succ count ih =>
    rw [Text.hexDigits]
    exact List.forall_mem_append.mpr ⟨ih _, by simpa using digits _ (Nat.mod_lt _ (by decide))⟩

private theorem Reading.next?_quoted {quote c : Char} (apart : c ≠ quote) (backslash : c ≠ '\\')
    (lineEnd : c ≠ '\n' ∧ c ≠ '\r') :
    Reading.next? (.quoted quote) c = some (.quoted quote, []) := by
  simp [Reading.next?, Reading.inQuotes, apart, backslash, lineEnd]

private theorem Reading.read?_bare {quote : Char} (mark : isQuote quote = true) {chars : List Char}
    (bare : ∀ c ∈ chars, isBare c = true) :
    Reading.read? (.quoted quote) chars = some (.quoted quote, []) := by
  induction chars with
  | nil => rfl
  | cons c rest ih =>
    obtain ⟨own, others⟩ := List.forall_mem_cons.mp bare
    obtain ⟨apart, backslash, lineEnd⟩ := apart_of_isBare mark own
    exact Reading.read?_cons (Reading.next?_quoted apart backslash lineEnd) (ih others)

private theorem Reading.read?_escape {quote : Char} (mark : isQuote quote = true) (c : Char) {chars : List Char}
    (bare : ∀ c ∈ chars, isBare c = true) :
    Reading.read? (.quoted quote) ('\\' :: c :: chars) = some (.quoted quote, []) := by
  have opened : Reading.next? (.quoted quote) '\\' = some (.escaped quote, []) := by
    simp [Reading.next?, Reading.inQuotes, (mere_of_isQuote mark).notBackslash]
  have passed : Reading.next? (.escaped quote) c = some (.quoted quote, []) := rfl
  exact Reading.read?_cons opened (Reading.read?_cons passed (Reading.read?_bare mark bare))

theorem escapeChar_cases (c : Char) : (Text.escapeChar c = [c] ∧ c ≠ '\\' ∧ c ≠ '\n' ∧ c ≠ '\r') ∨
    ∃ d chars, Text.escapeChar c = '\\' :: d :: chars ∧ Text.isBlank d = false ∧ ∀ c ∈ chars, isBare c = true := by
  by_cases backslash : c = '\\'
  · exact .inr ⟨'\\', [], by simp [Text.escapeChar, backslash], rfl, nofun⟩
  by_cases lineFeed : c = '\n'
  · exact .inr ⟨'n', [], by simp [Text.escapeChar, lineFeed], rfl, nofun⟩
  by_cases carriageReturn : c = '\r'
  · exact .inr ⟨'r', [], by simp [Text.escapeChar, carriageReturn], rfl, nofun⟩
  by_cases tab : c = '\t'
  · exact .inr ⟨'t', [], by simp [Text.escapeChar, tab], rfl, nofun⟩
  by_cases printable : Text.isPrintable c = true
  · exact .inl ⟨by simp [Text.escapeChar, backslash, lineFeed, carriageReturn, tab, printable], backslash,
      lineFeed, carriageReturn⟩
  · have coded : Text.escapeChar c = Text.escapeByCode c := by
      simp [Text.escapeChar, backslash, lineFeed, carriageReturn, tab, printable]
    rw [coded, Text.escapeByCode]
    split
    · exact .inr ⟨'x', _, rfl, rfl, isBare_hexDigits _ _⟩
    · split
      · exact .inr ⟨'u', _, rfl, rfl, isBare_hexDigits _ _⟩
      · exact .inr ⟨'U', _, rfl, rfl, isBare_hexDigits _ _⟩

private theorem Reading.read?_escapeWithin {quote : Char} (mark : isQuote quote = true) (chars : List Char) :
    Reading.read? (.quoted quote) (Text.escapeWithin quote chars) = some (.quoted quote, []) := by
  induction chars with
  | nil => rfl
  | cons c rest ih =>
    rw [Text.escapeWithin]
    refine Reading.read?_append (?_ : _ = some (_, [])) ih
    split
    · exact Reading.read?_escape mark c nofun
    · rename_i apart
      rcases escapeChar_cases c with ⟨same, backslash, lineEnd⟩ | ⟨d, chars, same, _, bare⟩
      · rw [same]
        exact Reading.read?_cons (Reading.next?_quoted (by simpa using apart) backslash lineEnd) rfl
      · rw [same]
        exact Reading.read?_escape mark d bare

private theorem head?_escapeWithin {quote : Char} (mark : isQuote quote = true) (chars : List Char) :
    ∀ c ∈ (Text.escapeWithin quote chars).head?, c ≠ quote := by
  have backslash := (mere_of_isQuote mark).notBackslash
  cases chars with
  | nil => simp [Text.escapeWithin]
  | cons c rest =>
    rw [Text.escapeWithin]
    split
    · simpa using backslash
    · rename_i apart
      rcases escapeChar_cases c with ⟨same, _⟩ | ⟨d, chars, same, _⟩
      · simpa [same] using apart
      · simpa [same] using backslash

/-- Whatever characters it has, a quoted text is read to its end, and nothing but the quotes is left of it. -/
theorem reads_quoted {quote : Char} (mark : isQuote quote = true) (chars : List Char) :
    Reads allowed (quote :: Text.escapeWithin quote chars ++ [quote]) := by
  have proper : Proper allowed [quote, quote] :=
    ⟨by simp [mark], by simp [words, wordsFrom, (mere_of_isQuote mark).notWord]⟩
  have opened : Reading.next? (.code false) quote = some (.opened quote, [quote]) := by
    simp [Reading.next?, Reading.inCode, mark]
  have first := head?_escapeWithin mark chars
  have inside := Reading.read?_escapeWithin mark chars
  cases same : Text.escapeWithin quote chars with
  | nil =>
    have closed : Reading.next? (.opened quote) quote = some (.emptied quote, [quote]) := by simp [Reading.next?]
    exact ⟨.emptied quote, [quote, quote], Reading.read?_cons opened (Reading.read?_cons closed rfl),
      .emptied mark (by simp), rfl, by simp, proper⟩
  | cons c rest =>
    rw [same] at first inside
    have alike : Reading.next? (.opened quote) c = Reading.next? (.quoted quote) c := by
      simp [Reading.next?, first c rfl]
    have inside : Reading.read? (.opened quote) (c :: rest) = some (.quoted quote, []) := by
      rw [← inside, Reading.read?, Reading.read?, alike]
    have closed : Reading.next? (.quoted quote) quote = some (.code false, [quote]) := by
      simp [Reading.next?, Reading.inQuotes]
    exact ⟨.code false, [quote, quote],
      Reading.read?_cons opened (Reading.read?_append inside (Reading.read?_cons closed rfl)), .code nofun, rfl,
      by rw [List.getLast?_append]; rfl, proper⟩

end

end TableModels.Code
