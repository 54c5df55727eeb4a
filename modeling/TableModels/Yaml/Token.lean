import TableModels.Text.Class
import TableModels.Yaml.Block
import TableModels.Yaml.Plain
import TableModels.Yaml.Quoted

/-! The tokens of a text: scalars, and the marks that give them structure. Blocks begin and end where the
indentation changes. A scalar turns out to be a key when a colon follows it, so the place where a key
may begin is kept until then. -/

namespace TableModels.Yaml

inductive Token where
  /-- A line that tells the version of the language. -/
  | version (major minor : String)
  | directive
  | documentStart
  | documentEnd
  | sequenceStart
  | mappingStart
  | blockEnd
  | openSequence
  | closeSequence
  | openMapping
  | closeMapping
  | comma
  | item
  | key
  | value
  | alias (name : String)
  | anchor (name : String)
  /-- A tag, with the part between its exclamation marks if it has two. -/
  | tag (handle : Option String) (suffix : String)
  | scalar (content : String) (isPlain : Bool)
  deriving DecidableEq, Repr

namespace Token

/-- Where a key may have begun. -/
structure Candidate where
  /-- How many tokens come before it. -/
  before : Nat
  /-- Nothing but a key can stand here. -/
  required : Bool
  start : Cursor
  deriving Repr

structure Scan where
  cursor : Cursor
  /-- The tokens so far, the last one first. -/
  tokens : List Token := []
  indent : Int := -1
  /-- The indentations of the blocks around, the innermost first. -/
  outer : List Int := []
  keyAllowed : Bool := true
  candidate : Option Candidate := none
  /-- The candidates outside of each open bracket, the innermost first. -/
  brackets : List (Option Candidate) := []
  deriving Repr

namespace Scan

def inFlow (scan : Scan) : Bool := !scan.brackets.isEmpty

def emit (scan : Scan) (token : Token) : Scan := { scan with tokens := token :: scan.tokens }

def moveTo (scan : Scan) (cursor : Cursor) : Scan := { scan with cursor }

/-- A key and its colon stand on one line, not far apart. -/
private def isStale (cursor : Cursor) (candidate : Candidate) : Bool :=
  candidate.start.line != cursor.line || candidate.start.index + 1024 < cursor.index

private def dropStaleOne (cursor : Cursor) : Option Candidate → Option (Option Candidate)
  | none => some none
  | some candidate =>
    if !isStale cursor candidate then some (some candidate)
    else if candidate.required then none
    else some none

/-- Gives up candidates that no colon can follow any more. -/
def dropStale (scan : Scan) : Option Scan := do
  let candidate ← dropStaleOne scan.cursor scan.candidate
  let brackets ← scan.brackets.mapM (dropStaleOne scan.cursor)
  return { scan with candidate, brackets }

def dropCandidate (scan : Scan) : Option Scan :=
  if (scan.candidate.map Candidate.required).getD false then none else some { scan with candidate := none }

/-- Notes that a key may begin here. -/
def noteCandidate (scan : Scan) : Option Scan := do
  if !scan.keyAllowed then return scan
  let scan ← scan.dropCandidate
  let required := !scan.inFlow && scan.indent == scan.cursor.column
  return { scan with candidate := some ⟨scan.tokens.length, required, scan.cursor⟩ }

private def closeBlocks (column : Int) : List Int → Int → List Token → List Int × Int × List Token
  | [], indent, tokens => ([], indent, tokens)
  | next :: outer, indent, tokens =>
    if column < indent then closeBlocks column outer next (.blockEnd :: tokens) else (next :: outer, indent, tokens)

/-- Ends the blocks that are indented deeper than a column. -/
def unwind (scan : Scan) (column : Int) : Scan :=
  if scan.inFlow then scan
  else
    let (outer, indent, tokens) := closeBlocks column scan.outer scan.indent scan.tokens
    { scan with outer, indent, tokens }

/-- Puts tokens after the first `before`. -/
private def insert (scan : Scan) (before : Nat) (tokens : List Token) : Scan :=
  let kept := scan.tokens.length - before
  { scan with tokens := scan.tokens.take kept ++ tokens.reverse ++ scan.tokens.drop kept }

/-- Begins a block if the column is deeper than the one that is open. -/
private def openBlock (scan : Scan) (column before : Nat) (start : Token) : Scan :=
  if scan.indent < column then
    { insert scan before [start] with outer := scan.indent :: scan.outer, indent := column }
  else scan

private def openBlockHere (scan : Scan) (start : Token) : Scan :=
  openBlock scan scan.cursor.column scan.tokens.length start

private def allowKey (scan : Scan) (keyAllowed : Bool) : Scan := { scan with keyAllowed }

/-- Takes a mark of some length as a token. -/
private def mark (scan : Scan) (length : Nat) (token : Token) : Scan :=
  (scan.emit token).moveTo (scan.cursor.skip length)

private def documentMark (scan : Scan) (token : Token) : Option Scan := do
  let scan ← (scan.unwind (-1)).dropCandidate
  return (scan.allowKey false).mark 3 token

private def openBracket (scan : Scan) (token : Token) : Option Scan := do
  let scan ← scan.noteCandidate
  return ({ scan with brackets := scan.candidate :: scan.brackets, candidate := none }.allowKey true).mark 1 token

private def closeBracket (scan : Scan) (token : Token) : Option Scan := do
  let scan ← scan.dropCandidate
  match scan.brackets with
  | [] => none
  | candidate :: brackets => return ({ scan with candidate, brackets }.allowKey false).mark 1 token

private def comma (scan : Scan) : Option Scan := do
  let scan ← scan.dropCandidate
  return (scan.allowKey true).mark 1 .comma

private def item (scan : Scan) : Option Scan := do
  if !scan.inFlow && !scan.keyAllowed then none
  let scan := if scan.inFlow then scan else scan.openBlockHere .sequenceStart
  let scan ← scan.dropCandidate
  return (scan.allowKey true).mark 1 .item

private def key (scan : Scan) : Option Scan := do
  if !scan.inFlow && !scan.keyAllowed then none
  let scan := if scan.inFlow then scan else scan.openBlockHere .mappingStart
  let scan ← scan.dropCandidate
  return (scan.allowKey !scan.inFlow).mark 1 .key

/-- A colon: what began at the candidate is a key. -/
private def value (scan : Scan) : Option Scan := do
  match scan.candidate with
  | some candidate =>
    let scan := { scan.insert candidate.before [.key] with candidate := none }
    let scan := if scan.inFlow then scan
      else scan.openBlock candidate.start.column candidate.before .mappingStart
    return (scan.allowKey false).mark 1 .value
  | none =>
    if !scan.inFlow && !scan.keyAllowed then none
    let scan := if scan.inFlow then scan else scan.openBlockHere .mappingStart
    return (scan.allowKey !scan.inFlow).mark 1 .value

private def isNameChar (c : Char) : Bool := Text.isAsciiAlphanumeric c || c == '-' || c == '_'

private def endsName (chars : List Char) : Bool :=
  endsWord chars
    || (chars.head?.map fun c => ['?', ':', ',', ']', '\x7d', '%', '@', '\x60'].contains c).getD false

/-- A name after `&` or `*`. -/
private def reference (scan : Scan) (token : String → Token) : Option Scan := do
  let scan ← scan.noteCandidate
  let (name, cursor) := scan.cursor.next.span isNameChar
  if name.isEmpty || !endsName cursor.rest then none
  else return ((scan.emit (token (String.ofList name))).moveTo cursor).allowKey false

private def isTagChar (c : Char) : Bool :=
  Text.isAsciiAlphanumeric c || "-;/?:@&=+$,_.!~*'()[]".toList.contains c

/-- What stands between two exclamation marks, and the place after them. -/
private def tagHandle (cursor : Cursor) : Option (String × Cursor) :=
  let (name, after) := cursor.next.span isNameChar
  if after.startsWith (· == '!') then some ("!" ++ String.ofList name ++ "!", after.next) else none

private def readTag (cursor : Cursor) : Option (Token × Cursor) :=
  match cursor.rest.drop 1 with
  | '<' :: _ => do
    let (suffix, cursor) := (cursor.skip 2).span isTagChar
    if suffix.isEmpty || !cursor.startsWith (· == '>') then none
    else return (.tag none (String.ofList suffix), cursor.next)
  | rest =>
    if endsWord rest then some (.tag none "!", cursor.next)
    else do
      let hasHandle := (rest.takeWhile fun c => c != ' ' && !isBreak c).contains '!'
      let (handle, cursor) ← if hasHandle then tagHandle cursor else some ("!", cursor.next)
      let (suffix, cursor) := cursor.span isTagChar
      if suffix.isEmpty then none else return (.tag (some handle) (String.ofList suffix), cursor)

private def tag (scan : Scan) : Option Scan := do
  let scan ← scan.noteCandidate
  let (token, cursor) ← readTag scan.cursor
  if cursor.isAtEnd || cursor.startsWith (fun c => c == ' ' || isBreak c) then
    return ((scan.emit token).moveTo cursor).allowKey false
  else none

private def block (scan : Scan) (folded : Bool) : Option Scan := do
  let scan ← scan.dropCandidate
  let (content, cursor) ← readBlock folded scan.indent scan.cursor
  return ((scan.emit (.scalar (String.ofList content) false)).moveTo cursor).allowKey true

private def quoted (scan : Scan) (quote : Char) : Option Scan := do
  let scan ← scan.noteCandidate
  let (content, cursor) ← readQuoted quote scan.cursor
  return ((scan.emit (.scalar (String.ofList content) false)).moveTo cursor).allowKey false

private def plain (scan : Scan) : Option Scan := do
  let scan ← scan.noteCandidate
  let found := readPlain scan.inFlow scan.indent scan.cursor
  return ((scan.emit (.scalar (String.ofList found.text) true)).moveTo found.cursor).allowKey found.brokeLine

private def versionToken (cursor : Cursor) : Option (Token × Cursor) := do
  let (major, cursor) := (cursor.skipWhile (· == ' ')).span Text.isAsciiDigit
  if major.isEmpty || !cursor.startsWith (· == '.') then none
  let (minor, cursor) := cursor.next.span Text.isAsciiDigit
  if minor.isEmpty then none else return (.version (String.ofList major) (String.ofList minor), cursor)

/-- A line that begins with a percent sign. -/
private def directive (scan : Scan) : Option Scan := do
  let scan ← (scan.unwind (-1)).dropCandidate
  let (name, cursor) := scan.cursor.next.span isNameChar
  if name.isEmpty || !(cursor.isAtEnd || cursor.startsWith (fun c => c == ' ' || isBreak c)) then none
  let (token, cursor) ← if name == "YAML".toList then versionToken cursor
    else some (.directive, cursor.skipWhile (!isBreak ·))
  return ((scan.emit token).moveTo (← skipLine? cursor)).allowKey false

private def skipBlanks : Nat → Scan → Scan
  | 0, scan => scan
  | fuel + 1, scan =>
    let cursor := scan.cursor.skipWhile (· == ' ')
    let cursor := if cursor.startsWith (· == '#') then cursor.skipWhile (!isBreak ·) else cursor
    if cursor.startsWith isBreak then
      skipBlanks fuel ((scan.moveTo cursor.takeBreak.2).allowKey (!scan.inFlow || scan.keyAllowed))
    else scan.moveTo cursor

/-- Passes blanks and comments. A new line allows a key. -/
def toNext (scan : Scan) : Scan :=
  let scan := if scan.cursor.index == 0 && scan.cursor.startsWith (· == '\uFEFF') then
    scan.moveTo scan.cursor.next else scan
  skipBlanks (scan.cursor.rest.length + 1) scan

private def isMarkOf (c : Char) (chars : List Char) : Bool := chars.head? == some c && isMarker chars

/-- Reads the token that begins here. -/
private def take (scan : Scan) (c : Char) (rest : List Char) : Option Scan :=
  let chars := c :: rest
  let atMargin := scan.cursor.column == 0
  let isAlone := scan.inFlow || endsWord rest
  if c == '%' && atMargin then scan.directive
  else if atMargin && isMarkOf '-' chars then scan.documentMark .documentStart
  else if atMargin && isMarkOf '.' chars then scan.documentMark .documentEnd
  else if c == '[' then scan.openBracket .openSequence
  else if c == '\x7b' then scan.openBracket .openMapping
  else if c == ']' then scan.closeBracket .closeSequence
  else if c == '\x7d' then scan.closeBracket .closeMapping
  else if c == ',' then scan.comma
  else if c == '-' && endsWord rest then scan.item
  else if c == '?' && isAlone then scan.key
  else if c == ':' && isAlone then scan.value
  else if c == '*' then scan.reference .alias
  else if c == '&' then scan.reference .anchor
  else if c == '!' then scan.tag
  else if c == '|' && !scan.inFlow then scan.block false
  else if c == '>' && !scan.inFlow then scan.block true
  else if c == '\'' || c == '"' then scan.quoted c
  else if startsPlain scan.inFlow chars then scan.plain
  else none

private def finish (scan : Scan) : Option (List Token) :=
  ((scan.unwind (-1)).dropCandidate).map fun scan => scan.tokens.reverse

private def run : Nat → Scan → Option (List Token)
  | 0, _ => none
  | fuel + 1, scan => do
    let scan ← scan.toNext.dropStale
    let scan := scan.unwind scan.cursor.column
    match scan.cursor.rest with
    | [] => scan.finish
    | c :: rest => run fuel (← scan.take c rest)

end Scan

/-- Characters that a text may hold. -/
def isAllowed (c : Char) : Bool :=
  let n := c.toNat
  n == 0x09 || n == 0x0A || n == 0x0D || (0x20 ≤ n && n ≤ 0x7E) || n == 0x85 || (0xA0 ≤ n && n ≤ 0xFFFD)
    || 0x10000 ≤ n

/-- The tokens of a text, if it is well formed. -/
def ofText? (text : String) : Option (List Token) :=
  let chars := text.toList
  if chars.all isAllowed then Scan.run (chars.length + 2) { cursor := { rest := chars } } else none

end Token

end TableModels.Yaml
