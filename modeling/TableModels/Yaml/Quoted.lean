import TableModels.Yaml.Cursor

/-! Scalars in quotes. Between single quotes a quote is written twice; between double quotes a backslash
begins an escape. -/

namespace TableModels.Yaml

private def hexValue? (c : Char) : Option Nat :=
  if '0' ≤ c && c ≤ '9' then some (c.toNat - 0x30)
  else if 'a' ≤ c && c ≤ 'f' then some (c.toNat - 0x57)
  else if 'A' ≤ c && c ≤ 'F' then some (c.toNat - 0x37)
  else none

/-- The character that one letter after a backslash stands for. -/
def letterEscape? : Char → Option Char
  | '0' => some '\x00'
  | 'a' => some '\x07'
  | 'b' => some '\x08'
  | 't' | '\t' => some '\t'
  | 'n' => some '\n'
  | 'v' => some '\x0b'
  | 'f' => some '\x0c'
  | 'r' => some '\r'
  | 'e' => some '\x1b'
  | ' ' => some ' '
  | '"' => some '"'
  | '\\' => some '\\'
  | '/' => some '/'
  | 'N' => some '\u0085'
  | '_' => some '\u00a0'
  | 'L' => some '\u2028'
  | 'P' => some '\u2029'
  | _ => none

/-- How many digits follow a letter after a backslash that begins a code. -/
def codeLength? : Char → Option Nat
  | 'x' => some 2
  | 'u' => some 4
  | 'U' => some 8
  | _ => none

/-- Half of a surrogate pair has no character and becomes the replacement mark. -/
private def codeChar? (code : Nat) : Option Char :=
  if 0x10FFFF < code then none
  else if 0xD800 ≤ code && code ≤ 0xDFFF then some '\uFFFD'
  else some (Char.ofNat code)

/-- Lines that hold nothing, up to the next character that counts. A marker of a document is refused. -/
private def quotedLines : Nat → List Char → Cursor → Option (List Char × Cursor)
  | 0, _, _ => none
  | fuel + 1, read, cursor =>
    if isMarker cursor.rest then none
    else
      let cursor := cursor.skipWhile isSpaceOrTab
      if cursor.startsWith isBreak then
        let (ending, cursor) := cursor.takeBreak
        quotedLines fuel (read ++ ending) cursor
      else some (read, cursor)

/-- What stands between two runs inside quotes. -/
private def quotedGap (cursor : Cursor) : Option (List Char × Cursor) :=
  let (spaces, cursor) := cursor.span isSpaceOrTab
  if cursor.startsWith isBreak then do
    let (ending, cursor) := cursor.takeBreak
    let (others, cursor) ← quotedLines (cursor.rest.length + 1) [] cursor
    return (joinLines ending others, cursor)
  else some (spaces, cursor)

/-- What an escape stands for, from the place after the backslash. An escaped line end counts as nothing. -/
private def readEscape (cursor : Cursor) : Option (List Char × Cursor) := do
  let c ← cursor.rest.head?
  match letterEscape? c, codeLength? c with
  | some escaped, _ => some ([escaped], cursor.next)
  | none, some length =>
    let digits ← (cursor.next.rest.take length).mapM hexValue?
    if digits.length < length then none
    else return ([← codeChar? (digits.foldl (fun code digit => code * 16 + digit) 0)], cursor.next.skip length)
  | none, none =>
    if isBreak c then quotedLines (cursor.rest.length + 1) [] cursor.takeBreak.2 else none

private def quotedFrom (quote : Char) : Nat → List Char → Cursor → Option (List Char × Cursor)
  | 0, _, _ => none
  | fuel + 1, read, cursor =>
    match cursor.rest with
    | [] => none
    | c :: rest =>
      if isSpaceOrTab c || isBreak c then do
        let (gap, cursor) ← quotedGap cursor
        quotedFrom quote fuel (read ++ gap) cursor
      else if c == quote then
        if quote == '\'' && rest.head? == some '\'' then quotedFrom quote fuel (read ++ [c]) (cursor.skip 2)
        else some (read, cursor.next)
      else if quote == '"' && c == '\\' then do
        let (escaped, cursor) ← readEscape cursor.next
        quotedFrom quote fuel (read ++ escaped) cursor
      else quotedFrom quote fuel (read ++ [c]) cursor.next

/-- Reads a scalar in quotes from its opening quote on. -/
def readQuoted (quote : Char) (cursor : Cursor) : Option (List Char × Cursor) :=
  quotedFrom quote (cursor.rest.length + 1) [] cursor.next

end TableModels.Yaml
