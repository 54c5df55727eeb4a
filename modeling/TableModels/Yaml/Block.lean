import TableModels.Yaml.Cursor

/-! Scalars that fill the lines below their mark: `|` keeps the ends of lines, `>` joins lines. -/

namespace TableModels.Yaml

/-- What becomes of the line ends after the last line. -/
inductive Chomping where
  | strip
  | clip
  | keep
  deriving DecidableEq, Repr

structure BlockHeader where
  chomping : Chomping := .clip
  /-- How much deeper than its block the scalar is indented, if that is said. -/
  indentation : Option Nat := none
  deriving Repr

private def chomping? : List Char → Option (Chomping × List Char)
  | '+' :: rest => some (.keep, rest)
  | '-' :: rest => some (.strip, rest)
  | _ => none

private def indentation? : List Char → Option (Nat × List Char)
  | c :: rest => if '0' ≤ c && c ≤ '9' then some (c.toNat - 0x30, rest) else none
  | [] => none

private def headerFrom (chars : List Char) : BlockHeader × List Char :=
  match chomping? chars with
  | some (chomping, rest) =>
    match indentation? rest with
    | some (indentation, rest) => (⟨chomping, some indentation⟩, rest)
    | none => (⟨chomping, none⟩, rest)
  | none =>
    match indentation? chars with
    | some (indentation, rest) =>
      match chomping? rest with
      | some (chomping, rest) => (⟨chomping, some indentation⟩, rest)
      | none => (⟨.clip, some indentation⟩, rest)
    | none => ({}, chars)

/-- The rest of a line that may hold a comment only, and the end of that line. -/
def skipLine? (cursor : Cursor) : Option Cursor :=
  let cursor := cursor.skipWhile (· == ' ')
  let cursor := if cursor.startsWith (· == '#') then cursor.skipWhile (!isBreak ·) else cursor
  if cursor.isAtEnd || cursor.startsWith isBreak then some cursor.takeBreak.2 else none

/-- Reads the marks after `|` or `>` and the end of their line. -/
def readHeader (cursor : Cursor) : Option (BlockHeader × Cursor) := do
  let (header, rest) := headerFrom cursor.rest
  let cursor := cursor.skip (cursor.rest.length - rest.length)
  if header.indentation == some 0 then none
  else if cursor.isAtEnd || cursor.startsWith (fun c => c == ' ' || isBreak c) then
    return (header, ← skipLine? cursor)
  else none

/-- Empty lines before the first line, and the deepest indentation met. -/
private def leadingLines : Nat → List Char → Nat → Cursor → List Char × Nat × Cursor
  | 0, read, deepest, cursor => (read, deepest, cursor)
  | fuel + 1, read, deepest, cursor =>
    if cursor.startsWith (· == ' ') then leadingLines fuel read (max deepest cursor.next.column) cursor.next
    else if cursor.startsWith isBreak then
      let (ending, cursor) := cursor.takeBreak
      leadingLines fuel (read ++ ending) deepest cursor
    else (read, deepest, cursor)

private def skipIndent (indent : Nat) (cursor : Cursor) : Cursor :=
  cursor.skip (min (indent - cursor.column) (cursor.rest.takeWhile (· == ' ')).length)

/-- Empty lines, and the indentation of the line after them. -/
private def blockGap (indent : Nat) : Nat → List Char → Cursor → List Char × Cursor
  | 0, read, cursor => (read, cursor)
  | fuel + 1, read, cursor =>
    let cursor := skipIndent indent cursor
    if cursor.startsWith isBreak then
      let (ending, cursor) := cursor.takeBreak
      blockGap indent fuel (read ++ ending) cursor
    else (read, cursor)

/-- The lines of a scalar so far, the end of the last, and the empty lines after it. -/
private structure Lines where
  text : List Char
  ending : List Char
  others : List Char
  cursor : Cursor

private def hasLine (indent : Nat) (cursor : Cursor) : Bool := cursor.column == indent && !cursor.isAtEnd

/-- How the end of a line and the empty lines after it count before another line. -/
private def betweenLines (folded : Bool) (startsBlank nextStartsBlank : Bool) (ending others : List Char) :
    List Char :=
  if folded && ending == ['\n'] && !startsBlank && !nextStartsBlank then
    if others.isEmpty then [' '] else others
  else ending ++ others

private def blockLines (folded : Bool) (indent : Nat) : Nat → Lines → Lines
  | 0, lines => lines
  | fuel + 1, lines =>
    if !hasLine indent lines.cursor then lines
    else
      let startsBlank := lines.cursor.startsWith isSpaceOrTab
      let (line, cursor) := lines.cursor.span (!isBreak ·)
      let (ending, cursor) := cursor.takeBreak
      let (others, cursor) := blockGap indent (cursor.rest.length + 1) [] cursor
      let text := lines.text ++ line
      if hasLine indent cursor then
        let between := betweenLines folded startsBlank (cursor.startsWith isSpaceOrTab) ending others
        blockLines folded indent fuel ⟨text ++ between, [], [], cursor⟩
      else ⟨text, ending, others, cursor⟩

private def chomped (chomping : Chomping) (lines : Lines) : List Char :=
  match chomping with
  | .strip => lines.text
  | .clip => lines.text ++ lines.ending
  | .keep => lines.text ++ lines.ending ++ lines.others

/-- Reads a scalar from its mark on, inside a block of some indentation. -/
def readBlock (folded : Bool) (outer : Int) (cursor : Cursor) : Option (List Char × Cursor) := do
  let (header, cursor) ← readHeader cursor.next
  let least := (max (outer + 1) 1).toNat
  let fuel := cursor.rest.length + 1
  let (indent, others, cursor) := match header.indentation with
    | some deeper =>
      let indent := least + deeper - 1
      (indent, blockGap indent fuel [] cursor)
    | none =>
      let (others, deepest, cursor) := leadingLines fuel [] 0 cursor
      (max least deepest, others, cursor)
  let lines : Lines :=
    if hasLine indent cursor then blockLines folded indent fuel ⟨others, [], [], cursor⟩
    else ⟨[], [], others, cursor⟩
  return (chomped header.chomping lines, lines.cursor)

end TableModels.Yaml
