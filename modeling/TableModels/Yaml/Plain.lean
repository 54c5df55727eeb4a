import TableModels.Yaml.Cursor

/-! Scalars without quotes. They end where a comment, a mark of structure or a line that is not
indented begins. -/

namespace TableModels.Yaml

/-- Characters that a plain scalar cannot begin with. -/
def marks : List Char :=
  ['-', '?', ':', ',', '[', ']', '\x7b', '\x7d', '#', '&', '*', '!', '|', '>', '\'', '"', '%', '@', '\x60']

/-- Marks of structure inside brackets. -/
def flowMarks : List Char := [',', '[', ']', '\x7b', '\x7d']

/-- Whether a plain scalar can begin here. -/
def startsPlain (inFlow : Bool) : List Char → Bool
  | [] => false
  | c :: rest =>
    !(isSpaceOrTab c || isBreak c || marks.contains c)
      || (!endsWord rest && (c == '-' || (!inFlow && (c == '?' || c == ':'))))

/-- Whether a run of characters in a plain scalar ends here. -/
def endsRun (inFlow : Bool) : List Char → Bool
  | [] => true
  | c :: rest =>
    isSpaceOrTab c || isBreak c
      || (c == ':' && (endsWord rest || (inFlow && (rest.head?.map flowMarks.contains).getD false)))
      || (inFlow && (c == '?' || flowMarks.contains c))

def plainRun (inFlow : Bool) : List Char → List Char
  | [] => []
  | c :: rest => if endsRun inFlow (c :: rest) then [] else c :: plainRun inFlow rest

/-- What stands between two runs: how it counts, whether a line ended there, and the place after it. A
marker of a document counts as nothing. -/
structure Gap where
  text : List Char
  brokeLine : Bool
  cursor : Cursor
  deriving Repr

/-- Empty lines, up to a marker of a document. -/
private def emptyLines : Nat → List Char → Cursor → Option (List Char) × Cursor
  | 0, read, cursor => (some read, cursor)
  | fuel + 1, read, cursor =>
    if cursor.startsWith (· == ' ') then emptyLines fuel read cursor.next
    else if cursor.startsWith isBreak then
      let (ending, cursor) := cursor.takeBreak
      if isMarker cursor.rest then (none, cursor) else emptyLines fuel (read ++ ending) cursor
    else (some read, cursor)

def plainGap (cursor : Cursor) : Gap :=
  let (spaces, cursor) := cursor.span (· == ' ')
  if !cursor.startsWith isBreak then ⟨spaces, false, cursor⟩
  else
    let (ending, cursor) := cursor.takeBreak
    if isMarker cursor.rest then ⟨[], true, cursor⟩
    else match emptyLines cursor.rest.length [] cursor with
      | (some others, cursor) => ⟨joinLines ending others, true, cursor⟩
      | (none, cursor) => ⟨[], true, cursor⟩

/-- A scalar, whether a line ended after it, and the place where reading goes on. -/
structure PlainScalar where
  text : List Char
  brokeLine : Bool
  cursor : Cursor
  deriving Repr

private def plainFrom (inFlow : Bool) (indent : Int) : Nat → PlainScalar → List Char → PlainScalar
  | 0, scalar, _ => scalar
  | fuel + 1, scalar, gap =>
    let run := plainRun inFlow scalar.cursor.rest
    if run.isEmpty then scalar
    else
      let text := scalar.text ++ gap ++ run
      let gap := plainGap (scalar.cursor.skip run.length)
      let scalar : PlainScalar := ⟨text, gap.brokeLine, gap.cursor⟩
      if gap.text.isEmpty || gap.cursor.startsWith (· == '#') || (!inFlow && (gap.cursor.column : Int) ≤ indent) then
        scalar
      else plainFrom inFlow indent fuel scalar gap.text

/-- Reads a plain scalar inside a block of some indentation. -/
def readPlain (inFlow : Bool) (indent : Int) (cursor : Cursor) : PlainScalar :=
  plainFrom inFlow indent (cursor.rest.length + 1) ⟨[], false, cursor⟩ []

end TableModels.Yaml
