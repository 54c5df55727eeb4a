/-! A place in a text, with its line and column. Carriage returns are gone before a text is read. -/

namespace TableModels.Yaml

/-- The characters that end a line. -/
def isBreak (c : Char) : Bool := c == '\n' || c == '\u0085' || c == '\u2028' || c == '\u2029'

def isSpaceOrTab (c : Char) : Bool := c == ' ' || c == '\t'

/-- Whether a word ends where these characters begin. -/
def endsWord : List Char → Bool
  | [] => true
  | c :: _ => isSpaceOrTab c || isBreak c

/-- Whether these characters begin with the marker at the start or the end of a document. -/
def isMarker : List Char → Bool
  | '-' :: '-' :: '-' :: rest => endsWord rest
  | '.' :: '.' :: '.' :: rest => endsWord rest
  | _ => false

structure Cursor where
  rest : List Char
  index : Nat := 0
  line : Nat := 0
  column : Nat := 0
  deriving Repr

namespace Cursor

/-- The place after one character. The mark of byte order takes no column. -/
def next (cursor : Cursor) : Cursor :=
  match cursor.rest with
  | [] => cursor
  | c :: rest =>
    if isBreak c then { rest, index := cursor.index + 1, line := cursor.line + 1, column := 0 }
    else { cursor with
      rest, index := cursor.index + 1, column := if c == '\uFEFF' then cursor.column else cursor.column + 1 }

def skip : Nat → Cursor → Cursor
  | 0, cursor => cursor
  | count + 1, cursor => skip count cursor.next

/-- The characters from here on that are inside a class, and the place after them. -/
def span (inside : Char → Bool) (cursor : Cursor) : List Char × Cursor :=
  let chars := cursor.rest.takeWhile inside
  (chars, cursor.skip chars.length)

def skipWhile (inside : Char → Bool) (cursor : Cursor) : Cursor := (cursor.span inside).2

def isAtEnd (cursor : Cursor) : Bool := cursor.rest.isEmpty

/-- Whether the next character is inside a class. -/
def startsWith (inside : Char → Bool) (cursor : Cursor) : Bool := (cursor.rest.head?.map inside).getD false

/-- The end of a line as it counts in a scalar, if there is one here, and the place after it. -/
def takeBreak (cursor : Cursor) : List Char × Cursor :=
  match cursor.rest with
  | [] => ([], cursor)
  | c :: _ =>
    if c == '\n' || c == '\u0085' then (['\n'], cursor.next)
    else if isBreak c then ([c], cursor.next)
    else ([], cursor)

end Cursor

/-- Lines that end inside a scalar: one line feed is a space, of more the first does not count. -/
def joinLines (first others : List Char) : List Char :=
  if first != ['\n'] then first ++ others else if others.isEmpty then [' '] else others

end TableModels.Yaml
