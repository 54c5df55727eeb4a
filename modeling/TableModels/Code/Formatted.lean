import TableModels.Code.Header
import TableModels.Code.Layout

/-! The text of a module as it is written to a file: every statement laid out, one blank line after
imports and documentation, two before a class. -/

namespace TableModels.Code

open Text

def Statement.layout (depth : Nat) (statement : Statement) : List String :=
  Code.layout depth statement.isImport (statement.tokens.run 0).1

/-- Tabs before the first other character advance to the next column that eight divides. -/
def expandTabs : Nat → List Char → List Char
  | _, [] => []
  | column, c :: rest =>
    if c == '\t' then
      let width := 8 - column % 8
      List.replicate width ' ' ++ expandTabs (column + width) rest
    else c :: expandTabs (column + 1) rest

def expandIndent (line : List Char) : List Char :=
  let rest := line.dropWhile isBlank
  if rest.isEmpty then line else expandTabs 0 (line.takeWhile isBlank) ++ rest

def indentOf (line : List Char) : Nat := (line.takeWhile isBlank).length

def smallestIndent (lines : List (List Char)) : Option Nat :=
  ((lines.filter fun line => !line.all isBlank).map indentOf).min?

/-- Moves the lines after the first to a given indentation, keeping what they are indented beyond the
one that is indented least. -/
def reindentRest (margin : List Char) (least : Nat) : List (List Char) → List (List Char)
  | [] => []
  | line :: rest =>
    let trimmed := dropTrailing isBlank (line.drop least)
    (if trimmed.isEmpty && !rest.isEmpty then [] else margin ++ trimmed) :: reindentRest margin least rest

def reindent (margin body : List Char) : List (List Char) :=
  match (splitChars (· == '\n') body).map expandIndent with
  | [] => []
  | first :: rest =>
    stripChars first :: (match smallestIndent rest with
      | some least => reindentRest margin least rest
      | none => [])

/-- A backslash before a line end, with nothing but blanks between them. -/
def continuesLine : List Char → Bool
  | [] => false
  | c :: rest => (c == '\\' && (rest.takeWhile isBlank).contains '\n') || continuesLine rest

/-- The documentation of a class, as the body of the class begins with it. -/
def docLayout (doc : String) : String :=
  let (body, quote) := docQuoted doc
  let quotes := triple quote
  let margin := (indent 1).toList
  let inner :=
    if continuesLine body then body ++ quotes
    else if body.contains '\n' then
      let lines := reindent margin body
      let last := (lines.getLast?.map List.length).getD 0
      let close := if 1 < lines.length && lineWidth < last + 3 then '\n' :: margin ++ quotes else quotes
      (['\n'].intercalate lines) ++ close
    else stripChars body ++ quotes
  String.ofList (margin ++ quotes ++ inner)

def classTokens (definition : ClassDefinition) : Numbered (List Token) :=
  return [.word "class", .word definition.name true] ++
    (← Token.enclosed "(" ")" false false false (return [.word definition.base])) ++ [.word ":"]

def ClassDefinition.layout (definition : ClassDefinition) : List String :=
  Code.layout 0 false ((classTokens definition).run 0).1 ++ docLayout definition.doc :: "" ::
    definition.body.flatMap (Statement.layout 1)

def Block.layout : Block → List String
  | .statement line => line.layout 0
  | .guarded condition body => ("if " ++ condition ++ ":") :: body.flatMap (Statement.layout 1)
  | .definition d => d.layout

def isImportBlock : Block → Bool
  | .statement line => line.isImport
  | _ => false

/-- Blank lines between two blocks. -/
def blanksBetween (before after : Block) : Nat :=
  match after with
  | .definition _ => 2
  | after => if isImportBlock before && !isImportBlock after then 1 else 0

def blankLines (count : Nat) : List String := List.replicate count ""

def blockLines : Option Block → List Block → List String
  | _, [] => []
  | before, block :: rest =>
    let blanks := (before.map fun before => blanksBetween before block).getD 0
    blankLines blanks ++ block.layout ++ blockLines (some block) rest

/-- The lines of a header with at most two blank lines in a row, and one at least after imports.
`blanks` counts the blank lines passed, and `afterImport` says what came before them. The header is
followed by one blank line. -/
def headerLines (blanks : Nat) (afterImport : Bool) : List HeaderLine → List String
  | [] => blankLines (min (blanks + 1) 2)
  | .blank :: rest => headerLines (blanks + 1) afterImport rest
  | .comment text :: rest =>
    let blanks := if afterImport then max blanks 1 else blanks
    blankLines (min blanks 2) ++ text :: headerLines 0 false rest
  | .statement line :: rest =>
    let blanks := if afterImport && !line.isImport then 1 else blanks
    blankLines (min blanks 2) ++ line.layout 0 ++ headerLines 0 line.isImport rest

/-- The laid out text of a module, unless its header cannot be read. -/
def Module.formatted? (module : Module) : Option String :=
  (readHeader? module.header).map fun header =>
    let lines := headerLines 0 false header ++ blockLines none module.blocks
    String.join (lines.map (· ++ "\n"))

/-- The text of a module. One that cannot be laid out is written as it is. -/
def Module.text (module : Module) : String := module.formatted?.getD module.plain

end TableModels.Code
