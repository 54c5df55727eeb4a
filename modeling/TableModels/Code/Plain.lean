import TableModels.Code.Syntax
import TableModels.Number.FloatText
import TableModels.Text.Quoted
import TableModels.Text.Scan

/-! The plain text of generated code, one statement to a line whatever its length. -/

namespace TableModels.Code

/-- A number too large to be written is spelled as a decimal beyond the range. -/
def floatText (value : Binary64) : String := value.render ⟨"1e309", "(1e309-1e309)"⟩

namespace Expr

mutual
def plain : Expr → String
  | .name id => id
  | .text value => Text.quoted value
  | .int value => toString value
  | .float value => floatText value
  | .truth value => if value then "True" else "False"
  | .nothing => "None"
  | .emptyTuple => "()"
  | .list items => "[" ++ ", ".intercalate (plainItems items) ++ "]"
  | .attribute value member => value.plain ++ "." ++ member
  | .subscript value indices => value.plain ++ "[" ++ ", ".intercalate (plainItems indices) ++ "]"
  | .call function arguments keywords =>
    function.plain ++ "(" ++ ", ".intercalate (plainItems arguments ++ plainKeywords keywords) ++ ")"

def plainItems : List Expr → List String
  | [] => []
  | item :: rest => item.plain :: plainItems rest

def plainKeywords : List (String × Expr) → List String
  | [] => []
  | (keyword, value) :: rest => (keyword ++ "=" ++ value.plain) :: plainKeywords rest
end

end Expr

def dots (level : Nat) : String := String.ofList (List.replicate level '.')

def Statement.plain : Statement → String
  | .importModule module => "import " ++ module
  | .importFrom level module names => "from " ++ dots level ++ module ++ " import " ++ ", ".intercalate names
  | .assign target value => target ++ " = " ++ value.plain
  | .declare target type none => target ++ ": " ++ type.plain
  | .declare target type (some value) => target ++ ": " ++ type.plain ++ " = " ++ value.plain
  | .evaluate value => value.plain

def escapeDocChar (c : Char) : List Char := if c == '\n' || c == '\t' then [c] else Text.escapeChar c

/-- The characters between the quotes, and the quote that is tripled around them. -/
def docQuoted (doc : String) : List Char × Char :=
  let escaped := doc.toList.flatMap escapeDocChar
  if !Text.containsChars ['"', '"', '"'] escaped then (escaped, '"')
  else if !Text.containsChars ['\'', '\'', '\''] escaped then (escaped, '\'')
  else
    let quote := Text.quoteFor doc.toList
    (Text.escapeWithin quote doc.toList, quote)

def triple (quote : Char) : List Char := [quote, quote, quote]

def docPlain (doc : String) : String :=
  let (body, quote) := docQuoted doc
  String.ofList (triple quote ++ body ++ triple quote)

def indent (depth : Nat) : String := String.ofList (List.replicate (4 * depth) ' ')

def Block.plainLines : Block → List String
  | .statement line => [line.plain]
  | .guarded condition body => ("if " ++ condition ++ ":") :: body.map fun s => indent 1 ++ s.plain
  | .definition d =>
    "" :: ("class " ++ d.name ++ "(" ++ d.base ++ "):") :: (indent 1 ++ docPlain d.doc) ::
      d.body.map fun s => indent 1 ++ s.plain

def plainBlocks (blocks : List Block) : String := "\n".intercalate (blocks.flatMap Block.plainLines)

/-- Code under lines of its own and a blank line. -/
def withHeader (code : String) (lines : List String) : String :=
  "\n".intercalate lines ++ "\n\n" ++ String.ofList (code.toList.dropWhile Text.isBlank)

def Module.plain (module : Module) : String := withHeader (plainBlocks module.blocks) module.header

end TableModels.Code
