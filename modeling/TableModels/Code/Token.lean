import TableModels.Code.Plain
import TableModels.Text.Width

/-! Statements as tokens, ready to be laid out over several lines.

Brackets carry the number of their pair. An optional pair stands around the type and the value of an
assignment and around imported names; it is not shown unless the layout needs it. -/

namespace TableModels.Code

structure Bracket where
  pair : Nat
  optional : Bool
  /-- What stands between brackets of this kind goes on lines of its own, item by item. -/
  explodes : Bool
  deriving DecidableEq, Repr

inductive TokenKind where
  | word
  | comma
  | equals
  | opening (bracket : Bracket)
  | closing (bracket : Bracket)
  deriving DecidableEq, Repr

structure Token where
  kind : TokenKind
  text : String
  /-- A blank stands before the token when it does not begin a line. -/
  spaced : Bool := false
  deriving DecidableEq, Repr

/-- Tokens are made with the number of the next pair of brackets at hand. -/
abbrev Numbered := StateM Nat

namespace Token

def word (text : String) (spaced : Bool := false) : Token := ⟨.word, text, spaced⟩
def comma : Token := ⟨.comma, ",", false⟩

/-- Tokens between brackets. -/
def enclosed (opening closing : String) (optional explodes spaced : Bool) (inside : Numbered (List Token)) :
    Numbered (List Token) := do
  let pair ← get
  set (pair + 1)
  let bracket := { pair, optional, explodes }
  let tokens ← inside
  return ⟨.opening bracket, opening, spaced⟩ :: tokens ++ [⟨.closing bracket, closing, false⟩]

def inOptional (spaced : Bool) (inside : Numbered (List Token)) : Numbered (List Token) :=
  enclosed "(" ")" true true spaced inside

/-- Puts a blank before the first token. -/
def afterBlank : List Token → List Token
  | [] => []
  | first :: rest => { first with spaced := true } :: rest

/-- Items with commas between them. -/
def separated : List (List Token) → List Token
  | [] => []
  | [item] => item
  | item :: rest => item ++ comma :: separated (rest.map afterBlank)
termination_by items => items.length

end Token

/-- The quotes of a text are double unless single ones need fewer escapes. -/
def layoutQuoted (value : String) : String :=
  let chars := value.toList
  let quote := if chars.count '"' ≤ chars.count '\'' then '"' else '\''
  String.ofList (quote :: Text.escapeWithin quote chars ++ [quote])

/-- A positive exponent goes without its sign. -/
def layoutFloat (value : Binary64) : String := String.ofList ((floatText value).toList.filter (· != '+'))

/-- A number, with its sign apart. -/
def numberTokens (text : String) : List Token :=
  match text.toList with
  | '-' :: digits => [.word "-", .word (String.ofList digits)]
  | _ => [.word text]

namespace Expr

open Token

mutual
def tokens : Expr → Numbered (List Token)
  | .name id => return [word id]
  | .text value => return [word (layoutQuoted value)]
  | .int value => return numberTokens (toString value)
  | .float value => return numberTokens (layoutFloat value)
  | .truth value => return [word (if value then "True" else "False")]
  | .nothing => return [word "None"]
  | .emptyTuple => enclosed "(" ")" false true false (return [])
  | .list items => enclosed "[" "]" false true false (return separated (← itemTokens items))
  | .attribute value member => return (← value.tokens) ++ [word ".", word member]
  | .subscript value indices =>
    return (← value.tokens) ++ (← enclosed "[" "]" false false false (return separated (← itemTokens indices)))
  | .call function arguments keywords =>
    return (← function.tokens) ++
      (← enclosed "(" ")" false false false do
        return separated ((← itemTokens arguments) ++ (← keywordTokens keywords)))

def itemTokens : List Expr → Numbered (List (List Token))
  | [] => return []
  | item :: rest => return (← item.tokens) :: (← itemTokens rest)

def keywordTokens : List (String × Expr) → Numbered (List (List Token))
  | [] => return []
  | (keyword, value) :: rest =>
    return (word keyword :: ⟨.equals, "=", false⟩ :: (← value.tokens)) :: (← keywordTokens rest)
end

end Expr

namespace Statement

open Token

def valueTokens (value : Expr) : Numbered (List Token) :=
  return ⟨.equals, "=", true⟩ :: (← inOptional true value.tokens)

def tokens : Statement → Numbered (List Token)
  | .importModule module => return [word "import", word module true]
  | .importFrom level module names =>
    return [word "from", word (dots level ++ module) true, word "import" true] ++
      (← inOptional true (return separated (names.map fun name => [word name])))
  | .assign target value => return word target :: (← valueTokens value)
  | .declare target type value? => do
    let declared := word target :: word ":" :: (← inOptional true type.tokens)
    match value? with
    | none => return declared
    | some value => return declared ++ (← valueTokens value)
  | .evaluate value => value.tokens

end Statement

end TableModels.Code
