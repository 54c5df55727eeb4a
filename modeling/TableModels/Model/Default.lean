import TableModels.Code.Plain
import TableModels.Number.Whole
import TableModels.Text.Case
import TableModels.Typing.FieldType

/-! Defaults of columns as defaults of fields. Only literals carry over: flags, numbers, quoted texts
and empty collections. -/

namespace TableModels.Model

open Text Code

/-- Where in a chain of casts such as `::text[]::jsonb` a reader stands. -/
inductive CastPlace where
  | start
  | secondColon
  | firstLetter
  | name
  | closing
  | afterCast
  deriving DecidableEq, Repr

private def startsCastName (c : Char) : Bool := isAsciiUpper c || isAsciiLower c || c == '_'
private def inCastName (c : Char) : Bool := isWord c || c == ' '

def CastPlace.next? : CastPlace → Char → Option CastPlace
  | .start, c => if c == ':' then some .secondColon else none
  | .secondColon, c => if c == ':' then some .firstLetter else none
  | .firstLetter, c => if startsCastName c then some .name else none
  | .name, c =>
    if c == ':' then some .secondColon
    else if c == '[' then some .closing
    else if inCastName c then some .name
    else none
  | .closing, c => if c == ']' then some .afterCast else none
  | .afterCast, c => if c == ':' then some .secondColon else none

def isCastsFrom : CastPlace → List Char → Bool
  | place, [] => place == .name || place == .afterCast
  | place, c :: rest =>
    match place.next? c with
    | some next => isCastsFrom next rest
    | none => false

/-- One or more casts and nothing else. -/
def isCasts (chars : List Char) : Bool := isCastsFrom .start chars

/-- The characters before the longest chain of casts at the end. -/
def beforeCasts : List Char → List Char
  | [] => []
  | c :: rest => if isCasts (c :: rest) then [] else c :: beforeCasts rest

def withoutCastsChars (chars : List Char) : List Char := stripChars (beforeCasts (stripChars chars))

/-- A default expression without casts at its end, and without blanks around it. -/
def withoutCasts (default : String) : String := String.ofList (withoutCastsChars default.toList)

inductive Default where
  | truth (value : Bool)
  | int (value : Int)
  | float (value : Binary64)
  /-- A decimal, in the digits of the database. -/
  | decimal (digits : String)
  | text (value : String)
  | newList
  | newDict
  deriving DecidableEq, Repr

/-- What a literal is read as, which the type of the field decides. -/
inductive LiteralKind where
  | bool
  | int
  | float
  | decimal
  | text
  | list
  | dict
  | none
  deriving DecidableEq, Repr

/-- The kind that goes with the text of a type. -/
def LiteralKind.ofTypeText (type : String) : LiteralKind :=
  if type == "bool" then .bool
  else if type == "int" then .int
  else if type == "float" then .float
  else if type == "Decimal" then .decimal
  else if type == "str" then .text
  else if hasPrefix "list[" type then .list
  else if hasPrefix "dict[" type then .dict
  else .none

private def readTruth? (literal : List Char) : Option Bool :=
  let lowered := String.ofList (lowerChars literal)
  if ["true", "'t'", "'true'"].contains lowered then some true
  else if ["false", "'f'", "'false'"].contains lowered then some false
  else none

/-- Two quotes in a row stand for one. -/
def undoubled : List Char → List Char
  | '\'' :: '\'' :: rest => '\'' :: undoubled rest
  | c :: rest => c :: undoubled rest
  | [] => []

/-- What stands between a quote at the start and another at the end. -/
def betweenQuotes? : List Char → Option (List Char)
  | '\'' :: rest => if rest.getLast? == some '\'' then some rest.dropLast else none
  | _ => none

def isEmptyCollection (literal : List Char) : Bool :=
  literal == ['\x7b', '\x7d'] || literal == ['\'', '\x7b', '\x7d', '\'']

/-- A literal as a default; one that a field of the kind cannot hold is left out. -/
def readLiteral (kind : LiteralKind) (literal : List Char) :
    Except Number.TooManyDigits (Option Default) :=
  match kind with
  | .bool => .ok ((readTruth? literal).map .truth)
  | .int => if Number.isWhole literal then (Number.readWhole literal).map (some ∘ .int) else .ok none
  | .float => .ok (if Number.isDecimal literal then some (.float (Number.readDecimal literal)) else none)
  | .decimal => .ok (if Number.isDecimal literal then some (.decimal (String.ofList literal)) else none)
  | .text => .ok ((betweenQuotes? literal).map fun body => .text (String.ofList (undoubled body)))
  | .list => .ok (if isEmptyCollection literal then some .newList else none)
  | .dict => .ok (if isEmptyCollection literal then some .newDict else none)
  | .none => .ok none

/-- The default of a field of a given type, if that of its column is a literal. -/
def readDefault (type : String) (default : String) : Except Number.TooManyDigits (Option Default) :=
  readLiteral (.ofTypeText type) (withoutCastsChars default.toList)

namespace Default

/-- The keyword argument that sets a default. -/
def keyword : Default → String × Expr
  | .truth value => ("default", .truth value)
  | .int value => ("default", .int value)
  | .float value => ("default", .float value)
  | .decimal digits => ("default", .call (.name "Decimal") [.text digits] [])
  | .text value => ("default", .text value)
  | .newList => ("default_factory", .name "list")
  | .newDict => ("default_factory", .name "dict")

/-- A collection is made anew for every object. -/
def isFactory : Default → Bool
  | .newList => true
  | .newDict => true
  | _ => false

def plain (value : Default) : String := value.keyword.1 ++ "=" ++ value.keyword.2.plain

end Default

end TableModels.Model
