import TableModels.Code.Plain
import TableModels.Naming.Reserved

/-! Annotations read back from their text: names, names in quotes, and either with more of them in brackets. Nothing
else is read, so a text that is read is an annotation, but a text that is not may be one. -/

namespace TableModels.Code.TypeText

open Text

def isNameChar (c : Char) : Bool := isAsciiAlphanumeric c || c == '_'

/-- A word that begins with no digit. It stands for a name or for no value, but for no keyword. -/
def readWord? (chars : List Char) : Option (Expr × List Char) :=
  match chars.takeWhile isNameChar with
  | [] => none
  | c :: word =>
    let name := String.ofList (c :: word)
    let rest := chars.dropWhile isNameChar
    if isAsciiDigit c then none
    else if name == "None" then some (.nothing, rest)
    else if Naming.keywords.contains name then none
    else some (.name name, rest)

/-- A word after its opening quote. -/
def readQuoted? (chars : List Char) : Option (Expr × List Char) :=
  match chars.dropWhile isNameChar with
  | '\'' :: rest => some (.text (String.ofList (chars.takeWhile isNameChar)), rest)
  | _ => none

def readAtom? : List Char → Option (Expr × List Char)
  | '\'' :: rest => readQuoted? rest
  | chars => readWord? chars

mutual
def readFrom? : Nat → List Char → Option (Expr × List Char)
  | 0, _ => none
  | fuel + 1, chars => do
    let (value, rest) ← readAtom? chars
    match rest with
    | '[' :: rest => do
      let (indices, rest) ← readIndices? fuel rest
      some (.subscript value indices, rest)
    | rest => some (value, rest)

/-- What stands between brackets, after the opening one. -/
def readIndices? : Nat → List Char → Option (List Expr × List Char)
  | 0, _ => none
  | fuel + 1, chars => do
    let (index, rest) ← readFrom? fuel chars
    match rest with
    | ']' :: rest => some ([index], rest)
    | ',' :: ' ' :: rest => do
      let (others, rest) ← readIndices? fuel rest
      some (index :: others, rest)
    | _ => none
end

/-- The annotation of a text, which has to be one to its end. -/
def read? (text : String) : Option Expr :=
  match readFrom? (2 * text.length) text.toList with
  | some (type, []) => some type
  | _ => none

end TableModels.Code.TypeText
