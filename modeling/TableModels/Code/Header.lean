import TableModels.Code.Syntax
import TableModels.Naming.Reserved
import TableModels.Text.Scan

/-! The lines at the head of a module. They are comments as long as nothing they quote holds a line
end; otherwise each line is read for what it is: blank, a comment, or a simple statement. Lines that
are none of these make the module impossible to lay out. -/

namespace TableModels.Code

open Text

inductive HeaderLine where
  | blank
  | comment (text : String)
  | statement (statement : Statement)
  deriving Repr

namespace HeaderLine

def isGap (c : Char) : Bool := c == ' ' || c == '\t'

def skipGap (chars : List Char) : List Char := chars.dropWhile isGap

/-- A comment has a blank after its mark, unless the mark is followed by one of a few others. -/
def commentText (chars : List Char) : String :=
  match dropTrailing isBlank chars with
  | '#' :: c :: rest =>
    if c == '\u00a0' then String.ofList ('#' :: ' ' :: rest)
    else if [' ', '!', ':', '#', '\''].contains c then String.ofList ('#' :: c :: rest)
    else String.ofList ('#' :: ' ' :: c :: rest)
  | other => String.ofList other

def readWord? : List Char → Option (String × List Char)
  | [] => none
  | c :: rest =>
    if isIdentifierStart c then
      some (String.ofList (c :: rest.takeWhile isIdentifierContinue), rest.dropWhile isIdentifierContinue)
    else none

def valueWords : List String := ["False", "None", "True"]

/-- A word that is no keyword. -/
def readName? (chars : List Char) : Option (String × List Char) := do
  let (word, rest) ← readWord? chars
  if Naming.keywords.contains word then none else some (word, rest)

def readNumber? (chars : List Char) : Option (Expr × List Char) :=
  let digits := chars.takeWhile isAsciiDigit
  let leadsWithZero := digits.head? == some '0' && digits.any (· != '0')
  if digits.isEmpty || leadsWithZero then none
  else
    let value := digits.foldl (fun n c => n * 10 + (c.toNat - '0'.toNat)) 0
    some (.int value, chars.dropWhile isAsciiDigit)

/-- A text without escapes, after its opening quote. -/
def readText? (quote : Char) (chars : List Char) : Option (Expr × List Char) :=
  let body := chars.takeWhile fun c => c != quote && c != '\\'
  match chars.drop body.length with
  | c :: rest => if c == quote then some (.text (String.ofList body), rest) else none
  | [] => none

def readAtom? (chars : List Char) : Option (Expr × List Char) :=
  match chars with
  | '\'' :: rest => readText? '\'' rest
  | '"' :: rest => readText? '"' rest
  | _ =>
    match readWord? chars with
    | some (word, rest) =>
      if valueWords.contains word || !Naming.keywords.contains word then some (.name word, rest) else none
    | none => readNumber? chars

mutual
def readExpr? : Nat → List Char → Option (Expr × List Char)
  | 0, _ => none
  | fuel + 1, chars => do
    let (value, rest) ← readAtom? chars
    readTrailers? fuel value rest

/-- Attributes and calls after a value. -/
def readTrailers? : Nat → Expr → List Char → Option (Expr × List Char)
  | 0, _, _ => none
  | fuel + 1, value, chars =>
    match skipGap chars with
    | '.' :: rest => do
      let (member, rest) ← readName? (skipGap rest)
      readTrailers? fuel (.attribute value member) rest
    | '(' :: rest => do
      let (arguments, keywords, rest) ← readArguments? fuel [] [] (skipGap rest)
      readTrailers? fuel (.call value arguments keywords) rest
    | _ => some (value, chars)

def readArguments? : Nat → List Expr → List (String × Expr) → List Char →
    Option (List Expr × List (String × Expr) × List Char)
  | 0, _, _, _ => none
  | fuel + 1, arguments, keywords, chars =>
    match chars with
    | ')' :: rest => some (arguments.reverse, keywords.reverse, rest)
    | _ => do
      let (arguments, keywords, rest) ← readArgument? fuel arguments keywords chars
      match skipGap rest with
      | ',' :: rest =>
        match skipGap rest with
        | ')' :: _ => none
        | rest => readArguments? fuel arguments keywords rest
      | ')' :: rest => some (arguments.reverse, keywords.reverse, rest)
      | _ => none

def readArgument? : Nat → List Expr → List (String × Expr) → List Char →
    Option (List Expr × List (String × Expr) × List Char)
  | 0, _, _, _ => none
  | fuel + 1, arguments, keywords, chars => do
    let (value, rest) ← readExpr? fuel chars
    match value, skipGap rest with
    | .name keyword, '=' :: rest =>
      let (value, rest) ← readExpr? fuel (skipGap rest)
      some (arguments, (keyword, value) :: keywords, rest)
    | _, rest => if keywords.isEmpty then some (value :: arguments, keywords, rest) else none
end

def readNames? : Nat → List Char → Option (List String × List Char)
  | 0, _ => none
  | fuel + 1, chars => do
    let (name, rest) ← readName? chars
    match skipGap rest with
    | ',' :: rest => do
      let (names, rest) ← readNames? fuel (skipGap rest)
      some (name :: names, rest)
    | rest => some ([name], rest)

def readModulePath? : Nat → List Char → Option (String × List Char)
  | 0, _ => none
  | fuel + 1, chars => do
    let (name, rest) ← readName? chars
    match rest with
    | '.' :: rest => do
      let (path, rest) ← readModulePath? fuel rest
      some (name ++ "." ++ path, rest)
    | rest => some (name, rest)

def readImportFrom? (chars : List Char) : Option Statement := do
  let chars := skipGap chars
  let level := (chars.takeWhile (· == '.')).length
  let (path, rest) ← readModulePath? chars.length (chars.dropWhile (· == '.'))
  let ("import", rest) ← readWord? (skipGap rest) | none
  let (names, rest) ← readNames? rest.length (skipGap rest)
  if (skipGap rest).isEmpty then some (.importFrom level path names) else none

def readImport? (chars : List Char) : Option Statement := do
  let chars := skipGap chars
  let (path, rest) ← readModulePath? chars.length chars
  if (skipGap rest).isEmpty then some (.importModule path) else none

def readSimple? (chars : List Char) : Option Statement := do
  let fuel := 2 * chars.length + 4
  let (value, rest) ← readExpr? fuel chars
  match value, skipGap rest with
  | .text _, _ => none
  | value, [] => some (.evaluate value)
  | .name target, '=' :: rest =>
    if valueWords.contains target then none
    else
      let (value, rest) ← readExpr? fuel (skipGap rest)
      if (skipGap rest).isEmpty then some (.assign target value) else none
  | _, _ => none

def readStatement? (chars : List Char) : Option Statement :=
  match readWord? chars with
  | some ("import", rest) => readImport? rest
  | some ("from", rest) => readImportFrom? rest
  | some ("pass", rest) => if (skipGap rest).isEmpty then some (.evaluate (.name "pass")) else none
  | _ => readSimple? chars

/-- Reads a line. Only comments may be indented. -/
def read? (line : String) : Option HeaderLine :=
  match skipGap line.toList with
  | [] => some .blank
  | '#' :: rest => some (.comment (commentText ('#' :: rest)))
  | _ => (readStatement? line.toList).map .statement

end HeaderLine

/-- Reads the lines of a header, which may hold line ends themselves. -/
def readHeader? (header : List String) : Option (List HeaderLine) :=
  (header.flatMap linesOf).mapM HeaderLine.read?

end TableModels.Code
