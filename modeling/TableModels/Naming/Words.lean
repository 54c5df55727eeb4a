import TableModels.Text.Case
import TableModels.Text.Scan

/-! The words of a name.

`snake` writes a name in lower case with an underscore between its words: before a capitalised
word, and between a lower-case letter or digit and a capital. `words` are the runs of ASCII letters
and digits of that form. -/

namespace TableModels.Naming

open Text

/-- An underscore before every capital that starts a word of at least two letters, unless it comes
first. `inWord` says that the lower-case letters of such a word are being copied. -/
def markCapitalised (inWord : Bool) : List Char → List Char
  | [] => []
  | [c] => [c]
  | c :: next :: rest =>
    if inWord && isAsciiLower c then c :: markCapitalised true (next :: rest)
    else if c != '\n' && isAsciiUpper next && (rest.head?.map isAsciiLower).getD false then
      c :: '_' :: next :: markCapitalised true rest
    else c :: markCapitalised false (next :: rest)

/-- Two underscores before a capital become one. -/
def mergeUnderscores : List Char → List Char
  | '_' :: '_' :: c :: rest =>
    if isAsciiUpper c then '_' :: c :: mergeUnderscores rest else '_' :: mergeUnderscores ('_' :: c :: rest)
  | c :: rest => c :: mergeUnderscores rest
  | [] => []

/-- An underscore between a lower-case letter or digit and a capital. -/
def markCapitals : List Char → List Char
  | c :: next :: rest =>
    if (isAsciiLower c || isAsciiDigit c) && isAsciiUpper next then c :: '_' :: next :: markCapitals rest
    else c :: markCapitals (next :: rest)
  | chars => chars

def snakeChars (chars : List Char) : List Char :=
  lowerChars (markCapitals (mergeUnderscores (markCapitalised false chars)))

/-- The name in lower case, its words joined by underscores. -/
def snake (name : String) : String := String.ofList (snakeChars name.toList)

/-- The words of a name. -/
def words (name : String) : List (List Char) :=
  (splitChars (fun c => !isAsciiAlphanumeric c) (snakeChars name.toList)).filter (!·.isEmpty)

def capitaliseWord : List Char → List Char
  | [] => []
  | c :: rest => upperAsciiChar c :: rest

/-- The words of a name, each with a capital, run together. -/
def pascal (name : String) : String := String.ofList ((words name).flatMap capitaliseWord)

end TableModels.Naming
