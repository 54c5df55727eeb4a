import TableModels.Text.Class

/-! Cutting and trimming of texts, on lists of characters and on strings. -/

namespace TableModels.Text

def dropTrailing (drop : Char → Bool) (chars : List Char) : List Char := (chars.reverse.dropWhile drop).reverse

def trimChars (drop : Char → Bool) (chars : List Char) : List Char := dropTrailing drop (chars.dropWhile drop)

/-- The text without blank characters at either end. -/
def stripChars (chars : List Char) : List Char := trimChars isBlank chars

/-- The maximal runs between separators. There is always one run more than there are separators. -/
def splitChars (isSeparator : Char → Bool) : List Char → List (List Char)
  | [] => [[]]
  | c :: rest =>
    if isSeparator c then [] :: splitChars isSeparator rest
    else match splitChars isSeparator rest with
      | [] => [[c]]
      | part :: parts => (c :: part) :: parts

/-- What follows the first place where `part` stands. -/
def afterFirst? (part : List Char) : List Char → Option (List Char)
  | [] => if part.isEmpty then some [] else none
  | c :: rest =>
    match part.isPrefixOf? (c :: rest) with
    | some after => some after
    | none => afterFirst? part rest

def containsChars (part chars : List Char) : Bool := (afterFirst? part chars).isSome

/-- A carriage return ends a line, alone or with a line feed after it. -/
def unifyLineEnds : List Char → List Char
  | [] => []
  | '\r' :: '\n' :: rest => '\n' :: unifyLineEnds rest
  | '\r' :: rest => '\n' :: unifyLineEnds rest
  | c :: rest => c :: unifyLineEnds rest

def strip (text : String) : String := String.ofList (stripChars text.toList)

def hasPrefix (start text : String) : Bool := start.toList.isPrefixOf text.toList

def hasSuffix (ending text : String) : Bool := ending.toList.isSuffixOf text.toList

/-- The text without `ending`, when it ends so. -/
def withoutSuffix? (ending text : String) : Option String :=
  (ending.toList.isSuffixOf? text.toList).map String.ofList

def containsText (part text : String) : Bool := containsChars part.toList text.toList

/-- What stands before a line feed, without the carriage return that belongs to it. -/
def withoutReturn (line : List Char) : List Char := if line.getLast? = some '\r' then line.dropLast else line

/-- The lines of a text that a line feed follows. A carriage return alone ends a line, too. -/
def linesOf (text : String) : List String :=
  (splitChars (· == '\n') text.toList).flatMap fun line =>
    (splitChars (· == '\r') (withoutReturn line)).map String.ofList

/-- The first `count` characters. -/
def takeText (count : Nat) (text : String) : String := String.ofList (text.toList.take count)

end TableModels.Text
