import TableModels.Text.Ranges
import TableModels.Text.IdentifierTable
import TableModels.Text.PrintableTable
import TableModels.Text.WordTable

/-! Character classes. Each one decides the ASCII characters directly and looks up the rest, so a
fact about ASCII text never reaches a table. -/

namespace TableModels.Text

def isAsciiUpper (c : Char) : Bool := 'A' ≤ c && c ≤ 'Z'
def isAsciiLower (c : Char) : Bool := 'a' ≤ c && c ≤ 'z'
def isAsciiDigit (c : Char) : Bool := '0' ≤ c && c ≤ '9'
def isAsciiAlphanumeric (c : Char) : Bool := isAsciiUpper c || isAsciiLower c || isAsciiDigit c

/-- Blank characters: spaces of every width, tabs, line ends and the four information separators. -/
def isBlank (c : Char) : Bool :=
  let n := c.toNat
  n == 0x20 || (0x09 ≤ n && n ≤ 0x0D) || (0x1C ≤ n && n ≤ 0x1F) || n == 0x85 || n == 0xA0 ||
    n == 0x1680 || (0x2000 ≤ n && n ≤ 0x200A) || n == 0x2028 || n == 0x2029 || n == 0x202F ||
    n == 0x205F || n == 0x3000

/-- Letters, numbers and the underscore. -/
def isWord (c : Char) : Bool :=
  if c.toNat < 0x80 then isAsciiAlphanumeric c || c == '_' else alphanumericRanges.contains c.toNat

/-- The value of a decimal digit of any script. -/
def digitValue? (c : Char) : Option Nat :=
  if c.toNat < 0x80 then if isAsciiDigit c then some (c.toNat - '0'.toNat) else none
  else (decimalDigitRanges.offset? c.toNat).map (· % 10)

def isDigit (c : Char) : Bool := (digitValue? c).isSome

/-- Characters that show when printed; of the separators only the plain space does. -/
def isPrintable (c : Char) : Bool :=
  if c.toNat < 0x80 then 0x20 ≤ c.toNat && c.toNat < 0x7F else !unprintableRanges.contains c.toNat

def isIdentifierStart (c : Char) : Bool :=
  if c.toNat < 0x80 then isAsciiUpper c || isAsciiLower c || c == '_'
  else identifierStartRanges.contains c.toNat

def isIdentifierContinue (c : Char) : Bool :=
  if c.toNat < 0x80 then isAsciiAlphanumeric c || c == '_' else identifierContinueRanges.contains c.toNat

end TableModels.Text
