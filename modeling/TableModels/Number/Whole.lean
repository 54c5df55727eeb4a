import TableModels.Number.Binary64
import TableModels.Text.Class

/-! Whole numbers and decimals written with the digits of any script. Very long whole numbers are not
converted. -/

namespace TableModels.Number

/-- A whole number with more digits than are converted. -/
structure TooManyDigits where
  count : Nat
  deriving DecidableEq, Repr

/-- The digits of the longest whole number that is converted. -/
def digitLimit : Nat := 4300

def TooManyDigits.message (fault : TooManyDigits) : String :=
  s!"Exceeds the limit ({digitLimit} digits) for integer string conversion: value has {fault.count} digits; use sys.set_int_max_str_digits() to increase the limit"

def ofDigits (digits : List Char) : Nat := digits.foldl (fun n c => n * 10 + (Text.digitValue? c).getD 0) 0

def signed (negative : Bool) (size : Nat) : Int := if negative then -size else size

/-- A minus sign before a number, and the rest. -/
def splitSign : List Char → Bool × List Char
  | '-' :: rest => (true, rest)
  | chars => (false, chars)

/-- One or more digits after an optional minus sign. -/
def isWhole (chars : List Char) : Bool :=
  let digits := (splitSign chars).2
  !digits.isEmpty && digits.all Text.isDigit

/-- The value of a text that `isWhole` accepts. -/
def readWhole (chars : List Char) : Except TooManyDigits Int :=
  let (negative, digits) := splitSign chars
  if digitLimit < digits.length then .error ⟨digits.length⟩ else .ok (signed negative (ofDigits digits))

/-- Digits, and after them an optional point and more digits. -/
def isDecimal (chars : List Char) : Bool :=
  let unsigned := (splitSign chars).2
  let whole := unsigned.takeWhile Text.isDigit
  !whole.isEmpty && match unsigned.dropWhile Text.isDigit with
    | [] => true
    | '.' :: fraction => fraction.all Text.isDigit
    | _ => false

/-- The number nearest to a text that `isDecimal` accepts. -/
def readDecimal (chars : List Char) : Binary64 :=
  let (negative, unsigned) := splitSign chars
  let fraction := (unsigned.dropWhile Text.isDigit).drop 1
  .ofDecimal negative (ofDigits (unsigned.filter Text.isDigit)) (-(fraction.length : Int))

end TableModels.Number
