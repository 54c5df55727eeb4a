import TableModels.Number.Binary64
import TableModels.Value
import TableModels.Yaml.Timestamp

/-! The types of scalars. A scalar without quotes is null, a truth value, a number or a timestamp if it
is spelled like one, and text otherwise. Underscores may stand between digits, and colons may part the
places of base sixty. -/

namespace TableModels.Yaml

inductive Fault where
  | malformed
  | tooManyDigits (count : Nat)
  /-- A sign of a base without a digit after it. -/
  | noDigits (base : Nat)
  | timestamp (fault : TimestampFault)
  deriving DecidableEq, Repr

private def nullWords : List String := ["", "~", "null", "Null", "NULL"]
private def trueWords : List String := ["yes", "Yes", "YES", "true", "True", "TRUE", "on", "On", "ON"]
private def falseWords : List String := ["no", "No", "NO", "false", "False", "FALSE", "off", "Off", "OFF"]

/-- The key that takes over the fields of another mapping. -/
def mergeWord : String := "<<"

/-- A key that stands for itself and no value. -/
def valueWord : String := "="

private def isDigitOrLine (c : Char) : Bool := Text.isAsciiDigit c || c == '_'

private def withoutLines (chars : List Char) : List Char := chars.filter (· != '_')

private def digitValue (c : Char) : Nat :=
  if Text.isAsciiDigit c then c.toNat - 0x30 else if Text.isAsciiLower c then c.toNat - 0x57 else c.toNat - 0x37

private def numeral (base : Nat) (digits : List Char) : Nat := digits.foldl (fun n c => n * base + digitValue c) 0

private def splitSign : List Char → Bool × List Char
  | '-' :: rest => (true, rest)
  | '+' :: rest => (false, rest)
  | chars => (false, chars)

private def isSixtieth (chars : List Char) : Bool :=
  match chars with
  | [c] => Text.isAsciiDigit c
  | [c, d] => '0' ≤ c && c ≤ '5' && Text.isAsciiDigit d
  | _ => false

/-- One or more places of base sixty after the first. -/
private def sixtieths? (parts : List (List Char)) : Option (List Nat) :=
  if parts.isEmpty || !parts.all isSixtieth then none else some (parts.map (numeral 10))

private def inSixties (first : Nat) (others : List Nat) : Nat := others.foldl (fun n part => n * 60 + part) first

private def inBase (base : Nat) (isDigit : Char → Bool) (chars : List Char) : Option (Except Fault Nat) :=
  if chars.isEmpty || !chars.all (fun c => isDigit c || c == '_') then none
  else
    let digits := withoutLines chars
    some (if digits.isEmpty then .error (.noDigits base) else .ok (numeral base digits))

private def isHexDigit (c : Char) : Bool := Text.isAsciiDigit c || ('a' ≤ c && c ≤ 'f') || ('A' ≤ c && c ≤ 'F')

private def digitLimit : Nat := 4300

private def decimal (chars : List Char) : Except Fault Nat :=
  let digits := withoutLines chars
  if digitLimit < digits.length then .error (.tooManyDigits digits.length) else .ok (numeral 10 digits)

/-- A whole number that begins with a digit other than zero. -/
private def plainWhole? (chars : List Char) : Option (Except Fault Nat) :=
  match Text.splitChars (· == ':') chars with
  | first :: others =>
    if !first.all isDigitOrLine then none
    else if others.isEmpty then some (decimal first)
    else (sixtieths? others).map fun others => (decimal first).map fun first => inSixties first others
  | [] => none

private def size? : List Char → Option (Except Fault Nat)
  | ['0'] => some (.ok 0)
  | '0' :: 'b' :: rest => inBase 2 (fun c => c == '0' || c == '1') rest
  | '0' :: 'x' :: rest => inBase 16 isHexDigit rest
  | '0' :: rest =>
    if rest.all (fun c => ('0' ≤ c && c ≤ '7') || c == '_') then some (.ok (numeral 8 (withoutLines rest)))
    else none
  | c :: rest => if Text.isAsciiDigit c then plainWhole? (c :: rest) else none
  | [] => none

/-- The whole number that a scalar spells. -/
def whole? (chars : List Char) : Option (Except Fault Int) :=
  let (negative, digits) := splitSign chars
  (size? digits).map fun size => size.map fun size => if negative then -(size : Int) else size

/-- An exponent has a sign. -/
private def exponent? : List Char → Option Int
  | [] => some 0
  | e :: sign :: digits =>
    if (e != 'e' && e != 'E') || digits.isEmpty || !digits.all Text.isAsciiDigit then none
    else if sign == '-' then some (-(numeral 10 digits : Int))
    else if sign == '+' then some (numeral 10 digits)
    else none
  | _ => none

/-- The digits after a point, and the exponent after them. -/
private def fraction? (chars : List Char) : Option (List Char × Int) := do
  let digits := chars.takeWhile isDigitOrLine
  return (withoutLines digits, ← exponent? (chars.drop digits.length))

private def number (negative : Bool) (whole : Nat) (fraction : List Char) (exponent : Int) : Binary64 :=
  .ofDecimal negative (whole * Nat.pow 10 fraction.length + numeral 10 fraction) (exponent - fraction.length)

private def startsWithDigit (chars : List Char) : Bool := (chars.head?.map Text.isAsciiDigit).getD false

/-- A number that begins with a digit and has a point. -/
private def pointed? (negative : Bool) (chars : List Char) : Option Binary64 :=
  let whole := chars.takeWhile (· != '.')
  match Text.splitChars (· == ':') whole, chars.drop whole.length with
  | first :: others, '.' :: rest =>
    if !startsWithDigit first || !first.all isDigitOrLine then none
    else
      let first := numeral 10 (withoutLines first)
      if others.isEmpty then (fraction? rest).map fun (digits, exponent) => number negative first digits exponent
      else if rest.all isDigitOrLine then
        (sixtieths? others).map fun others => number negative (inSixties first others) (withoutLines rest) 0
      else none
  | _, _ => none

private def infinityWords : List String := [".inf", ".Inf", ".INF"]
private def notNumberWords : List String := [".nan", ".NaN", ".NAN"]

/-- The number with a point that a scalar spells. -/
def float? (chars : List Char) : Option Binary64 :=
  let (negative, unsigned) := splitSign chars
  if infinityWords.contains (String.ofList unsigned) then some (.infinite negative)
  else if notNumberWords.contains (String.ofList chars) then some .notANumber
  else match chars with
    | '.' :: rest =>
      if startsWithDigit rest then (fraction? rest).map fun (digits, exponent) => number false 0 digits exponent
      else none
    | _ => pointed? negative unsigned

private def ofTimestamp (timestamp : Timestamp) : Except Fault Value :=
  match timestamp.fault? with
  | some fault => .error (.timestamp fault)
  | none => .ok (.moment timestamp.text)

/-- The value of a scalar whose form decides its type. -/
def valueOf (content : String) : Except Fault Value :=
  let chars := content.toList
  if nullWords.contains content then .ok .null
  else if trueWords.contains content then .ok (.bool true)
  else if falseWords.contains content then .ok (.bool false)
  else if content == mergeWord || content == valueWord then .error .malformed
  else match float? chars, whole? chars, Timestamp.ofChars? chars with
    | some value, _, _ => .ok (.float value)
    | none, some whole, _ => whole.map .int
    | none, none, some timestamp => ofTimestamp timestamp
    | none, none, none => .ok (.text content)

end TableModels.Yaml
