import TableModels.Text.Class
import TableModels.Value

/-! Reading JSON text. `NaN`, `Infinity` and `-Infinity` are accepted as numbers, a repeated key
takes the last value at the place of the first, and a number without fraction or exponent is a
whole number of any size up to a given count of digits. Lists and objects stand in each other only as
deep as there is room on the stack. -/

namespace TableModels.Json

/-- What has others in it. -/
inductive Nest where
  | list
  | object
  deriving Repr, DecidableEq

inductive Fault where
  | malformed
  /-- A whole number with more digits than are converted. -/
  | tooManyDigits (count : Nat)
  /-- There is no room on the stack for a list or an object. -/
  | tooDeep (nest : Nest)
  deriving Repr, DecidableEq

def Nest.name : Nest → String
  | .list => "array"
  | .object => "object"

def Nest.message (nest : Nest) : String :=
  s!"maximum recursion depth exceeded while decoding a JSON {nest.name} from a unicode string"

/-- The digits of the longest whole number that is converted. -/
def digitLimit : Nat := 4300

/-- How deep a text can be nested: what the calls of a run leave of a stack of a thousand. -/
def usualRoom : Nat := 985

theorem five_le_usualRoom : 5 ≤ usualRoom := by decide

def isSpace (c : Char) : Bool := c == ' ' || c == '\t' || c == '\n' || c == '\r'

def skipSpace (chars : List Char) : List Char := chars.dropWhile isSpace

def hexValue? (c : Char) : Option Nat :=
  if '0' ≤ c && c ≤ '9' then some (c.toNat - 0x30)
  else if 'a' ≤ c && c ≤ 'f' then some (c.toNat - 0x57)
  else if 'A' ≤ c && c ≤ 'F' then some (c.toNat - 0x37)
  else none

/-- Four hexadecimal digits and what follows them. -/
def readHex4 : List Char → Option (Nat × List Char)
  | a :: b :: c :: d :: rest => do
    let a ← hexValue? a
    let b ← hexValue? b
    let c ← hexValue? c
    let d ← hexValue? d
    some (((a * 16 + b) * 16 + c) * 16 + d, rest)
  | _ => none

def isHighSurrogate (n : Nat) : Bool := 0xD800 ≤ n && n ≤ 0xDBFF
def isLowSurrogate (n : Nat) : Bool := 0xDC00 ≤ n && n ≤ 0xDFFF

/-- A code unit alone; half of a surrogate pair has no character and becomes the replacement mark. -/
def unitChar (n : Nat) : Char := if 0xD800 ≤ n && n ≤ 0xDFFF then '\uFFFD' else Char.ofNat n

def readUnicodeEscape (chars : List Char) : Option (Char × List Char) := do
  let (unit, rest) ← readHex4 chars
  if isHighSurrogate unit then
    match rest with
    | '\\' :: 'u' :: after =>
      match readHex4 after with
      | some (second, rest') =>
        if isLowSurrogate second then
          some (Char.ofNat (0x10000 + (unit - 0xD800) * 0x400 + (second - 0xDC00)), rest')
        else some (unitChar unit, rest)
      | none => none
    | _ => some (unitChar unit, rest)
  else some (unitChar unit, rest)

def shortEscape? : Char → Option Char
  | '"' => some '"'
  | '\\' => some '\\'
  | '/' => some '/'
  | 'b' => some '\x08'
  | 'f' => some '\x0c'
  | 'n' => some '\n'
  | 'r' => some '\r'
  | 't' => some '\t'
  | _ => none

/-- The rest of a string after its opening quote; `read` holds the characters so far, last first. -/
def readString : Nat → List Char → List Char → Except Fault (String × List Char)
  | 0, _, _ => .error .malformed
  | fuel + 1, read, chars =>
    match chars with
    | [] => .error .malformed
    | '"' :: rest => .ok (String.ofList read.reverse, rest)
    | '\\' :: 'u' :: rest =>
      match readUnicodeEscape rest with
      | some (c, rest) => readString fuel (c :: read) rest
      | none => .error .malformed
    | '\\' :: c :: rest =>
      match shortEscape? c with
      | some c => readString fuel (c :: read) rest
      | none => .error .malformed
    | c :: rest => if c.toNat < 0x20 || c == '\\' then .error .malformed else readString fuel (c :: read) rest

def digitsValue (digits : List Char) : Nat := digits.foldl (fun n c => n * 10 + (c.toNat - 0x30)) 0

/-- The digits before the point, after any sign: a zero alone, or digits that begin with another. -/
def readWhole : List Char → Option (List Char × List Char)
  | '0' :: rest => some (['0'], rest)
  | chars =>
    let digits := chars.takeWhile Text.isAsciiDigit
    if digits.isEmpty then none else some (digits, chars.dropWhile Text.isAsciiDigit)

def readFraction : List Char → List Char × List Char
  | '.' :: rest =>
    let digits := rest.takeWhile Text.isAsciiDigit
    if digits.isEmpty then ([], '.' :: rest) else (digits, rest.dropWhile Text.isAsciiDigit)
  | chars => ([], chars)

def readExponent (chars : List Char) : Option Int × List Char :=
  match chars with
  | e :: rest =>
    if e == 'e' || e == 'E' then
      let (negative, unsigned) := match rest with
        | '-' :: after => (true, after)
        | '+' :: after => (false, after)
        | _ => (false, rest)
      let digits := unsigned.takeWhile Text.isAsciiDigit
      if digits.isEmpty then (none, chars)
      else
        let size : Int := digitsValue digits
        (some (if negative then -size else size), unsigned.dropWhile Text.isAsciiDigit)
    else (none, chars)
  | [] => (none, chars)

def readNumber (limit : Nat) (chars : List Char) : Except Fault (Value × List Char) :=
  let (negative, unsigned) := match chars with
    | '-' :: rest => (true, rest)
    | _ => (false, chars)
  match readWhole unsigned with
  | none => .error .malformed
  | some (whole, rest) =>
    let (fraction, rest) := readFraction rest
    let (exponent?, rest) := readExponent rest
    if fraction.isEmpty && exponent?.isNone then
      if limit < whole.length then .error (.tooManyDigits whole.length)
      else
        let size : Int := digitsValue whole
        .ok (.int (if negative then -size else size), rest)
    else
      let exponent := exponent?.getD 0 - fraction.length
      .ok (.float (.ofDecimal negative (digitsValue (whole ++ fraction)) exponent), rest)

def words : List (String × Value) :=
  [("null", .null), ("true", .bool true), ("false", .bool false), ("NaN", .float .notANumber),
    ("Infinity", .float (.infinite false)), ("-Infinity", .float (.infinite true))]

def readWord? (chars : List Char) : Option (Value × List Char) :=
  words.findSome? fun (word, value) => (word.toList.isPrefixOf? chars).map fun rest => (value, rest)

/-- The room that is left inside of a list or an object. -/
def enter (nest : Nest) : Nat → Except Fault Nat
  | 0 => .error (.tooDeep nest)
  | room + 1 => .ok room

mutual
/-- One value at the start of the text. The fuel bounds the steps. -/
def readValue (limit : Nat) : Nat → Nat → List Char → Except Fault (Value × List Char)
  | 0, _, _ => .error .malformed
  | fuel + 1, room, chars =>
    match chars with
    | '"' :: rest => do
      let (text, rest) ← readString (rest.length + 1) [] rest
      .ok (.text text, rest)
    | '[' :: rest => do
      let room ← enter .list room
      match skipSpace rest with
      | ']' :: rest => .ok (.list [], rest)
      | rest => do
        let (items, rest) ← readItems limit fuel room [] rest
        .ok (.list items, rest)
    | '\x7b' :: rest => do
      let room ← enter .object room
      match skipSpace rest with
      | '\x7d' :: rest => .ok (.object [], rest)
      | rest => do
        let (fields, rest) ← readFields limit fuel room [] rest
        .ok (.object fields, rest)
    | _ =>
      match readWord? chars with
      | some found => .ok found
      | none => readNumber limit chars

def readItems (limit : Nat) : Nat → Nat → List Value → List Char → Except Fault (List Value × List Char)
  | 0, _, _, _ => .error .malformed
  | fuel + 1, room, items, chars => do
    let (item, rest) ← readValue limit fuel room (skipSpace chars)
    match skipSpace rest with
    | ',' :: rest => readItems limit fuel room (item :: items) rest
    | ']' :: rest => .ok ((item :: items).reverse, rest)
    | _ => .error .malformed

def readFields (limit : Nat) : Nat → Nat → Fields → List Char → Except Fault (Fields × List Char)
  | 0, _, _, _ => .error .malformed
  | fuel + 1, room, fields, chars =>
    match skipSpace chars with
    | '"' :: rest => do
      let (name, rest) ← readString (rest.length + 1) [] rest
      match skipSpace rest with
      | ':' :: rest => do
        let (value, rest) ← readValue limit fuel room (skipSpace rest)
        let fields := Keyed.set fields name value
        match skipSpace rest with
        | ',' :: rest => readFields limit fuel room fields rest
        | '\x7d' :: rest => .ok (fields, rest)
        | _ => .error .malformed
      | _ => .error .malformed
    | _ => .error .malformed
end

/-- Reads a whole text as one value. -/
def readWith (limit room : Nat) (text : String) : Except Fault Value := do
  let chars := text.toList
  let (value, rest) ← readValue limit (2 * chars.length + 2) room (skipSpace chars)
  if (skipSpace rest).isEmpty then .ok value else .error .malformed

def read (room : Nat) (text : String) : Except Fault Value := readWith digitLimit room text

end TableModels.Json
