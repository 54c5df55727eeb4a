import TableModels.Text.Class
import TableModels.Text.Scan

/-! Dates and points in time. -/

namespace TableModels.Yaml

structure TimeOfDay where
  hour : Nat
  minute : Nat
  second : Nat
  microsecond : Nat := 0
  deriving DecidableEq, Repr

/-- How far a clock is ahead of the common time, or behind it. -/
structure Offset where
  isBehind : Bool := false
  minutes : Nat := 0
  deriving DecidableEq, Repr

structure Timestamp where
  year : Nat
  month : Nat
  day : Nat
  time : Option (TimeOfDay × Option Offset) := none
  deriving DecidableEq, Repr

/-- The part of a timestamp that no calendar or clock has. -/
inductive TimestampFault where
  | year
  | month
  | day
  | hour
  | minute
  | second
  deriving DecidableEq, Repr

namespace Timestamp

private def number (digits : List Char) : Nat := digits.foldl (fun n c => n * 10 + (c.toNat - 0x30)) 0

/-- A number of `least` to `most` digits at the start. -/
private def digits (least most : Nat) (chars : List Char) : Option (Nat × List Char) :=
  let found := (chars.takeWhile Text.isAsciiDigit).take most
  if found.length < least then none else some (number found, chars.drop found.length)

private def expect (c : Char) : List Char → Option (List Char)
  | first :: rest => if first == c then some rest else none
  | [] => none

private def isSpace (c : Char) : Bool := c == ' ' || c == '\t'

private def timeStart : List Char → Option (List Char)
  | 'T' :: rest | 't' :: rest => some rest
  | c :: rest => if isSpace c then some (rest.dropWhile isSpace) else none
  | [] => none

/-- Six places of a fraction. -/
private def microseconds (fraction : List Char) : Nat :=
  number ((fraction ++ List.replicate 6 '0').take 6)

private def fraction (chars : List Char) : Nat × List Char :=
  match chars with
  | '.' :: rest => (microseconds (rest.takeWhile Text.isAsciiDigit), rest.dropWhile Text.isAsciiDigit)
  | _ => (0, chars)

private def offsetMinutes (isBehind : Bool) (chars : List Char) : Option Offset := do
  let (hours, rest) ← digits 1 2 chars
  match rest with
  | [] => some ⟨isBehind, 60 * hours⟩
  | _ =>
    let (minutes, rest) ← digits 2 2 (← expect ':' rest)
    if rest.isEmpty then some ⟨isBehind, 60 * hours + minutes⟩ else none

private def offset (chars : List Char) : Option (Option Offset) :=
  match chars.dropWhile isSpace with
  | [] => if chars.isEmpty then some none else none
  | 'Z' :: rest => if rest.isEmpty then some (some {}) else none
  | '+' :: rest => (offsetMinutes false rest).map some
  | '-' :: rest => (offsetMinutes true rest).map some
  | _ => none

private def clock? (chars : List Char) : Option (TimeOfDay × Option Offset) := do
  let (hour, rest) ← digits 1 2 (← timeStart chars)
  let (minute, rest) ← digits 2 2 (← expect ':' rest)
  let (second, rest) ← digits 2 2 (← expect ':' rest)
  let (microsecond, rest) := fraction rest
  return (⟨hour, minute, second, microsecond⟩, ← offset rest)

private def hasFullDate (chars : List Char) : Bool := chars.length == 10

/-- The timestamp that a scalar spells. A date alone has two digits for the month and the day. -/
def ofChars? (chars : List Char) : Option Timestamp := do
  let (year, rest) ← digits 4 4 chars
  let (month, rest) ← digits 1 2 (← expect '-' rest)
  let (day, rest) ← digits 1 2 (← expect '-' rest)
  if rest.isEmpty then
    if hasFullDate chars then some { year, month, day } else none
  else return { year, month, day, time := some (← clock? rest) }

def isLeap (year : Nat) : Bool := year % 4 == 0 && (year % 100 != 0 || year % 400 == 0)

def daysIn (year month : Nat) : Nat :=
  if month == 2 then if isLeap year then 29 else 28
  else if month == 4 || month == 6 || month == 9 || month == 11 then 30 else 31

private def timeFault? (time : TimeOfDay) : Option TimestampFault :=
  if 23 < time.hour then some .hour
  else if 59 < time.minute then some .minute
  else if 59 < time.second then some .second
  else none

def fault? (timestamp : Timestamp) : Option TimestampFault :=
  if timestamp.year == 0 then some .year
  else if timestamp.month == 0 || 12 < timestamp.month then some .month
  else if timestamp.day == 0 || daysIn timestamp.year timestamp.month < timestamp.day then some .day
  else timestamp.time.bind fun (time, _) => timeFault? time

private def padded (width n : Nat) : String :=
  let digits := Nat.toDigits 10 n
  String.ofList (List.replicate (width - digits.length) '0' ++ digits)

private def Offset.text (offset : Offset) : String :=
  (if offset.isBehind && offset.minutes != 0 then "-" else "+")
    ++ padded 2 (offset.minutes / 60) ++ ":" ++ padded 2 (offset.minutes % 60)

private def TimeOfDay.text (time : TimeOfDay) : String :=
  padded 2 time.hour ++ ":" ++ padded 2 time.minute ++ ":" ++ padded 2 time.second
    ++ (if time.microsecond == 0 then "" else "." ++ padded 6 time.microsecond)

def text (timestamp : Timestamp) : String :=
  padded 4 timestamp.year ++ "-" ++ padded 2 timestamp.month ++ "-" ++ padded 2 timestamp.day
    ++ match timestamp.time with
      | none => ""
      | some (time, offset) => " " ++ TimeOfDay.text time ++ ((offset.map Offset.text).getD "")

end Timestamp

def TimestampFault.message : TimestampFault → String
  | .year => "year 0 is out of range"
  | .month => "month must be in 1..12"
  | .day => "day is out of range for month"
  | .hour => "hour must be in 0..23"
  | .minute => "minute must be in 0..59"
  | .second => "second must be in 0..59"

end TableModels.Yaml
