import TableModels.Number.Shortest

/-! Decimal text of numbers: positional from 0.0001 up to sixteen digits before the point, otherwise
with an exponent of at least two digits and a sign. A whole number keeps one decimal place. -/

namespace TableModels.Binary64

def zeros (count : Nat) : List Char := List.replicate count '0'

/-- Digits with a point where the exponent of the first puts it. -/
def positional (digits : List Char) (exponent : Int) : List Char :=
  if exponent < 0 then
    '0' :: '.' :: zeros (-exponent - 1).toNat ++ digits
  else
    let whole := exponent.toNat + 1
    if digits.length ≤ whole then digits ++ zeros (whole - digits.length) ++ ['.', '0']
    else digits.take whole ++ '.' :: digits.drop whole

/-- Digits with a point after the first, and the exponent of the first. -/
def withExponent (digits : List Char) (exponent : Int) : List Char :=
  let mantissa := match digits with
    | [] => ['0']
    | [d] => [d]
    | d :: rest => d :: '.' :: rest
  let size := Nat.toDigits 10 exponent.natAbs
  mantissa ++ 'e' :: (if exponent < 0 then '-' else '+') :: (zeros (2 - size.length) ++ size)

/-- The text of a number without its sign. -/
def magnitudeText (mantissa : Nat) (exponent : Int) : List Char :=
  if mantissa == 0 then ['0', '.', '0']
  else
    let short := shortest mantissa exponent
    let digits := Nat.toDigits 10 short.digits
    if short.exponent < -4 || 16 ≤ short.exponent then withExponent digits short.exponent
    else positional digits short.exponent

/-- The spellings of the values that have no digits. -/
structure SpecialNames where
  infinity : String
  notANumber : String

/-- Text of a number, with the given names for infinity and for what is not a number. -/
def render (names : SpecialNames) : Binary64 → String
  | .finite negative mantissa exponent =>
    let digits := magnitudeText mantissa exponent
    String.ofList (if negative then '-' :: digits else digits)
  | .infinite negative => if negative then "-" ++ names.infinity else names.infinity
  | .notANumber => names.notANumber

/-- Text of a number on its own. -/
def text (x : Binary64) : String := x.render ⟨"inf", "nan"⟩

end TableModels.Binary64
