/-! Binary floating-point numbers of 64 bits, as exact data.

A finite number is `mantissa * 2 ^ exponent`. The canonical form has a mantissa of exactly 53 bits,
or the smallest exponent, -1074. Decimals are rounded to the nearest number, ties to an even
mantissa. -/

namespace TableModels

inductive Binary64 where
  | finite (negative : Bool) (mantissa : Nat) (exponent : Int)
  | infinite (negative : Bool)
  | notANumber
  deriving Repr, DecidableEq, Inhabited

namespace Binary64

def zero (negative : Bool) : Binary64 := .finite negative 0 (-1074)

/-- The quotient rounded to the nearest whole number, a half to the even neighbour. -/
def roundHalfEven (numerator denominator : Nat) : Nat :=
  let quotient := numerator / denominator
  let twice := 2 * (numerator % denominator)
  if twice < denominator then quotient
  else if denominator < twice then quotient + 1
  else if quotient % 2 == 0 then quotient else quotient + 1

/-- `numerator / denominator / 2 ^ exponent` as a pair of naturals. -/
def scaled (numerator denominator : Nat) (exponent : Int) : Nat × Nat :=
  match exponent with
  | .ofNat up => (numerator, denominator * Nat.pow 2 up)
  | .negSucc down => (numerator * Nat.pow 2 (down + 1), denominator)

/-- The number nearest to a positive quotient. -/
def ofPositiveQuotient (negative : Bool) (numerator denominator : Nat) : Binary64 :=
  let guess : Int := (numerator.log2 : Int) - denominator.log2 - 52
  let atGuess := scaled numerator denominator guess
  let fitting := if atGuess.1 / atGuess.2 < Nat.pow 2 52 then guess - 1 else guess
  let exponent := max fitting (-1074)
  let parts := scaled numerator denominator exponent
  let mantissa := roundHalfEven parts.1 parts.2
  let carried := mantissa == Nat.pow 2 53
  let exponent := if carried then exponent + 1 else exponent
  let mantissa := if carried then Nat.pow 2 52 else mantissa
  if exponent > 971 then .infinite negative else .finite negative mantissa exponent

def digitCount (n : Nat) : Nat := (Nat.toDigits 10 n).length

/-- The number nearest to `digits * 10 ^ exponent`. Exponents far outside the range are decided
without computing the power. -/
def ofDecimal (negative : Bool) (digits : Nat) (exponent : Int) : Binary64 :=
  let magnitude : Int := exponent + digitCount digits
  if digits == 0 then zero negative
  else if magnitude > 320 then .infinite negative
  else if magnitude < -340 then zero negative
  else match exponent with
    | .ofNat up => ofPositiveQuotient negative (digits * Nat.pow 10 up) 1
    | .negSucc down => ofPositiveQuotient negative digits (Nat.pow 10 (down + 1))

/-- Equality of values: both zeros are equal, and nothing equals what is not a number. -/
def sameValue : Binary64 → Binary64 → Bool
  | .finite negative mantissa exponent, .finite negative' mantissa' exponent' =>
    (mantissa == 0 && mantissa' == 0) ||
      (negative == negative' && mantissa == mantissa' && exponent == exponent')
  | .infinite negative, .infinite negative' => negative == negative'
  | _, _ => false

/-- The whole number that this is, if it is one. -/
def toInt? : Binary64 → Option Int
  | .finite negative mantissa exponent =>
    let size := match exponent with
      | .ofNat up => some (mantissa * Nat.pow 2 up)
      | .negSucc down => if mantissa % Nat.pow 2 (down + 1) == 0 then some (mantissa / Nat.pow 2 (down + 1)) else none
    size.map fun (n : Nat) => if negative then -(n : Int) else n
  | _ => none

end Binary64

end TableModels
