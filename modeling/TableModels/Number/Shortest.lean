import TableModels.Number.Binary64

/-! The fewest decimal digits that read back as the same number.

The reals that round to a number form an interval. For one digit, two digits and so on the two
points of the decimal grid on either side of the number are tried; the first grid with a point
inside the interval wins, and of two such points the nearer one, a tie going to the even digit. -/

namespace TableModels.Binary64

/-- Digits and the power of ten of the first of them: `d.ddd * 10 ^ exponent`. -/
structure Digits where
  digits : Nat
  count : Nat
  exponent : Int
  deriving Repr, DecidableEq

/-- The interval around a finite number in quarters of its last place. -/
structure Interval where
  low : Nat
  middle : Nat
  high : Nat
  scale : Int
  closed : Bool
  deriving Repr

def interval (mantissa : Nat) (exponent : Int) : Interval :=
  let narrowBelow := mantissa == Nat.pow 2 52 && exponent > -1074
  { low := if narrowBelow then 4 * mantissa - 1 else 4 * mantissa - 2
    middle := 4 * mantissa
    high := 4 * mantissa + 2
    scale := exponent - 2
    closed := mantissa % 2 == 0 }

/-- The exponent of the first decimal digit of a positive quotient. -/
def leadingExponent (numerator denominator : Nat) : Int :=
  if denominator ≤ numerator then (digitCount (numerator / denominator) : Int) - 1
  else
    let count := digitCount (denominator / numerator)
    if denominator ≤ numerator * Nat.pow 10 (count - 1) then -((count : Int) - 1) else -(count : Int)

/-- A point of the grid `10 ^ power` that lies in the interval of a number near `numerator /
denominator`, if there is one on either side. -/
def gridPoint? (span : Interval) (unit : Nat × Nat) (power : Int) : Option Nat :=
  let point := fun (quarters : Nat) => quarters * unit.1
  let step : Nat × Nat := match power with
    | .ofNat up => (Nat.pow 10 up, 1)
    | .negSucc down => (1, Nat.pow 10 (down + 1))
  -- a grid point `k` stands at `k * step.1 / step.2`, a quarter `q` at `q * unit.1 / unit.2`
  let grid := fun (k : Nat) => k * step.1 * unit.2
  let real := fun (quarters : Nat) => point quarters * step.2
  let inside := fun (k : Nat) =>
    if span.closed then real span.low ≤ grid k && grid k ≤ real span.high
    else real span.low < grid k && grid k < real span.high
  let below := real span.middle / (step.1 * unit.2)
  let above := below + 1
  let toBelow := real span.middle - grid below
  let toAbove := grid above - real span.middle
  match inside below, inside above with
  | true, true =>
    if toBelow < toAbove then some below
    else if toAbove < toBelow then some above
    else if below % 2 == 0 then some below else some above
  | true, false => some below
  | false, true => some above
  | false, false => none

/-- Tries one more digit at a time, from `count` digits on. -/
def searchDigits (span : Interval) (unit : Nat × Nat) (first : Int) : Nat → Nat → Option (Nat × Int)
  | 0, _ => none
  | tries + 1, count =>
    let power := first - (count - 1)
    match gridPoint? span unit power with
    | some point => some (point, power)
    | none => searchDigits span unit first tries (count + 1)

/-- Drops trailing zeros, which a grid point next to a power of ten can have. -/
def dropZeros : Nat → Nat → Int → Nat × Int
  | 0, digits, power => (digits, power)
  | steps + 1, digits, power =>
    if digits % 10 == 0 && digits != 0 then dropZeros steps (digits / 10) (power + 1) else (digits, power)

/-- The shortest digits of a positive finite number. Seventeen digits always suffice. -/
def shortest (mantissa : Nat) (exponent : Int) : Digits :=
  let span := interval mantissa exponent
  let unit : Nat × Nat := match span.scale with
    | .ofNat up => (Nat.pow 2 up, 1)
    | .negSucc down => (1, Nat.pow 2 (down + 1))
  let first := leadingExponent (span.middle * unit.1) unit.2
  let found := (searchDigits span unit first 17 1).getD (0, 0)
  let trimmed := dropZeros 18 found.1 found.2
  let count := digitCount trimmed.1
  { digits := trimmed.1, count := count, exponent := trimmed.2 + count - 1 }

end TableModels.Binary64
