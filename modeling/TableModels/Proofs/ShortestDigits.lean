import Mathlib.Data.Nat.Digits.Defs
import TableModels.Proofs.Rounding

/-! The shortest digits of a number. They lie in the interval around it, so they are read back as the number: with
seventeen digits some always do. Where their first digit stands tells how the number compares with a power of ten. -/

namespace TableModels.Binary64

variable {mantissa digits : Nat} {exponent first power : Int} {span : Interval} {unit : Nat × Nat}

def powerPair (base : Nat) : Int → Nat × Nat
  | .ofNat up => (Nat.pow base up, 1)
  | .negSucc down => (1, Nat.pow base (down + 1))

private theorem isRatio_powerPair {base : Nat} (positive : 0 < base) (power : Int) :
    IsRatio (powerPair base power) ((base : ℚ) ^ power) := by
  cases power with
  | ofNat up => exact ⟨Nat.one_pos, by simp [powerPair]⟩
  | negSucc down => exact ⟨Nat.pow_pos positive, by simp [powerPair, zpow_negSucc]⟩

private theorem mul_le_mul_ratio {first second : Nat × Nat} {one two : ℚ} (isFirst : IsRatio first one)
    (isSecond : IsRatio second two) (m n : Nat) :
    m * first.1 * second.2 ≤ n * second.1 * first.2 ↔ (m : ℚ) * one ≤ n * two := by
  obtain ⟨some, rfl⟩ := isFirst
  obtain ⟨positive, rfl⟩ := isSecond
  rw [mul_div_assoc', mul_div_assoc', div_le_div_iff₀ (by exact_mod_cast some) (by exact_mod_cast positive)]
  exact_mod_cast Iff.rfl

/-- The point of a grid next below the number in the middle of an interval. -/
def pointBelow (span : Interval) (unit step : Nat × Nat) : Nat := span.middle * unit.1 * step.2 / (step.1 * unit.2)

def inside (span : Interval) (unit step : Nat × Nat) (point : Nat) : Bool :=
  if span.closed then span.low * unit.1 * step.2 ≤ point * step.1 * unit.2 && point * step.1 * unit.2 ≤
    span.high * unit.1 * step.2
  else span.low * unit.1 * step.2 < point * step.1 * unit.2 && point * step.1 * unit.2 < span.high * unit.1 * step.2

private theorem gridPoint?_eq (span : Interval) (unit : Nat × Nat) (power : Int) : gridPoint? span unit power =
    let step := powerPair 10 power
    let below := pointBelow span unit step
    let toBelow := span.middle * unit.1 * step.2 - below * step.1 * unit.2
    let toAbove := (below + 1) * step.1 * unit.2 - span.middle * unit.1 * step.2
    match inside span unit step below, inside span unit step (below + 1) with
    | true, true =>
      if toBelow < toAbove then some below
      else if toAbove < toBelow then some (below + 1)
      else if below % 2 == 0 then some below else some (below + 1)
    | true, false => some below
    | false, true => some (below + 1)
    | false, false => none := rfl

private theorem gridPoint?_cases (span : Interval) (unit : Nat × Nat) (power : Int) :
    let below := pointBelow span unit (powerPair 10 power)
    let isInside := inside span unit (powerPair 10 power)
    gridPoint? span unit power = some below ∧ isInside below = true ∨
    gridPoint? span unit power = some (below + 1) ∧ isInside (below + 1) = true ∨
    gridPoint? span unit power = none ∧ isInside below = false ∧ isInside (below + 1) = false := by
  rw [gridPoint?_eq]
  dsimp only
  generalize pointBelow span unit (powerPair 10 power) = below
  cases inside span unit (powerPair 10 power) below with
  | false => cases inside span unit (powerPair 10 power) (below + 1) <;> simp
  | true =>
    cases inside span unit (powerPair 10 power) (below + 1) with
    | false => simp
    | true => split_ifs <;> simp

section

variable (isUnit : IsRatio unit (2 ^ span.scale))

include isUnit

private theorem compare_eq (power : Int) (point quarters : Nat) :
    (point * (powerPair 10 power).1 * unit.2 ≤ quarters * unit.1 * (powerPair 10 power).2 ↔
        decimalValue point power ≤ quarters * 2 ^ span.scale) ∧
      (quarters * unit.1 * (powerPair 10 power).2 ≤ point * (powerPair 10 power).1 * unit.2 ↔
        quarters * 2 ^ span.scale ≤ decimalValue point power) := by
  have isStep := isRatio_powerPair (show 0 < 10 by decide) power
  exact ⟨mul_le_mul_ratio isStep isUnit point quarters, mul_le_mul_ratio isUnit isStep quarters point⟩

private theorem inside_iff (power : Int) (point : Nat) :
    inside span unit (powerPair 10 power) point = true ↔ span.Holds (decimalValue point power) := by
  obtain ⟨atLow, fromLow⟩ := compare_eq isUnit power point span.low
  obtain ⟨toHigh, atHigh⟩ := compare_eq isUnit power point span.high
  rw [inside, Interval.Holds]
  split
  · simp only [Bool.and_eq_true, decide_eq_true_eq, fromLow, toHigh]
  · simp only [Bool.and_eq_true, decide_eq_true_eq, ← not_le, atLow, atHigh]

private theorem pointBelow_spec (power : Int) :
    decimalValue (pointBelow span unit (powerPair 10 power)) power ≤ span.middle * 2 ^ span.scale ∧
    span.middle * 2 ^ span.scale < decimalValue (pointBelow span unit (powerPair 10 power) + 1) power := by
  have positive : 0 < (powerPair 10 power).1 * unit.2 := by
    refine Nat.mul_pos ?_ isUnit.divides
    cases power with
    | ofNat up => exact Nat.pow_pos (by decide)
    | negSucc down => exact Nat.one_pos
  rw [← (compare_eq isUnit power _ span.middle).1, ← not_le, ← (compare_eq isUnit power _ span.middle).1, not_le,
    pointBelow, Nat.mul_assoc, Nat.mul_assoc (_ + 1)]
  exact ⟨Nat.div_mul_le_self _ _, Nat.lt_mul_of_div_lt (Nat.lt_succ_self _) positive⟩

end

/-- With seventeen digits the points of the grid are so close that one of the two next to the number lies in the
interval. -/
private theorem holds_seventeen {below : Nat} (some : 0 < mantissa) (small : mantissa < 2 ^ 53)
    (leading : (10 : ℚ) ^ first ≤ magnitude mantissa exponent)
    (under : decimalValue below (first - 16) ≤ magnitude mantissa exponent)
    (beyond : magnitude mantissa exponent < decimalValue (below + 1) (first - 16)) :
    (interval mantissa exponent).Holds (decimalValue below (first - 16)) ∨
      (interval mantissa exponent).Holds (decimalValue (below + 1) (first - 16)) := by
  have unit := two_zpow_pos exponent
  have near := reach_le mantissa exponent
  have away := reach_pos mantissa exponent
  have split : (10 : ℚ) ^ first = 10 ^ 16 * 10 ^ (first - 16) := by
    rw [zpow_sub₀ (by norm_num)]
    norm_num
    ring
  have most : (mantissa : ℚ) * 2 ^ exponent ≤ 2 ^ 53 * 2 ^ exponent :=
    mul_le_mul_of_nonneg_right (by exact_mod_cast small.le) unit.le
  have inward : (mantissa - reach mantissa exponent) * 2 ^ exponent < (mantissa : ℚ) * 2 ^ exponent :=
    mul_lt_mul_of_pos_right (by linarith) unit
  rw [split, magnitude] at leading
  simp only [decimalValue, magnitude, Nat.cast_add, Nat.cast_one] at under beyond ⊢
  generalize (10 : ℚ) ^ (first - 16) = step at leading under beyond
  by_cases upper : (below + 1 : ℚ) * step < (mantissa + 1 / 2) * 2 ^ exponent
  · exact .inr (holds_of_lt some (by linarith) upper)
  · -- the steps are longer than half a last place, so the number is no power of two
    have wide := not_lt.mp upper
    have other : mantissa ≠ 2 ^ 52 := by
      rintro rfl
      push_cast at leading under beyond wide
      linarith
    have half : reach mantissa exponent = 1 / 2 := if_neg fun both => other both.1
    refine .inl (holds_of_lt some ?_ (by linarith))
    rw [half]
    linarith

private theorem digitCount_pos (n : Nat) : 0 < digitCount n := Nat.length_toDigits_pos

theorem digitCount_le {n count : Nat} (some : 0 < count) : digitCount n ≤ count ↔ n < 10 ^ count :=
  Nat.length_toDigits_le_iff (by decide) some

private theorem lt_of_digitCount (n : Nat) : n < 10 ^ digitCount n := (digitCount_le (digitCount_pos n)).mp le_rfl

private theorem le_of_digitCount {n : Nat} (some : 0 < n) : 10 ^ (digitCount n - 1) ≤ n := by
  by_contra less
  by_cases single : digitCount n = 1
  · rw [single] at less
    omega
  · have count := digitCount_pos n
    have more : 0 < digitCount n - 1 := by omega
    have fewer := (digitCount_le more).mpr (not_le.mp less)
    omega

private theorem decimalValue_bounds (some : 0 < digits) (power : Int) :
    (10 : ℚ) ^ (power + digitCount digits - 1) ≤ decimalValue digits power ∧
      decimalValue digits power < 10 ^ (power + digitCount digits) := by
  have step : (0 : ℚ) < 10 ^ power := zpow_pos (by norm_num) power
  have count := digitCount_pos digits
  rw [decimalValue]
  constructor
  · have low : ((10 : ℚ) ^ (digitCount digits - 1)) ≤ digits := by exact_mod_cast le_of_digitCount some
    rw [show power + digitCount digits - 1 = ((digitCount digits - 1 : Nat) : Int) + power by omega,
      zpow_add₀ (by norm_num), zpow_natCast]
    exact mul_le_mul_of_nonneg_right low step.le
  · have high : (digits : ℚ) < 10 ^ digitCount digits := by exact_mod_cast lt_of_digitCount digits
    rw [add_comm, zpow_add₀ (by norm_num), zpow_natCast]
    exact mul_lt_mul_of_pos_right high step

private theorem leadingExponent_le {numerator denominator : Nat} (positive : 0 < numerator)
    (divides : 0 < denominator) :
    (10 : ℚ) ^ leadingExponent numerator denominator ≤ (numerator : ℚ) / denominator := by
  have some : (0 : ℚ) < numerator := by exact_mod_cast positive
  have unit : (0 : ℚ) < denominator := by exact_mod_cast divides
  rw [leadingExponent, le_div_iff₀ unit]
  split
  · rename_i whole
    have count := digitCount_pos (numerator / denominator)
    have low := le_of_digitCount (Nat.div_pos whole divides)
    rw [show (digitCount (numerator / denominator) : Int) - 1 =
      ((digitCount (numerator / denominator) - 1 : Nat) : Int) by omega, zpow_natCast]
    exact_mod_cast (Nat.mul_le_mul_right _ low).trans (Nat.div_mul_le_self _ _)
  · rename_i part
    have count := digitCount_pos (denominator / numerator)
    dsimp only
    split
    · rename_i reached
      rw [show -((digitCount (denominator / numerator) : Int) - 1) =
        -((digitCount (denominator / numerator) - 1 : Nat) : Int) by omega, zpow_neg, zpow_natCast,
          inv_mul_le_iff₀ (by positivity), mul_comm]
      exact_mod_cast reached
    · have high := Nat.lt_mul_of_div_lt (lt_of_digitCount (denominator / numerator)) positive
      rw [zpow_neg, zpow_natCast, inv_mul_le_iff₀ (by positivity)]
      exact_mod_cast high.le

private theorem gridPoint?_of_searchDigits {tries count : Nat} {found : Nat × Int}
    (ends : searchDigits span unit first tries count = some found) : gridPoint? span unit found.2 = some found.1 := by
  induction tries generalizing count with
  | zero => simp [searchDigits] at ends
  | succ tries ih =>
    rw [searchDigits] at ends
    cases here : gridPoint? span unit (first - (count - 1)) with
    | none => exact ih (by simpa [here] using ends)
    | some point =>
      obtain rfl : (point, first - ((count : Int) - 1)) = found := by simpa [here] using ends
      exact here

private theorem searchDigits_isSome {tries more : Nat} (count : Nat) (reached : more < tries)
    (point : (gridPoint? span unit (first - (count + more - 1 : Int))).isSome) :
    (searchDigits span unit first tries count).isSome := by
  -- a try that finds a point before then ends the search as well
  induction more generalizing tries count with
  | zero =>
    obtain ⟨tries, rfl⟩ := Nat.exists_eq_succ_of_ne_zero (by omega : tries ≠ 0)
    obtain ⟨found, here⟩ := Option.isSome_iff_exists.mp point
    rw [searchDigits]
    simp only [Nat.cast_zero, add_zero] at here
    simp [here]
  | succ more ih =>
    obtain ⟨tries, rfl⟩ := Nat.exists_eq_succ_of_ne_zero (by omega : tries ≠ 0)
    rw [searchDigits]
    cases gridPoint? span unit (first - (count - 1)) with
    | some => rfl
    | none =>
      refine ih (count + 1) (by omega) ?_
      rwa [show ((count + 1 : Nat) : Int) + more - 1 = count + (more + 1 : Nat) - 1 by omega]

private theorem dropZeros_spec (steps : Nat) (some : 0 < digits) (power : Int) : 0 < (dropZeros steps digits power).1 ∧
    decimalValue (dropZeros steps digits power).1 (dropZeros steps digits power).2 = decimalValue digits power := by
  induction steps generalizing digits power with
  | zero => exact ⟨some, rfl⟩
  | succ steps ih =>
    rw [dropZeros]
    split
    · rename_i zero
      have tens : digits = digits / 10 * 10 := by
        simp only [Bool.and_eq_true, beq_iff_eq] at zero
        omega
      obtain ⟨positive, same⟩ := ih (show 0 < digits / 10 by omega) (power + 1)
      refine ⟨positive, same.trans ?_⟩
      rw [decimalValue, decimalValue, zpow_add₀ (by norm_num), zpow_one]
      nth_rewrite 2 [tens]
      push_cast
      ring
    · exact ⟨some, rfl⟩

private theorem shortest_eq (mantissa : Nat) (exponent : Int) : shortest mantissa exponent =
    let span := interval mantissa exponent
    let unit := powerPair 2 span.scale
    let found := (searchDigits span unit (leadingExponent (span.middle * unit.1) unit.2) 17 1).getD (0, 0)
    let trimmed := dropZeros 18 found.1 found.2
    ⟨trimmed.1, digitCount trimmed.1, trimmed.2 + digitCount trimmed.1 - 1⟩ := rfl

private theorem Interval.Holds.digits_pos (some : 0 < mantissa)
    (holds : (interval mantissa exponent).Holds (decimalValue digits power)) :
    0 < digits := by
  by_contra none
  have above := holds.pos some
  rw [show digits = 0 by omega, decimalValue] at above
  simp at above

private theorem gridPoint?_holds (isUnit : IsRatio unit (2 ^ span.scale))
    {point : Nat} (found : gridPoint? span unit power = some point) : span.Holds (decimalValue point power) := by
  rcases gridPoint?_cases span unit power with ⟨same, inside⟩ | ⟨same, inside⟩ | ⟨none, _⟩
  · obtain rfl := Option.some.inj (same.symm.trans found)
    exact (inside_iff isUnit power _).mp inside
  · obtain rfl := Option.some.inj (same.symm.trans found)
    exact (inside_iff isUnit power _).mp inside
  · simp [none] at found

private theorem gridPoint?_isSome (isUnit : IsRatio unit (2 ^ span.scale))
    (holds : span.Holds (decimalValue (pointBelow span unit (powerPair 10 power)) power) ∨
      span.Holds (decimalValue (pointBelow span unit (powerPair 10 power) + 1) power)) :
        (gridPoint? span unit power).isSome := by
  simp only [← inside_iff isUnit] at holds
  rcases gridPoint?_cases span unit power with ⟨same, _⟩ | ⟨same, _⟩ | ⟨_, below, above⟩
  · simp [same]
  · simp [same]
  · simp [below, above] at holds

private theorem searchDigits_found (some : 0 < mantissa) (small : mantissa < 2 ^ 53)
    (isUnit : IsRatio unit (2 ^ (interval mantissa exponent).scale)) :
    ∃ found, searchDigits (interval mantissa exponent) unit
      (leadingExponent ((interval mantissa exponent).middle * unit.1) unit.2) 17 1 =
      .some found ∧ 0 < found.1 ∧ (interval mantissa exponent).Holds (decimalValue found.1 found.2) := by
  have middle := middle_eq mantissa exponent
  have numerator : 0 < (interval mantissa exponent).middle * unit.1 := by
    refine Nat.mul_pos (Nat.mul_pos (by decide) some) ?_
    by_contra none
    have power := isUnit.ratio
    rw [show unit.1 = 0 by omega, Nat.cast_zero, zero_div] at power
    exact (two_zpow_pos _).ne power
  have leading := leadingExponent_le numerator isUnit.divides
  rw [Nat.cast_mul, mul_div_assoc, isUnit.ratio, middle] at leading
  generalize leadingExponent ((interval mantissa exponent).middle * unit.1) unit.2 = first at leading
  obtain ⟨under, beyond⟩ := pointBelow_spec isUnit (first - 16)
  rw [middle] at under beyond
  have seventeen := gridPoint?_isSome isUnit (holds_seventeen some small leading under beyond)
  obtain ⟨found, ends⟩ := Option.isSome_iff_exists.mp (searchDigits_isSome 1 (show 16 < 17 by decide) seventeen)
  have holds := gridPoint?_holds isUnit (gridPoint?_of_searchDigits ends)
  exact ⟨found, ends, holds.digits_pos some, holds⟩

/-- There are shortest digits, and they lie in the interval around the number. -/
theorem shortest_holds (some : 0 < mantissa) (small : mantissa < 2 ^ 53) (exponent : Int) :
    0 < (shortest mantissa exponent).digits ∧ (shortest mantissa exponent).count =
      digitCount (shortest mantissa exponent).digits ∧
      (interval mantissa exponent).Holds (decimalValue (shortest mantissa exponent).digits
        ((shortest mantissa exponent).exponent + 1 - (shortest mantissa exponent).count)) := by
  obtain ⟨found, ends, positive, holds⟩ :=
    searchDigits_found some small (isRatio_powerPair (show 0 < 2 by decide) (interval mantissa exponent).scale)
  obtain ⟨kept, same⟩ := dropZeros_spec 18 positive found.2
  rw [shortest_eq]
  simp only [ends, Option.getD_some, true_and]
  refine ⟨kept, ?_⟩
  rw [sub_add_cancel, add_sub_cancel_right, same]
  exact holds

/-- The digits of a number reach a power of ten exactly if the number does, when they do so for the number nearest to
the power: another number with the power between it and its digits would have the power in its interval. -/
private theorem le_exponent_iff {nearest numerator denominator : Nat} {place bound : Int}
    (canonical : Canonical mantissa exponent)
    (some : 0 < mantissa) (divides : 0 < denominator) (power : (numerator : ℚ) / denominator = 10 ^ bound)
    (rounded : ofPositiveQuotient false numerator denominator = .finite false nearest place)
    (reached : (10 : ℚ) ^ bound ≤ magnitude nearest place) (digits : bound ≤ (shortest nearest place).exponent) :
    bound ≤ (shortest mantissa exponent).exponent ↔ (10 : ℚ) ^ bound ≤ magnitude mantissa exponent := by
  obtain ⟨positive, count, holds⟩ := shortest_holds some canonical.small exponent
  have itself := holds_magnitude some exponent
  have nearby (inside : (interval mantissa exponent).Holds (10 ^ bound)) :
      bound ≤ (shortest mantissa exponent).exponent ∧ (10 : ℚ) ^ bound ≤ magnitude mantissa exponent := by
    rw [← power] at inside
    have same := ofPositiveQuotient_of_holds false canonical some divides inside
    rw [rounded] at same
    obtain ⟨_, rfl, rfl⟩ := finite.inj same
    exact ⟨digits, reached⟩
  obtain ⟨low, high⟩ :=
    decimalValue_bounds positive ((shortest mantissa exponent).exponent + 1 - (shortest mantissa exponent).count)
  rw [← count, sub_add_cancel, add_sub_cancel_right] at low
  rw [← count, sub_add_cancel] at high
  have place : bound ≤ (shortest mantissa exponent).exponent ↔
      (10 : ℚ) ^ bound ≤ decimalValue (shortest mantissa exponent).digits
      ((shortest mantissa exponent).exponent + 1 - (shortest mantissa exponent).count) := by
    constructor
    · exact fun under => (zpow_le_zpow_right₀ (by norm_num) under).trans low
    · exact fun under => Int.lt_add_one_iff.mp ((zpow_lt_zpow_iff_right₀ (by norm_num)).mp (under.trans_lt high))
  rw [place]
  constructor
  · intro above
    by_contra less
    exact less (nearby (itself.between holds (not_le.mp less).le above)).2
  · intro above
    by_contra less
    exact less (place.mp (nearby (holds.between itself (not_le.mp less).le above)).1)

theorem lower_exponent_iff (canonical : Canonical mantissa exponent) (some : 0 < mantissa) :
    -4 ≤ (shortest mantissa exponent).exponent ↔ (10 : ℚ) ^ (-4 : Int) ≤ magnitude mantissa exponent := by
  have rounded : ofPositiveQuotient false 1 10000 = .finite false 7378697629483821 (-66) := by decide +kernel
  refine le_exponent_iff canonical some (by decide) (by norm_num) rounded ?_ (by decide +kernel)
  rw [magnitude]
  norm_num

theorem upper_exponent_iff (canonical : Canonical mantissa exponent) (some : 0 < mantissa) :
    16 ≤ (shortest mantissa exponent).exponent ↔ (10 : ℚ) ^ (16 : Int) ≤ magnitude mantissa exponent := by
  have rounded : ofPositiveQuotient false (10 ^ 16) 1 = .finite false 5000000000000000 1 := by decide +kernel
  refine le_exponent_iff canonical some (by decide) (by norm_num) rounded ?_ (by decide +kernel)
  rw [magnitude]
  norm_num

theorem Interval.Holds.bounds (canonical : Canonical mantissa exponent) (some : 0 < mantissa) {value : ℚ}
    (holds : (interval mantissa exponent).Holds value) :
    (10 : ℚ) ^ (-340 : Int) < value ∧ value < 10 ^ (320 : Int) := by
  obtain ⟨low, high, _⟩ := half_of_holds some holds
  have unit := two_zpow_pos exponent
  have near := reach_le mantissa exponent
  have least : (1 : ℚ) ≤ mantissa := by exact_mod_cast some
  have most : (mantissa : ℚ) + 1 ≤ 2 ^ 53 := by exact_mod_cast canonical.small
  have smallest : (2 : ℚ) ^ (-1074 : Int) ≤ 2 ^ exponent := zpow_le_zpow_right₀ (by norm_num) canonical.lowest
  have largest : (2 : ℚ) ^ exponent ≤ 2 ^ (971 : Int) := zpow_le_zpow_right₀ (by norm_num) canonical.highest
  have tiny : (2 : ℚ) ^ 1075 < 10 ^ 340 := by exact_mod_cast (by decide +kernel : 2 ^ 1075 < 10 ^ 340)
  have huge : (2 : ℚ) ^ 1024 < 10 ^ 320 := by exact_mod_cast (by decide +kernel : 2 ^ 1024 < 10 ^ 320)
  constructor
  · calc (10 : ℚ) ^ (-340 : Int) = (10 ^ 340)⁻¹ := zpow_neg_coe_of_pos _ (by decide)
      _ < (2 ^ 1075)⁻¹ := inv_strictAnti₀ (by positivity) tiny
      _ = 1 / 2 * 2 ^ (-1074 : Int) := by
          rw [show (-1074 : Int) = -((1074 : Nat) : Int) by rfl, zpow_neg, zpow_natCast, pow_succ, mul_inv,
            mul_comm, one_div]
      _ ≤ (mantissa - reach mantissa exponent) * 2 ^ exponent :=
          mul_le_mul (by linarith) smallest (two_zpow_pos _).le (by linarith)
      _ ≤ value := low
  · calc value ≤ (mantissa + 1 / 2) * 2 ^ exponent := high
      _ ≤ 2 ^ 53 * 2 ^ (971 : Int) := mul_le_mul (by linarith) largest unit.le (by norm_num)
      _ = 2 ^ 1024 := by
          rw [← zpow_natCast, ← zpow_natCast, ← zpow_add₀ (by norm_num)]
          rfl
      _ < 10 ^ (320 : Int) := by exact_mod_cast huge

/-- Decimal digits that lie in the interval around a number are read as the number. -/
theorem ofDecimal_of_holds (negative : Bool) (canonical : Canonical mantissa exponent)
    (some : 0 < mantissa) (holds : (interval mantissa exponent).Holds (decimalValue digits power)) :
    ofDecimal negative digits power = .finite negative mantissa exponent := by
  have positive := holds.digits_pos some
  obtain ⟨small, large⟩ := holds.bounds canonical some
  obtain ⟨low, high⟩ := decimalValue_bounds positive power
  have upper := (zpow_lt_zpow_iff_right₀ (by norm_num)).mp (low.trans_lt large)
  have lower := (zpow_lt_zpow_iff_right₀ (by norm_num)).mp (small.trans high)
  have nonzero : (digits == 0) = false := beq_eq_false_iff_ne.mpr positive.ne'
  simp only [ofDecimal, nonzero, Bool.false_eq_true, if_false]
  rw [if_neg (by omega), if_neg (by omega)]
  cases power with
  | ofNat up =>
    refine ofPositiveQuotient_of_holds negative canonical some (by decide) ?_
    simpa [decimalValue] using holds
  | negSucc down =>
    refine ofPositiveQuotient_of_holds negative canonical some (Nat.pow_pos (by decide)) ?_
    simpa [decimalValue, zpow_negSucc, div_eq_mul_inv] using holds

end TableModels.Binary64

