import Mathlib.Algebra.Order.Field.Power
import Mathlib.Data.Rat.Cast.Order
import Mathlib.Tactic.FieldSimp
import Mathlib.Tactic.Linarith
import Mathlib.Tactic.NormNum
import Mathlib.Tactic.Positivity
import Mathlib.Tactic.Ring
import TableModels.Number.Shortest

/-! Rounding to the nearest number. Around each number lies an interval, and all that lies in it rounds to the number,
the ends only if the mantissa is even. -/

namespace TableModels.Binary64

variable {mantissa numerator denominator : Nat} {exponent : Int}

def magnitude (mantissa : Nat) (exponent : Int) : ℚ := mantissa * 2 ^ exponent

def decimalValue (digits : Nat) (power : Int) : ℚ := digits * 10 ^ power

/-- The mantissa and the exponent of a number that there is: a mantissa of exactly 53 bits, or the smallest exponent. -/
structure Canonical (mantissa : Nat) (exponent : Int) : Prop where
  small : mantissa < 2 ^ 53
  lowest : -1074 ≤ exponent
  highest : exponent ≤ 971
  full : exponent = -1074 ∨ 2 ^ 52 ≤ mantissa

/-- A pair of naturals stands for a ratio. -/
structure IsRatio (pair : Nat × Nat) (value : ℚ) : Prop where
  divides : 0 < pair.2
  ratio : (pair.1 : ℚ) / pair.2 = value

def Interval.Holds (span : Interval) (value : ℚ) : Prop :=
  if span.closed then span.low * 2 ^ span.scale ≤ value ∧ value ≤ span.high * 2 ^ span.scale
  else span.low * 2 ^ span.scale < value ∧ value < span.high * 2 ^ span.scale

theorem two_zpow_pos (exponent : Int) : (0 : ℚ) < 2 ^ exponent := zpow_pos (by norm_num) exponent

private theorem two_zpow_add (exponent : Int) (bits : Nat) : (2 : ℚ) ^ (exponent + bits) = 2 ^ exponent * 2 ^ bits := by
  rw [zpow_add₀ (by norm_num), zpow_natCast]

private theorem two_zpow_quarter (exponent : Int) : (2 : ℚ) ^ (exponent - 2) = 2 ^ exponent / 4 := by
  rw [zpow_sub₀ (by norm_num)]
  norm_num

/-- How far the interval around a number reaches below it, in last places. A power of two has its neighbour below at
half the distance, if there is one. -/
def reach (mantissa : Nat) (exponent : Int) : ℚ := if mantissa = 2 ^ 52 ∧ -1074 < exponent then 1 / 4 else 1 / 2

theorem reach_le (mantissa : Nat) (exponent : Int) : reach mantissa exponent ≤ 1 / 2 := by
  rw [reach]
  split <;> norm_num

theorem reach_pos (mantissa : Nat) (exponent : Int) : 0 < reach mantissa exponent := by
  rw [reach]
  split <;> norm_num

theorem middle_eq (mantissa : Nat) (exponent : Int) :
    ((interval mantissa exponent).middle : ℚ) * 2 ^ (interval mantissa exponent).scale =
      magnitude mantissa exponent := by
  have middle : (interval mantissa exponent).middle = 4 * mantissa := rfl
  have scale : (interval mantissa exponent).scale = exponent - 2 := rfl
  rw [middle, scale, two_zpow_quarter, magnitude]
  push_cast
  ring

private theorem holds_iff (some : 0 < mantissa) (value : ℚ) : (interval mantissa exponent).Holds value ↔
    if mantissa % 2 = 0 then (mantissa - reach mantissa exponent) * 2 ^ exponent ≤ value ∧
      value ≤ (mantissa + 1 / 2) * 2 ^ exponent
    else (mantissa - reach mantissa exponent) * 2 ^ exponent < value ∧ value < (mantissa + 1 / 2) * 2 ^ exponent := by
  have upper : ((interval mantissa exponent).high : ℚ) * 2 ^ (exponent - 2) = (mantissa + 1 / 2) * 2 ^ exponent := by
    rw [two_zpow_quarter, interval]
    push_cast
    ring
  have lower : ((interval mantissa exponent).low : ℚ) * 2 ^ (exponent - 2) = (mantissa - reach mantissa exponent) *
      2 ^ exponent := by
    rw [two_zpow_quarter, interval, reach]
    by_cases narrow : mantissa = 2 ^ 52 ∧ -1074 < exponent
    · have flag : (mantissa == Nat.pow 2 52 && decide (exponent > -1074)) = true := by simpa using narrow
      simp only [flag, if_true, if_pos narrow]
      rw [Nat.cast_sub (by omega)]
      push_cast
      ring
    · have flag : (mantissa == Nat.pow 2 52 && decide (exponent > -1074)) = false := by simpa using narrow
      simp only [flag, Bool.false_eq_true, if_false, if_neg narrow]
      rw [Nat.cast_sub (by omega)]
      push_cast
      ring
  have closed : (interval mantissa exponent).closed = decide (mantissa % 2 = 0) := rfl
  have scale : (interval mantissa exponent).scale = exponent - 2 := rfl
  rw [Interval.Holds, closed, scale, upper, lower]
  simp only [decide_eq_true_eq]

/-- What is in the interval is no more than half a last place away, if half a place away only from an even mantissa. -/
theorem half_of_holds (some : 0 < mantissa) {value : ℚ} (holds : (interval mantissa exponent).Holds value) :
    (mantissa - reach mantissa exponent) * 2 ^ exponent ≤ value ∧ value ≤ (mantissa + 1 / 2) * 2 ^ exponent ∧
      (mantissa % 2 = 0 ∨ (mantissa - reach mantissa exponent) * 2 ^ exponent < value ∧ value < (mantissa + 1 / 2) *
        2 ^ exponent) := by
  rw [holds_iff some] at holds
  split at holds
  · rename_i even
    exact ⟨holds.1, holds.2, .inl even⟩
  · exact ⟨holds.1.le, holds.2.le, .inr holds⟩

theorem holds_of_lt (some : 0 < mantissa) {value : ℚ}
    (low : (mantissa - reach mantissa exponent) * 2 ^ exponent < value)
    (high : value < (mantissa + 1 / 2) * 2 ^ exponent) :
    (interval mantissa exponent).Holds value := by
  rw [holds_iff some]
  split
  · exact ⟨low.le, high.le⟩
  · exact ⟨low, high⟩

theorem holds_magnitude (some : 0 < mantissa) (exponent : Int) :
    (interval mantissa exponent).Holds (magnitude mantissa exponent) := by
  have unit := two_zpow_pos exponent
  have away := reach_pos mantissa exponent
  exact holds_of_lt some (mul_lt_mul_of_pos_right (by linarith) unit) (mul_lt_mul_of_pos_right (by linarith) unit)

theorem Interval.Holds.pos {value : ℚ} (some : 0 < mantissa)
    (holds : (interval mantissa exponent).Holds value) : 0 < value := by
  have least : (1 : ℚ) ≤ mantissa := by exact_mod_cast some
  have near := reach_le mantissa exponent
  exact lt_of_lt_of_le (mul_pos (by linarith) (two_zpow_pos exponent)) (half_of_holds some holds).1

theorem Interval.Holds.between {span : Interval} {low value high : ℚ} (first : span.Holds low) (last : span.Holds high)
    (above : low ≤ value) (below : value ≤ high) : span.Holds value := by
  rw [Interval.Holds] at first last ⊢
  split
  · rename_i closed
    rw [if_pos closed] at first last
    exact ⟨first.1.trans above, below.trans last.2⟩
  · rename_i opened
    rw [if_neg opened] at first last
    exact ⟨first.1.trans_le above, below.trans_lt last.2⟩

private theorem roundHalfEven_eq {whole : Nat} (positive : 0 < denominator)
    (low : 2 * (whole * denominator) ≤ 2 * numerator + denominator)
    (high : 2 * numerator ≤ 2 * (whole * denominator) + denominator)
    (tie : 2 * (whole * denominator) = 2 * numerator + denominator ∨
      2 * numerator = 2 * (whole * denominator) + denominator →
      whole % 2 = 0) : roundHalfEven numerator denominator = whole := by
  have parts := Nat.div_add_mod numerator denominator
  have small := Nat.mod_lt numerator positive
  rw [roundHalfEven]
  generalize numerator / denominator = quotient at parts
  generalize numerator % denominator = rest at parts small
  rw [Nat.mul_comm] at parts
  -- all other whole numbers are more than half a unit away
  obtain same | next : whole = quotient ∨ whole = quotient + 1 := by
    have above : quotient ≤ whole := by
      by_contra less
      have step : (whole + 1) * denominator ≤ quotient * denominator := Nat.mul_le_mul_right _ (by omega)
      rw [Nat.add_mul] at step
      omega
    have below : whole ≤ quotient + 1 := by
      by_contra more
      have step : (quotient + 2) * denominator ≤ whole * denominator := Nat.mul_le_mul_right _ (by omega)
      rw [Nat.add_mul] at step
      omega
    omega
  · subst same
    rcases Nat.lt_trichotomy (2 * rest) denominator with less | half | more
    · simp [less]
    · have even := tie (.inr (by omega))
      simp [half, even]
    · omega
  · subst next
    rw [Nat.add_mul] at low high tie
    rcases Nat.lt_trichotomy (2 * rest) denominator with less | half | more
    · omega
    · have even := tie (.inl (by omega))
      have odd : quotient % 2 = 1 := by omega
      simp [half, odd]
    · simp [more, Nat.lt_asymm more]

private theorem isRatio_scaled (numerator : Nat) (positive : 0 < denominator) (exponent : Int) :
    IsRatio (scaled numerator denominator exponent) ((numerator : ℚ) / denominator / 2 ^ exponent) := by
  cases exponent with
  | ofNat up =>
    refine ⟨Nat.mul_pos positive (Nat.pow_pos (by decide)), ?_⟩
    simp only [scaled, Nat.cast_mul, Nat.pow_eq, Nat.cast_pow, Nat.cast_ofNat, Int.ofNat_eq_natCast, zpow_natCast]
    rw [div_div]
  | negSucc down =>
    refine ⟨positive, ?_⟩
    simp only [scaled, Nat.cast_mul, Nat.pow_eq, Nat.cast_pow, Nat.cast_ofNat, zpow_negSucc]
    rw [div_inv_eq_mul, div_mul_eq_mul_div]

/-- The exponent that gives a positive quotient 53 bits before the point. -/
def fittingExponent (numerator denominator : Nat) : Int :=
  let guess : Int := (numerator.log2 : Int) - denominator.log2 - 52
  let atGuess := scaled numerator denominator guess
  if atGuess.1 / atGuess.2 < Nat.pow 2 52 then guess - 1 else guess

private theorem quotient_bits (positive : 0 < numerator) (divides : 0 < denominator) :
    (2 : ℚ) ^ ((numerator.log2 : Int) - denominator.log2 - 1) < (numerator : ℚ) / denominator ∧
      (numerator : ℚ) / denominator < 2 ^ ((numerator.log2 : Int) - denominator.log2 + 1) := by
  have bits : ∀ {n : Nat}, 0 < n → (2 : ℚ) ^ (n.log2 : Int) ≤ n ∧ (n : ℚ) < 2 ^ ((n.log2 : Int) + 1) := by
    intro n some
    refine ⟨?_, ?_⟩
    · rw [zpow_natCast]
      exact_mod_cast Nat.log2_self_le (by omega)
    · have above := Nat.lt_log2_self (n := n)
      rw [← Int.natCast_one, ← Int.natCast_add, zpow_natCast]
      exact_mod_cast above
  obtain ⟨low, high⟩ := bits positive
  obtain ⟨under, beyond⟩ := bits divides
  have some : (0 : ℚ) < denominator := by exact_mod_cast divides
  rw [lt_div_iff₀ some, div_lt_iff₀ some]
  constructor
  · calc (2 : ℚ) ^ ((numerator.log2 : Int) - denominator.log2 - 1) * denominator
        < 2 ^ ((numerator.log2 : Int) - denominator.log2 - 1) * 2 ^ ((denominator.log2 : Int) + 1) :=
          mul_lt_mul_of_pos_left beyond (two_zpow_pos _)
      _ = 2 ^ (numerator.log2 : Int) := by
          rw [← zpow_add₀ (by norm_num)]
          congr 1
          omega
      _ ≤ numerator := low
  · calc (numerator : ℚ) < 2 ^ ((numerator.log2 : Int) + 1) := high
      _ = 2 ^ ((numerator.log2 : Int) - denominator.log2 + 1) * 2 ^ (denominator.log2 : Int) := by
          rw [← zpow_add₀ (by norm_num)]
          congr 1
          omega
      _ ≤ 2 ^ ((numerator.log2 : Int) - denominator.log2 + 1) * denominator :=
        mul_le_mul_of_nonneg_left under (two_zpow_pos _).le

private theorem fittingExponent_spec (positive : 0 < numerator) (divides : 0 < denominator) :
    (2 : ℚ) ^ (fittingExponent numerator denominator + 52) ≤ (numerator : ℚ) / denominator ∧
      (numerator : ℚ) / denominator < 2 ^ (fittingExponent numerator denominator + 53) := by
  obtain ⟨low, high⟩ := quotient_bits positive divides
  rw [fittingExponent]
  generalize place : (numerator.log2 : Int) - denominator.log2 = bits at low high
  obtain ⟨some, same⟩ := isRatio_scaled numerator divides (bits - 52)
  have whole : (scaled numerator denominator (bits - 52)).1 / (scaled numerator denominator (bits - 52)).2 <
      Nat.pow 2 52 ↔
      (numerator : ℚ) / denominator < 2 ^ bits := by
    have split : (2 : ℚ) ^ bits = 2 ^ 52 * 2 ^ (bits - 52) := by
      rw [mul_comm, ← two_zpow_add]
      congr 1
      omega
    rw [Nat.div_lt_iff_lt_mul some, split, ← div_lt_iff₀ (two_zpow_pos _), ← same, div_lt_iff₀ (by exact_mod_cast some)]
    exact_mod_cast Iff.rfl
  split
  · rename_i less
    have below := whole.mp less
    refine ⟨le_of_lt ?_, ?_⟩
    · rwa [show bits - 52 - 1 + 52 = bits - 1 by omega]
    · rwa [show bits - 52 - 1 + 53 = bits by omega]
  · rename_i more
    have above := not_lt.mp (mt whole.mpr more)
    refine ⟨?_, ?_⟩
    · rwa [show bits - 52 + 52 = bits by omega]
    · rwa [show bits - 52 + 53 = bits + 1 by omega]

private theorem ofPositiveQuotient_eq (negative : Bool) (numerator denominator : Nat) :
    ofPositiveQuotient negative numerator denominator =
    let exponent := max (fittingExponent numerator denominator) (-1074)
    let parts := scaled numerator denominator exponent
    let mantissa := roundHalfEven parts.1 parts.2
    if (if mantissa == Nat.pow 2 53 then exponent + 1 else exponent) > 971 then .infinite negative
    else .finite negative (if mantissa == Nat.pow 2 53 then Nat.pow 2 52 else mantissa)
      (if mantissa == Nat.pow 2 53 then exponent + 1 else exponent) := rfl

private theorem roundHalfEven_scaled (divides : 0 < denominator)
    (low : (mantissa - 1 / 2 : ℚ) * 2 ^ exponent ≤ (numerator : ℚ) / denominator)
    (high : (numerator : ℚ) / denominator ≤ (mantissa + 1 / 2) * 2 ^ exponent)
    (tie : mantissa % 2 = 0 ∨ (mantissa - 1 / 2 : ℚ) * 2 ^ exponent < (numerator : ℚ) / denominator ∧
      (numerator : ℚ) / denominator < (mantissa + 1 / 2) * 2 ^ exponent) :
    roundHalfEven (scaled numerator denominator exponent).1 (scaled numerator denominator exponent).2 = mantissa := by
  obtain ⟨some, same⟩ := isRatio_scaled numerator divides exponent
  have unit := two_zpow_pos exponent
  have value : (numerator : ℚ) / denominator =
      ((scaled numerator denominator exponent).1 : ℚ) / (scaled numerator denominator exponent).2 * 2 ^ exponent := by
    rw [same, div_mul_cancel₀ _ unit.ne']
  rw [value] at low high tie
  generalize (scaled numerator denominator exponent).1 = above at low high tie
  generalize (scaled numerator denominator exponent).2 = below at some low high tie
  have positive : (0 : ℚ) < below := by exact_mod_cast some
  rw [mul_le_mul_iff_left₀ unit, le_div_iff₀ positive] at low
  rw [mul_le_mul_iff_left₀ unit, div_le_iff₀ positive] at high
  rw [mul_lt_mul_iff_left₀ unit, lt_div_iff₀ positive, mul_lt_mul_iff_left₀ unit, div_lt_iff₀ positive] at tie
  apply roundHalfEven_eq some
  · have cast : (2 * (mantissa * below) : ℚ) ≤ 2 * above + below := by linarith
    exact_mod_cast cast
  · have cast : (2 * above : ℚ) ≤ 2 * (mantissa * below) + below := by linarith
    exact_mod_cast cast
  · intro half
    rcases tie with even | ⟨strict, under⟩
    · exact even
    · rcases half with same | same
      · have cast : (2 * (mantissa * below) : ℚ) = 2 * above + below := by exact_mod_cast same
        linarith
      · have cast : (2 * above : ℚ) = 2 * (mantissa * below) + below := by exact_mod_cast same
        linarith

private theorem ofPositiveQuotient_in_place (negative : Bool) (canonical : Canonical mantissa exponent)
    (place : max (fittingExponent numerator denominator) (-1074) = exponent)
    (rounded : roundHalfEven (scaled numerator denominator exponent).1 (scaled numerator denominator exponent).2 =
      mantissa) :
    ofPositiveQuotient negative numerator denominator = .finite negative mantissa exponent := by
  have kept : (mantissa == Nat.pow 2 53) = false := beq_eq_false_iff_ne.mpr canonical.small.ne
  have finite : ¬ exponent > 971 := not_lt.mpr canonical.highest
  rw [ofPositiveQuotient_eq, place]
  simp only [rounded, kept, Bool.false_eq_true, if_false, if_neg finite]

private theorem ofPositiveQuotient_carried (negative : Bool) (finite : exponent ≤ 971)
    (place : max (fittingExponent numerator denominator) (-1074) = exponent - 1)
    (rounded : roundHalfEven (scaled numerator denominator (exponent - 1)).1
      (scaled numerator denominator (exponent - 1)).2 = 2 ^ 53) :
    ofPositiveQuotient negative numerator denominator = .finite negative (2 ^ 52) exponent := by
  have carried : ((2 : Nat) ^ 53 == Nat.pow 2 53) = true := by decide
  have next : exponent - 1 + 1 = exponent := by omega
  rw [ofPositiveQuotient_eq, place]
  simp only [rounded, carried, if_true, next, if_neg (not_lt.mpr finite)]
  rfl

private theorem fittingExponent_le {place : Int} (positive : 0 < numerator) (divides : 0 < denominator)
    (beyond : (numerator : ℚ) / denominator < 2 ^ 53 * 2 ^ place) : fittingExponent numerator denominator ≤ place := by
  have under := (fittingExponent_spec positive divides).1
  rw [mul_comm, ← two_zpow_add] at beyond
  have less := (zpow_lt_zpow_iff_right₀ one_lt_two).mp (under.trans_lt beyond)
  omega

private theorem le_fittingExponent {place : Int} (positive : 0 < numerator) (divides : 0 < denominator)
    (under : (2 ^ 52 : ℚ) * 2 ^ place ≤ (numerator : ℚ) / denominator) :
    place ≤ fittingExponent numerator denominator := by
  have beyond := (fittingExponent_spec positive divides).2
  rw [mul_comm, ← two_zpow_add] at under
  have less := (zpow_lt_zpow_iff_right₀ one_lt_two).mp (under.trans_lt beyond)
  omega

/-- A quotient a little below a power of two, which has one bit less, is rounded up to the power. -/
private theorem ofPositiveQuotient_below_power (negative : Bool) (lowest : -1074 < exponent)
    (highest : exponent ≤ 971) (positive : 0 < numerator)
    (divides : 0 < denominator) (low : (2 ^ 52 - 1 / 4 : ℚ) * 2 ^ exponent ≤ (numerator : ℚ) / denominator)
    (less : (numerator : ℚ) / denominator < 2 ^ 52 * 2 ^ exponent) :
    ofPositiveQuotient negative numerator denominator = .finite negative (2 ^ 52) exponent := by
  have unit := two_zpow_pos (exponent - 1)
  have half : (2 : ℚ) ^ exponent = 2 * 2 ^ (exponent - 1) := by
    rw [zpow_sub₀ (by norm_num), zpow_one]
    ring
  rw [half] at low less
  have place : fittingExponent numerator denominator = exponent - 1 := by
    apply le_antisymm
    · apply fittingExponent_le positive divides
      linarith
    · apply le_fittingExponent positive divides
      linarith
  apply ofPositiveQuotient_carried negative highest
  · rw [place]
    omega
  · apply roundHalfEven_scaled divides
    · push_cast
      linarith
    · push_cast
      linarith
    · exact .inl (by decide)

/-- All that lies in the interval around a number rounds to the number. -/
theorem ofPositiveQuotient_of_holds (negative : Bool) (canonical : Canonical mantissa exponent) (some : 0 < mantissa)
    (divides : 0 < denominator) (holds : (interval mantissa exponent).Holds ((numerator : ℚ) / denominator)) :
    ofPositiveQuotient negative numerator denominator = .finite negative mantissa exponent := by
  obtain ⟨low, high, tie⟩ := half_of_holds some holds
  have unit := two_zpow_pos exponent
  have near := reach_le mantissa exponent
  have positive : 0 < numerator := by
    have above := holds.pos some
    by_contra none
    rw [show numerator = 0 by omega] at above
    simp at above
  by_cases below : -1074 < exponent ∧ (numerator : ℚ) / denominator < 2 ^ 52 * 2 ^ exponent
  · -- a quotient with one bit less is in the interval only if the number is a power of two
    obtain ⟨lowest, less⟩ := below
    have full : 2 ^ 52 ≤ mantissa := canonical.full.resolve_left (by omega)
    obtain rfl : mantissa = 2 ^ 52 := by
      by_contra other
      have more : (2 ^ 52 + 1 : ℚ) ≤ mantissa := by exact_mod_cast (by omega : 2 ^ 52 + 1 ≤ mantissa)
      have bound := lt_of_mul_lt_mul_right (low.trans_lt less) unit.le
      linarith
    rw [reach, if_pos ⟨rfl, lowest⟩] at low
    exact ofPositiveQuotient_below_power negative lowest canonical.highest positive divides (by exact_mod_cast low) less
  · have most : (mantissa : ℚ) + 1 ≤ 2 ^ 53 := by exact_mod_cast canonical.small
    have above : fittingExponent numerator denominator ≤ exponent := by
      apply fittingExponent_le positive divides
      exact lt_of_le_of_lt high (mul_lt_mul_of_pos_right (by linarith) unit)
    have place : max (fittingExponent numerator denominator) (-1074) = exponent := by
      have lowest := canonical.lowest
      by_cases bottom : exponent = -1074
      · omega
      · have reached : exponent ≤ fittingExponent numerator denominator := by
          apply le_fittingExponent positive divides
          exact not_lt.mp fun less => below ⟨by omega, less⟩
        omega
    have wider : (mantissa - 1 / 2 : ℚ) * 2 ^ exponent ≤ (mantissa - reach mantissa exponent) * 2 ^ exponent :=
      mul_le_mul_of_nonneg_right (by linarith) unit.le
    apply ofPositiveQuotient_in_place negative canonical place
    apply roundHalfEven_scaled divides (wider.trans low) high
    exact tie.imp_right fun strict => ⟨lt_of_le_of_lt wider strict.1, strict.2⟩

end TableModels.Binary64
