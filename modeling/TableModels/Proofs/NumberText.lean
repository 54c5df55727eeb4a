import Mathlib.Data.List.TakeWhile
import TableModels.Number.FloatText
import TableModels.Number.Whole
import TableModels.Proofs.ShortestDigits

/-! The text of numbers. A whole number is read back from it, and so is a number that is written without an exponent.
One that is written with an exponent is no decimal to the reader. -/

namespace TableModels.Number

open Text

theorem isAsciiDigit_of_isDigit {c : Char} (digit : c.isDigit = true) : isAsciiDigit c = true := by
  simp only [Char.isDigit, Bool.and_eq_true, decide_eq_true_eq, ge_iff_le, UInt32.le_iff_toNat_le] at digit
  simp only [isAsciiDigit, Bool.and_eq_true, decide_eq_true_eq, Char.le_def, UInt32.le_iff_toNat_le]
  exact digit

private theorem digitValue?_of_isDigit {c : Char} (digit : c.isDigit = true) :
    digitValue? c = some (c.toNat - '0'.toNat) := by
  have ascii := isAsciiDigit_of_isDigit digit
  have small : c.toNat < 0x80 := by
    simp only [Char.isDigit, Bool.and_eq_true, decide_eq_true_eq, ge_iff_le, UInt32.le_iff_toNat_le] at digit
    have nine : '9'.val.toNat = 57 := rfl
    rw [Char.toNat]
    omega
  rw [digitValue?, if_pos small, if_pos ascii]

private theorem isDigit_of_isDigit {c : Char} (digit : c.isDigit = true) : Text.isDigit c = true := by
  rw [Text.isDigit, digitValue?_of_isDigit digit]
  rfl

private theorem ofDigits_eq {chars : List Char} (digits : ∀ c ∈ chars, c.isDigit = true) :
    ofDigits chars = Nat.ofDigitChars 10 chars 0 := by
  -- the digits read so far are what the rest starts from
  have onward : ∀ start, chars.foldl (fun n c => n * 10 + (digitValue? c).getD 0) start =
      Nat.ofDigitChars 10 chars start := by
    induction chars with
    | nil => exact fun _ => rfl
    | cons c rest ih =>
      obtain ⟨own, others⟩ := List.forall_mem_cons.mp digits
      intro start
      rw [List.foldl_cons, digitValue?_of_isDigit own, Option.getD_some, ih others, Nat.ofDigitChars_cons, Nat.mul_comm]
  exact onward 0

theorem digits_toDigits (n : Nat) : ∀ c ∈ Nat.toDigits 10 n, c.isDigit = true :=
  fun _ member => Nat.isDigit_of_mem_toDigits (by decide) (by decide) member

def withSign (negative : Bool) (chars : List Char) : List Char := if negative then '-' :: chars else chars

private theorem splitSign_withSign (negative : Bool) {chars : List Char}
    (digits : ∃ c rest, chars = c :: rest ∧ c.isDigit = true) :
    splitSign (withSign negative chars) = (negative, chars) := by
  obtain ⟨c, rest, rfl, digit⟩ := digits
  cases negative with
  | true => rfl
  | false =>
    have apart : c ≠ '-' := by
      rintro rfl
      exact absurd digit (by decide)
    rw [withSign, if_neg Bool.false_ne_true, splitSign.eq_def]
    split
    · rename_i same
      exact absurd (List.cons.inj same).1 apart
    · rfl

theorem toList_toString_int (value : Int) :
    (toString value).toList = withSign (decide (value < 0)) (Nat.toDigits 10 value.natAbs) := by
  cases value with
  | ofNat n =>
    have text : toString (Int.ofNat n) = toString n := rfl
    rw [text, Nat.toString_eq_ofList_toDigits, String.toList_ofList]
    rfl
  | negSucc n =>
    have text : toString (Int.negSucc n) = "-" ++ toString (n + 1) := rfl
    have negative : decide (Int.negSucc n < 0) = true := decide_eq_true (Int.negSucc_lt_zero n)
    rw [text, Nat.toString_eq_ofList_toDigits, String.toList_append,
      String.toList_ofList (l := Nat.toDigits 10 (n + 1)), negative]
    rfl

theorem exists_cons_toDigits (n : Nat) : ∃ c rest, Nat.toDigits 10 n = c :: rest ∧ c.isDigit = true := by
  obtain ⟨c, rest, same⟩ := List.exists_cons_of_ne_nil (Nat.toDigits_ne_nil (n := n) (b := 10))
  exact ⟨c, rest, same, digits_toDigits n c (by simp [same])⟩

/-- A whole number is read back from its text, if the text is not too long. -/
theorem readWhole_toString {value : Int} (short : Binary64.digitCount value.natAbs ≤ digitLimit) :
    isWhole (toString value).toList = true ∧ readWhole (toString value).toList = .ok value := by
  have split := splitSign_withSign (decide (value < 0)) (exists_cons_toDigits value.natAbs)
  rw [toList_toString_int]
  constructor
  · rw [isWhole, split]
    simp only [Bool.and_eq_true, Bool.not_eq_true', List.isEmpty_eq_false_iff, List.all_eq_true]
    exact ⟨Nat.toDigits_ne_nil, fun c member => isDigit_of_isDigit (digits_toDigits _ c member)⟩
  · rw [readWhole, split]
    have fits : ¬ digitLimit < (Nat.toDigits 10 value.natAbs).length := not_lt.mpr short
    dsimp only
    rw [if_neg fits, ofDigits_eq (digits_toDigits _), Nat.ofDigitChars_toDigits (by decide) (by decide), signed]
    by_cases negative : value < 0
    · rw [if_pos (by simpa using negative)]
      congr 1
      omega
    · rw [if_neg (by simpa using negative)]
      congr 1
      omega

private theorem readDecimal_point (negative : Bool) {whole fraction : List Char} (some : whole ≠ [])
    (digits : ∀ c ∈ whole ++ fraction, c.isDigit = true) :
    isDecimal (withSign negative (whole ++ '.' :: fraction)) = true ∧
      readDecimal (withSign negative (whole ++ '.' :: fraction)) =
        .ofDecimal negative (Nat.ofDigitChars 10 (whole ++ fraction) 0) (-(fraction.length : Int)) := by
  obtain ⟨before, after⟩ := List.forall_mem_append.mp digits
  have opens : ∃ c rest, whole ++ '.' :: fraction = c :: rest ∧ c.isDigit = true := by
    obtain ⟨c, rest, rfl⟩ := List.exists_cons_of_ne_nil some
    exact ⟨c, _, rfl, before c List.mem_cons_self⟩
  have split := splitSign_withSign negative opens
  have point : Text.isDigit '.' = false := by decide
  have early : ∀ c ∈ whole, Text.isDigit c = true := fun c member => isDigit_of_isDigit (before c member)
  have late : ∀ c ∈ fraction, Text.isDigit c = true := fun c member => isDigit_of_isDigit (after c member)
  have taken : (whole ++ '.' :: fraction).takeWhile Text.isDigit = whole := by
    rw [List.takeWhile_append_of_pos early, List.takeWhile_cons_of_neg (by simp [point]), List.append_nil]
  have left : (whole ++ '.' :: fraction).dropWhile Text.isDigit = '.' :: fraction := by
    rw [List.dropWhile_append_of_pos early, List.dropWhile_cons_of_neg (by simp [point])]
  have kept : (whole ++ '.' :: fraction).filter Text.isDigit = whole ++ fraction := by
    rw [List.filter_append, List.filter_cons_of_neg (by simp [point]), List.filter_eq_self.mpr early,
      List.filter_eq_self.mpr late]
  constructor
  · rw [isDecimal, split]
    simp only [taken, left, Bool.and_eq_true, Bool.not_eq_true', List.isEmpty_eq_false_iff, List.all_eq_true]
    exact ⟨some, late⟩
  · rw [readDecimal, split]
    simp only [left, kept, List.drop_one, List.tail_cons, ofDigits_eq digits]

private theorem mem_of_isDecimal {chars : List Char} (decimal : isDecimal chars = true) {c : Char}
    (member : c ∈ chars) :
    Text.isDigit c = true ∨ c = '.' ∨ c = '-' := by
  have parts : c = '-' ∨ c ∈ (splitSign chars).2 := by
    rw [splitSign.eq_def]
    split
    · exact List.mem_cons.mp member
    · exact .inr member
  rw [isDecimal] at decimal
  generalize (splitSign chars).2 = unsigned at decimal parts
  rcases parts with minus | inside
  · exact .inr (.inr minus)
  · rw [← List.takeWhile_append_dropWhile (p := Text.isDigit) (l := unsigned), List.mem_append] at inside
    rcases inside with whole | later
    · exact .inl (List.mem_takeWhile_imp whole)
    · obtain ⟨_, ending⟩ := Bool.and_eq_true_iff.mp decimal
      split at ending
      · rename_i none
        simp [none] at later
      · rename_i fraction point
        rw [point, List.mem_cons] at later
        exact later.elim (.inr ∘ .inl) fun member => .inl (List.all_eq_true.mp ending c member)
      · cases ending

end TableModels.Number

namespace TableModels.Binary64

open Number

private theorem ofDigitChars_zeros (count start : Nat) :
    Nat.ofDigitChars 10 (zeros count) start = 10 ^ count * start := Nat.ofDigitChars_replicate_zero

theorem isDigit_zeros {count : Nat} : ∀ c ∈ zeros count, c.isDigit = true := by
  intro c member
  rw [List.eq_of_mem_replicate member]
  rfl

/-- Digits before and after a point that are worth what other digits are, of which the first stands at a place. -/
structure Pointed (digits : List Char) (exponent : Int) (whole fraction : List Char) : Prop where
  begins : whole ≠ []
  each : ∀ c ∈ whole ++ fraction, c.isDigit = true
  value : decimalValue (Nat.ofDigitChars 10 (whole ++ fraction) 0) (-(fraction.length : Int)) =
    decimalValue (Nat.ofDigitChars 10 digits 0) (exponent + 1 - digits.length)

section

variable {digits : List Char} {exponent : Int} (each : ∀ c ∈ digits, c.isDigit = true)

include each

private theorem pointed_before (part : exponent < 0) :
    Pointed digits exponent ['0'] (zeros (-exponent - 1).toNat ++ digits) where
  begins := by simp
  each := by
    simp only [List.forall_mem_append, List.forall_mem_singleton]
    exact ⟨rfl, isDigit_zeros, each⟩
  value := by
    have value : Nat.ofDigitChars 10 (['0'] ++ (zeros (-exponent - 1).toNat ++ digits)) 0 =
        Nat.ofDigitChars 10 digits 0 := by
      rw [Nat.ofDigitChars_append, Nat.ofDigitChars_append, ofDigitChars_zeros]
      rfl
    have length : (zeros (-exponent - 1).toNat).length = (-exponent - 1).toNat := List.length_replicate
    rw [value, List.length_append, length]
    congr 1
    omega

private theorem pointed_after (whole : 0 ≤ exponent) (short : digits.length ≤ exponent.toNat + 1) :
    Pointed digits exponent (digits ++ zeros (exponent.toNat + 1 - digits.length)) ['0'] where
  begins := by
    intro none
    have length := congrArg List.length none
    simp only [List.length_append, zeros, List.length_replicate, List.length_nil] at length
    omega
  each := by
    simp only [List.forall_mem_append, List.forall_mem_singleton]
    exact ⟨⟨each, isDigit_zeros⟩, rfl⟩
  value := by
    have value : Nat.ofDigitChars 10 (digits ++ zeros (exponent.toNat + 1 - digits.length) ++ ['0']) 0 =
        10 ^ (exponent.toNat + 1 - digits.length + 1) * Nat.ofDigitChars 10 digits 0 := by
      rw [Nat.ofDigitChars_append, Nat.ofDigitChars_append, ofDigitChars_zeros, pow_succ', Nat.mul_assoc]
      rfl
    have places : exponent + 1 - digits.length = ((exponent.toNat + 1 - digits.length + 1 : Nat) : Int) + -1 := by omega
    rw [value, decimalValue, decimalValue, places, zpow_add₀ (by norm_num), zpow_natCast]
    push_cast
    simp only [List.length_cons, List.length_nil]
    push_cast
    ring

private theorem pointed_among (whole : 0 ≤ exponent) (long : exponent.toNat + 1 < digits.length) :
    Pointed digits exponent (digits.take (exponent.toNat + 1)) (digits.drop (exponent.toNat + 1)) where
  begins := by
    intro none
    have length := congrArg List.length none
    simp only [List.length_take, List.length_nil] at length
    omega
  each := by rwa [List.take_append_drop]
  value := by
    rw [List.take_append_drop, List.length_drop]
    congr 1
    omega

/-- The point stands where the place of the first digit puts it, before all digits, after them or among them. -/
theorem positional_pointed (exponent : Int) :
    ∃ whole fraction, positional digits exponent = whole ++ '.' :: fraction ∧
      Pointed digits exponent whole fraction := by
  rw [positional]
  by_cases part : exponent < 0
  · exact ⟨_, _, if_pos part, pointed_before each part⟩
  · rw [if_neg part]
    by_cases short : digits.length ≤ exponent.toNat + 1
    · refine ⟨_, ['0'], ?_, pointed_after each (not_lt.mp part) short⟩
      simp [short]
    · exact ⟨_, _, if_neg short, pointed_among each (not_lt.mp part) (not_le.mp short)⟩

end

/-- A number is so small or so large that it is written with an exponent. -/
def Exponential (mantissa : Nat) (exponent : Int) : Prop :=
  mantissa ≠ 0 ∧ (magnitude mantissa exponent < 10 ^ (-4 : Int) ∨ 10 ^ (16 : Int) ≤ magnitude mantissa exponent)

section

variable {mantissa : Nat} {exponent : Int}

private theorem magnitudeText_eq (canonical : Canonical mantissa exponent) (some : 0 < mantissa) :
    (Exponential mantissa exponent → magnitudeText mantissa exponent =
        withExponent (Nat.toDigits 10 (shortest mantissa exponent).digits) (shortest mantissa exponent).exponent) ∧
      (¬ Exponential mantissa exponent → magnitudeText mantissa exponent =
        positional (Nat.toDigits 10 (shortest mantissa exponent).digits) (shortest mantissa exponent).exponent) := by
  have nonzero : (mantissa == 0) = false := beq_eq_false_iff_ne.mpr some.ne'
  have outside : Exponential mantissa exponent ↔
      ((shortest mantissa exponent).exponent < -4 || 16 ≤ (shortest mantissa exponent).exponent) = true := by
    rw [Bool.or_eq_true, decide_eq_true_eq, decide_eq_true_eq, ← not_le, lower_exponent_iff canonical some,
      upper_exponent_iff canonical some, not_le, Exponential]
    exact and_iff_right some.ne'
  rw [magnitudeText, nonzero, outside]
  exact ⟨fun out => if_pos out, fun inner => if_neg inner⟩

/-- A number that is written without an exponent is read back from its text. -/
theorem readDecimal_magnitudeText (negative : Bool) (canonical : Canonical mantissa exponent)
    (plain : ¬ Exponential mantissa exponent) :
    isDecimal (withSign negative (magnitudeText mantissa exponent)) = true ∧
      readDecimal (withSign negative (magnitudeText mantissa exponent)) = .finite negative mantissa exponent := by
  rcases Nat.eq_zero_or_pos mantissa with rfl | some
  · obtain rfl : exponent = -1074 := canonical.full.resolve_right (by decide)
    exact readDecimal_point negative (show ['0'] ≠ [] by simp)
      (show ∀ c ∈ ['0'] ++ ['0'], c.isDigit = true by simp [Char.isDigit])
  · obtain ⟨positive, count, holds⟩ := shortest_holds some canonical.small exponent
    obtain ⟨whole, fraction, text, pointed⟩ :=
      positional_pointed (digits_toDigits (shortest mantissa exponent).digits) (shortest mantissa exponent).exponent
    obtain ⟨decimal, read⟩ := readDecimal_point negative pointed.begins pointed.each
    rw [(magnitudeText_eq canonical some).2 plain, text]
    refine ⟨decimal, read.trans (ofDecimal_of_holds negative canonical some ?_)⟩
    have length : (Nat.toDigits 10 (shortest mantissa exponent).digits).length = (shortest mantissa exponent).count :=
      count.symm
    rw [pointed.value, Nat.ofDigitChars_toDigits (by decide) (by decide), length]
    exact holds

theorem not_isDecimal_magnitudeText (negative : Bool) (canonical : Canonical mantissa exponent)
    (exponential : Exponential mantissa exponent) :
    isDecimal (withSign negative (magnitudeText mantissa exponent)) = false := by
  have mark : 'e' ∈ withSign negative (magnitudeText mantissa exponent) := by
    rw [(magnitudeText_eq canonical (Nat.pos_of_ne_zero exponential.1)).1 exponential, withExponent.eq_def]
    cases negative <;> simp [withSign]
  rw [← Bool.not_eq_true]
  intro decimal
  exact absurd (mem_of_isDecimal decimal mark) (by decide)

end

/-- What stands in the text of a number: digits and four marks. -/
def InNumber (c : Char) : Prop := c.isDigit = true ∨ c ∈ ['.', 'e', '+', '-']

private theorem inNumber_withExponent {digits : List Char} (each : ∀ c ∈ digits, c.isDigit = true) (exponent : Int) :
    ∀ c ∈ withExponent digits exponent, InNumber c := by
  obtain ⟨mantissa, text, written⟩ : ∃ mantissa, withExponent digits exponent = mantissa ++ 'e' ::
      (if exponent < 0 then '-' else '+') ::
      (zeros (2 - (Nat.toDigits 10 exponent.natAbs).length) ++ Nat.toDigits 10 exponent.natAbs) ∧ ∀ c ∈ mantissa,
          InNumber c := by
    cases digits with
    | nil => exact ⟨['0'], rfl, List.forall_mem_singleton.mpr (.inl rfl)⟩
    | cons first rest =>
      obtain ⟨digit, others⟩ := List.forall_mem_cons.mp each
      cases rest with
      | nil => exact ⟨[first], rfl, List.forall_mem_singleton.mpr (.inl digit)⟩
      | cons second rest =>
        refine ⟨first :: '.' :: second :: rest, rfl, ?_⟩
        simp only [List.forall_mem_cons (l := second :: rest), List.forall_mem_cons (a := first)]
        exact ⟨.inl digit, .inr (by simp), fun c member => .inl (others c member)⟩
  have sign : InNumber (if exponent < 0 then '-' else '+') := by
    split <;> exact .inr (by simp)
  rw [text]
  simp only [List.forall_mem_append, List.forall_mem_cons]
  exact ⟨written, .inr (by simp), sign, fun c member => .inl (isDigit_zeros c member),
    fun c member => .inl (digits_toDigits _ c member)⟩

theorem inNumber_magnitudeText (mantissa : Nat) (exponent : Int) :
    ∀ c ∈ magnitudeText mantissa exponent, InNumber c := by
  rw [magnitudeText]
  split
  · simp [InNumber]
  · have each := digits_toDigits (shortest mantissa exponent).digits
    dsimp only
    split
    · exact inNumber_withExponent each _
    · obtain ⟨whole, fraction, text, pointed⟩ := positional_pointed each (shortest mantissa exponent).exponent
      obtain ⟨before, after⟩ := List.forall_mem_append.mp pointed.each
      rw [text]
      simp only [List.forall_mem_append, List.forall_mem_cons]
      exact ⟨fun c member => .inl (before c member), .inr (by simp), fun c member => .inl (after c member)⟩

end TableModels.Binary64
