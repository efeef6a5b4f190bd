import ExchangeMatching.Library.Decimal
import Mathlib.Data.Rat.Floor
import Mathlib.Tactic.Linarith

/-! The rational number that a decimal stands for. Rounding down and cutting
both truncate that number at some place, products and aligned sums are exact,
and a truncation at a coarser place does not see an earlier one. -/
namespace DecimalArithmetic

/-- The number without its fraction, toward zero. -/
def integerPart (number : ℚ) : ℤ := if 0 ≤ number then ⌊number⌋ else ⌈number⌉

/-- The number without what is below the place `10 ^ place`, toward zero. -/
def truncateAt (place : ℤ) (number : ℚ) : ℚ := integerPart (number / 10 ^ place) * 10 ^ place

theorem integerPart_of_nonneg {number : ℚ} (h : 0 ≤ number) : integerPart number = ⌊number⌋ :=
  if_pos h

theorem integerPart_intCast (n : ℤ) : integerPart n = n := by
  rw [integerPart, Int.floor_intCast, Int.ceil_intCast, ite_self]

theorem integerPart_neg (number : ℚ) : integerPart (-number) = -integerPart number := by
  unfold integerPart
  rcases lt_trichotomy number 0 with hNeg | rfl | hPos
  · rw [if_pos (by linarith), if_neg (not_le.mpr hNeg), Int.floor_neg]
  · simp
  · rw [if_neg (by linarith), if_pos hPos.le, Int.ceil_neg]

/-- Dividing a whole number and forgetting the fraction is integer division. -/
theorem integerPart_intCast_div (n : ℤ) (d : ℕ) : integerPart (n / d : ℚ) = n.tdiv d := by
  have hNonneg : ∀ m : ℤ, 0 ≤ m → integerPart (m / d : ℚ) = m.tdiv d := by
    intro m hm
    have hm' : (0 : ℚ) ≤ m := by exact_mod_cast hm
    rw [integerPart_of_nonneg (by positivity), Rat.floor_intCast_div_natCast,
      Int.tdiv_eq_ediv_of_nonneg hm]
  rcases le_total 0 n with hn | hn
  · exact hNonneg n hn
  · have hOpposite := hNonneg (-n) (by omega)
    rwa [Int.cast_neg, neg_div, integerPart_neg, Int.neg_tdiv, neg_inj] at hOpposite

/-- The fraction that was forgotten does not matter to a later division. -/
theorem integerPart_integerPart_div (number : ℚ) (d : ℕ) :
    integerPart (integerPart number / d : ℚ) = integerPart (number / d) := by
  have hNonneg : ∀ m : ℚ, 0 ≤ m →
      integerPart (integerPart m / d : ℚ) = integerPart (m / d) := by
    intro m hm
    have hFloor : (0 : ℚ) ≤ ⌊m⌋ := by exact_mod_cast Int.floor_nonneg.mpr hm
    rw [integerPart_of_nonneg hm, integerPart_of_nonneg (by positivity),
      integerPart_of_nonneg (by positivity),
      Int.floor_div_natCast, Int.floor_div_natCast, Int.floor_intCast]
  rcases le_total 0 number with h | h
  · exact hNonneg number h
  · have hOpposite := hNonneg (-number) (by linarith)
    rwa [integerPart_neg, Int.cast_neg, neg_div, integerPart_neg, neg_div, integerPart_neg, neg_inj]
      at hOpposite

section Places

variable {place coarse fine : ℤ} {number : ℚ}

theorem ten_zpow_pos (place : ℤ) : (0 : ℚ) < 10 ^ place := zpow_pos (by norm_num) place

/-- Multiples of the place have nothing below it. -/
theorem truncateAt_mul_zpow (place n : ℤ) : truncateAt place (n * 10 ^ place) = n * 10 ^ place := by
  rw [truncateAt, mul_div_cancel_right₀ _ (ten_zpow_pos place).ne', integerPart_intCast]

theorem truncateAt_truncateAt (h : fine ≤ coarse) :
    truncateAt coarse (truncateAt fine number) = truncateAt coarse number := by
  obtain ⟨gap, hGap⟩ := Int.eq_ofNat_of_zero_le (sub_nonneg.mpr h)
  have hCoarse : (10 : ℚ) ^ coarse = 10 ^ fine * (10 ^ gap : ℕ) := by
    rw [show coarse = fine + gap by omega, zpow_add₀ (by norm_num), zpow_natCast]
    push_cast
    rfl
  have hFine := (ten_zpow_pos fine).ne'
  have hInner : (integerPart (number / 10 ^ fine) * 10 ^ fine : ℚ) / 10 ^ coarse =
      integerPart (number / 10 ^ fine) / (10 ^ gap : ℕ) := by
    rw [hCoarse, mul_comm (10 ^ fine : ℚ), mul_div_mul_right _ _ hFine]
  have hOuter : number / 10 ^ coarse = number / 10 ^ fine / (10 ^ gap : ℕ) := by
    rw [hCoarse, div_div]
  rw [truncateAt, truncateAt, hInner, integerPart_integerPart_div, ← hOuter, truncateAt]

/-- A multiple of the place that is not exceeded is not exceeded afterwards. -/
theorem le_abs_truncateAt {n : ℕ} (h : n * 10 ^ place ≤ |number|) :
    n * 10 ^ place ≤ |truncateAt place number| := by
  have hNonneg : ∀ m : ℚ, 0 ≤ m → n * 10 ^ place ≤ m →
      n * 10 ^ place ≤ truncateAt place m := by
    intro m hm hLe
    have hQuotient : (n : ℚ) ≤ m / 10 ^ place := (le_div_iff₀ (ten_zpow_pos place)).mpr hLe
    have hPart : (n : ℤ) ≤ integerPart (m / 10 ^ place) := by
      rw [integerPart_of_nonneg (div_nonneg hm (ten_zpow_pos place).le)]
      exact Int.le_floor.mpr (by exact_mod_cast hQuotient)
    exact mul_le_mul_of_nonneg_right (by exact_mod_cast hPart) (ten_zpow_pos place).le
  rcases le_total 0 number with hSign | hSign
  · rw [abs_of_nonneg hSign] at h
    exact (hNonneg number hSign h).trans (le_abs_self _)
  · rw [abs_of_nonpos hSign] at h
    have hOpposite := hNonneg (-number) (by linarith) h
    rw [truncateAt, neg_div, integerPart_neg, Int.cast_neg, neg_mul] at hOpposite
    exact hOpposite.trans (neg_le_abs _)

end Places

namespace Decimal

/-- The number that the decimal stands for. -/
def toRat (value : Decimal) : ℚ := value.mantissa * 10 ^ value.exponent

theorem toRat_mul (left right : Decimal) :
    toRat ⟨left.mantissa * right.mantissa, left.exponent + right.exponent⟩ =
      left.toRat * right.toRat := by
  simp only [toRat, zpow_add₀ (show (10 : ℚ) ≠ 0 by norm_num)]
  push_cast
  ring

/-- A number keeps its value when it is written with a smaller exponent. -/
theorem toRat_lower (mantissa : ℤ) {exponent least : ℤ} (h : least ≤ exponent) :
    toRat ⟨mantissa * 10 ^ (exponent - least).toNat, least⟩ = toRat ⟨mantissa, exponent⟩ := by
  have hPower : (10 : ℚ) ^ exponent = 10 ^ (exponent - least).toNat * 10 ^ least := by
    rw [← zpow_natCast, Int.toNat_of_nonneg (by omega), ← zpow_add₀ (by norm_num), sub_add_cancel]
  simp only [toRat, hPower]
  push_cast
  ring

theorem toRat_align (left right : Decimal) :
    toRat ⟨(align left right).1, min left.exponent right.exponent⟩ = left.toRat ∧
      toRat ⟨(align left right).2, min left.exponent right.exponent⟩ = right.toRat :=
  ⟨toRat_lower left.mantissa (min_le_left _ _), toRat_lower right.mantissa (min_le_right _ _)⟩

theorem toRat_add (left right : Decimal) :
    toRat ⟨(align left right).1 + (align left right).2, min left.exponent right.exponent⟩ =
      left.toRat + right.toRat := by
  obtain ⟨hLeft, hRight⟩ := toRat_align left right
  rw [← hLeft, ← hRight]
  simp only [toRat]
  push_cast
  ring

theorem toRat_sub (left right : Decimal) :
    toRat ⟨(align left right).1 - (align left right).2, min left.exponent right.exponent⟩ =
      left.toRat - right.toRat := by
  obtain ⟨hLeft, hRight⟩ := toRat_align left right
  rw [← hLeft, ← hRight]
  simp only [toRat]
  push_cast
  ring

/-- Dropping the last digits of the mantissa truncates the number. -/
theorem toRat_drop (value : Decimal) (dropped : ℕ) :
    toRat ⟨value.mantissa.tdiv (10 ^ dropped), value.exponent + dropped⟩ =
      truncateAt (value.exponent + dropped) value.toRat := by
  have hQuotient : value.toRat / 10 ^ (value.exponent + dropped) = value.mantissa /
      (10 ^ dropped : ℕ) := by
    rw [toRat, zpow_add₀ (by norm_num), zpow_natCast, mul_comm ((10 : ℚ) ^ value.exponent),
      mul_div_mul_right _ _ (ten_zpow_pos _).ne']
    push_cast
    rfl
  rw [truncateAt, hQuotient, integerPart_intCast_div, toRat]
  push_cast
  rfl

theorem toRat_toDecimalPlaces (places : ℕ) (value : Decimal) :
    (toDecimalPlaces places value).toRat = truncateAt (-places) value.toRat := by
  unfold toDecimalPlaces
  split_ifs with h
  · have hWhole := toRat_lower value.mantissa h
    rw [← hWhole]
    exact (truncateAt_mul_zpow (-places) _).symm
  · have hDrop := toRat_drop value (-places - value.exponent).toNat
    rwa [show value.exponent + ((-places - value.exponent).toNat : ℤ) = -places by omega] at hDrop

/-- A number of few decimal places is a multiple of the last of them. -/
theorem toRat_of_decimalPlaces_le {places : ℕ} {value : Decimal}
    (h : value.decimalPlaces ≤ places) :
    value.toRat = units places (toDecimalPlaces places value) * 10 ^ (-places : ℤ) := by
  by_cases hLow : -(places : ℤ) ≤ value.exponent
  · have hWhole := toRat_lower value.mantissa hLow
    rw [toDecimalPlaces, if_pos hLow, units, ← hWhole, toRat, sub_neg_eq_add]
  · have hWhole := toRat_lower (units places (toDecimalPlaces places value))
      (show value.exponent ≤ -(places : ℤ) by omega)
    rw [← mantissa_eq_of_decimalPlaces_le h hLow] at hWhole
    exact hWhole

theorem toRat_roundDown (precision : ℕ) (value : Decimal) :
    (roundDown precision value).toRat =
      truncateAt (value.exponent + (digitCount value.mantissa.natAbs - precision : ℕ))
        value.toRat :=
  toRat_drop value _

/-- A number that loses digits to rounding has as many digits as the precision
at the place of the rounding. -/
theorem le_abs_toRat {precision : ℕ} {value : Decimal} (hPrecision : 0 < precision)
    (h : precision < digitCount value.mantissa.natAbs) :
    ((10 ^ (precision - 1) : ℕ) : ℚ) *
      10 ^ (value.exponent + (digitCount value.mantissa.natAbs - precision : ℕ)) ≤
        |value.toRat| := by
  have hNonzero : value.mantissa.natAbs ≠ 0 := by
    intro hZero
    rw [hZero] at h
    exact absurd h (Nat.not_lt_zero _)
  have hCount : digitCount value.mantissa.natAbs = Nat.log 10 value.mantissa.natAbs + 1 :=
    if_neg hNonzero
  have hLeading : 10 ^ Nat.log 10 value.mantissa.natAbs ≤ value.mantissa.natAbs :=
    Nat.pow_log_le_self 10 hNonzero
  generalize hDropped : digitCount value.mantissa.natAbs - precision = dropped
  have hLog : Nat.log 10 value.mantissa.natAbs = precision - 1 + dropped := by omega
  rw [hLog, pow_add] at hLeading
  have hMantissa : ((10 ^ (precision - 1) : ℕ) : ℚ) * 10 ^ dropped ≤
      |(value.mantissa : ℚ)| := by
    rw [← Int.cast_abs, Int.abs_eq_natAbs]
    exact_mod_cast hLeading
  have hPlace := ten_zpow_pos value.exponent
  rw [toRat, abs_mul, abs_of_pos hPlace, zpow_add₀ (by norm_num), zpow_natCast,
    mul_comm ((10 : ℚ) ^ value.exponent), ← mul_assoc]
  exact mul_le_mul_of_nonneg_right hMantissa hPlace.le

/-- Rounding to the precision first does not change a truncation, unless the
number has so many digits above the place that it is too large either way. -/
theorem truncateAt_roundDown {precision : ℕ} (hPrecision : 0 < precision) (place : ℤ)
    (value : Decimal) :
    truncateAt place (roundDown precision value).toRat = truncateAt place value.toRat ∨
      (10 ^ (precision - 1) : ℕ) * (10 : ℚ) ^ place ≤ |truncateAt place
        (roundDown precision value).toRat| ∧
      (10 ^ (precision - 1) : ℕ) * (10 : ℚ) ^ place ≤ |truncateAt place value.toRat| := by
  have hRounded := toRat_roundDown precision value
  by_cases hLoses : precision < digitCount value.mantissa.natAbs
  · have hLarge := le_abs_toRat hPrecision hLoses
    generalize value.exponent + (digitCount value.mantissa.natAbs - precision : ℕ) =
      last at hRounded hLarge
    rw [hRounded]
    rcases le_total last place with hFine | hCoarse
    · exact Or.inl (truncateAt_truncateAt hFine)
    · have hPlaces : ((10 ^ (precision - 1) : ℕ) : ℚ) * 10 ^ place ≤
        (10 ^ (precision - 1) : ℕ) * 10 ^ last :=
        mul_le_mul_of_nonneg_left (zpow_le_zpow_right₀ (by norm_num) hCoarse) (by positivity)
      exact Or.inr ⟨le_abs_truncateAt (hPlaces.trans (le_abs_truncateAt hLarge)),
        le_abs_truncateAt (hPlaces.trans hLarge)⟩
  · have hKept : roundDown precision value = value := by
      simp [roundDown, Nat.sub_eq_zero_of_le (not_lt.mp hLoses)]
    rw [hKept]
    exact Or.inl rfl

end Decimal
end DecimalArithmetic
