import Mathlib.Algebra.Order.Ring.Int
import Mathlib.Data.Nat.Log
import Mathlib.Tactic.Ring

/-! Finite decimal numbers with arithmetic that rounds toward zero to a fixed
number of significant digits. A number is a mantissa and a power of ten; the
same number has many representations, and no operation normalizes. -/
namespace DecimalArithmetic

/-- The number `mantissa * 10 ^ exponent`. -/
structure Decimal where
  mantissa : Int
  exponent : Int
deriving DecidableEq, Repr

namespace Decimal

/-- The number `units / 10 ^ places`. -/
def ofUnits (places : Nat) (units : Int) : Decimal := ⟨units, -places⟩

/-- Units of `10 ^ -places`. Exact when no digit lies below the last place. -/
def units (places : Nat) (value : Decimal) : Int :=
  value.mantissa * 10 ^ (value.exponent + places).toNat

def digitCount (magnitude : Nat) : Nat :=
  if magnitude = 0 then 0 else Nat.log 10 magnitude + 1

/-- Drop the digits beyond the first `precision` significant ones. -/
def roundDown (precision : Nat) (value : Decimal) : Decimal :=
  let dropped := digitCount value.mantissa.natAbs - precision
  ⟨value.mantissa.tdiv (10 ^ dropped), value.exponent + dropped⟩

/-- Cut after `places` decimal places, toward zero. This does not round to
any number of significant digits. -/
def toDecimalPlaces (places : Nat) (value : Decimal) : Decimal :=
  if -places ≤ value.exponent then value
  else ⟨value.mantissa.tdiv (10 ^ (-places - value.exponent).toNat), -places⟩

/-- The first `below` digits of a fraction, without its trailing zeros. -/
def fractionDigits : Nat → Int → Nat
  | 0, _ => 0
  | below + 1, mantissa =>
      if mantissa % 10 = 0 then fractionDigits below (mantissa / 10) else below + 1

def decimalPlaces (value : Decimal) : Nat :=
  fractionDigits (-value.exponent).toNat value.mantissa

def abs (value : Decimal) : Decimal := ⟨value.mantissa.natAbs, value.exponent⟩

/-- The mantissas of two numbers over their smaller exponent. -/
def align (left right : Decimal) : Int × Int :=
  let least := min left.exponent right.exponent
  (left.mantissa * 10 ^ (left.exponent - least).toNat,
    right.mantissa * 10 ^ (right.exponent - least).toNat)

def gt (left right : Decimal) : Bool := decide ((align left right).2 < (align left right).1)

def lte (left right : Decimal) : Bool := decide ((align left right).1 ≤ (align left right).2)

def mul (precision : Nat) (left right : Decimal) : Decimal :=
  roundDown precision ⟨left.mantissa * right.mantissa, left.exponent + right.exponent⟩

def add (precision : Nat) (left right : Decimal) : Decimal :=
  let least := min left.exponent right.exponent
  roundDown precision ⟨(align left right).1 + (align left right).2, least⟩

def sub (precision : Nat) (left right : Decimal) : Decimal :=
  let least := min left.exponent right.exponent
  roundDown precision ⟨(align left right).1 - (align left right).2, least⟩

@[simp] theorem units_ofUnits (places : Nat) (n : Int) : units places (ofUnits places n) = n := by
  simp [units, ofUnits]

@[simp] theorem align_ofUnits (places : Nat) (a b : Int) :
    align (ofUnits places a) (ofUnits places b) = (a, b) := by
  simp [align, ofUnits]

theorem gt_eq_not_lte (left right : Decimal) : gt left right = !lte left right := by
  simp only [gt, lte, ← decide_not, not_le]

theorem digitCount_le {magnitude precision : Nat} (h : magnitude < 10 ^ precision) :
    digitCount magnitude ≤ precision := by
  unfold digitCount
  split_ifs with hZero
  · omega
  · have := Nat.log_lt_of_lt_pow hZero h
    omega

theorem lt_digitCount {magnitude precision : Nat} (h : 10 ^ precision ≤ magnitude) :
    precision < digitCount magnitude := by
  have hPos : magnitude ≠ 0 := by
    have := Nat.pow_pos (n := precision) (show 0 < 10 by omega)
    omega
  have hLog := Nat.le_log_of_pow_le (by omega : 1 < 10) h
  simp only [digitCount, hPos, if_false]
  omega

/-- Numbers within the precision are kept as they are. -/
theorem roundDown_of_lt {precision : Nat} {mantissa exponent : Int}
    (h : mantissa.natAbs < 10 ^ precision) :
    roundDown precision ⟨mantissa, exponent⟩ = ⟨mantissa, exponent⟩ := by
  have hDropped : digitCount mantissa.natAbs - precision = 0 := by
    have := digitCount_le h
    omega
  simp [roundDown, hDropped]

/-- Rounding keeps the leading digit, so a number of more than `precision`
digits stays at or above the first number of that length. -/
theorem le_roundDown {precision : Nat} {mantissa : Int} (exponent : Int)
    (hPrecision : 0 < precision) (h : 10 ^ precision ≤ mantissa.natAbs) :
    10 ^ precision ≤ (roundDown precision ⟨mantissa, exponent⟩).mantissa.natAbs *
      10 ^ (digitCount mantissa.natAbs - precision) := by
  have hCount := lt_digitCount h
  have hNonzero : mantissa.natAbs ≠ 0 := by
    have := Nat.pow_pos (n := precision) (show 0 < 10 by omega)
    omega
  have hLeading : 10 ^ (digitCount mantissa.natAbs - 1) ≤ mantissa.natAbs := by
    simpa [digitCount, hNonzero] using Nat.pow_log_le_self 10 hNonzero
  have hMantissa : (roundDown precision ⟨mantissa, exponent⟩).mantissa.natAbs =
      mantissa.natAbs / 10 ^ (digitCount mantissa.natAbs - precision) := by
    simp only [roundDown, Int.natAbs_tdiv, Int.natAbs_pow]
    rfl
  rw [hMantissa]
  generalize hDropped : digitCount mantissa.natAbs - precision = dropped
  have hTop : 10 ^ (precision - 1) ≤ mantissa.natAbs / 10 ^ dropped := by
    rw [Nat.le_div_iff_mul_le (Nat.pow_pos (by omega)), ← pow_add,
      show precision - 1 + dropped = digitCount mantissa.natAbs - 1 by omega]
    exact hLeading
  calc
    10 ^ precision ≤ 10 ^ (precision - 1) * 10 ^ dropped := by
      rw [← pow_add]
      exact Nat.pow_le_pow_right (by omega) (by omega)
    _ ≤ _ := Nat.mul_le_mul_right _ hTop

/-- Within the precision, cutting at a place is truncated division. -/
theorem units_toDecimalPlaces_roundDown {precision : Nat} (places below : Nat) {mantissa : Int}
    (h : mantissa.natAbs < 10 ^ precision) :
    units places
      (toDecimalPlaces places (roundDown precision ⟨mantissa, -(places + below : Nat)⟩)) =
      mantissa.tdiv (10 ^ below) := by
  rw [roundDown_of_lt h]
  rcases Nat.eq_zero_or_pos below with rfl | hBelow
  · simp [toDecimalPlaces, units]
  · have hCut : ¬(-(places : Int) ≤ -((places + below : Nat) : Int)) := by omega
    have hExponent : (-(places : Int) - -((places + below : Nat) : Int)).toNat = below := by omega
    simp only [toDecimalPlaces, hCut, if_false, hExponent]
    simp [units]

/-- Beyond the precision, the cut number is as large as the precision allows:
rounding first cannot bring a large number back below a smaller bound. -/
theorem le_units_toDecimalPlaces_roundDown {precision below : Nat} (places : Nat) {mantissa : Int}
    (hPrecision : 0 < precision) (hBelow : below ≤ precision)
    (h : 10 ^ precision ≤ mantissa.natAbs) :
    10 ^ (precision - below) ≤ (units places (toDecimalPlaces places
      (roundDown precision ⟨mantissa, -(places + below : Nat)⟩))).natAbs := by
  have hKept := le_roundDown (-(places + below : Nat)) hPrecision h
  have hExponent : (roundDown precision ⟨mantissa, -(places + below : Nat)⟩).exponent =
      -(places + below : Nat) + (digitCount mantissa.natAbs - precision : Nat) := rfl
  revert hKept hExponent
  generalize roundDown precision ⟨mantissa, -(places + below : Nat)⟩ = rounded
  generalize digitCount mantissa.natAbs - precision = dropped
  intro hExponent hKept
  by_cases hCut : -(places : Int) ≤ rounded.exponent
  · have hPower : (rounded.exponent + places).toNat = dropped - below := by omega
    have hLe : below ≤ dropped := by omega
    simp only [toDecimalPlaces, hCut, if_true, units, hPower, Int.natAbs_mul, Int.natAbs_pow]
    change _ ≤ rounded.mantissa.natAbs * 10 ^ (dropped - below)
    apply Nat.le_of_mul_le_mul_right (c := 10 ^ below) _ (Nat.pow_pos (by omega))
    rw [mul_assoc, ← pow_add, ← pow_add, Nat.sub_add_cancel hLe, Nat.sub_add_cancel hBelow]
    exact hExponent
  · have hPower : (-(places : Int) - rounded.exponent).toNat = below - dropped := by omega
    have hLt : dropped < below := by omega
    simp only [toDecimalPlaces, hCut, if_false, units, hPower]
    simp only [neg_add_cancel, Int.toNat_zero, pow_zero, mul_one, Int.natAbs_tdiv, Int.natAbs_pow]
    change _ ≤ rounded.mantissa.natAbs / 10 ^ (below - dropped)
    rw [Nat.le_div_iff_mul_le (Nat.pow_pos (by omega)), ← pow_add]
    apply Nat.le_of_mul_le_mul_right (c := 10 ^ dropped) _ (Nat.pow_pos (by omega))
    rw [← pow_add, show precision - below + (below - dropped) + dropped = precision by omega]
    exact hExponent

/-- The last digit of a cut number is at the place of the cut or above it. -/
theorem exponent_toDecimalPlaces (places : Nat) (value : Decimal) :
    -(places : Int) ≤ (toDecimalPlaces places value).exponent := by
  unfold toDecimalPlaces
  split_ifs with h
  · exact h
  · exact le_refl _

theorem fractionDigits_le (below : Nat)
    (mantissa : Int) : fractionDigits below mantissa ≤ below := by
  induction below generalizing mantissa with
  | zero => exact Nat.le_refl 0
  | succ below ih =>
      unfold fractionDigits
      split_ifs
      · exact (ih _).trans (Nat.le_succ below)
      · exact Nat.le_refl _

theorem decimalPlaces_le {places : Nat} {value : Decimal} (h : -(places : Int) ≤ value.exponent) :
    value.decimalPlaces ≤ places :=
  (fractionDigits_le _ _).trans (by omega)

/-- A number with few decimal places ends in zeros below them. -/
theorem pow_dvd_of_fractionDigits_le {places : Nat} (below : Nat) {mantissa : Int}
    (h : fractionDigits below mantissa ≤ places) : (10 : Int) ^ (below - places) ∣ mantissa := by
  induction below generalizing mantissa with
  | zero => simp
  | succ below ih =>
      unfold fractionDigits at h
      split_ifs at h with hZero
      · have hMantissa : mantissa = 10 * (mantissa / 10) := by omega
        by_cases hLe : below + 1 ≤ places
        · simp [Nat.sub_eq_zero_of_le hLe]
        · rw [hMantissa, show below + 1 - places = below - places + 1 by omega, pow_succ']
          exact mul_dvd_mul_left 10 (ih h)
      · simp [Nat.sub_eq_zero_of_le h]

/-- Cutting a number that has no digits below the cut changes nothing. -/
theorem mantissa_eq_of_decimalPlaces_le {places : Nat} {value : Decimal}
    (h : value.decimalPlaces ≤ places) (hLow : ¬-(places : Int) ≤ value.exponent) :
    value.mantissa = units places (toDecimalPlaces places value) *
      10 ^ (-(places : Int) - value.exponent).toNat := by
  have hDvd := pow_dvd_of_fractionDigits_le (-value.exponent).toNat h
  rw [show (-value.exponent).toNat - places = (-(places : Int) - value.exponent).toNat by omega]
    at hDvd
  simp only [toDecimalPlaces, hLow, if_false, units, neg_add_cancel, Int.toNat_zero, pow_zero,
    mul_one]
  exact (Int.tdiv_mul_cancel hDvd).symm

/-- Comparison with a number of `places` places is comparison of units. -/
theorem gt_abs_ofUnits {places : Nat} {value : Decimal} (h : -(places : Int) ≤ value.exponent)
    (bound : Int) :
    gt (abs value) (ofUnits places bound) = decide (bound < (units places value).natAbs) := by
  have hLeast : min value.exponent (-(places : Int)) = -(places : Int) := min_eq_right h
  have hPower : (value.exponent - -(places : Int)).toNat = (value.exponent + places).toNat := by
    omega
  simp only [gt, align, abs, ofUnits, hLeast, hPower, sub_self, Int.toNat_zero, pow_zero, mul_one,
    units, Int.natAbs_mul, Int.natAbs_pow]
  push_cast
  rfl

/-- A number with at most `places` decimal places compares as its units do,
however many zeros its representation carries below them. -/
theorem gt_abs_ofUnits_of_decimalPlaces_le {places : Nat} {value : Decimal}
    (h : value.decimalPlaces ≤ places) (bound : Int) :
    gt (abs value) (ofUnits places bound) =
      decide (bound < (units places (toDecimalPlaces places value)).natAbs) := by
  by_cases hLow : -(places : Int) ≤ value.exponent
  · rw [gt_abs_ofUnits hLow, toDecimalPlaces, if_pos hLow]
  · have hMantissa := mantissa_eq_of_decimalPlaces_le h hLow
    have hLeast : min value.exponent (-(places : Int)) = value.exponent := min_eq_left (by omega)
    generalize units places (toDecimalPlaces places value) = n at hMantissa ⊢
    simp only [gt, align, abs, ofUnits, hLeast, sub_self, Int.toNat_zero, pow_zero, mul_one]
    rw [hMantissa, Int.natAbs_mul, Int.natAbs_pow]
    push_cast
    have hPower : (0 : Int) < 10 ^ (-(places : Int) - value.exponent).toNat :=
      Int.pow_pos (by omega)
    rw [decide_eq_decide]
    exact mul_lt_mul_iff_left₀ hPower

private theorem mul_pow_nonpos_iff (mantissa : Int) (power : Nat) :
    mantissa * 10 ^ power ≤ 0 ↔ mantissa ≤ 0 := by
  have hPower : (0 : Int) < 10 ^ power := Int.pow_pos (by omega)
  constructor
  · exact fun hLe => nonpos_of_mul_nonpos_left hLe hPower
  · exact fun hLe => mul_nonpos_of_nonpos_of_nonneg hLe hPower.le

/-- The sign of a number is the sign of its units. -/
theorem lte_zero_eq {places : Nat} {value : Decimal} (h : value.decimalPlaces ≤ places) :
    lte value ⟨0, 0⟩ = decide (units places (toDecimalPlaces places value) ≤ 0) := by
  simp only [lte, align, zero_mul, decide_eq_decide, mul_pow_nonpos_iff]
  by_cases hLow : -(places : Int) ≤ value.exponent
  · simp only [toDecimalPlaces, if_pos hLow, units, mul_pow_nonpos_iff]
  · rw [mantissa_eq_of_decimalPlaces_le h hLow, mul_pow_nonpos_iff]

end Decimal
end DecimalArithmetic
