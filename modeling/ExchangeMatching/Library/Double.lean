import Mathlib.Data.Int.Log
import Mathlib.Data.Rat.Floor
import Mathlib.Tactic.Linarith

/-! Numbers with a significand of 53 bits. What an operation yields is rounded
to the nearest such number, and a tie goes to the even significand. Smaller
exponents than those of integers and their quotients are not bounded. -/
namespace Double

/-- The nearest integer. -/
def roundHalfEven (value : ℚ) : ℤ :=
  if value - ⌊value⌋ < 1 / 2 then ⌊value⌋
  else if 1 / 2 < value - ⌊value⌋ then ⌊value⌋ + 1
  else if ⌊value⌋ % 2 = 0 then ⌊value⌋
  else ⌊value⌋ + 1

/-- The distance between neighbours. -/
def ulp (value : ℚ) : ℚ := 2 ^ (Int.log 2 |value| - 52)

def round (value : ℚ) : ℚ := roundHalfEven (value / ulp value) * ulp value

inductive Number where
  | nan
  | infinite (negative : Bool)
  | finite (value : ℚ)
deriving DecidableEq, Repr

def maxSafeInteger : ℕ := 2 ^ 53 - 1

namespace Number

/-- The number for a rational, or an infinity beyond the largest exponent. -/
def ofRat (value : ℚ) : Number :=
  if |round value| < 2 ^ 1024 then .finite (round value) else .infinite (value < 0)

def isInteger : Number → Bool
  | .finite value => value.den = 1
  | _ => false

def isSafeInteger : Number → Bool
  | .finite value => value.den = 1 && |value| ≤ maxSafeInteger
  | _ => false

def ge : Number → ℚ → Bool
  | .finite value, bound => bound ≤ value
  | .infinite negative, _ => !negative
  | .nan, _ => false

def le : Number → ℚ → Bool
  | .finite value, bound => value ≤ bound
  | .infinite negative, _ => negative
  | .nan, _ => false

/-- Addition of a finite number. -/
def add : Number → ℚ → Number
  | .finite left, right => ofRat (left + right)
  | number, _ => number

def mul : Number → Number → Number
  | .finite left, .finite right => ofRat (left * right)
  | .finite value, .infinite negative | .infinite negative, .finite value =>
      if value = 0 then .nan else .infinite (negative != decide (value < 0))
  | .infinite left, .infinite right => .infinite (left != right)
  | .nan, _ | _, .nan => .nan

end Number

theorem roundHalfEven_intCast (value : ℤ) : roundHalfEven value = value := by
  rw [roundHalfEven, Int.floor_intCast, sub_self, if_pos (by norm_num)]

/-- An integer that is not above a number is not above the nearest integer. -/
theorem le_roundHalfEven {value : ℚ} {bound : ℤ} (h : (bound : ℚ) ≤ value) :
    bound ≤ roundHalfEven value := by
  have hFloor : bound ≤ ⌊value⌋ := Int.le_floor.mpr h
  unfold roundHalfEven
  split_ifs <;> omega

theorem roundHalfEven_le {value : ℚ} {bound : ℤ}
    (h : value ≤ bound) : roundHalfEven value ≤ bound := by
  have hFloor : ⌊value⌋ ≤ bound := Int.floor_le_iff.mpr (h.trans_lt (lt_add_one _))
  have hAbove : ¬value - ⌊value⌋ < 1 / 2 → ⌊value⌋ + 1 ≤ bound := by
    intro hFar
    have hLess : (⌊value⌋ : ℚ) < bound := by linarith
    exact Int.add_one_le_iff.mpr (by exact_mod_cast hLess)
  unfold roundHalfEven
  split_ifs with hNear
  · exact hFloor
  · exact hAbove hNear
  · exact hFloor
  · exact hAbove hNear

/-- Rounding loses at most one half. -/
theorem sub_le_roundHalfEven (value : ℚ) : value - 1 / 2 ≤ roundHalfEven value := by
  have hFloor := Int.lt_floor_add_one value
  unfold roundHalfEven
  split_ifs
  · linarith
  · push_cast
    linarith
  · linarith
  · push_cast
    linarith

theorem ulp_pos (value : ℚ) : 0 < ulp value := zpow_pos two_pos _

/-- The magnitude of a number, counted in the distance of its neighbours. -/
theorem le_div_ulp {value : ℚ} (h : 0 < value) : (2 ^ 52 : ℤ) ≤ value / ulp value := by
  rw [le_div_iff₀ (ulp_pos value), ulp, abs_of_pos h]
  calc
    ((2 ^ 52 : ℤ) : ℚ) * 2 ^ (Int.log 2 value - 52) = 2 ^ (52 : ℤ) * 2 ^
      (Int.log 2 value - 52) := by
      norm_num
    _ = 2 ^ Int.log 2 value := by
      rw [← zpow_add₀ two_ne_zero]
      congr 1
      omega
    _ ≤ value := Int.zpow_log_le_self Nat.one_lt_two h

/-- Below the 53rd power of two every integer is a multiple of the distance. -/
theorem exists_mul_ulp {value : ℚ} (h : |value| < 2 ^ 53) (integer : ℤ) :
    ∃ multiple : ℤ, (integer : ℚ) = multiple * ulp value := by
  have hLog : Int.log 2 |value| ≤ 52 := by
    rcases (abs_nonneg value).eq_or_lt' with hZero | hPos
    · rw [hZero, Int.log_zero_right]
      decide
    · have hLess : |value| < ((2 : ℕ) : ℚ) ^ (53 : ℤ) := by exact_mod_cast h
      have hBelow := (Int.lt_zpow_iff_log_lt Nat.one_lt_two hPos).mp hLess
      omega
  obtain ⟨places, hPlaces⟩ := Int.eq_ofNat_of_zero_le (sub_nonneg.mpr hLog)
  have hUlp : ulp value = (2 ^ (places : ℤ))⁻¹ := by
    rw [ulp, ← zpow_neg, ← hPlaces, neg_sub]
  refine ⟨integer * 2 ^ places, ?_⟩
  rw [hUlp, zpow_natCast]
  push_cast
  rw [mul_inv_cancel_right₀ (pow_ne_zero _ two_ne_zero)]

/-- Small integers are numbers. -/
theorem round_intCast {value : ℤ} (h : |value| < 2 ^ 53) : round value = value := by
  have hSmall : |(value : ℚ)| < 2 ^ 53 := by exact_mod_cast h
  obtain ⟨multiple, hMultiple⟩ := exists_mul_ulp hSmall value
  have hQuotient : (value : ℚ) / ulp value = multiple :=
    (div_eq_iff (ulp_pos _).ne').mpr hMultiple
  rw [round, hQuotient, roundHalfEven_intCast, ← hMultiple]

/-- Rounding does not leave the range of the larger numbers. -/
theorem le_round {value : ℚ} (h : 2 ^ 53 ≤ value) : 2 ^ 53 ≤ round value := by
  have hPos : 0 < value := lt_of_lt_of_le (by norm_num) h
  have hLog : 53 ≤ Int.log 2 value := by
    refine (Int.zpow_le_iff_le_log Nat.one_lt_two hPos).mp ?_
    exact_mod_cast h
  have hRounded := le_roundHalfEven (le_div_ulp hPos)
  calc
    (2 : ℚ) ^ 53 = 2 ^ (53 : ℤ) := by norm_num
    _ ≤ 2 ^ Int.log 2 value := zpow_le_zpow_right₀ one_le_two hLog
    _ = (2 ^ 52 : ℤ) * ulp value := by
      rw [ulp, abs_of_pos hPos, Int.cast_pow, ← zpow_natCast,
        Int.cast_ofNat, ← zpow_add₀ two_ne_zero]
      congr 1
      omega
    _ ≤ round value := mul_le_mul_of_nonneg_right (by exact_mod_cast hRounded) (ulp_pos value).le

/-- An integer that is safe is represented exactly. -/
theorem ofRat_natCast {value : ℕ} (h : value ≤ maxSafeInteger) :
    Number.ofRat value = .finite value := by
  have hLess : value < 2 ^ 53 := Nat.lt_of_le_of_lt h (by decide)
  have hRound : round (value : ℚ) = value := by
    have hSmall : |(value : ℤ)| < 2 ^ 53 := by
      rw [Nat.abs_cast]
      exact_mod_cast hLess
    exact_mod_cast round_intCast hSmall
  have hFinite : (value : ℚ) < 2 ^ 1024 := by
    calc
      (value : ℚ) < 2 ^ 53 := by exact_mod_cast hLess
      _ ≤ 2 ^ 1024 := pow_le_pow_right₀ one_le_two (by decide)
  rw [Number.ofRat, hRound, Nat.abs_cast, if_pos hFinite]

/-- What is rounded to a safe integer was that integer. -/
theorem isSafeInteger_ofRat {value : ℕ} :
    (Number.ofRat value).isSafeInteger = true ↔ value ≤ maxSafeInteger := by
  constructor
  · intro hSafe
    by_contra hLarge
    have hRound : 2 ^ 53 ≤ round (value : ℚ) := by
      refine le_round ?_
      have hNat : 2 ^ 53 ≤ value := by
        unfold maxSafeInteger at hLarge
        omega
      exact_mod_cast hNat
    unfold Number.ofRat at hSafe
    split_ifs at hSafe
    · simp only [Number.isSafeInteger, Bool.and_eq_true, decide_eq_true_eq] at hSafe
      have hAbs := hSafe.2
      rw [abs_of_nonneg ((by norm_num : (0 : ℚ) ≤ 2 ^ 53).trans hRound)] at hAbs
      have hMax : (maxSafeInteger : ℚ) < 2 ^ 53 := by
        unfold maxSafeInteger
        norm_num
      exact absurd (hRound.trans hAbs) (not_le.mpr hMax)
    · cases hSafe
  · intro hSmall
    rw [ofRat_natCast hSmall]
    simp only [Number.isSafeInteger, Rat.den_natCast, Nat.abs_cast, Bool.and_eq_true,
      decide_eq_true_eq, true_and]
    exact_mod_cast hSmall

/-- The quotient of integers that are not too large is rounded, but not past an
integer. -/
theorem ceil_round_div {numerator denominator : ℕ} (hNumerator : numerator < 2 ^ 53)
    (hDenominator : 0 < denominator) :
    ⌈round (numerator / denominator)⌉ = ⌈(numerator / denominator : ℚ)⌉ := by
  rcases Nat.eq_zero_or_pos numerator with rfl | hPos
  · have hZero := @round_intCast 0 (by norm_num)
    rw [Int.cast_zero] at hZero
    rw [Nat.cast_zero, zero_div, hZero]
  have hDen : (1 : ℚ) ≤ denominator := by exact_mod_cast hDenominator
  have hNum : (0 : ℚ) < numerator := by exact_mod_cast hPos
  generalize hValue : (numerator / denominator : ℚ) = value
  have hValuePos : 0 < value := hValue ▸ div_pos hNum (one_pos.trans_le hDen)
  have hProduct : value * denominator = numerator := by
    rw [← hValue, div_mul_cancel₀ _ (one_pos.trans_le hDen).ne']
  have hSmall : |value| < 2 ^ 53 := by
    rw [abs_of_pos hValuePos]
    calc
      value ≤ value * denominator := le_mul_of_one_le_right hValuePos.le hDen
      _ = numerator := hProduct
      _ < 2 ^ 53 := by exact_mod_cast hNumerator
  refine Int.ceil_eq_iff.mpr ⟨?_, ?_⟩
  · -- One half of the distance of neighbours is less than the least fraction.
    have hFraction : ((⌈value⌉ : ℚ) - 1) * denominator + 1 ≤ numerator := by
      have hBelow : ((⌈value⌉ : ℚ) - 1) * denominator < numerator := by
        rw [← hProduct]
        have hCeil := Int.ceil_lt_add_one value
        exact mul_lt_mul_of_pos_right (by linarith) (one_pos.trans_le hDen)
      have hInt : (⌈value⌉ - 1) * (denominator : ℤ) < numerator := by exact_mod_cast hBelow
      exact_mod_cast Int.add_one_le_iff.mpr hInt
    have hUlp : ulp value * denominator < 2 := by
      have hMagnitude := (le_div_iff₀ (ulp_pos value)).mp (le_div_ulp hValuePos)
      have hScaled : ((2 ^ 52 : ℤ) : ℚ) * ulp value * denominator ≤ numerator := by
        rw [← hProduct]
        exact mul_le_mul_of_nonneg_right hMagnitude (zero_le_one.trans hDen)
      have hLess : (numerator : ℚ) < 2 ^ 53 := by exact_mod_cast hNumerator
      push_cast at hScaled
      linarith
    have hRound : value - ulp value / 2 ≤ round value := by
      calc
        value - ulp value / 2 = (value / ulp value - 1 / 2) * ulp value := by
          rw [sub_mul, div_mul_cancel₀ _ (ulp_pos value).ne']
          ring
        _ ≤ round value := mul_le_mul_of_nonneg_right (sub_le_roundHalfEven _) (ulp_pos value).le
    refine lt_of_lt_of_le ?_ hRound
    refine lt_of_mul_lt_mul_right ?_ (zero_le_one.trans hDen)
    linarith
  · obtain ⟨multiple, hMultiple⟩ := exists_mul_ulp hSmall ⌈value⌉
    have hQuotient : value / ulp value ≤ multiple := by
      rw [div_le_iff₀ (ulp_pos value), ← hMultiple]
      exact Int.le_ceil value
    have hRounded := roundHalfEven_le hQuotient
    rw [hMultiple]
    exact mul_le_mul_of_nonneg_right (by exact_mod_cast hRounded) (ulp_pos value).le

end Double
