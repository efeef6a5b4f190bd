import Mathlib.Algebra.Order.Ring.Int
import Mathlib.Tactic.Ring

/-! Products of scaled integers, rounded down to the scale. Rounding down is
superadditive: the parts of a quantity never cost more than the whole. -/
namespace FloorProduct

variable {scale : Int}

/-- The product of two numbers counted in units of `1 / scale`. -/
def floorProduct (scale left right : Int) : Int := left * right / scale

@[simp] theorem floorProduct_zero_left (right : Int) : floorProduct scale 0 right = 0 := by
  simp [floorProduct]

theorem floorProduct_nonneg (hScale : 0 ≤ scale) {left right : Int} (hLeft : 0 ≤ left)
    (hRight : 0 ≤ right) : 0 ≤ floorProduct scale left right :=
  Int.ediv_nonneg (Int.mul_nonneg hLeft hRight) hScale

/-- For nonnegative operands rounding down is truncation. -/
theorem tdiv_eq_floorProduct {left right : Int} (hLeft : 0 ≤ left) (hRight : 0 ≤ right) :
    (left * right).tdiv scale = floorProduct scale left right :=
  Int.tdiv_eq_ediv_of_nonneg (Int.mul_nonneg hLeft hRight)

theorem floorProduct_mono (hScale : 0 < scale) {left left' right right' : Int}
    (hLeft : left ≤ left') (hRight : right ≤ right') (hLeft' : 0 ≤ left')
    (hNonneg : 0 ≤ right) : floorProduct scale left right ≤ floorProduct scale left' right' :=
  Int.ediv_le_ediv hScale (mul_le_mul hLeft hRight hNonneg hLeft')

/-- Two parts rounded separately are worth at most their sum. -/
theorem floorProduct_add_le (hScale : 0 < scale) (first second right : Int) :
    floorProduct scale first right + floorProduct scale second right ≤
      floorProduct scale (first + second) right := by
  unfold floorProduct
  rw [Int.le_ediv_iff_mul_le hScale, add_mul, add_mul]
  exact add_le_add (Int.ediv_mul_le _ hScale.ne') (Int.ediv_mul_le _ hScale.ne')

/-- Splitting a quantity loses at most one unit to rounding. -/
theorem floorProduct_add_le_succ (hScale : 0 < scale) (first second right : Int) :
    floorProduct scale (first + second) right ≤
      floorProduct scale first right + floorProduct scale second right + 1 := by
  unfold floorProduct
  have hFirst := Int.lt_ediv_add_one_mul_self (first * right) hScale
  have hSecond := Int.lt_ediv_add_one_mul_self (second * right) hScale
  apply Int.le_of_lt_add_one
  rw [Int.ediv_lt_iff_lt_mul hScale]
  calc
    (first + second) * right = first * right + second * right := by ring
    _ < (first * right / scale + 1) * scale + (second * right / scale + 1) * scale := by omega
    _ = _ := by ring

/-- The part `part` of `whole`, at a price no higher than `limit`, is worth at
most what the whole loses in value at the limit. -/
theorem floorProduct_le_sub (hScale : 0 < scale) {part whole price limit : Int}
    (hPart : 0 ≤ part) (hPrice : 0 ≤ price) (hLimit : price ≤ limit) :
    floorProduct scale part price ≤
      floorProduct scale whole limit - floorProduct scale (whole - part) limit := by
  have hAdd := floorProduct_add_le hScale part (whole - part) limit
  have hMono := floorProduct_mono hScale (le_refl part) hLimit hPart hPrice
  rw [show part + (whole - part) = whole by ring] at hAdd
  omega

/-- A factor below one makes a positive number strictly smaller. -/
theorem floorProduct_lt_self (hScale : 0 < scale) {left right : Int} (hLeft : 0 < left)
    (hRight : right < scale) : floorProduct scale left right < left := by
  unfold floorProduct
  rw [Int.ediv_lt_iff_lt_mul hScale]
  exact mul_lt_mul_of_pos_left hRight hLeft

end FloorProduct
