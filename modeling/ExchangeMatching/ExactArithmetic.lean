import ExchangeMatching.Library.Truncation
import ExchangeMatching.Settlement

/-! The monetary arithmetic is exact. Operations on decimals of at most eight
places are the operations on rational numbers, cut after eight places and
refused beyond the range; what settlement makes of them is integer arithmetic
on units of 0.00000001. -/
namespace ExchangeMatching

open DecimalArithmetic FloorProduct Transactions

/-! The operations on decimals themselves, in whatever way these are written. -/
namespace ArithmeticDecimal

variable (left right : Decimal)

def multiplyScaled : Except Failure Decimal :=
  toScaledDecimal (.mul (decimalPrecision * 2) left right)

def subtractScaled : Except Failure Decimal :=
  toScaledDecimal (.sub (decimalPrecision * 2) left right)

def addScaled : Except Failure Decimal :=
  toScaledDecimal (.add (decimalPrecision * 2) left right)

end ArithmeticDecimal

/-- `DECIMAL_MAX`. -/
def maxValue : ℚ := decimalMax / one

/-- Why a calculation is refused. -/
def outOfRange : Failure := .badRequest "Calculated value must fit within DECIMAL(28,8)"

/-- At most eight decimal places, and in range. -/
structure FitsSchema (value : Decimal) : Prop where
  places : value.decimalPlaces ≤ decimalScale
  range : |value.toRat| ≤ maxValue

/-- The computation returns this number, or is refused because it is out of range. -/
structure Calculates (computation : Except Failure Decimal) (exact : ℚ) : Prop where
  returns : |exact| ≤ maxValue → ∃ result, computation = .ok result ∧ FitsSchema result ∧
    result.toRat = exact
  refuses : maxValue < |exact| → computation = .error outOfRange

section Decimals

variable {left right value : Decimal}

/-- The operations on units are those on decimals. -/
theorem scaled_ofUnits (left right : Int) :
    multiplyScaled left right = (ArithmeticDecimal.multiplyScaled (.ofUnits decimalScale left)
      (.ofUnits decimalScale right)).map (Decimal.units decimalScale) ∧
    subtractScaled left right = (ArithmeticDecimal.subtractScaled (.ofUnits decimalScale left)
      (.ofUnits decimalScale right)).map (Decimal.units decimalScale) ∧
    addScaled left right = (ArithmeticDecimal.addScaled (.ofUnits decimalScale left)
      (.ofUnits decimalScale right)).map (Decimal.units decimalScale) := ⟨rfl, rfl, rfl⟩

theorem abs_toRat_le_iff (hExponent : -(decimalScale : Int) ≤ value.exponent) :
    |value.toRat| ≤ maxValue ↔ (value.units decimalScale).natAbs ≤ decimalMax := by
  have hUnits := Decimal.toRat_of_decimalPlaces_le (Decimal.decimalPlaces_le hExponent)
  rw [Decimal.toDecimalPlaces, if_pos hExponent, zpow_neg, zpow_natCast, ← div_eq_mul_inv] at hUnits
  have hScale : (one : ℚ) = 10 ^ decimalScale := by norm_num [one, decimalScale]
  have hPos : (0 : ℚ) < 10 ^ decimalScale := by positivity
  rw [hUnits, maxValue, hScale, abs_div, abs_of_pos hPos,
    div_le_div_iff_of_pos_right hPos, ← Int.cast_abs, Int.abs_eq_natAbs]
  exact Int.cast_le

/-- The cut number is returned if it is in range. -/
theorem toScaledDecimal_calculates (value : Decimal) :
    Calculates (toScaledDecimal value) (truncateAt (-decimalScale) value.toRat) := by
  have hCut := Decimal.toRat_toDecimalPlaces decimalScale value
  have hExponent := Decimal.exponent_toDecimalPlaces decimalScale value
  have hPlaces := Decimal.decimalPlaces_le hExponent
  have hRange := abs_toRat_le_iff hExponent
  have hGt := Decimal.gt_abs_ofUnits hExponent decimalMax
  unfold toScaledDecimal assertDecimalFitsSchema
  rw [← hCut]
  constructor
  · intro hFits
    rw [decide_eq_false (not_lt.mpr (hRange.mp hFits))] at hGt
    simp only [not_lt.mpr hPlaces, if_false, hGt, Bool.false_eq_true]
    exact ⟨_, rfl, ⟨hPlaces, hFits⟩, rfl⟩
  · intro hOver
    have hWide := mt hRange.mpr (not_le.mpr hOver)
    rw [decide_eq_true (not_le.mp hWide)] at hGt
    simp only [not_lt.mpr hPlaces, if_false, hGt, if_true]
    rfl

/-- Rounding to 56 digits before the cut does no harm: what loses digits above
the eighth place is out of range before and after. -/
theorem roundDown_calculates (value : Decimal) :
    Calculates (toScaledDecimal (value.roundDown (decimalPrecision * 2)))
      (truncateAt (-decimalScale) value.toRat) := by
  have hCut := toScaledDecimal_calculates (value.roundDown (decimalPrecision * 2))
  have hWide : maxValue < (10 ^ (decimalPrecision * 2 - 1) : ℕ) * (10 : ℚ) ^
      (-decimalScale : ℤ) := by
    norm_num [maxValue, decimalMax, one, decimalPrecision, decimalScale]
  rcases Decimal.truncateAt_roundDown (show 0 < decimalPrecision * 2 by decide)
    (-decimalScale) value with hSame | ⟨hRounded, hExact⟩
  · rwa [hSame] at hCut
  · exact ⟨fun hFits => absurd hFits (not_le.mpr (hWide.trans_le hExact)),
      fun _ => hCut.refuses (hWide.trans_le hRounded)⟩

theorem multiplyScaled_calculates (left right : Decimal) :
    Calculates (ArithmeticDecimal.multiplyScaled left right)
      (truncateAt (-decimalScale) (left.toRat * right.toRat)) := by
  rw [← Decimal.toRat_mul]
  exact roundDown_calculates _

/-- Sums of numbers of eight places have eight places. -/
theorem truncateAt_units (left right : Decimal) (hLeft : left.decimalPlaces ≤ decimalScale)
    (hRight : right.decimalPlaces ≤ decimalScale) :
    truncateAt (-decimalScale) (left.toRat + right.toRat) = left.toRat + right.toRat ∧
      truncateAt (-decimalScale) (left.toRat - right.toRat) = left.toRat - right.toRat := by
  rw [Decimal.toRat_of_decimalPlaces_le hLeft,
    Decimal.toRat_of_decimalPlaces_le hRight, ← add_mul, ← sub_mul,
    ← Int.cast_add, ← Int.cast_sub]
  exact ⟨truncateAt_mul_zpow _ _, truncateAt_mul_zpow _ _⟩

theorem addScaled_calculates (hLeft : left.decimalPlaces ≤ decimalScale)
    (hRight : right.decimalPlaces ≤ decimalScale) :
    Calculates (ArithmeticDecimal.addScaled left right) (left.toRat + right.toRat) := by
  rw [← (truncateAt_units left right hLeft hRight).1, ← Decimal.toRat_add]
  exact roundDown_calculates _

theorem subtractScaled_calculates (hLeft : left.decimalPlaces ≤ decimalScale)
    (hRight : right.decimalPlaces ≤ decimalScale) :
    Calculates (ArithmeticDecimal.subtractScaled left right) (left.toRat - right.toRat) := by
  rw [← (truncateAt_units left right hLeft hRight).2, ← Decimal.toRat_sub]
  exact roundDown_calculates _

end Decimals

/-! Settlement in integer arithmetic, on units of 0.00000001. -/
namespace Units

def cost (amount price : Int) : Int := amount * price / 10 ^ 8

/-- 0.5 % -/
def makerFee (gross : Int) : Int := gross * 5 / 1000

/-- 0.3 % -/
def takerFee (gross : Int) : Int := gross * 3 / 1000

/-- What a fill of a BUY order releases of its reservation. -/
def debit (order : Order) (amount : Int) : Int :=
  cost order.remainingAmount order.price - cost (order.remainingAmount - amount) order.price

def feeDetails (takerSide : OrderSide) (amount price : Int) : TradeFeeDetails :=
  match takerSide with
  | .buy => ⟨500000, makerFee (cost amount price), .usd, 300000, takerFee amount, .btc⟩
  | .sell => ⟨500000, makerFee amount, .btc, 300000, takerFee (cost amount price), .usd⟩

/-- What a BUY taker and the maker that sells to it are paid. -/
def buyTakerUpdates (taker : Order) (amount price : Int) : BalanceUpdate × BalanceUpdate :=
  ([(.reservedUsd, .decrement (debit taker amount)),
      (.availableUsd, .increment (debit taker amount - cost amount price)),
      (.availableBtc, .increment (amount - takerFee amount))],
    [(.reservedBtc, .decrement amount),
      (.availableUsd, .increment (cost amount price - makerFee (cost amount price)))])

/-- What a SELL taker and the maker that buys from it are paid. -/
def sellTakerUpdates (maker : Order) (amount price : Int) : BalanceUpdate × BalanceUpdate :=
  ([(.reservedBtc, .decrement amount),
      (.availableUsd, .increment (cost amount price - takerFee (cost amount price)))],
    (.reservedUsd, .decrement (debit maker amount)) ::
      (if 0 < debit maker amount - cost amount price then
        [(.availableUsd, .increment (debit maker amount - cost amount price))] else []) ++
      [(.availableBtc, .increment (amount - makerFee amount))])

end Units

section Chains

variable {amount price gross : Int}

/-- An operand of a calculation. -/
def IsOperand (value : Int) : Prop := 0 ≤ value ∧ value ≤ decimalMax

theorem multiplyScaled_units (hAmount : 0 ≤ amount) (hPrice : 0 ≤ price) :
    multiplyScaled amount price =
      if Units.cost amount price ≤
        decimalMax then .ok (Units.cost amount price) else .error outOfRange := by
  have hCost : ((Units.cost amount price).natAbs : Int) = Units.cost amount price :=
    Int.natAbs_of_nonneg (cost_nonneg hAmount hPrice)
  rw [multiplyScaled_eq, tdiv_eq_floorProduct hAmount hPrice]
  change calculated (Units.cost amount price) = _
  rw [calculated, hCost]
  split_ifs
  · omega
  · rfl
  · rfl
  · omega

theorem subtractScaled_units {left right : Int} (hLeft : IsOperand left)
    (hRight : IsOperand right) : subtractScaled left right = .ok (left - right) := by
  obtain ⟨hLeftNonneg, hLeftMax⟩ := hLeft
  obtain ⟨hRightNonneg, hRightMax⟩ := hRight
  exact subtractScaled_eq_ok.mpr ⟨rfl, by omega⟩

/-- A rate below one, in thousandths, is applied to units. -/
theorem multiplyScaled_rate {thousandths : Int} (hGross : IsOperand gross) (hRate : 0 ≤ thousandths)
    (hSmall : thousandths ≤ 1000) :
    multiplyScaled gross (thousandths * 100000) = .ok (gross * thousandths / 1000) ∧
      0 ≤ gross * thousandths / 1000 ∧ gross * thousandths / 1000 ≤ gross := by
  obtain ⟨hNonneg, hMax⟩ := hGross
  have hUnits : Units.cost gross (thousandths * 100000) = gross * thousandths / 1000 := by
    rw [Units.cost, ← mul_assoc, show (10 : Int) ^ 8 = 1000 * 100000 by norm_num,
      Int.mul_ediv_mul_of_pos_left _ _ (by norm_num)]
  have hFee : 0 ≤ gross * thousandths / 1000 :=
    Int.ediv_nonneg (mul_nonneg hNonneg hRate) (by norm_num)
  have hLe : gross * thousandths / 1000 ≤ gross := by
    apply Int.ediv_le_of_le_mul (by norm_num)
    exact mul_le_mul_of_nonneg_left hSmall hNonneg
  rw [multiplyScaled_units hNonneg (by omega), hUnits, if_pos (hLe.trans hMax)]
  exact ⟨rfl, hFee, hLe⟩

theorem multiplyScaled_makerFee (hGross : IsOperand gross) :
    multiplyScaled gross TradeSettlement.makerFeeRate = .ok (Units.makerFee gross) ∧
      IsOperand (Units.makerFee gross) := by
  obtain ⟨hFee, hNonneg, hLe⟩ :=
    multiplyScaled_rate hGross (show 0 ≤ (5 : Int) by decide) (by decide)
  exact ⟨hFee, hNonneg, hLe.trans hGross.2⟩

theorem multiplyScaled_takerFee (hGross : IsOperand gross) :
    multiplyScaled gross TradeSettlement.takerFeeRate = .ok (Units.takerFee gross) ∧
      IsOperand (Units.takerFee gross) := by
  obtain ⟨hFee, hNonneg, hLe⟩ :=
    multiplyScaled_rate hGross (show 0 ≤ (3 : Int) by decide) (by decide)
  exact ⟨hFee, hNonneg, hLe.trans hGross.2⟩

theorem buildFeeDetails_units (takerSide : OrderSide) (hAmount : IsOperand amount)
    (hPrice : IsOperand price) : TradeSettlement.buildFeeDetails takerSide amount price =
      if Units.cost amount price ≤ decimalMax then .ok (Units.feeDetails takerSide amount price)
      else .error outOfRange := by
  have hNonneg : 0 ≤ Units.cost amount price := cost_nonneg hAmount.1 hPrice.1
  unfold TradeSettlement.buildFeeDetails
  rw [multiplyScaled_units hAmount.1 hPrice.1]
  split_ifs with hFits
  · have hCost : IsOperand (Units.cost amount price) := ⟨hNonneg, hFits⟩
    cases takerSide with
    | buy =>
        simp only [Bind.bind, Except.bind, (multiplyScaled_makerFee hCost).1,
          (multiplyScaled_takerFee hAmount).1]
        rfl
    | sell =>
        simp only [Bind.bind, Except.bind, (multiplyScaled_makerFee hAmount).1,
          (multiplyScaled_takerFee hCost).1]
        rfl
  · rfl

/-- An order whose remainder covers an amount. -/
structure HasRemaining (order : Order) (amount : Int) : Prop where
  amount : 0 ≤ amount ∧ amount ≤ order.remainingAmount
  remaining : order.remainingAmount ≤ decimalMax
  price : IsOperand order.price

theorem buyReservationDebit_units {order : Order} (h : HasRemaining order amount) :
    TradeSettlement.buyReservationDebit order amount =
        (if Units.cost order.remainingAmount order.price ≤
          decimalMax then .ok (Units.debit order amount)
          else .error outOfRange) ∧
      (Units.cost order.remainingAmount order.price ≤ decimalMax →
        IsOperand (Units.debit order amount)) := by
  obtain ⟨⟨hNonneg, hLe⟩, hMax, hPrice⟩ := h
  have hRest := @subtractScaled_units order.remainingAmount amount ⟨hNonneg.trans hLe, hMax⟩
    ⟨hNonneg, hLe.trans hMax⟩
  have hWhole : 0 ≤ Units.cost order.remainingAmount order.price :=
    cost_nonneg (hNonneg.trans hLe) hPrice.1
  have hPart : 0 ≤ Units.cost (order.remainingAmount - amount) order.price :=
    cost_nonneg (by omega) hPrice.1
  have hMono : Units.cost (order.remainingAmount - amount) order.price ≤
      Units.cost order.remainingAmount order.price :=
        cost_mono (by omega) (hNonneg.trans hLe) hPrice.1
  refine ⟨?_, fun hFits => ⟨sub_nonneg.mpr hMono, by unfold Units.debit; omega⟩⟩
  unfold TradeSettlement.buyReservationDebit
  rw [hRest, multiplyScaled_units (hNonneg.trans hLe) hPrice.1]
  split_ifs with hFits
  · have hSub := @subtractScaled_units (Units.cost order.remainingAmount order.price)
      (Units.cost (order.remainingAmount - amount) order.price) ⟨hWhole, hFits⟩
        ⟨hPart, hMono.trans hFits⟩
    simp only [Bind.bind, Except.bind,
      multiplyScaled_units (show 0 ≤ order.remainingAmount - amount by omega)
      hPrice.1, if_pos (hMono.trans hFits), hSub]
    rfl
  · rfl

section Transactions

variable {order : Order} {takerWallet makerWallet : Wallet}

/-- Pay both parties, the taker first. -/
def payBoth (takerWallet makerWallet : Wallet) (updates : BalanceUpdate × BalanceUpdate) :
    Transaction Unit := do
  WalletsRepository.updateBalances takerWallet.userId updates.1
  WalletsRepository.updateBalances makerWallet.userId updates.2

/-- The two products of a settlement are in range. -/
def CostsFit (order : Order) (amount price : Int) : Prop :=
  Units.cost order.remainingAmount order.price ≤ decimalMax ∧ Units.cost amount price ≤ decimalMax

instance (order : Order) (amount price : Int) : Decidable (CostsFit order amount price) :=
  inferInstanceAs (Decidable (_ ∧ _))

theorem applyBuyTakerBalances_units (h : HasRemaining order amount) (hPrice : IsOperand price) :
    TradeSettlement.applyBuyTakerBalances order takerWallet makerWallet amount price =
      if CostsFit order amount price then
        payBoth takerWallet makerWallet (Units.buyTakerUpdates order amount price)
      else .throw outOfRange := by
  obtain ⟨hDebit, hDebitOperand⟩ := buyReservationDebit_units h
  have hAmount : IsOperand amount := ⟨h.amount.1, h.amount.2.trans h.remaining⟩
  have hNonneg : 0 ≤ Units.cost amount price := cost_nonneg hAmount.1 hPrice.1
  have hExecuted := multiplyScaled_units hAmount.1 hPrice.1
  unfold TradeSettlement.applyBuyTakerBalances
  by_cases hReserved : Units.cost order.remainingAmount order.price ≤ decimalMax
  · rw [if_pos hReserved] at hDebit
    by_cases hFits : Units.cost amount price ≤ decimalMax
    · rw [if_pos hFits] at hExecuted
      have hCost : IsOperand (Units.cost amount price) := ⟨hNonneg, hFits⟩
      obtain ⟨hTakerFee, hTakerOperand⟩ := multiplyScaled_takerFee hAmount
      obtain ⟨hMakerFee, hMakerOperand⟩ := multiplyScaled_makerFee hCost
      simp only [hDebit, hExecuted, hTakerFee, hMakerFee,
        subtractScaled_units (hDebitOperand hReserved) hCost,
        subtractScaled_units hAmount hTakerOperand, subtractScaled_units hCost hMakerOperand,
        Program.ofExcept, Program.mk_pure_bind,
        if_pos (show CostsFit order amount price from ⟨hReserved, hFits⟩)]
      rfl
    · rw [if_neg hFits] at hExecuted
      simp only [hDebit, hExecuted, Program.ofExcept, Program.mk_pure_bind, Program.throw_bind,
        if_neg (show ¬CostsFit order amount price from fun hBoth => hFits hBoth.2)]
  · rw [if_neg hReserved] at hDebit
    simp only [hDebit, Program.ofExcept, Program.throw_bind,
      if_neg (show ¬CostsFit order amount price from fun hBoth => hReserved hBoth.1)]

theorem applySellTakerBalances_units (h : HasRemaining order amount) (hPrice : IsOperand price) :
    TradeSettlement.applySellTakerBalances order takerWallet makerWallet amount price =
      if CostsFit order amount price then
        payBoth takerWallet makerWallet (Units.sellTakerUpdates order amount price)
      else .throw outOfRange := by
  obtain ⟨hDebit, hDebitOperand⟩ := buyReservationDebit_units h
  have hAmount : IsOperand amount := ⟨h.amount.1, h.amount.2.trans h.remaining⟩
  have hNonneg : 0 ≤ Units.cost amount price := cost_nonneg hAmount.1 hPrice.1
  have hExecuted := multiplyScaled_units hAmount.1 hPrice.1
  obtain ⟨hMakerFee, hMakerOperand⟩ := multiplyScaled_makerFee hAmount
  unfold TradeSettlement.applySellTakerBalances
  by_cases hFits : Units.cost amount price ≤ decimalMax
  · rw [if_pos hFits] at hExecuted
    have hCost : IsOperand (Units.cost amount price) := ⟨hNonneg, hFits⟩
    obtain ⟨hTakerFee, hTakerOperand⟩ := multiplyScaled_takerFee hCost
    by_cases hReserved : Units.cost order.remainingAmount order.price ≤ decimalMax
    · rw [if_pos hReserved] at hDebit
      simp only [hDebit, hExecuted, hTakerFee, hMakerFee,
        subtractScaled_units (hDebitOperand hReserved) hCost,
        subtractScaled_units hAmount hMakerOperand, subtractScaled_units hCost hTakerOperand,
        Program.ofExcept, Program.mk_pure_bind,
        if_pos (show CostsFit order amount price from ⟨hReserved, hFits⟩)]
      rfl
    · rw [if_neg hReserved] at hDebit
      simp only [hDebit, hExecuted, hTakerFee, hMakerFee,
        subtractScaled_units hAmount hMakerOperand,
        subtractScaled_units hCost hTakerOperand, Program.ofExcept, Program.mk_pure_bind,
        Program.throw_bind, if_neg
          (show ¬CostsFit order amount price from fun hBoth => hReserved hBoth.1)]
  · rw [if_neg hFits] at hExecuted
    simp only [hExecuted, Program.ofExcept, Program.throw_bind,
      if_neg (show ¬CostsFit order amount price from fun hBoth => hFits hBoth.2)]

end Transactions
end Chains

/-- On numbers of at most eight places in range, multiplication is exact up to
the cut after eight places, addition and subtraction are exact, and what is out
of range is refused. The operations on units are these operations, and fees,
net amounts and reservations in settlement are integer arithmetic on units. -/
theorem scaled_arithmetic_exact :
    (∀ left right : Decimal, FitsSchema left → FitsSchema right →
      Calculates (ArithmeticDecimal.multiplyScaled left right)
        (truncateAt (-decimalScale) (left.toRat * right.toRat)) ∧
      Calculates (ArithmeticDecimal.addScaled left right) (left.toRat + right.toRat) ∧
      Calculates (ArithmeticDecimal.subtractScaled left right) (left.toRat - right.toRat)) ∧
    (∀ left right : Int,
      multiplyScaled left right = (ArithmeticDecimal.multiplyScaled (.ofUnits decimalScale left)
        (.ofUnits decimalScale right)).map (Decimal.units decimalScale) ∧
      subtractScaled left right = (ArithmeticDecimal.subtractScaled (.ofUnits decimalScale left)
        (.ofUnits decimalScale right)).map (Decimal.units decimalScale) ∧
      addScaled left right = (ArithmeticDecimal.addScaled (.ofUnits decimalScale left)
        (.ofUnits decimalScale right)).map (Decimal.units decimalScale)) ∧
    ∀ amount price : Int, IsOperand amount → IsOperand price →
      (∀ takerSide, TradeSettlement.buildFeeDetails takerSide amount price =
        if Units.cost amount price ≤ decimalMax then .ok (Units.feeDetails takerSide amount price)
        else .error outOfRange) ∧
      ∀ order takerWallet makerWallet, HasRemaining order amount →
        TradeSettlement.applyBuyTakerBalances order takerWallet makerWallet amount price =
          (if CostsFit order amount price then
            payBoth takerWallet makerWallet (Units.buyTakerUpdates order amount price)
          else .throw outOfRange) ∧
        TradeSettlement.applySellTakerBalances order takerWallet makerWallet amount price =
          (if CostsFit order amount price then
            payBoth takerWallet makerWallet (Units.sellTakerUpdates order amount price)
          else .throw outOfRange) := by
  refine ⟨fun left right hLeft hRight => ?_, scaled_ofUnits, fun amount price hAmount hPrice => ?_⟩
  · exact ⟨multiplyScaled_calculates left right, addScaled_calculates hLeft.places hRight.places,
      subtractScaled_calculates hLeft.places hRight.places⟩
  · exact ⟨fun takerSide => buildFeeDetails_units takerSide hAmount hPrice,
      fun order takerWallet makerWallet hRemaining =>
        ⟨applyBuyTakerBalances_units hRemaining hPrice,
          applySellTakerBalances_units hRemaining hPrice⟩⟩

/-- Half a unit at a price of three, written with the fewest digits. -/
theorem scaled_arithmetic_exact_sample :
    (∃ result, ArithmeticDecimal.multiplyScaled ⟨5, -1⟩ ⟨3, 0⟩ = .ok result ∧
      result.toRat = 3 / 2) ∧
    TradeSettlement.buildFeeDetails .buy 50000000 300000000 =
      .ok ⟨500000, 750000, .usd, 300000, 150000, .btc⟩ := by
  obtain ⟨hDecimals, _, hUnits⟩ := scaled_arithmetic_exact
  have hAmount : FitsSchema ⟨5, -1⟩ :=
    ⟨by decide, by norm_num [Decimal.toRat, maxValue, decimalMax, one]⟩
  have hPrice : FitsSchema ⟨3, 0⟩ :=
    ⟨by decide, by norm_num [Decimal.toRat, maxValue, decimalMax, one]⟩
  have hProduct : truncateAt (-decimalScale) (Decimal.toRat ⟨5, -1⟩ * Decimal.toRat ⟨3, 0⟩) =
      3 / 2 := by
    have hCut := truncateAt_mul_zpow (-decimalScale) 150000000
    norm_num [decimalScale] at hCut
    norm_num [decimalScale, Decimal.toRat, hCut]
  obtain ⟨hMultiplied, _⟩ := hDecimals _ _ hAmount hPrice
  rw [hProduct] at hMultiplied
  obtain ⟨result, hResult, _, hValue⟩ :=
    hMultiplied.returns (by norm_num [maxValue, decimalMax, one])
  obtain ⟨hFees, _⟩ := hUnits 50000000 300000000 ⟨by decide, by decide⟩
    ⟨by decide, by decide⟩
  exact ⟨⟨result, hResult, hValue⟩, hFees .buy⟩

end ExchangeMatching
