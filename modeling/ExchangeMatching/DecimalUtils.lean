import ExchangeMatching.Library.Decimal
import ExchangeMatching.Library.FloorProduct

/-! Monetary arithmetic of the backend. Stored amounts, prices and balances
are counted in units of 0.00000001; every operation passes through decimals of
56 significant digits, a cut after eight places and a range check. -/
namespace ExchangeMatching

open DecimalArithmetic FloorProduct

/-- Why a call ends without an effect: an exception of the services, a
constraint of the database, or a search loop cut short by its fuel. -/
inductive Failure where
  | badRequest (message : String)
  | notFound (message : String)
  | recordNotFound
  | checkViolation (constraint : String)
  | numericOverflow (column : String)
  | uniqueViolation (constraint : String)
  | fuelExhausted
deriving DecidableEq, Repr

def decimalPrecision : Nat := 28
def decimalScale : Nat := 8

/-- The number 1, in units. -/
def one : Int := 10 ^ 8

/-- `DECIMAL_MAX`, 99999999999999999999.99999999, in units. -/
def decimalMax : Int := 10 ^ 28 - 1

/-- What the decimal constructor makes of an input. -/
inductive DecimalValue where
  | nonFinite
  | finite (value : Decimal)
deriving DecidableEq, Repr

def assertDecimalFitsSchema (value : DecimalValue) (fieldName : String) : Except Failure Unit :=
  match value with
  | .nonFinite => .error (.badRequest (fieldName ++ " must be a valid decimal"))
  | .finite value =>
      if value.decimalPlaces > decimalScale then
        .error (.badRequest (fieldName ++ " must have at most 8 decimal places"))
      else if value.abs.gt (.ofUnits decimalScale decimalMax) then
        .error (.badRequest (fieldName ++ " must fit within DECIMAL(28,8)"))
      else .ok ()

def toScaledDecimal (value : Decimal) : Except Failure Decimal := do
  let scaled := value.toDecimalPlaces decimalScale
  assertDecimalFitsSchema (.finite scaled) "Calculated value"
  return scaled

def multiplyScaled (left right : Int) : Except Failure Int :=
  (toScaledDecimal (.mul (decimalPrecision * 2) (.ofUnits decimalScale left)
    (.ofUnits decimalScale right))).map (Decimal.units decimalScale)

def subtractScaled (left right : Int) : Except Failure Int :=
  (toScaledDecimal (.sub (decimalPrecision * 2) (.ofUnits decimalScale left)
    (.ofUnits decimalScale right))).map (Decimal.units decimalScale)

def addScaled (left right : Int) : Except Failure Int :=
  (toScaledDecimal (.add (decimalPrecision * 2) (.ofUnits decimalScale left)
    (.ofUnits decimalScale right))).map (Decimal.units decimalScale)

def assertPositiveOrderCost (amount price : Int) : Except Failure Int := do
  let cost ← multiplyScaled amount price
  if cost ≤ 0 then
    .error (.badRequest "Order cost must be at least 0.00000001 USD")
  else return cost

/-- The characters that `String.prototype.trim` removes. -/
def isTrimmed (c : Char) : Bool :=
  c.val ∈ [0x9, 0xA, 0xB, 0xC, 0xD, 0x20, 0xA0, 0x1680, 0x2000, 0x2001, 0x2002, 0x2003, 0x2004,
    0x2005, 0x2006, 0x2007, 0x2008, 0x2009, 0x200A, 0x2028, 0x2029, 0x202F, 0x205F, 0x3000, 0xFEFF]

def trim (value : String) : String :=
  .ofList (((value.toList.dropWhile isTrimmed).reverse.dropWhile isTrimmed).reverse)

/-- `newDecimal` is the constructor of the decimal package: it throws
(`none`), or returns NaN, an infinity or a number. -/
def parsePositiveDecimalInput (newDecimal : String → Option DecimalValue)
    (value fieldName : String) :
    Except Failure Decimal :=
  let normalizedValue := trim value
  if normalizedValue = "" then
    .error (.badRequest (fieldName ++ " must be a non-empty string"))
  else
    match newDecimal normalizedValue with
    | none => .error (.badRequest (fieldName ++ " must be a valid decimal"))
    | some .nonFinite => .error (.badRequest (fieldName ++ " must be a valid decimal"))
    | some (.finite parsedValue) =>
        if parsedValue.lte ⟨0, 0⟩ then
          .error (.badRequest (fieldName ++ " must be greater than zero"))
        else do
          assertDecimalFitsSchema (.finite parsedValue) fieldName
          return parsedValue

/-- The units that a column stores for a decimal of at most eight places. -/
def columnUnits (value : Decimal) : Int := (value.toDecimalPlaces decimalScale).units decimalScale

/-- `floor8(amount * price)`, in units. -/
def cost (amount price : Int) : Int := floorProduct one amount price

theorem one_pos : 0 < one := by decide

theorem bind_eq_ok {Value Result : Type} {computation : Except Failure Value}
    {next : Value → Except Failure Result} {result : Result} :
    (computation >>= next) = .ok result ↔
    ∃ value, computation = .ok value ∧ next value = .ok result := by
  cases computation with
  | error failure => simp [Bind.bind, Except.bind]
  | ok value => simp [Bind.bind, Except.bind]

theorem check_bind_eq_ok {Result : Type} {check : Except Failure Unit}
    {next : Unit → Except Failure Result} {result : Result} :
    (check >>= next) = .ok result ↔ check = .ok () ∧ next () = .ok result := by
  rw [bind_eq_ok]
  exact ⟨fun ⟨_, hCheck, hNext⟩ => ⟨hCheck, hNext⟩, fun ⟨hCheck, hNext⟩ =>
    ⟨(), hCheck, hNext⟩⟩

/-- A number of units passes the schema check when it fits the column. -/
theorem assertDecimalFitsSchema_ofUnits {value : Int} {fieldName : String} :
    assertDecimalFitsSchema (.finite (.ofUnits decimalScale value)) fieldName = .ok () ↔
      value.natAbs ≤ decimalMax := by
  have hExponent : -(decimalScale : Int) ≤ (Decimal.ofUnits decimalScale value).exponent :=
    le_refl _
  have hPlaces : ¬(Decimal.ofUnits decimalScale value).decimalPlaces > decimalScale :=
    not_lt.mpr (Decimal.decimalPlaces_le hExponent)
  unfold assertDecimalFitsSchema
  simp only [hPlaces, if_false, Decimal.gt_abs_ofUnits hExponent, Decimal.units_ofUnits,
    decide_eq_true_eq]
  split_ifs with hRange
  · simp only [false_iff]
    exact not_le.mpr hRange
  · simpa using hRange

/-- A calculated value is kept when it fits the schema and refused otherwise. -/
def calculated (value : Int) : Except Failure Int :=
  if decimalMax < value.natAbs then
    .error (.badRequest "Calculated value must fit within DECIMAL(28,8)")
  else .ok value

theorem calculated_eq_ok {value result : Int} :
    calculated value = .ok result ↔ result = value ∧ value.natAbs ≤ decimalMax := by
  unfold calculated
  split_ifs with h
  · simp only [false_iff, not_and]
    exact fun _ => not_le.mpr h
  · simp only [Except.ok.injEq, not_lt.mp h, and_true]
    exact eq_comm

private theorem toScaledDecimal_eq (value : Decimal) :
    (toScaledDecimal value).map (Decimal.units decimalScale) = calculated (columnUnits value) := by
  have hExponent := Decimal.exponent_toDecimalPlaces decimalScale value
  have hPlaces : ¬(value.toDecimalPlaces decimalScale).decimalPlaces > decimalScale :=
    Nat.not_lt.mpr (Decimal.decimalPlaces_le hExponent)
  unfold toScaledDecimal assertDecimalFitsSchema calculated columnUnits
  simp only [hPlaces, if_false, Decimal.gt_abs_ofUnits hExponent, decide_eq_true_eq]
  split_ifs <;> rfl

/-- Rounding to 56 digits before the cut after eight places is harmless: an
operand wide enough to lose digits is refused by the range check anyway. -/
private theorem calculated_roundDown (below : Nat) (hBelow : below ≤ 16) (units : Int) :
    calculated (columnUnits (.roundDown (decimalPrecision * 2) ⟨units, -(8 + below : Nat)⟩)) =
      calculated (units.tdiv (10 ^ below)) := by
  unfold columnUnits
  by_cases hWide : units.natAbs < 10 ^ (decimalPrecision * 2)
  · exact congrArg calculated (Decimal.units_toDecimalPlaces_roundDown decimalScale below hWide)
  · have hLarge := Nat.not_lt.mp hWide
    have hRounded := Decimal.le_units_toDecimalPlaces_roundDown decimalScale (by decide)
      (show below ≤ decimalPrecision * 2 by unfold decimalPrecision; omega) hLarge
    have hPower : 10 ^ 40 ≤ 10 ^ (decimalPrecision * 2 - below) :=
      Nat.pow_le_pow_right (by omega) (by unfold decimalPrecision; omega)
    have hExact : 10 ^ (decimalPrecision * 2 - below) ≤ (units.tdiv (10 ^ below)).natAbs := by
      rw [Int.natAbs_tdiv, Int.natAbs_pow]
      change _ ≤ units.natAbs / 10 ^ below
      rw [Nat.le_div_iff_mul_le (Nat.pow_pos (by omega)), ← pow_add, Nat.sub_add_cancel
        (by unfold decimalPrecision; omega)]
      exact hLarge
    have hOverflow : ∀ value : Int, 10 ^ 40 ≤ value.natAbs → calculated value =
        .error (.badRequest "Calculated value must fit within DECIMAL(28,8)") := by
      intro value hValue
      have hMax : decimalMax < 10 ^ 40 := by decide
      exact if_pos (hMax.trans_le (by exact_mod_cast hValue))
    rw [hOverflow _ (hPower.trans hExact)]
    exact hOverflow _ (hPower.trans hRounded)

theorem multiplyScaled_eq (left right : Int) :
    multiplyScaled left right = calculated ((left * right).tdiv one) := by
  unfold multiplyScaled
  rw [toScaledDecimal_eq]
  exact calculated_roundDown 8 (by omega) (left * right)

theorem subtractScaled_eq (left right : Int) :
    subtractScaled left right = calculated (left - right) := by
  unfold subtractScaled Decimal.sub
  rw [toScaledDecimal_eq, Decimal.align_ofUnits]
  simpa [Decimal.ofUnits, decimalScale] using calculated_roundDown 0 (by omega) (left - right)

theorem addScaled_eq (left right : Int) :
    addScaled left right = calculated (left + right) := by
  unfold addScaled Decimal.add
  rw [toScaledDecimal_eq, Decimal.align_ofUnits]
  simpa [Decimal.ofUnits, decimalScale] using calculated_roundDown 0 (by omega) (left + right)

theorem subtractScaled_eq_ok {left right result : Int} :
    subtractScaled left right = .ok result ↔
      result = left - right ∧ (left - right).natAbs ≤ decimalMax := by
  rw [subtractScaled_eq, calculated_eq_ok]

theorem addScaled_eq_ok {left right result : Int} :
    addScaled left right = .ok result ↔
      result = left + right ∧ (left + right).natAbs ≤ decimalMax := by
  rw [addScaled_eq, calculated_eq_ok]

/-- On nonnegative operands multiplication is `cost`, within the range. -/
theorem multiplyScaled_eq_ok {left right result : Int} (hLeft : 0 ≤ left) (hRight : 0 ≤ right) :
    multiplyScaled left right = .ok result ↔
    result = cost left right ∧ cost left right ≤ decimalMax := by
  have hNonneg := floorProduct_nonneg one_pos.le hLeft hRight
  rw [multiplyScaled_eq, tdiv_eq_floorProduct hLeft hRight, calculated_eq_ok, cost]
  have hAbs : ((floorProduct one left right).natAbs : Int) = floorProduct one left right :=
    Int.natAbs_of_nonneg hNonneg
  rw [hAbs]

theorem assertPositiveOrderCost_eq_ok {amount price result : Int} (hAmount : 0 ≤ amount)
    (hPrice : 0 ≤ price) :
    assertPositiveOrderCost amount price = .ok result ↔
      result = cost amount price ∧ 0 < cost amount price ∧ cost amount price ≤ decimalMax := by
  unfold assertPositiveOrderCost
  cases h : multiplyScaled amount price with
  | error failure =>
      have hWide : ¬cost amount price ≤ decimalMax := fun hLe => by
        rw [(multiplyScaled_eq_ok hAmount hPrice).mpr ⟨rfl, hLe⟩] at h
        cases h
      simp only [Bind.bind, Except.bind, reduceCtorEq, hWide, and_false]
  | ok value =>
      obtain ⟨rfl, hLe⟩ := (multiplyScaled_eq_ok hAmount hPrice).mp h
      simp only [Bind.bind, Except.bind]
      split_ifs with hZero
      · simp [Int.not_lt.mpr hZero]
      · simp [Int.not_le.mp hZero, hLe, eq_comm, pure, Except.pure]

/-- An accepted input is stored exactly, as a positive value in range. -/
theorem parsePositiveDecimalInput_eq_ok {newDecimal : String → Option DecimalValue}
    {value fieldName : String} {parsed : Decimal}
    (h : parsePositiveDecimalInput newDecimal value fieldName = .ok parsed) :
    0 < columnUnits parsed ∧ columnUnits parsed ≤ decimalMax := by
  unfold parsePositiveDecimalInput at h
  dsimp only at h
  split_ifs at h with hEmpty
  split at h
  · cases h
  · cases h
  · next candidate _ =>
    split_ifs at h with hPositive
    unfold assertDecimalFitsSchema at h
    dsimp only at h
    split_ifs at h with hPlaces hRange
    · cases h
    · cases h
    · cases h
      have hFew := Nat.not_lt.mp hPlaces
      rw [Decimal.lte_zero_eq hFew, decide_eq_true_eq] at hPositive
      rw [Decimal.gt_abs_ofUnits_of_decimalPlaces_le hFew, decide_eq_true_eq] at hRange
      rw [Int.natAbs_of_nonneg (not_le.mp hPositive).le] at hRange
      exact ⟨not_le.mp hPositive, not_lt.mp hRange⟩

section Cost

variable {amount part price limit : Int}

@[simp] theorem cost_zero (price : Int) : cost 0 price = 0 := floorProduct_zero_left price

theorem cost_nonneg (hAmount : 0 ≤ amount) (hPrice : 0 ≤ price) : 0 ≤ cost amount price :=
  floorProduct_nonneg one_pos.le hAmount hPrice

theorem cost_mono (hPart : part ≤ amount) (hAmount : 0 ≤ amount) (hPrice : 0 ≤ price) :
    cost part price ≤ cost amount price :=
  floorProduct_mono one_pos hPart (le_refl price) hAmount hPrice

/-- The reservation that a fill releases covers its cost at any price up to
the limit. -/
theorem cost_le_debit (hPart : 0 ≤ part) (hPrice : 0 ≤ price) (hLimit : price ≤ limit) :
    cost part price ≤ cost amount limit - cost (amount - part) limit :=
  floorProduct_le_sub one_pos hPart hPrice hLimit

end Cost
end ExchangeMatching
