import ExchangeMatching.Library.Numeral
import ExchangeMatching.Orders
import Mathlib.Data.List.TakeWhile

/-! The order form of the frontend. It checks amount and price, and their
product, with decimal arithmetic of its own; the backend checks them again. The
two agree on every order. -/
namespace ExchangeMatching

open DecimalArithmetic FloorProduct

/-- What the decimal constructor of the form returns. -/
inductive FormDecimal where
  | nan
  | infinite (negative : Bool)
  | finite (value : Decimal)
deriving DecidableEq, Repr

namespace FormDecimal

def isFinite : FormDecimal → Bool
  | .finite _ => true
  | _ => false

def abs : FormDecimal → FormDecimal
  | .nan => .nan
  | .infinite _ => .infinite false
  | .finite value => .finite value.abs

def gt : FormDecimal → Decimal → Bool
  | .nan, _ => false
  | .infinite negative, _ => !negative
  | .finite value, bound => value.gt bound

def lte : FormDecimal → Decimal → Bool
  | .nan, _ => false
  | .infinite negative, _ => negative
  | .finite value, bound => value.lte bound

/-- Not a number unless the value is finite. -/
def decimalPlaces : FormDecimal → Option Nat
  | .finite value => some value.decimalPlaces
  | _ => none

def mul (precision : Nat) : FormDecimal → FormDecimal → FormDecimal
  | .nan, _ => .nan
  | _, .nan => .nan
  | .infinite left, .infinite right => .infinite (left != right)
  | .infinite negative, .finite value =>
      if value.mantissa = 0 then .nan else .infinite (negative != decide (value.mantissa < 0))
  | .finite value, .infinite negative =>
      if value.mantissa = 0 then .nan else .infinite (negative != decide (value.mantissa < 0))
  | .finite left, .finite right => .finite (left.mul precision right)

def toFixed (places : Nat) : FormDecimal → String
  | .nan => "NaN"
  | .infinite negative => if negative then "-Infinity" else "Infinity"
  | .finite value => value.toFixed places

end FormDecimal

namespace OrderForm

/-- A message of the form, and the field that shows it. -/
structure Issue where
  path : String
  message : String
deriving DecidableEq, Repr

structure OrderFormValues where
  amount : String
  price : String
deriving DecidableEq, Repr

/-- What a field keeps of what is typed into it. -/
def sanitizeDecimalInput (value : String) : String :=
  let normalizedValue := value.toList.filter fun c => c.isDigit || c = '.'
  let integerPart := normalizedValue.takeWhile (· ≠ '.')
  match normalizedValue.dropWhile (· ≠ '.') with
  | [] => .ofList integerPart
  | _ :: fractionParts =>
      let normalizedIntegerPart := if integerPart = [] then ['0'] else integerPart
      .ofList (normalizedIntegerPart ++ '.' :: (fractionParts.filter (· ≠ '.')).take decimalScale)

def decimalPattern (value : String) : Bool := Numeral.matchesPattern decimalScale value.toList

section Schema

variable (construct : String → Option FormDecimal)

/-- What the decimal constructor throws on counts as zero. -/
def parseDecimal (value : String) : FormDecimal :=
  if value = "" then .finite ⟨0, 0⟩ else (construct value).getD (.finite ⟨0, 0⟩)

def multiplyDecimals (left right : String) : String :=
  ((parseDecimal construct left).mul (decimalPrecision * 2) (parseDecimal construct right)).toFixed
    decimalScale

def decimalFitsSchema (value : String) : Bool :=
  match construct value with
  | none => false
  | some decimal =>
      decimal.isFinite && decimal.abs.lte (.ofUnits decimalScale decimalMax) &&
        decimal.decimalPlaces.any (· ≤ decimalScale)

/-- All checks of a field are made, also after one has failed. -/
def decimalString (path fieldName value : String) : List Issue :=
  (if value.length < 1 then [⟨path, fieldName ++ " is required"⟩] else []) ++
  (if decimalPattern value then []
    else [⟨path, fieldName ++ " must be a valid decimal with up to 8 places"⟩]) ++
  (if decimalFitsSchema construct value then []
    else [⟨path, fieldName ++ " must fit within DECIMAL(28,8)"⟩]) ++
  (if (parseDecimal construct value).gt ⟨0, 0⟩ then []
    else [⟨path, fieldName ++ " must be greater than zero"⟩])

/-- The check of the product. -/
def refineCost (amount price : String) : List Issue :=
  if !decimalPattern amount || !decimalPattern price || !decimalFitsSchema construct amount ||
      !decimalFitsSchema construct price then []
  else
    let cost := multiplyDecimals construct amount price
    if (parseDecimal construct cost).lte ⟨0, 0⟩ then
      [⟨"price", "Order cost must be at least 0.00000001 USD"⟩]
    else if decimalFitsSchema construct cost then []
    else [⟨"price", "Order cost must fit within DECIMAL(28,8)"⟩]

def orderFormSchema (amount price : String) : Except (List Issue) OrderFormValues :=
  let values : OrderFormValues := ⟨trim amount, trim price⟩
  let issues := decimalString construct "amount" "Amount" values.amount ++
    decimalString construct "price" "Price" values.price ++
    refineCost construct values.amount values.price
  if issues = [] then .ok values else .error issues

end Schema

section Agreement

/-- The string is a numeral for this number of units. -/
def Denotes (string : String) (units : Int) : Prop :=
  ∃ numeral : Numeral, string = .ofList numeral.chars ∧
    units * 10 ^ numeral.fraction.length = numeral.mantissa * 10 ^ decimalScale

/-- A numeral with all eight places. -/
def printUnits (units : Int) : String := .ofList (Numeral.ofUnits decimalScale units.toNat).chars

variable {numeral : Numeral} (hPlaces : numeral.fraction.length ≤ decimalScale)

/-- A numeral is stored with the digits of the column, the rest being cut off. -/
theorem columnUnits_value (numeral : Numeral) : columnUnits numeral.value =
    ((numeral.mantissa * 10 ^ decimalScale / 10 ^ numeral.fraction.length : Nat) : Int) :=
  Decimal.units_toDecimalPlaces decimalScale numeral.mantissa numeral.fraction.length

/-- Numerals have no sign. -/
theorem columnUnits_nonneg (numeral : Numeral) : 0 ≤ columnUnits numeral.value := by
  rw [columnUnits_value]
  exact Int.natCast_nonneg _

/-- What is printed from a column is stored as it was. -/
theorem columnUnits_ofUnits (units : Nat) :
    columnUnits (Numeral.ofUnits decimalScale units).value = units := by
  have hExponent : -(decimalScale : Int) ≤ (Decimal.ofUnits decimalScale units).exponent :=
    le_refl _
  rw [Numeral.value_ofUnits, columnUnits, Decimal.toDecimalPlaces, if_pos hExponent,
    Decimal.units_ofUnits]

include hPlaces

/-- No digit of the numeral is below a unit. -/
theorem columnUnits_mul : columnUnits numeral.value * 10 ^ numeral.fraction.length =
    numeral.mantissa * 10 ^ decimalScale := by
  have hDvd : 10 ^ numeral.fraction.length ∣ numeral.mantissa * 10 ^ decimalScale :=
    (Nat.pow_dvd_pow 10 hPlaces).mul_left _
  rw [columnUnits_value]
  exact_mod_cast Nat.div_mul_cancel hDvd

/-- The text of a numeral denotes its units. -/
theorem denotes_columnUnits : Denotes (.ofList numeral.chars) (columnUnits numeral.value) :=
  ⟨numeral, rfl, columnUnits_mul hPlaces⟩

/-- Leading zeros do not count. -/
theorem mantissa_lt (hMax : columnUnits numeral.value ≤ decimalMax) :
    numeral.mantissa < 10 ^ decimalPrecision := by
  have hUnits := columnUnits_mul hPlaces
  have hPower : (10 : Int) ^ numeral.fraction.length ≤ 10 ^ decimalScale :=
    pow_le_pow_right₀ (by omega) hPlaces
  have hScale : (0 : Int) < 10 ^ decimalScale := by decide
  have hLe : (numeral.mantissa : Int) ≤ columnUnits numeral.value := by
    apply le_of_mul_le_mul_right _ hScale
    rw [← hUnits]
    exact mul_le_mul_of_nonneg_left hPower (columnUnits_nonneg numeral)
  have hBound : decimalMax < 10 ^ decimalPrecision := by decide
  exact_mod_cast hLe.trans_lt (hMax.trans_lt hBound)

/-- Trailing zeros do not count as places, so a numeral has at most as many as
digits after its point. -/
theorem decimalPlaces_value : numeral.value.decimalPlaces ≤ decimalScale :=
  Decimal.decimalPlaces_le (neg_le_neg (Int.ofNat_le.mpr hPlaces))

omit hPlaces in
/-- The product of two mantissas, cut after eight places, is the cost. -/
theorem cut_product {amount price : Numeral} (hAmount : amount.fraction.length ≤ decimalScale)
    (hPrice : price.fraction.length ≤ decimalScale) :
    amount.mantissa * price.mantissa * 10 ^ decimalScale /
        10 ^ (amount.fraction.length + price.fraction.length) =
      (cost (columnUnits amount.value) (columnUnits price.value)).toNat := by
  have hAmountUnits := columnUnits_mul hAmount
  have hPriceUnits := columnUnits_mul hPrice
  obtain ⟨amountUnits, hA⟩ := Int.eq_ofNat_of_zero_le (columnUnits_nonneg amount)
  obtain ⟨priceUnits, hP⟩ := Int.eq_ofNat_of_zero_le (columnUnits_nonneg price)
  rw [hA] at hAmountUnits
  rw [hP] at hPriceUnits
  have hA' : amountUnits * 10 ^ amount.fraction.length = amount.mantissa * 10 ^ decimalScale := by
    exact_mod_cast hAmountUnits
  have hP' : priceUnits * 10 ^ price.fraction.length = price.mantissa * 10 ^ decimalScale := by
    exact_mod_cast hPriceUnits
  have hCost : cost (amountUnits : Int) priceUnits =
      (amountUnits * priceUnits / 10 ^ decimalScale : Nat) := by
    rw [cost, floorProduct, one]
    push_cast
    rfl
  have hWide : amount.mantissa * price.mantissa * 10 ^ decimalScale * 10 ^ decimalScale =
      amountUnits * priceUnits * 10 ^ (amount.fraction.length + price.fraction.length) := by
    calc
      _ = (amount.mantissa * 10 ^ decimalScale) * (price.mantissa * 10 ^ decimalScale) := by ring
      _ = (amountUnits * 10 ^ amount.fraction.length) *
        (priceUnits * 10 ^ price.fraction.length) := by
        rw [hA', hP']
      _ = _ := by ring
  rw [hA, hP, hCost, Int.toNat_natCast,
    ← Nat.mul_div_mul_right (amount.mantissa * price.mantissa * 10 ^ decimalScale) _
      (show 0 < 10 ^ decimalScale by decide), hWide, mul_comm (10 ^ _) (10 ^ decimalScale),
    Nat.mul_div_mul_right _ _ (Nat.pow_pos (by omega))]

end Agreement

/-- A positive numeral that fits the schema. -/
structure IsValid (numeral : Numeral) : Prop where
  places : numeral.fraction.length ≤ decimalScale
  positive : 0 < columnUnits numeral.value
  fits : columnUnits numeral.value ≤ decimalMax

/-- What both sides ask of an order. -/
structure IsOrder (amount price : Numeral) : Prop where
  validAmount : IsValid amount
  validPrice : IsValid price
  positive : 0 < cost (columnUnits amount.value) (columnUnits price.value)
  fits : cost (columnUnits amount.value) (columnUnits price.value) ≤ decimalMax

/-- Numerals are read exactly. -/
def ReadsNumerals {Number : Type} (construct : String → Option Number) (finite : Decimal → Number) :
    Prop :=
  ∀ numeral : Numeral, construct (.ofList numeral.chars) = some (finite numeral.value)

/-- A numeral has at least one digit. -/
theorem ofList_chars_ne_empty (numeral : Numeral) : String.ofList numeral.chars ≠ "" := by
  intro hEmpty
  have hNil := congrArg String.toList hEmpty
  rw [String.toList_ofList] at hNil
  exact numeral.chars_ne_nil hNil

section Form

variable {construct : String → Option FormDecimal} (hReads : ReadsNumerals construct .finite)

include hReads

/-- The constructor reads the text of a numeral as its value. -/
theorem parseDecimal_chars (numeral : Numeral) :
    parseDecimal construct (.ofList numeral.chars) = .finite numeral.value := by
  rw [parseDecimal, if_neg (ofList_chars_ne_empty numeral), hReads, Option.getD_some]

/-- For a numeral with few enough places, the schema checks only the largest value. -/
theorem decimalFitsSchema_chars {numeral : Numeral}
    (hPlaces : numeral.fraction.length ≤ decimalScale) :
    decimalFitsSchema construct (.ofList numeral.chars) =
      decide (columnUnits numeral.value ≤ decimalMax) := by
  have hFew := decimalPlaces_value hPlaces
  have hAbs : ((columnUnits numeral.value).natAbs : Int) = columnUnits numeral.value :=
    Int.natAbs_of_nonneg (columnUnits_nonneg numeral)
  have hGt := Decimal.gt_abs_ofUnits_of_decimalPlaces_le hFew decimalMax
  rw [Decimal.gt_eq_not_lte, ← columnUnits, hAbs, Bool.not_eq_eq_eq_not, ← decide_not] at hGt
  simp only [not_lt] at hGt
  simp only [decimalFitsSchema, hReads numeral, FormDecimal.isFinite, FormDecimal.abs,
    FormDecimal.lte, FormDecimal.decimalPlaces, Option.any_some, hGt, hFew, decide_true,
    Bool.true_and, Bool.and_true]

/-- Comparing with zero is comparing units. -/
theorem lte_zero_chars {numeral : Numeral} (hPlaces : numeral.fraction.length ≤ decimalScale) :
    (parseDecimal construct (.ofList numeral.chars)).lte ⟨0, 0⟩ =
      decide (columnUnits numeral.value ≤ 0) := by
  rw [parseDecimal_chars hReads, FormDecimal.lte, Decimal.lte_zero_eq (decimalPlaces_value hPlaces),
    ← columnUnits]

/-- In both directions. -/
theorem gt_zero_chars {numeral : Numeral} (hPlaces : numeral.fraction.length ≤ decimalScale) :
    (parseDecimal construct (.ofList numeral.chars)).gt ⟨0, 0⟩ =
      decide (0 < columnUnits numeral.value) := by
  have hLte := lte_zero_chars hReads hPlaces
  rw [parseDecimal_chars hReads, FormDecimal.lte] at hLte
  rw [parseDecimal_chars hReads, FormDecimal.gt, Decimal.gt_eq_not_lte, hLte, ← decide_not]
  exact decide_eq_decide.mpr not_le

/-- A field is accepted when it is a positive numeral that fits the schema. -/
theorem decimalString_eq_nil {path fieldName value : String} :
    decimalString construct path fieldName value = [] ↔
      ∃ numeral : Numeral, value = .ofList numeral.chars ∧ IsValid numeral := by
  have hNil : ∀ (accepted : Bool) (issue : Issue),
      (if accepted then [] else [issue]) = [] ↔ accepted = true := by simp
  simp only [decimalString, List.append_eq_nil_iff, hNil]
  constructor
  · rintro ⟨⟨⟨_, hPattern⟩, hFits⟩, hPositive⟩
    obtain ⟨numeral, hChars, hPlaces⟩ := Numeral.exists_of_matchesPattern hPattern
    have hValue : value = .ofList numeral.chars := by rw [hChars, String.ofList_toList]
    rw [hValue, decimalFitsSchema_chars hReads hPlaces, decide_eq_true_eq] at hFits
    rw [hValue, gt_zero_chars hReads hPlaces, decide_eq_true_eq] at hPositive
    exact ⟨numeral, hValue, ⟨hPlaces, hPositive, hFits⟩⟩
  · rintro ⟨numeral, rfl, hPlaces, hPositive, hFits⟩
    refine ⟨⟨⟨?_, ?_⟩, ?_⟩, ?_⟩
    · have hLength : ¬(String.ofList numeral.chars).length < 1 := by
        rw [String.length_ofList, Nat.not_lt]
        exact List.length_pos_iff.mpr numeral.chars_ne_nil
      rw [if_neg hLength]
    · rw [decimalPattern, String.toList_ofList]
      exact Numeral.matchesPattern_chars numeral hPlaces
    · rw [decimalFitsSchema_chars hReads hPlaces]
      exact decide_eq_true hFits
    · rw [gt_zero_chars hReads hPlaces]
      exact decide_eq_true hPositive

variable {amount price : Numeral}

/-- The product of two accepted fields is printed as their cost. -/
theorem multiplyDecimals_chars (hAmount : IsValid amount) (hPrice : IsValid price) :
    multiplyDecimals construct (.ofList amount.chars) (.ofList price.chars) =
      printUnits (cost (columnUnits amount.value) (columnUnits price.value)) := by
  have hAmountMantissa := mantissa_lt hAmount.places hAmount.fits
  have hPriceMantissa := mantissa_lt hPrice.places hPrice.fits
  have hProduct : amount.mantissa * price.mantissa < 10 ^ (decimalPrecision * 2) :=
    calc
      amount.mantissa * price.mantissa < 10 ^ decimalPrecision * 10 ^ decimalPrecision :=
        Nat.mul_lt_mul'' hAmountMantissa hPriceMantissa
      _ = 10 ^ (decimalPrecision * 2) := by rw [mul_two, pow_add]
  have hMul : Decimal.mul (decimalPrecision * 2) amount.value price.value =
      ⟨(amount.mantissa * price.mantissa : Nat),
        -(amount.fraction.length + price.fraction.length : Nat)⟩ := by
    rw [Decimal.mul, Numeral.value, Numeral.value]
    dsimp only
    rw [← Nat.cast_mul, Decimal.roundDown_of_lt (by rwa [Int.natAbs_natCast]), Nat.cast_add,
      neg_add]
  rw [multiplyDecimals, parseDecimal_chars hReads, parseDecimal_chars hReads, FormDecimal.mul,
    FormDecimal.toFixed, hMul, Decimal.toFixed_of_nonneg (Int.natCast_nonneg _),
    Decimal.units_toDecimalPlaces, Int.natAbs_natCast,
    cut_product hAmount.places hPrice.places]
  rfl

/-- The form accepts a cost exactly if it is positive and fits its column, as the
backend does. -/
theorem refineCost_eq_nil (hAmount : IsValid amount) (hPrice : IsValid price) :
    refineCost construct (.ofList amount.chars) (.ofList price.chars) = [] ↔
      0 < cost (columnUnits amount.value) (columnUnits price.value) ∧
      cost (columnUnits amount.value) (columnUnits price.value) ≤ decimalMax := by
  have hMatches : ∀ {numeral : Numeral}, IsValid numeral →
      decimalPattern (.ofList numeral.chars) = true := by
    intro numeral hValid
    rw [decimalPattern, String.toList_ofList]
    exact Numeral.matchesPattern_chars numeral hValid.places
  have hFits : ∀ {numeral : Numeral}, IsValid numeral →
      decimalFitsSchema construct (.ofList numeral.chars) = true := by
    intro numeral hValid
    rw [decimalFitsSchema_chars hReads hValid.places]
    exact decide_eq_true hValid.fits
  have hNonneg : 0 ≤ cost (columnUnits amount.value) (columnUnits price.value) :=
    cost_nonneg (columnUnits_nonneg amount) (columnUnits_nonneg price)
  rw [refineCost, hMatches hAmount, hMatches hPrice, hFits hAmount, hFits hPrice,
    multiplyDecimals_chars hReads hAmount hPrice]
  generalize cost (columnUnits amount.value) (columnUnits price.value) = units at hNonneg ⊢
  have hPlaces : (Numeral.ofUnits decimalScale units.toNat).fraction.length ≤ decimalScale :=
    (Numeral.length_lastDigits ..).le
  have hUnits : columnUnits (Numeral.ofUnits decimalScale units.toNat).value = units := by
    rw [columnUnits_ofUnits, Int.toNat_of_nonneg hNonneg]
  simp only [printUnits, lte_zero_chars hReads hPlaces, decimalFitsSchema_chars hReads hPlaces,
    hUnits]
  by_cases hPositive : units ≤ 0
  · simp [hPositive, not_lt.mpr hPositive]
  · by_cases hMax : units ≤ decimalMax
    · simp [hPositive, hMax, not_le.mp hPositive]
    · simp [hPositive, hMax]

/-- The form accepts orders only, and passes the trimmed values on. -/
theorem orderFormSchema_eq_ok {amount price : String} {values : OrderFormValues} :
    orderFormSchema construct amount price = .ok values ↔ values = ⟨trim amount, trim price⟩ ∧
      ∃ amountNumeral priceNumeral : Numeral, trim amount = .ofList amountNumeral.chars ∧
        trim price = .ofList priceNumeral.chars ∧ IsOrder amountNumeral priceNumeral := by
  rw [orderFormSchema]
  dsimp only
  split_ifs with hIssues
  · simp only [Except.ok.injEq]
    rw [List.append_eq_nil_iff, List.append_eq_nil_iff, decimalString_eq_nil hReads,
      decimalString_eq_nil hReads] at hIssues
    obtain ⟨⟨⟨amountNumeral, hAmount, hAmountValid⟩, priceNumeral, hPrice, hPriceValid⟩,
      hCost⟩ := hIssues
    rw [hAmount, hPrice, refineCost_eq_nil hReads hAmountValid hPriceValid] at hCost
    rw [eq_comm]
    exact ⟨fun hValues => ⟨hValues, amountNumeral, priceNumeral, hAmount, hPrice,
      ⟨hAmountValid, hPriceValid, hCost.1, hCost.2⟩⟩, fun hValues => hValues.1⟩
  · refine ⟨(fun hOk => by cases hOk), fun hValues => absurd ?_ hIssues⟩
    obtain ⟨_, amountNumeral, priceNumeral, hAmount, hPrice, hOrder⟩ := hValues
    rw [List.append_eq_nil_iff, List.append_eq_nil_iff, decimalString_eq_nil hReads,
      decimalString_eq_nil hReads]
    refine ⟨⟨⟨_, hAmount, hOrder.validAmount⟩, _, hPrice, hOrder.validPrice⟩, ?_⟩
    rw [hAmount, hPrice, refineCost_eq_nil hReads hOrder.validAmount hOrder.validPrice]
    exact ⟨hOrder.positive, hOrder.fits⟩

end Form

/-- What a field can show: nothing, digits, or digits with one dot and at most
eight digits behind it. -/
inductive Shown : List Char → Prop where
  | empty : Shown []
  | whole {integer : List Char} (nonempty : integer ≠ []) (digits : ∀ c ∈ integer, c.isDigit) :
      Shown integer
  | decimal {integer fraction : List Char} (nonempty : integer ≠ [])
      (digits : ∀ c ∈ integer, c.isDigit)
      (fractionDigits : ∀ c ∈ fraction, c.isDigit) (places : fraction.length ≤ decimalScale) :
      Shown (integer ++ '.' :: fraction)

section Sanitize

/-- What a field shows has digits and dots only. -/
theorem Shown.digits_and_dots {string : List Char} (h : Shown string) :
    ∀ c ∈ string, c.isDigit = true ∨ c = '.' := by
  cases h with
  | empty => exact fun c hc => by cases hc
  | whole nonempty digits => exact fun c hc => Or.inl (digits c hc)
  | decimal nonempty digits fractionDigits places =>
      intro c hc
      rcases List.mem_append.mp hc with hc | hc
      · exact Or.inl (digits c hc)
      · rcases List.mem_cons.mp hc with rfl | hc
        · exact Or.inr rfl
        · exact Or.inl (fractionDigits c hc)

/-- A numeral with at most eight places can be shown. -/
theorem shown_chars {numeral : Numeral} (hPlaces : numeral.fraction.length ≤ decimalScale) :
    Shown numeral.chars := by
  obtain ⟨integer, fraction, hNonempty, hInteger, hFraction⟩ := numeral
  cases fraction with
  | nil => exact .whole hNonempty hInteger
  | cons digit fraction => exact .decimal hNonempty hInteger hFraction hPlaces

/-- And the field shows only what has been sanitised. -/
theorem sanitizeDecimalInput_shown (value : String) :
    ∃ string, Shown string ∧ sanitizeDecimalInput value = .ofList string := by
  have hKept : ∀ c ∈ value.toList.filter (fun c => c.isDigit || c = '.'), c ≠ '.' →
      c.isDigit = true := by
    intro c hc hDot
    simpa [hDot] using (List.mem_filter.mp hc).2
  rw [sanitizeDecimalInput]
  dsimp only
  generalize value.toList.filter (fun c => c.isDigit || c = '.') = kept at hKept ⊢
  have hInteger : ∀ c ∈ kept.takeWhile (· ≠ '.'), c.isDigit = true := fun c hc =>
    hKept c ((List.takeWhile_sublist _).mem hc)
      (by simpa using List.all_eq_true.mp List.all_takeWhile c hc)
  cases hDrop : kept.dropWhile (· ≠ '.') with
  | nil =>
      refine ⟨_, ?_, rfl⟩
      by_cases hEmpty : kept.takeWhile (· ≠ '.') = []
      · rw [hEmpty]
        exact .empty
      · exact .whole hEmpty hInteger
  | cons separator fractionParts =>
      refine ⟨_, .decimal ?_ ?_ ?_ ?_, rfl⟩
      · split_ifs with hEmpty
        · exact List.cons_ne_nil _ _
        · exact hEmpty
      · split_ifs with hEmpty
        · exact fun c hc => by rw [List.mem_singleton.mp hc]; rfl
        · exact hInteger
      · intro c hc
        obtain ⟨hPart, hDot⟩ := List.mem_filter.mp (List.mem_of_mem_take hc)
        have hMem : c ∈ kept.dropWhile (· ≠ '.') := hDrop ▸ List.mem_cons_of_mem _ hPart
        exact hKept c ((List.dropWhile_sublist _).mem hMem) (by simpa using hDot)
      · exact List.length_take_le _ _

/-- What a field shows is not changed by showing it again. -/
theorem sanitizeDecimalInput_of_shown {string : List Char} (h : Shown string) :
    sanitizeDecimalInput (.ofList string) = .ofList string := by
  have hKept : string.filter (fun c => c.isDigit || c = '.') = string :=
    List.filter_eq_self.mpr fun c hc => by simpa using h.digits_and_dots c hc
  have hNoDot : ∀ {digits : List Char}, (∀ c ∈ digits, c.isDigit) →
      ∀ c ∈ digits, (c ≠ '.' : Bool) = true := by
    intro digits hDigits c hc
    have hNe : c ≠ '.' := by
      rintro rfl
      cases hDigits _ hc
    exact decide_eq_true hNe
  rw [sanitizeDecimalInput, String.toList_ofList, hKept]
  dsimp only
  cases h with
  | empty => rfl
  | whole nonempty digits =>
      have hTake : string.takeWhile (· ≠ '.') = string :=
        List.takeWhile_eq_self_iff.mpr (hNoDot digits)
      have hDrop : string.dropWhile (· ≠ '.') = [] := List.dropWhile_eq_nil_iff.mpr (hNoDot digits)
      rw [hTake, hDrop]
  | @decimal integer fraction nonempty digits fractionDigits places =>
      have hFraction : fraction.filter (· ≠ '.') = fraction :=
        List.filter_eq_self.mpr (hNoDot fractionDigits)
      rw [List.takeWhile_append_of_pos (hNoDot digits),
        List.dropWhile_append_of_pos (hNoDot digits),
        List.takeWhile_cons_of_neg (by decide), List.dropWhile_cons_of_neg (by decide),
        List.append_nil]
      dsimp only
      rw [if_neg nonempty, hFraction, List.take_of_length_le places]

end Sanitize
section Trim

/-- Neither a digit nor a dot is trimmed. -/
theorem isTrimmed_of_isDigit {c : Char} (h : c.isDigit = true ∨ c = '.') : isTrimmed c = false := by
  rcases h with hDigit | rfl
  · obtain ⟨hLow, hHigh⟩ := Char.isDigit_iff_toNat.mp hDigit
    have hLow' : 48 ≤ c.val.toNat := hLow
    have hHigh' : c.val.toNat ≤ 57 := hHigh
    rw [isTrimmed, decide_eq_false_iff_not]
    intro hMem
    simp only [List.mem_cons, List.not_mem_nil, or_false, ← UInt32.toNat_inj, UInt32.reduceToNat]
      at hMem
    omega
  · decide

/-- Text of digits and dots is left as it is. -/
theorem trim_ofList {string : List Char} (h : ∀ c ∈ string, c.isDigit = true ∨ c = '.') :
    trim (.ofList string) = .ofList string := by
  have hKept : ∀ {chars : List Char}, (∀ c ∈ chars, c.isDigit = true ∨ c = '.') →
      chars.dropWhile isTrimmed = chars := by
    intro chars hChars
    cases chars with
    | nil => rfl
    | cons c chars =>
        have hFirst := isTrimmed_of_isDigit (hChars c List.mem_cons_self)
        rw [List.dropWhile_cons, hFirst, if_neg Bool.false_ne_true]
  have hReverse : ∀ c ∈ string.reverse, c.isDigit = true ∨ c = '.' :=
    fun c hc => h c (List.mem_reverse.mp hc)
  rw [trim, String.toList_ofList, hKept h, hKept hReverse, List.reverse_reverse]

/-- So a numeral is left as it is by trimming. -/
theorem trim_chars (numeral : Numeral) : trim (.ofList numeral.chars) = .ofList numeral.chars := by
  apply trim_ofList
  obtain ⟨integer, fraction, _, hInteger, hFraction⟩ := numeral
  cases fraction with
  | nil => exact fun c hc => Or.inl (hInteger c hc)
  | cons digit fraction =>
      intro c hc
      rcases List.mem_append.mp hc with hc | hc
      · exact Or.inl (hInteger c hc)
      · rcases List.mem_cons.mp hc with rfl | hc
        · exact Or.inr rfl
        · exact Or.inl (hFraction c hc)

/-- What a field shows needs no trimming. -/
theorem trim_sanitizeDecimalInput (value : String) :
    trim (sanitizeDecimalInput value) = sanitizeDecimalInput value := by
  obtain ⟨input, hInput, hShown⟩ := sanitizeDecimalInput_shown value
  rw [hShown]
  exact trim_ofList hInput.digits_and_dots

end Trim

section Backend

variable {newDecimal : String → Option DecimalValue} (hReads : ReadsNumerals newDecimal .finite)

include hReads

/-- The backend accepts the text of a numeral exactly if the numeral is valid, and
reads its value. -/
theorem parsePositiveDecimalInput_chars {value fieldName : String} {numeral : Numeral}
    {parsed : Decimal}
    (hValue : trim value = .ofList numeral.chars)
    (hPlaces : numeral.fraction.length ≤ decimalScale) :
    parsePositiveDecimalInput newDecimal value fieldName = .ok parsed ↔
      parsed = numeral.value ∧ IsValid numeral := by
  have hFew := decimalPlaces_value hPlaces
  have hAbs : ((columnUnits numeral.value).natAbs : Int) = columnUnits numeral.value :=
    Int.natAbs_of_nonneg (columnUnits_nonneg numeral)
  have hGt := Decimal.gt_abs_ofUnits_of_decimalPlaces_le hFew decimalMax
  have hLte := Decimal.lte_zero_eq hFew
  rw [← columnUnits, hAbs] at hGt
  rw [← columnUnits] at hLte
  rw [parsePositiveDecimalInput, hValue, if_neg (ofList_chars_ne_empty numeral), hReads numeral]
  simp only [hLte, decide_eq_true_eq]
  split_ifs with hPositive
  · exact ⟨(fun hOk => by cases hOk),
      fun hValid => absurd hPositive (not_le.mpr hValid.2.positive)⟩
  · rw [check_bind_eq_ok, assertDecimalFitsSchema]
    simp only [gt_iff_lt, not_lt.mpr hFew, if_false, hGt, decide_eq_true_eq]
    split_ifs with hMax
    · exact ⟨(fun hOk => by cases hOk.1), fun hValid => absurd hMax (not_lt.mpr hValid.2.fits)⟩
    · constructor
      · rintro ⟨_, hParsed⟩
        cases hParsed
        exact ⟨rfl, hPlaces, not_le.mp hPositive, not_lt.mp hMax⟩
      · rintro ⟨rfl, _⟩
        exact ⟨rfl, rfl⟩

/-- The backend accepts the same numerals. -/
theorem validateOrder_chars {amount price : String} {amountNumeral priceNumeral : Numeral}
    {result : Int × Int} (hAmount : trim amount = .ofList amountNumeral.chars)
    (hPrice : trim price = .ofList priceNumeral.chars)
    (hAmountPlaces : amountNumeral.fraction.length ≤ decimalScale)
    (hPricePlaces : priceNumeral.fraction.length ≤ decimalScale) :
    OrdersService.validateOrder newDecimal amount price = .ok result ↔
      result = (columnUnits amountNumeral.value, columnUnits priceNumeral.value) ∧
      IsOrder amountNumeral priceNumeral := by
  have hNonneg := columnUnits_nonneg
  rw [OrdersService.validateOrder, bind_eq_ok]
  simp only [bind_eq_ok, parsePositiveDecimalInput_chars hReads hAmount hAmountPlaces,
    parsePositiveDecimalInput_chars hReads hPrice hPricePlaces]
  constructor
  · rintro ⟨_, ⟨rfl, hValidAmount⟩, _, ⟨rfl, hValidPrice⟩, _, hCost, hResult⟩
    obtain ⟨_, hPositive, hFits⟩ := (assertPositiveOrderCost_eq_ok (hNonneg _) (hNonneg _)).mp hCost
    cases hResult
    exact ⟨rfl, hValidAmount, hValidPrice, hPositive, hFits⟩
  · rintro ⟨rfl, hOrder⟩
    exact ⟨_, ⟨rfl, hOrder.validAmount⟩, _, ⟨rfl, hOrder.validPrice⟩, _,
      (assertPositiveOrderCost_eq_ok (hNonneg _) (hNonneg _)).mpr
        ⟨rfl, hOrder.positive, hOrder.fits⟩, rfl⟩

end Backend

/-- The form accepts a pair of numerals exactly when the backend does. A pair
that it accepts is passed on trimmed, as the same two numbers that the backend
stores, and the total of these values is the reservation of a BUY order. What
the fields show is trimmed already. -/
theorem form_agrees {construct : String → Option FormDecimal}
    {newDecimal : String → Option DecimalValue}
    (hForm : ReadsNumerals construct .finite) (hApi : ReadsNumerals newDecimal .finite) :
    (∀ amount price, decimalPattern (trim amount) = true → decimalPattern (trim price) = true →
      ((∃ values, orderFormSchema construct amount price = .ok values) ↔
        ∃ stored, OrdersService.validateOrder newDecimal amount price = .ok stored)) ∧
    (∀ amount price values, orderFormSchema construct amount price = .ok values →
      values = ⟨trim amount, trim price⟩ ∧ ∃ amountUnits priceUnits,
        Denotes values.amount amountUnits ∧ Denotes values.price priceUnits ∧
        OrdersService.validateOrder newDecimal amount price = .ok (amountUnits, priceUnits) ∧
        OrdersService.validateOrder newDecimal values.amount values.price =
          .ok (amountUnits, priceUnits) ∧
        multiplyDecimals construct values.amount values.price =
          printUnits (OrderSide.buy.reservation amountUnits priceUnits)) ∧
    ∀ typed, trim (sanitizeDecimalInput typed) = sanitizeDecimalInput typed := by
  refine ⟨fun amount price hAmount hPrice => ?_, fun amount price values hValues => ?_,
    trim_sanitizeDecimalInput⟩
  · obtain ⟨amountNumeral, hAmountChars, hAmountPlaces⟩ := Numeral.exists_of_matchesPattern hAmount
    obtain ⟨priceNumeral, hPriceChars, hPricePlaces⟩ := Numeral.exists_of_matchesPattern hPrice
    have hAmount' : trim amount = .ofList amountNumeral.chars := by
      rw [hAmountChars, String.ofList_toList]
    have hPrice' : trim price = .ofList priceNumeral.chars := by
      rw [hPriceChars, String.ofList_toList]
    constructor
    · rintro ⟨values, hValues⟩
      obtain ⟨_, _, _, hA, hP, hOrder⟩ := (orderFormSchema_eq_ok hForm).mp hValues
      exact ⟨_,
        (validateOrder_chars hApi hA hP hOrder.validAmount.places hOrder.validPrice.places).mpr
        ⟨rfl, hOrder⟩⟩
    · rintro ⟨stored, hStored⟩
      obtain ⟨_, hOrder⟩ :=
        (validateOrder_chars hApi hAmount' hPrice' hAmountPlaces hPricePlaces).mp hStored
      exact ⟨_, (orderFormSchema_eq_ok hForm).mpr ⟨rfl, _, _, hAmount', hPrice', hOrder⟩⟩
  · obtain ⟨rfl, amountNumeral, priceNumeral, hAmount, hPrice, hOrder⟩ :=
      (orderFormSchema_eq_ok hForm).mp hValues
    have hAmountPlaces := hOrder.validAmount.places
    have hPricePlaces := hOrder.validPrice.places
    have hStored : ∀ {left right : String}, trim left = .ofList amountNumeral.chars →
        trim right = .ofList priceNumeral.chars →
        OrdersService.validateOrder newDecimal left right =
          .ok (columnUnits amountNumeral.value, columnUnits priceNumeral.value) :=
      fun hLeft hRight => (validateOrder_chars hApi hLeft hRight hAmountPlaces hPricePlaces).mpr
        ⟨rfl, hOrder⟩
    refine ⟨rfl, columnUnits amountNumeral.value, columnUnits priceNumeral.value, ?_⟩
    dsimp only
    rw [hAmount, hPrice]
    exact ⟨denotes_columnUnits hAmountPlaces, denotes_columnUnits hPricePlaces,
      hStored hAmount hPrice, hStored (trim_chars _) (trim_chars _),
      multiplyDecimals_chars hForm hOrder.validAmount hOrder.validPrice⟩

/-! A constructor that reads numerals and throws on all other text, for the
form and for the backend. -/
namespace Sample

def construct (value : String) : Option FormDecimal := (Numeral.read value.toList).map .finite

def newDecimal (value : String) : Option DecimalValue := (Numeral.read value.toList).map .finite

/-- The sample constructor of the frontend reads numerals. -/
theorem reads_construct : ReadsNumerals construct .finite := by
  intro numeral
  rw [construct, String.toList_ofList, Numeral.read_chars, Option.map_some]

/-- So does that of the backend. -/
theorem reads_newDecimal : ReadsNumerals newDecimal .finite := by
  intro numeral
  rw [newDecimal, String.toList_ofList, Numeral.read_chars, Option.map_some]

end Sample

theorem form_agrees_sample :
    orderFormSchema Sample.construct " 0.5" "3" = .ok ⟨"0.5", "3"⟩ ∧
    OrdersService.validateOrder Sample.newDecimal " 0.5" "3" = .ok (50000000, 300000000) ∧
    ∃ amountUnits priceUnits, multiplyDecimals Sample.construct "0.5" "3" =
      printUnits (OrderSide.buy.reservation amountUnits priceUnits) := by
  have hValues : orderFormSchema Sample.construct " 0.5" "3" = .ok ⟨"0.5", "3"⟩ := by decide +kernel
  have hStored : OrdersService.validateOrder Sample.newDecimal " 0.5" "3" =
      .ok (50000000, 300000000) := by decide +kernel
  obtain ⟨_, hAccepted, _⟩ := form_agrees Sample.reads_construct Sample.reads_newDecimal
  obtain ⟨_, amountUnits, priceUnits, _, _, _, _, hTotal⟩ := hAccepted " 0.5" "3" _ hValues
  exact ⟨hValues, hStored, amountUnits, priceUnits, hTotal⟩

/-- The form trims what it checks, but the total of text with a blank is that
of zero. -/
theorem total_untrimmed :
    orderFormSchema Sample.construct " 1" "1" = .ok ⟨"1", "1"⟩ ∧
    OrdersService.validateOrder Sample.newDecimal " 1" "1" = .ok (one, one) ∧
    multiplyDecimals Sample.construct " 1" "1" = "0.00000000" ∧
    printUnits (OrderSide.buy.reservation one one) = "1.00000000" := by
  decide +kernel

end OrderForm
end ExchangeMatching
