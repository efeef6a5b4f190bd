import ExchangeMatching.Accounts
import ExchangeMatching.Library.Checked

/-! The ledger oracle of the test suite. It shares no arithmetic with the
exchange: it reads a snapshot of decimal strings, replays the recorded trades
on the opening balances, and asserts that the stored wallets and orders are
what the replay leaves. -/
namespace ExchangeMatching
namespace MonetaryInvariants

open Checked DecimalArithmetic

/-- A failed assertion, with its message if the oracle gives one. -/
structure AssertionError where
  message : Option String
deriving DecidableEq, Repr

structure WalletSnapshot where
  userId : UserId
  availableBtc : String
  reservedBtc : String
  availableUsd : String
  reservedUsd : String
deriving DecidableEq, Repr

structure OrderSnapshot where
  id : OrderId
  userId : UserId
  side : OrderSide
  status : OrderStatus
  price : String
  originalAmount : String
  remainingAmount : String
deriving DecidableEq, Repr

structure TradeSnapshot where
  id : TradeId
  makerOrderId : OrderId
  takerOrderId : OrderId
  buyOrderId : OrderId
  sellOrderId : OrderId
  takerSide : OrderSide
  price : String
  amount : String
  makerFeeRate : String
  makerFeeAmount : String
  makerFeeAsset : TradeFeeAsset
  takerFeeRate : String
  takerFeeAmount : String
  takerFeeAsset : TradeFeeAsset
deriving DecidableEq, Repr

structure MonetaryState where
  wallets : List WalletSnapshot
  orders : List OrderSnapshot
  trades : List TradeSnapshot

structure OpeningBalance where
  userId : UserId
  btc : String
  usd : String
deriving DecidableEq, Repr

/-- The amounts of a row, printed with all their places. -/
def WalletSnapshot.of (wallet : Wallet) : WalletSnapshot where
  userId := wallet.userId
  availableBtc := toDecimalString wallet.availableBtc
  reservedBtc := toDecimalString wallet.reservedBtc
  availableUsd := toDecimalString wallet.availableUsd
  reservedUsd := toDecimalString wallet.reservedUsd

def OrderSnapshot.of (order : Order) : OrderSnapshot where
  id := order.id
  userId := order.userId
  side := order.side
  status := order.status
  price := toDecimalString order.price
  originalAmount := toDecimalString order.originalAmount
  remainingAmount := toDecimalString order.remainingAmount

def TradeSnapshot.of (trade : Trade) : TradeSnapshot where
  id := trade.id
  makerOrderId := trade.makerOrderId
  takerOrderId := trade.takerOrderId
  buyOrderId := trade.buyOrderId
  sellOrderId := trade.sellOrderId
  takerSide := trade.takerSide
  price := toDecimalString trade.price
  amount := toDecimalString trade.amount
  makerFeeRate := toDecimalString trade.makerFeeRate
  makerFeeAmount := toDecimalString trade.makerFeeAmount
  makerFeeAsset := trade.makerFeeAsset
  takerFeeRate := toDecimalString trade.takerFeeRate
  takerFeeAmount := toDecimalString trade.takerFeeAmount
  takerFeeAsset := trade.takerFeeAsset

/-- What the replay has booked for a user. -/
@[ext] structure Account where
  btc : Int
  usd : Int
  reservedBtc : Int
  reservedUsd : Int
deriving DecidableEq, Repr

@[ext] structure Fees where
  btcFees : Int
  usdFees : Int
deriving DecidableEq, Repr

def scale : Int := 100000000

def max : Int := 10 ^ 28 - 1

/-- The string after an optional sign. -/
def unsigned (value : List Char) : List Char :=
  match value with
  | '-' :: magnitude => magnitude
  | magnitude => magnitude

/-- `^(-?)(\d+)(?:\.(\d{1,8}))?$`, read as units. -/
def units (value : String) : Except AssertionError Int := do
  let magnitude := unsigned value.toList
  let fraction := (magnitude.dropWhile Char.isDigit).tail
  ensure (Numeral.matchesPattern 8 magnitude) ⟨some ("Invalid eight-place decimal: " ++ value)⟩
  let result : Int := Nat.ofDigitChars 10 (magnitude.takeWhile Char.isDigit) 0 * scale +
    Nat.ofDigitChars 10 (fraction.rightpad 8 '0') 0
  return if value.toList.head? = some '-' then -result else result

def cost (amount price : Int) : Int := (amount * price).tdiv scale

def active : List OrderStatus := [.queued, .opened, .partiallyFilled]

def bounded (value label : String) : Except AssertionError Int := do
  let result ← units value
  ensure (0 ≤ result ∧ result ≤ max) ⟨some (label ++ ": nonnegative storage bounds")⟩
  return result

/-- The row that a map from ids keeps: the last one. -/
def getOrder (orders : List OrderSnapshot) (id : OrderId) : Option OrderSnapshot :=
  orders.reverse.find? (·.id = id)

abbrev Accounts := UserId → Option Account

/-- Change an account in place. -/
def Accounts.change (accounts : Accounts) (userId : UserId) (f : Account → Account) : Accounts :=
  fun other => if other = userId then (accounts other).map f else accounts other

/-- What the loop over the trades keeps. -/
@[ext] structure Books where
  ledger : Accounts
  executed : OrderId → Int
  fees : Fees

def openLedger (opening : List OpeningBalance) : Except AssertionError Accounts :=
  opening.foldlM (fun ledger balance => do
    let btc ← units balance.btc
    let usd ← units balance.usd
    return Function.update ledger balance.userId (some ⟨btc, usd, 0, 0⟩)) fun _ => none

namespace Books

variable (books : Books)

/-- A quantity and its consideration change hands. -/
def exchange (buyer seller : UserId) (amount consideration : Int) : Books :=
  { books with
    ledger := (books.ledger.change buyer fun account =>
      { account with btc := account.btc + amount, usd := account.usd - consideration }).change
      seller fun account =>
        { account with btc := account.btc - amount, usd := account.usd + consideration } }

/-- A fee leaves the account of the user who receives the asset. -/
def withhold (asset : TradeFeeAsset) (buyer seller : UserId) (fee : Int) : Books :=
  match asset with
  | .btc => { books with
      ledger := books.ledger.change buyer fun account => { account with btc := account.btc - fee }
      fees := { books.fees with btcFees := books.fees.btcFees + fee } }
  | .usd => { books with
      ledger := books.ledger.change seller fun account => { account with usd := account.usd - fee }
      fees := { books.fees with usdFees := books.fees.usdFees + fee } }

def execute (id : OrderId) (amount : Int) : Books :=
  { books with executed := Function.update books.executed id (books.executed id + amount) }

end Books

/-- The fee of one role in a trade. -/
def checkFee (label role : String) (rate : Int) (order : OrderSnapshot) (buyer seller : UserId)
    (amount consideration : Int) (feeAmount feeRate : String) (feeAsset : TradeFeeAsset)
    (books : Books) : Except AssertionError Books := do
  let asset : TradeFeeAsset := if order.side = .buy then .btc else .usd
  let gross := if asset = .btc then amount else consideration
  let fee ← bounded feeAmount (label ++ " " ++ role ++ " fee")
  ensure (feeAsset = asset) ⟨some (label ++ " " ++ role ++ " fee asset")⟩
  let storedRate ← units feeRate
  ensure (storedRate = (rate * scale).tdiv 1000) ⟨some (label ++ " " ++ role ++ " fee rate")⟩
  ensure (fee = (gross * rate).tdiv 1000) ⟨some (label ++ " " ++ role ++ " fee amount")⟩
  return books.withhold asset buyer seller fee

def checkTrade (orders : List OrderSnapshot) (books : Books) (trade : TradeSnapshot) :
    Except AssertionError Books := do
  let label := "trade " ++ toString trade.id
  let maker ← require (getOrder orders trade.makerOrderId) ⟨some (label ++ ": referenced orders")⟩
  let taker ← require (getOrder orders trade.takerOrderId) ⟨some (label ++ ": referenced orders")⟩
  let buy ← require (getOrder orders trade.buyOrderId) ⟨some (label ++ ": referenced orders")⟩
  let sell ← require (getOrder orders trade.sellOrderId) ⟨some (label ++ ": referenced orders")⟩
  ensure (maker.userId ≠ taker.userId) ⟨some (label ++ ": self trade")⟩
  ensure (maker.side ≠ taker.side) ⟨some (label ++ ": opposing sides")⟩
  ensure (buy.side = .buy) ⟨some (label ++ ": buyer side")⟩
  ensure (sell.side = .sell) ⟨some (label ++ ": seller side")⟩
  ensure (trade.takerSide = taker.side) ⟨some (label ++ ": taker side")⟩
  ensure (buy.id = if maker.side = .buy then maker.id else taker.id) ⟨none⟩
  ensure (sell.id = if maker.side = .sell then maker.id else taker.id) ⟨none⟩
  let amount ← bounded trade.amount label
  let price ← bounded trade.price label
  let consideration := cost amount price
  ensure (0 < amount ∧ 0 < consideration) ⟨some (label ++ ": positive consideration")⟩
  let makerPrice ← units maker.price
  ensure (price = makerPrice) ⟨some (label ++ ": maker price")⟩
  let buyPrice ← units buy.price
  let sellPrice ← units sell.price
  ensure (price ≤ buyPrice ∧ sellPrice ≤ price) ⟨some label⟩
  ensure ((books.ledger buy.userId).isSome ∧ (books.ledger sell.userId).isSome)
    ⟨some (label ++ ": account exists")⟩
  let books := books.exchange buy.userId sell.userId amount consideration
  let books ← checkFee label "maker" 5 maker buy.userId sell.userId amount consideration
    trade.makerFeeAmount trade.makerFeeRate trade.makerFeeAsset books
  let books ← checkFee label "taker" 3 taker buy.userId sell.userId amount consideration
    trade.takerFeeAmount trade.takerFeeRate trade.takerFeeAsset books
  return (books.execute maker.id amount).execute taker.id amount

/-- An active order reserves its remaining quantity or its rounded cost. -/
def reserve (ledger : Accounts) (order : OrderSnapshot) (remaining price : Int) : Accounts :=
  if order.status ∈ active then
    ledger.change order.userId fun account =>
      if order.side = .buy then
        { account with reservedUsd := account.reservedUsd + cost remaining price }
      else { account with reservedBtc := account.reservedBtc + remaining }
  else ledger

def checkOrder (executed : OrderId → Int) (ledger : Accounts) (order : OrderSnapshot) :
    Except AssertionError Accounts := do
  let label := "order " ++ order.id
  let original ← bounded order.originalAmount label
  let remaining ← bounded order.remainingAmount label
  let price ← bounded order.price label
  let originalCost := cost original price
  ensure (0 < original ∧ 0 < originalCost ∧ originalCost ≤ max)
    ⟨some (label ++ ": valid input")⟩
  ensure (original - remaining = executed order.id) ⟨some label⟩
  ensure (if order.status = .filled then remaining = 0 else 0 < remaining)
    ⟨some (if order.status = .filled then label else label ++ ": remaining amount")⟩
  ensure (order.status = .partiallyFilled → remaining < original) ⟨some label⟩
  ensure (order.status ∈ [.queued, .opened, .rejected] → remaining = original)
    ⟨some (label ++ ": unexecuted status")⟩
  ensure (ledger order.userId).isSome ⟨some (label ++ ": account exists")⟩
  return reserve ledger order remaining price

/-- The totals held by the wallets so far, in BTC and USD. -/
def checkWallet (ledger : Accounts) (totals : Int × Int) (wallet : WalletSnapshot) :
    Except AssertionError (Int × Int) := do
  let label := "wallet " ++ wallet.userId
  let account ← require (ledger wallet.userId) ⟨some (label ++ ": opening account exists")⟩
  let availableBtc ← bounded wallet.availableBtc label
  let availableUsd ← bounded wallet.availableUsd label
  let reservedBtc ← bounded wallet.reservedBtc label
  let reservedUsd ← bounded wallet.reservedUsd label
  ensure (reservedBtc = account.reservedBtc) ⟨some (label ++ ": BTC reservation")⟩
  ensure (reservedUsd = account.reservedUsd) ⟨some (label ++ ": USD reservation")⟩
  ensure (availableBtc = account.btc - reservedBtc) ⟨some (label ++ ": BTC ledger")⟩
  ensure (availableUsd = account.usd - reservedUsd) ⟨some (label ++ ": USD ledger")⟩
  return (totals.1 + (availableBtc + reservedBtc), totals.2 + (availableUsd + reservedUsd))

/-- The opening balances added up, in BTC and USD. -/
def openingTotals (opening : List OpeningBalance) : Except AssertionError (Int × Int) :=
  opening.foldlM (fun totals balance => do
    let btc ← units balance.btc
    let usd ← units balance.usd
    return (totals.1 + btc, totals.2 + usd)) (0, 0)

def assertMonetaryInvariants (state : MonetaryState) (opening : List OpeningBalance) :
    Except AssertionError Fees := do
  let ledger ← openLedger opening
  let accounts := (opening.map OpeningBalance.userId).dedup.length
  ensure (accounts = opening.length) ⟨some "unique opening accounts"⟩
  ensure (state.wallets.length = opening.length) ⟨some "wallet population"⟩
  ensure ((state.wallets.map WalletSnapshot.userId).dedup.length = accounts) ⟨none⟩
  ensure ((state.orders.map OrderSnapshot.id).dedup.length = state.orders.length)
    ⟨some "unique orders"⟩
  ensure ((state.trades.map TradeSnapshot.id).dedup.length = state.trades.length)
    ⟨some "unique trades"⟩
  let books ← state.trades.foldlM (checkTrade state.orders) ⟨ledger, fun _ => 0, ⟨0, 0⟩⟩
  let ledger ← state.orders.foldlM (checkOrder books.executed) books.ledger
  let totals ← state.wallets.foldlM (checkWallet ledger) (books.fees.btcFees, books.fees.usdFees)
  let expected ← openingTotals opening
  ensure (totals.1 = expected.1) ⟨some "global BTC conservation including fees"⟩
  ensure (totals.2 = expected.2) ⟨some "global USD conservation including fees"⟩
  return books.fees

section Snapshots

variable (order : Order) (trade : Trade) (wallet : Wallet)

theorem OrderSnapshot.amounts_of : (OrderSnapshot.of order).price = toDecimalString order.price ∧
    (OrderSnapshot.of order).originalAmount = toDecimalString order.originalAmount ∧
    (OrderSnapshot.of order).remainingAmount = toDecimalString order.remainingAmount :=
      ⟨rfl, rfl, rfl⟩

theorem TradeSnapshot.amounts_of : (TradeSnapshot.of trade).price = toDecimalString trade.price ∧
    (TradeSnapshot.of trade).amount = toDecimalString trade.amount ∧
    (TradeSnapshot.of trade).makerFeeRate = toDecimalString trade.makerFeeRate ∧
    (TradeSnapshot.of trade).makerFeeAmount = toDecimalString trade.makerFeeAmount ∧
    (TradeSnapshot.of trade).takerFeeRate = toDecimalString trade.takerFeeRate ∧
    (TradeSnapshot.of trade).takerFeeAmount = toDecimalString trade.takerFeeAmount :=
  ⟨rfl, rfl, rfl, rfl, rfl, rfl⟩

theorem WalletSnapshot.amounts_of :
    (WalletSnapshot.of wallet).availableBtc = toDecimalString wallet.availableBtc ∧
    (WalletSnapshot.of wallet).reservedBtc = toDecimalString wallet.reservedBtc ∧
    (WalletSnapshot.of wallet).availableUsd = toDecimalString wallet.availableUsd ∧
    (WalletSnapshot.of wallet).reservedUsd = toDecimalString wallet.reservedUsd :=
      ⟨rfl, rfl, rfl, rfl⟩

end Snapshots

section Reading

variable {numeral : Numeral}

theorem chars_of_fraction (h : numeral.fraction ≠ []) :
    numeral.chars = numeral.integer ++ '.' :: numeral.fraction := by
  cases hFraction : numeral.fraction with
  | nil => exact absurd hFraction h
  | cons digit fraction => rw [Numeral.chars, hFraction]

/-- A numeral starts with a digit, not with a sign. -/
theorem head?_chars (numeral : Numeral) : numeral.chars.head? ≠ some '-' := by
  obtain ⟨integer, fraction, hNonempty, hInteger, _⟩ := numeral
  obtain ⟨digit, integer, rfl⟩ := List.exists_cons_of_ne_nil hNonempty
  have hDigit : digit.isDigit = true := hInteger digit List.mem_cons_self
  have hHead : (Numeral.mk (digit :: integer) fraction hNonempty hInteger ‹_›).chars.head? =
      some digit := by
    cases fraction <;> rfl
  rw [hHead]
  rintro hSign
  cases hSign
  cases hDigit

/-- The digits of a numeral with all eight places, read as units. -/
theorem magnitude_chars (h : numeral.fraction.length = 8) :
    ((Nat.ofDigitChars 10 (numeral.chars.takeWhile Char.isDigit) 0 * scale +
      Nat.ofDigitChars 10 ((numeral.chars.dropWhile Char.isDigit).tail.rightpad 8 '0') 0 : Int)) =
      numeral.mantissa := by
  have hFraction : numeral.fraction ≠ [] := fun hNil => by rw [hNil] at h; cases h
  have hSplit := Numeral.takeWhile_digits ('.' :: numeral.fraction) numeral.isDigit_integer
    (fun c hc => by cases hc; decide)
  have hPadded : numeral.fraction.rightpad 8 '0' = numeral.fraction := by
    rw [List.rightpad, h, Nat.sub_self, List.replicate_zero, List.append_nil]
  rw [chars_of_fraction hFraction, hSplit.1, hSplit.2, List.tail_cons, hPadded, Numeral.mantissa,
    Nat.ofDigitChars_append, @Nat.ofDigitChars_eq_ofDigitChars_zero numeral.fraction
      (Nat.ofDigitChars 10 numeral.integer 0), h, scale]
  push_cast
  ring

theorem toList_toDecimalString (value : Int) : (toDecimalString value).toList =
    if value < 0 then '-' :: (Numeral.ofUnits decimalScale value.natAbs).chars
    else (Numeral.ofUnits decimalScale value.natAbs).chars := by
  have hPlaces : Decimal.toDecimalPlaces decimalScale (Decimal.ofUnits decimalScale value) =
      Decimal.ofUnits decimalScale value := if_pos (le_refl _)
  rw [toDecimalString, Decimal.toFixed, hPlaces, Decimal.units_ofUnits, String.toList_append,
    String.toList_ofList]
  change (if value < 0 then "-" else "").toList ++ _ = _
  split_ifs <;> rfl

/-- The oracle reads what is printed with eight places. -/
theorem units_toDecimalString (value : Int) : units (toDecimalString value) = .ok value := by
  let numeral := Numeral.ofUnits decimalScale value.natAbs
  have hLength : numeral.fraction.length = 8 := Numeral.length_lastDigits ..
  have hPattern : Numeral.matchesPattern 8 numeral.chars = true :=
    Numeral.matchesPattern_chars numeral (le_of_eq hLength)
  have hMagnitude := magnitude_chars hLength
  have hMantissa : (numeral.mantissa : Int) = value.natAbs :=
    congrArg Decimal.mantissa (Numeral.value_ofUnits decimalScale value.natAbs)
  have hPrinted : (toDecimalString value).toList =
      if value < 0 then '-' :: numeral.chars else numeral.chars := toList_toDecimalString value
  have hHead := head?_chars numeral
  have hUnsigned : unsigned (toDecimalString value).toList = numeral.chars := by
    rw [hPrinted]
    split_ifs
    · rfl
    · unfold unsigned
      split
      · next h => exact absurd (congrArg List.head? h) hHead
      · rfl
  unfold units
  simp only [hUnsigned]
  rw [ensure_bind_eq_ok, pure_eq_ok, hMagnitude, hMantissa, hPrinted]
  refine ⟨hPattern, ?_⟩
  by_cases hNegative : value < 0
  · rw [if_pos hNegative, List.head?_cons, if_pos rfl]
    omega
  · rw [if_neg hNegative, if_neg hHead]
    omega

variable {Result : Type} {value : Int} {label : String}

@[simp] theorem units_bind {next : Int → Except AssertionError Result} :
    (units (toDecimalString value) >>= next) = next value := by
  rw [units_toDecimalString, ok_bind]

@[simp] theorem bounded_bind_eq_ok {next : Int → Except AssertionError Result} {result : Result} :
    (bounded (toDecimalString value) label >>= next) = .ok result ↔
      (0 ≤ value ∧ value ≤ decimalMax) ∧ next value = .ok result := by
  rw [bounded, bind_assoc, units_bind, bind_assoc, ensure_bind_eq_ok]
  rfl

end Reading

end MonetaryInvariants
end ExchangeMatching
