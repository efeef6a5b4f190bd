import ExchangeMatching.DecimalUtils
import ExchangeMatching.Library.Table

/-! The tables of the exchange. Monetary columns hold units of 0.00000001.
Keys are unique by construction; the other constraints of the database are
checked when a row is written, as the database checks them. -/
namespace ExchangeMatching

abbrev UserId := String
abbrev OrderId := String
abbrev TradeId := Nat

inductive OrderSide where
  | buy
  | sell
deriving DecidableEq, Repr

inductive OrderStatus where
  | queued
  | opened
  | partiallyFilled
  | filled
  | cancelled
  | rejected
deriving DecidableEq, Repr

inductive TradeFeeAsset where
  | btc
  | usd
deriving DecidableEq, Repr

inductive BalanceField where
  | availableBtc
  | reservedBtc
  | availableUsd
  | reservedUsd
deriving DecidableEq, Repr

@[ext] structure Wallet where
  userId : UserId
  availableBtc : Int
  reservedBtc : Int
  availableUsd : Int
  reservedUsd : Int
deriving DecidableEq, Repr

@[ext] structure Order where
  id : OrderId
  sequence : Nat
  userId : UserId
  side : OrderSide
  status : OrderStatus
  price : Int
  originalAmount : Int
  remainingAmount : Int
  createdAt : Nat
deriving DecidableEq, Repr

/-- The columns of a trade that its transaction supplies. -/
structure TradeData where
  makerOrderId : OrderId
  takerOrderId : OrderId
  buyOrderId : OrderId
  sellOrderId : OrderId
  takerSide : OrderSide
  makerFeeRate : Int
  makerFeeAmount : Int
  makerFeeAsset : TradeFeeAsset
  takerFeeRate : Int
  takerFeeAmount : Int
  takerFeeAsset : TradeFeeAsset
  price : Int
  amount : Int
deriving DecidableEq, Repr

structure Trade extends TradeData where
  id : TradeId
  sequence : Nat
  createdAt : Nat
deriving DecidableEq, Repr

inductive MarketChangeReason where
  | orderOpened
  | orderCancelled
  | tradeExecuted
deriving DecidableEq, Repr

inductive AccountChangeReason where
  | market (reason : MarketChangeReason)
  | orderCreated
  | orderRejected
deriving DecidableEq, Repr

inductive RealtimeDispatchEvent where
  | marketChanged (reason : MarketChangeReason) (orderId : OrderId)
      (tradeIds : Option (List TradeId))
  | accountChanged (reason : AccountChangeReason) (userId : UserId) (orderId : OrderId)
      (tradeIds : Option (List TradeId))
deriving DecidableEq, Repr

/-- An intent to match an order, kept until the queue has acknowledged it. -/
structure OrderMatchingOutbox where
  id : String
  orderId : OrderId
  attemptCount : Nat
  claimToken : Option String
  claimedAt : Option Nat
  nextAttemptAt : Option Nat
  lastError : Option String
  createdAt : Nat
deriving DecidableEq, Repr

/-- Wallets, orders and trades. Sequence numbers of orders are unique. -/
@[ext] structure Market where
  wallets : Table Wallet Wallet.userId
  orders : Table Order Order.id
  sequences : (orders.rows.map Order.sequence).Nodup
  trades : List Trade

/-- The whole database. An order has at most one matching intent. -/
@[ext] structure Database extends Market where
  matchingOutbox : Table OrderMatchingOutbox OrderMatchingOutbox.id
  intents : (matchingOutbox.rows.map OrderMatchingOutbox.orderId).Nodup
  realtimeOutbox : List RealtimeDispatchEvent

namespace BalanceField

def all : List BalanceField := [.availableBtc, .reservedBtc, .availableUsd, .reservedUsd]

/-- The column name, as the client writes it. -/
def name : BalanceField → String
  | .availableBtc => "availableBtc"
  | .reservedBtc => "reservedBtc"
  | .availableUsd => "availableUsd"
  | .reservedUsd => "reservedUsd"

/-- The check that keeps the column from becoming negative. -/
def nonNegative : BalanceField → String
  | .availableBtc => "wallets_available_btc_non_negative"
  | .reservedBtc => "wallets_reserved_btc_non_negative"
  | .availableUsd => "wallets_available_usd_non_negative"
  | .reservedUsd => "wallets_reserved_usd_non_negative"

theorem mem_all (field : BalanceField) : field ∈ all := by cases field <;> decide

end BalanceField

namespace Wallet

def get (wallet : Wallet) : BalanceField → Int
  | .availableBtc => wallet.availableBtc
  | .reservedBtc => wallet.reservedBtc
  | .availableUsd => wallet.availableUsd
  | .reservedUsd => wallet.reservedUsd

def set (wallet : Wallet) (value : Int) : BalanceField → Wallet
  | .availableBtc => { wallet with availableBtc := value }
  | .reservedBtc => { wallet with reservedBtc := value }
  | .availableUsd => { wallet with availableUsd := value }
  | .reservedUsd => { wallet with reservedUsd := value }

/-- All four balances lie in the range of their columns. -/
def InRange (wallet : Wallet) : Prop :=
  ∀ field, 0 ≤ wallet.get field ∧ wallet.get field ≤ decimalMax

@[simp] theorem userId_set (wallet : Wallet) (value : Int) (field : BalanceField) :
    (wallet.set value field).userId = wallet.userId := by cases field <;> rfl

theorem get_set (wallet : Wallet) (value : Int) (field other : BalanceField) :
    (wallet.set value field).get other = if other = field then value else wallet.get other := by
  cases field <;> cases other <;> rfl

theorem inRange_iff {wallet : Wallet} : wallet.InRange ↔
    (0 ≤ wallet.availableBtc ∧ wallet.availableBtc ≤ decimalMax) ∧
    (0 ≤ wallet.reservedBtc ∧ wallet.reservedBtc ≤ decimalMax) ∧
    (0 ≤ wallet.availableUsd ∧ wallet.availableUsd ≤ decimalMax) ∧
    (0 ≤ wallet.reservedUsd ∧ wallet.reservedUsd ≤ decimalMax) := by
  constructor
  · exact fun h => ⟨h .availableBtc, h .reservedBtc, h .availableUsd, h .reservedUsd⟩
  · rintro ⟨hAvailableBtc, hReservedBtc, hAvailableUsd, hReservedUsd⟩ field
    cases field <;> assumption

instance (wallet : Wallet) : Decidable wallet.InRange := decidable_of_iff _ inRange_iff.symm

end Wallet

/-- Statuses in which an order holds a reservation. -/
def OrderStatus.isActive : OrderStatus → Bool
  | .queued | .opened | .partiallyFilled => true
  | _ => false

/-- Statuses in which an order rests in the book. -/
def OrderStatus.isResting : OrderStatus → Bool
  | .opened | .partiallyFilled => true
  | _ => false

/-- The check `orders_status_remaining_amount_consistency`. -/
def Order.statusConsistent (order : Order) : Bool :=
  match order.status with
  | .queued | .opened | .rejected => order.remainingAmount = order.originalAmount
  | .partiallyFilled =>
      0 < order.remainingAmount && order.remainingAmount < order.originalAmount
  | .filled => order.remainingAmount = 0
  | .cancelled => 0 < order.remainingAmount && order.remainingAmount ≤ order.originalAmount

namespace Order

/-- The order with a new remaining amount and status. -/
def revised (order : Order) (remainingAmount : Int) (status : OrderStatus) : Order :=
  { order with remainingAmount := remainingAmount, status := status }

variable (order : Order) (remainingAmount : Int) (status : OrderStatus)

@[simp] theorem revised_id : (order.revised remainingAmount status).id = order.id := rfl
@[simp] theorem revised_sequence :
    (order.revised remainingAmount status).sequence = order.sequence := rfl
@[simp] theorem revised_userId : (order.revised remainingAmount status).userId = order.userId := rfl
@[simp] theorem revised_side : (order.revised remainingAmount status).side = order.side := rfl
@[simp] theorem revised_status : (order.revised remainingAmount status).status = status := rfl
@[simp] theorem revised_price : (order.revised remainingAmount status).price = order.price := rfl
@[simp] theorem revised_originalAmount :
    (order.revised remainingAmount status).originalAmount = order.originalAmount := rfl
@[simp] theorem revised_remainingAmount :
    (order.revised remainingAmount status).remainingAmount = remainingAmount := rfl
@[simp] theorem revised_revised (remainingAmount' : Int) (status' : OrderStatus) :
    (order.revised remainingAmount status).revised remainingAmount' status' =
      order.revised remainingAmount' status' := rfl
@[simp] theorem revised_self : order.revised order.remainingAmount order.status = order := rfl

end Order

/-- What the status check says, status by status. -/
theorem Order.statusConsistent_iff {order : Order} : order.statusConsistent = true ↔
    match order.status with
    | .queued | .opened | .rejected => order.remainingAmount = order.originalAmount
    | .partiallyFilled => 0 < order.remainingAmount ∧ order.remainingAmount < order.originalAmount
    | .filled => order.remainingAmount = 0
    | .cancelled => 0 < order.remainingAmount ∧ order.remainingAmount ≤ order.originalAmount := by
  unfold Order.statusConsistent
  split <;> simp only [Bool.and_eq_true, decide_eq_true_eq]

/-- What a decimal column can hold, in units. -/
structure NumericColumn where
  name : String
  limit : Int
  value : Int

/-- Refuse a row whose numbers overflow a column or that violates a check. -/
def checkRow (columns : List NumericColumn) (checks : List (String × Bool)) : Except Failure Unit :=
  match columns.find? (fun column => column.limit < column.value.natAbs) with
  | some column => .error (.numericOverflow column.name)
  | none =>
      match checks.find? (fun check => !check.2) with
      | some check => .error (.checkViolation check.1)
      | none => .ok ()

def Wallet.check (wallet : Wallet) : Except Failure Unit :=
  checkRow (BalanceField.all.map fun field => ⟨field.name, decimalMax, wallet.get field⟩)
    (BalanceField.all.map fun field => (field.nonNegative, 0 ≤ wallet.get field))

def Order.check (order : Order) : Except Failure Unit :=
  checkRow
    [⟨"price", decimalMax, order.price⟩, ⟨"originalAmount", decimalMax, order.originalAmount⟩,
      ⟨"remainingAmount", decimalMax, order.remainingAmount⟩]
    [("orders_price_positive", 0 < order.price),
      ("orders_original_amount_positive", 0 < order.originalAmount),
      ("orders_remaining_amount_non_negative", 0 ≤ order.remainingAmount),
      ("orders_remaining_amount_not_greater_than_original",
        order.remainingAmount ≤ order.originalAmount),
      ("orders_status_remaining_amount_consistency", order.statusConsistent)]

/-- What a fee rate column, `DECIMAL(10,8)`, can hold. -/
def rateMax : Int := 10 ^ 10 - 1

def TradeData.check (data : TradeData) : Except Failure Unit :=
  checkRow
    [⟨"makerFeeRate", rateMax, data.makerFeeRate⟩,
      ⟨"makerFeeAmount", decimalMax, data.makerFeeAmount⟩,
      ⟨"takerFeeRate", rateMax, data.takerFeeRate⟩,
      ⟨"takerFeeAmount", decimalMax, data.takerFeeAmount⟩,
      ⟨"price", decimalMax, data.price⟩, ⟨"amount", decimalMax, data.amount⟩]
    [("trades_price_positive", 0 < data.price), ("trades_amount_positive", 0 < data.amount),
      ("trades_maker_fee_rate_non_negative", 0 ≤ data.makerFeeRate),
      ("trades_maker_fee_amount_non_negative", 0 ≤ data.makerFeeAmount),
      ("trades_taker_fee_rate_non_negative", 0 ≤ data.takerFeeRate),
      ("trades_taker_fee_amount_non_negative", 0 ≤ data.takerFeeAmount)]

theorem checkRow_eq_ok {columns : List NumericColumn} {checks : List (String × Bool)} :
    checkRow columns checks = .ok () ↔
      (∀ column ∈ columns, column.value.natAbs ≤ column.limit) ∧
        ∀ check ∈ checks, check.2 = true := by
  unfold checkRow
  cases hColumns : columns.find? (fun column => column.limit < column.value.natAbs) with
  | some column =>
      simp only [reduceCtorEq, false_iff, not_and]
      intro hAll
      have hWide : column.limit < column.value.natAbs := by simpa using List.find?_some hColumns
      exact absurd (hAll column (List.mem_of_find?_eq_some hColumns)) (not_le.mpr hWide)
  | none =>
      have hAll : ∀ column ∈ columns, (column.value.natAbs : Int) ≤ column.limit := by
        simpa using hColumns
      cases hChecks : checks.find? (fun check => !check.2) with
      | some check =>
          simp only [reduceCtorEq, false_iff, not_and]
          intro _ hTrue
          have hFalse : check.2 = false := by simpa using List.find?_some hChecks
          exact absurd (hTrue check (List.mem_of_find?_eq_some hChecks)) (by simp [hFalse])
      | none =>
          have hTrue : ∀ check ∈ checks, check.2 = true := by
            simpa using hChecks
          exact ⟨fun _ => ⟨hAll, hTrue⟩, fun _ => rfl⟩

theorem Wallet.check_eq_ok {wallet : Wallet} : wallet.check = .ok () ↔ wallet.InRange := by
  rw [Wallet.check, checkRow_eq_ok]
  constructor
  · rintro ⟨hColumns, hChecks⟩ field
    have hNonneg : 0 ≤ wallet.get field := by
      simpa using hChecks _ (List.mem_map.mpr ⟨field, field.mem_all, rfl⟩)
    have hColumn := hColumns _ (List.mem_map.mpr ⟨field, field.mem_all, rfl⟩)
    dsimp only at hColumn
    exact ⟨hNonneg, by rwa [Int.natAbs_of_nonneg hNonneg] at hColumn⟩
  · intro hRange
    constructor
    · rintro _ hMem
      obtain ⟨field, _, rfl⟩ := List.mem_map.mp hMem
      dsimp only
      rw [Int.natAbs_of_nonneg (hRange field).1]
      exact (hRange field).2
    · rintro _ hMem
      obtain ⟨field, _, rfl⟩ := List.mem_map.mp hMem
      simpa using (hRange field).1

/-- The rows that the orders table accepts. -/
structure Order.Valid (order : Order) : Prop where
  price_pos : 0 < order.price
  price_le : order.price ≤ decimalMax
  original_pos : 0 < order.originalAmount
  original_le : order.originalAmount ≤ decimalMax
  remaining_nonneg : 0 ≤ order.remainingAmount
  remaining_le : order.remainingAmount ≤ order.originalAmount
  consistent : order.statusConsistent = true

theorem Order.check_eq_ok {order : Order} : order.check = .ok () ↔ order.Valid := by
  rw [Order.check, checkRow_eq_ok]
  simp only [List.forall_mem_cons, List.not_mem_nil, IsEmpty.forall_iff, implies_true, and_true,
    decide_eq_true_eq]
  constructor
  · rintro ⟨⟨hPriceMax, hOriginalMax, _⟩, hPrice, hOriginal, hRemaining, hLe, hConsistent⟩
    exact ⟨hPrice, by omega, hOriginal, by omega, hRemaining, hLe, hConsistent⟩
  · rintro ⟨hPrice, hPriceMax, hOriginal, hOriginalMax, hRemaining, hLe, hConsistent⟩
    exact ⟨⟨by omega, by omega, by omega⟩, hPrice, hOriginal, hRemaining, hLe, hConsistent⟩

end ExchangeMatching
