import ExchangeMatching.Settlement

/-! The market seen from its events. A fill joins a BUY and a SELL order and
is described once for both; which of the two was the taker decides the price
and the fee rates only. -/
namespace ExchangeMatching

open TradeSettlement

/-- A trade between two orders, before it is executed. -/
structure Fill where
  buy : Order
  sell : Order
  takerSide : OrderSide
  amount : Int

namespace Fill

variable (fill : Fill)

def taker : Order :=
  match fill.takerSide with
  | .buy => fill.buy
  | .sell => fill.sell

def maker : Order :=
  match fill.takerSide with
  | .buy => fill.sell
  | .sell => fill.buy

/-- A taker against a maker of the other side. -/
def ofTaker (taker maker : Order) (amount : Int) : Fill :=
  match taker.side with
  | .buy => ⟨taker, maker, .buy, amount⟩
  | .sell => ⟨maker, taker, .sell, amount⟩

def price : Int := fill.maker.price

def executed : Int := cost fill.amount fill.price

/-- What the fill takes from the buyer's reservation. -/
def debit : Int :=
  cost fill.buy.remainingAmount fill.buy.price -
    cost (fill.buy.remainingAmount - fill.amount) fill.buy.price

def buyerRate : Int :=
  match fill.takerSide with
  | .buy => takerFeeRate
  | .sell => makerFeeRate

def sellerRate : Int :=
  match fill.takerSide with
  | .buy => makerFeeRate
  | .sell => takerFeeRate

/-- In BTC. -/
def buyerFee : Int := cost fill.amount fill.buyerRate

/-- In USD. -/
def sellerFee : Int := cost fill.executed fill.sellerRate

def buyerUpdate : BalanceUpdate :=
  [(.reservedUsd, .decrement fill.debit), (.availableUsd, .increment (fill.debit - fill.executed)),
    (.availableBtc, .increment (fill.amount - fill.buyerFee))]

def sellerUpdate : BalanceUpdate :=
  [(.reservedBtc, .decrement fill.amount),
    (.availableUsd, .increment (fill.executed - fill.sellerFee))]

def trade : TradeData where
  makerOrderId := fill.maker.id
  takerOrderId := fill.taker.id
  buyOrderId := fill.buy.id
  sellOrderId := fill.sell.id
  takerSide := fill.takerSide
  makerFeeRate := makerFeeRate
  makerFeeAmount := match fill.takerSide with
    | .buy => fill.sellerFee
    | .sell => fill.buyerFee
  makerFeeAsset := match fill.takerSide with
    | .buy => .usd
    | .sell => .btc
  takerFeeRate := takerFeeRate
  takerFeeAmount := match fill.takerSide with
    | .buy => fill.buyerFee
    | .sell => fill.sellerFee
  takerFeeAsset := match fill.takerSide with
    | .buy => .btc
    | .sell => .usd
  price := fill.price
  amount := fill.amount

end Fill

/-- What a fill leaves of an order. -/
def filledStatus (remaining : Int) : OrderStatus :=
  if remaining = 0 then .filled else .partiallyFilled

/-- An order whose amounts and cost passed the checks of its creation. -/
structure Order.Sound (order : Order) : Prop extends order.Valid where
  cost_pos : 0 < cost order.originalAmount order.price
  cost_le : cost order.originalAmount order.price ≤ decimalMax

/-- A taker in the middle of its matching is still queued, or holds a
remainder of earlier fills. -/
def OrderStatus.isMatching : OrderStatus → Bool
  | .queued | .partiallyFilled => true
  | _ => false

/-- The two orders of a fill can trade with each other. -/
structure Fill.Crossing (fill : Fill) : Prop where
  buySide : fill.buy.side = .buy
  sellSide : fill.sell.side = .sell
  users : fill.buy.userId ≠ fill.sell.userId
  limits : fill.sell.price ≤ fill.buy.price
  resting : fill.maker.status.isResting = true
  matching : fill.taker.status.isMatching = true
  amount_pos : 0 < fill.amount
  amount_le_buy : fill.amount ≤ fill.buy.remainingAmount
  amount_le_sell : fill.amount ≤ fill.sell.remainingAmount
  executed_pos : 0 < fill.executed

namespace Market

variable (market : Market)

/-- Reduce the remaining amounts of the two orders of a fill. -/
def fillOrders (fill : Fill) : Market :=
  (market.putOrder fill.buy.id (fill.buy.remainingAmount - fill.amount)
      (filledStatus (fill.buy.remainingAmount - fill.amount))).putOrder
    fill.sell.id (fill.sell.remainingAmount - fill.amount)
      (filledStatus (fill.sell.remainingAmount - fill.amount))

/-- Settle a fill between two wallets and record its trade. -/
def settle (fill : Fill) (buyer seller : Wallet) (now : Nat) : Market :=
  ((market.putWallet (buyer.update fill.buyerUpdate)).putWallet
      (seller.update fill.sellerUpdate)).addTrade
    ⟨fill.trade, market.trades.length, market.trades.length, now⟩

/-- The ways in which the market changes. -/
inductive Event : Market → Market → Prop where
  | placed {market : Market} {order : Order} {wallet : Wallet}
      (sound : order.Sound) (queued : order.status = .queued) (fresh : market.IsFresh order)
      (found : market.wallets.find? order.userId = some wallet)
      (fits : (order.side.reserve order.reservation).Fits wallet) :
      Event market
        ((market.putWallet (wallet.update (order.side.reserve order.reservation))).addOrder order)
  | opened {market : Market} {order : Order}
      (found : market.orders.find? order.id = some order) (queued : order.status = .queued) :
      Event market (market.putOrder order.id order.remainingAmount .opened)
  | filled {market : Market} {fill : Fill} {buyer seller : Wallet} {now : Nat}
      (buy : market.orders.find? fill.buy.id = some fill.buy)
      (sell : market.orders.find? fill.sell.id = some fill.sell)
      (crossing : fill.Crossing)
      (buyerFound : market.wallets.find? fill.buy.userId = some buyer)
      (sellerFound : market.wallets.find? fill.sell.userId = some seller)
      (buyerFits : fill.buyerUpdate.Fits buyer) (sellerFits : fill.sellerUpdate.Fits seller) :
      Event market ((market.settle fill buyer seller now).fillOrders fill)
  | closed {market : Market} {order : Order} {wallet : Wallet} {status : OrderStatus}
      (found : market.orders.find? order.id = some order)
      (allowed : status = .cancelled ∧ order.status.isActive = true ∨
        status = .rejected ∧ order.status = .queued)
      (walletFound : market.wallets.find? order.userId = some wallet)
      (fits : (order.side.release order.reservation).Fits wallet) :
      Event market ((market.putOrder order.id order.remainingAmount status).putWallet
        (wallet.update (order.side.release order.reservation)))

/-- The market after any number of events. -/
def Evolves : Market → Market → Prop := Relation.ReflTransGen Event

/-- Balances are in range and every order passed the checks of its creation. -/
structure WellFormed : Prop where
  wallets : market.WalletsInRange
  orders : ∀ order ∈ market.orders, order.Sound

section Rows

variable {market : Market}

/-- Each of the tables is written by its own operations, which leave the other two
as they are. -/
@[simp] theorem orders_putWallet
    (row : Wallet) : (market.putWallet row).orders = market.orders := rfl
@[simp] theorem trades_putWallet
    (row : Wallet) : (market.putWallet row).trades = market.trades := rfl
@[simp] theorem wallets_putOrder (id : OrderId) (remaining : Int) (status : OrderStatus) :
    (market.putOrder id remaining status).wallets = market.wallets := rfl
@[simp] theorem trades_putOrder (id : OrderId) (remaining : Int) (status : OrderStatus) :
    (market.putOrder id remaining status).trades = market.trades := rfl
@[simp] theorem wallets_addTrade
    (trade : Trade) : (market.addTrade trade).wallets = market.wallets := rfl
@[simp] theorem orders_addTrade
    (trade : Trade) : (market.addTrade trade).orders = market.orders := rfl
@[simp] theorem trades_addTrade (trade : Trade) :
    (market.addTrade trade).trades = market.trades ++ [trade] := rfl

/-- A new order changes no wallet and no trade. -/
@[simp] theorem wallets_addOrder
    (order : Order) : (market.addOrder order).wallets = market.wallets := by
  unfold addOrder
  split_ifs <;> rfl

@[simp] theorem trades_addOrder
    (order : Order) : (market.addOrder order).trades = market.trades := by
  unfold addOrder
  split_ifs <;> rfl

/-- A fresh order is inserted as it is. -/
theorem orders_addOrder {order : Order} (h : market.IsFresh order) :
    (market.addOrder order).orders = market.orders.insert order h.1 := by
  rw [addOrder, dif_pos h]

/-- A wallet is found as it was last written. -/
theorem find?_putWallet {row old : Wallet} {userId : UserId}
    (h : market.wallets.find? row.userId = some old) :
    (market.putWallet row).wallets.find? userId =
      if userId = row.userId then some row else market.wallets.find? userId := by
  have hRow : { row with userId := old.userId } = row := by
    rw [Table.key_of_find? h]
  rw [putWallet, Table.find?_modify, h, Option.map_some, hRow]

/-- An update of a stored wallet. -/
theorem find?_putWallet_update {wallet : Wallet} {userId other : UserId} {data : BalanceUpdate}
    (h : market.wallets.find? userId = some wallet) :
    (market.putWallet (wallet.update data)).wallets.find? other =
      if other = userId then some (wallet.update data) else market.wallets.find? other := by
  have hKey := Table.key_of_find? h
  rw [find?_putWallet (by rw [Wallet.userId_update, hKey]; exact h), Wallet.userId_update, hKey]

/-- An order is found with the remainder and the status that were last written. -/
theorem find?_putOrder {id other : OrderId} {order : Order} {remaining : Int} {status : OrderStatus}
    (h : market.orders.find? id = some order) :
    (market.putOrder id remaining status).orders.find? other =
      if other = id then some (order.revised remaining status) else market.orders.find? other := by
  rw [putOrder, Table.find?_modify, h, Option.map_some]

/-- A new order is found under its id. -/
theorem find?_addOrder {order : Order} {id : OrderId} (h : market.IsFresh order) :
    (market.addOrder order).orders.find? id =
      if id = order.id then some order else market.orders.find? id := by
  rw [orders_addOrder h, Table.find?_insert]

/-- No wallet comes from nowhere. -/
theorem mem_putWallet {row wallet : Wallet} (hMem : wallet ∈ (market.putWallet row).wallets) :
    wallet ∈ market.wallets ∨ wallet = row := by
  simp only [putWallet, Table.mem_modify] at hMem
  rcases hMem with ⟨hOld, _⟩ | ⟨old, _, hKey, rfl⟩
  · exact Or.inl hOld
  · exact Or.inr (by rw [hKey])

/-- And no order. -/
theorem mem_putOrder {id : OrderId} {order other : Order} {remaining : Int} {status : OrderStatus}
    (h : market.orders.find? id = some order)
    (hMem : other ∈ (market.putOrder id remaining status).orders) :
    other ∈ market.orders ∨ other = order.revised remaining status := by
  simp only [putOrder, Table.mem_modify] at hMem
  rcases hMem with ⟨hOld, _⟩ | ⟨old, hOld, hKey, rfl⟩
  · exact Or.inl hOld
  · have hFound := Table.find?_eq_some_iff.mpr ⟨hOld, hKey⟩
    rw [h] at hFound
    cases hFound
    exact Or.inr rfl

/-- A written wallet changes a sum over the wallets by its own difference. -/
theorem sum_putWallet {quantity : Wallet → Int} {row old : Wallet}
    (h : market.wallets.find? row.userId = some old) :
    (market.putWallet row).wallets.sum quantity =
      market.wallets.sum quantity + (quantity row - quantity old) := by
  rw [putWallet, Table.sum_modify h, Table.key_of_find? h]

/-- A written order does the same to a sum over the orders. -/
theorem sum_putOrder {quantity : Order → Int} {id : OrderId} {order : Order} {remaining : Int}
    {status : OrderStatus} (h : market.orders.find? id = some order) :
    (market.putOrder id remaining status).orders.sum quantity =
      market.orders.sum quantity +
        (quantity (order.revised remaining status) - quantity order) := by
  rw [putOrder, Table.sum_modify h]

/-- A new order adds its own quantity. -/
theorem sum_addOrder {quantity : Order → Int} {order : Order} (h : market.IsFresh order) :
    (market.addOrder order).orders.sum quantity = market.orders.sum quantity + quantity order := by
  rw [orders_addOrder h, Table.sum_insert]

end Rows
end Market

/-- An active order has something left. -/
theorem Order.Valid.remaining_pos {order : Order} (h : order.Valid)
    (hActive : order.status.isActive = true) : 0 < order.remainingAmount := by
  have hOriginal := h.original_pos
  have hConsistent := Order.statusConsistent_iff.mp h.consistent
  cases hStatus : order.status with
  | queued | opened =>
      rw [hStatus] at hConsistent
      exact hConsistent.symm ▸ hOriginal
  | partiallyFilled =>
      rw [hStatus] at hConsistent
      exact hConsistent.1
  | filled | cancelled | rejected =>
      rw [hStatus] at hActive
      cases hActive

namespace Order.Sound

variable {order : Order}

/-- A reduced order stays sound in a status that agrees with its remainder. -/
theorem revised (h : order.Sound) {remaining : Int} {status : OrderStatus} (hNonneg : 0 ≤ remaining)
    (hLe : remaining ≤ order.originalAmount)
    (hConsistent : (order.revised remaining status).statusConsistent = true) :
    (order.revised remaining status).Sound :=
  ⟨⟨h.price_pos, h.price_le, h.original_pos, h.original_le, hNonneg, hLe, hConsistent⟩,
    h.cost_pos, h.cost_le⟩

/-- An order stays sound when part of its remainder is filled. -/
theorem filled (h : order.Sound) {amount : Int} (hPos : 0 < amount)
    (hLe : amount ≤ order.remainingAmount) :
    (order.revised (order.remainingAmount - amount)
      (filledStatus (order.remainingAmount - amount))).Sound := by
  have hOriginal := h.remaining_le
  refine h.revised (by omega) (by omega) (Order.statusConsistent_iff.mpr ?_)
  simp only [filledStatus, Order.revised_status]
  split_ifs with hZero
  · exact hZero
  · simp only [Order.revised_remainingAmount, Order.revised_originalAmount]
    omega

/-- Nothing of a queued order has been filled yet. -/
theorem remaining_eq (h : order.Sound) (hQueued : order.status = .queued) :
    order.remainingAmount = order.originalAmount := by
  have hConsistent := Order.statusConsistent_iff.mp h.consistent
  rwa [hQueued] at hConsistent

/-- A queued order may be put into the book. -/
theorem opened (h : order.Sound) (hQueued : order.status = .queued) :
    (order.revised order.remainingAmount .opened).Sound :=
  h.revised h.remaining_nonneg h.remaining_le
    (Order.statusConsistent_iff.mpr (h.remaining_eq hQueued))

/-- An active order may be cancelled, and a queued one rejected. -/
theorem closed (h : order.Sound) {status : OrderStatus}
    (hAllowed : status = .cancelled ∧ order.status.isActive = true ∨
      status = .rejected ∧ order.status = .queued) :
    (order.revised order.remainingAmount status).Sound := by
  refine h.revised h.remaining_nonneg h.remaining_le (Order.statusConsistent_iff.mpr ?_)
  rcases hAllowed with ⟨rfl, hActive⟩ | ⟨rfl, hQueued⟩
  · exact ⟨h.remaining_pos hActive, h.remaining_le⟩
  · exact h.remaining_eq hQueued

end Order.Sound

namespace Market

variable {market market' : Market}

/-- A BUY and a SELL order are different rows. -/
theorem ids_of_crossing {fill : Fill} (hCrossing : fill.Crossing)
    (hBuy : market.orders.find? fill.buy.id = some fill.buy)
    (hSell : market.orders.find? fill.sell.id = some fill.sell) : fill.sell.id ≠ fill.buy.id := by
  intro hEq
  rw [hEq, hBuy, Option.some.injEq] at hSell
  have hSides := hSell ▸ hCrossing.sellSide
  rw [hCrossing.buySide] at hSides
  cases hSides

/-- The second order of a fill is found where the first one was rewritten. -/
theorem find?_sell_of_putOrder {fill : Fill} (hCrossing : fill.Crossing)
    (hBuy : market.orders.find? fill.buy.id = some fill.buy)
    (hSell : market.orders.find? fill.sell.id = some fill.sell) {remaining : Int}
    {status : OrderStatus} :
    (market.putOrder fill.buy.id remaining status).orders.find? fill.sell.id = some fill.sell := by
  rw [find?_putOrder hBuy, if_neg (ids_of_crossing hCrossing hBuy hSell), hSell]

/-- The second wallet of a fill is found where the first one was rewritten. -/
theorem find?_seller_of_putWallet {fill : Fill} {buyer seller : Wallet} (hCrossing : fill.Crossing)
    (hBuyer : market.wallets.find? fill.buy.userId = some buyer)
    (hSeller : market.wallets.find? fill.sell.userId = some seller) {data : BalanceUpdate} :
    (market.putWallet (buyer.update data)).wallets.find? fill.sell.userId = some seller := by
  rw [find?_putWallet_update hBuyer, if_neg hCrossing.users.symm, hSeller]

theorem isFresh_putWallet {row : Wallet} {order : Order} :
    (market.putWallet row).IsFresh order ↔ market.IsFresh order := Iff.rfl

/-- The orders after an insertion are the old ones and the new one. -/
theorem mem_addOrder {order other : Order} (h : market.IsFresh order)
    (hMem : other ∈ (market.addOrder order).orders) : other ∈ market.orders ∨ other = order := by
  rw [orders_addOrder h] at hMem
  exact Table.mem_insert.mp hMem

/-- A resting order has something left. -/
theorem WellFormed.resting_pos (h : market.WellFormed) :
    ∀ order ∈ market.orders, order.status.isResting = true → 0 < order.remainingAmount := by
  intro order hOrder hResting
  refine (h.orders order hOrder).remaining_pos ?_
  cases hStatus : order.status <;> rw [hStatus] at hResting <;> first | rfl | cases hResting

/-- Every event keeps the market well formed. -/
theorem WellFormed.of_event (h : market.WellFormed) (hEvent : market.Event market') :
    market'.WellFormed := by
  cases hEvent with
  | @placed order wallet sound queued fresh found fits =>
      constructor
      · intro row hRow
        rw [wallets_addOrder] at hRow
        rcases mem_putWallet hRow with hOld | rfl
        · exact h.wallets row hOld
        · exact fits.result
      · intro row hRow
        rcases mem_addOrder (isFresh_putWallet.mpr fresh) hRow with hOld | rfl
        · exact h.orders row hOld
        · exact sound
  | @opened order found queued =>
      refine ⟨h.wallets, fun row hRow => ?_⟩
      rcases mem_putOrder found hRow with hOld | rfl
      · exact h.orders row hOld
      · exact (h.orders order (Table.mem_of_find? found)).opened queued
  | @filled fill buyer seller now buy sell crossing buyerFound sellerFound buyerFits sellerFits =>
      constructor
      · intro row hRow
        rcases mem_putWallet hRow with hMiddle | rfl
        · rcases mem_putWallet hMiddle with hOld | rfl
          · exact h.wallets row hOld
          · exact buyerFits.result
        · exact sellerFits.result
      · intro row hRow
        rcases mem_putOrder (find?_sell_of_putOrder crossing buy sell) hRow with hMiddle | rfl
        · rcases mem_putOrder buy hMiddle with hOld | rfl
          · exact h.orders row hOld
          · exact (h.orders _ (Table.mem_of_find? buy)).filled crossing.amount_pos
              crossing.amount_le_buy
        · exact (h.orders _ (Table.mem_of_find? sell)).filled crossing.amount_pos
            crossing.amount_le_sell
  | @closed order wallet status found allowed walletFound fits =>
      constructor
      · intro row hRow
        rcases mem_putWallet hRow with hOld | rfl
        · exact h.wallets row hOld
        · exact fits.result
      · intro row hRow
        rcases mem_putOrder found hRow with hOld | rfl
        · exact h.orders row hOld
        · exact (h.orders order (Table.mem_of_find? found)).closed allowed

/-- A property that every event preserves in a well formed market holds after
any number of events. -/
theorem Evolves.induction {P : Market → Prop} (hEvolves : market.Evolves market')
    (hWell : market.WellFormed) (hStart : P market)
    (hEvent : ∀ before after, before.WellFormed → Event before after → P before → P after) :
    market'.WellFormed ∧ P market' := by
  induction hEvolves with
  | refl => exact ⟨hWell, hStart⟩
  | tail _ event ih => exact ⟨ih.1.of_event event, hEvent _ _ ih.1 event ih.2⟩

end Market
end ExchangeMatching
