import ExchangeMatching.Balances

/-! Reserved balances equal what the active orders of their user bind. Every
event moves a reservation and the orders behind it by the same amount. -/
namespace ExchangeMatching

open Transactions

namespace OrderSide

variable (side other : OrderSide) (amount : Int)

theorem net_reserve_reserved :
    (side.reserve amount).net other.reserved = if side = other then amount else 0 := by
  cases side <;> cases other <;> simp [reserve, available, reserved, BalanceChange.signed]

theorem net_release_reserved :
    (side.release amount).net other.reserved = if side = other then -amount else 0 := by
  cases side <;> cases other <;> simp [release, available, reserved, BalanceChange.signed]

/-- Nothing left binds nothing. -/
theorem reservation_zero (price : Int) : side.reservation 0 price = 0 := by
  cases side with
  | buy => exact cost_zero price
  | sell => rfl

end OrderSide

namespace OrderStatus

theorem isActive_of_isResting {status : OrderStatus} (h : status.isResting = true) :
    status.isActive = true := by
  cases status <;> first | rfl | cases h

theorem isActive_of_isMatching {status : OrderStatus} (h : status.isMatching = true) :
    status.isActive = true := by
  cases status <;> first | rfl | cases h

end OrderStatus

namespace Order

variable {userId : UserId} {side : OrderSide} {order : Order}

theorem reserves_of_isActive (h : order.status.isActive = true) :
    order.reserves userId side =
      if userId = order.userId then if order.side = side then order.reservation else 0 else 0 := by
  simp only [reserves, h, and_true, ite_and]

theorem reserves_of_closed (h : order.status.isActive = false) :
    order.reserves userId side = 0 := by
  simp [reserves, h]

/-- What an order reserves after a fill. A filled order reserves nothing, and
that is the reservation of its remaining amount, too. -/
theorem reserves_filled (remaining : Int) :
    (order.revised remaining (filledStatus remaining)).reserves userId side =
      if userId = order.userId then
        if order.side = side then order.side.reservation remaining order.price else 0
      else 0 := by
  by_cases hZero : remaining = 0
  · rw [reserves_of_closed (by rw [revised_status, filledStatus, if_pos hZero]; rfl), hZero,
      OrderSide.reservation_zero, ite_self, ite_self]
  · exact reserves_of_isActive (by rw [revised_status, filledStatus, if_neg hZero]; rfl)

end Order

namespace Fill

variable {fill : Fill}

theorem Crossing.buy_active (h : fill.Crossing) : fill.buy.status.isActive = true := by
  have hMatching := h.matching
  have hResting := h.resting
  unfold taker at hMatching
  unfold maker at hResting
  cases hSide : fill.takerSide with
  | buy =>
      rw [hSide] at hMatching
      exact OrderStatus.isActive_of_isMatching hMatching
  | sell =>
      rw [hSide] at hResting
      exact OrderStatus.isActive_of_isResting hResting

theorem Crossing.sell_active (h : fill.Crossing) : fill.sell.status.isActive = true := by
  have hMatching := h.matching
  have hResting := h.resting
  unfold taker at hMatching
  unfold maker at hResting
  cases hSide : fill.takerSide with
  | buy =>
      rw [hSide] at hResting
      exact OrderStatus.isActive_of_isResting hResting
  | sell =>
      rw [hSide] at hMatching
      exact OrderStatus.isActive_of_isMatching hMatching

theorem net_buyerUpdate_reserved (fill : Fill) (side : OrderSide) :
    fill.buyerUpdate.net side.reserved = if .buy = side then -fill.debit else 0 := by
  cases side <;> simp [buyerUpdate, OrderSide.reserved, BalanceChange.signed]

theorem net_sellerUpdate_reserved (fill : Fill) (side : OrderSide) :
    fill.sellerUpdate.net side.reserved = if .sell = side then -fill.amount else 0 := by
  cases side <;> simp [sellerUpdate, OrderSide.reserved, BalanceChange.signed]

end Fill

namespace Market

variable {market market' : Market}

/-- Every reserved balance is what the active orders behind it reserve. -/
def Exact (market : Market) : Prop :=
  ∀ userId side, market.balance userId side.reserved =
    market.orders.sum (Order.reserves userId side)

theorem isActive_of_allowed {order : Order} {status : OrderStatus}
    (h : status = .cancelled ∧ order.status.isActive = true ∨
      status = .rejected ∧ order.status = .queued) :
    order.status.isActive = true ∧ status.isActive = false := by
  rcases h with ⟨rfl, hActive⟩ | ⟨rfl, hQueued⟩
  · exact ⟨hActive, rfl⟩
  · rw [hQueued]
    decide

/-- The orders of a fill after it reserve less by what the fill took. -/
theorem sum_fillOrders {fill : Fill} {quantity : Order → Int} (hCrossing : fill.Crossing)
    (hBuy : market.orders.find? fill.buy.id = some fill.buy)
    (hSell : market.orders.find? fill.sell.id = some fill.sell) :
    (market.fillOrders fill).orders.sum quantity = market.orders.sum quantity +
      (quantity (fill.buy.revised (fill.buy.remainingAmount - fill.amount)
        (filledStatus (fill.buy.remainingAmount - fill.amount))) - quantity fill.buy) +
      (quantity (fill.sell.revised (fill.sell.remainingAmount - fill.amount)
        (filledStatus (fill.sell.remainingAmount - fill.amount))) - quantity fill.sell) := by
  rw [fillOrders, sum_putOrder (find?_sell_of_putOrder hCrossing hBuy hSell), sum_putOrder hBuy]

/-- Every event keeps the reserved balances exact. -/
theorem Exact.of_event (h : market.Exact) (hEvent : market.Event market') : market'.Exact := by
  intro userId side
  cases hEvent with
  | @placed order wallet sound queued fresh found fits =>
      have hActive : order.status.isActive = true := by rw [queued]; rfl
      rw [balance_addOrder, balance_update found, sum_addOrder (isFresh_putWallet.mpr fresh),
        orders_putWallet, h, Order.reserves_of_isActive hActive, OrderSide.net_reserve_reserved]
  | @opened order found queued =>
      have hActive : order.status.isActive = true := by rw [queued]; rfl
      have hOpened : (order.revised order.remainingAmount .opened).reserves userId side =
          order.reserves userId side := by
        rw [Order.reserves_of_isActive hActive]
        exact Order.reserves_of_isActive rfl
      rw [balance_putOrder, sum_putOrder found, h, hOpened]
      omega
  | @filled fill buyer seller now buy sell crossing buyerFound sellerFound buyerFits sellerFits =>
      have hOrders : (market.settle fill buyer seller now).orders = market.orders := rfl
      rw [balance_fillOrders, balance_settle crossing buyerFound sellerFound,
        sum_fillOrders crossing (hOrders ▸ buy) (hOrders ▸ sell), hOrders, h,
        Order.reserves_filled, Order.reserves_filled,
        Order.reserves_of_isActive crossing.buy_active,
        Order.reserves_of_isActive crossing.sell_active, Fill.net_buyerUpdate_reserved,
        Fill.net_sellerUpdate_reserved]
      simp only [crossing.buySide, crossing.sellSide, Order.reservation, OrderSide.reservation,
        Fill.debit]
      -- The debit telescopes: what the buy order reserved minus what it reserves now.
      split_ifs <;> omega
  | @closed order wallet status found allowed walletFound fits =>
      obtain ⟨hActive, hClosed⟩ := isActive_of_allowed allowed
      have hFound : (market.putOrder order.id order.remainingAmount status).wallets.find?
          order.userId =
          some wallet := walletFound
      rw [balance_update hFound, balance_putOrder, orders_putWallet, sum_putOrder found, h,
        Order.reserves_of_closed ((order.revised_status ..).symm ▸ hClosed),
        Order.reserves_of_isActive hActive, OrderSide.net_release_reserved]
      split_ifs <;> omega

theorem Opening.exact (h : market.Opening) : market.Exact := by
  intro userId side
  rw [h.balance_reserved, h.sum_orders]

end Market

namespace Market

/-- The orders of a user on one side that are queued or rest in the book. -/
def activeOrders (market : Market) (userId : UserId) (side : OrderSide) : List Order :=
  market.orders.rows.filter fun order => order.userId = userId ∧ order.side = side ∧
    order.status ∈ [.queued, .opened, .partiallyFilled]

variable {market : Market} {userId : UserId} {side : OrderSide}

theorem sum_reserves : market.orders.sum (Order.reserves userId side) =
    ((market.activeOrders userId side).map Order.reservation).sum := by
  unfold Table.sum activeOrders
  induction market.orders.rows with
  | nil => rfl
  | cons order orders ih =>
      have hActive : order.status.isActive = true ↔
          order.status ∈ [.queued, .opened, .partiallyFilled] := by
        cases order.status <;> simp [OrderStatus.isActive]
      rw [List.map_cons, List.sum_cons, ih, List.filter_cons, Order.reserves]
      simp only [hActive, eq_comm (a := userId), decide_eq_true_eq]
      split_ifs
      · rw [List.map_cons, List.sum_cons]
      · rw [zero_add]

theorem Exact.get_reserved (h : market.Exact) (side : OrderSide) {wallet : Wallet}
    (hWallet : wallet ∈ market.wallets) :
    wallet.get side.reserved =
      ((market.activeOrders wallet.userId side).map (fun order =>
        side.reservation order.remainingAmount order.price)).sum := by
  rw [← balance_of_find? (Table.find?_of_mem hWallet), h, sum_reserves]
  congr 1
  apply List.map_congr_left
  intro order hOrder
  have hSide : order.side = side := by
    simp only [activeOrders, List.mem_filter, decide_eq_true_eq] at hOrder
    exact hOrder.2.2.1
  rw [Order.reservation, hSide]

end Market

namespace History

variable {newDecimal : String → Option DecimalValue} {start : Database}

/-- After any calls from an opening the market is well formed and exact. -/
theorem exact_of_opening (hOpening : start.Opening) (invocations : List Invocation) :
    ((History.start start).calls newDecimal invocations).db.WellFormed ∧
      ((History.start start).calls newDecimal invocations).db.Exact :=
  (calls_evolve hOpening.wellFormed invocations).induction hOpening.wellFormed hOpening.exact
    fun _ _ _ hEvent hExact => hExact.of_event hEvent

/-- Whatever calls are made by whomever, the reserved balances of every user
are the sums over the user's active orders, each order rounded on its own, and
no balance leaves the range of its column. -/
theorem reservations_exact (hOpening : start.Opening) (invocations : List Invocation) :
    ∀ wallet ∈ ((History.start start).calls newDecimal invocations).db.wallets,
      wallet.reservedBtc =
        ((((History.start start).calls newDecimal invocations).db.activeOrders wallet.userId
          .sell).map Order.remainingAmount).sum ∧
      wallet.reservedUsd =
        ((((History.start start).calls newDecimal invocations).db.activeOrders wallet.userId
          .buy).map (fun order => cost order.remainingAmount order.price)).sum ∧
      wallet.InRange := by
  intro wallet hWallet
  obtain ⟨hWell, hExact⟩ := @exact_of_opening newDecimal start hOpening invocations
  exact ⟨hExact.get_reserved .sell hWallet, hExact.get_reserved .buy hWallet,
    hWell.wallets wallet hWallet⟩

theorem reservations_exact_sample : Sample.final.db.wallets.rows.length = 2 ∧
    ∀ wallet ∈ Sample.final.db.wallets,
      wallet.reservedBtc =
        ((Sample.final.db.activeOrders wallet.userId .sell).map Order.remainingAmount).sum ∧
      wallet.reservedUsd = ((Sample.final.db.activeOrders wallet.userId .buy).map
        (fun order => cost order.remainingAmount order.price)).sum ∧
      wallet.InRange :=
  ⟨by decide +kernel, reservations_exact Sample.opening Sample.calls⟩

end History
end ExchangeMatching
