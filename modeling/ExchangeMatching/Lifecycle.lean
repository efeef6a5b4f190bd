import ExchangeMatching.Failures
import ExchangeMatching.Trades

/-! The life of an order: what was traded of it, how its status may change, and
what its trades are like. -/
namespace ExchangeMatching

namespace Market

variable {market market' : Market}

/-- The amount traded of an order, as maker or as taker. -/
def executed (market : Market) (id : OrderId) : Int :=
  ((market.trades.filter fun trade => trade.makerOrderId = id ∨ trade.takerOrderId = id).map
    (·.amount)).sum

/-- Every trade is recorded, and what is missing from an order was traded. -/
structure Accounted (market : Market) : Prop where
  recorded : market.AllRecorded
  executed : ∀ id order, market.orders.find? id = some order →
    order.originalAmount - order.remainingAmount = market.executed id

theorem executed_of_trades_eq (h : market'.trades = market.trades) (id : OrderId) :
    market'.executed id = market.executed id := by
  rw [executed, h, executed]

theorem executed_append {trade : Trade} (h : market'.trades = market.trades ++ [trade])
    (id : OrderId) : market'.executed id = market.executed id +
      if trade.makerOrderId = id ∨ trade.takerOrderId = id then trade.amount else 0 := by
  rw [executed, h, List.filter_append, List.map_append, List.sum_append, executed, List.filter_cons]
  split_ifs <;> simp_all

/-- An order that is not stored has not traded. -/
theorem AllRecorded.executed_of_find?_eq_none (h : market.AllRecorded) {id : OrderId}
    (hNone : market.orders.find? id = none) : market.executed id = 0 := by
  have hEmpty : (market.trades.filter fun trade =>
      trade.makerOrderId = id ∨ trade.takerOrderId = id) = [] := by
    rw [List.filter_eq_nil_iff]
    intro trade hTrade hIds
    obtain ⟨buy, sell, _, _, hMaker, hTaker, _⟩ := (h trade hTrade).orders
    rcases of_decide_eq_true hIds with rfl | rfl
    · rw [hNone] at hMaker
      cases hMaker
    · rw [hNone] at hTaker
      cases hTaker
  rw [executed, hEmpty, List.map_nil, List.sum_nil]

/-- A trade names its two orders as maker and taker. -/
theorem trade_names_iff (fill : Fill) (id : OrderId) :
    fill.trade.makerOrderId = id ∨ fill.trade.takerOrderId = id ↔
      fill.buy.id = id ∨ fill.sell.id = id := by
  unfold Fill.trade Fill.maker Fill.taker
  cases fill.takerSide with
  | buy => exact or_comm
  | sell => exact Iff.rfl

/-- Rewriting an order without changing its remaining amount keeps the account. -/
theorem executed_putOrder {order row : Order} {id : OrderId} {status : OrderStatus}
    (h : ∀ id order, market.orders.find? id = some order →
      order.originalAmount - order.remainingAmount = market.executed id)
    (hOrder : market.orders.find? order.id = some order)
    (hRow : (market.putOrder order.id order.remainingAmount status).orders.find? id = some row) :
    row.originalAmount - row.remainingAmount = market.executed id := by
  rw [find?_putOrder hOrder] at hRow
  split_ifs at hRow with hId
  · cases hRow
    exact h id order (hId ▸ hOrder)
  · exact h id row hRow

theorem Accounted.of_event (h : market.Accounted) (hEvent : market.Event market') :
    market'.Accounted := by
  refine ⟨h.recorded.of_event hEvent, fun id row hRow => ?_⟩
  cases hEvent with
  | @placed order wallet sound queued fresh found fits =>
      rw [executed_of_trades_eq (trades_addOrder order)]
      rw [find?_addOrder (isFresh_putWallet.mpr fresh)] at hRow
      split_ifs at hRow with hId
      · cases hRow
        rw [hId, sound.remaining_eq queued, sub_self]
        exact (h.recorded.executed_of_find?_eq_none fresh.1).symm
      · exact h.executed id row hRow
  | opened found queued =>
      have hOpened := @executed_putOrder market _ _ _ _ h.executed found hRow
      exact hOpened
  | @filled fill buyer seller now buy sell crossing buyerFound sellerFound buyerFits sellerFits =>
      have hTrades : ((market.settle fill buyer seller now).fillOrders fill).trades =
          market.trades ++ [⟨fill.trade, market.trades.length, market.trades.length, now⟩] := rfl
      have hNames := trade_names_iff fill id
      have hIds := ids_of_crossing crossing buy sell
      have hAmount : fill.trade.amount = fill.amount := rfl
      rw [executed_append hTrades]
      simp only [hNames, hAmount]
      rw [fillOrders, find?_putOrder
        (@find?_sell_of_putOrder (market.settle fill buyer seller now) fill
        crossing buy sell _ _), find?_putOrder
          (show (market.settle fill buyer seller now).orders.find?
        fill.buy.id = some fill.buy from buy)] at hRow
      split_ifs at hRow with hSell hBuy
      · cases hRow
        have hOld := h.executed fill.sell.id fill.sell sell
        rw [if_pos (Or.inr hSell.symm), hSell]
        simp only [Order.revised_originalAmount, Order.revised_remainingAmount]
        omega
      · cases hRow
        have hOld := h.executed fill.buy.id fill.buy buy
        rw [if_pos (Or.inl hBuy.symm), hBuy]
        simp only [Order.revised_originalAmount, Order.revised_remainingAmount]
        omega
      · rw [if_neg (by rintro (rfl | rfl) <;> contradiction), add_zero]
        exact h.executed id row hRow
  | closed found allowed walletFound fits =>
      have hClosed := @executed_putOrder market _ _ _ _ h.executed found hRow
      exact hClosed

theorem Opening.accounted (h : market.Opening) : market.Accounted where
  recorded := h.allRecorded
  executed id order hFound := by
    have hMem := Table.mem_of_find? hFound
    rw [Table.mem_def, h.noOrders] at hMem
    cases hMem

/-- The trade joins a BUY and a SELL order of two users, at the maker's price,
and leaves both of them something after fees. -/
structure TradeValid (market : Market) (trade : Trade) (buy sell : Order) : Prop where
  buyFound : market.orders.find? trade.buyOrderId = some buy
  sellFound : market.orders.find? trade.sellOrderId = some sell
  buySide : buy.side = .buy
  sellSide : sell.side = .sell
  users : buy.userId ≠ sell.userId
  makerPrice : trade.makerOrderId = buy.id ∧ trade.takerOrderId = sell.id ∧
    trade.price = buy.price ∨ trade.makerOrderId = sell.id ∧ trade.takerOrderId = buy.id ∧
    trade.price = sell.price
  limits : sell.price ≤ trade.price ∧ trade.price ≤ buy.price
  amount_pos : 0 < trade.amount
  cost_pos : 0 < cost trade.amount trade.price
  /-- The buyer receives BTC and the seller USD, each less a fee in that asset. -/
  fees : (trade.makerFeeAsset = .btc ∧ trade.makerFeeAmount < trade.amount ∧
      trade.takerFeeAsset = .usd ∧ trade.takerFeeAmount < cost trade.amount trade.price) ∨
    (trade.makerFeeAsset = .usd ∧ trade.makerFeeAmount < cost trade.amount trade.price ∧
      trade.takerFeeAsset = .btc ∧ trade.takerFeeAmount < trade.amount)

theorem Recorded.valid {trade : Trade} (h : market.Recorded trade) :
    ∃ buy sell, market.TradeValid trade buy sell := by
  obtain ⟨buy, sell, hBuy, hSell, hJoins⟩ := h
  refine ⟨buy, sell, ?_⟩
  obtain ⟨data, id, sequence, createdAt⟩ := trade
  have hData : data = (Fill.mk buy sell data.takerSide data.amount).trade := hJoins.data
  have hExecuted : 0 < (Fill.mk buy sell data.takerSide data.amount).executed := hJoins.executed_pos
  have hBuyerRate := (Fill.mk buy sell data.takerSide data.amount).buyerRate_bounds
  have hSellerRate := (Fill.mk buy sell data.takerSide data.amount).sellerRate_bounds
  have hBuyerFee : (Fill.mk buy sell data.takerSide data.amount).buyerFee < data.amount :=
    FloorProduct.floorProduct_lt_self one_pos hJoins.amount_pos hBuyerRate.2
  have hSellerFee : (Fill.mk buy sell data.takerSide data.amount).sellerFee <
      (Fill.mk buy sell data.takerSide data.amount).executed :=
    FloorProduct.floorProduct_lt_self one_pos hExecuted hSellerRate.2
  have hLimits := hJoins.limits
  cases hSide : data.takerSide with
  | buy =>
      rw [hSide] at hData hExecuted hBuyerFee hSellerFee
      exact {
        buyFound := hBuy, sellFound := hSell, buySide := hJoins.buySide, sellSide := hJoins.sellSide
        users := hJoins.users, amount_pos := hJoins.amount_pos
        makerPrice := by
          rw [hData]
          exact Or.inr ⟨rfl, rfl, rfl⟩
        limits := by
          rw [hData]
          exact ⟨le_refl _, hLimits⟩
        cost_pos := by
          rw [hData]
          exact hExecuted
        fees := by
          rw [hData]
          exact Or.inr ⟨rfl, hSellerFee, rfl, hBuyerFee⟩ }
  | sell =>
      rw [hSide] at hData hExecuted hBuyerFee hSellerFee
      exact {
        buyFound := hBuy, sellFound := hSell, buySide := hJoins.buySide, sellSide := hJoins.sellSide
        users := hJoins.users, amount_pos := hJoins.amount_pos
        makerPrice := by
          rw [hData]
          exact Or.inl ⟨rfl, rfl, rfl⟩
        limits := by
          rw [hData]
          exact ⟨hLimits, le_refl _⟩
        cost_pos := by
          rw [hData]
          exact hExecuted
        fees := by
          rw [hData]
          exact Or.inl ⟨rfl, hBuyerFee, rfl, hSellerFee⟩ }

end Market

/-- The status agrees with what was traded of the order. -/
def Order.Agrees (order : Order) : Prop :=
  match order.status with
  | .queued | .opened | .rejected => order.remainingAmount = order.originalAmount
  | .partiallyFilled => 0 < order.remainingAmount ∧ order.remainingAmount < order.originalAmount
  | .filled => order.remainingAmount = 0
  | .cancelled => 0 < order.remainingAmount ∧ order.remainingAmount ≤ order.originalAmount

/-- What may become of an order: it leaves the queue for good, is not opened
again after a fill, and does not change once it is closed. -/
structure Order.Becomes (order later : Order) : Prop where
  queue : order.status ≠ .queued → later.status ≠ .queued
  reopened : order.status = .partiallyFilled → later.status ≠ .opened
  closed : order.status ∈ [.filled, .cancelled, .rejected] → later = order

theorem Order.Leads.becomes {order later : Order}
    (h : order.Leads later) : order.Becomes later where
  queue hLeft hQueued := by
    have hRank := h.rank
    rw [hQueued] at hRank
    cases hStatus : order.status <;> rw [hStatus] at hRank hLeft <;> contradiction
  reopened hPartial hOpened := by
    have hRank := h.rank
    rw [hPartial, hOpened] at hRank
    exact absurd hRank (by decide)
  closed hClosed := by
    apply h.final
    cases hStatus : order.status <;> rw [hStatus] at hClosed <;> first | rfl | simp at hClosed

namespace History

variable {newDecimal : String → Option DecimalValue} {start : Database}

theorem accounted_of_opening (hOpening : start.Opening) (invocations : List Invocation) :
    ((History.start start).calls newDecimal invocations).db.WellFormed ∧
      ((History.start start).calls newDecimal invocations).db.Accounted :=
  (calls_evolve hOpening.wellFormed invocations).induction hOpening.wellFormed hOpening.accounted
    fun _ _ _ hEvent hAccounted => hAccounted.of_event hEvent

/-- The life of orders over any calls: what is missing from an order was
traded and its status says so, no call attempts a row whose status does not,
statuses move in one direction only, and every trade is fair to both sides. -/
theorem order_lifecycle (hOpening : start.Opening) (invocations : List Invocation) :
    (∀ order ∈ ((History.start start).calls newDecimal invocations).db.orders,
      order.originalAmount - order.remainingAmount =
          ((History.start start).calls newDecimal invocations).db.executed order.id ∧
          order.Agrees) ∧
    (∀ (invocation : Invocation) (failure : Failure),
      ((History.start start).calls newDecimal invocations).db.call newDecimal invocation =
          .error failure → failure ≠
            .checkViolation "orders_status_remaining_amount_consistency") ∧
    (∀ (more : List Invocation),
      ∀ order ∈ ((History.start start).calls newDecimal invocations).db.orders,
      ∃ later, ((History.start start).calls newDecimal (invocations ++ more)).db.orders.find?
        order.id = some later ∧ order.Becomes later) ∧
    (∀ trade ∈ ((History.start start).calls newDecimal invocations).db.trades, ∃ buy sell,
      ((History.start start).calls newDecimal invocations).db.TradeValid trade buy sell) := by
  obtain ⟨hWell, hAccounted⟩ := @accounted_of_opening newDecimal start hOpening invocations
  refine ⟨fun order hOrder => ⟨hAccounted.executed _ _ (Table.find?_of_mem hOrder), ?_⟩,
    fun invocation failure hFailed => Database.call_respectsStatus hWell hFailed,
    fun more order hOrder => ?_, fun trade hTrade => (hAccounted.recorded trade hTrade).valid⟩
  · exact Order.statusConsistent_iff.mp (hWell.orders order hOrder).consistent
  · have hEvolves := @calls_evolve newDecimal _ hWell more
    rw [← calls_append] at hEvolves
    obtain ⟨later, hLater, hLeads⟩ := hEvolves.leads (Table.find?_of_mem hOrder)
    exact ⟨later, hLater, hLeads.becomes⟩

theorem order_lifecycle_sample :
    (∀ order ∈ Sample.final.db.orders, order.originalAmount - order.remainingAmount =
      Sample.final.db.executed order.id ∧ order.Agrees) ∧
    (∀ (invocation : Invocation) (failure : Failure),
      Sample.final.db.call Sample.newDecimal invocation = .error failure →
        failure ≠ .checkViolation "orders_status_remaining_amount_consistency") ∧
    (∀ (more : List Invocation), ∀ order ∈ Sample.final.db.orders, ∃ later,
      ((History.start Sample.start).calls Sample.newDecimal (Sample.calls ++ more)).db.orders.find?
        order.id = some later ∧ order.Becomes later) ∧
    (∀ trade ∈ Sample.final.db.trades, ∃ buy sell, Sample.final.db.TradeValid trade buy sell) :=
  order_lifecycle Sample.opening Sample.calls

end History
end ExchangeMatching
