import ExchangeMatching.Reservations

/-! Orders and trades over time. Orders are never deleted and keep everything
but their remaining amount and status, which change in one direction only; so
what a trade says about its two orders when it is recorded stays true. -/
namespace ExchangeMatching

/-- The fill that a trade records, for its two orders. -/
def Trade.fill (trade : Trade) (buy sell : Order) : Fill :=
  ⟨buy, sell, trade.takerSide, trade.amount⟩

/-- The trade records a fill between two orders that could trade. -/
structure Trade.Joins (trade : Trade) (buy sell : Order) : Prop where
  data : trade.toTradeData = (trade.fill buy sell).trade
  buySide : buy.side = .buy
  sellSide : sell.side = .sell
  users : buy.userId ≠ sell.userId
  limits : sell.price ≤ buy.price
  amount_pos : 0 < trade.amount
  executed_pos : 0 < (trade.fill buy sell).executed

theorem Fill.joins {fill : Fill} (h : fill.Crossing) (id : TradeId) (sequence now : Nat) :
    Trade.Joins ⟨fill.trade, id, sequence, now⟩ fill.buy fill.sell where
  data := rfl
  buySide := h.buySide
  sellSide := h.sellSide
  users := h.users
  limits := h.limits
  amount_pos := h.amount_pos
  executed_pos := h.executed_pos

/-- Later versions of the two orders are joined by the same trade. -/
theorem Trade.Joins.revised {trade : Trade} {buy sell : Order} (h : trade.Joins buy sell)
    (buyRemaining sellRemaining : Int) (buyStatus sellStatus : OrderStatus) :
    trade.Joins (buy.revised buyRemaining buyStatus) (sell.revised sellRemaining sellStatus) := by
  have hPrice : (trade.fill (buy.revised buyRemaining buyStatus)
      (sell.revised sellRemaining sellStatus)).price = (trade.fill buy sell).price := by
    unfold Fill.price Fill.maker Trade.fill
    cases trade.takerSide <;> rfl
  have hTrade : (trade.fill (buy.revised buyRemaining buyStatus)
      (sell.revised sellRemaining sellStatus)).trade = (trade.fill buy sell).trade := by
    unfold Trade.fill Fill.trade
    cases trade.takerSide <;> rfl
  refine ⟨h.data.trans hTrade.symm, h.buySide, h.sellSide, h.users, h.limits, h.amount_pos, ?_⟩
  have hExecuted := h.executed_pos
  unfold Fill.executed at hExecuted ⊢
  rwa [hPrice]

/-- How far an order has come. -/
def OrderStatus.rank : OrderStatus → Nat
  | .queued => 0
  | .opened => 1
  | .partiallyFilled => 2
  | .filled | .cancelled | .rejected => 3

theorem OrderStatus.rank_le (status : OrderStatus) : status.rank ≤ 3 := by
  cases status <;> decide

/-- The second order is the same row, at the same time or later. -/
structure Order.Leads (order later : Order) : Prop where
  kept : later = order.revised later.remainingAmount later.status
  rank : order.status.rank ≤ later.status.rank
  remaining : later.remainingAmount ≤ order.remainingAmount
  final : order.status.isActive = false → later = order

namespace Order.Leads

variable {order later last : Order}

theorem refl (order : Order) : order.Leads order where
  kept := rfl
  rank := le_refl _
  remaining := le_refl _
  final _ := rfl

theorem trans (h : order.Leads later) (hLast : later.Leads last) : order.Leads last where
  kept := by
    rw [hLast.kept, h.kept]
    rfl
  rank := h.rank.trans hLast.rank
  remaining := hLast.remaining.trans h.remaining
  final hClosed := by
    obtain rfl := h.final hClosed
    exact hLast.final hClosed

/-- An active order may be filled. -/
theorem filled {amount : Int} (hActive : order.status.isActive = true) (hAmount : 0 < amount) :
    order.Leads (order.revised (order.remainingAmount - amount)
      (filledStatus (order.remainingAmount - amount))) where
  kept := rfl
  rank := by
    have hFilled : 2 ≤ (filledStatus (order.remainingAmount - amount)).rank := by
      unfold filledStatus
      split_ifs <;> decide
    refine le_trans ?_ hFilled
    cases hStatus : order.status <;> rw [hStatus] at hActive <;> first | decide | cases hActive
  remaining := by
    rw [revised_remainingAmount]
    omega
  final hClosed := by rw [hActive] at hClosed; cases hClosed

/-- An active order may get another status further on. -/
theorem moved {status : OrderStatus} (hActive : order.status.isActive = true)
    (hRank : order.status.rank ≤ status.rank) :
    order.Leads (order.revised order.remainingAmount status) where
  kept := rfl
  rank := hRank
  remaining := le_refl _
  final hClosed := by rw [hActive] at hClosed; cases hClosed

end Order.Leads

namespace Market

variable {market market' : Market}

/-- Rewriting one order leads every order on, if it leads that one on. -/
theorem leads_putOrder {id other : OrderId} {order row : Order} {remaining : Int}
    {status : OrderStatus} (hOrder : market.orders.find? other = some order)
    (hLeads : order.Leads (order.revised remaining status))
    (hRow : market.orders.find? id = some row) :
    ∃ later, (market.putOrder other remaining status).orders.find? id = some later ∧
      row.Leads later := by
  rw [find?_putOrder hOrder]
  split_ifs with hId
  · rw [hId, hOrder] at hRow
    cases hRow
    exact ⟨_, rfl, hLeads⟩
  · exact ⟨row, hRow, .refl row⟩

/-- Every event leads every order on. -/
theorem Event.leads (hEvent : market.Event market') {id : OrderId} {order : Order}
    (hFound : market.orders.find? id = some order) :
    ∃ later, market'.orders.find? id = some later ∧ order.Leads later := by
  cases hEvent with
  | @placed placed wallet sound queued fresh found fits =>
      rw [find?_addOrder (isFresh_putWallet.mpr fresh), if_neg]
      · exact ⟨order, hFound, .refl order⟩
      · rintro rfl
        rw [fresh.1] at hFound
        cases hFound
  | @opened row found queued =>
      refine leads_putOrder found (.moved ?_ ?_) hFound
      · rw [queued]
        rfl
      · rw [queued]
        exact Nat.zero_le _
  | @filled fill buyer seller now buy sell crossing buyerFound sellerFound buyerFits sellerFits =>
      obtain ⟨middle, hMiddle, hFirst⟩ := @leads_putOrder (market.settle fill buyer seller now) id
        fill.buy.id fill.buy order _ _ buy (.filled crossing.buy_active crossing.amount_pos) hFound
      obtain ⟨later, hLater, hSecond⟩ := leads_putOrder
        (@find?_sell_of_putOrder (market.settle fill buyer seller now) fill crossing buy sell _ _)
        (.filled crossing.sell_active crossing.amount_pos) hMiddle
      exact ⟨later, hLater, hFirst.trans hSecond⟩
  | closed found allowed walletFound fits =>
      refine leads_putOrder found (.moved (isActive_of_allowed allowed).1 ?_) hFound
      rcases allowed with ⟨rfl, _⟩ | ⟨rfl, _⟩
      · exact OrderStatus.rank_le _
      · exact OrderStatus.rank_le _

/-- Any number of events leads every order on. -/
theorem Evolves.leads (hEvolves : market.Evolves market') {id : OrderId} {order : Order}
    (hFound : market.orders.find? id = some order) :
    ∃ later, market'.orders.find? id = some later ∧ order.Leads later := by
  induction hEvolves with
  | refl => exact ⟨order, hFound, .refl order⟩
  | tail _ event ih =>
      obtain ⟨middle, hMiddle, hFirst⟩ := ih
      obtain ⟨later, hLater, hSecond⟩ := event.leads hMiddle
      exact ⟨later, hLater, hFirst.trans hSecond⟩

/-- A stored order has the user that it had. -/
theorem Evolves.userId_eq {before : Market} (h : before.Evolves market) {id : OrderId}
    {order later : Order}
    (hOrder : before.orders.find? id = some order) (hLater : market.orders.find? id = some later) :
    later.userId = order.userId := by
  obtain ⟨row, hRow, hLeads⟩ := h.leads hOrder
  obtain rfl := Option.some.inj (hLater.symm.trans hRow)
  rw [hLeads.kept, Order.revised_userId]

/-- The trade joins two stored orders. -/
def Recorded (market : Market) (trade : Trade) : Prop :=
  ∃ buy sell, market.orders.find? trade.buyOrderId = some buy ∧
    market.orders.find? trade.sellOrderId = some sell ∧ trade.Joins buy sell

theorem Recorded.of_event {trade : Trade} (h : market.Recorded trade)
    (hEvent : market.Event market') : market'.Recorded trade := by
  obtain ⟨buy, sell, hBuy, hSell, hJoins⟩ := h
  obtain ⟨buy', hBuy', hBuyLeads⟩ := hEvent.leads hBuy
  obtain ⟨sell', hSell', hSellLeads⟩ := hEvent.leads hSell
  refine ⟨buy', sell', hBuy', hSell', ?_⟩
  rw [hBuyLeads.kept, hSellLeads.kept]
  exact hJoins.revised _ _ _ _

theorem recorded_fill {fill : Fill} (hCrossing : fill.Crossing)
    (hBuy : market.orders.find? fill.buy.id = some fill.buy)
    (hSell : market.orders.find? fill.sell.id = some fill.sell) (id : TradeId)
    (sequence now : Nat) : market.Recorded ⟨fill.trade, id, sequence, now⟩ :=
  ⟨fill.buy, fill.sell, hBuy, hSell, Fill.joins hCrossing ..⟩

/-- Every trade joins two stored orders. -/
def AllRecorded (market : Market) : Prop := ∀ trade ∈ market.trades, market.Recorded trade

/-- An event records at most one trade, and that is the trade of a fill. -/
theorem Event.trades (hEvent : market.Event market') :
    market'.trades = market.trades ∨ ∃ fill : Fill, ∃ now,
      fill.Crossing ∧ market.orders.find? fill.buy.id = some fill.buy ∧
      market.orders.find? fill.sell.id = some fill.sell ∧
      market'.trades = market.trades ++
        [⟨fill.trade, market.trades.length, market.trades.length, now⟩] := by
  cases hEvent with
  | placed sound queued fresh found fits => exact Or.inl (trades_addOrder _)
  | opened found queued => exact Or.inl rfl
  | @filled fill buyer seller now buy sell crossing buyerFound sellerFound buyerFits sellerFits =>
      exact Or.inr ⟨fill, now, crossing, buy, sell, rfl⟩
  | closed found allowed walletFound fits => exact Or.inl rfl

theorem AllRecorded.of_event (h : market.AllRecorded) (hEvent : market.Event market') :
    market'.AllRecorded := by
  intro trade hTrade
  rcases hEvent.trades with hSame | ⟨fill, now, hCrossing, hBuy, hSell, hAppended⟩
  · exact (h trade (hSame ▸ hTrade)).of_event hEvent
  · rw [hAppended, List.mem_append, List.mem_singleton] at hTrade
    rcases hTrade with hOld | rfl
    · exact (h trade hOld).of_event hEvent
    · exact (recorded_fill hCrossing hBuy hSell ..).of_event hEvent

theorem Opening.allRecorded (h : market.Opening) : market.AllRecorded := by
  intro trade hTrade
  rw [h.noTrades] at hTrade
  cases hTrade

/-- Whether the order belongs to the user. -/
def owns (market : Market) (userId : UserId) (id : OrderId) : Bool :=
  (market.orders.find? id).any (·.userId = userId)

theorem owns_of_find? {id : OrderId} {order : Order} (h : market.orders.find? id = some order)
    (userId : UserId) : market.owns userId id = decide (order.userId = userId) := by
  rw [owns, h, Option.any_some]

/-- Orders do not change hands. -/
theorem Event.owns_eq (hEvent : market.Event market') {id : OrderId} {order : Order}
    (hFound : market.orders.find? id = some order) (userId : UserId) :
    market'.owns userId id = market.owns userId id := by
  obtain ⟨later, hFound', hLeads⟩ := hEvent.leads hFound
  rw [owns_of_find? hFound', owns_of_find? hFound, hLeads.kept, Order.revised_userId]

/-- The orders of a recorded trade are stored under all of its four columns. -/
theorem Recorded.orders {trade : Trade} (h : market.Recorded trade) :
    ∃ buy sell, market.orders.find? trade.buyOrderId = some buy ∧
      market.orders.find? trade.sellOrderId = some sell ∧
      market.orders.find? trade.makerOrderId = some (trade.fill buy sell).maker ∧
      market.orders.find? trade.takerOrderId = some (trade.fill buy sell).taker ∧
      trade.Joins buy sell := by
  obtain ⟨buy, sell, hBuy, hSell, hJoins⟩ := h
  have hBuyId : trade.buyOrderId = buy.id := congrArg TradeData.buyOrderId hJoins.data
  have hSellId : trade.sellOrderId = sell.id := congrArg TradeData.sellOrderId hJoins.data
  have hMakerId : trade.makerOrderId = (trade.fill buy sell).maker.id :=
    congrArg TradeData.makerOrderId hJoins.data
  have hTakerId : trade.takerOrderId = (trade.fill buy sell).taker.id :=
    congrArg TradeData.takerOrderId hJoins.data
  refine ⟨buy, sell, hBuy, hSell, ?_, ?_, hJoins⟩
  · rw [hMakerId]
    unfold Fill.maker Trade.fill
    cases trade.takerSide with
    | buy => exact hSellId ▸ hSell
    | sell => exact hBuyId ▸ hBuy
  · rw [hTakerId]
    unfold Fill.taker Trade.fill
    cases trade.takerSide with
    | buy => exact hBuyId ▸ hBuy
    | sell => exact hSellId ▸ hSell

end Market
end ExchangeMatching
