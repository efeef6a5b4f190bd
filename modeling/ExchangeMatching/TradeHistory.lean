import ExchangeMatching.Ledger
import ExchangeMatching.Library.Grouping
import ExchangeMatching.Listings

/-! The trade history of a user. It derives side, role and fee from the users of
the joined orders; what it shows is what the settlement of the trade changed in
the wallets of its two users. -/
namespace ExchangeMatching

open Grouping Paging

/-- The items of all pages. -/
def allItems {Item : Type} (respond : Nat → PaginatedResponse Item) : List Item :=
  (List.range (respond 1).pagination.totalPages).flatMap fun index => (respond (index + 1)).items

theorem Listed.allItems_eq {Item : Type} {respond : Nat → PaginatedResponse Item} {pageSize : Nat}
    {list : List Item} (h : Listed respond pageSize list) : allItems respond = list := by
  rw [allItems, h.pages]
  exact h.covers.complete

namespace Market

variable {opening market market' : Market}

/-- Trades are numbered from zero on. -/
structure Numbered (market : Market) : Prop where
  ids : market.trades.map (·.id) = List.range market.trades.length
  sequences : market.trades.map (·.sequence) = List.range market.trades.length

theorem Numbered.of_event (h : market.Numbered) (hEvent : market.Event market') :
    market'.Numbered := by
  rcases hEvent.trades with hSame | ⟨fill, now, _, _, _, hAppended⟩
  · exact ⟨by rw [hSame, h.ids], by rw [hSame, h.sequences]⟩
  · constructor
    · rw [hAppended, List.map_append, h.ids, List.length_append, List.length_singleton,
        List.range_succ]
      rfl
    · rw [hAppended, List.map_append, h.sequences, List.length_append, List.length_singleton,
        List.range_succ]
      rfl

theorem Evolves.numbered (hOpening : opening.Opening) (hEvolves : opening.Evolves market) :
    market.Numbered := by
  induction hEvolves with
  | refl => exact ⟨by rw [hOpening.noTrades]; rfl, by rw [hOpening.noTrades]; rfl⟩
  | tail _ event ih => exact ih.of_event event

/-- The step of a run that settled a trade. -/
structure SettledBy (opening market : Market) (trade : Trade) (before after : Market) : Prop where
  reached : opening.Evolves before
  settled : before.Event after
  recorded : after.trades = before.trades ++ [trade]
  later : after.Evolves market

/-- Every trade was settled by a step. -/
theorem Evolves.exists_settledBy (hOpening : opening.Opening) (hEvolves : opening.Evolves market)
    {trade : Trade} (hTrade : trade ∈ market.trades) :
    ∃ before after, SettledBy opening market trade before after := by
  induction hEvolves with
  | refl =>
      rw [hOpening.noTrades] at hTrade
      cases hTrade
  | @tail market market' hBefore event ih =>
      have hOld : trade ∈ market.trades →
          ∃ before after, SettledBy opening market' trade before after := by
        intro hMem
        obtain ⟨before, after, hSettled⟩ := ih hMem
        exact ⟨before, after, hSettled.reached, hSettled.settled, hSettled.recorded,
          hSettled.later.tail event⟩
      rcases event.trades with hSame | ⟨fill, now, _, _, _, hAppended⟩
      · exact hOld (hSame ▸ hTrade)
      · rw [hAppended, List.mem_append, List.mem_singleton] at hTrade
        rcases hTrade with hMem | rfl
        · exact hOld hMem
        · exact ⟨market, market', hBefore, event, hAppended, .refl⟩

/-- The fill that a step settled. -/
structure SettledFill (before after : Market) (trade : Trade) (fill : Fill) : Prop where
  crossing : fill.Crossing
  buy : before.orders.find? fill.buy.id = some fill.buy
  sell : before.orders.find? fill.sell.id = some fill.sell
  trade : trade.toTradeData = fill.trade
  holdings : ∀ userId asset, after.holdings userId asset = before.holdings userId asset +
    (if userId = fill.buy.userId then fill.buyerUpdate.netTotal asset else 0) +
    if userId = fill.sell.userId then fill.sellerUpdate.netTotal asset else 0

theorem SettledBy.exists_fill {trade : Trade} {before after : Market}
    (h : SettledBy opening market trade before after) :
    ∃ fill, SettledFill before after trade fill := by
  have hRecorded := h.recorded
  cases h.settled with
  | placed sound queued fresh found fits =>
      rw [trades_addOrder] at hRecorded
      exact absurd (congrArg List.length hRecorded) (by simp)
  | opened found queued => exact absurd (congrArg List.length hRecorded) (by simp)
  | @filled fill buyer seller now buy sell crossing buyerFound sellerFound buyerFits sellerFits =>
      obtain ⟨_, hTrade⟩ := List.append_inj' hRecorded rfl
      refine ⟨fill, crossing, buy, sell, ?_, holdings_fill crossing buyerFound sellerFound⟩
      rw [← List.singleton_inj.mp hTrade]
  | closed found allowed walletFound fits => exact absurd (congrArg List.length hRecorded) (by simp)

/-- What the buyer and the seller are shown of a trade. -/
structure TrueViews (opening market : Market) (trade : Trade) (buyer seller : UserId)
    (buyItem sellItem : UserTradeHistoryItem) : Prop where
  buyer_eq : (market.orders.find? trade.buyOrderId).map Order.userId = some buyer
  seller_eq : (market.orders.find? trade.sellOrderId).map Order.userId = some seller
  users : buyer ≠ seller
  listed : ∀ startsWith text userId pageSize, 0 < pageSize →
    (allItems fun page =>
      TradesService.getUserHistory startsWith market text userId page pageSize none).filter
        (fun item => item.id = trade.id) =
      if userId = buyer then [buyItem] else if userId = seller then [sellItem] else []
  sides : buyItem.side = .buy ∧ sellItem.side = .sell
  roles : buyItem.role = .taker ∧ sellItem.role = .maker ∨
    buyItem.role = .maker ∧ sellItem.role = .taker
  feeAssets : buyItem.feeAsset = .btc ∧ sellItem.feeAsset = .usd
  terms : ∀ item, item = buyItem ∨ item = sellItem → item.amount = trade.amount ∧
    item.price = trade.price
  settled : ∃ before after, SettledBy opening market trade before after
  changes : ∀ before after, SettledBy opening market trade before after →
    after.holdings buyer .btc - before.holdings buyer .btc = buyItem.amount - buyItem.feeAmount ∧
    after.holdings buyer .usd - before.holdings buyer .usd = -cost buyItem.amount buyItem.price ∧
    after.holdings seller .btc - before.holdings seller .btc = -sellItem.amount ∧
    after.holdings seller .usd - before.holdings seller .usd =
      cost sellItem.amount sellItem.price - sellItem.feeAmount

section Views

variable {trade : Trade} {buy sell : Order}

/-- What the buyer is shown. -/
def buyItem (trade : Trade) (buy sell : Order) : UserTradeHistoryItem where
  id := trade.id
  price := trade.price
  amount := trade.amount
  side := .buy
  role := if trade.takerSide = .buy then .taker else .maker
  feeAmount := (trade.fill buy sell).buyerFee
  feeAsset := .btc
  createdAt := trade.createdAt

/-- What the seller is shown. -/
def sellItem (trade : Trade) (buy sell : Order) : UserTradeHistoryItem where
  id := trade.id
  price := trade.price
  amount := trade.amount
  side := .sell
  role := if trade.takerSide = .sell then .taker else .maker
  feeAmount := (trade.fill buy sell).sellerFee
  feeAsset := .usd
  createdAt := trade.createdAt

/-- The order that takes is one of the two. -/
theorem find?_takerOrderId (hBuy : market.orders.find? trade.buyOrderId = some buy)
    (hSell : market.orders.find? trade.sellOrderId = some sell) (h : trade.Joins buy sell) :
    market.orders.find? trade.takerOrderId = match trade.takerSide with
      | .buy => some buy
      | .sell => some sell := by
  have hTaker : trade.takerOrderId = (trade.fill buy sell).taker.id :=
    congrArg TradeData.takerOrderId h.data
  have hBuyId : trade.buyOrderId = buy.id := congrArg TradeData.buyOrderId h.data
  have hSellId : trade.sellOrderId = sell.id := congrArg TradeData.sellOrderId h.data
  rw [hTaker]
  unfold Trade.fill Fill.taker
  cases trade.takerSide with
  | buy => exact hBuyId ▸ hBuy
  | sell => exact hSellId ▸ hSell

/-- Each party pays its fee in the role that it has. -/
theorem fees_of_joins (h : trade.Joins buy sell) :
    match trade.takerSide with
    | .buy => trade.takerFeeAmount = (trade.fill buy sell).buyerFee ∧ trade.takerFeeAsset = .btc ∧
        trade.makerFeeAmount = (trade.fill buy sell).sellerFee ∧ trade.makerFeeAsset = .usd
    | .sell => trade.takerFeeAmount = (trade.fill buy sell).sellerFee ∧ trade.takerFeeAsset = .usd ∧
        trade.makerFeeAmount = (trade.fill buy sell).buyerFee ∧ trade.makerFeeAsset = .btc := by
  have hMakerFee := congrArg TradeData.makerFeeAmount h.data
  have hMakerAsset := congrArg TradeData.makerFeeAsset h.data
  have hTakerFee := congrArg TradeData.takerFeeAmount h.data
  have hTakerAsset := congrArg TradeData.takerFeeAsset h.data
  have hTakerSide : (trade.fill buy sell).takerSide = trade.takerSide := rfl
  unfold Fill.trade at hMakerFee hMakerAsset hTakerFee hTakerAsset
  rw [hTakerSide] at hMakerFee hMakerAsset hTakerFee hTakerAsset
  cases hSide : trade.takerSide with
  | buy =>
      rw [hSide] at hMakerFee hMakerAsset hTakerFee hTakerAsset
      exact ⟨hTakerFee, hTakerAsset, hMakerFee, hMakerAsset⟩
  | sell =>
      rw [hSide] at hMakerFee hMakerAsset hTakerFee hTakerAsset
      exact ⟨hTakerFee, hTakerAsset, hMakerFee, hMakerAsset⟩

/-- Each of the two users is shown the own side of the trade. -/
theorem items_of_joins (hBuy : market.orders.find? trade.buyOrderId = some buy)
    (hSell : market.orders.find? trade.sellOrderId = some sell) (h : trade.Joins buy sell) :
    toUserTradeHistoryItem buy.userId (selectUserTrade market trade) = buyItem trade buy sell ∧
      toUserTradeHistoryItem sell.userId (selectUserTrade market trade) =
        sellItem trade buy sell := by
  have hTaker := find?_takerOrderId hBuy hSell h
  have hFees := fees_of_joins h
  cases hSide : trade.takerSide with
  | buy =>
      simp only [hSide] at hTaker hFees
      simp [toUserTradeHistoryItem, selectUserTrade, buyItem, sellItem, hBuy, hTaker, hSide, hFees,
        h.users]
  | sell =>
      simp only [hSide] at hTaker hFees
      simp [toUserTradeHistoryItem, selectUserTrade, buyItem, sellItem, hBuy, hTaker, hSide, hFees,
        h.users, h.users.symm]

/-- Over all pages a trade is listed once for each of its users. -/
theorem listed_once (hNumbered : market.Numbered) (hTrade : trade ∈ market.trades)
    (hBuy : market.orders.find? trade.buyOrderId = some buy)
    (hSell : market.orders.find? trade.sellOrderId = some sell) (h : trade.Joins buy sell)
    (startsWith : String → String → Bool) (text : TradeId → String) (userId : UserId)
    {pageSize : Nat} (hSize : 0 < pageSize) :
    (allItems fun page =>
      TradesService.getUserHistory startsWith market text userId page pageSize none).filter
        (fun item => item.id = trade.id) =
      if userId = buy.userId then [buyItem trade buy sell]
      else if userId = sell.userId then [sellItem trade buy sell] else [] := by
  have hSequences : (market.trades.map (·.sequence)).Nodup := hNumbered.sequences ▸ List.nodup_range
  have hIds : (market.trades.map (·.id)).Nodup := hNumbered.ids ▸ List.nodup_range
  obtain ⟨list, hSorted, _, hListed⟩ :=
    @paginates_getUserHistory startsWith text market pageSize hSequences hSize userId none
  have hRows : list.filter (fun other => other.id = trade.id) =
      [trade].filter (isListedTrade startsWith market text userId none) := by
    have hPerm := hSorted.perm.filter fun other : Trade => decide (other.id = trade.id)
    rw [List.filter_filter, List.filter_congr fun other _ =>
      Bool.and_comm _ _, ← List.filter_filter, filter_key_eq_singleton hIds hTrade] at hPerm
    cases hTest : isListedTrade startsWith market text userId none trade with
    | true =>
        rw [List.filter_singleton, hTest] at hPerm ⊢
        exact List.perm_singleton.mp hPerm
    | false =>
        rw [List.filter_singleton, hTest] at hPerm ⊢
        exact List.perm_nil.mp hPerm
  have hOwns : isListedTrade startsWith market text userId none trade =
      (decide (buy.userId = userId) || decide (sell.userId = userId)) := by
    rw [isListedTrade, owns_of_find? hBuy, owns_of_find? hSell]
    rfl
  rw [hListed.allItems_eq, List.filter_map]
  have hIdTest : ((fun item : UserTradeHistoryItem => decide (item.id = trade.id)) ∘
      fun other => toUserTradeHistoryItem userId (selectUserTrade market other)) =
        fun other : Trade => decide (other.id = trade.id) := rfl
  rw [hIdTest, hRows, List.filter_singleton, hOwns]
  split_ifs with hBuyer hSeller
  · rw [hBuyer, decide_eq_true rfl, Bool.true_or, cond_true, List.map_singleton,
      (items_of_joins hBuy hSell h).1]
  · rw [hSeller, decide_eq_true rfl, Bool.or_true, cond_true, List.map_singleton,
      (items_of_joins hBuy hSell h).2]
  · rw [decide_eq_false (Ne.symm hBuyer), decide_eq_false (Ne.symm hSeller)]
    rfl

/-- The step that settled a trade changed what the two users are shown. -/
theorem changes_of_settledBy (hBuy : market.orders.find? trade.buyOrderId = some buy)
    (hSell : market.orders.find? trade.sellOrderId = some sell) (h : trade.Joins buy sell)
    {before after : Market} (hSettled : SettledBy opening market trade before after) :
    after.holdings buy.userId .btc - before.holdings buy.userId .btc =
        trade.amount - (trade.fill buy sell).buyerFee ∧
      after.holdings buy.userId .usd - before.holdings buy.userId .usd =
        -cost trade.amount trade.price ∧
      after.holdings sell.userId .btc - before.holdings sell.userId .btc = -trade.amount ∧
      after.holdings sell.userId .usd - before.holdings sell.userId .usd =
        cost trade.amount trade.price - (trade.fill buy sell).sellerFee := by
  obtain ⟨fill, hFill⟩ := hSettled.exists_fill
  have hEvolves : before.Evolves market := .head hSettled.settled hSettled.later
  have hBuyId : trade.buyOrderId = fill.buy.id := congrArg TradeData.buyOrderId hFill.trade
  have hSellId : trade.sellOrderId = fill.sell.id := congrArg TradeData.sellOrderId hFill.trade
  have hBuyer : buy.userId = fill.buy.userId := hEvolves.userId_eq hFill.buy (hBuyId ▸ hBuy)
  have hSeller : sell.userId = fill.sell.userId := hEvolves.userId_eq hFill.sell (hSellId ▸ hSell)
  have hPrice : fill.price = trade.price := (congrArg TradeData.price hFill.trade).symm
  have hPrice' : (trade.fill buy sell).price = trade.price := (congrArg TradeData.price h.data).symm
  have hAmount : fill.amount = trade.amount := (congrArg TradeData.amount hFill.trade).symm
  have hSide : fill.takerSide = trade.takerSide := (congrArg TradeData.takerSide hFill.trade).symm
  have hBuyerFee : fill.buyerFee = (trade.fill buy sell).buyerFee := by
    unfold Fill.buyerFee Fill.buyerRate
    rw [hAmount, hSide]
    rfl
  have hSellerFee : fill.sellerFee = (trade.fill buy sell).sellerFee := by
    unfold Fill.sellerFee Fill.sellerRate Fill.executed
    rw [hAmount, hSide, hPrice, hPrice']
    rfl
  have hExecuted : fill.executed = cost trade.amount trade.price := by
    rw [Fill.executed, hAmount, hPrice]
  have hUsers := hFill.crossing.users
  rw [hBuyer, hSeller, ← hBuyerFee, ← hSellerFee, ← hExecuted, ← hAmount]
  simp only [hFill.holdings, Fill.netTotal_buyerUpdate, Fill.netTotal_sellerUpdate, if_true,
    if_neg hUsers, if_neg hUsers.symm]
  omega

end Views

/-- The two users of a trade are shown what its settlement changed. -/
theorem trueViews (hOpening : opening.Opening) (hEvolves : opening.Evolves market)
    (hRecorded : market.AllRecorded) {trade : Trade} (hTrade : trade ∈ market.trades) :
    ∃ buyer seller buyItem sellItem, TrueViews opening market trade buyer seller buyItem
      sellItem := by
  obtain ⟨buy, sell, hBuy, hSell, hJoins⟩ := hRecorded trade hTrade
  refine ⟨buy.userId, sell.userId, buyItem trade buy sell, sellItem trade buy sell, ?_⟩
  exact {
    buyer_eq := by rw [hBuy, Option.map_some]
    seller_eq := by rw [hSell, Option.map_some]
    users := hJoins.users
    listed := fun startsWith text userId pageSize hSize =>
      listed_once (hEvolves.numbered hOpening) hTrade hBuy hSell hJoins startsWith text userId hSize
    sides := ⟨rfl, rfl⟩
    roles := by
      unfold buyItem sellItem
      cases trade.takerSide with
      | buy => exact Or.inl ⟨rfl, rfl⟩
      | sell => exact Or.inr ⟨rfl, rfl⟩
    feeAssets := ⟨rfl, rfl⟩
    terms := by
      rintro item (rfl | rfl)
      · exact ⟨rfl, rfl⟩
      · exact ⟨rfl, rfl⟩
    settled := hEvolves.exists_settledBy hOpening hTrade
    changes := fun before after hSettled => changes_of_settledBy hBuy hSell hJoins hSettled }

end Market

namespace History

variable {newDecimal : String → Option DecimalValue} {start : Database}

/-- After any calls, every trade is in the history of its buyer and of its
seller, once each and in no other, and shows what its settlement changed. -/
theorem trade_history (hOpening : start.Opening) (invocations : List Invocation) :
    ∀ trade ∈ ((History.start start).calls newDecimal invocations).db.trades,
      ∃ buyer seller buyItem sellItem, Market.TrueViews start.toMarket
        ((History.start start).calls newDecimal invocations).db.toMarket trade buyer seller buyItem
        sellItem := by
  intro trade hTrade
  have hEvolves := @calls_evolve newDecimal (History.start start) hOpening.wellFormed invocations
  have hRecorded := (@balanced_of_opening newDecimal start hOpening invocations).1.recorded
  exact Market.trueViews hOpening hEvolves hRecorded hTrade

theorem trade_history_sample : ∃ trade ∈ Sample.final.db.trades, ∃ buyer seller buyItem sellItem,
    Market.TrueViews Sample.start.toMarket Sample.final.db.toMarket trade buyer seller buyItem
      sellItem := by
  have hOne : Sample.final.db.trades.length = 1 := by decide +kernel
  obtain ⟨trade, hTrade⟩ := List.exists_mem_of_length_pos (by rw [hOne]; decide)
  exact ⟨trade, hTrade, @trade_history Sample.newDecimal Sample.start Sample.opening Sample.calls
    trade hTrade⟩

end History
end ExchangeMatching
