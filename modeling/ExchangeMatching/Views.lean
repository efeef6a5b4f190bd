import ExchangeMatching.Lifecycle
import ExchangeMatching.MarketViews
import ExchangeMatching.RealtimeGateway

/-! What the page of the exchange shows. It keeps the answers to its queries
under their keys and asks again when a realtime event invalidates the key; a
view that has become a different one is always among those. -/
namespace ExchangeMatching

open Grouping Paging SortedSearch RealtimeGateway

/-- What a key is made of. -/
inductive QueryKeyPart where
  | text (content : String)
  | number (value : Nat)
  | query (page pageSize : Nat) (id : Option String)
deriving DecidableEq, Repr

abbrev QueryKey := List QueryKeyPart

namespace QueryKeys

def me : QueryKey := [.text "me"]
def wallet : QueryKey := [.text "wallet"]
def marketStats : QueryKey := [.text "market", .text "stats"]
def marketMatchesRoot : QueryKey := [.text "market", .text "matches"]
def orderBookRoot : QueryKey := [.text "market", .text "order-book"]
def activeOrdersRoot : QueryKey := [.text "orders", .text "active"]
def tradeHistoryRoot : QueryKey := [.text "trades", .text "history"]

def marketMatches (page pageSize : Nat) (id : Option String) : QueryKey :=
  [.text "market", .text "matches", .query page pageSize id]

def orderBook (side : OrderSide) (page pageSize : Nat) (price : Option String) : QueryKey :=
  [.text "market", .text "order-book", .text (match side with | .buy => "BUY" | .sell => "SELL"),
    .number page, .number pageSize, .text (price.getD "")]

def activeOrders (page pageSize : Nat) (id : Option String) : QueryKey :=
  [.text "orders", .text "active", .query page pageSize id]

def tradeHistory (page pageSize : Nat) (id : Option String) : QueryKey :=
  [.text "trades", .text "history", .query page pageSize id]

end QueryKeys

inductive ExchangeInvalidationScope where
  | market
  | account
  | all
deriving DecidableEq, Repr

def marketQueryKeys : List QueryKey :=
  [QueryKeys.marketStats, QueryKeys.marketMatchesRoot, QueryKeys.orderBookRoot]

def accountQueryKeys : List QueryKey :=
  [QueryKeys.me, QueryKeys.wallet, QueryKeys.activeOrdersRoot, QueryKeys.tradeHistoryRoot]

/-- The keys that `invalidateExchangeQueries` invalidates. -/
def ExchangeInvalidationScope.keys : ExchangeInvalidationScope → List QueryKey
  | .market => marketQueryKeys
  | .account => accountQueryKeys
  | .all => marketQueryKeys ++ accountQueryKeys

/-- Invalidating a key invalidates every key that begins with it. -/
def invalidateExchangeQueries (scope : ExchangeInvalidationScope) (key : QueryKey) : Bool :=
  scope.keys.any (·.isPrefixOf key)

namespace ExchangeRealtime

def marketChangedEvent : String := "market:changed"
def accountChangedEvent : String := "account:changed"

/-- The listeners of `useExchangeRealtime`. -/
def listeners : List (String × ExchangeInvalidationScope) :=
  [(marketChangedEvent, .market), (accountChangedEvent, .account)]

/-- What the page of a user does on an emission, if its socket is in the room of
the user: some listener invalidates the key. -/
def invalidates (viewer : UserId) (key : QueryKey) (emission : Emission) : Bool :=
  emission.room.all (· = buildUserRoom viewer) &&
    listeners.any fun listener => listener.1 =
      emission.name && invalidateExchangeQueries listener.2 key

end ExchangeRealtime

namespace AuthService

def getWallet (market : Market) (userId : UserId) : Except Failure WalletSummary :=
  match market.wallets.find? userId with
  | none => .error (.notFound "Wallet not found")
  | some wallet => return toWalletSummary wallet

end AuthService

/-- The queries of the page, with their parameters. -/
inductive View where
  | wallet
  | marketStats
  | marketMatches (page pageSize : Nat) (id : Option String)
  | orderBook (side : OrderSide) (page pageSize : Nat) (price : Option String)
  | activeOrders (page pageSize : Nat) (id : Option String)
  | tradeHistory (page pageSize : Nat) (id : Option String)
deriving DecidableEq, Repr

inductive Answer where
  | wallet (response : Except Failure WalletSummary)
  | marketStats (response : MarketStatsSummary)
  | marketMatches (response : PaginatedResponse MarketMatchSummary)
  | orderBook (response : Except Failure (PaginatedResponse OrderBookLevel))
  | activeOrders (response : PaginatedResponse OrderSummary)
  | tradeHistory (response : PaginatedResponse UserTradeHistoryItem)

namespace View

def key : View → QueryKey
  | .wallet => QueryKeys.wallet
  | .marketStats => QueryKeys.marketStats
  | .marketMatches page pageSize id => QueryKeys.marketMatches page pageSize id
  | .orderBook side page pageSize price => QueryKeys.orderBook side page pageSize price
  | .activeOrders page pageSize id => QueryKeys.activeOrders page pageSize id
  | .tradeHistory page pageSize id => QueryKeys.tradeHistory page pageSize id

/-- The view shows the market, which is the same for everybody. -/
def isPublic : View → Bool
  | .marketStats | .marketMatches _ _ _ | .orderBook _ _ _ _ => true
  | .wallet | .activeOrders _ _ _ | .tradeHistory _ _ _ => false

variable (newDecimal : String → Option DecimalValue) (startsWith : String → String → Bool)
  (text : TradeId → String) (market : Market) (viewer : UserId) (now : Nat)

/-- What the server answers to the viewer. -/
def answer : View → Answer
  | .wallet => .wallet (AuthService.getWallet market viewer)
  | .marketStats => .marketStats (MarketService.getStats market now)
  | .marketMatches page pageSize id =>
      .marketMatches (MarketService.getMatches startsWith market text page pageSize id)
  | .orderBook side page pageSize price =>
      .orderBook (MarketService.getOrderBook market newDecimal side page pageSize price)
  | .activeOrders page pageSize id =>
      .activeOrders (OrdersService.getActiveOrders startsWith market viewer page pageSize id)
  | .tradeHistory page pageSize id =>
      .tradeHistory (TradesService.getUserHistory startsWith market text viewer page pageSize id)

/-- Market events invalidate what everybody sees. -/
theorem invalidates_of_isMarketChanged {event : RealtimeDispatchEvent}
    (h : event.isMarketChanged = true) {view : View} (hPublic : view.isPublic = true) :
    ExchangeRealtime.invalidates viewer view.key (dispatchEvent event) = true := by
  cases event with
  | accountChanged reason userId orderId tradeIds => cases h
  | marketChanged reason orderId tradeIds =>
      have hKey : invalidateExchangeQueries .market view.key = true := by
        cases view <;> first | rfl | cases hPublic
      simp [ExchangeRealtime.invalidates, ExchangeRealtime.listeners, dispatchEvent, hKey,
        ExchangeRealtime.marketChangedEvent, marketChangedEvent]

/-- Account events of the viewer invalidate what only the viewer sees. -/
theorem invalidates_of_notifies {event : RealtimeDispatchEvent} (h : event.notifies viewer = true)
    {view : View} (hPublic : view.isPublic = false) :
    ExchangeRealtime.invalidates viewer view.key (dispatchEvent event) = true := by
  cases event with
  | marketChanged reason orderId tradeIds => cases h
  | accountChanged reason userId orderId tradeIds =>
      obtain rfl : userId = viewer := of_decide_eq_true h
      have hKey : invalidateExchangeQueries .account view.key = true := by
        cases view <;> first | rfl | cases hPublic
      simp [ExchangeRealtime.invalidates, ExchangeRealtime.listeners, dispatchEvent, hKey,
        ExchangeRealtime.accountChangedEvent, accountChangedEvent]

/-- No price and an empty price are the same filter. -/
theorem parsePrice_getD (price : Option String) :
    MarketService.parsePrice newDecimal (some (price.getD "")) =
      MarketService.parsePrice newDecimal price := by
  cases price <;> rfl

/-- Queries under one key have one answer. -/
theorem answer_eq_of_key_eq {view other : View} (h : view.key = other.key) :
    view.answer newDecimal startsWith text market viewer now =
      other.answer newDecimal startsWith text market viewer now := by
  cases view <;> cases other <;>
    simp [key, QueryKeys.wallet, QueryKeys.marketStats, QueryKeys.marketMatches,
      QueryKeys.orderBook, QueryKeys.activeOrders, QueryKeys.tradeHistory] at h
  · rfl
  · rfl
  · obtain ⟨rfl, rfl, rfl⟩ := h
    rfl
  · next side page pageSize price side' page' pageSize' price' =>
    obtain ⟨hSide, rfl, rfl, hPrice⟩ := h
    obtain rfl : side = side' := by
      cases side <;> cases side' <;> first | rfl | simp at hSide
    have hParsed : MarketService.parsePrice newDecimal price =
        MarketService.parsePrice newDecimal price' := by
      rw [← parsePrice_getD newDecimal price, hPrice, parsePrice_getD]
    simp only [answer, MarketService.getOrderBook, hParsed]
  · obtain ⟨rfl, rfl, rfl⟩ := h
    rfl
  · obtain ⟨rfl, rfl, rfl⟩ := h
    rfl

end View

/-- What the order book shows of an order. -/
def Order.quote (order : Order) : OrderId × Int × Int :=
  (order.id, order.price, order.remainingAmount)

/-- The groups depend only on the quotes of the orders. -/
theorem perm_groupByPrice {orders orders' : List Order}
    (h : (orders'.map Order.quote).Perm (orders.map Order.quote)) :
    (groupByPrice orders').Perm (groupByPrice orders) := by
  have hPrices : (orders'.map Order.price).Perm (orders.map Order.price) := by
    have hMapped := h.map (·.2.1)
    rwa [List.map_map, List.map_map] at hMapped
  have hGroup : ∀ price : Int, ((orders'.filter (·.price = price)).map Order.remainingAmount).Perm
      ((orders.filter (·.price = price)).map Order.remainingAmount) := by
    intro price
    have hFiltered := (h.filter (fun quote => decide (quote.2.1 = price))).map (·.2.2)
    rwa [List.filter_map, List.filter_map, List.map_map, List.map_map] at hFiltered
  unfold groupByPrice
  have hSame : (fun price : Int => (⟨price, ((orders'.filter (·.price = price)).map
        Order.remainingAmount).sum, (orders'.filter (·.price = price)).length⟩ : PriceGroup)) =
      fun price => ⟨price, ((orders.filter (·.price = price)).map Order.remainingAmount).sum,
        (orders.filter (·.price = price)).length⟩ := by
    funext price
    have hLength := (hGroup price).length_eq
    rw [List.length_map, List.length_map] at hLength
    rw [(hGroup price).sum_eq, hLength]
  dsimp only
  rw [hSame]
  exact hPrices.dedup.map _

namespace Database

variable {db db' : Database} {viewer : UserId}

theorem resting_of_find? {id : OrderId} {order : Order} (h : db.orders.find? id = some order) :
    db.resting id = if order.status.isResting = true then some order.remainingAmount else none := by
  rw [resting, h, Option.filter_some]
  split_ifs <;> rfl

/-- A later version of an order with the same rest in the book is listed as it was. -/
theorem listed_later {order later : Order} (hOrder : db.orders.find? order.id = some order)
    (hLater : db'.orders.find? order.id = some later) (hLeads : order.Leads later)
    (hResting : db'.resting order.id = db.resting order.id) (side : OrderSide)
    (price : Option Int) : isListedInBook side price later = isListedInBook side price order ∧
      (isListedInBook side price order = true → later.quote = order.quote) := by
  rw [resting_of_find? hOrder, resting_of_find? hLater] at hResting
  have hSide : later.side = order.side := by rw [hLeads.kept, Order.revised_side]
  have hPrice : later.price = order.price := by rw [hLeads.kept, Order.revised_price]
  have hId : later.id = order.id := by rw [hLeads.kept, Order.revised_id]
  have hStatus : later.status.isResting = order.status.isResting := by
    cases hBefore : order.status.isResting <;> cases hAfter : later.status.isResting <;>
      rw [hBefore, hAfter] at hResting <;> first | rfl | cases hResting
  refine ⟨by rw [isListedInBook, isListedInBook, hSide, hPrice, hStatus], fun hListed => ?_⟩
  rw [isListedInBook, Bool.and_eq_true, Bool.and_eq_true] at hListed
  rw [hStatus, if_pos hListed.1.2, if_pos hListed.1.2, Option.some.injEq] at hResting
  rw [Order.quote, Order.quote, hId, hPrice, hResting]

/-- When nothing that rests in the book has changed, the quotes are the same. -/
theorem perm_quotes (hEvolves : db.toMarket.Evolves db'.toMarket)
    (hResting : ∀ id, db'.resting id = db.resting id) (side : OrderSide) (price : Option Int) :
    ((db'.orders.rows.filter (isListedInBook side price)).map Order.quote).Perm
      ((db.orders.rows.filter (isListedInBook side price)).map Order.quote) := by
  have hNodup : ∀ db : Database,
      ((db.orders.rows.filter (isListedInBook side price)).map Order.quote).Nodup := by
    intro db
    refine List.Nodup.of_map Prod.fst ?_
    rw [List.map_map]
    exact db.orders.nodup.sublist (List.filter_sublist.map _)
  refine (List.perm_ext_iff_of_nodup (hNodup db') (hNodup db)).mpr fun quote => ?_
  rw [List.mem_map, List.mem_map]
  constructor
  · rintro ⟨later, hMem, rfl⟩
    obtain ⟨hLater, hListed⟩ := List.mem_filter.mp hMem
    have hFound := Table.find?_of_mem hLater
    have hRests := hListed
    rw [isListedInBook, Bool.and_eq_true, Bool.and_eq_true] at hRests
    have hBefore := (hResting later.id).symm
    rw [resting_of_find? hFound, if_pos hRests.1.2] at hBefore
    cases hOrder : db.orders.find? later.id with
    | none =>
        rw [resting, hOrder] at hBefore
        cases hBefore
    | some order =>
        obtain ⟨row, hRow, hLeads⟩ := hEvolves.leads hOrder
        rw [hFound, Option.some.injEq] at hRow
        subst hRow
        have hId : order.id = later.id := Table.key_of_find? hOrder
        rw [← hId] at hOrder hFound
        obtain ⟨hSame, hQuote⟩ := listed_later hOrder hFound hLeads (hResting _) side price
        rw [hSame] at hListed
        exact ⟨order, List.mem_filter.mpr ⟨Table.mem_of_find? hOrder, hListed⟩,
          (hQuote hListed).symm⟩
  · rintro ⟨order, hMem, rfl⟩
    obtain ⟨hOrder, hListed⟩ := List.mem_filter.mp hMem
    have hFound := Table.find?_of_mem hOrder
    obtain ⟨later, hLater, hLeads⟩ := hEvolves.leads hFound
    obtain ⟨hSame, hQuote⟩ := listed_later hFound hLater hLeads (hResting _) side price
    exact ⟨later, List.mem_filter.mpr ⟨Table.mem_of_find? hLater, hSame.trans hListed⟩,
      hQuote hListed⟩

/-- The levels of the book, and with them the best prices, are the same. -/
theorem sort_groups_eq (hEvolves : db.toMarket.Evolves db'.toMarket)
    (hResting : ∀ id, db'.resting id = db.resting id) (side : OrderSide) (price : Option Int) :
    (groupByPrice (db'.orders.rows.filter (isListedInBook side price))).insertionSort
      (bestFirst side) =
      (groupByPrice (db.orders.rows.filter (isListedInBook side price))).insertionSort
        (bestFirst side) :=
  insertionSort_congr (untied_groupByPrice side _)
    (perm_groupByPrice (perm_quotes hEvolves hResting side price))

theorem findBest_eq_of_resting (hEvolves : db.toMarket.Evolves db'.toMarket)
    (hResting : ∀ id, db'.resting id = db.resting id) (side : OrderSide) :
    MarketRepository.findBest db'.toMarket side = MarketRepository.findBest db.toMarket side := by
  rw [Market.findBest_eq, Market.findBest_eq, Market.levels,
    Market.levels, ← Market.filter_isListedInBook, ← Market.filter_isListedInBook]
  rw [sort_groups_eq hEvolves hResting side none]

/-- What everybody sees depends on the resting orders and on the trades. -/
theorem answer_public {newDecimal : String → Option DecimalValue}
    {startsWith : String → String → Bool}
    {text : TradeId → String} {now : Nat} (hEvolves : db.toMarket.Evolves db'.toMarket)
    (hResting : ∀ id, db'.resting id = db.resting id) (hTrades : db'.trades = db.trades)
    {view : View}
    (hPublic : view.isPublic = true) :
    view.answer newDecimal startsWith text db'.toMarket viewer now =
      view.answer newDecimal startsWith text db.toMarket viewer now := by
  cases view with
  | wallet | activeOrders | tradeHistory => cases hPublic
  | marketStats =>
      simp only [View.answer, MarketService.getStats, MarketRepository.findStats,
        MarketRepository.recentTrades, hTrades, findBest_eq_of_resting hEvolves hResting]
  | marketMatches page pageSize id =>
      simp only [View.answer, MarketService.getMatches, MarketRepository.findMatches, hTrades]
  | orderBook side page pageSize price =>
      simp only [View.answer, MarketService.getOrderBook, MarketRepository.findOrderBookLevels,
        findMany, List.filter_true, sort_groups_eq hEvolves hResting]

theorem mem_orders_of_unchanged (h : ¬db.Changed db' viewer) {order : Order}
    (hUser : order.userId = viewer) : order ∈ db'.orders ↔ order ∈ db.orders := by
  have hSame : db.orders.find? order.id = some order ∨ db'.orders.find? order.id = some order →
      db'.orders.find? order.id = db.orders.find? order.id := fun hOrder =>
    by_contra fun hChanged => h (Or.inr ⟨order.id, order, hChanged, hOrder, hUser⟩)
  constructor
  · intro hMem
    have hFound := Table.find?_of_mem hMem
    exact Table.mem_of_find? ((hSame (Or.inr hFound)).symm.trans hFound)
  · intro hMem
    have hFound := Table.find?_of_mem hMem
    exact Table.mem_of_find? ((hSame (Or.inl hFound)).trans hFound)

/-- The orders of a new trade are not what they were. -/
theorem changed_of_trade (hAccounted : db.Accounted) (hAccounted' : db'.Accounted)
    {trades : List Trade}
    (hTrades : db'.trades = db.trades ++ trades) {trade : Trade} (hTrade : trade ∈ trades)
    {id : OrderId} (hId : trade.makerOrderId = id ∨ trade.takerOrderId = id) :
    db'.orders.find? id ≠ db.orders.find? id := by
  have hRecorded : ∀ trade ∈ trades, db'.Recorded trade := fun trade hMem =>
    hAccounted'.recorded trade (hTrades ▸ List.mem_append_right _ hMem)
  intro hSame
  obtain ⟨order, hOrder⟩ : ∃ order, db'.orders.find? id = some order := by
    obtain ⟨_, _, _, _, hMaker, hTaker, _⟩ := (hRecorded trade hTrade).orders
    rcases hId with rfl | rfl
    · exact ⟨_, hMaker⟩
    · exact ⟨_, hTaker⟩
  have hExecuted : db'.executed id = db.executed id := by
    rw [← hAccounted'.executed id order hOrder, ← hAccounted.executed id order (hSame ▸ hOrder)]
  have hNew : db'.executed id = db.executed id + ((trades.filter fun trade =>
      trade.makerOrderId = id ∨ trade.takerOrderId = id).map (·.amount)).sum := by
    rw [Market.executed, hTrades, List.filter_append, List.map_append, List.sum_append,
      Market.executed]
  have hPos : 0 < ((trades.filter fun trade =>
      trade.makerOrderId = id ∨ trade.takerOrderId = id).map (·.amount)).sum := by
    refine List.sum_pos _ (fun amount hAmount => ?_) ?_
    · obtain ⟨other, hOther, rfl⟩ := List.mem_map.mp hAmount
      obtain ⟨_, _, _, _, hJoins⟩ := hRecorded other (List.mem_of_mem_filter hOther)
      exact hJoins.amount_pos
    · exact List.ne_nil_of_mem
        (List.mem_map_of_mem (List.mem_filter.mpr ⟨hTrade, decide_eq_true hId⟩))
  omega

/-- A trade that is new is not one of a user of whom nothing changed. -/
theorem not_listed_of_unchanged (hAccounted : db.Accounted) (hAccounted' : db'.Accounted)
    (h : ¬db.Changed db' viewer) {trades : List Trade} (hTrades : db'.trades = db.trades ++ trades)
    {trade : Trade} (hTrade : trade ∈ trades) : db'.owns viewer trade.buyOrderId = false ∧
      db'.owns viewer trade.sellOrderId = false := by
  have hOwns : ∀ id, trade.makerOrderId = id ∨
      trade.takerOrderId = id → db'.owns viewer id = false := by
    intro id hId
    have hChanged := changed_of_trade hAccounted hAccounted' hTrades hTrade hId
    cases hOrder : db'.orders.find? id with
    | none => rw [Market.owns, hOrder, Option.any_none]
    | some order =>
        rw [Market.owns_of_find? hOrder]
        exact decide_eq_false fun hUser => h (Or.inr ⟨id, order, hChanged, Or.inr hOrder, hUser⟩)
  obtain ⟨buy, sell, hBuy, hSell, hJoins⟩ :=
    hAccounted'.recorded trade (hTrades ▸ List.mem_append_right _ hTrade)
  have hNames : ∀ id, buy.id = id ∨ sell.id = id → trade.makerOrderId = id ∨
      trade.takerOrderId = id := by
    intro id hId
    rw [hJoins.data]
    exact (Market.trade_names_iff _ id).mpr hId
  exact ⟨hOwns _ (hNames _ (Or.inl (Table.key_of_find? hBuy))),
    hOwns _ (hNames _ (Or.inr (Table.key_of_find? hSell)))⟩

theorem owns_eq_of_evolves (hEvolves : db.toMarket.Evolves db'.toMarket) {id : OrderId}
    {order : Order} (hFound : db.orders.find? id = some order) (userId : UserId) :
    db'.owns userId id = db.owns userId id := by
  obtain ⟨later, hLater, hLeads⟩ := hEvolves.leads hFound
  rw [Market.owns_of_find? hLater, Market.owns_of_find? hFound, hLeads.kept, Order.revised_userId]

/-- The trades of a user of whom nothing changed are the same. -/
theorem filter_trades_of_unchanged {startsWith : String → String → Bool} {text : TradeId → String}
    (hEvolves : db.toMarket.Evolves db'.toMarket) (hAccounted : db.Accounted)
    (hAccounted' : db'.Accounted)
    (h : ¬db.Changed db' viewer) {trades : List Trade} (hTrades : db'.trades = db.trades ++ trades)
    (id : Option String) :
    db'.trades.filter (isListedTrade startsWith db'.toMarket text viewer id) =
      db.trades.filter (isListedTrade startsWith db.toMarket text viewer id) := by
  have hNew : trades.filter (isListedTrade startsWith db'.toMarket text viewer id) = [] := by
    refine List.filter_eq_nil_iff.mpr fun trade hTrade hListed => ?_
    obtain ⟨hBuy, hSell⟩ := not_listed_of_unchanged hAccounted hAccounted' h hTrades hTrade
    rw [isListedTrade, hBuy, hSell] at hListed
    simp at hListed
  rw [hTrades, List.filter_append, hNew, List.append_nil]
  refine List.filter_congr fun trade hTrade => ?_
  obtain ⟨buy, sell, hBuy, hSell, _⟩ := hAccounted.recorded trade hTrade
  rw [isListedTrade, isListedTrade, owns_eq_of_evolves hEvolves hBuy,
    owns_eq_of_evolves hEvolves hSell]

theorem selectUserTrade_of_evolves (hEvolves : db.toMarket.Evolves db'.toMarket) {trade : Trade}
    (hRecorded : db.Recorded trade) :
    selectUserTrade db'.toMarket trade = selectUserTrade db.toMarket trade := by
  have hUser : ∀ id order, db.orders.find? id = some order →
      (db'.orders.find? id).map Order.userId = (db.orders.find? id).map Order.userId := by
    intro id order hFound
    obtain ⟨later, hLater, hLeads⟩ := hEvolves.leads hFound
    rw [hLater, hFound, Option.map_some, Option.map_some, hLeads.kept, Order.revised_userId]
  obtain ⟨buy, sell, hBuy, _, _, hTaker, _⟩ := hRecorded.orders
  rw [selectUserTrade, selectUserTrade, hUser _ _ hBuy, hUser _ _ hTaker]

/-- What only the viewer sees depends on the viewer's rows. -/
theorem answer_private {newDecimal : String → Option DecimalValue}
    {startsWith : String → String → Bool}
    {text : TradeId → String} {now : Nat} (hEvolves : db.toMarket.Evolves db'.toMarket)
    (hAccounted : db.Accounted) (hAccounted' : db'.Accounted) (h : ¬db.Changed db' viewer)
    {trades : List Trade} (hTrades : db'.trades = db.trades ++ trades) {view : View}
    (hPublic : view.isPublic = false) :
    view.answer newDecimal startsWith text db'.toMarket viewer now =
      view.answer newDecimal startsWith text db.toMarket viewer now := by
  cases view with
  | marketStats | marketMatches | orderBook => cases hPublic
  | wallet =>
      have hWallet : db'.wallets.find? viewer = db.wallets.find? viewer :=
        by_contra fun hChanged => h (Or.inl hChanged)
      simp only [View.answer, AuthService.getWallet, hWallet]
  | activeOrders page pageSize id =>
      have hPerm : (db'.orders.rows.filter (isListedOrder startsWith viewer id)).Perm
          (db.orders.rows.filter (isListedOrder startsWith viewer id)) := by
        refine Table.perm_filter fun order hListed => mem_orders_of_unchanged h ?_
        rw [isListedOrder, Bool.and_eq_true, Bool.and_eq_true] at hListed
        exact of_decide_eq_true hListed.1.1
      have hUntied := @untied_newestFirst _ Order.createdAt _ _ db.sequences
      have hSorted := insertionSort_congr (hUntied.filter _) hPerm
      simp only [View.answer, OrdersService.getActiveOrders, OrdersRepository.findActiveOrders,
        findMany, count, hSorted, hPerm.length_eq]
  | tradeHistory page pageSize id =>
      have hFiltered := @filter_trades_of_unchanged _ _ viewer startsWith text hEvolves hAccounted
        hAccounted' h _ hTrades id
      have hItems : (findMany db.trades (isListedTrade startsWith db.toMarket text viewer id)
            (newestFirst Trade.createdAt Trade.sequence) ((page - 1) * pageSize) pageSize).map
            (selectUserTrade db'.toMarket) =
          (findMany db.trades (isListedTrade startsWith db.toMarket text viewer id)
            (newestFirst Trade.createdAt Trade.sequence) ((page - 1) * pageSize) pageSize).map
            (selectUserTrade db.toMarket) := by
        refine List.map_congr_left fun trade hTrade => selectUserTrade_of_evolves hEvolves ?_
        refine hAccounted.recorded trade (List.mem_of_mem_filter
          ((List.mem_insertionSort (newestFirst Trade.createdAt Trade.sequence)).mp
            (List.mem_of_mem_drop (List.mem_of_mem_take hTrade))))
      unfold findMany at hItems
      simp only [View.answer, TradesService.getUserHistory, TradesRepository.findUserHistory,
        findMany, count, hFiltered, hItems]

/-- When a call makes a view a different one, it inserts an event that invalidates
the key of the view. -/
theorem Reports.invalidates {newDecimal : String → Option DecimalValue}
    {startsWith : String → String → Bool} {text : TradeId → String} {now : Nat}
    {events : List RealtimeDispatchEvent} (h : db.Reports db' events)
    (hEvolves : db.toMarket.Evolves db'.toMarket) (hAccounted : db.Accounted)
    (hAccounted' : db'.Accounted) {trades : List Trade} (hTrades : db'.trades = db.trades ++ trades)
    {view : View} (hDiffers : view.answer newDecimal startsWith text db'.toMarket viewer now ≠
      view.answer newDecimal startsWith text db.toMarket viewer now) :
    ∃ event ∈ events, ExchangeRealtime.invalidates viewer view.key (dispatchEvent event) =
      true := by
  cases hPublic : view.isPublic with
  | true =>
      by_contra hNone
      have hSame : ¬((∃ id, db'.resting id ≠ db.resting id) ∨ db'.trades ≠ db.trades) :=
        fun hChanged => by
        obtain ⟨event, hEvent, hMarket⟩ := h.market hChanged
        exact hNone ⟨event, hEvent, View.invalidates_of_isMarketChanged viewer hMarket hPublic⟩
      obtain ⟨hResting, hTraded⟩ := not_or.mp hSame
      exact hDiffers (answer_public hEvolves (fun id => by_contra fun hNe => hResting ⟨id, hNe⟩)
        (not_not.mp hTraded) hPublic)
  | false =>
      by_contra hNone
      refine hDiffers
        (answer_private hEvolves hAccounted hAccounted' (fun hChanged => ?_) hTrades hPublic)
      obtain ⟨event, hEvent⟩ :=
        List.exists_mem_of_length_pos (by rw [h.changed viewer hChanged]; exact Nat.one_pos)
      obtain ⟨hMem, hNotifies⟩ := List.mem_filter.mp hEvent
      exact hNone ⟨event, hMem, View.invalidates_of_notifies viewer hNotifies hPublic⟩

variable (newDecimal : String → Option DecimalValue) (startsWith : String → String → Bool)
  (text : TradeId → String)

/-- Between two databases events were inserted that invalidate, in the page of
every user, the key of every answer that is a different one. -/
def Announced (db db' : Database) : Prop :=
  ∃ events, db'.realtimeOutbox = db.realtimeOutbox ++ events ∧
    ∀ (viewer : UserId) (now : Nat) (asked shown : View), asked.key = shown.key →
      shown.answer newDecimal startsWith text db'.toMarket viewer now ≠
        asked.answer newDecimal startsWith text db.toMarket viewer now →
      ∃ event ∈ events, ExchangeRealtime.invalidates viewer shown.key (dispatchEvent event) = true

variable {newDecimal startsWith text}

theorem Announced.refl (db : Database) : db.Announced newDecimal startsWith text db :=
  ⟨[], (List.append_nil _).symm, fun _ _ _ _ hKey hDiffers =>
    absurd (View.answer_eq_of_key_eq _ _ _ _ _ _ hKey).symm hDiffers⟩

theorem Announced.trans {middle : Database} (h : db.Announced newDecimal startsWith text middle)
    (hNext : middle.Announced newDecimal startsWith text db') :
    db.Announced newDecimal startsWith text db' := by
  obtain ⟨first, hFirst, hBefore⟩ := h
  obtain ⟨second, hSecond, hAfter⟩ := hNext
  refine ⟨first ++ second, by rw [hSecond, hFirst, List.append_assoc],
    fun viewer now asked shown hKey hDiffers => ?_⟩
  by_cases hSame : shown.answer newDecimal startsWith text middle.toMarket viewer now =
      asked.answer newDecimal startsWith text db.toMarket viewer now
  · obtain ⟨event, hEvent, hInvalidates⟩ := hAfter viewer now shown shown rfl (hSame ▸ hDiffers)
    exact ⟨event, List.mem_append_right _ hEvent, hInvalidates⟩
  · obtain ⟨event, hEvent, hInvalidates⟩ := hBefore viewer now asked shown hKey hSame
    exact ⟨event, List.mem_append_left _ hEvent, hInvalidates⟩

end Database

namespace History

variable {newDecimal : String → Option DecimalValue} {startsWith : String → String → Bool}
  {text : TradeId → String} {start : Database}

/-- One more call announces what it changes. -/
theorem announced_call (hOpening : start.Opening) (invocations : List Invocation)
    (invocation : Invocation) (hCaller : ∀ orderId, invocation.call ≠ .cancelOrder "" orderId) :
    ((History.start start).calls newDecimal invocations).db.Announced newDecimal startsWith text
      (((History.start start).calls newDecimal invocations).call newDecimal invocation).db := by
  obtain ⟨hWell, hAccounted⟩ := @accounted_of_opening newDecimal start hOpening invocations
  unfold History.call
  split
  · next outcome db' hCall =>
    obtain ⟨events, hReports⟩ := (Database.call_transition hWell hCall).reports hWell
      (Database.call_kept hWell hCall) hCaller
    obtain ⟨trades, hTrades, _⟩ := (Database.call_transition hWell hCall).touches hWell
    have hEvolves := Database.call_evolves hWell hCall
    have hAccounted' := (hEvolves.induction hWell hAccounted
      fun _ _ _ hEvent hAccounted => hAccounted.of_event hEvent).2
    refine ⟨events, hReports.inserted, fun viewer now asked shown hKey hDiffers => ?_⟩
    rw [View.answer_eq_of_key_eq _ _ _ _ _ _ hKey] at hDiffers
    exact hReports.invalidates hEvolves hAccounted hAccounted' hTrades hDiffers
  · exact .refl _

/-- A page that has handled the events inserted since it asked shows the present:
what is answered under the same key in any later state is the same, unless one of
these events has invalidated the key. -/
theorem views_announced (hOpening : start.Opening) (invocations later : List Invocation)
    (hCallers : ∀ invocation ∈ later, ∀ orderId, invocation.call ≠ .cancelOrder "" orderId) :
    ((History.start start).calls newDecimal invocations).db.Announced newDecimal startsWith text
      ((History.start start).calls newDecimal (invocations ++ later)).db := by
  induction later using List.reverseRecOn with
  | nil =>
      rw [List.append_nil]
      exact .refl _
  | append_singleton later invocation ih =>
      rw [← List.append_assoc, @calls_append _ _ (invocations ++ later)]
      refine (ih fun invocation hMem => hCallers invocation (List.mem_append_left _ hMem)).trans ?_
      exact announced_call hOpening (invocations ++ later) invocation
        (hCallers invocation (List.mem_append_right _ (List.mem_singleton.mpr rfl)))

/-- The whole sample is announced to those who have seen its start. -/
theorem views_announced_sample : Sample.start.Announced Sample.newDecimal
    (fun id start => start.isPrefixOf id) toString Sample.final.db :=
  views_announced Sample.opening [] Sample.calls (by simp [Sample.calls])

end History
end ExchangeMatching
