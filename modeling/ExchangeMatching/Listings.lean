import ExchangeMatching.Pagination
import ExchangeMatching.Trades
import Mathlib.Data.List.Dedup

/-! The paginated lists of the exchange: active orders, matches, the trade
history of a user and the levels of the order book. Every page of a list and
its count are queries of their own; decimals are given by their units. -/
namespace ExchangeMatching

open Paging SortedSearch

/-- One page of the rows that satisfy a condition, in some order. -/
def findMany {Row : Type} (rows : List Row) (condition : Row → Bool) (orderBy : Row → Row → Prop)
    [DecidableRel orderBy] (skip take : Nat) : List Row :=
  slice ((rows.filter condition).insertionSort orderBy) skip take

def count {Row : Type} (rows : List Row) (condition : Row → Bool) : Nat :=
  (rows.filter condition).length

/-- By time of creation and then by sequence number, both descending. -/
def newestFirst {Row : Type} (createdAt sequence : Row → Nat) (left right : Row) : Prop :=
  createdAt right < createdAt left ∨
  createdAt left = createdAt right ∧ sequence right ≤ sequence left

section Newest

variable {Row : Type} (createdAt sequence : Row → Nat)

instance : DecidableRel (newestFirst createdAt sequence) :=
  fun _ _ => inferInstanceAs (Decidable (_ ∨ _))

instance : Std.Total (newestFirst createdAt sequence) where
  total left right := by
    unfold newestFirst
    omega

instance : IsTrans Row (newestFirst createdAt sequence) where
  trans left middle right hFirst hSecond := by
    unfold newestFirst at *
    omega

variable {createdAt sequence}

/-- Sequence numbers break all ties. -/
theorem untied_newestFirst {rows : List Row} (h : (rows.map sequence).Nodup) :
    Untied (newestFirst createdAt sequence) rows := by
  intro left hLeft right hRight hBefore hAfter
  refine List.inj_on_of_nodup_map h hLeft hRight ?_
  unfold newestFirst at hBefore hAfter
  omega

end Newest

/-- How the database tells whether a text starts with another one is given. -/
def idMatches (startsWith : String → String → Bool) (idFilter : Option String)
    (id : String) : Bool :=
  idFilter.all (startsWith id)

structure OrderSummary where
  id : OrderId
  side : OrderSide
  status : OrderStatus
  price : Int
  originalAmount : Int
  remainingAmount : Int
  createdAt : Nat
deriving DecidableEq, Repr

def toOrderSummary (order : Order) : OrderSummary :=
  ⟨order.id, order.side, order.status, order.price, order.originalAmount, order.remainingAmount,
    order.createdAt⟩

structure MarketMatchSummary where
  id : TradeId
  price : Int
  amount : Int
  takerSide : OrderSide
  createdAt : Nat
deriving DecidableEq, Repr

def toMarketMatchSummary (trade : Trade) : MarketMatchSummary :=
  ⟨trade.id, trade.price, trade.amount, trade.takerSide, trade.createdAt⟩

/-- A group of orders with one price. -/
structure PriceGroup where
  price : Int
  remainingAmount : Int
  orderCount : Nat
deriving DecidableEq, Repr

structure OrderBookLevel where
  price : Int
  amount : Int
  orderCount : Nat
  side : OrderSide
deriving DecidableEq, Repr

def toOrderBookLevel (side : OrderSide) (level : PriceGroup) : OrderBookLevel :=
  ⟨level.price, level.remainingAmount, level.orderCount, side⟩

/-- What a query for a user's trades selects. The users are joined. -/
structure UserTrade where
  id : TradeId
  price : Int
  amount : Int
  createdAt : Nat
  makerFeeAmount : Int
  makerFeeAsset : TradeFeeAsset
  takerFeeAmount : Int
  takerFeeAsset : TradeFeeAsset
  buyOrderUserId : Option UserId
  takerOrderUserId : Option UserId
deriving DecidableEq, Repr

inductive TradeRole where
  | maker
  | taker
deriving DecidableEq, Repr

structure UserTradeHistoryItem where
  id : TradeId
  price : Int
  amount : Int
  side : OrderSide
  role : TradeRole
  feeAmount : Int
  feeAsset : TradeFeeAsset
  createdAt : Nat
deriving DecidableEq, Repr

def toUserTradeHistoryItem (userId : UserId) (trade : UserTrade) : UserTradeHistoryItem :=
  let side : OrderSide := if trade.buyOrderUserId = some userId then .buy else .sell
  let role : TradeRole := if trade.takerOrderUserId = some userId then .taker else .maker
  { id := trade.id
    price := trade.price
    amount := trade.amount
    side
    role
    feeAmount := if role = .taker then trade.takerFeeAmount else trade.makerFeeAmount
    feeAsset := if role = .taker then trade.takerFeeAsset else trade.makerFeeAsset
    createdAt := trade.createdAt }

/-- Orders of one price make up one group. -/
def groupByPrice (orders : List Order) : List PriceGroup :=
  (orders.map Order.price).dedup.map fun price =>
    let group := orders.filter (·.price = price)
    ⟨price, (group.map Order.remainingAmount).sum, group.length⟩

/-- Best prices first. -/
def bestFirst (side : OrderSide) (left right : PriceGroup) : Prop :=
  match side with
  | .buy => right.price ≤ left.price
  | .sell => left.price ≤ right.price

instance (side : OrderSide) : DecidableRel (bestFirst side) := fun _ _ => by
  unfold bestFirst
  cases side
  · exact inferInstance
  · exact inferInstance

instance (side : OrderSide) : Std.Total (bestFirst side) where
  total left right := by
    cases side
    · exact le_total right.price left.price
    · exact le_total left.price right.price

instance (side : OrderSide) : IsTrans PriceGroup (bestFirst side) where
  trans left middle right hFirst hSecond := by
    cases side
    · exact le_trans hSecond hFirst
    · exact le_trans hFirst hSecond

section Queries

variable (startsWith : String → String → Bool) (market : Market)

/-- The condition of `findActiveOrders`. -/
def isListedOrder (userId : UserId) (id : Option String) (order : Order) : Bool :=
  order.userId = userId && order.status.isActive &&
    idMatches startsWith (buildIdPrefixFilter id) order.id

/-- The condition of `findOrderBookLevels`. -/
def isListedInBook (side : OrderSide) (price : Option Int) (order : Order) : Bool :=
  order.side = side && order.status.isResting && price.all (order.price = ·)

-- The stored text of a trade's id.
variable (text : TradeId → String)

/-- The condition of `findMatches`. -/
def isListedMatch (id : Option String) (trade : Trade) : Bool :=
  idMatches startsWith (buildIdPrefixFilter id) (text trade.id)

/-- The condition of `findUserHistory`. -/
def isListedTrade (userId : UserId) (id : Option String) (trade : Trade) : Bool :=
  idMatches startsWith (buildIdPrefixFilter id) (text trade.id) &&
    (market.owns userId trade.buyOrderId || market.owns userId trade.sellOrderId)

def selectUserTrade (trade : Trade) : UserTrade where
  id := trade.id
  price := trade.price
  amount := trade.amount
  createdAt := trade.createdAt
  makerFeeAmount := trade.makerFeeAmount
  makerFeeAsset := trade.makerFeeAsset
  takerFeeAmount := trade.takerFeeAmount
  takerFeeAsset := trade.takerFeeAsset
  buyOrderUserId := (market.orders.find? trade.buyOrderId).map Order.userId
  takerOrderUserId := (market.orders.find? trade.takerOrderId).map Order.userId

namespace OrdersRepository

def findActiveOrders (userId : UserId) (page pageSize : Nat)
    (id : Option String) : List Order × Nat :=
  (findMany market.orders.rows (isListedOrder startsWith userId id)
      (newestFirst Order.createdAt Order.sequence) ((page - 1) * pageSize) pageSize,
    count market.orders.rows (isListedOrder startsWith userId id))

end OrdersRepository

namespace MarketRepository

def findOrderBookLevels (side : OrderSide) (page pageSize : Nat) (price : Option Int) :
    List PriceGroup × Nat :=
  let groups := groupByPrice (market.orders.rows.filter (isListedInBook side price))
  (findMany groups (fun _ => true) (bestFirst side) ((page - 1) * pageSize) pageSize,
    (groups.insertionSort (bestFirst side)).length)

def findMatches (page pageSize : Nat) (id : Option String) : List Trade × Nat :=
  (findMany market.trades (isListedMatch startsWith text id)
      (newestFirst Trade.createdAt Trade.sequence) ((page - 1) * pageSize) pageSize,
    count market.trades (isListedMatch startsWith text id))

end MarketRepository

namespace TradesRepository

def findUserHistory (userId : UserId) (page pageSize : Nat)
    (id : Option String) : List UserTrade × Nat :=
  ((findMany market.trades (isListedTrade startsWith market text userId id)
      (newestFirst Trade.createdAt Trade.sequence) ((page - 1) * pageSize) pageSize).map
      (selectUserTrade market),
    count market.trades (isListedTrade startsWith market text userId id))

end TradesRepository

namespace OrdersService

def getActiveOrders (userId : UserId) (page pageSize : Nat) (id : Option String) :
    PaginatedResponse OrderSummary :=
  let (orders, totalItems) :=
    OrdersRepository.findActiveOrders startsWith market userId page pageSize id
  buildPaginatedResponse (orders.map toOrderSummary) page pageSize totalItems

end OrdersService

namespace MarketService

/-- An empty price counts as no price. -/
def parsePrice (newDecimal : String → Option DecimalValue) (price : Option String) :
    Except Failure (Option Int) :=
  match price with
  | none | some "" => return none
  | some price => do
      let price ← parsePositiveDecimalInput newDecimal price "price"
      return some (columnUnits price)

def getOrderBook (newDecimal : String → Option DecimalValue) (side : OrderSide)
    (page pageSize : Nat)
    (price : Option String) : Except Failure (PaginatedResponse OrderBookLevel) := do
  let price ← parsePrice newDecimal price
  let (levels, totalItems) := MarketRepository.findOrderBookLevels market side page pageSize price
  return buildPaginatedResponse (levels.map (toOrderBookLevel side)) page pageSize totalItems

def getMatches (page pageSize : Nat) (id : Option String) : PaginatedResponse MarketMatchSummary :=
  let (trades, totalItems) := MarketRepository.findMatches startsWith market text page pageSize id
  buildPaginatedResponse (trades.map toMarketMatchSummary) page pageSize totalItems

end MarketService

namespace TradesService

def getUserHistory (userId : UserId) (page pageSize : Nat) (id : Option String) :
    PaginatedResponse UserTradeHistoryItem :=
  let (trades, totalItems) :=
    TradesRepository.findUserHistory startsWith market text userId page pageSize id
  buildPaginatedResponse (trades.map (toUserTradeHistoryItem userId)) page pageSize totalItems

end TradesService
end Queries
/-- The responses for one page size are the pages of a list. -/
structure Listed {Item : Type} (respond : Nat → PaginatedResponse Item) (pageSize : Nat)
    (list : List Item) : Prop where
  totalItems : ∀ page, (respond page).pagination.totalItems = list.length
  pages : ∀ page, (respond page).pagination.totalPages = totalPages list.length pageSize
  covers : Covers list pageSize (totalPages list.length pageSize) fun page => (respond page).items

/-- The rows are listed in their order, of which there is only one. -/
def Paginates {Row Item : Type} (r : Row → Row → Prop) (rows : List Row) (toItem : Row → Item)
    (pageSize : Nat) (respond : Nat → PaginatedResponse Item) : Prop :=
  ∃ list, Sorted r rows list ∧ (∀ answer, Sorted r rows answer → answer = list) ∧
    Listed respond pageSize (list.map toItem)

theorem paginates_findMany {Row Item : Type} {r : Row → Row → Prop} [DecidableRel r] [Std.Total r]
    [IsTrans Row r] {rows : List Row} {condition : Row → Bool} (hUntied : Untied r rows)
    (toItem : Row → Item) {pageSize : Nat} (hSize : 0 < pageSize) :
    Paginates r (rows.filter condition) toItem pageSize fun page =>
      buildPaginatedResponse
        ((findMany rows condition r ((page - 1) * pageSize) pageSize).map toItem)
        page pageSize (count rows condition) := by
  have hSorted := sorted_insertionSort r (rows.filter condition)
  have hLength : (((rows.filter condition).insertionSort r).map toItem).length =
      count rows condition := by
    rw [List.length_map, List.length_insertionSort]
    rfl
  refine ⟨_, hSorted, fun answer hAnswer => hAnswer.unique (hUntied.filter condition) hSorted,
    fun page => hLength.symm, fun page => by rw [hLength]; rfl, ?_⟩
  have hSuffices := suffices_totalPages ((rows.filter condition).insertionSort r).length hSize
  have hCovers := (covers_slice hSuffices).map toItem
  rw [List.length_map]
  exact hCovers

theorem mem_groupByPrice {orders : List Order} {group : PriceGroup} :
    group ∈ groupByPrice orders ↔ group.price ∈ orders.map Order.price ∧
      group.remainingAmount =
        ((orders.filter (·.price = group.price)).map Order.remainingAmount).sum ∧
      group.orderCount = (orders.filter (·.price = group.price)).length := by
  unfold groupByPrice
  rw [List.mem_map]
  constructor
  · rintro ⟨price, hPrice, rfl⟩
    exact ⟨List.mem_dedup.mp hPrice, rfl, rfl⟩
  · rintro ⟨hPrice, hAmount, hCount⟩
    refine ⟨group.price, List.mem_dedup.mpr hPrice, ?_⟩
    dsimp only
    rw [← hAmount, ← hCount]

/-- Groups with the same price are the same. -/
theorem untied_groupByPrice (side : OrderSide) (orders : List Order) :
    Untied (bestFirst side) (groupByPrice orders) := by
  intro left hLeft right hRight hBefore hAfter
  have hPrice : left.price = right.price := by
    cases side
    · exact le_antisymm hAfter hBefore
    · exact le_antisymm hBefore hAfter
  obtain ⟨_, hLeftAmount, hLeftCount⟩ := mem_groupByPrice.mp hLeft
  obtain ⟨_, hRightAmount, hRightCount⟩ := mem_groupByPrice.mp hRight
  rw [hPrice, ← hRightAmount] at hLeftAmount
  rw [hPrice, ← hRightCount] at hLeftCount
  cases left
  cases right
  simp_all

section Endpoints

variable {startsWith : String → String → Bool} {text : TradeId → String} {market : Market}
  {pageSize : Nat}

theorem paginates_getActiveOrders (hSize : 0 < pageSize) (userId : UserId) (id : Option String) :
    Paginates (newestFirst Order.createdAt Order.sequence)
      (market.orders.rows.filter (isListedOrder startsWith userId id)) toOrderSummary pageSize
      fun page => OrdersService.getActiveOrders startsWith market userId page pageSize id :=
  paginates_findMany (untied_newestFirst market.sequences) toOrderSummary hSize

theorem paginates_getMatches (hTrades : (market.trades.map (·.sequence)).Nodup)
    (hSize : 0 < pageSize) (id : Option String) :
    Paginates (newestFirst Trade.createdAt Trade.sequence)
      (market.trades.filter (isListedMatch startsWith text id)) toMarketMatchSummary pageSize
      fun page => MarketService.getMatches startsWith market text page pageSize id :=
  paginates_findMany (untied_newestFirst hTrades) toMarketMatchSummary hSize

theorem paginates_getUserHistory (hTrades : (market.trades.map (·.sequence)).Nodup)
    (hSize : 0 < pageSize) (userId : UserId) (id : Option String) :
    Paginates (newestFirst Trade.createdAt Trade.sequence)
      (market.trades.filter (isListedTrade startsWith market text userId id))
      (fun trade => toUserTradeHistoryItem userId (selectUserTrade market trade)) pageSize
      fun page => TradesService.getUserHistory startsWith market text userId page pageSize id := by
  have hPages := @paginates_findMany _ _ (newestFirst Trade.createdAt Trade.sequence) _ _ _
    market.trades (isListedTrade startsWith market text userId id) (untied_newestFirst hTrades)
    (fun trade => toUserTradeHistoryItem userId (selectUserTrade market trade)) pageSize hSize
  unfold TradesService.getUserHistory TradesRepository.findUserHistory
  simp only [List.map_map, Function.comp_def]
  exact hPages

/-- The response of the order book for a price that has been parsed. -/
def orderBookPage (market : Market) (side : OrderSide) (price : Option Int) (pageSize page : Nat) :
    PaginatedResponse OrderBookLevel :=
  let (levels, totalItems) := MarketRepository.findOrderBookLevels market side page pageSize price
  buildPaginatedResponse (levels.map (toOrderBookLevel side)) page pageSize totalItems

theorem paginates_orderBookPage (hSize : 0 < pageSize) (side : OrderSide) (price : Option Int) :
    Paginates (bestFirst side)
      (groupByPrice (market.orders.rows.filter (isListedInBook side price))) (toOrderBookLevel side)
      pageSize (orderBookPage market side price pageSize) := by
  have hPages := @paginates_findMany _ _ (bestFirst side) _ _ _
    (groupByPrice (market.orders.rows.filter (isListedInBook side price))) (fun _ => true)
    (untied_groupByPrice side _) (toOrderBookLevel side) pageSize hSize
  unfold orderBookPage MarketRepository.findOrderBookLevels
  simp only [count, List.filter_true] at hPages
  simp only [List.length_insertionSort]
  exact hPages

end Endpoints
/-- A query string writes the number that is used, unless it is empty. -/
def QueryValue.Writes (value : QueryValue) (fallback number : ℕ) : Prop :=
  ∀ content, value = .text content →
    if content = "" then number = fallback
    else isDigits content = true ∧ digitsValue content = number

theorem QueryValue.writes_of_toPositiveInteger {value : QueryValue} {fallback number : ℕ}
    (h : toPositiveInteger value (.finite fallback) = .finite number) :
    value.Writes fallback number := by
  intro content hContent
  rw [hContent] at h
  split_ifs with hEmpty
  · rw [hEmpty, toPositiveInteger, if_pos (Or.inr (Or.inr rfl)), Double.Number.finite.injEq] at h
    exact_mod_cast h.symm
  · exact PaginationQueryDto.digits_of_toPositiveInteger hEmpty h

/-- In every state of the database, whose trades have different sequence numbers,
the pages of each list make up the list; and an accepted query uses the numbers
that it writes, with an exact offset. -/
theorem lists_paginated {market : Market} (hTrades : (market.trades.map (·.sequence)).Nodup) :
    (∀ startsWith text pageSize, 0 < pageSize →
      (∀ userId id, Paginates (newestFirst Order.createdAt Order.sequence)
        (market.orders.rows.filter (isListedOrder startsWith userId id)) toOrderSummary pageSize
        fun page => OrdersService.getActiveOrders startsWith market userId page pageSize id) ∧
      (∀ id, Paginates (newestFirst Trade.createdAt Trade.sequence)
        (market.trades.filter (isListedMatch startsWith text id)) toMarketMatchSummary pageSize
        fun page => MarketService.getMatches startsWith market text page pageSize id) ∧
      (∀ userId id, Paginates (newestFirst Trade.createdAt Trade.sequence)
        (market.trades.filter (isListedTrade startsWith market text userId id))
        (fun trade => toUserTradeHistoryItem userId (selectUserTrade market trade)) pageSize
        fun page => TradesService.getUserHistory startsWith market text userId page pageSize id) ∧
      ∀ newDecimal side price priceFilter, MarketService.parsePrice newDecimal price =
        .ok priceFilter → ∃ respond, (∀ page,
          MarketService.getOrderBook market newDecimal side page pageSize price =
            .ok (respond page)) ∧
          Paginates (bestFirst side)
            (groupByPrice (market.orders.rows.filter (isListedInBook side priceFilter)))
            (toOrderBookLevel side) pageSize respond) ∧
    (∀ page pageSize id query, PaginationQueryDto.accept page pageSize id = .ok query →
      ∃ number size : ℕ, query.Accepted number size ∧ page.Writes 1 number ∧
        pageSize.Writes 25 size) ∧
    ∀ totalItems pageSize, totalItems < 2 ^ 53 → 0 < pageSize →
      (totalPages totalItems pageSize : ℤ) = ⌈Double.round (totalItems / pageSize)⌉ := by
  refine ⟨fun startsWith text pageSize hSize => ⟨paginates_getActiveOrders hSize,
    paginates_getMatches hTrades hSize, paginates_getUserHistory hTrades hSize, ?_⟩, ?_,
    fun _ _ => totalPages_eq_ceil_round⟩
  · intro newDecimal side price priceFilter hPrice
    refine ⟨_, fun page => ?_, paginates_orderBookPage hSize side priceFilter⟩
    rw [MarketService.getOrderBook, hPrice]
    rfl
  · intro page pageSize id query hAccept
    obtain ⟨rfl, number, size, hQuery⟩ := PaginationQueryDto.accepted_of_ok hAccept
    refine ⟨number, size, hQuery, QueryValue.writes_of_toPositiveInteger ?_,
      QueryValue.writes_of_toPositiveInteger ?_⟩
    · rw [Nat.cast_one]
      exact hQuery.page_eq
    · exact hQuery.pageSize_eq

namespace Sample

/-- One of the fills of a taker that meets several makers at once. -/
def fill (id : TradeId) : Trade where
  makerOrderId := "sell"
  takerOrderId := "buy"
  buyOrderId := "buy"
  sellOrderId := "sell"
  takerSide := .buy
  makerFeeRate := 50000
  makerFeeAmount := 0
  makerFeeAsset := .usd
  takerFeeRate := 300000
  takerFeeAmount := 0
  takerFeeAsset := .btc
  price := 5 * one
  amount := id
  id := id
  sequence := id
  createdAt := 14

/-- Three trades of the same time. -/
def swept : Market := { final.db.toMarket with trades := [fill 1, fill 2, fill 3] }

/-- A page of the trades, two at a time. -/
def matchesPage (page : Nat) : PaginatedResponse MarketMatchSummary :=
  MarketService.getMatches (fun id start => start.isPrefixOf id) swept toString page 2 none

end Sample

/-- The latest trade comes first, and the last page is not full. -/
theorem lists_paginated_sample :
    Paginates (newestFirst Trade.createdAt Trade.sequence)
      (Sample.swept.trades.filter
        (isListedMatch (fun id start => start.isPrefixOf id) toString none))
      toMarketMatchSummary 2 Sample.matchesPage ∧
    (Sample.matchesPage 1).items.map (·.id) = [3, 2] ∧
    (Sample.matchesPage 2).items.map (·.id) = [1] ∧
    (Sample.matchesPage 3).items = [] ∧ (Sample.matchesPage 3).pagination.totalPages = 2 := by
  have hTrades : (Sample.swept.trades.map (·.sequence)).Nodup := by decide
  obtain ⟨hLists, _, _⟩ := lists_paginated hTrades
  exact ⟨(hLists _ _ 2 Nat.two_pos).2.1
    none, by decide +kernel, by decide +kernel, by decide +kernel, by decide +kernel⟩

/-- An empty page is accepted as the first one, but no integer is written. -/
theorem empty_page_accepted : ¬∀ content pageSize query,
    PaginationQueryDto.accept (.text content) pageSize .undefined = .ok query →
      ∃ number : ℕ, query.page = .finite number ∧ isDigits content = true ∧
        digitsValue content = number := by
  intro hClaim
  have hErrors : (PaginationQueryDto.transform (.text "") .undefined .undefined).errors = [] := by
    decide +kernel
  obtain ⟨_, _, hDigits, _⟩ := hClaim "" .undefined _ (if_pos hErrors)
  cases hDigits

end ExchangeMatching
