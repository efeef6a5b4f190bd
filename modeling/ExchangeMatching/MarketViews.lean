import ExchangeMatching.Limits
import ExchangeMatching.TradeHistory

/-! What the market shows to everybody: the levels of the order book and the
statistics of a day. Each is a query of its own; that they agree with the orders,
the wallets and the settled fills is proved here. -/
namespace ExchangeMatching

open FloorProduct Grouping Paging SortedSearch TradeSettlement

/-- `TRUNC(amount * price, 8)`, in units. -/
def truncatedProduct (amount price : Int) : Int := (amount * price).tdiv one

def statsWindowMs : Nat := 24 * 60 * 60 * 1000

/-- By price, best first, and then by sequence number. -/
def bookOrder (side : OrderSide) (left right : Order) : Prop :=
  match side with
  | .buy => right.price < left.price ∨ left.price = right.price ∧ left.sequence ≤ right.sequence
  | .sell => left.price < right.price ∨ left.price = right.price ∧ left.sequence ≤ right.sequence

instance (side : OrderSide) : DecidableRel (bookOrder side) := fun _ _ => by
  unfold bookOrder
  cases side
  · exact inferInstance
  · exact inferInstance

instance (side : OrderSide) : Std.Total (bookOrder side) where
  total left right := by
    unfold bookOrder
    cases side
    · dsimp only
      omega
    · dsimp only
      omega

instance (side : OrderSide) : IsTrans Order (bookOrder side) where
  trans left middle right hFirst hSecond := by
    unfold bookOrder at *
    cases side
    · dsimp only at *
      omega
    · dsimp only at *
      omega

def findFirst {Row : Type} (rows : List Row) (condition : Row → Bool) (orderBy : Row → Row → Prop)
    [DecidableRel orderBy] : Option Row :=
  ((rows.filter condition).insertionSort orderBy).head?

structure TradeStats where
  btcVolume24h : Int
  usdVolume24h : Int
  high24h : Option Int
  low24h : Option Int
deriving DecidableEq, Repr

structure MarketStats where
  lastTrade : Option Int
  tradeStats : TradeStats
  bestBid : Option Int
  bestAsk : Option Int
deriving DecidableEq, Repr

structure MarketStatsSummary where
  lastPrice : Option Int
  btcVolume24h : Int
  usdVolume24h : Int
  high24h : Option Int
  low24h : Option Int
  bestBid : Option Int
  bestAsk : Option Int
deriving DecidableEq, Repr

namespace MarketRepository

variable (market : Market)

/-- The trades of the last day. -/
def recentTrades (now : Nat) : List Trade :=
  market.trades.filter fun trade => (now : Int) - statsWindowMs ≤ trade.createdAt

/-- The price of the order that comes first on a side of the book. -/
def findBest (side : OrderSide) : Option Int :=
  (findFirst market.orders.rows (isListedInBook side none) (bookOrder side)).map Order.price

def findStats (now : Nat) : MarketStats where
  lastTrade := (findFirst market.trades (fun _ => true)
    (newestFirst Trade.createdAt Trade.sequence)).map (·.price)
  tradeStats :=
    let trades := recentTrades market now
    { btcVolume24h := (trades.map (·.amount)).sum
      usdVolume24h := (trades.map fun trade => truncatedProduct trade.amount trade.price).sum
      high24h := (trades.map (·.price)).max?
      low24h := (trades.map (·.price)).min? }
  bestBid := findBest market .buy
  bestAsk := findBest market .sell

end MarketRepository

namespace MarketService

def getStats (market : Market) (now : Nat) : MarketStatsSummary :=
  let stats := MarketRepository.findStats market now
  { lastPrice := stats.lastTrade
    btcVolume24h := stats.tradeStats.btcVolume24h
    usdVolume24h := stats.tradeStats.usdVolume24h
    high24h := stats.tradeStats.high24h
    low24h := stats.tradeStats.low24h
    bestBid := stats.bestBid
    bestAsk := stats.bestAsk }

end MarketService

/-- What an order reserves in the wallet of its user. -/
def Order.bound (side : OrderSide) (order : Order) : Int := order.reserves order.userId side

namespace Market

variable {market market' : Market}

/-- All wallets together reserve what all active orders bind. -/
def ReservedInTotal (market : Market) : Prop :=
  ∀ side, market.wallets.sum (·.get side.reserved) = market.orders.sum (Order.bound side)

/-- The balance of a user is stored in the one wallet of the user, if there is one. -/
theorem sum_filter_userId (userId : UserId) (field : BalanceField) :
    ((market.wallets.rows.filter (·.userId = userId)).map (·.get field)).sum =
      market.balance userId field := by
  cases hFound : market.wallets.find? userId with
  | none =>
      have hNone : market.wallets.rows.filter (·.userId = userId) = [] :=
        List.filter_eq_nil_iff.mpr fun wallet hWallet hUser =>
          Table.find?_eq_none_iff.mp hFound wallet hWallet (of_decide_eq_true hUser)
      rw [hNone, balance, hFound]
      rfl
  | some wallet =>
      obtain rfl := Table.key_of_find? hFound
      rw [filter_key_eq_singleton market.wallets.nodup (Table.mem_of_find? hFound),
        balance_of_find? hFound, List.map_singleton, List.sum_singleton]

/-- Added up user by user, what the wallets reserve is what the orders bind. -/
theorem Exact.reservedInTotal (h : market.Exact) : market.ReservedInTotal := by
  intro side
  let users := (market.wallets.rows.map Wallet.userId ++ market.orders.rows.map Order.userId).dedup
  have hWallets : ∀ wallet ∈ market.wallets.rows, wallet.userId ∈ users := fun wallet hWallet =>
    List.mem_dedup.mpr (List.mem_append_left _ (List.mem_map_of_mem hWallet))
  have hOrders : ∀ order ∈ market.orders.rows, order.userId ∈ users := fun order hOrder =>
    List.mem_dedup.mpr (List.mem_append_right _ (List.mem_map_of_mem hOrder))
  have hUser :
      ∀ userId, ((market.wallets.rows.filter (·.userId = userId)).map (·.get side.reserved)).sum =
      ((market.orders.rows.filter (·.userId = userId)).map (Order.bound side)).sum := by
    intro userId
    rw [sum_filter_userId, h, Table.sum, sum_filter]
    congr 1
    apply List.map_congr_left
    intro order _
    by_cases hOwner : order.userId = userId
    · rw [if_pos hOwner, Order.bound, hOwner]
    · rw [if_neg hOwner, Order.reserves, if_neg fun hBinds => hOwner hBinds.1.symm]
  calc market.wallets.sum (·.get side.reserved)
      = (users.map fun userId =>
          ((market.wallets.rows.filter (·.userId = userId)).map (·.get side.reserved)).sum).sum :=
        (sum_groups (List.nodup_dedup _) hWallets _).symm
    _ = (users.map fun userId =>
          ((market.orders.rows.filter (·.userId = userId)).map (Order.bound side)).sum).sum := by
        simp only [hUser]
    _ = market.orders.sum (Order.bound side) := sum_groups (List.nodup_dedup _) hOrders _

/-- The orders that rest on a side of the book. -/
def restingOrders (market : Market) (side : OrderSide) : List Order :=
  market.orders.rows.filter fun order => order.side = side ∧
  order.status ∈ [.opened, .partiallyFilled]

/-- The SELL orders that wait to be matched. -/
def queuedSells (market : Market) : List Order :=
  market.orders.rows.filter fun order => order.side = .sell ∧ order.status = .queued

/-- The levels of a side, over all pages. -/
def levels (market : Market) (side : OrderSide) : List OrderBookLevel :=
  ((groupByPrice (market.restingOrders side)).insertionSort (bestFirst side)).map
    (toOrderBookLevel side)

variable {side : OrderSide}

theorem filter_isListedInBook :
    market.orders.rows.filter (isListedInBook side none) = market.restingOrders side := by
  refine List.filter_congr fun order _ => ?_
  unfold isListedInBook
  cases order.status <;> simp [OrderStatus.isResting]

theorem allItems_orderBookPage {pageSize : Nat} (hSize : 0 < pageSize) :
    allItems (orderBookPage market side none pageSize) = market.levels side := by
  obtain ⟨list, _, hUnique, hListed⟩ := @paginates_orderBookPage market pageSize hSize side none
  rw [hListed.allItems_eq, ← hUnique _ (sorted_insertionSort (bestFirst side) _),
    filter_isListedInBook]
  rfl

theorem map_price_groupByPrice (orders : List Order) :
    (groupByPrice orders).map PriceGroup.price = (orders.map Order.price).dedup := by
  rw [groupByPrice, List.map_map]
  exact List.map_id _

theorem perm_levels : (market.levels side).Perm
    ((groupByPrice (market.restingOrders side)).map (toOrderBookLevel side)) :=
  (List.perm_insertionSort _ _).map _

theorem nodup_levels : ((market.levels side).map OrderBookLevel.price).Nodup := by
  rw [(perm_levels.map _).nodup_iff, List.map_map]
  change ((groupByPrice (market.restingOrders side)).map PriceGroup.price).Nodup
  rw [map_price_groupByPrice]
  exact List.nodup_dedup _

/-- What a level says of the orders with its price. -/
theorem mem_levels {level : OrderBookLevel} : level ∈ market.levels side ↔
    level.price ∈ (market.restingOrders side).map Order.price ∧
      level.amount = (((market.restingOrders side).filter (·.price = level.price)).map
        Order.remainingAmount).sum ∧
      level.orderCount = ((market.restingOrders side).filter (·.price = level.price)).length ∧
      level.side = side := by
  rw [perm_levels.mem_iff, List.mem_map]
  constructor
  · rintro ⟨group, hGroup, rfl⟩
    obtain ⟨hPrice, hAmount, hCount⟩ := mem_groupByPrice.mp hGroup
    exact ⟨hPrice, hAmount, hCount, rfl⟩
  · rintro ⟨hPrice, hAmount, hCount, rfl⟩
    exact ⟨⟨level.price, level.amount, level.orderCount⟩,
      mem_groupByPrice.mpr ⟨hPrice, hAmount, hCount⟩, rfl⟩

/-- Levels of different prices, best first. -/
theorem pairwise_levels :
    (market.levels side).Pairwise fun left right => match side with
    | .buy => right.price < left.price
    | .sell => left.price < right.price := by
  have hOrder : (market.levels side).Pairwise fun left right =>
      match side with
      | .buy => right.price ≤ left.price
      | .sell => left.price ≤ right.price := by
    refine List.pairwise_map.mpr ((List.pairwise_insertionSort (bestFirst side) _).imp ?_)
    exact fun h => h
  have hDistinct := List.pairwise_map.mp (List.nodup_iff_pairwise_ne.mp (@nodup_levels market side))
  refine (hOrder.and hDistinct).imp fun ⟨hBefore, hNe⟩ => ?_
  cases side with
  | buy => exact lt_of_le_of_ne hBefore hNe.symm
  | sell => exact lt_of_le_of_ne hBefore hNe

/-- Every resting order is counted in one level. -/
theorem length_filter_levels {order : Order} (hOrder : order ∈ market.restingOrders side) :
    ((market.levels side).filter fun level => level.price = order.price).length = 1 := by
  have hPrice : order.price ∈ (market.restingOrders side).map Order.price :=
    List.mem_map_of_mem hOrder
  let group := (market.restingOrders side).filter (·.price = order.price)
  have hLevel : ⟨order.price, (group.map Order.remainingAmount).sum, group.length, side⟩ ∈
      market.levels side := mem_levels.mpr ⟨hPrice, rfl, rfl, rfl⟩
  exact congrArg List.length (filter_key_eq_singleton nodup_levels hLevel)

theorem sum_orderCount_levels :
    ((market.levels side).map OrderBookLevel.orderCount).sum =
      (market.restingOrders side).length := by
  have hGroups := sum_groups (List.nodup_dedup ((market.restingOrders side).map Order.price))
    (fun order hOrder => List.mem_dedup.mpr (List.mem_map_of_mem hOrder)) (fun _ => 1)
  simp only [List.map_const', List.sum_replicate_nat, Nat.mul_one] at hGroups
  rw [(perm_levels.map _).sum_eq, List.map_map, ← hGroups, groupByPrice, List.map_map]
  rfl

theorem sum_amount_levels : ((market.levels side).map OrderBookLevel.amount).sum =
    ((market.restingOrders side).map Order.remainingAmount).sum := by
  have hGroups := sum_groups (List.nodup_dedup ((market.restingOrders side).map Order.price))
    (fun order hOrder => List.mem_dedup.mpr (List.mem_map_of_mem hOrder)) Order.remainingAmount
  rw [(perm_levels.map _).sum_eq, List.map_map, ← hGroups, groupByPrice, List.map_map]
  rfl

/-- What SELL orders bind is what they have left. -/
theorem sum_bound_sell : market.orders.sum (Order.bound .sell) =
    ((market.restingOrders .sell).map Order.remainingAmount).sum +
      (market.queuedSells.map Order.remainingAmount).sum := by
  unfold Table.sum restingOrders queuedSells
  induction market.orders.rows with
  | nil => rfl
  | cons order orders ih =>
      have hBound : order.bound .sell =
          (if order.side = .sell ∧ order.status ∈
            [.opened, .partiallyFilled] then order.remainingAmount
            else 0) + if order.side = .sell ∧
              order.status = .queued then order.remainingAmount else 0 := by
        unfold Order.bound Order.reserves Order.reservation OrderSide.reservation
        cases order.side <;> cases order.status <;> simp [OrderStatus.isActive]
      rw [List.map_cons, List.sum_cons, ih, hBound, List.filter_cons, List.filter_cons]
      simp only [decide_eq_true_eq]
      split_ifs with hResting hQueued hQueued
      · rw [hQueued.2] at hResting
        simp at hResting
      · rw [List.map_cons, List.sum_cons]
        omega
      · rw [List.map_cons, List.sum_cons]
        omega
      · omega

theorem insertionSort_eq_nil {Row : Type} {r : Row → Row → Prop} [DecidableRel r] {rows : List Row}
    (h : (rows.insertionSort r).head? = none) : rows = [] := by
  rw [List.head?_eq_none_iff, ← List.length_eq_zero_iff, List.length_insertionSort] at h
  exact List.length_eq_zero_iff.mp h

/-- The order that comes first has the price of the first level. -/
theorem findBest_eq : MarketRepository.findBest market side =
    (market.levels side).head?.map OrderBookLevel.price := by
  unfold MarketRepository.findBest findFirst levels
  rw [filter_isListedInBook, List.head?_map, Option.map_map]
  cases hBest : ((market.restingOrders side).insertionSort (bookOrder side)).head? with
  | none =>
      rw [insertionSort_eq_nil hBest]
      rfl
  | some order =>
      have hOrder : order ∈ market.restingOrders side :=
        (List.mem_insertionSort _).mp (List.mem_of_mem_head? hBest)
      let group : PriceGroup :=
        ⟨order.price, (((market.restingOrders side).filter (·.price = order.price)).map
          Order.remainingAmount).sum,
            ((market.restingOrders side).filter (·.price = order.price)).length⟩
      have hGroup : group ∈ groupByPrice (market.restingOrders side) :=
        mem_groupByPrice.mpr ⟨List.mem_map_of_mem hOrder, rfl, rfl⟩
      cases hHead :
        ((groupByPrice (market.restingOrders side)).insertionSort (bestFirst side)).head? with
      | none =>
          rw [insertionSort_eq_nil hHead] at hGroup
          cases hGroup
      | some first =>
          have hFirst : first ∈ groupByPrice (market.restingOrders side) :=
            (List.mem_insertionSort _).mp (List.mem_of_mem_head? hHead)
          obtain ⟨row, hRow, hPrice⟩ := List.mem_map.mp (mem_groupByPrice.mp hFirst).1
          have hBefore : bookOrder side order row := rel_of_head? hBest hRow
          have hAfter : bestFirst side first group := rel_of_head? hHead hGroup
          refine congrArg some ?_
          change order.price = first.price
          unfold bookOrder at hBefore
          unfold bestFirst at hAfter
          cases side with
          | buy =>
              change order.price ≤ first.price at hAfter
              dsimp only at hBefore
              omega
          | sell =>
              change first.price ≤ order.price at hAfter
              dsimp only at hBefore
              omega

theorem levels_eq_nil_iff : market.levels side = [] ↔ market.restingOrders side = [] := by
  constructor
  · intro hNone
    have hCount := @sum_orderCount_levels market side
    rw [hNone, List.map_nil, List.sum_nil] at hCount
    exact List.length_eq_zero_iff.mp hCount.symm
  · intro hNone
    rw [levels, hNone]
    rfl

/-- The price of a side is missing when nothing rests there. -/
theorem findBest_eq_none_iff : MarketRepository.findBest market side = none ↔
    market.restingOrders side = [] := by
  rw [findBest_eq, Option.map_eq_none_iff, List.head?_eq_none_iff, levels_eq_nil_iff]

/-- The settlement of a trade took from the buyer what the statistics count. -/
theorem SettledBy.taken {opening : Market} (hOpening : opening.Opening) {trade : Trade}
    {before after : Market} (h : SettledBy opening market trade before after) :
    multiplyScaled trade.amount trade.price = .ok (cost trade.amount trade.price) ∧
      truncatedProduct trade.amount trade.price = cost trade.amount trade.price ∧
      ∀ buy, before.orders.find? trade.buyOrderId = some buy →
        before.holdings buy.userId .usd - after.holdings buy.userId .usd =
          cost trade.amount trade.price := by
  obtain ⟨fill, hFill⟩ := h.exists_fill
  have hWell := (h.reached.induction hOpening.wellFormed trivial fun _ _ _ _ _ => trivial).1
  have hExecutable : fill.Executable :=
    ⟨hFill.crossing, hWell.orders _ (Table.mem_of_find? hFill.buy),
      hWell.orders _ (Table.mem_of_find? hFill.sell)⟩
  have hPrice : trade.price = fill.price := congrArg TradeData.price hFill.trade
  have hAmount : trade.amount = fill.amount := congrArg TradeData.amount hFill.trade
  have hBuyId : trade.buyOrderId = fill.buy.id := congrArg TradeData.buyOrderId hFill.trade
  rw [hPrice, hAmount, hBuyId]
  refine ⟨hExecutable.multiplyScaled_executed,
    tdiv_eq_floorProduct hExecutable.amount_pos.le hExecutable.price_pos.le, fun buy hBuy => ?_⟩
  obtain rfl := Option.some.inj (hFill.buy.symm.trans hBuy)
  have hNet : fill.buyerUpdate.netTotal .usd = -fill.executed := fill.netTotal_buyerUpdate .usd
  rw [hFill.holdings, if_pos rfl, if_neg hFill.crossing.users, hNet]
  change _ = fill.executed
  omega

/-- The levels of a side, and the orders that rest there. -/
structure LevelsAgree (market : Market) (side : OrderSide) (levels : List OrderBookLevel) :
    Prop where
  sorted : levels.Pairwise fun left right =>
    match side with
    | .buy => right.price < left.price
    | .sell => left.price < right.price
  once : ∀ order ∈ market.restingOrders side,
    (levels.filter fun level => level.price = order.price).length = 1
  groups : ∀ level ∈ levels, level.price ∈ (market.restingOrders side).map Order.price ∧
    level.amount =
      (((market.restingOrders side).filter (·.price = level.price)).map Order.remainingAmount).sum ∧
    level.orderCount = ((market.restingOrders side).filter (·.price = level.price)).length ∧
    level.side = side
  counted : (levels.map OrderBookLevel.orderCount).sum = (market.restingOrders side).length
  amounts : (levels.map OrderBookLevel.amount).sum =
    ((market.restingOrders side).map Order.remainingAmount).sum

theorem levelsAgree (market : Market) (side : OrderSide) :
    market.LevelsAgree side (market.levels side) where
  sorted := pairwise_levels
  once _ := length_filter_levels
  groups _ := mem_levels.mp
  counted := sum_orderCount_levels
  amounts := sum_amount_levels

/-- The volume of a day, and what the settlements of its trades took. -/
structure VolumeAgrees (opening market : Market) (now : Nat) (volume : Int) : Prop where
  sum : volume = ((MarketRepository.recentTrades market now).map fun trade =>
    cost trade.amount trade.price).sum
  scaled : ∀ trade ∈ MarketRepository.recentTrades market now,
    multiplyScaled trade.amount trade.price = .ok (cost trade.amount trade.price)
  settled : ∀ trade ∈ MarketRepository.recentTrades market now,
    ∃ before after, SettledBy opening market trade before after
  taken : ∀ trade ∈ MarketRepository.recentTrades market now, ∀ before after,
    SettledBy opening market trade before after →
      ∀ buy, before.orders.find? trade.buyOrderId = some buy →
        before.holdings buy.userId .usd - after.holdings buy.userId .usd =
          cost trade.amount trade.price

theorem volumeAgrees {opening : Market} (hOpening : opening.Opening)
    (hEvolves : opening.Evolves market)
    (now : Nat) :
    VolumeAgrees opening market now (MarketService.getStats market now).usdVolume24h := by
  have hSettled : ∀ trade ∈ MarketRepository.recentTrades market now,
      ∃ before after, SettledBy opening market trade before after :=
    fun trade hTrade => hEvolves.exists_settledBy hOpening (List.mem_of_mem_filter hTrade)
  refine ⟨congrArg List.sum (List.map_congr_left fun trade hTrade => ?_), fun trade hTrade => ?_,
    hSettled,
    fun trade _ before after hStep => (hStep.taken hOpening).2.2⟩
  · obtain ⟨_, _, hStep⟩ := hSettled trade hTrade
    exact (hStep.taken hOpening).2.1
  · obtain ⟨_, _, hStep⟩ := hSettled trade hTrade
    exact (hStep.taken hOpening).1

/-- The public views agree with orders, wallets and settlements. -/
structure ViewsAgree (newDecimal : String → Option DecimalValue) (opening market : Market)
    (now : Nat) : Prop where
  pages : ∀ side pageSize, 0 < pageSize → ∃ respond,
    (∀ page, MarketService.getOrderBook market newDecimal side page pageSize none =
      .ok (respond page)) ∧ allItems respond = market.levels side
  levels : ∀ side, market.LevelsAgree side (market.levels side)
  reserved : ((market.levels .sell).map OrderBookLevel.amount).sum =
    (market.wallets.rows.map Wallet.reservedBtc).sum -
      (market.queuedSells.map Order.remainingAmount).sum
  bestBid : (MarketService.getStats market now).bestBid =
    (market.levels .buy).head?.map OrderBookLevel.price
  bestAsk : (MarketService.getStats market now).bestAsk =
    (market.levels .sell).head?.map OrderBookLevel.price
  noBid : (MarketService.getStats market now).bestBid = none ↔ market.restingOrders .buy = []
  noAsk : (MarketService.getStats market now).bestAsk = none ↔ market.restingOrders .sell = []
  volume : VolumeAgrees opening market now (MarketService.getStats market now).usdVolume24h

theorem viewsAgree {opening : Market} (hOpening : opening.Opening)
    (hEvolves : opening.Evolves market)
    (newDecimal : String → Option DecimalValue) (now : Nat) :
    ViewsAgree newDecimal opening market now where
  pages side pageSize hSize := ⟨_, fun page => rfl, allItems_orderBookPage hSize⟩
  levels := market.levelsAgree
  reserved := by
    have hExact := (hEvolves.induction hOpening.wellFormed hOpening.exact
      fun _ _ _ hEvent hExact => hExact.of_event hEvent).2
    have hTotal := hExact.reservedInTotal .sell
    rw [sum_bound_sell] at hTotal
    change (market.wallets.rows.map Wallet.reservedBtc).sum = _ at hTotal
    rw [sum_amount_levels, hTotal, add_sub_cancel_right]
  bestBid := findBest_eq
  bestAsk := findBest_eq
  noBid := findBest_eq_none_iff
  noAsk := findBest_eq_none_iff
  volume := volumeAgrees hOpening hEvolves now

end Market

namespace History

variable {newDecimal : String → Option DecimalValue} {start : Database}

/-- After any calls the views of the market agree with its orders, wallets and
settlements. -/
theorem market_views (hOpening : start.Opening) (invocations : List Invocation) (now : Nat) :
    Market.ViewsAgree newDecimal start.toMarket
      ((History.start start).calls newDecimal invocations).db.toMarket now :=
  Market.viewsAgree hOpening
    (@calls_evolve newDecimal (History.start start) hOpening.wellFormed invocations) newDecimal now

theorem market_views_sample :
    Market.ViewsAgree Sample.newDecimal Sample.start.toMarket Sample.final.db.toMarket 100 ∧
    (MarketService.getStats Sample.final.db.toMarket 100).usdVolume24h =
      500000000 := by
  have hViews := @market_views Sample.newDecimal Sample.start Sample.opening Sample.calls 100
  exact ⟨hViews, by decide +kernel⟩

end History
end ExchangeMatching
