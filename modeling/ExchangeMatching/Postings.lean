import ExchangeMatching.Ledger
import ExchangeMatching.MonetaryInvariants

/-! The check of a trade by the ledger oracle. A trade passes exactly when it
records a fill between two stored orders, and what it books to the accounts of
the replay is its posting. -/
namespace ExchangeMatching
namespace MonetaryInvariants

open Checked

variable {market : Market} {orders : List Order} {books books' : Books} {label : String}

/-- The snapshot finds the orders of the market. -/
theorem getOrder_of (hOrders : orders.Perm market.orders.rows) (id : OrderId) :
    getOrder (orders.map .of) id = (market.orders.find? id).map .of := by
  have hMem : ∀ order, order ∈ orders.reverse ↔ order ∈ market.orders := fun order => by
    rw [List.mem_reverse, hOrders.mem_iff, Table.mem_def]
  rw [getOrder, ← List.map_reverse, List.find?_map]
  congr 1
  cases hFound : market.orders.find? id with
  | none =>
      refine List.find?_eq_none.mpr fun order hOrder => ?_
      have hNe := Table.find?_eq_none_iff.mp hFound order ((hMem order).mp hOrder)
      exact fun hId => hNe (of_decide_eq_true hId)
  | some order =>
      have hSome :
          (orders.reverse.find? ((fun row => decide (row.id = id)) ∘ OrderSnapshot.of)).isSome := by
        refine List.find?_isSome.mpr ⟨order, (hMem order).mpr (Table.mem_of_find? hFound), ?_⟩
        exact decide_eq_true (show order.id = id from Table.key_of_find? hFound)
      obtain ⟨other, hOther⟩ := Option.isSome_iff_exists.mp hSome
      have hMatch := List.find?_some hOther
      have hId : other.id = id := of_decide_eq_true hMatch
      have hSame := Table.find?_of_mem ((hMem other).mp (List.mem_of_find?_eq_some hOther))
      rw [hId, hFound] at hSame
      rw [hOther, hSame]

/-- The asset that an order receives. -/
def receives (side : OrderSide) : TradeFeeAsset := if side = .buy then .btc else .usd

theorem checkFee_bind_eq_ok {Result : Type} {role : String} {rate : Int} {order : Order}
    {buyer seller : UserId} {amount consideration feeAmount feeRate : Int}
    {feeAsset : TradeFeeAsset} {next : Books → Except AssertionError Result} {result : Result} :
    (checkFee label role rate (.of order) buyer seller amount consideration
      (toDecimalString feeAmount)
        (toDecimalString feeRate) feeAsset books >>= next) = .ok result ↔
      (0 ≤ feeAmount ∧ feeAmount ≤ decimalMax) ∧ feeAsset = receives order.side ∧
      feeRate = (rate * scale).tdiv 1000 ∧
      feeAmount =
        ((if receives order.side = .btc then amount else consideration) * rate).tdiv 1000 ∧
      next (books.withhold (receives order.side) buyer seller feeAmount) = .ok result := by
  unfold checkFee
  simp only [bind_assoc, bounded_bind_eq_ok, ensure_bind_eq_ok, units_bind, pure_bind]
  rfl

theorem cost_eq {amount price : Int} (hAmount : 0 ≤ amount) (hPrice : 0 ≤ price) :
    cost amount price = ExchangeMatching.cost amount price :=
  FloorProduct.tdiv_eq_floorProduct hAmount hPrice

/-- A fee in thousandths is the fee of the settlement, whose rates are in units. -/
theorem fee_eq {gross thousandths : Int} (hGross : 0 ≤ gross) (hRate : 0 ≤ thousandths) :
    (gross * thousandths).tdiv 1000 = ExchangeMatching.cost gross (thousandths * 100000) := by
  have hScale : (one : Int) = 1000 * 100000 := by decide
  rw [Int.tdiv_eq_ediv_of_nonneg (Int.mul_nonneg hGross hRate), ExchangeMatching.cost,
    FloorProduct.floorProduct, hScale, ← mul_assoc, Int.mul_ediv_mul_of_pos_left _ _ (by decide)]

/-- What the oracle asserts of a trade. -/
structure Passes (market : Market) (trade : Trade) (buy sell : Order) : Prop where
  buyFound : market.orders.find? trade.buyOrderId = some buy
  sellFound : market.orders.find? trade.sellOrderId = some sell
  joins : trade.Joins buy sell
  amount_le : trade.amount ≤ decimalMax
  price_nonneg : 0 ≤ trade.price
  price_le : trade.price ≤ decimalMax
  makerFee : 0 ≤ trade.makerFeeAmount ∧ trade.makerFeeAmount ≤ decimalMax
  takerFee : 0 ≤ trade.takerFeeAmount ∧ trade.takerFeeAmount ≤ decimalMax

/-- A trade that passes, booked to the ledger of the replay. -/
def post (market : Market) (books : Books) (trade : Trade) : Books where
  ledger userId := (books.ledger userId).map fun account =>
    { account with
      btc := account.btc + market.posting userId .btc trade
      usd := account.usd + market.posting userId .usd trade }
  executed id := books.executed id +
    if trade.makerOrderId = id ∨ trade.takerOrderId = id then trade.amount else 0
  fees := ⟨books.fees.btcFees + trade.fees .btc, books.fees.usdFees + trade.fees .usd⟩

/-- The posting of a trade, from its two orders. -/
theorem posting_of_joins {trade : Trade} {buy sell : Order}
    (hBuy : market.orders.find? trade.buyOrderId = some buy)
    (hSell : market.orders.find? trade.sellOrderId = some sell) (hJoins : trade.Joins buy sell)
    (userId : UserId) :
    market.posting userId .btc trade =
        (if userId = buy.userId then trade.amount - trade.fees .btc else 0) +
          (if userId = sell.userId then -trade.amount else 0) ∧
      market.posting userId .usd trade =
        (if userId = buy.userId then -ExchangeMatching.cost trade.amount trade.price else 0) +
          (if userId = sell.userId then
            ExchangeMatching.cost trade.amount trade.price - trade.fees .usd else 0) := by
  have hUsers := hJoins.users
  obtain ⟨buy', sell', hBuy', hSell', hMaker, hTaker, _⟩ :=
    Market.Recorded.orders ⟨buy, sell, hBuy, hSell, hJoins⟩
  rw [hBuy] at hBuy'
  rw [hSell] at hSell'
  cases hBuy'
  cases hSell'
  have hOwnsBuy := Market.owns_of_find? hBuy userId
  have hOwnsSell := Market.owns_of_find? hSell userId
  have hOwnsMaker := Market.owns_of_find? hMaker userId
  have hOwnsTaker := Market.owns_of_find? hTaker userId
  have hMakerAsset : trade.makerFeeAsset = (trade.fill buy sell).trade.makerFeeAsset :=
    congrArg TradeData.makerFeeAsset hJoins.data
  have hTakerAsset : trade.takerFeeAsset = (trade.fill buy sell).trade.takerFeeAsset :=
    congrArg TradeData.takerFeeAsset hJoins.data
  unfold Trade.fill Fill.maker at hOwnsMaker
  unfold Trade.fill Fill.taker at hOwnsTaker
  unfold Trade.fill Fill.trade at hMakerAsset hTakerAsset
  simp only [Market.posting, Trade.receiver, Trade.giver, Trade.quantity, Trade.fees, hOwnsBuy,
    hOwnsSell, hOwnsMaker, hOwnsTaker, decide_eq_true_eq, eq_comm (a := userId), hMakerAsset,
    hTakerAsset]
  cases hSide : trade.takerSide <;>
    simp only [reduceCtorEq, and_true, and_false, if_true, if_false] <;>
    constructor <;> split_ifs <;> omega

@[simp] theorem executed_withhold {asset : TradeFeeAsset} {buyer seller : UserId} {fee : Int} :
    (books.withhold asset buyer seller fee).executed = books.executed := by
  cases asset <;> rfl

/-- What the two fees and the exchange of a trade come to is its posting. -/
theorem post_eq {trade : Trade} {buy sell : Order} (hPasses : Passes market trade buy sell) :
    Books.execute (Books.execute (((books.exchange buy.userId sell.userId trade.amount
        (ExchangeMatching.cost trade.amount trade.price)).withhold trade.makerFeeAsset buy.userId
        sell.userId trade.makerFeeAmount).withhold trade.takerFeeAsset buy.userId sell.userId
        trade.takerFeeAmount) trade.makerOrderId trade.amount) trade.takerOrderId trade.amount =
      post market books trade := by
  obtain ⟨hBuy, hSell, hJoins, _⟩ := hPasses
  have hUsers := hJoins.users
  have hMakerAsset : trade.makerFeeAsset = (trade.fill buy sell).trade.makerFeeAsset :=
    congrArg TradeData.makerFeeAsset hJoins.data
  have hTakerAsset : trade.takerFeeAsset = (trade.fill buy sell).trade.takerFeeAsset :=
    congrArg TradeData.takerFeeAsset hJoins.data
  unfold Trade.fill Fill.trade at hMakerAsset hTakerAsset
  have hIds : trade.makerOrderId ≠ trade.takerOrderId := by
    intro hSame
    obtain ⟨_, _, hBuy', hSell', hMaker, hTaker, _⟩ :=
      Market.Recorded.orders ⟨buy, sell, hBuy, hSell, hJoins⟩
    rw [hSame, hTaker] at hMaker
    unfold Trade.fill Fill.maker Fill.taker at hMaker
    rw [hBuy] at hBuy'
    rw [hSell] at hSell'
    cases hBuy'
    cases hSell'
    cases hSide : trade.takerSide <;> rw [hSide] at hMaker <;> cases hMaker <;> exact hUsers rfl
  refine Books.ext (funext fun userId => ?_) (funext fun id => ?_) (Fees.ext ?_ ?_)
  · obtain ⟨hBtc, hUsd⟩ := posting_of_joins hBuy hSell hJoins userId
    simp only [post, Books.execute, Books.exchange, hBtc, hUsd, Trade.fees]
    by_cases hBuyer : userId = buy.userId
    · have hSeller : userId ≠ sell.userId := hBuyer ▸ hUsers
      cases hSide : trade.takerSide <;> rw [hSide] at hMakerAsset hTakerAsset <;>
        cases hAccount : books.ledger userId <;>
        simp only [hMakerAsset, hTakerAsset, Books.withhold, Accounts.change, hAccount,
          if_pos hBuyer, if_neg hSeller, if_true, reduceCtorEq, if_false, Option.map_none,
          Option.map_some, Option.some.injEq, Account.ext_iff, and_true] <;> omega
    · by_cases hSeller : userId = sell.userId
      · cases hSide : trade.takerSide <;> rw [hSide] at hMakerAsset hTakerAsset <;>
          cases hAccount : books.ledger userId <;>
          simp only [hMakerAsset, hTakerAsset, Books.withhold, Accounts.change, hAccount,
            if_neg hBuyer, if_pos hSeller, if_true, reduceCtorEq, if_false, Option.map_none,
            Option.map_some, Option.some.injEq, Account.ext_iff, and_true] <;> omega
      · cases hSide : trade.takerSide <;> rw [hSide] at hMakerAsset hTakerAsset <;>
          cases hAccount : books.ledger userId <;>
          simp only [hMakerAsset, hTakerAsset, Books.withhold, Accounts.change, hAccount,
            if_neg hBuyer, if_neg hSeller, add_zero, Option.map_none, Option.map_some]
  · simp only [post, Books.execute, executed_withhold, Books.exchange]
    by_cases hTaker : id = trade.takerOrderId
    · rw [hTaker, Function.update_self, Function.update_of_ne hIds.symm, if_pos (Or.inr rfl)]
    · rw [Function.update_of_ne hTaker]
      by_cases hMaker : id = trade.makerOrderId
      · rw [hMaker, Function.update_self, if_pos (Or.inl rfl)]
      · rw [Function.update_of_ne hMaker, if_neg (by tauto), add_zero]
  · cases hMaker : trade.makerFeeAsset <;> cases hTaker : trade.takerFeeAsset <;>
      simp only [post, Books.execute, Books.withhold, Books.exchange, Trade.fees, hMaker, hTaker,
        if_true, reduceCtorEq, if_false] <;> omega
  · cases hMaker : trade.makerFeeAsset <;> cases hTaker : trade.takerFeeAsset <;>
      simp only [post, Books.execute, Books.withhold, Books.exchange, Trade.fees, hMaker, hTaker,
        if_true, reduceCtorEq, if_false] <;> omega

/-- The assertions of the oracle about a trade and the four rows that it names. -/
structure Asserts (market : Market) (trade : Trade) (maker taker buy sell : Order) : Prop where
  makerFound : market.orders.find? trade.makerOrderId = some maker
  takerFound : market.orders.find? trade.takerOrderId = some taker
  buyFound : market.orders.find? trade.buyOrderId = some buy
  sellFound : market.orders.find? trade.sellOrderId = some sell
  users : maker.userId ≠ taker.userId
  sides : maker.side ≠ taker.side
  buySide : buy.side = .buy
  sellSide : sell.side = .sell
  takerSide : trade.takerSide = taker.side
  buyId : buy.id = if maker.side = .buy then maker.id else taker.id
  sellId : sell.id = if maker.side = .sell then maker.id else taker.id
  amount : 0 ≤ trade.amount ∧ trade.amount ≤ decimalMax
  price : 0 ≤ trade.price ∧ trade.price ≤ decimalMax
  positive : 0 < trade.amount ∧ 0 < cost trade.amount trade.price
  makerPrice : trade.price = maker.price
  limits : trade.price ≤ buy.price ∧ sell.price ≤ trade.price
  makerFee : 0 ≤ trade.makerFeeAmount ∧ trade.makerFeeAmount ≤ decimalMax
  makerAsset : trade.makerFeeAsset = receives maker.side
  makerRate : trade.makerFeeRate = (5 * scale).tdiv 1000
  makerAmount : trade.makerFeeAmount = ((if receives maker.side = .btc then trade.amount
    else cost trade.amount trade.price) * 5).tdiv 1000
  takerFee : 0 ≤ trade.takerFeeAmount ∧ trade.takerFeeAmount ≤ decimalMax
  takerAsset : trade.takerFeeAsset = receives taker.side
  takerRate : trade.takerFeeRate = (3 * scale).tdiv 1000
  takerAmount : trade.takerFeeAmount = ((if receives taker.side = .btc then trade.amount
    else cost trade.amount trade.price) * 3).tdiv 1000

theorem checkTrade_eq_ok_iff_asserts (hOrders : orders.Perm market.orders.rows) {trade : Trade} :
    checkTrade (orders.map .of) books (.of trade) = .ok books' ↔
      ∃ maker taker buy sell, Asserts market trade maker taker buy sell ∧
        ((books.ledger buy.userId).isSome ∧ (books.ledger sell.userId).isSome) ∧
        books' = Books.execute (Books.execute (((books.exchange buy.userId sell.userId trade.amount
          (cost trade.amount trade.price)).withhold (receives maker.side) buy.userId sell.userId
          trade.makerFeeAmount).withhold (receives taker.side) buy.userId sell.userId
          trade.takerFeeAmount) maker.id trade.amount) taker.id trade.amount := by
  unfold checkTrade
  simp only [TradeSnapshot.amounts_of, OrderSnapshot.amounts_of, getOrder_of hOrders,
    require_bind_eq_ok, Option.map_eq_some_iff, exists_exists_and_eq_and, ensure_bind_eq_ok,
    bounded_bind_eq_ok, units_bind, checkFee_bind_eq_ok, pure_eq_ok]
  constructor
  · rintro ⟨maker, hMaker, taker, hTaker, buy, hBuy, sell, hSell, hUsers, hSides, hBuySide,
      hSellSide, hTakerSide, hBuyId, hSellId, hAmount, hPrice, hPositive, hMakerPrice, hLimits,
      hAccounts, hMakerFee, hMakerAsset, hMakerRate, hMakerAmount, hTakerFee, hTakerAsset,
      hTakerRate, hTakerAmount, hBooks⟩
    exact ⟨maker, taker, buy, sell,
      ⟨hMaker, hTaker, hBuy, hSell, hUsers, hSides, hBuySide, hSellSide,
      hTakerSide, hBuyId, hSellId, hAmount, hPrice, hPositive, hMakerPrice, hLimits, hMakerFee,
      hMakerAsset, hMakerRate, hMakerAmount, hTakerFee, hTakerAsset, hTakerRate, hTakerAmount⟩,
      hAccounts, hBooks⟩
  · rintro ⟨maker, taker, buy, sell, h, hAccounts, hBooks⟩
    exact ⟨maker, h.makerFound, taker, h.takerFound, buy, h.buyFound, sell, h.sellFound, h.users,
      h.sides, h.buySide, h.sellSide, h.takerSide, h.buyId, h.sellId, h.amount, h.price, h.positive,
      h.makerPrice, h.limits, hAccounts, h.makerFee, h.makerAsset, h.makerRate, h.makerAmount,
      h.takerFee, h.takerAsset, h.takerRate, h.takerAmount, hBooks⟩

/-- The columns of a trade, one by one. -/
theorem data_iff {trade : Trade}
    {buy sell : Order} : trade.toTradeData = (trade.fill buy sell).trade ↔
    trade.makerOrderId = (trade.fill buy sell).maker.id ∧
    trade.takerOrderId = (trade.fill buy sell).taker.id ∧
    trade.buyOrderId = buy.id ∧ trade.sellOrderId = sell.id ∧
    trade.makerFeeRate = TradeSettlement.makerFeeRate ∧
    trade.makerFeeAmount = (trade.fill buy sell).trade.makerFeeAmount ∧
    trade.makerFeeAsset = (trade.fill buy sell).trade.makerFeeAsset ∧
    trade.takerFeeRate = TradeSettlement.takerFeeRate ∧
    trade.takerFeeAmount = (trade.fill buy sell).trade.takerFeeAmount ∧
    trade.takerFeeAsset = (trade.fill buy sell).trade.takerFeeAsset ∧
    trade.price = (trade.fill buy sell).price := by
  obtain ⟨⟨_, _, _, _, _, _, _, _, _, _, _, _, _⟩, id, sequence, createdAt⟩ := trade
  simp only [Fill.trade, Trade.fill, TradeData.mk.injEq, true_and, and_true]

namespace Asserts

variable {trade : Trade} {maker taker buy sell : Order}
  (h : Asserts market trade maker taker buy sell)

include h

/-- The four rows that the trade names are two. -/
theorem roles : maker = (trade.fill buy sell).maker ∧ taker = (trade.fill buy sell).taker := by
  have hSame : ∀ {id other : OrderId} {order row : Order}, market.orders.find? id = some order →
      market.orders.find? other = some row → order.id = row.id → row = order := by
    intro id other order row hOrder hRow hIds
    rw [Table.key_of_find? hOrder, Table.key_of_find? hRow] at hIds
    rw [hIds, hRow] at hOrder
    exact Option.some.inj hOrder
  have hBuyId := h.buyId
  have hSellId := h.sellId
  cases hMakerSide : maker.side with
  | buy =>
      rw [hMakerSide, if_pos rfl] at hBuyId
      rw [hMakerSide, if_neg (by decide)] at hSellId
      obtain rfl := hSame h.buyFound h.makerFound hBuyId
      obtain rfl := hSame h.sellFound h.takerFound hSellId
      rw [Trade.fill, h.takerSide, h.sellSide]
      exact ⟨rfl, rfl⟩
  | sell =>
      rw [hMakerSide, if_neg (by decide)] at hBuyId
      rw [hMakerSide, if_pos rfl] at hSellId
      obtain rfl := hSame h.buyFound h.takerFound hBuyId
      obtain rfl := hSame h.sellFound h.makerFound hSellId
      rw [Trade.fill, h.takerSide, h.buySide]
      exact ⟨rfl, rfl⟩

/-- The fees of the trade are those of a fill between the two orders. -/
theorem fees :
    trade.makerFeeAmount = (trade.fill buy sell).trade.makerFeeAmount ∧
    trade.makerFeeAsset = (trade.fill buy sell).trade.makerFeeAsset ∧
    trade.takerFeeAmount = (trade.fill buy sell).trade.takerFeeAmount ∧
    trade.takerFeeAsset = (trade.fill buy sell).trade.takerFeeAsset := by
  obtain ⟨hMaker, hTaker⟩ := h.roles
  have hCost := cost_eq h.amount.1 h.price.1
  have hGross : 0 ≤ ExchangeMatching.cost trade.amount trade.price := hCost ▸ h.positive.2.le
  have hMakerAmount := h.makerAmount
  have hTakerAmount := h.takerAmount
  have hMakerAsset := h.makerAsset
  have hTakerAsset := h.takerAsset
  have hPrice := h.makerPrice
  rw [hCost] at hMakerAmount hTakerAmount
  unfold Trade.fill Fill.trade Fill.sellerFee Fill.buyerFee Fill.executed Fill.price
  unfold Trade.fill Fill.maker at hMaker
  unfold Trade.fill Fill.taker at hTaker
  unfold Fill.maker
  cases hSide : trade.takerSide with
  | buy =>
      rw [hSide] at hMaker hTaker
      rw [hMaker, h.sellSide] at hMakerAmount hMakerAsset
      rw [hTaker, h.buySide] at hTakerAmount hTakerAsset
      rw [hMaker] at hPrice
      rw [← hPrice]
      exact ⟨hMakerAmount.trans (fee_eq hGross (by decide)), hMakerAsset,
        hTakerAmount.trans (fee_eq h.amount.1 (by decide)), hTakerAsset⟩
  | sell =>
      rw [hSide] at hMaker hTaker
      rw [hMaker, h.buySide] at hMakerAmount hMakerAsset
      rw [hTaker, h.sellSide] at hTakerAmount hTakerAsset
      rw [hMaker] at hPrice
      rw [← hPrice]
      exact ⟨hMakerAmount.trans (fee_eq h.amount.1 (by decide)), hMakerAsset,
        hTakerAmount.trans (fee_eq hGross (by decide)), hTakerAsset⟩

theorem passes : Passes market trade buy sell := by
  obtain ⟨hMaker, hTaker⟩ := h.roles
  obtain ⟨hMakerAmount, hMakerAsset, hTakerAmount, hTakerAsset⟩ := h.fees
  have hMakerKey : trade.makerOrderId = maker.id := (Table.key_of_find? h.makerFound).symm
  have hTakerKey : trade.takerOrderId = taker.id := (Table.key_of_find? h.takerFound).symm
  have hBuyKey : trade.buyOrderId = buy.id := (Table.key_of_find? h.buyFound).symm
  have hSellKey : trade.sellOrderId = sell.id := (Table.key_of_find? h.sellFound).symm
  have hPrice : trade.price = (trade.fill buy sell).price := by
    rw [Fill.price, ← hMaker, h.makerPrice]
  have hUsers : buy.userId ≠ sell.userId := by
    have hRoles := h.users
    unfold Trade.fill Fill.maker at hMaker
    unfold Trade.fill Fill.taker at hTaker
    rw [hMaker, hTaker] at hRoles
    cases hSide : trade.takerSide <;> rw [hSide] at hRoles
    · exact hRoles.symm
    · exact hRoles
  have hExecuted : 0 < (trade.fill buy sell).executed := by
    rw [Fill.executed, ← hPrice]
    exact cost_eq h.amount.1 h.price.1 ▸ h.positive.2
  have hData : trade.toTradeData = (trade.fill buy sell).trade := data_iff.mpr
    ⟨hMaker ▸ hMakerKey, hTaker ▸ hTakerKey, hBuyKey, hSellKey, h.makerRate, hMakerAmount,
      hMakerAsset, h.takerRate, hTakerAmount, hTakerAsset, hPrice⟩
  exact ⟨h.buyFound, h.sellFound,
    ⟨hData, h.buySide, h.sellSide, hUsers, h.limits.2.trans h.limits.1,
    h.positive.1, hExecuted⟩, h.amount.2, h.price.1, h.price.2, h.makerFee, h.takerFee⟩

end Asserts

/-- A trade that records a fill meets every assertion. -/
theorem Passes.asserts {trade : Trade} {buy sell : Order} (h : Passes market trade buy sell) :
    Asserts market trade (trade.fill buy sell).maker (trade.fill buy sell).taker buy sell := by
  obtain ⟨hBuy, hSell, hJoins, hAmount, hPriceNonneg, hPrice, hMakerFee, hTakerFee⟩ := h
  have hCost := cost_eq hJoins.amount_pos.le hPriceNonneg
  obtain ⟨_, _, _, _, hMakerRate, hMakerAmount, hMakerAsset, hTakerRate, hTakerAmount, hTakerAsset,
    hMakerPrice⟩ := data_iff.mp hJoins.data
  obtain ⟨_, _, hBuy', hSell', hMaker, hTaker, _⟩ :=
    Market.Recorded.orders ⟨buy, sell, hBuy, hSell, hJoins⟩
  rw [hBuy] at hBuy'
  rw [hSell] at hSell'
  cases hBuy'
  cases hSell'
  have hExecuted : (trade.fill buy sell).executed =
      ExchangeMatching.cost trade.amount trade.price := by
    rw [Fill.executed, ← hMakerPrice]
    rfl
  have hGross : 0 < ExchangeMatching.cost trade.amount trade.price :=
    hExecuted ▸ hJoins.executed_pos
  have hLimits := hJoins.limits
  have hBuySide := hJoins.buySide
  have hSellSide := hJoins.sellSide
  have hUsers := hJoins.users
  unfold Fill.trade Fill.sellerFee Fill.buyerFee at hMakerAmount hTakerAmount
  unfold Fill.trade at hMakerAsset hTakerAsset
  rw [hExecuted] at hMakerAmount hTakerAmount
  rw [Fill.price] at hMakerPrice
  unfold Trade.fill Fill.maker at *
  unfold Fill.taker at *
  cases hSide : trade.takerSide with
  | buy =>
      simp only [hSide]
        at hMakerAmount hMakerAsset hTakerAmount hTakerAsset hMakerPrice hMaker hTaker ⊢
      exact {
        makerFound := hMaker, takerFound := hTaker, buyFound := hBuy, sellFound := hSell
        users := hUsers.symm
        sides := by rw [hSellSide, hBuySide]; decide
        buySide := hBuySide, sellSide := hSellSide
        takerSide := hSide.trans hBuySide.symm
        buyId := by rw [hSellSide, if_neg (by decide)]
        sellId := by rw [hSellSide, if_pos rfl]
        amount := ⟨hJoins.amount_pos.le, hAmount⟩, price := ⟨hPriceNonneg, hPrice⟩
        positive := ⟨hJoins.amount_pos, hCost ▸ hGross⟩
        makerPrice := hMakerPrice
        limits := ⟨hMakerPrice ▸ hLimits, hMakerPrice.ge⟩
        makerFee := hMakerFee, makerRate := hMakerRate, takerFee := hTakerFee, takerRate :=
          hTakerRate
        makerAsset := by rw [hMakerAsset, hSellSide]; rfl
        makerAmount := by
          rw [hSellSide, hCost]
          exact hMakerAmount.trans (fee_eq hGross.le (show (0 : Int) ≤ 5 by decide)).symm
        takerAsset := by rw [hTakerAsset, hBuySide]; rfl
        takerAmount := by
          rw [hBuySide]
          exact hTakerAmount.trans
            (fee_eq hJoins.amount_pos.le (show (0 : Int) ≤ 3 by decide)).symm }
  | sell =>
      simp only [hSide]
        at hMakerAmount hMakerAsset hTakerAmount hTakerAsset hMakerPrice hMaker hTaker ⊢
      exact {
        makerFound := hMaker, takerFound := hTaker, buyFound := hBuy, sellFound := hSell
        users := hUsers
        sides := by rw [hSellSide, hBuySide]; decide
        buySide := hBuySide, sellSide := hSellSide
        takerSide := hSide.trans hSellSide.symm
        buyId := by rw [hBuySide, if_pos rfl]
        sellId := by rw [hBuySide, if_neg (by decide)]
        amount := ⟨hJoins.amount_pos.le, hAmount⟩, price := ⟨hPriceNonneg, hPrice⟩
        positive := ⟨hJoins.amount_pos, hCost ▸ hGross⟩
        makerPrice := hMakerPrice
        limits := ⟨hMakerPrice.le, hMakerPrice ▸ hLimits⟩
        makerFee := hMakerFee, makerRate := hMakerRate, takerFee := hTakerFee, takerRate :=
          hTakerRate
        makerAsset := by rw [hMakerAsset, hBuySide]; rfl
        makerAmount := by
          rw [hBuySide]
          exact hMakerAmount.trans (fee_eq hJoins.amount_pos.le (show (0 : Int) ≤ 5 by decide)).symm
        takerAsset := by rw [hTakerAsset, hSellSide]; rfl
        takerAmount := by
          rw [hSellSide, hCost]
          exact hTakerAmount.trans (fee_eq hGross.le (show (0 : Int) ≤ 3 by decide)).symm }

/-- The oracle books a trade exactly when it records a fill between two stored
orders of users whose accounts are known. -/
theorem checkTrade_eq_ok (hOrders : orders.Perm market.orders.rows) {trade : Trade} :
    checkTrade (orders.map .of) books (.of trade) = .ok books' ↔
      (∃ buy sell, Passes market trade buy sell ∧ (books.ledger buy.userId).isSome ∧
        (books.ledger sell.userId).isSome) ∧ books' = post market books trade := by
  rw [checkTrade_eq_ok_iff_asserts hOrders]
  constructor
  · rintro ⟨maker, taker, buy, sell, h, hAccounts, rfl⟩
    refine ⟨⟨buy, sell, h.passes, hAccounts⟩, ?_⟩
    rw [← post_eq h.passes, cost_eq h.amount.1 h.price.1, ← h.makerAsset, ← h.takerAsset,
      Table.key_of_find? h.makerFound, Table.key_of_find? h.takerFound]
  · rintro ⟨⟨buy, sell, hPasses, hAccounts⟩, rfl⟩
    have h := hPasses.asserts
    refine ⟨_, _, buy, sell, h, hAccounts, ?_⟩
    rw [← post_eq hPasses, cost_eq h.amount.1 h.price.1, ← h.makerAsset, ← h.takerAsset,
      Table.key_of_find? h.makerFound, Table.key_of_find? h.takerFound]

end MonetaryInvariants
end ExchangeMatching
