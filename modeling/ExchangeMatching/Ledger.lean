import ExchangeMatching.Library.Grouping
import ExchangeMatching.Trades

/-! The ledger of a user: what the user had, bought, sold and paid in fees. The
fees are those that the trades record; that the settlement withholds the same
amounts from the wallets is what every event shows. -/
namespace ExchangeMatching

namespace TradeFeeAsset

/-- The balance of an asset that is free, and the one that orders bind. -/
def available : TradeFeeAsset → BalanceField
  | .btc => .availableBtc
  | .usd => .availableUsd

def reserved : TradeFeeAsset → BalanceField
  | .btc => .reservedBtc
  | .usd => .reservedUsd

end TradeFeeAsset

/-- What a wallet holds of an asset. -/
def Wallet.total (wallet : Wallet) (asset : TradeFeeAsset) : Int :=
  wallet.get asset.available + wallet.get asset.reserved

/-- What an update adds to the holdings of an asset. -/
def BalanceUpdate.netTotal (data : BalanceUpdate) (asset : TradeFeeAsset) : Int :=
  data.net asset.available + data.net asset.reserved

theorem Wallet.total_update (wallet : Wallet) (data : BalanceUpdate) (asset : TradeFeeAsset) :
    (wallet.update data).total asset = wallet.total asset + data.netTotal asset := by
  unfold Wallet.total BalanceUpdate.netTotal
  rw [Wallet.get_update, Wallet.get_update]
  omega

namespace OrderSide

/-- Reserving and releasing moves funds inside one wallet. -/
@[simp] theorem netTotal_reserve (side : OrderSide) (amount : Int) (asset : TradeFeeAsset) :
    (side.reserve amount).netTotal asset = 0 := by
  cases side <;> cases asset <;>
    simp [BalanceUpdate.netTotal, reserve, available, reserved, TradeFeeAsset.available,
      TradeFeeAsset.reserved, BalanceChange.signed]

@[simp] theorem netTotal_release (side : OrderSide) (amount : Int) (asset : TradeFeeAsset) :
    (side.release amount).netTotal asset = 0 := by
  cases side <;> cases asset <;>
    simp [BalanceUpdate.netTotal, release, available, reserved, TradeFeeAsset.available,
      TradeFeeAsset.reserved, BalanceChange.signed]

end OrderSide

namespace Trade

variable (trade : Trade)

/-- What changes hands in an asset. -/
def quantity : TradeFeeAsset → Int
  | .btc => trade.amount
  | .usd => cost trade.amount trade.price

/-- The order whose user receives an asset. -/
def receiver : TradeFeeAsset → OrderId
  | .btc => trade.buyOrderId
  | .usd => trade.sellOrderId

/-- The order whose user gives an asset away. -/
def giver : TradeFeeAsset → OrderId
  | .btc => trade.sellOrderId
  | .usd => trade.buyOrderId

/-- The fees of a trade in an asset. -/
def fees (asset : TradeFeeAsset) : Int :=
  (if trade.makerFeeAsset = asset then trade.makerFeeAmount else 0) +
    if trade.takerFeeAsset = asset then trade.takerFeeAmount else 0

end Trade

namespace Fill

/-- The change of a buyer's and of a seller's holdings. -/
theorem netTotal_buyerUpdate (fill : Fill) (asset : TradeFeeAsset) :
    fill.buyerUpdate.netTotal asset =
      match asset with
      | .btc => fill.amount - fill.buyerFee
      | .usd => -fill.executed := by
  cases asset with
  | btc =>
      simp [BalanceUpdate.netTotal, buyerUpdate, TradeFeeAsset.available, TradeFeeAsset.reserved,
        BalanceChange.signed]
  | usd =>
      simp [BalanceUpdate.netTotal, buyerUpdate, TradeFeeAsset.available, TradeFeeAsset.reserved,
        BalanceChange.signed]
      omega

theorem netTotal_sellerUpdate (fill : Fill) (asset : TradeFeeAsset) :
    fill.sellerUpdate.netTotal asset =
      match asset with
      | .btc => -fill.amount
      | .usd => fill.executed - fill.sellerFee := by
  cases asset <;>
    simp [BalanceUpdate.netTotal, sellerUpdate, TradeFeeAsset.available, TradeFeeAsset.reserved,
      BalanceChange.signed]

end Fill

namespace Market

variable (market : Market)

/-- What a trade changes in a user's holdings of an asset, by the record. -/
def posting (userId : UserId) (asset : TradeFeeAsset) (trade : Trade) : Int :=
  (if market.owns userId (trade.receiver asset) then trade.quantity asset else 0) -
    (if market.owns userId (trade.giver asset) then trade.quantity asset else 0) -
    ((if market.owns userId trade.makerOrderId ∧ trade.makerFeeAsset = asset then
        trade.makerFeeAmount else 0) +
      if market.owns userId trade.takerOrderId ∧ trade.takerFeeAsset = asset then
        trade.takerFeeAmount else 0)

/-- What a user holds of an asset. -/
def holdings (userId : UserId) (asset : TradeFeeAsset) : Int :=
  market.balance userId asset.available + market.balance userId asset.reserved

variable {market} {market' : Market}

/-- The record of a trade says what its settlement did. -/
theorem posting_fill {fill : Fill} (hCrossing : fill.Crossing)
    (hBuy : market.orders.find? fill.buy.id = some fill.buy)
    (hSell : market.orders.find? fill.sell.id = some fill.sell) (id : TradeId) (sequence now : Nat)
    (userId : UserId) (asset : TradeFeeAsset) :
    market.posting userId asset ⟨fill.trade, id, sequence, now⟩ =
      (if userId = fill.buy.userId then fill.buyerUpdate.netTotal asset else 0) +
        if userId = fill.sell.userId then fill.sellerUpdate.netTotal asset else 0 := by
  have hOwnsBuy := owns_of_find? hBuy userId
  have hOwnsSell := owns_of_find? hSell userId
  have hUsers := hCrossing.users
  have hExecuted : fill.executed = cost fill.amount fill.price := rfl
  rw [Fill.netTotal_buyerUpdate, Fill.netTotal_sellerUpdate]
  simp only [eq_comm (a := userId)]
  cases asset <;> cases hSide : fill.takerSide <;>
    simp only [posting, Trade.receiver, Trade.giver, Trade.quantity, Fill.trade, Fill.maker,
      Fill.taker, hSide, hOwnsBuy, hOwnsSell, decide_eq_true_eq, and_true, reduceCtorEq, and_false,
      if_false, hExecuted] <;>
    split_ifs <;> omega

theorem holdings_update {wallet : Wallet} {data : BalanceUpdate} {userId other : UserId}
    (h : market.wallets.find? userId = some wallet) (asset : TradeFeeAsset) :
    (market.putWallet (wallet.update data)).holdings other asset =
      market.holdings other asset + if other = userId then data.netTotal asset else 0 := by
  unfold holdings BalanceUpdate.netTotal
  rw [balance_update h, balance_update h]
  split_ifs <;> omega

/-- A fill changes the holdings of its buyer and of its seller. -/
theorem holdings_fill {fill : Fill} {buyer seller : Wallet} {now : Nat} (hCrossing : fill.Crossing)
    (hBuyer : market.wallets.find? fill.buy.userId = some buyer)
    (hSeller : market.wallets.find? fill.sell.userId = some seller) (userId : UserId)
    (asset : TradeFeeAsset) :
    ((market.settle fill buyer seller now).fillOrders fill).holdings userId asset =
      market.holdings userId asset +
        (if userId = fill.buy.userId then fill.buyerUpdate.netTotal asset else 0) +
        if userId = fill.sell.userId then fill.sellerUpdate.netTotal asset else 0 := by
  have hLater : (market.putWallet (buyer.update fill.buyerUpdate)).wallets.find? fill.sell.userId =
      some seller := find?_seller_of_putWallet hCrossing hBuyer hSeller
  rw [← holdings_update hBuyer, ← holdings_update hLater]
  rfl

theorem total_update {wallet : Wallet} {data : BalanceUpdate} {userId : UserId}
    (h : market.wallets.find? userId = some wallet) (asset : TradeFeeAsset) :
    (market.putWallet (wallet.update data)).wallets.sum (·.total asset) =
      market.wallets.sum (·.total asset) + data.netTotal asset := by
  have hFound : market.wallets.find? (wallet.update data).userId = some wallet := by
    rw [Wallet.userId_update, Table.key_of_find? h, h]
  rw [sum_putWallet hFound, Wallet.total_update]
  omega

/-- The posting of a recorded trade does not change later. -/
theorem Recorded.posting_eq {trade : Trade} (h : market.Recorded trade)
    (hEvent : market.Event market') (userId : UserId) (asset : TradeFeeAsset) :
    market'.posting userId asset trade = market.posting userId asset trade := by
  obtain ⟨buy, sell, hBuy, hSell, hMaker, hTaker, _⟩ := h.orders
  have hReceiver : market'.owns userId (trade.receiver asset) =
      market.owns userId (trade.receiver asset) := by
    cases asset with
    | btc => exact hEvent.owns_eq hBuy userId
    | usd => exact hEvent.owns_eq hSell userId
  have hGiver : market'.owns userId (trade.giver asset) = market.owns userId
      (trade.giver asset) := by
    cases asset with
    | btc => exact hEvent.owns_eq hSell userId
    | usd => exact hEvent.owns_eq hBuy userId
  rw [posting, posting, hReceiver, hGiver, hEvent.owns_eq hMaker, hEvent.owns_eq hTaker]

theorem AllRecorded.postings_eq (h : market.AllRecorded) (hEvent : market.Event market')
    (userId : UserId) (asset : TradeFeeAsset) :
    market.trades.map (market'.posting userId asset) =
      market.trades.map (market.posting userId asset) :=
  List.map_congr_left fun trade hTrade => (h trade hTrade).posting_eq hEvent userId asset

/-- The holdings of every user are the opening holdings and the postings of all
trades; the holdings of all users and the recorded fees make up the opening. -/
structure Balanced (opening market : Market) : Prop where
  recorded : market.AllRecorded
  holdings : ∀ userId asset, market.holdings userId asset = opening.holdings userId asset +
    (market.trades.map (market.posting userId asset)).sum
  totals : ∀ asset, market.wallets.sum (·.total asset) + (market.trades.map (·.fees asset)).sum =
    opening.wallets.sum (·.total asset)

/-- An event that records no trade leaves the ledger as it is. -/
theorem Balanced.of_same_trades {opening : Market} (h : Balanced opening market)
    (hEvent : market.Event market') (hTrades : market'.trades = market.trades)
    (hHoldings : ∀ userId asset, market'.holdings userId asset = market.holdings userId asset)
    (hTotals : ∀ asset, market'.wallets.sum (·.total asset) = market.wallets.sum (·.total asset)) :
    Balanced opening market' where
  recorded := h.recorded.of_event hEvent
  holdings userId asset := by
    rw [hHoldings, hTrades, h.recorded.postings_eq hEvent, h.holdings]
  totals asset := by rw [hTotals, hTrades, h.totals]

/-- The two fees of a fill are all that leaves the wallets. -/
theorem fees_fill (fill : Fill) (id : TradeId) (sequence now : Nat) (asset : TradeFeeAsset) :
    Trade.fees ⟨fill.trade, id, sequence, now⟩ asset +
      (fill.buyerUpdate.netTotal asset + fill.sellerUpdate.netTotal asset) = 0 := by
  rw [Fill.netTotal_buyerUpdate, Fill.netTotal_sellerUpdate]
  cases asset <;> cases hSide : fill.takerSide <;>
    simp only [Trade.fees, Fill.trade, hSide, if_true, reduceCtorEq, if_false] <;> omega

theorem Balanced.of_event {opening : Market} (h : Balanced opening market)
    (hEvent : market.Event market') : Balanced opening market' := by
  cases hEvent with
  | @placed order wallet sound queued fresh found fits =>
      refine h.of_same_trades (.placed sound queued fresh found fits) (trades_addOrder _) ?_ ?_
      · intro userId asset
        calc (Market.addOrder (market.putWallet _) order).holdings userId asset
            = (market.putWallet _).holdings userId asset := by
              rw [Market.holdings, balance_addOrder, balance_addOrder, Market.holdings]
          _ = market.holdings userId asset := by
              rw [holdings_update found, OrderSide.netTotal_reserve, ite_self, add_zero]
      · intro asset
        rw [wallets_addOrder, total_update found, OrderSide.netTotal_reserve, add_zero]
  | opened found queued =>
      exact h.of_same_trades (.opened found queued) rfl (fun _ _ => rfl) (fun _ => rfl)
  | @filled fill buyer seller now buy sell crossing buyerFound sellerFound buyerFits sellerFits =>
      have hEvent : market.Event ((market.settle fill buyer seller now).fillOrders fill) :=
        .filled buy sell crossing buyerFound sellerFound buyerFits sellerFits
      have hSeller : (market.putWallet (buyer.update fill.buyerUpdate)).wallets.find?
          fill.sell.userId = some seller :=
            find?_seller_of_putWallet crossing buyerFound sellerFound
      have hTrades : ((market.settle fill buyer seller now).fillOrders fill).trades =
          market.trades ++ [⟨fill.trade, market.trades.length, market.trades.length, now⟩] := rfl
      refine ⟨h.recorded.of_event hEvent, fun userId asset => ?_, fun asset => ?_⟩
      · have hNew := (recorded_fill crossing buy sell market.trades.length market.trades.length
          now).posting_eq hEvent userId asset
        rw [holdings_fill crossing buyerFound sellerFound, hTrades, List.map_append,
          h.recorded.postings_eq hEvent, List.map_singleton, hNew,
          posting_fill crossing buy sell, List.sum_append, List.sum_singleton, h.holdings]
        omega
      · have hFees := fees_fill fill market.trades.length market.trades.length now asset
        have hOld := h.totals asset
        have hWallets : ((market.settle fill buyer seller now).fillOrders fill).wallets.sum
            (·.total asset) = market.wallets.sum (·.total asset) + fill.buyerUpdate.netTotal asset +
              fill.sellerUpdate.netTotal asset := by
          rw [← total_update buyerFound, ← total_update hSeller]
          rfl
        rw [hWallets, hTrades, List.map_append, List.map_singleton, List.sum_append,
          List.sum_singleton]
        omega
  | @closed order wallet status found allowed walletFound fits =>
      have hFound : (market.putOrder order.id order.remainingAmount status).wallets.find?
          order.userId =
          some wallet := walletFound
      refine h.of_same_trades (.closed found allowed walletFound fits) rfl ?_ ?_
      · intro userId asset
        rw [holdings_update hFound, OrderSide.netTotal_release, ite_self, add_zero]
        rfl
      · intro asset
        rw [total_update hFound, OrderSide.netTotal_release, add_zero]
        rfl

theorem users_putWallet (row : Wallet) :
    (market.putWallet row).wallets.rows.map Wallet.userId =
      market.wallets.rows.map Wallet.userId := by
  simp only [putWallet, Table.modify, List.map_map]
  apply List.map_congr_left
  intro wallet _
  simp only [Function.comp_apply]
  split_ifs <;> rfl

/-- No wallet is created or deleted. -/
theorem Event.users (hEvent : market.Event market') :
    market'.wallets.rows.map Wallet.userId = market.wallets.rows.map Wallet.userId := by
  cases hEvent with
  | placed sound queued fresh found fits => rw [wallets_addOrder, users_putWallet]
  | opened found queued => rfl
  | filled buy sell crossing buyerFound sellerFound buyerFits sellerFits =>
      exact (users_putWallet _).trans (users_putWallet _)
  | closed found allowed walletFound fits => exact users_putWallet _

theorem Balanced.start {opening : Market} (h : opening.Opening) : Balanced opening opening where
  recorded := h.allRecorded
  holdings userId asset := by rw [h.noTrades, List.map_nil, List.sum_nil, add_zero]
  totals asset := by rw [h.noTrades, List.map_nil, List.sum_nil, add_zero]

/-- The trades in which a user's order is the BUY order. -/
def bought (market : Market) (userId : UserId) : List Trade :=
  market.trades.filter fun trade => market.owns userId trade.buyOrderId

/-- The trades in which a user's order is the SELL order. -/
def sold (market : Market) (userId : UserId) : List Trade :=
  market.trades.filter fun trade => market.owns userId trade.sellOrderId

/-- The fees in an asset that the trades record on a user's side. -/
def feesOf (market : Market) (userId : UserId) (asset : TradeFeeAsset) : Int :=
  ((market.trades.filter fun trade => market.owns userId trade.makerOrderId ∧
    trade.makerFeeAsset = asset).map (·.makerFeeAmount)).sum +
  ((market.trades.filter fun trade => market.owns userId trade.takerOrderId ∧
    trade.takerFeeAsset = asset).map (·.takerFeeAmount)).sum

/-- The postings of a user add up to what was received, given away and paid. -/
theorem sum_posting (userId : UserId) (asset : TradeFeeAsset) :
    (market.trades.map (market.posting userId asset)).sum =
      ((market.trades.filter fun trade => market.owns userId (trade.receiver asset)).map
        (·.quantity asset)).sum -
      ((market.trades.filter fun trade => market.owns userId (trade.giver asset)).map
        (·.quantity asset)).sum - market.feesOf userId asset := by
  have hReceived := Grouping.sum_filter market.trades
    (fun trade => market.owns userId (trade.receiver asset)) (·.quantity asset)
  have hGiven := Grouping.sum_filter market.trades
    (fun trade => market.owns userId (trade.giver asset)) (·.quantity asset)
  simp only [Bool.decide_eq_true] at hReceived hGiven
  rw [feesOf, Grouping.sum_filter, Grouping.sum_filter, hReceived, hGiven]
  induction market.trades with
  | nil => rfl
  | cons trade trades ih =>
      simp only [List.map_cons, List.sum_cons, ih, posting]
      omega

/-- What the ledger of a market says, from the opening balances on. -/
structure Ledger (opening market : Market) : Prop where
  users : market.wallets.rows.map Wallet.userId = opening.wallets.rows.map Wallet.userId
  btc : ∀ wallet ∈ market.wallets, wallet.availableBtc + wallet.reservedBtc =
    opening.holdings wallet.userId .btc +
      ((market.bought wallet.userId).map (·.amount)).sum -
      ((market.sold wallet.userId).map (·.amount)).sum - market.feesOf wallet.userId .btc
  usd : ∀ wallet ∈ market.wallets, wallet.availableUsd + wallet.reservedUsd =
    opening.holdings wallet.userId .usd -
      ((market.bought wallet.userId).map fun trade => cost trade.amount trade.price).sum +
      ((market.sold wallet.userId).map fun trade => cost trade.amount trade.price).sum -
      market.feesOf wallet.userId .usd
  /-- The maker pays 0.5 % and the taker 0.3 % of what each of them receives. -/
  makerFee : ∀ trade ∈ market.trades, trade.receiver trade.makerFeeAsset = trade.makerOrderId ∧
    trade.makerFeeAmount = cost (trade.quantity trade.makerFeeAsset) TradeSettlement.makerFeeRate
  takerFee : ∀ trade ∈ market.trades, trade.receiver trade.takerFeeAsset = trade.takerOrderId ∧
    trade.takerFeeAmount = cost (trade.quantity trade.takerFeeAsset) TradeSettlement.takerFeeRate
  /-- Wallets and recorded fees together hold what the wallets held at first. -/
  totals : ∀ asset, market.wallets.sum (·.total asset) + (market.trades.map (·.fees asset)).sum =
    opening.wallets.sum (·.total asset)

theorem holdings_of_mem {wallet : Wallet} (h : wallet ∈ market.wallets) (asset : TradeFeeAsset) :
    market.holdings wallet.userId asset = wallet.total asset := by
  have hFound := Table.find?_of_mem h
  rw [holdings, balance_of_find? hFound, balance_of_find? hFound, Wallet.total]

/-- A recorded trade charges each side in the asset that it receives. -/
theorem Recorded.fees {trade : Trade} (h : market.Recorded trade) :
    (trade.receiver trade.makerFeeAsset = trade.makerOrderId ∧ trade.makerFeeAmount =
      cost (trade.quantity trade.makerFeeAsset) TradeSettlement.makerFeeRate) ∧
    trade.receiver trade.takerFeeAsset = trade.takerOrderId ∧ trade.takerFeeAmount =
      cost (trade.quantity trade.takerFeeAsset) TradeSettlement.takerFeeRate := by
  obtain ⟨buy, sell, _, _, hJoins⟩ := h
  obtain ⟨data, id, sequence, createdAt⟩ := trade
  have hData : data = _ := hJoins.data
  unfold Trade.fill at hData
  dsimp only at hData
  cases hSide : data.takerSide with
  | buy =>
      rw [hSide] at hData
      rw [hData]
      exact ⟨⟨rfl, rfl⟩, rfl, rfl⟩
  | sell =>
      rw [hSide] at hData
      rw [hData]
      exact ⟨⟨rfl, rfl⟩, rfl, rfl⟩

theorem Balanced.toLedger {opening : Market} (h : Balanced opening market)
    (hUsers : market.wallets.rows.map Wallet.userId = opening.wallets.rows.map Wallet.userId) :
    Ledger opening market where
  users := hUsers
  btc wallet hWallet := by
    have hTotal := h.holdings wallet.userId .btc
    rw [holdings_of_mem hWallet, sum_posting] at hTotal
    change wallet.total .btc = _
    rw [hTotal]
    unfold bought sold
    simp only [Trade.receiver, Trade.giver, Trade.quantity]
    omega
  usd wallet hWallet := by
    have hTotal := h.holdings wallet.userId .usd
    rw [holdings_of_mem hWallet, sum_posting] at hTotal
    change wallet.total .usd = _
    rw [hTotal]
    unfold bought sold
    simp only [Trade.receiver, Trade.giver, Trade.quantity]
    omega
  makerFee trade hTrade := (h.recorded trade hTrade).fees.1
  takerFee trade hTrade := (h.recorded trade hTrade).fees.2
  totals := h.totals

end Market

namespace History

variable {newDecimal : String → Option DecimalValue} {start : Database}

/-- After any calls from an opening the books of the market balance. -/
theorem balanced_of_opening (hOpening : start.Opening) (invocations : List Invocation) :
    Market.Balanced start.toMarket
      ((History.start start).calls newDecimal invocations).db.toMarket ∧
    ((History.start start).calls newDecimal invocations).db.wallets.rows.map Wallet.userId =
      start.wallets.rows.map Wallet.userId :=
  ((calls_evolve hOpening.wellFormed invocations).induction hOpening.wellFormed
    (P := fun market => Market.Balanced start.toMarket market ∧
      market.wallets.rows.map Wallet.userId = start.wallets.rows.map Wallet.userId)
    ⟨Market.Balanced.start hOpening, rfl⟩
    fun _ _ _ hEvent hBalanced =>
      ⟨hBalanced.1.of_event hEvent, hEvent.users.trans hBalanced.2⟩).2

/-- Whatever calls are made by whomever, every account holds what it held at
first, bought and sold, less its recorded fees, and nothing is lost between
the accounts. -/
theorem ledger_of_opening (hOpening : start.Opening) (invocations : List Invocation) :
    Market.Ledger start.toMarket
      ((History.start start).calls newDecimal invocations).db.toMarket := by
  obtain ⟨hBalanced, hUsers⟩ := @balanced_of_opening newDecimal start hOpening invocations
  exact hBalanced.toLedger hUsers

theorem ledger_of_sample : Market.Ledger Sample.start.toMarket Sample.final.db.toMarket :=
  ledger_of_opening Sample.opening Sample.calls

end History
end ExchangeMatching
