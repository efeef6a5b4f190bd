import ExchangeMatching.Trades

/-! What BUY orders cost. Each fill takes from the reservation of its BUY order
what the order binds less afterwards, pays its cost out of that and gives the
rest back; over the life of an order these amounts add up to what it reserved
when it was placed. -/
namespace ExchangeMatching

open TradeSettlement FloorProduct

namespace Fill

/-- What the buyer gets back of the reservation that a fill takes. -/
def refund (fill : Fill) : Int := fill.debit - fill.executed

variable {fill : Fill}

theorem Executable.refund_nonneg (h : fill.Executable) : 0 ≤ fill.refund :=
  Int.sub_nonneg.mpr h.executed_le_debit

/-- At the limit price only the two roundings differ. -/
theorem refund_le_one (hPrice : fill.price = fill.buy.price) : fill.refund ≤ 1 := by
  have hRoundings := floorProduct_add_le_succ one_pos fill.amount
    (fill.buy.remainingAmount - fill.amount) fill.buy.price
  rw [add_sub_cancel] at hRoundings
  unfold refund debit executed cost
  rw [hPrice]
  omega

end Fill

namespace Market

/-- A run of the market, and the fills that it settled. -/
inductive Settles (opening : Market) : List Fill → Market → Prop where
  | nil : Settles opening [] opening
  | quiet {fills : List Fill} {market market' : Market} (before : Settles opening fills market)
      (event : market.Event market') (trades : market'.trades = market.trades) :
      Settles opening fills market'
  | fill {fills : List Fill} {market : Market} {fill : Fill} {buyer seller : Wallet} {now : Nat}
      (before : Settles opening fills market)
      (buy : market.orders.find? fill.buy.id = some fill.buy)
      (sell : market.orders.find? fill.sell.id = some fill.sell)
      (crossing : fill.Crossing)
      (buyerFound : market.wallets.find? fill.buy.userId = some buyer)
      (sellerFound : market.wallets.find? fill.sell.userId = some seller)
      (buyerFits : fill.buyerUpdate.Fits buyer) (sellerFits : fill.sellerUpdate.Fits seller) :
      Settles opening (fills ++ [fill]) ((market.settle fill buyer seller now).fillOrders fill)

theorem Evolves.settles {opening market : Market} (h : opening.Evolves market) :
    ∃ fills, opening.Settles fills market := by
  induction h with
  | refl => exact ⟨[], .nil⟩
  | tail _ event ih =>
      obtain ⟨fills, hBefore⟩ := ih
      cases event with
      | placed sound queued fresh found fits =>
          exact ⟨fills, hBefore.quiet (.placed sound queued fresh found fits) (trades_addOrder _)⟩
      | opened found queued => exact ⟨fills, hBefore.quiet (.opened found queued) rfl⟩
      | filled buy sell crossing buyerFound sellerFound buyerFits sellerFits =>
          exact ⟨_, hBefore.fill buy sell crossing buyerFound sellerFound buyerFits sellerFits⟩
      | closed found allowed walletFound fits =>
          exact ⟨fills, hBefore.quiet (.closed found allowed walletFound fits) rfl⟩

end Market

/-- A quantity of the fills of one BUY order, added up. -/
def Fill.sumOf (quantity : Fill → Int) (fills : List Fill) (id : OrderId) : Int :=
  ((fills.filter (·.buy.id = id)).map quantity).sum

theorem Fill.sumOf_append (quantity : Fill → Int) (fills : List Fill) (fill : Fill) (id : OrderId) :
    sumOf quantity (fills ++ [fill]) id =
      sumOf quantity fills id + if fill.buy.id = id then quantity fill else 0 := by
  rw [sumOf, List.filter_append, List.map_append, List.sum_append, ← sumOf, List.filter_singleton]
  by_cases hId : fill.buy.id = id <;> simp [hId]

/-- What a debit consists of. -/
theorem Fill.sumOf_debit (fills : List Fill) (id : OrderId) :
    sumOf debit fills id = sumOf executed fills id + sumOf refund fills id := by
  unfold sumOf
  induction fills.filter (·.buy.id = id) with
  | nil => rfl
  | cons fill fills ih =>
      simp only [List.map_cons, List.sum_cons, ih, refund]
      omega

namespace Market

/-- The books of the BUY orders after some fills. -/
structure Paid (market : Market) (fills : List Fill) : Prop where
  executable : ∀ before fill, before ++ [fill] <+: fills → fill.Executable ∧
    Fill.sumOf Fill.amount before fill.buy.id + fill.buy.remainingAmount = fill.buy.originalAmount
  stored : ∀ fill ∈ fills, ∃ order, market.orders.find? fill.buy.id = some order ∧
    fill.buy.Leads order
  amounts : ∀ id order, market.orders.find? id = some order → order.side = .buy →
    Fill.sumOf Fill.amount fills id + order.remainingAmount = order.originalAmount
  debits : ∀ id order, market.orders.find? id = some order → order.side = .buy →
    Fill.sumOf Fill.debit fills id + cost order.remainingAmount order.price =
      cost order.originalAmount order.price

namespace Paid

variable {market market' : Market} {fills : List Fill}

theorem sumOf_of_fresh (h : market.Paid fills) (quantity : Fill → Int) {id : OrderId}
    (hFresh : market.orders.find? id = none) : Fill.sumOf quantity fills id = 0 := by
  have hNone : fills.filter (·.buy.id = id) = [] := by
    rw [List.filter_eq_nil_iff]
    intro fill hFill hId
    obtain ⟨order, hFound, _⟩ := h.stored fill hFill
    rw [of_decide_eq_true hId, hFresh] at hFound
    cases hFound
  rw [Fill.sumOf, hNone, List.map_nil, List.sum_nil]

theorem stored_of_event (h : market.Paid fills) (hEvent : market.Event market') :
    ∀ fill ∈ fills, ∃ order, market'.orders.find? fill.buy.id = some order ∧
      fill.buy.Leads order := by
  intro fill hFill
  obtain ⟨order, hFound, hLeads⟩ := h.stored fill hFill
  obtain ⟨later, hLater, hStep⟩ := hEvent.leads hFound
  exact ⟨later, hLater, hLeads.trans hStep⟩

/-- Rewriting an order without changing its remaining amount keeps the books. -/
theorem of_putOrder (h : market.Paid fills) {order : Order} {status : OrderStatus}
    (hOrder : market.orders.find? order.id = some order) {id : OrderId} {row : Order}
    (hRow : (market.putOrder order.id order.remainingAmount status).orders.find? id = some row)
    (hSide : row.side = .buy) :
    Fill.sumOf Fill.amount fills id + row.remainingAmount = row.originalAmount ∧
      Fill.sumOf Fill.debit fills id + cost row.remainingAmount row.price =
        cost row.originalAmount row.price := by
  rw [find?_putOrder hOrder] at hRow
  split_ifs at hRow with hId
  · cases hRow
    exact ⟨h.amounts id order (hId ▸ hOrder) hSide, h.debits id order (hId ▸ hOrder) hSide⟩
  · exact ⟨h.amounts id row hRow hSide, h.debits id row hRow hSide⟩

/-- An event that settles nothing keeps the books. -/
theorem of_quiet (h : market.Paid fills) (hEvent : market.Event market')
    (hTrades : market'.trades = market.trades) : market'.Paid fills := by
  have hBooks : ∀ id row, market'.orders.find? id = some row → row.side = .buy →
      Fill.sumOf Fill.amount fills id + row.remainingAmount = row.originalAmount ∧
        Fill.sumOf Fill.debit fills id + cost row.remainingAmount row.price =
          cost row.originalAmount row.price := by
    intro id row hRow hSide
    cases hEvent with
    | @placed order wallet sound queued fresh found fits =>
        rw [find?_addOrder (isFresh_putWallet.mpr fresh)] at hRow
        split_ifs at hRow with hId
        · cases hRow
          rw [hId, h.sumOf_of_fresh _ fresh.1, h.sumOf_of_fresh _ fresh.1,
            sound.remaining_eq queued, zero_add, zero_add]
          exact ⟨rfl, rfl⟩
        · exact ⟨h.amounts id row hRow hSide, h.debits id row hRow hSide⟩
    | opened found queued => exact h.of_putOrder found hRow hSide
    | filled buy sell crossing buyerFound sellerFound buyerFits sellerFits =>
        exact absurd (congrArg List.length hTrades) (by simp [fillOrders, settle])
    | @closed order wallet status found allowed walletFound fits =>
        exact h.of_putOrder found hRow hSide
  exact ⟨h.executable, h.stored_of_event hEvent,
    fun id row hRow hSide => (hBooks id row hRow hSide).1,
    fun id row hRow hSide => (hBooks id row hRow hSide).2⟩

/-- A fill takes from the books of its BUY order what it takes from the order. -/
theorem of_fill (h : market.Paid fills) (hWell : market.WellFormed) {fill : Fill}
    {buyer seller : Wallet} {now : Nat}
    (hEvent : market.Event ((market.settle fill buyer seller now).fillOrders fill))
    (hBuy : market.orders.find? fill.buy.id = some fill.buy)
    (hSell : market.orders.find? fill.sell.id = some fill.sell) (hCrossing : fill.Crossing) :
    ((market.settle fill buyer seller now).fillOrders fill).Paid (fills ++ [fill]) := by
  have hBought := h.amounts _ _ hBuy hCrossing.buySide
  have hDebited := h.debits _ _ hBuy hCrossing.buySide
  have hRow : ∀ id row,
      ((market.settle fill buyer seller now).fillOrders fill).orders.find? id = some row →
      row.side = .buy → id = fill.buy.id ∧
      row = fill.buy.revised (fill.buy.remainingAmount - fill.amount)
          (filledStatus (fill.buy.remainingAmount - fill.amount)) ∨
        id ≠ fill.buy.id ∧ market.orders.find? id = some row := by
    intro id row hFound hSide
    rw [fillOrders, find?_putOrder
      (@find?_sell_of_putOrder (market.settle fill buyer seller now) fill
      hCrossing hBuy hSell _ _)] at hFound
    split_ifs at hFound with hSellId
    · cases hFound
      rw [Order.revised_side, hCrossing.sellSide] at hSide
      cases hSide
    · have hFirst : ((market.settle fill buyer seller now).putOrder fill.buy.id
          (fill.buy.remainingAmount - fill.amount)
          (filledStatus (fill.buy.remainingAmount - fill.amount))).orders.find? id = some row :=
            hFound
      rw [@find?_putOrder (market.settle fill buyer seller now) _ _ _ _ _ hBuy] at hFirst
      split_ifs at hFirst with hBuyId
      · exact Or.inl ⟨hBuyId, (Option.some.inj hFirst).symm⟩
      · exact Or.inr ⟨hBuyId, hFirst⟩
  refine ⟨fun before other hPrefix => ?_, fun other hOther => ?_, fun id row hFound hSide => ?_,
    fun id row hFound hSide => ?_⟩
  · rcases List.prefix_concat_iff.mp hPrefix with hLast | hEarlier
    · obtain ⟨rfl, hFill⟩ := List.append_inj' hLast rfl
      cases hFill
      exact ⟨⟨hCrossing, hWell.orders _ (Table.mem_of_find? hBuy),
        hWell.orders _ (Table.mem_of_find? hSell)⟩, hBought⟩
    · exact h.executable before other hEarlier
  · rcases List.mem_append.mp hOther with hOld | hNew
    · exact h.stored_of_event hEvent other hOld
    · obtain rfl := List.mem_singleton.mp hNew
      exact hEvent.leads hBuy
  · rw [Fill.sumOf_append]
    rcases hRow id row hFound hSide with ⟨rfl, rfl⟩ | ⟨hId, hOld⟩
    · rw [if_pos rfl, Order.revised_remainingAmount, Order.revised_originalAmount]
      omega
    · rw [if_neg (Ne.symm hId), add_zero]
      exact h.amounts id row hOld hSide
  · rw [Fill.sumOf_append]
    rcases hRow id row hFound hSide with ⟨rfl, rfl⟩ | ⟨hId, hOld⟩
    · rw [if_pos rfl, Order.revised_remainingAmount, Order.revised_originalAmount,
        Order.revised_price, Fill.debit]
      omega
    · rw [if_neg (Ne.symm hId), add_zero]
      exact h.debits id row hOld hSide

end Paid

theorem Opening.paid {market : Market} (h : market.Opening) : market.Paid [] := by
  have hNone : ∀ id, market.orders.find? id = none := by
    intro id
    rw [Table.find?_eq_none_iff]
    intro order hOrder
    have hRows : order ∈ market.orders.rows := hOrder
    rw [h.noOrders] at hRows
    cases hRows
  refine ⟨fun before fill hPrefix => ?_, (fun fill hFill => by cases hFill),
    fun id order hFound => ?_,
    fun id order hFound => ?_⟩
  · simp at hPrefix
  · rw [hNone] at hFound
    cases hFound
  · rw [hNone] at hFound
    cases hFound

/-- The books of BUY orders hold over any run, and every trade belongs to one
of the settled fills. -/
theorem Settles.paid {opening market : Market} {fills : List Fill} (hOpening : opening.Opening)
    (hRun : opening.Settles fills market) :
    market.WellFormed ∧ market.Paid fills ∧
    market.trades.map (·.toTradeData) = fills.map Fill.trade := by
  induction hRun with
  | nil => exact ⟨hOpening.wellFormed, hOpening.paid, by rw [hOpening.noTrades]; rfl⟩
  | quiet before event trades ih =>
      obtain ⟨hWell, hPaid, hTrades⟩ := ih
      exact ⟨hWell.of_event event, hPaid.of_quiet event trades, by rw [trades, hTrades]⟩
  | @fill fills market fill buyer seller now before buy sell crossing buyerFound sellerFound
      buyerFits sellerFits ih =>
      obtain ⟨hWell, hPaid, hTrades⟩ := ih
      have hEvent : market.Event ((market.settle fill buyer seller now).fillOrders fill) :=
        .filled buy sell crossing buyerFound sellerFound buyerFits sellerFits
      refine ⟨hWell.of_event hEvent, hPaid.of_fill hWell hEvent buy sell crossing, ?_⟩
      have hAppended : ((market.settle fill buyer seller now).fillOrders fill).trades =
          market.trades ++ [⟨fill.trade, market.trades.length, market.trades.length, now⟩] := rfl
      rw [hAppended, List.map_append, hTrades, List.map_append, List.map_singleton,
        List.map_singleton]

end Market

namespace History

variable {newDecimal : String → Option DecimalValue} {start : Database}

/-- Over any calls, in the order in which they settle fills: the code computes
for each fill what it takes from the reservation of the BUY order at its
current remainder, what the fill costs and what it gives back, which is never
negative and at the limit price at most one unit; and costs, refunds and the
remaining reservation of a BUY order make up its first reservation. -/
theorem buy_orders_paid (hOpening : start.Opening) (invocations : List Invocation) :
    ∃ fills, start.toMarket.Settles fills
        ((History.start start).calls newDecimal invocations).db.toMarket ∧
      ((History.start start).calls newDecimal invocations).db.trades.map (·.toTradeData) =
        fills.map Fill.trade ∧
      (∀ before fill, before ++ [fill] <+: fills →
        fill.buy.side = .buy ∧ fill.price ≤ fill.buy.price ∧
        fill.buy.remainingAmount =
          fill.buy.originalAmount - Fill.sumOf Fill.amount before fill.buy.id ∧
        fill.debit = cost fill.buy.remainingAmount fill.buy.price -
          cost (fill.buy.remainingAmount - fill.amount) fill.buy.price ∧
        fill.executed = cost fill.amount fill.price ∧ fill.refund = fill.debit - fill.executed ∧
        buyReservationDebit fill.buy fill.amount = .ok fill.debit ∧
        multiplyScaled fill.amount fill.price = .ok fill.executed ∧
        subtractScaled fill.debit fill.executed = .ok fill.refund ∧
        fill.executed ≤ fill.debit ∧ 0 ≤ fill.refund ∧
        (fill.price = fill.buy.price → fill.refund ≤ 1)) ∧
      (∀ fill ∈ fills, ∃ order,
        ((History.start start).calls newDecimal invocations).db.orders.find? fill.buy.id =
          some order ∧
        order.price = fill.buy.price ∧ order.originalAmount = fill.buy.originalAmount) ∧
      ∀ order ∈ ((History.start start).calls newDecimal invocations).db.orders, order.side =
        .buy → Fill.sumOf Fill.executed fills order.id + cost order.remainingAmount order.price +
          Fill.sumOf Fill.refund fills order.id = cost order.originalAmount order.price := by
  obtain ⟨fills, hRun⟩ := (@calls_evolve newDecimal (History.start start) hOpening.wellFormed
    invocations).settles
  obtain ⟨_, hPaid, hTrades⟩ := hRun.paid hOpening
  refine ⟨fills, hRun, hTrades, fun before fill hPrefix => ?_, fun fill hFill => ?_,
    fun order hOrder hSide => ?_⟩
  · obtain ⟨hExecutable, hRemainder⟩ := hPaid.executable before fill hPrefix
    exact ⟨hExecutable.buySide, hExecutable.price_le_buy, by omega, rfl, rfl, rfl,
      hExecutable.buyReservationDebit_debit, hExecutable.multiplyScaled_executed,
      hExecutable.subtractScaled_refund, hExecutable.executed_le_debit, hExecutable.refund_nonneg,
      Fill.refund_le_one⟩
  · obtain ⟨order, hFound, hLeads⟩ := hPaid.stored fill hFill
    refine ⟨order, hFound, ?_, ?_⟩
    · rw [hLeads.kept, Order.revised_price]
    · rw [hLeads.kept, Order.revised_originalAmount]
  · have hDebits := hPaid.debits order.id order (Table.find?_of_mem hOrder) hSide
    rw [Fill.sumOf_debit] at hDebits
    omega

theorem buy_orders_paid_sample : ∃ fills,
    Sample.start.toMarket.Settles fills Sample.final.db.toMarket ∧ fills.length = 1 ∧
    ∀ order ∈ Sample.final.db.orders, order.side = .buy →
      Fill.sumOf Fill.executed fills order.id + cost order.remainingAmount order.price +
        Fill.sumOf Fill.refund fills order.id = cost order.originalAmount order.price := by
  obtain ⟨fills, hRun, hTrades, _, _, hOrders⟩ :=
    @buy_orders_paid Sample.newDecimal Sample.start Sample.opening Sample.calls
  have hOne : Sample.final.db.trades.length = 1 := by decide +kernel
  have hLength := congrArg List.length hTrades
  rw [List.length_map, List.length_map] at hLength
  exact ⟨fills, hRun, hLength.symm.trans hOne, hOrders⟩

end History
end ExchangeMatching
