import ExchangeMatching.Library.Lockstep
import ExchangeMatching.Lifecycle
import ExchangeMatching.PriceTime
import ExchangeMatching.Serializability

/-! The exchange as it is meant: everybody owns some funds, an order binds what
it might cost, and a match moves the funds of two users. There is no reserved
balance to keep in step with the orders, and nothing is rewritten fill by fill.
The calls on the database run in lockstep with it. -/
namespace ExchangeMatching

open Transactions TradeSettlement

/-- The funds of a user by asset. A user without an account has none. -/
abbrev Ownership := UserId → Option (TradeFeeAsset → Int)

/-- An exchange without reserved balances. -/
structure Ideal where
  funds : Ownership
  orders : List Order
  executions : List (OrderId × OrderId × Int × Int)

namespace Ideal

/-- The asset that an order on a side gives away. -/
def spent : OrderSide → TradeFeeAsset
  | .buy => .usd
  | .sell => .btc

/-- What a party of a trade gets and gives, with the fee taken from what it gets. -/
def change (side : OrderSide) (rate amount price : Int) : TradeFeeAsset → Int
  | .btc => match side with
      | .buy => amount - cost amount rate
      | .sell => -amount
  | .usd => match side with
      | .buy => -cost amount price
      | .sell => cost amount price - cost (cost amount price) rate

/-- A fill is paid at the price of the maker. -/
def pay (taker : Order) (funds : Ownership) (fill : Order × Int) : Ownership := fun userId =>
  (funds userId).map fun total asset => total asset +
    (if userId = taker.userId then change taker.side takerFeeRate fill.2 fill.1.price
      asset else 0) +
    if userId = fill.1.userId then change fill.1.side makerFeeRate fill.2 fill.1.price asset else 0

variable (ideal : Ideal)

/-- What a user owns of the asset of a side beyond what the user's orders bind. -/
def available (userId : UserId) (side : OrderSide) : Int :=
  ((ideal.funds userId).map (· (spent side))).getD
    0 - (ideal.orders.map (Order.reserves userId side)).sum

def place (order : Order) : Ideal := { ideal with orders := ideal.orders ++ [order] }

def close (id : OrderId) (status : OrderStatus) : Ideal :=
  { ideal with
    orders := ideal.orders.map fun order =>
      if order.id = id then order.revised order.remainingAmount status else order }

def settle (taker : Order) : Ideal where
  funds := (Reference.matching ideal.orders taker).2.foldl (pay taker) ideal.funds
  orders := ideal.orders.map (Reference.finalOrder ideal.orders taker)
  executions := ideal.executions ++
    (Reference.matching ideal.orders taker).2.map (Reference.report taker)

/-- What a request does. One that is not allowed does nothing. -/
def step (newDecimal : String → Option DecimalValue) (ideal : Ideal) (invocation : Invocation) :
    Ideal :=
  match invocation.call with
  | .createOrder userId side amountInput priceInput =>
      match OrdersService.validateOrder newDecimal amountInput priceInput with
      | .error _ => ideal
      | .ok (amount, price) =>
          if (ideal.funds userId).isSome ∧
          side.reservation amount price ≤ ideal.available userId side then
            ideal.place (newOrder invocation.generated userId side amount price)
          else ideal
  | .cancelOrder userId orderId =>
      match ideal.orders.find? (·.id = orderId) with
      | none => ideal
      | some order =>
          if order.userId = userId ∧
          order.status.isActive then ideal.close orderId .cancelled else ideal
  | .processOrder orderId =>
      match ideal.orders.find? (·.id = orderId) with
      | none => ideal
      | some taker => if taker.status = .queued then ideal.settle taker else ideal
  | .rejectOrderAfterFailedProcessing orderId =>
      match ideal.orders.find? (·.id = orderId) with
      | none => ideal
      | some order => if order.status = .queued then ideal.close orderId .rejected else ideal

end Ideal

namespace Market

variable (market : Market)

def funds : Ownership := fun userId => (market.wallets.find? userId).map Wallet.total

/-- What the exchange is about in a database. -/
def ideal : Ideal where
  funds := market.funds
  orders := market.orders.rows
  executions := market.trades.map fun trade =>
    (trade.makerOrderId, trade.takerOrderId, trade.amount, trade.price)

variable {market}

theorem Exact.available (h : market.Exact) {userId : UserId} {wallet : Wallet}
    (hWallet : market.wallets.find? userId = some wallet) (side : OrderSide) :
    market.ideal.available userId side = wallet.get side.available := by
  have hReserved := h userId side
  rw [balance_of_find? hWallet] at hReserved
  have hTotal : wallet.total (Ideal.spent side) = wallet.get side.available +
      wallet.get side.reserved := by
    cases side <;> rfl
  have hBound : (market.orders.rows.map (Order.reserves userId side)).sum =
      market.orders.sum (Order.reserves userId side) := rfl
  simp only [Ideal.available, ideal, funds, hWallet, Option.map_some, Option.getD_some, hTotal,
    hBound]
  omega

/-- The ideal exchange determines the balances: what the active orders bind is
reserved, the rest is available. -/
theorem Exact.balances (h : market.Exact) {wallet : Wallet} (hWallet : wallet ∈ market.wallets)
    (side : OrderSide) : wallet.get side.available = market.ideal.available wallet.userId side ∧
      wallet.get side.reserved =
        (market.ideal.orders.map (Order.reserves wallet.userId side)).sum := by
  have hFound := Table.find?_of_mem hWallet
  refine ⟨(h.available hFound side).symm, ?_⟩
  rw [← balance_of_find? hFound]
  exact h wallet.userId side

theorem isSome_funds (userId : UserId) :
    (market.ideal.funds userId).isSome = (market.wallets.find? userId).isSome := Option.isSome_map

theorem funds_putWallet {userId : UserId} {wallet : Wallet} {data : BalanceUpdate}
    (hWallet : market.wallets.find? userId = some wallet) :
    (market.putWallet (wallet.update data)).funds = fun other =>
      (market.funds other).map fun total asset => total asset +
        if other = userId then data.netTotal asset else 0 := by
  funext other
  rw [funds, find?_putWallet_update hWallet, funds]
  split_ifs with hUser
  · rw [hUser, hWallet, Option.map_some, Option.map_some, Option.map_some]
    congr 1
    funext asset
    exact wallet.total_update data asset
  · simp only [add_zero, Option.map_id']

/-- An update that moves funds inside a wallet. -/
theorem funds_putWallet_of_netTotal {userId : UserId} {wallet : Wallet} {data : BalanceUpdate}
    (hWallet : market.wallets.find? userId = some wallet)
    (hData : ∀ asset, data.netTotal asset = 0) :
    (market.putWallet (wallet.update data)).funds = market.funds := by
  rw [funds_putWallet hWallet]
  funext other
  simp only [hData, ite_self, add_zero, Option.map_id']

/-- Orders are rewritten where they are. -/
theorem ids_putOrder {id : OrderId} {remaining : Int} {status : OrderStatus} :
    (market.putOrder id remaining status).orders.rows.map Order.id =
      market.orders.rows.map Order.id :=
  @Table.map_modify _ _ _ _ _ _ _ (fun row => row.revised_id _ _) _ Order.id fun row =>
    row.revised_id _ _

theorem ideal_placed {order : Order} {wallet : Wallet}
    (hWallet : market.wallets.find? order.userId = some wallet) (hFresh : market.IsFresh order) :
    ((market.putWallet (wallet.update (order.side.reserve order.reservation))).addOrder
      order).ideal = market.ideal.place order := by
  have hFunds := @funds_putWallet_of_netTotal market order.userId wallet
    (order.side.reserve order.reservation) hWallet (order.side.netTotal_reserve _)
  unfold ideal Ideal.place
  rw [orders_addOrder (isFresh_putWallet.mpr hFresh), trades_addOrder, trades_putWallet]
  unfold funds at hFunds ⊢
  rw [wallets_addOrder, hFunds]
  rfl

theorem ideal_closed {order : Order} {status : OrderStatus} {wallet : Wallet}
    (hFound : market.orders.find? order.id = some order)
    (hWallet : market.wallets.find? order.userId = some wallet) :
    ((market.putOrder order.id order.remainingAmount status).putWallet
        (wallet.update (order.side.release order.reservation))).ideal =
      market.ideal.close order.id status := by
  have hFunds := @funds_putWallet_of_netTotal
    (market.putOrder order.id order.remainingAmount status)
    order.userId wallet (order.side.release order.reservation) hWallet
      (order.side.netTotal_release _)
  have hOrders : (market.putOrder order.id order.remainingAmount status).orders.rows =
      market.orders.rows.map fun row =>
        if row.id = order.id then row.revised row.remainingAmount status else row := by
    refine List.map_congr_left fun row hRow => ?_
    split_ifs with hId
    · have hRowFound := Table.find?_of_mem (Table.mem_def.mpr hRow)
      rw [hId, hFound, Option.some.injEq] at hRowFound
      rw [hRowFound]
    · rfl
  unfold ideal Ideal.close
  rw [hFunds, orders_putWallet, hOrders, trades_putWallet]
  rfl

end Market

namespace MatchingService

variable {taker : Order} {now : Nat} {fills : List (Order × Int)} {progress progress' : Progress}
  {db db' : Database}

/-- Settling one fill pays its two users. -/
theorem funds_execute {maker : Order} {amount : Int} {buyer seller : Wallet}
    (hFill : (progress.fill taker maker amount).Executable)
    (hBuyer : db.wallets.find? (progress.fill taker maker amount).buy.userId = some buyer)
    (hSeller : db.wallets.find? (progress.fill taker maker amount).sell.userId = some seller) :
    (db.execute (progress.fill taker maker amount) buyer seller now).funds =
      Ideal.pay taker db.funds (maker, amount) := by
  have hFunds : (db.execute (progress.fill taker maker amount) buyer seller now).funds =
      fun userId =>
      (db.funds userId).map fun total asset => total asset +
        (if userId = (progress.fill taker maker amount).buy.userId then
          (progress.fill taker maker amount).buyerUpdate.netTotal asset else 0) +
        if userId = (progress.fill taker maker amount).sell.userId then
          (progress.fill taker maker amount).sellerUpdate.netTotal asset else 0 := by
    have hSecond := @Market.funds_putWallet _ _ _ (progress.fill taker maker amount).sellerUpdate
      (@Market.find?_seller_of_putWallet db.toMarket _ buyer seller hFill.toCrossing hBuyer hSeller
        (progress.fill taker maker amount).buyerUpdate)
    rw [Market.funds_putWallet hBuyer] at hSecond
    refine hSecond.trans ?_
    funext userId
    rw [Option.map_map]
    rfl
  have hBuySide := hFill.buySide
  have hSellSide := hFill.sellSide
  rw [hFunds]
  funext userId
  unfold Ideal.pay
  congr 1
  funext total asset
  rw [Fill.netTotal_buyerUpdate, Fill.netTotal_sellerUpdate]
  cases hSide : taker.side with
  | buy =>
      have hMaker : maker.side = .sell := by
        unfold Progress.fill Fill.ofTaker at hSellSide
        rwa [Order.revised_side, hSide] at hSellSide
      rw [hMaker]
      unfold Progress.fill Fill.ofTaker
      rw [Order.revised_side, hSide]
      cases asset <;> rfl
  | sell =>
      have hMaker : maker.side = .buy := by
        unfold Progress.fill Fill.ofTaker at hBuySide
        rwa [Order.revised_side, hSide] at hBuySide
      rw [hMaker]
      unfold Progress.fill Fill.ofTaker
      rw [Order.revised_side, hSide]
      cases asset <;> exact add_right_comm _ _ _

/-- The plan pays what the fills pay one after another. -/
theorem Executed.funds (h : Executed taker now fills progress db progress' db') :
    db'.funds = fills.foldl (Ideal.pay taker) db.funds := by
  induction h with
  | nil => rfl
  | cons executable buyerFound sellerFound buyerFits sellerFits rest ih =>
      rw [ih, List.foldl_cons, funds_execute executable buyerFound sellerFound]

/-- Settlement rewrites orders where they are. -/
theorem Executed.ids (h : Executed taker now fills progress db progress' db') :
    db'.orders.rows.map Order.id = db.orders.rows.map Order.id := by
  induction h with
  | nil => rfl
  | cons executable buyerFound sellerFound buyerFits sellerFits rest ih =>
      exact ih.trans Market.ids_putOrder

end MatchingService
/-- What is reserved was available. -/
theorem OrderSide.le_available_of_fits {side : OrderSide} {amount : Int} {wallet : Wallet}
    (h : (side.reserve amount).Fits wallet) : amount ≤ wallet.get side.available := by
  have hRange := Wallet.inRange_iff.mp h.result
  cases side <;>
    simp only [OrderSide.reserve, OrderSide.available, OrderSide.reserved, Wallet.update_cons,
      Wallet.update_nil, Wallet.set, Wallet.get, BalanceChange.apply] at hRange ⊢ <;> omega

/-- An order whose cost fits the wallet may be placed. -/
theorem Market.Exact.placeable {market : Market} (h : market.Exact) {userId : UserId}
    {wallet : Wallet}
    (hFound : market.wallets.find? userId = some wallet) {side : OrderSide} {cost : Int}
    (hFits : (side.reserve cost).Fits wallet) :
    (market.ideal.funds userId).isSome ∧ cost ≤ market.ideal.available userId side := by
  refine ⟨?_, ?_⟩
  · rw [Market.isSome_funds, hFound]
    rfl
  · rw [h.available hFound]
    exact side.le_available_of_fits hFits

/-- A request of a user, not work of the exchange itself. -/
def Call.IsRequest : Call → Prop
  | .createOrder _ _ _ _ | .cancelOrder _ _ => True
  | .processOrder _ | .rejectOrderAfterFailedProcessing _ => False

namespace Database

variable {newDecimal : String → Option DecimalValue} {db db' : Database} {invocation : Invocation}

/-- A match settles all its fills at once. -/
theorem ideal_finish {taker : Order} {progress : MatchingService.Progress} {settled : Database}
    {now : Nat} (hWell : db.WellFormed) (hFound : db.orders.find? taker.id = some taker)
    (hQueued : taker.status = .queued)
    (hExecuted : MatchingService.Executed taker now (MatchingService.plan taker.remainingAmount
      (MatchingOrderBook.candidates db.orders.rows taker none))
        (.start taker) db progress settled) :
    (progress.finish taker (MatchingOrderBook.candidates db.orders.rows taker none) settled).ideal =
      db.ideal.settle taker := by
  have hMatched := Reference.matched_of_executed hWell hFound hQueued hExecuted
  have hIds : (progress.finish taker (MatchingOrderBook.candidates db.orders.rows taker none)
      settled).orders.rows.map Order.id = db.orders.rows.map Order.id :=
    Market.ids_putOrder.trans hExecuted.ids
  have hFunds : (progress.finish taker (MatchingOrderBook.candidates db.orders.rows taker none)
      settled).funds = (Reference.matching db.orders.rows taker).2.foldl
        (Ideal.pay taker) db.funds := by
    rw [Reference.matching_eq]
    exact hExecuted.funds
  unfold Market.ideal Ideal.settle
  rw [hFunds, Table.rows_eq_map hIds hMatched.orders, hMatched.trades]

/-- A call that commits does what it is meant to do. -/
theorem Transition.ideal (hWell : db.WellFormed) (hExact : db.Exact)
    (h : db.Transition newDecimal invocation db')
    (hCaller : ∀ orderId, invocation.call ≠ .cancelOrder "" orderId) :
    db'.ideal = db.ideal.step newDecimal invocation := by
  have hLookup : ∀ id, db.ideal.orders.find? (·.id = id) = db.orders.find? id := fun _ => rfl
  cases h with
  | @created userId side amountInput priceInput amount price generated wallet valid found fits fresh
    freshIntent =>
      simp only [Ideal.step, valid, if_pos (hExact.placeable found fits)]
      rw [toMarket_stored]
      exact Market.ideal_placed found fresh
  | @cancelled userId order wallet generated found owner active caller walletFound fits =>
      obtain rfl : order.userId = userId := owner fun hEmpty => hCaller order.id (by rw [hEmpty])
      simp only [Ideal.step, hLookup, found, active, and_self, if_true]
      exact Market.ideal_closed found walletFound
  | @matched taker progress settled generated found queued executed =>
      simp only [Ideal.step, hLookup, found, queued, if_true]
      exact ideal_finish hWell found queued executed
  | @rejected order wallet generated found queued walletFound fits =>
      simp only [Ideal.step, hLookup, found, queued, if_true]
      exact Market.ideal_closed found walletFound
  | @skipped _ id call notQueued =>
      obtain ⟨_, generated⟩ := invocation
      dsimp only at call
      rcases call with ⟨rfl, _⟩ | rfl
      · simp only [Ideal.step, hLookup]
        cases hOrder : db.orders.find? id with
        | none => rfl
        | some order => exact (if_neg (notQueued order hOrder)).symm
      · simp only [Ideal.step, hLookup]
        cases hOrder : db.orders.find? id with
        | none => rfl
        | some order => exact (if_neg (notQueued order hOrder)).symm

/-- A request of a user that commits is seen in the exchange: there is an order
more, or an active order is cancelled. -/
theorem Transition.ideal_ne (hWell : db.WellFormed) (hExact : db.Exact)
    (h : db.Transition newDecimal invocation db')
    (hCaller : ∀ orderId, invocation.call ≠ .cancelOrder "" orderId)
    (hRequest : invocation.call.IsRequest) : db'.ideal ≠ db.ideal := by
  rw [h.ideal hWell hExact hCaller]
  intro hSame
  have hOrders := congrArg Ideal.orders hSame
  have hLookup : ∀ id, db.ideal.orders.find? (·.id = id) = db.orders.find? id := fun _ => rfl
  cases h with
  | @created userId side amountInput priceInput amount price generated wallet valid found fits fresh
    freshIntent =>
      simp only [Ideal.step, valid, if_pos (hExact.placeable found fits), Ideal.place] at hOrders
      exact absurd hOrders (by simp)
  | @cancelled userId order wallet generated found owner active caller walletFound fits =>
      obtain rfl : order.userId = userId := owner fun hEmpty => hCaller order.id (by rw [hEmpty])
      simp only [Ideal.step, hLookup, found, active, and_self, if_true, Ideal.close] at hOrders
      have hRevised := List.map_inj_left.mp (hOrders.trans (List.map_id _).symm) order
        (Table.mem_of_find? found)
      rw [if_pos rfl, id] at hRevised
      rw [← hRevised] at active
      exact absurd active (by simp [OrderStatus.isActive])
  | matched found queued executed => exact hRequest
  | rejected found queued walletFound fits => exact hRequest
  | skipped call notQueued =>
      rcases call with ⟨hCall, _⟩ | hCall <;> rw [hCall] at hRequest <;> exact hRequest

/-- The generated keys of an order and of its intent are not in use. -/
def Supplies (db : Database) (generated : Generated) : Prop :=
  (db.orders.find? generated.orderId = none ∧
    generated.sequence ∉ db.orders.rows.map Order.sequence) ∧
    db.IsFreshIntent
      ⟨generated.outboxId, generated.orderId, 0, none, none, none, none, generated.now⟩

instance (db : Database) (generated : Generated) : Decidable (db.Supplies generated) :=
  inferInstanceAs (Decidable (_ ∧ _))

/-- A call that fails was not allowed. -/
theorem ideal_of_error (hWell : db.WellFormed) (hSolvent : db.Solvent)
    (hSupplies : ∀ userId side amountInput priceInput,
      invocation.call = .createOrder userId side amountInput priceInput →
      db.Supplies invocation.generated)
    {failure : Failure} (h : db.call newDecimal invocation = .error failure) :
    db.ideal.step newDecimal invocation = db.ideal := by
  have hLookup : ∀ id, db.ideal.orders.find? (·.id = id) = db.orders.find? id := fun _ => rfl
  obtain ⟨call, generated⟩ := invocation
  cases call with
  | createOrder userId side amountInput priceInput =>
      simp only [Ideal.step]
      cases hValid : OrdersService.validateOrder newDecimal amountInput priceInput with
      | error _ => rfl
      | ok parsed =>
          obtain ⟨amount, price⟩ := parsed
          refine if_neg ?_
          rintro ⟨hAccount, hAvailable⟩
          rw [Market.isSome_funds] at hAccount
          obtain ⟨wallet, hWallet⟩ := Option.isSome_iff_exists.mp hAccount
          rw [hSolvent.exact.available hWallet] at hAvailable
          obtain ⟨hFresh, hIntent⟩ := hSupplies userId side amountInput priceInput rfl
          obtain ⟨db', hCall⟩ := (call_createOrder hWell hSolvent hWallet hValid generated).2
            (not_lt.mpr hAvailable) hFresh hIntent
          rw [hCall] at h
          cases h
  | cancelOrder userId orderId =>
      simp only [Ideal.step, hLookup]
      cases hOrder : db.orders.find? orderId with
      | none => rfl
      | some order =>
          refine if_neg ?_
          rintro ⟨rfl, hActive⟩
          obtain rfl := Table.key_of_find? hOrder
          obtain ⟨db', hCall⟩ := @call_cancelOrder_commits newDecimal _ hWell hSolvent _
            (Table.mem_of_find? hOrder) hActive generated
          rw [hCall] at h
          cases h
  | processOrder orderId =>
      simp only [Ideal.step, hLookup]
      cases hOrder : db.orders.find? orderId with
      | none => rfl
      | some order =>
          refine if_neg fun hQueued => ?_
          obtain rfl := Table.key_of_find? hOrder
          obtain ⟨db', hCall⟩ := @call_processOrder_commits newDecimal _ hWell hSolvent _
            (Table.mem_of_find? hOrder) hQueued generated
          rw [hCall] at h
          cases h
  | rejectOrderAfterFailedProcessing orderId =>
      simp only [Ideal.step, hLookup]
      cases hOrder : db.orders.find? orderId with
      | none => rfl
      | some order =>
          refine if_neg fun hQueued => ?_
          obtain rfl := Table.key_of_find? hOrder
          obtain ⟨db', hCall⟩ := @call_rejectOrder_commits newDecimal _ hWell hSolvent _
            (Table.mem_of_find? hOrder) hQueued generated
          rw [hCall] at h
          cases h

end Database

namespace History

variable {newDecimal : String → Option DecimalValue} {start : Database}

/-- A caller has an id, and the keys generated for a creation are new. -/
def May (history : History) (invocation : Invocation) : Prop :=
  (∀ orderId, invocation.call ≠ .cancelOrder "" orderId) ∧
    ∀ userId side amountInput priceInput,
      invocation.call = .createOrder userId side amountInput priceInput →
        history.db.Supplies invocation.generated

theorem refines_ideal : Lockstep.Refines (History.call newDecimal) (Ideal.step newDecimal) May
    (fun history => history.db.ideal)
      (fun history => history.db.WellFormed ∧ history.db.Solvent) where
  keeps := by
    rintro history invocation ⟨hWell, hSolvent⟩
    exact (calls_evolve hWell [invocation]).induction hWell hSolvent
      fun _ _ hWell hEvent hSolvent => hSolvent.of_event hWell hEvent
  commutes := by
    rintro history invocation ⟨hWell, hSolvent⟩ ⟨hCaller, hSupplies⟩
    unfold History.call
    split
    · next hCall => exact (Database.call_transition hWell hCall).ideal hWell hSolvent.exact hCaller
    · next hCall => exact (Database.ideal_of_error hWell hSolvent hSupplies hCall).symm

/-- Over any calls from an opening that no wallet is too small for, the database
runs in lockstep with the ideal exchange, and its balances are what the ideal
exchange determines: what the active orders bind is reserved, the rest is available.
The ideal exchange ignores a call that fails, and it ignores no request of a user
that goes through. -/
theorem lockstep_with_ideal (hOpening : start.Opening)
    (hTotal : ∀ asset, start.wallets.sum (·.total asset) ≤ decimalMax)
    (invocations : List Invocation)
    (hMay : Lockstep.Admissible (History.call newDecimal) May (History.start start) invocations) :
    ((History.start start).calls newDecimal invocations).db.ideal =
        invocations.foldl (Ideal.step newDecimal) start.ideal ∧
      (∀ wallet ∈ ((History.start start).calls newDecimal invocations).db.wallets, ∀ side,
        wallet.get side.available =
          ((History.start start).calls newDecimal invocations).db.ideal.available
          wallet.userId side ∧
        wallet.get side.reserved =
          (((History.start start).calls newDecimal invocations).db.ideal.orders.map
          (Order.reserves wallet.userId side)).sum) ∧
      ∀ invocation, ((History.start start).calls newDecimal invocations).May invocation →
        (∀ failure, ((History.start start).calls newDecimal invocations).db.call
          newDecimal invocation =
            .error failure →
          ((History.start start).calls newDecimal invocations).db.ideal.step newDecimal invocation =
            ((History.start start).calls newDecimal invocations).db.ideal) ∧
        (invocation.call.IsRequest →
          ((History.start start).calls newDecimal invocations).db.ideal.step newDecimal invocation =
            ((History.start start).calls newDecimal invocations).db.ideal →
          ∃ failure, ((History.start start).calls newDecimal invocations).db.call
            newDecimal invocation = .error failure) := by
  obtain ⟨hIdeal, hWell, hSolvent⟩ :=
    (@refines_ideal newDecimal).run ⟨hOpening.wellFormed, hOpening.solvent hTotal⟩ hMay
  refine ⟨hIdeal, fun wallet hWallet side => hSolvent.exact.balances hWallet side,
    fun invocation hAllowed => ⟨fun failure hCall => ?_, fun hRequest hIgnored => ?_⟩⟩
  · exact Database.ideal_of_error hWell hSolvent hAllowed.2 hCall
  · cases hCall : ((History.start start).calls newDecimal invocations).db.call newDecimal
      invocation with
    | error failure => exact ⟨failure, rfl⟩
    | ok out =>
        have hTransition := Database.call_transition hWell hCall
        have hChanged := hTransition.ideal_ne hWell hSolvent.exact hAllowed.1 hRequest
        rw [hTransition.ideal hWell hSolvent.exact hAllowed.1] at hChanged
        exact absurd hIgnored hChanged

/-- The sample runs in lockstep with the ideal exchange. -/
theorem lockstep_with_ideal_sample :
    Sample.final.db.ideal = Sample.calls.foldl (Ideal.step Sample.newDecimal) Sample.start.ideal :=
  (lockstep_with_ideal Sample.opening Sample.total_le Sample.calls
    ⟨⟨nofun, fun _ _ _ _ _ => by decide +kernel⟩, ⟨nofun, nofun⟩,
      ⟨nofun, fun _ _ _ _ _ => by decide +kernel⟩, ⟨nofun, nofun⟩, trivial⟩).1

end History

namespace Workload

variable {Index : Type} {workload : Workload Index} {newDecimal : String → Option DecimalValue}
  {start db : Database}

/-- What commits one by one takes the ideal exchange along. -/
theorem ideal_of_serially {admits : Index → Database → Prop} {log : List (Index × Outcome)}
    (h : (workload.protocol newDecimal admits).Serially start log db)
    (hCallers : ∀ index orderId, (workload.invocation index).call ≠ .cancelOrder "" orderId)
    (hWell : start.WellFormed) (hSolvent : start.Solvent) :
    db.WellFormed ∧ db.Solvent ∧ db.ideal =
      (log.map fun entry => workload.invocation entry.1).foldl
        (Ideal.step newDecimal) start.ideal := by
  induction h with
  | nil => exact ⟨hWell, hSolvent, rfl⟩
  | @snoc log db db' earlier index program outcome before starts run ih =>
      obtain ⟨hWellBefore, hSolventBefore, hIdeal⟩ := ih
      obtain ⟨_, fuel, rfl⟩ := starts
      have hCall := Database.call_of_run run
      obtain ⟨hWellAfter, hSolventAfter⟩ :=
        (Database.call_evolves hWellBefore hCall).induction hWellBefore
        hSolventBefore fun _ _ hWell hEvent hSolvent => hSolvent.of_event hWell hEvent
      refine ⟨hWellAfter, hSolventAfter, ?_⟩
      rw [List.map_append, List.foldl_append, ← hIdeal]
      exact (Database.call_transition hWellBefore hCall).ideal hWellBefore hSolventBefore.exact
        (hCallers index)

variable [DecidableEq Index]

/-- Calls that run side by side, in any interleaving of their statements and
with any rollbacks, leave what the ideal exchange makes of the committed ones
when it takes them one at a time in commit order, and the balances that it
determines. -/
theorem linearizes_to_ideal
    {system : System Statement Failure Database Write Resource Outcome Index}
    (hOpening : start.Opening) (hTotal : ∀ asset, start.wallets.sum (·.total asset) ≤ decimalMax)
    (hCallers : ∀ index orderId, (workload.invocation index).call ≠ .cancelOrder "" orderId)
    (hRun : (workload.protocol newDecimal workload.Admits).Reaches (.start start) system) :
    system.committed.ideal =
        (system.log.map fun entry => workload.invocation entry.1).foldl (Ideal.step newDecimal)
          start.ideal ∧
      ∀ wallet ∈ system.committed.wallets, ∀ side,
        wallet.get side.available = system.committed.ideal.available wallet.userId side ∧
        wallet.get side.reserved =
          (system.committed.ideal.orders.map (Order.reserves wallet.userId side)).sum := by
  have hSerially := Protocol.serially_of_reaches permits_mono
    (fun _ _ _ => replays_transaction) hRun
  obtain ⟨_, hSolvent, hIdeal⟩ :=
    ideal_of_serially hSerially hCallers hOpening.wellFormed (hOpening.solvent hTotal)
  exact ⟨hIdeal, fun wallet hWallet side => hSolvent.exact.balances hWallet side⟩

end Workload

namespace Sample

/-- Both users of the sample place their orders at once. -/
def offers : Workload Bool where
  invocation
    | false => ⟨.createOrder "seller" .sell "1" "5", ⟨"sell", 1, "intent 1", 10⟩⟩
    | true => ⟨.createOrder "buyer" .buy "2" "5", ⟨"buy", 2, "intent 2", 11⟩⟩
  apart first second hNe hFirst hSecond := by
    cases first <;> cases second <;> first
      | exact absurd rfl hNe
      | exact ⟨by decide, by decide, by decide⟩

/-- Their statements alternate. -/
def offersSchedule : List Bool :=
  [true, false, true, false, true, false, true, false, true, false, true, false]

end Sample

namespace Workload

theorem linearizes_to_ideal_sample : ∃ system,
    (Sample.offers.protocol Sample.newDecimal Sample.offers.Admits).Reaches
      (.start Sample.start) system ∧
    system.log.map Prod.fst = [true, false] ∧
    system.committed.ideal = (system.log.map fun entry => Sample.offers.invocation entry.1).foldl
      (Ideal.step Sample.newDecimal) Sample.start.ideal := by
  have hRun := @Sample.reaches_scheduled Sample.offers Sample.offers.Admits Sample.start
    Sample.offersSchedule (fun index _ h => by cases index <;> cases h) (by decide +kernel)
  exact ⟨_, hRun, by decide +kernel, (linearizes_to_ideal Sample.opening Sample.total_le
    (fun index _ h => by cases index <;> cases h) hRun).1⟩

end Workload
end ExchangeMatching
