import ExchangeMatching.Ledger

/-! No spurious failure. While all wallets together hold no more than a column
can store, every planned fill and every release fits the wallets: what it takes
is reserved, and what it gives was held by one of the two users before. -/
namespace ExchangeMatching

open Transactions

namespace Market

/-- Reservations are exact, no amount of the exchange is too large for one
wallet, and the users of all orders have wallets. -/
structure Solvent (market : Market) : Prop where
  exact : market.Exact
  total : ∀ asset, market.wallets.sum (·.total asset) ≤ decimalMax
  owners : ∀ order ∈ market.orders, (market.wallets.find? order.userId).isSome

variable {market market' : Market}

theorem Event.isSome_wallet (hEvent : market.Event market') (userId : UserId) :
    (market'.wallets.find? userId).isSome = (market.wallets.find? userId).isSome := by
  rw [Bool.eq_iff_iff, Table.isSome_find?_iff, Table.isSome_find?_iff, hEvent.users]

/-- The users of all orders keep their wallets, and a new order binds funds of
a wallet. -/
theorem Event.owners (hEvent : market.Event market')
    (hOwners : ∀ order ∈ market.orders, (market.wallets.find? order.userId).isSome) :
    ∀ order ∈ market'.orders, (market'.wallets.find? order.userId).isSome := by
  intro order hOrder
  have hOwner : ∀ row : Order, market.orders.find? row.id = some row →
      (market.wallets.find? row.userId).isSome :=
        fun row hRow => hOwners row (Table.mem_of_find? hRow)
  rw [hEvent.isSome_wallet]
  cases hEvent with
  | @placed placed wallet sound queued fresh found fits =>
      rcases mem_addOrder (isFresh_putWallet.mpr fresh) hOrder with hOld | rfl
      · exact hOwners order hOld
      · rw [found]
        rfl
  | @opened row found queued =>
      rcases mem_putOrder found hOrder with hOld | rfl
      · exact hOwners order hOld
      · exact hOwner row found
  | @filled fill buyer seller now buy sell crossing buyerFound sellerFound buyerFits sellerFits =>
      rcases mem_putOrder
        (@find?_sell_of_putOrder (market.settle fill buyer seller now) fill crossing buy
        sell _ _) hOrder with hMiddle | rfl
      · rcases mem_putOrder (show (market.settle fill buyer seller now).orders.find? fill.buy.id =
          some fill.buy from buy) hMiddle with hOld | rfl
        · exact hOwners order hOld
        · exact hOwner fill.buy buy
      · exact hOwner fill.sell sell
  | @closed row wallet status found allowed walletFound fits =>
      rcases mem_putOrder found hOrder with hOld | rfl
      · exact hOwners order hOld
      · exact hOwner row found

/-- Only fees leave the wallets. -/
theorem Event.total_le (hWell : market.WellFormed) (hEvent : market.Event market')
    (asset : TradeFeeAsset) :
    market'.wallets.sum (·.total asset) ≤ market.wallets.sum (·.total asset) := by
  cases hEvent with
  | placed sound queued fresh found fits =>
      rw [wallets_addOrder, total_update found, OrderSide.netTotal_reserve, add_zero]
  | opened found queued => exact le_refl _
  | @filled fill buyer seller now buy sell crossing buyerFound sellerFound buyerFits sellerFits =>
      have hExecutable : fill.Executable := ⟨crossing, hWell.orders _ (Table.mem_of_find? buy),
        hWell.orders _ (Table.mem_of_find? sell)⟩
      have hBuyerFee := hExecutable.buyerFee_bounds
      have hSellerFee := hExecutable.sellerFee_bounds
      have hSeller : (market.putWallet (buyer.update fill.buyerUpdate)).wallets.find?
          fill.sell.userId = some seller :=
            find?_seller_of_putWallet crossing buyerFound sellerFound
      have hWallets : ((market.settle fill buyer seller now).fillOrders fill).wallets.sum
          (·.total asset) = market.wallets.sum (·.total asset) + fill.buyerUpdate.netTotal asset +
            fill.sellerUpdate.netTotal asset := by
        rw [← total_update buyerFound, ← total_update hSeller]
        rfl
      rw [hWallets, Fill.netTotal_buyerUpdate, Fill.netTotal_sellerUpdate]
      cases asset <;> dsimp only <;> omega
  | @closed order wallet status found allowed walletFound fits =>
      have hFound : (market.putOrder order.id order.remainingAmount status).wallets.find?
          order.userId =
          some wallet := walletFound
      rw [total_update hFound, OrderSide.netTotal_release, add_zero, wallets_putOrder]

theorem Solvent.of_event (h : market.Solvent) (hWell : market.WellFormed)
    (hEvent : market.Event market') : market'.Solvent where
  exact := h.exact.of_event hEvent
  total asset := (hEvent.total_le hWell asset).trans (h.total asset)
  owners := hEvent.owners h.owners

theorem Opening.solvent (h : market.Opening)
    (hTotal : ∀ asset, market.wallets.sum (·.total asset) ≤ decimalMax) : market.Solvent where
  exact := h.exact
  total := hTotal
  owners order hOrder := by
    rw [Table.mem_def, h.noOrders] at hOrder
    cases hOrder

section Bounds

variable {wallet other : Wallet}

theorem WellFormed.total_nonneg (hWell : market.WellFormed) (asset : TradeFeeAsset) :
    ∀ wallet ∈ market.wallets, 0 ≤ wallet.total asset :=
  fun wallet hWallet => Int.add_nonneg (hWell.wallets wallet hWallet _).1
    (hWell.wallets wallet hWallet _).1

/-- One wallet holds no more than a column can store. -/
theorem Solvent.total_le (h : market.Solvent) (hWell : market.WellFormed)
    (hWallet : wallet ∈ market.wallets) (asset : TradeFeeAsset) : wallet.total asset ≤ decimalMax :=
  (Table.le_sum (hWell.total_nonneg asset) hWallet).trans (h.total asset)

/-- Two wallets together hold no more than a column can store. -/
theorem Solvent.add_total_le (h : market.Solvent) (hWell : market.WellFormed)
    (hWallet : wallet ∈ market.wallets) (hOther : other ∈ market.wallets)
    (hNe : wallet.userId ≠ other.userId) (asset : TradeFeeAsset) :
    wallet.total asset + other.total asset ≤ decimalMax :=
  (Table.add_le_sum (hWell.total_nonneg asset) hWallet hOther hNe).trans (h.total asset)

theorem reserves_nonneg (hWell : market.WellFormed) (userId : UserId) (side : OrderSide) :
    ∀ order ∈ market.orders, 0 ≤ order.reserves userId side := by
  intro order hOrder
  have hSound := hWell.orders order hOrder
  unfold Order.reserves
  split_ifs
  · exact OrderSide.reservation_nonneg _ hSound.remaining_nonneg hSound.price_pos.le
  · exact le_refl _

/-- The reservation of an active order is in its user's wallet. -/
theorem Solvent.reservation_le (h : market.Solvent) (hWell : market.WellFormed) {order : Order}
    (hOrder : order ∈ market.orders) (hActive : order.status.isActive = true)
    (hWallet : market.wallets.find? order.userId = some wallet) :
    order.reservation ≤ wallet.get order.side.reserved := by
  have hReserves : order.reserves order.userId order.side = order.reservation := by
    rw [Order.reserves_of_isActive hActive, if_pos rfl, if_pos rfl]
  have hExact := h.exact order.userId order.side
  rw [balance_of_find? hWallet] at hExact
  rw [hExact, ← hReserves]
  exact Table.le_sum (reserves_nonneg hWell order.userId order.side) hOrder

end Bounds

/-- Releasing the reservation of an active order fits its user's wallet. -/
theorem Solvent.release_fits (h : market.Solvent) (hWell : market.WellFormed) {order : Order}
    {wallet : Wallet} (hOrder : order ∈ market.orders) (hActive : order.status.isActive = true)
    (hWallet : market.wallets.find? order.userId = some wallet) :
    (order.side.release order.reservation).Fits wallet := by
  have hSound := hWell.orders order hOrder
  have hNonneg : 0 ≤ order.reservation :=
    OrderSide.reservation_nonneg _ hSound.remaining_nonneg hSound.price_pos.le
  have hReserved := h.reservation_le hWell hOrder hActive hWallet
  have hRange := hWell.wallets wallet (Table.mem_of_find? hWallet)
  have hBtc := h.total_le hWell (Table.mem_of_find? hWallet) .btc
  have hUsd := h.total_le hWell (Table.mem_of_find? hWallet) .usd
  have hMax : order.reservation ≤ decimalMax := hReserved.trans (hRange _).2
  constructor
  · intro change hChange
    simp only [OrderSide.release, List.mem_cons, List.not_mem_nil, or_false] at hChange
    rcases hChange with rfl | rfl
    · exact ⟨hNonneg, hMax⟩
    · exact ⟨hNonneg, hMax⟩
  · have hBalances := Wallet.inRange_iff.mp hRange
    simp only [Wallet.total, TradeFeeAsset.available, TradeFeeAsset.reserved, Wallet.get]
      at hBtc hUsd
    intro field
    rw [Wallet.get_update]
    cases hSide : order.side <;> rw [hSide] at hReserved <;>
      simp only [OrderSide.reserved, Wallet.get] at hReserved <;> cases field <;>
      simp [OrderSide.release, OrderSide.available, OrderSide.reserved, BalanceChange.signed,
        Wallet.get] <;> omega

/-- A planned fill fits the wallets of its buyer and its seller. -/
theorem Solvent.fill_fits (h : market.Solvent) (hWell : market.WellFormed) {fill : Fill}
    {buyer seller : Wallet} (hExecutable : fill.Executable)
    (hBuy : market.orders.find? fill.buy.id = some fill.buy)
    (hSell : market.orders.find? fill.sell.id = some fill.sell)
    (hBuyer : market.wallets.find? fill.buy.userId = some buyer)
    (hSeller : market.wallets.find? fill.sell.userId = some seller) :
    fill.buyerUpdate.Fits buyer ∧ fill.sellerUpdate.Fits seller := by
  have hBuyerMem := Table.mem_of_find? hBuyer
  have hSellerMem := Table.mem_of_find? hSeller
  have hNe : buyer.userId ≠ seller.userId := by
    rw [Table.key_of_find? hBuyer, Table.key_of_find? hSeller]
    exact hExecutable.users
  have hBtc := h.add_total_le hWell hBuyerMem hSellerMem hNe .btc
  have hUsd := h.add_total_le hWell hBuyerMem hSellerMem hNe .usd
  have hBuyReserved := h.reservation_le hWell (Table.mem_of_find? hBuy)
    hExecutable.toCrossing.buy_active hBuyer
  have hSellReserved := h.reservation_le hWell (Table.mem_of_find? hSell)
    hExecutable.toCrossing.sell_active hSeller
  have hBuyerBalances := Wallet.inRange_iff.mp (hWell.wallets buyer hBuyerMem)
  have hSellerBalances := Wallet.inRange_iff.mp (hWell.wallets seller hSellerMem)
  have hAmount := hExecutable.amount_pos
  have hAmountLe := hExecutable.amount_le_sell
  have hAmountMax := hExecutable.amount_le_max
  have hBuyerFee := hExecutable.buyerFee_bounds
  have hSellerFee := hExecutable.sellerFee_bounds
  have hCovered := hExecutable.executed_le_debit
  have hExecuted := hExecutable.executed_pos
  have hDebitMax := hExecutable.debit_le_max
  have hRest := hExecutable.rest_nonneg
  have hDebit : fill.debit = cost fill.buy.remainingAmount fill.buy.price -
      cost (fill.buy.remainingAmount - fill.amount) fill.buy.price := rfl
  rw [Order.reservation, hExecutable.buySide] at hBuyReserved
  rw [Order.reservation, hExecutable.sellSide] at hSellReserved
  simp only [OrderSide.reservation, OrderSide.reserved, Wallet.get] at hBuyReserved hSellReserved
  simp only [Wallet.total, TradeFeeAsset.available, TradeFeeAsset.reserved, Wallet.get] at hBtc hUsd
  refine ⟨⟨?_, ?_⟩, ?_, ?_⟩
  · intro change hChange
    simp only [Fill.buyerUpdate, List.mem_cons, List.not_mem_nil, or_false] at hChange
    rcases hChange with rfl | rfl | rfl <;> simp only [BalanceChange.delta] <;> omega
  · intro field
    rw [Wallet.get_update]
    cases field <;> simp [Fill.buyerUpdate, BalanceChange.signed, Wallet.get] <;> omega
  · intro change hChange
    simp only [Fill.sellerUpdate, List.mem_cons, List.not_mem_nil, or_false] at hChange
    rcases hChange with rfl | rfl <;> simp only [BalanceChange.delta] <;> omega
  · intro field
    rw [Wallet.get_update]
    cases field <;> simp [Fill.sellerUpdate, BalanceChange.signed, Wallet.get] <;> omega

end Market

namespace MatchingService

/-- In a solvent market all planned fills of a taker can be executed. -/
theorem Settling.exists_executed {taker : Order} {makers : List Order} {progress : Progress}
    {db : Database} (h : Settling taker makers progress db)
    (hSolvent : (progress.market taker db).Solvent) (now : Nat) :
    ∃ progress' db', Executed taker now (plan progress.takerRemaining makers)
      progress db progress' db' := by
  induction makers generalizing progress db with
  | nil => exact ⟨progress, db, .nil⟩
  | cons maker makers ih =>
      have hSound := h.maker_sound List.mem_cons_self
      have hMakerPos := (MatchingOrderBook.isEligibleMaker_iff.mp
        (h.eligible maker List.mem_cons_self)).2.2.1
      have hRemaining := h.remaining_nonneg
      rw [plan]
      split_ifs with hDust
      · exact ih h.skip hSolvent
      · have hCost := cost_nonneg
          (show 0 ≤ min progress.takerRemaining maker.remainingAmount by omega) hSound.price_pos.le
        have hPos : 0 < min progress.takerRemaining maker.remainingAmount := by
          have hNonzero : min progress.takerRemaining maker.remainingAmount ≠ 0 := fun hZero =>
            hDust (by rw [hZero, cost_zero])
          omega
        have hExecutable := h.executable hPos (min_le_left _ _) (min_le_right _ _) (by omega)
        obtain ⟨hBuy, hSell⟩ := @fill_rows _ _ _ _ _
          (min progress.takerRemaining maker.remainingAmount) h
        obtain ⟨buyer, hBuyer⟩ := Option.isSome_iff_exists.mp
          (hSolvent.owners _ (Table.mem_of_find? hBuy))
        obtain ⟨seller, hSeller⟩ := Option.isSome_iff_exists.mp
          (hSolvent.owners _ (Table.mem_of_find? hSell))
        obtain ⟨hBuyerFits, hSellerFits⟩ := hSolvent.fill_fits h.wellFormed hExecutable hBuy hSell
          hBuyer hSeller
        have hStep := h.step hExecutable now hBuyer hSeller hBuyerFits hSellerFits
        obtain ⟨progress', db', hRest⟩ := ih hStep.2 (hSolvent.of_event h.wellFormed hStep.1)
        exact ⟨progress', db', .cons hExecutable hBuyer hSeller hBuyerFits hSellerFits
          (by simpa [Progress.advance, Progress.fill] using hRest)⟩

end MatchingService

namespace Database

variable {newDecimal : String → Option DecimalValue} {db : Database}

/-- Matching a queued order commits, whatever the book. -/
theorem call_processOrder_commits (hWell : db.WellFormed) (hSolvent : db.Solvent) {order : Order}
    (hOrder : order ∈ db.orders) (hQueued : order.status = .queued) (generated : Generated) :
    ∃ db', db.call newDecimal ⟨.processOrder order.id, generated⟩ =
      .ok (.eventsStored true, db') := by
  have hFound := Table.find?_of_mem hOrder
  have hSettling := MatchingService.Settling.candidates hWell hFound hQueued (List.prefix_refl _)
  rw [← MatchingService.Progress.market_start hFound hQueued] at hSolvent
  obtain ⟨progress, settled, hExecuted⟩ := hSettling.exists_executed hSolvent generated.now
  exact ⟨_, Engine.run_bind_eq_ok.mpr ⟨true, _, (MatchingService.run_processOrder_eq_ok hWell
    (Nat.lt_succ_self _)).mpr
      ⟨order, hFound, Or.inr ⟨hQueued, rfl, progress, settled, hExecuted, rfl⟩⟩,
    rfl⟩⟩

/-- Cancelling an active order of one's own commits. -/
theorem call_cancelOrder_commits (hWell : db.WellFormed) (hSolvent : db.Solvent) {order : Order}
    (hOrder : order ∈ db.orders) (hActive : order.status.isActive = true) (generated : Generated) :
    ∃ db', db.call newDecimal ⟨.cancelOrder order.userId order.id, generated⟩ =
      .ok (.order (order.revised order.remainingAmount .cancelled), db') := by
  obtain ⟨wallet, hWallet⟩ := Option.isSome_iff_exists.mp (hSolvent.owners order hOrder)
  have hFound : db.findOrder order.id ((some order.userId).filter (· ≠ "")) = some order := by
    refine findOrder_eq_some.mpr ⟨Table.find?_of_mem hOrder, fun owner hOwner => ?_⟩
    exact Option.some.inj (Option.mem_filter_iff.mp hOwner).1
  exact ⟨_, Engine.run_bind_eq_ok.mpr ⟨_, _, (OrdersService.run_cancelOrder_eq_ok hWell).mpr
    ⟨order, wallet, hFound, hActive, by rw [hWallet]; rfl, hWallet,
      hSolvent.release_fits hWell hOrder hActive hWallet, rfl⟩, rfl⟩⟩

/-- Rejecting a queued order commits. -/
theorem call_rejectOrder_commits (hWell : db.WellFormed) (hSolvent : db.Solvent) {order : Order}
    (hOrder : order ∈ db.orders) (hQueued : order.status = .queued) (generated : Generated) :
    ∃ db', db.call newDecimal ⟨.rejectOrderAfterFailedProcessing order.id, generated⟩ =
      .ok (.eventsStored true, db') := by
  obtain ⟨wallet, hWallet⟩ := Option.isSome_iff_exists.mp (hSolvent.owners order hOrder)
  have hActive : order.status.isActive = true := by rw [hQueued]; rfl
  exact ⟨_, Engine.run_bind_eq_ok.mpr ⟨_, _, (MatchingService.run_rejectOrder_eq_ok hWell).mpr
    (Or.inr ⟨order, wallet, Table.find?_of_mem hOrder, hQueued, hWallet,
      hSolvent.release_fits hWell hOrder hActive hWallet, rfl⟩), rfl⟩⟩

/-- Where an order is validated, the only obstacle to reserving its funds is
the available balance. -/
theorem run_reserveFunds (hWell : db.WellFormed) (hSolvent : db.Solvent) {wallet : Wallet}
    {side : OrderSide} {amount price : Int} (hWallet : wallet ∈ db.wallets)
    (hAmount : 0 < amount ∧ amount ≤ decimalMax) (hPrice : 0 < price)
    (hCost : cost amount price ≤ decimalMax) (generated : Generated) :
    engine.run generated (WalletsService.reserveFunds wallet side amount price) db =
      if wallet.get side.available < side.reservation amount price then
        .error (.badRequest ("Insufficient " ++ side.asset.name ++ " balance"))
      else .ok ((), db.apply (.wallet
        (wallet.update (side.reserve (side.reservation amount price))))) := by
  have hNonneg := OrderSide.reservation_nonneg side hAmount.1.le hPrice.le
  have hMax : side.reservation amount price ≤ decimalMax := by
    cases side with
    | buy => exact hCost
    | sell => exact hAmount.2
  have hDeltas : (side.reserve (side.reservation amount price)).DeltasInRange := by
    intro change hChange
    simp only [OrderSide.reserve, List.mem_cons, List.not_mem_nil, or_false] at hChange
    rcases hChange with rfl | rfl
    · exact ⟨hNonneg, hMax⟩
    · exact ⟨hNonneg, hMax⟩
  have hBalances := Wallet.inRange_iff.mp (hWell.wallets wallet hWallet)
  have hBtc := hSolvent.total_le hWell hWallet .btc
  have hUsd := hSolvent.total_le hWell hWallet .usd
  simp only [Wallet.total, TradeFeeAsset.available, TradeFeeAsset.reserved, Wallet.get] at hBtc hUsd
  -- The reserved balance cannot overflow: both balances together fit the column.
  have hFits : (wallet.update (side.reserve (side.reservation amount price))).InRange ↔
      ¬wallet.get side.available < side.reservation amount price := by
    rw [Wallet.inRange_iff]
    generalize side.reservation amount price = required at *
    cases side <;>
      simp only [OrderSide.reserve, OrderSide.available, OrderSide.reserved, Wallet.update_cons,
        Wallet.update_nil, Wallet.set, Wallet.get, BalanceChange.apply] <;> omega
  have hRun : engine.run generated (WalletsService.reserveFunds wallet side amount price) db =
      engine.run generated (guardedUpdate
        (.badRequest ("Insufficient " ++ side.asset.name ++ " balance")) wallet.userId
        (side.reserve (side.reservation amount price))) db := by
    rw [reserveFunds_eq]
    cases side with
    | buy =>
        simp only [(multiplyScaled_eq_ok hAmount.1.le hPrice.le).mpr ⟨rfl, hCost⟩, Program.ofExcept,
          Program.mk_pure_bind, OrderSide.reservation]
    | sell => rfl
  rw [hRun, run_guardedUpdate hWell.wallets (side.reserve_distinct _) hDeltas
    (Table.find?_of_mem hWallet)]
  simp only [hFits, ite_not]

/-- The part of a creation after its funds are reserved. -/
def placeOrder (userId : UserId) (side : OrderSide) (amount price : Int) : Transaction Outcome := do
  let order ← OrdersRepository.createOrder userId side amount price
  OrderMatchingOutboxService.appendOrder order.id
  RealtimeOutboxService.appendEvent (.accountChanged .orderCreated userId order.id none)
  return .order order

variable {generated : Generated} {userId : UserId} {side : OrderSide} {amount price : Int}

/-- A valid order that is placed runs into a used key, if into anything. -/
theorem placeOrder_failsWith (hRow : (newOrder generated userId side amount price).Valid) :
    engine.FailsWith generated (fun failure => ∃ table, failure = .uniqueViolation table)
      (placeOrder userId side amount price) db := by
  refine Engine.failsWith_issue (fun failure hFailed => ?_) fun row _ _ =>
    Engine.failsWith_issue (fun failure hFailed => ?_) fun _ _ _ => ?_
  · have hCheck := Order.check_eq_ok.mpr hRow
    simp only [newOrder] at hCheck
    simp only [engine_effect, effect, hCheck] at hFailed
    split_ifs at hFailed
    cases hFailed
    exact ⟨_, rfl⟩
  · simp only [engine_effect, effect] at hFailed
    split_ifs at hFailed
    cases hFailed
    exact ⟨_, rfl⟩
  · exact Engine.failsWith_of_run_eq_ok rfl

theorem run_placeOrder (hRow : (newOrder generated userId side amount price).Valid)
    (hFresh : db.IsFresh (newOrder generated userId side amount price))
    (hIntent : db.IsFreshIntent
      ⟨generated.outboxId, generated.orderId, 0, none, none, none, none, generated.now⟩) :
    ∃ db', engine.run generated (placeOrder userId side amount price) db =
      .ok (.order (newOrder generated userId side amount price), db') := by
  refine ⟨_, run_createOrder_eq_ok.mpr
    ⟨hRow, hFresh, run_createMatchingIntent_eq_ok.mpr ⟨?_, rfl⟩⟩⟩
  exact hIntent

/-- A valid order is refused for its balance exactly when the balance is too
small, and stored otherwise, unless a generated value is already in use. -/
theorem call_createOrder (hWell : db.WellFormed) (hSolvent : db.Solvent)
    {amountInput priceInput : String} {wallet : Wallet}
    (hWallet : db.wallets.find? userId = some wallet)
    (hValid : OrdersService.validateOrder newDecimal amountInput priceInput = .ok (amount, price))
    (generated : Generated) :
    (db.call newDecimal ⟨.createOrder userId side amountInput priceInput, generated⟩ =
        .error (.badRequest ("Insufficient " ++ side.asset.name ++ " balance")) ↔
      wallet.get side.available < side.reservation amount price) ∧
    (¬wallet.get side.available < side.reservation amount price →
      db.IsFresh (newOrder generated userId side amount price) →
      db.IsFreshIntent ⟨generated.outboxId, generated.orderId, 0, none, none, none, none,
        generated.now⟩ →
      ∃ db', db.call newDecimal ⟨.createOrder userId side amountInput priceInput, generated⟩ =
        .ok (.order (newOrder generated userId side amount price), db')) := by
  obtain ⟨hAmount, hPrice, hCost, hMax⟩ := OrdersService.validateOrder_eq_ok hValid
  have hRow : (newOrder generated userId side amount price).Valid :=
    (OrdersService.newOrder_sound hValid).toValid
  have hCall : db.call newDecimal ⟨.createOrder userId side amountInput priceInput, generated⟩ =
      engine.run generated (do
        WalletsService.reserveFunds wallet side amount price
        placeOrder userId side amount price) db := by
    simp only [Database.call, Call.transaction, OrdersService.createOrder, hValid, Program.ofExcept,
      Program.mk_pure_bind, OrdersService.storeOrder, WalletsService.findByUserId,
      WalletsRepository.findByUserId, Program.perform_bind, Program.issue_bind, run_findWallet,
      hWallet, Program.bind_assoc]
    rfl
  rw [hCall, Engine.run_bind, run_reserveFunds hWell hSolvent (Table.mem_of_find? hWallet) hAmount
    hPrice.1 hMax]
  split_ifs with hShort
  · simp [hShort]
  · refine ⟨?_, fun _ hFresh hIntent => run_placeOrder hRow hFresh hIntent⟩
    simp only [hShort, iff_false]
    intro hRun
    obtain ⟨table, hTable⟩ := placeOrder_failsWith hRow _ hRun
    cases hTable

end Database

/-- No wallet is too small for the sample. -/
theorem Sample.total_le (asset : TradeFeeAsset) :
    start.wallets.sum (·.total asset) ≤ decimalMax := by
  cases asset <;> decide

namespace History

variable {newDecimal : String → Option DecimalValue} {start : Database}

/-- After any calls from an opening that no wallet is too small for, the market
is well formed and solvent. -/
theorem solvent_of_opening (hOpening : start.Opening)
    (hTotal : ∀ asset, start.wallets.sum (·.total asset) ≤ decimalMax)
    (invocations : List Invocation) :
    ((History.start start).calls newDecimal invocations).db.WellFormed ∧
      ((History.start start).calls newDecimal invocations).db.Solvent :=
  (calls_evolve hOpening.wellFormed invocations).induction hOpening.wellFormed
    (hOpening.solvent hTotal) fun _ _ hWell hEvent hSolvent => hSolvent.of_event hWell hEvent

/-- No spurious failure and no stuck funds, after any calls from an opening
whose totals fit the columns. -/
theorem no_spurious_failure (hOpening : start.Opening)
    (hTotal : ∀ asset, start.wallets.sum (·.total asset) ≤ decimalMax)
    (invocations : List Invocation) (generated : Generated) :
    (∀ order ∈ ((History.start start).calls newDecimal invocations).db.orders, order.status =
      .queued → (∃ db', ((History.start start).calls newDecimal invocations).db.call newDecimal
        ⟨.processOrder order.id, generated⟩ = .ok (.eventsStored true, db')) ∧
      ∃ db', ((History.start start).calls newDecimal invocations).db.call newDecimal
        ⟨.rejectOrderAfterFailedProcessing order.id, generated⟩ = .ok (.eventsStored true, db')) ∧
    (∀ order ∈ ((History.start start).calls newDecimal invocations).db.orders,
      order.status ∈ [.queued, .opened, .partiallyFilled] →
      ∃ db', ((History.start start).calls newDecimal invocations).db.call newDecimal
        ⟨.cancelOrder order.userId order.id, generated⟩ =
          .ok (.order (order.revised order.remainingAmount .cancelled), db')) ∧
    (∀ (userId : UserId) (side : OrderSide) (amountInput priceInput : String) (amount price : Int),
      ∀ wallet ∈ ((History.start start).calls newDecimal invocations).db.wallets,
      wallet.userId = userId →
      OrdersService.validateOrder newDecimal amountInput priceInput = .ok (amount, price) →
      (((History.start start).calls newDecimal invocations).db.call newDecimal
          ⟨.createOrder userId side amountInput priceInput, generated⟩ =
          .error (.badRequest ("Insufficient " ++ side.asset.name ++ " balance")) ↔
        wallet.get side.available < side.reservation amount price) ∧
      (¬wallet.get side.available < side.reservation amount price →
        ((History.start start).calls newDecimal invocations).db.IsFresh
          (newOrder generated userId side amount price) →
        ((History.start start).calls newDecimal invocations).db.IsFreshIntent
          ⟨generated.outboxId, generated.orderId, 0, none, none, none, none, generated.now⟩ →
        ∃ db', ((History.start start).calls newDecimal invocations).db.call newDecimal
          ⟨.createOrder userId side amountInput priceInput, generated⟩ =
            .ok (.order (newOrder generated userId side amount price), db'))) := by
  obtain ⟨hWell, hSolvent⟩ := @solvent_of_opening newDecimal start hOpening hTotal invocations
  refine ⟨fun order hOrder hQueued => ⟨?_, ?_⟩, fun order hOrder hStatus => ?_, ?_⟩
  · exact Database.call_processOrder_commits hWell hSolvent hOrder hQueued generated
  · exact Database.call_rejectOrder_commits hWell hSolvent hOrder hQueued generated
  · have hActive : order.status.isActive = true := by
      simp only [List.mem_cons, List.not_mem_nil, or_false] at hStatus
      rcases hStatus with h | h | h <;> rw [h] <;> rfl
    exact Database.call_cancelOrder_commits hWell hSolvent hOrder hActive generated
  · intro userId side amountInput priceInput amount price wallet hWallet hUser hValid
    exact Database.call_createOrder hWell hSolvent
      (hUser ▸ Table.find?_of_mem hWallet) hValid generated

/-- The queued BUY order of the sample is matched, and its user's next order is
refused exactly when what is left does not pay for it. -/
theorem no_spurious_failure_sample :
    (∃ db', ((History.start Sample.start).calls Sample.newDecimal (Sample.calls.take 3)).db.call
      Sample.newDecimal ⟨.processOrder "buy", ⟨"", 0, "", 13⟩⟩ =
        .ok (.eventsStored true, db')) ∧
    (((History.start Sample.start).calls Sample.newDecimal (Sample.calls.take 3)).db.call
        Sample.newDecimal ⟨.createOrder "buyer" .buy "5" "5", ⟨"", 0, "", 13⟩⟩ =
          .error (.badRequest "Insufficient USD balance") ↔ 90 * one < 25 * one) := by
  have hClaim := @no_spurious_failure Sample.newDecimal Sample.start Sample.opening Sample.total_le
    (Sample.calls.take 3) ⟨"", 0, "", 13⟩
  constructor
  · exact (hClaim.1 ⟨"buy", 2, "buyer", .buy, .queued, 5 * one, 2 * one, 2 * one, 12⟩
      (Table.mem_def.mpr (by decide +kernel)) rfl).1
  · exact (hClaim.2.2 "buyer" .buy "5" "5" (5 * one) (5 * one)
      ⟨"buyer", 0, 0, 90 * one, 10 * one⟩ (Table.mem_def.mpr (by decide +kernel)) rfl
      (by decide +kernel)).1

end History
end ExchangeMatching
