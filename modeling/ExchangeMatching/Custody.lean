import ExchangeMatching.Effects

/-! Whose funds and orders a call can touch. Funds become bound by the owner's
own order and by nothing else; all other calls only give back what was bound. -/
namespace ExchangeMatching

open Transactions TradeSettlement MatchingOrderBook MatchingService

/-- The user has less available or more reserved. -/
def Wallet.Spends (wallet wallet' : Wallet) : Prop :=
  wallet'.availableBtc < wallet.availableBtc ∨ wallet'.availableUsd < wallet.availableUsd ∨
    wallet.reservedBtc < wallet'.reservedBtc ∨ wallet.reservedUsd < wallet'.reservedUsd

/-- An update that adds to no reserved balance and takes from no available one. -/
def BalanceUpdate.Frees (data : BalanceUpdate) : Prop :=
  ∀ side : OrderSide, 0 ≤ data.net side.available ∧ data.net side.reserved ≤ 0

/-- An update that frees funds spends none. -/
theorem Wallet.not_spends_update {data : BalanceUpdate} (h : data.Frees) (wallet : Wallet) :
    ¬wallet.Spends (wallet.update data) := by
  obtain ⟨hUsd, hReservedUsd⟩ := h .buy
  obtain ⟨hBtc, hReservedBtc⟩ := h .sell
  have hFields := fun field => wallet.get_update data field
  have hAvailableBtc := hFields .availableBtc
  have hAvailableUsd := hFields .availableUsd
  have hBoundBtc := hFields .reservedBtc
  have hBoundUsd := hFields .reservedUsd
  simp only [OrderSide.available, OrderSide.reserved] at hUsd hReservedUsd hBtc hReservedBtc
  simp only [Wallet.get] at hAvailableBtc hAvailableUsd hBoundBtc hBoundUsd
  unfold Spends
  omega

/-- Spending nothing twice is spending nothing. -/
theorem Wallet.not_spends_trans {wallet wallet' wallet'' : Wallet} (h : ¬wallet.Spends wallet')
    (hLater : ¬wallet'.Spends wallet'') : ¬wallet.Spends wallet'' := by
  unfold Spends at *
  omega

/-- A wallet that stays as it is spends nothing. -/
theorem Wallet.not_spends_self (wallet : Wallet) : ¬wallet.Spends wallet := by
  unfold Spends
  omega

/-- Releasing a reservation frees funds. -/
theorem OrderSide.frees_release (side : OrderSide) {amount : Int} (hAmount : 0 ≤ amount) :
    (side.release amount).Frees := by
  intro other
  cases side <;> cases other <;>
    simp [release, available, reserved, BalanceChange.signed, hAmount]

namespace Fill.Executable

variable {fill : Fill} (h : fill.Executable)
include h

/-- A buyer gives up reserved dollars and gains, also after the fee. -/
theorem frees_buyerUpdate : fill.buyerUpdate.Frees := by
  have hFee := h.buyerFee_bounds
  have hCovered := h.executed_le_debit
  have hPos := h.executed_pos
  intro side
  cases side <;>
    simp [buyerUpdate, OrderSide.available, OrderSide.reserved, BalanceChange.signed] <;> omega

/-- A seller gives up reserved bitcoin and gains in the same way. -/
theorem frees_sellerUpdate : fill.sellerUpdate.Frees := by
  have hFee := h.sellerFee_bounds
  have hPos := h.amount_pos
  intro side
  cases side <;>
    simp [sellerUpdate, OrderSide.available, OrderSide.reserved, BalanceChange.signed] <;> omega

end Fill.Executable

namespace Market

/-- Only some users' wallets change, and nobody spends. -/
structure Frees (users : UserId → Prop) (market market' : Market) : Prop where
  others : ∀ userId, ¬users userId → market'.wallets.find? userId = market.wallets.find? userId
  unspent : ∀ userId wallet, market.wallets.find? userId = some wallet →
    ∃ wallet', market'.wallets.find? userId = some wallet' ∧ ¬wallet.Spends wallet'

namespace Frees

variable {users : UserId → Prop} {market market' market'' : Market}

/-- What leaves all wallets as they are frees them trivially. -/
theorem of_wallets_eq (h : market'.wallets = market.wallets) : Frees users market market' where
  others userId _ := by rw [h]
  unspent userId wallet hFound := ⟨wallet, h ▸ hFound, wallet.not_spends_self⟩

/-- Freeing is transitive, wallet by wallet. -/
theorem trans (h : Frees users market market') (hLater : Frees users market' market'') :
    Frees users market market'' where
  others userId hOther := (hLater.others userId hOther).trans (h.others userId hOther)
  unspent userId wallet hFound := by
    obtain ⟨wallet', hMiddle, hFirst⟩ := h.unspent userId wallet hFound
    obtain ⟨wallet'', hLast, hSecond⟩ := hLater.unspent userId wallet' hMiddle
    exact ⟨wallet'', hLast, Wallet.not_spends_trans hFirst hSecond⟩

/-- More users may be named than are concerned. -/
theorem mono (users' : UserId → Prop) (h : Frees users market market')
    (hUsers : ∀ userId, users userId → users' userId) : Frees users' market market' where
  others userId hOther := h.others userId fun hUser => hOther (hUsers userId hUser)
  unspent := h.unspent

/-- An update that frees funds of one user. -/
theorem of_putWallet {wallet : Wallet} {userId : UserId} {data : BalanceUpdate}
    (hFound : market.wallets.find? userId = some wallet) (hData : data.Frees) :
    Frees (· = userId) market (market.putWallet (wallet.update data)) where
  others other hOther := by rw [find?_putWallet_update hFound, if_neg hOther]
  unspent other old hOld := by
    rw [find?_putWallet_update hFound]
    split_ifs with hUser
    · rw [hUser, hFound, Option.some.injEq] at hOld
      exact ⟨_, rfl, hOld ▸ wallet.not_spends_update hData⟩
    · exact ⟨old, hOld, old.not_spends_self⟩

/-- A fill frees funds of its two users. -/
theorem of_settle {fill : Fill} {buyer seller : Wallet} {now : Nat} (hExecutable : fill.Executable)
    (hBuyer : market.wallets.find? fill.buy.userId = some buyer)
    (hSeller : market.wallets.find? fill.sell.userId = some seller) :
    Frees (fun userId => userId = fill.buy.userId ∨ userId = fill.sell.userId) market
      (market.settle fill buyer seller now) := by
  have hSecond := @find?_seller_of_putWallet market fill buyer seller hExecutable.toCrossing hBuyer
    hSeller fill.buyerUpdate
  have hBuyerFrees := (of_putWallet hBuyer hExecutable.frees_buyerUpdate).mono
    (fun userId => userId = fill.buy.userId ∨ userId = fill.sell.userId) fun _ => Or.inl
  have hSellerFrees := (of_putWallet hSecond hExecutable.frees_sellerUpdate).mono
    (fun userId => userId = fill.buy.userId ∨ userId = fill.sell.userId) fun _ => Or.inr
  exact (hBuyerFrees.trans hSellerFrees).trans (of_wallets_eq rfl)

end Frees
end Market

namespace MatchingService

variable {taker : Order} {now : Nat} {fills : List (Order × Int)} {progress progress' : Progress}
  {db db' : Database}

/-- The two users of a fill are those of the taker and of the maker, whichever buys. -/
theorem Progress.users_fill (progress : Progress) (taker maker : Order) (amount : Int)
    (userId : UserId) : userId = (progress.fill taker maker amount).buy.userId ∨
        userId = (progress.fill taker maker amount).sell.userId ↔
      userId = taker.userId ∨ userId = maker.userId := by
  unfold Progress.fill Fill.ofTaker
  cases hSide : taker.side <;> simp only [Order.revised_side, hSide, Order.revised_userId]
  exact or_comm

/-- Fills free funds of their taker and of their makers. -/
theorem Executed.frees (h : Executed taker now fills progress db progress' db') :
    Market.Frees (fun userId => userId = taker.userId ∨ ∃ fill ∈ fills, userId = fill.1.userId)
      db.toMarket db'.toMarket := by
  induction h with
  | nil => exact .of_wallets_eq rfl
  | @cons maker amount fills progress progress' db db' buyer seller executable buyerFound
      sellerFound buyerFits sellerFits rest ih =>
      have hFill : Market.Frees _ db.toMarket
          (db.execute (progress.fill taker maker amount) buyer seller now).toMarket :=
        (@Market.Frees.of_settle _ _ _ _ now executable buyerFound sellerFound).trans
          (.of_wallets_eq rfl)
      refine (hFill.mono _ fun userId hUser => ?_).trans (ih.mono _ fun userId hUser => ?_)
      · exact ((progress.users_fill taker maker amount userId).mp hUser).imp_right fun hMaker =>
          ⟨_, List.mem_cons_self, hMaker⟩
      · exact hUser.imp_right fun ⟨fill, hFill, hMaker⟩ =>
          ⟨fill, List.mem_cons_of_mem _ hFill, hMaker⟩

end MatchingService

/-- The orders that an invocation may change, given the trades that it makes. -/
def Invocation.touched (invocation : Invocation) (trades : List Trade) (id : OrderId) : Prop :=
  match invocation.call with
  | .createOrder _ _ _ _ => id = invocation.generated.orderId
  | .cancelOrder _ orderId | .rejectOrderAfterFailedProcessing orderId => id = orderId
  | .processOrder orderId => id = orderId ∨ ∃ trade ∈ trades, trade.makerOrderId = id

namespace Database

variable {newDecimal : String → Option DecimalValue} {db db' : Database} {invocation : Invocation}

/-- Only some orders and the wallets of their owners change. -/
structure Touches (db db' : Database) (ids : OrderId → Prop) : Prop where
  orders : ∀ id, ¬ids id → db'.orders.find? id = db.orders.find? id
  wallets : ∀ userId, (∀ id order, ids id →
      db.orders.find? id = some order ∨
      db'.orders.find? id = some order → order.userId ≠ userId) →
    db'.wallets.find? userId = db.wallets.find? userId

/-- More orders may be named than are touched. -/
theorem Touches.mono {ids ids' : OrderId → Prop} (h : db.Touches db' ids)
    (hIds : ∀ id, ids id → ids' id) : db.Touches db' ids' where
  orders id hOther := h.orders id fun hId => hOther (hIds id hId)
  wallets userId hOther := h.wallets userId fun id order hId => hOther id order (hIds id hId)

/-- Doing nothing touches nothing. -/
theorem Touches.refl (db : Database) (ids : OrderId → Prop) : db.Touches db ids :=
  ⟨fun _ _ => rfl, fun _ _ => rfl⟩

/-- A stored order reserves funds in the wallet of its user and in no other. -/
theorem wallets_stored {generated : Generated} {wallet : Wallet} {order : Order}
    (hWallet : db.wallets.find? order.userId = some wallet) {userId : UserId} :
    (OrdersService.stored generated db wallet order).wallets.find? userId =
      if userId = order.userId then some (wallet.update (order.side.reserve order.reservation))
      else db.wallets.find? userId := by
  simp only [OrdersService.stored, toMarket_apply_newEvents, toMarket_apply_newIntent,
    toMarket_apply_newOrder, toMarket_apply_wallet, Market.wallets_addOrder]
  exact Market.find?_putWallet_update hWallet

/-- No trade is made when an order is stored. -/
theorem trades_stored {generated : Generated} {wallet : Wallet} {order : Order} :
    (OrdersService.stored generated db wallet order).trades = db.trades := by
  simp only [OrdersService.stored, toMarket_apply_newEvents, toMarket_apply_newIntent,
    toMarket_apply_newOrder, toMarket_apply_wallet, Market.trades_addOrder, Market.trades_putWallet]

/-- So a new order touches itself and its user's wallet. -/
theorem touches_stored {generated : Generated} {wallet : Wallet} {order : Order}
    (hFresh : db.IsFresh order) (hWallet : db.wallets.find? order.userId = some wallet) :
    db.Touches (OrdersService.stored generated db wallet order) (· = order.id) where
  orders id hOther := (orders_stored hFresh id).trans (if_neg hOther)
  wallets userId hOther := by
    have hStored := @orders_stored db generated wallet order hFresh order.id
    rw [if_pos rfl] at hStored
    exact (wallets_stored hWallet).trans (if_neg (hOther order.id order rfl (Or.inr hStored)).symm)

/-- An order that is closed touches itself and its user's wallet. -/
theorem touches_released {order : Order} {status : OrderStatus} {wallet : Wallet}
    {events : List RealtimeDispatchEvent} (hFound : db.orders.find? order.id = some order)
    (hWallet : db.wallets.find? order.userId = some wallet) :
    db.Touches (db.released order status wallet events) (· = order.id) where
  orders id hOther := (Market.find?_putOrder hFound).trans (if_neg hOther)
  wallets userId hOther := by
    have hUpdate := @Market.find?_putWallet_update db.toMarket wallet order.userId userId
      (order.side.release order.reservation) hWallet
    exact hUpdate.trans (if_neg (hOther order.id order rfl (Or.inl hFound)).symm)

section Matched

variable {taker : Order} {progress : Progress} {settled : Database} {now : Nat}

/-- Settlement touches the taker and the makers of its fills. -/
theorem touches_finish (hWell : db.WellFormed) (hFound : db.orders.find? taker.id = some taker)
    (hQueued : taker.status = .queued)
    (hExecuted : Executed taker now
      (plan taker.remainingAmount (candidates db.orders.rows taker none)) (Progress.start taker) db
      progress settled) :
    db.Touches (progress.finish taker (candidates db.orders.rows taker none) settled) fun id =>
      id = taker.id ∨ ∃ fill ∈ plan taker.remainingAmount (candidates db.orders.rows taker none),
        fill.1.id = id := by
  have hSettling := Settling.candidates hWell hFound hQueued (List.prefix_refl _)
  refine ⟨fun id hOther => ?_, fun userId hOther => hExecuted.frees.others userId fun hUser => ?_⟩
  · rw [not_or] at hOther
    have hNone : (plan taker.remainingAmount (candidates db.orders.rows taker none)).find?
        (·.1.id = id) = none :=
      List.find?_eq_none.mpr fun fill hFill hKey => hOther.2 ⟨fill, hFill, of_decide_eq_true hKey⟩
    rw [orders_finish hWell hFound hQueued hExecuted, if_neg hOther.1, hNone]
  · rcases hUser with hTaker | ⟨fill, hFill, hMaker⟩
    · exact hOther taker.id taker (Or.inl rfl) (Or.inl hFound) hTaker.symm
    · exact hOther fill.1.id fill.1 (Or.inr ⟨fill, hFill, rfl⟩)
        (Or.inl (hSettling.plan_found taker.remainingAmount fill hFill)) hMaker.symm

end Matched

/-- And its user gets back what it had reserved. -/
theorem frees_released (hWell : db.WellFormed) {order : Order} {status : OrderStatus}
    {wallet : Wallet} {events : List RealtimeDispatchEvent}
    (hFound : db.orders.find? order.id = some order)
    (hWallet : db.wallets.find? order.userId = some wallet) :
    Market.Frees (· = order.userId) db.toMarket
      (db.released order status wallet events).toMarket := by
  have hSound := hWell.orders order (Table.mem_of_find? hFound)
  have hRelease := order.side.frees_release
    (order.side.reservation_nonneg hSound.remaining_nonneg hSound.price_pos.le)
  have hUpdate : (db.putOrder order.id order.remainingAmount status).wallets.find? order.userId =
      some wallet := hWallet
  have hOrder : Market.Frees (· = order.userId) db.toMarket
      (db.putOrder order.id order.remainingAmount status) := .of_wallets_eq rfl
  exact hOrder.trans (.of_putWallet hUpdate hRelease)

/-- A committed call binds funds only if it creates an order of their owner. -/
theorem Transition.unspent (hWell : db.WellFormed) (h : db.Transition newDecimal invocation db')
    {userId : UserId} {wallet : Wallet} (hFound : db.wallets.find? userId = some wallet) :
    ∃ wallet', db'.wallets.find? userId = some wallet' ∧ (wallet.Spends wallet' →
      ∃ side amountInput priceInput, invocation.call =
        .createOrder userId side amountInput priceInput) := by
  have hFree : ∀ users : UserId → Prop, Market.Frees users db.toMarket db'.toMarket →
      ∃ wallet', db'.wallets.find? userId = some wallet' ∧ (wallet.Spends wallet' →
        ∃ side amountInput priceInput, invocation.call =
          .createOrder userId side amountInput priceInput) := by
    intro users hFrees
    obtain ⟨wallet', hLater, hUnspent⟩ := hFrees.unspent userId wallet hFound
    exact ⟨wallet', hLater, fun hSpends => absurd hSpends hUnspent⟩
  cases h with
  | @created owner side amountInput priceInput amount price generated old valid found fits fresh
    freshIntent =>
      rw [wallets_stored found]
      split_ifs with hUser
      · exact ⟨_, rfl, fun _ => ⟨side, amountInput, priceInput, by rw [hUser]; rfl⟩⟩
      · exact ⟨wallet, hFound, fun hSpends => absurd hSpends wallet.not_spends_self⟩
  | cancelled found owner active caller walletFound fits =>
      exact hFree _ (frees_released hWell found walletFound)
  | matched found queued executed => exact hFree _ (executed.frees.trans (.of_wallets_eq rfl))
  | rejected found queued walletFound fits => exact hFree _ (frees_released hWell found walletFound)
  | skipped call notQueued => exact hFree (fun _ => False) (.of_wallets_eq rfl)

/-- A committed call touches the orders that it names and the makers of its trades. -/
theorem Transition.touches (hWell : db.WellFormed) (h : db.Transition newDecimal invocation db') :
    ∃ trades, db'.trades = db.trades ++ trades ∧ db.Touches db' (invocation.touched trades) ∧
      ((∀ orderId, invocation.call ≠ .processOrder orderId) → trades = []) := by
  cases h with
  | created valid found fits fresh freshIntent =>
      refine ⟨[], by rw [trades_stored, List.append_nil], touches_stored fresh found, fun _ => rfl⟩
  | cancelled found owner active caller walletFound fits =>
      exact ⟨[], (List.append_nil _).symm, touches_released found walletFound, fun _ => rfl⟩
  | matched found queued executed =>
      obtain ⟨trades, hTrades, hMakers, _⟩ := executed.recorded
      refine ⟨trades, hTrades, (touches_finish hWell found queued executed).mono fun id => ?_,
        fun hOther => absurd rfl (hOther _)⟩
      refine Or.imp_right fun ⟨fill, hFill, hId⟩ => ?_
      have hMem : fill.1.id ∈ trades.map (·.makerOrderId) :=
        hMakers ▸ List.mem_map.mpr ⟨fill, hFill, rfl⟩
      obtain ⟨trade, hTrade, hMaker⟩ := List.mem_map.mp hMem
      exact ⟨trade, hTrade, hMaker.trans hId⟩
  | rejected found queued walletFound fits =>
      exact ⟨[], (List.append_nil _).symm, touches_released found walletFound, fun _ => rfl⟩
  | skipped call notQueued => exact ⟨[], (List.append_nil _).symm, .refl _ _, fun _ => rfl⟩

/-- Only the owner of an order can cancel it. An empty id, which no user has,
is not compared with the owner. -/
theorem Transition.owner (h : db.Transition newDecimal invocation db') {userId : UserId}
    {orderId : OrderId} (hUser : userId ≠ "")
    (hCall : invocation.call = .cancelOrder userId orderId) :
    ∃ order, db.orders.find? orderId = some order ∧ order.userId = userId := by
  cases h with
  | @cancelled caller order wallet generated found owner active callerFound walletFound fits =>
      cases hCall
      exact ⟨order, found, owner hUser⟩
  | created | matched | rejected => cases hCall
  | skipped call notQueued =>
      rw [hCall] at call
      rcases call with ⟨hProcess, _⟩ | hReject
      · cases hProcess
      · cases hReject

end Database

namespace History

variable {newDecimal : String → Option DecimalValue} {start : Database}

/-- In every reachable state nobody else can spend a user's funds. -/
theorem funds_protected (hOpening : start.Opening) (invocations : List Invocation)
    (invocation : Invocation) {db : Database}
    (hReachable : ((History.start start).calls newDecimal invocations).db = db) :
    (∀ outcome db', db.call newDecimal invocation = .ok (outcome, db') →
      (∀ userId wallet, db.wallets.find? userId = some wallet →
        ∃ wallet', db'.wallets.find? userId = some wallet' ∧ (wallet.Spends wallet' →
          ∃ side amountInput priceInput,
            invocation.call = .createOrder userId side amountInput priceInput)) ∧
      ∃ trades, db'.trades = db.trades ++ trades ∧ db.Touches db' (invocation.touched trades) ∧
        ((∀ orderId, invocation.call ≠ .processOrder orderId) → trades = [])) ∧
    ∀ userId orderId, userId ≠ "" → invocation.call = .cancelOrder userId orderId →
      (∀ order, db.orders.find? orderId = some order → order.userId ≠ userId) →
      ((History.start start).calls newDecimal invocations).call newDecimal invocation =
        (History.start start).calls newDecimal invocations := by
  have hWell := (@exact_of_opening newDecimal start hOpening invocations).1
  rw [hReachable] at hWell
  refine ⟨fun outcome db' hCall => ?_, fun userId orderId hUser hCancel hOthers => ?_⟩
  · have hTransition := Database.call_transition hWell hCall
    exact ⟨fun userId wallet => hTransition.unspent hWell, hTransition.touches hWell⟩
  · unfold History.call
    rw [hReachable]
    split
    · next hCall =>
      obtain ⟨order, hFound, hOwner⟩ := (Database.call_transition hWell hCall).owner hUser hCancel
      exact absurd hOwner (hOthers order hFound)
    · rfl

/-- Nobody but the seller can cancel the SELL order of the sample. -/
theorem funds_protected_sample :
    ((History.start Sample.start).calls Sample.newDecimal (Sample.calls.take 2)).call
      Sample.newDecimal
        ⟨.cancelOrder "buyer" "sell", ⟨"", 0, "", 12⟩⟩ =
      (History.start Sample.start).calls Sample.newDecimal (Sample.calls.take 2) := by
  refine (@funds_protected Sample.newDecimal Sample.start Sample.opening (Sample.calls.take 2)
    ⟨.cancelOrder "buyer" "sell", ⟨"", 0, "", 12⟩⟩ _ rfl).2 "buyer" "sell" (by decide) rfl ?_
  intro order hFound
  have hSeller :
      (((History.start Sample.start).calls Sample.newDecimal (Sample.calls.take 2)).db.orders.find?
      "sell").map Order.userId = some "seller" := by decide +kernel
  rw [hFound] at hSeller
  exact fun hBuyer => by simp [hBuyer] at hSeller

end History
end ExchangeMatching
