import ExchangeMatching.Exchange

/-! What each call does when it commits, and exactly when it does. -/
namespace ExchangeMatching

open Transactions

variable {newDecimal : String → Option DecimalValue} {generated : Generated} {db : Database}

namespace Database

/-- What a write means for the market, the part of the database that balances and
orders are in. -/
@[simp] theorem toMarket_apply_wallet (row : Wallet) :
    (db.apply (.wallet row)).toMarket = db.toMarket.putWallet row := rfl

@[simp] theorem toMarket_apply_order (id : OrderId) (remaining : Int) (status : OrderStatus) :
    (db.apply (.order id remaining status)).toMarket = db.toMarket.putOrder id remaining status :=
      rfl

@[simp] theorem toMarket_apply_newOrder (row : Order) :
    (db.apply (.newOrder row)).toMarket = db.toMarket.addOrder row := rfl

@[simp] theorem toMarket_apply_newTrade (row : Trade) :
    (db.apply (.newTrade row)).toMarket = db.toMarket.addTrade row := rfl

@[simp] theorem toMarket_apply_newIntent (row : OrderMatchingOutbox) :
    (db.apply (.newIntent row)).toMarket = db.toMarket := by
  simp only [apply, addIntent]
  split_ifs <;> rfl

/-- A fresh intent is inserted into the outbox as it is. -/
theorem matchingOutbox_addIntent {row : OrderMatchingOutbox} (h : db.IsFreshIntent row) :
    (db.addIntent row).matchingOutbox = db.matchingOutbox.insert row h.1 := by
  rw [addIntent, dif_pos h]

/-- Events are outside the market. -/
@[simp] theorem toMarket_apply_newEvents (events : List RealtimeDispatchEvent) :
    (db.apply (.newEvents events)).toMarket = db.toMarket := rfl

@[simp] theorem findOrder_none {id : OrderId} : db.findOrder id none = db.orders.find? id := by
  unfold findOrder
  cases db.orders.find? id <;> rfl

/-- A lookup for a user finds an order of that user only. -/
theorem findOrder_eq_some {id : OrderId} {userId : Option UserId} {order : Order} :
    db.findOrder id userId = some order ↔
      db.orders.find? id = some order ∧ ∀ owner ∈ userId, order.userId = owner := by
  rw [findOrder, Option.filter_eq_some_iff]
  cases userId <;> simp

end Database

/-- Appending events always succeeds and adds exactly the given ones. -/
@[simp] theorem run_appendEvents {Result : Type} {event : RealtimeDispatchEvent}
    {events : List RealtimeDispatchEvent} {next : Unit → Transaction Result} :
    engine.run generated (RealtimeOutboxService.appendEvents (event :: events) >>= next) db =
      engine.run generated (next ()) (db.apply (.newEvents (event :: events))) := rfl

/-- Alone, a transaction loads what is stored; an empty user id is no filter, as it
is no truthy value. -/
@[simp] theorem run_lockAndLoadOrder {Result : Type} {id : OrderId} {userId : Option UserId}
    {next : Option Order → Transaction Result} :
    engine.run generated (OrdersRepository.lockAndLoadOrder id userId >>= next) db =
      engine.run generated (next (db.findOrder id (userId.filter (· ≠ "")))) db := by
  unfold OrdersRepository.lockAndLoadOrder
  simp only [Program.perform_bind, Program.issue_bind, run_lockOrder]
  cases hFound : db.findOrder id (userId.filter (· ≠ "")) with
  | none => rfl
  | some order =>
      simp only [Option.isSome_some, if_true, Program.perform_bind, run_findOrder, hFound]

/-- Close an active order and release its funds. -/
theorem run_closeOrder_eq_ok {Result : Type} {order : Order} {status : OrderStatus}
    {next : Order → Transaction Result} {out : Result × Database} (hWell : db.WellFormed)
    (hFound : db.orders.find? order.id = some order)
    (hAllowed : status = .cancelled ∧ order.status.isActive = true ∨
      status = .rejected ∧ order.status = .queued) :
    engine.run generated (do
        let updated ← Program.perform (.updateOrder order.id ⟨none, status⟩)
        WalletsService.releaseFunds order
        next updated) db = .ok out ↔
      ∃ wallet, db.wallets.find? order.userId = some wallet ∧
        (order.side.release order.reservation).Fits wallet ∧
        engine.run generated (next (order.revised order.remainingAmount status))
          ((db.apply (.order order.id order.remainingAmount status)).apply
            (.wallet (wallet.update (order.side.release order.reservation)))) = .ok out := by
  have hSound := hWell.orders order (Table.mem_of_find? hFound)
  have hRange : (db.apply (.order order.id order.remainingAmount status)).WalletsInRange :=
    hWell.wallets
  rw [Program.perform_bind, run_updateOrder_eq_ok]
  constructor
  · rintro ⟨row, hRow, _, hRun⟩
    rw [hFound] at hRow
    cases hRow
    obtain ⟨_, _, hRelease, hNext⟩ := Engine.run_bind_eq_ok.mp hRun
    obtain ⟨wallet, hWallet, hFits, hPair⟩ :=
      (run_releaseFunds_eq_ok hRange hSound.remaining_nonneg hSound.price_pos.le).mp hRelease
    cases hPair
    exact ⟨wallet, hWallet, hFits, hNext⟩
  · rintro ⟨wallet, hWallet, hFits, hRun⟩
    exact ⟨order, hFound, (hSound.closed hAllowed).toValid, Engine.run_bind_eq_ok.mpr ⟨_, _,
      (run_releaseFunds_eq_ok hRange hSound.remaining_nonneg hSound.price_pos.le).mpr
        ⟨wallet, hWallet, hFits, rfl⟩, hRun⟩⟩

/-- The database after an order is closed and its funds are released. -/
def Database.released (db : Database) (order : Order) (status : OrderStatus) (wallet : Wallet)
    (events : List RealtimeDispatchEvent) : Database :=
  ((db.apply (.order order.id order.remainingAmount status)).apply
    (.wallet (wallet.update (order.side.release order.reservation)))).apply (.newEvents events)

namespace OrdersService

/-- A validated order is stored exactly, within the columns, and costs at
least one unit. -/
theorem validateOrder_eq_ok {amountInput priceInput : String} {amount price : Int}
    (h : validateOrder newDecimal amountInput priceInput = .ok (amount, price)) :
    (0 < amount ∧ amount ≤ decimalMax) ∧ (0 < price ∧ price ≤ decimalMax) ∧
      0 < cost amount price ∧ cost amount price ≤ decimalMax := by
  simp only [validateOrder, bind_eq_ok] at h
  obtain ⟨parsedAmount, hAmount, parsedPrice, hPrice, _, hCost, hPair⟩ := h
  cases hPair
  have hAmountBounds := parsePositiveDecimalInput_eq_ok hAmount
  have hPriceBounds := parsePositiveDecimalInput_eq_ok hPrice
  exact ⟨hAmountBounds, hPriceBounds,
    ((assertPositiveOrderCost_eq_ok hAmountBounds.1.le hPriceBounds.1.le).mp hCost).2⟩

/-- The row of a validated order. -/
theorem newOrder_sound {amountInput priceInput : String} {userId : UserId} {side : OrderSide}
    {amount price : Int}
    (h : validateOrder newDecimal amountInput priceInput = .ok (amount, price)) :
    (newOrder generated userId side amount price).Sound := by
  obtain ⟨hAmount, hPrice, hCost, hMax⟩ := validateOrder_eq_ok h
  have hRow : (newOrder generated userId side amount price).Valid :=
    ⟨hPrice.1, hPrice.2, hAmount.1, hAmount.2, hAmount.1.le, le_refl _,
      Order.statusConsistent_iff.mpr rfl⟩
  exact ⟨hRow, hCost, hMax⟩

/-- The database after a creation. -/
def stored (generated : Generated) (db : Database) (wallet : Wallet) (order : Order) : Database :=
  (((db.apply (.wallet (wallet.update (order.side.reserve order.reservation)))).apply
    (.newOrder order)).apply
    (.newIntent ⟨generated.outboxId, order.id, 0, none, none, none, none, generated.now⟩)).apply
    (.newEvents [.accountChanged .orderCreated order.userId order.id none])

/-- An order with valid numbers is stored exactly if its user has a wallet with the
funds and its row is valid and fresh. -/
theorem run_storeOrder_eq_ok {userId : UserId} {side : OrderSide} {amount price : Int}
    {out : Order × Database} (hRange : db.WalletsInRange) (hAmount : 0 ≤ amount)
    (hPrice : 0 ≤ price) : engine.run generated (storeOrder userId side amount price) db = .ok out ↔
      ∃ wallet, db.wallets.find? userId = some wallet ∧
        (side.reserve (side.reservation amount price)).Fits wallet ∧
        (newOrder generated userId side amount price).Valid ∧
        db.IsFresh (newOrder generated userId side amount price) ∧
        db.IsFreshIntent ⟨generated.outboxId, generated.orderId, 0, none, none, none, none,
          generated.now⟩ ∧
        out = (newOrder generated userId side amount price,
          stored generated db wallet (newOrder generated userId side amount price)) := by
  have hRest : ∀ state : Database, engine.run generated (do
        let order ← OrdersRepository.createOrder userId side amount price
        OrderMatchingOutboxService.appendOrder order.id
        RealtimeOutboxService.appendEvent (.accountChanged .orderCreated userId order.id none)
        return order) state = .ok out ↔
      (newOrder generated userId side amount price).Valid ∧
        state.IsFresh (newOrder generated userId side amount price) ∧
        state.IsFreshIntent ⟨generated.outboxId, generated.orderId, 0, none, none, none, none,
          generated.now⟩ ∧
        out = (newOrder generated userId side amount price,
          ((state.apply (.newOrder (newOrder generated userId side amount price))).apply
            (.newIntent ⟨generated.outboxId, generated.orderId, 0, none, none, none, none,
              generated.now⟩)).apply
            (.newEvents [.accountChanged .orderCreated userId generated.orderId none])) := by
    intro state
    simp only [OrdersRepository.createOrder, OrderMatchingOutboxService.appendOrder,
      Program.perform_bind, run_createOrder_eq_ok, run_createMatchingIntent_eq_ok,
      RealtimeOutboxService.appendEvent, run_appendEvents, Engine.run_pure, Except.ok.injEq]
    exact ⟨fun ⟨hValid, hFresh, hIntent, hOut⟩ => ⟨hValid, hFresh, hIntent, hOut.symm⟩,
      fun ⟨hValid, hFresh, hIntent, hOut⟩ => ⟨hValid, hFresh, hIntent, hOut.symm⟩⟩
  unfold storeOrder WalletsService.findByUserId WalletsRepository.findByUserId
  rw [Program.perform_bind, run_findWallet]
  cases hWallet : db.wallets.find? userId with
  | none => simp
  | some wallet =>
      have hKey := Table.key_of_find? hWallet
      dsimp only
      rw [Engine.run_bind_eq_ok]
      constructor
      · rintro ⟨_, _, hReserve, hStore⟩
        obtain ⟨row, hRow, hFits, hPair⟩ :=
          (run_reserveFunds_eq_ok hRange hAmount hPrice).mp hReserve
        cases hPair
        rw [hKey, hWallet] at hRow
        cases hRow
        obtain ⟨hValid, hFresh, hIntent, rfl⟩ := (hRest _).mp hStore
        exact ⟨wallet, rfl, hFits, hValid, hFresh, hIntent, rfl⟩
      · rintro ⟨row, hRow, hFits, hValid, hFresh, hIntent, rfl⟩
        cases hRow
        exact ⟨_, _, (run_reserveFunds_eq_ok hRange hAmount hPrice).mpr
            ⟨wallet, by rw [hKey, hWallet], hFits, rfl⟩,
          (hRest _).mpr ⟨hValid, hFresh, hIntent, rfl⟩⟩

/-- A cancellation succeeds exactly for an active order of the user whose funds can
be released. -/
theorem run_cancelOrder_eq_ok {userId : UserId} {orderId : OrderId} {out : Order × Database}
    (hWell : db.WellFormed) :
    engine.run generated (cancelOrder userId orderId) db = .ok out ↔
      ∃ order wallet, db.findOrder orderId ((some userId).filter (· ≠ "")) = some order ∧
        order.status.isActive = true ∧ (db.wallets.find? userId).isSome = true ∧
        db.wallets.find? order.userId = some wallet ∧
        (order.side.release order.reservation).Fits wallet ∧
        out = (order.revised order.remainingAmount .cancelled,
          db.released order .cancelled wallet [.marketChanged .orderCancelled orderId none,
            .accountChanged (.market .orderCancelled) userId orderId none]) := by
  unfold cancelOrder
  rw [run_lockAndLoadOrder]
  cases hOrder : db.findOrder orderId ((some userId).filter (· ≠ "")) with
  | none => simp
  | some order =>
      obtain ⟨hFound, _⟩ := Database.findOrder_eq_some.mp hOrder
      obtain rfl := Table.key_of_find? hFound
      dsimp only
      by_cases hActive : order.status.isActive = true
      · simp only [hActive, if_true, WalletsService.findByUserId, WalletsRepository.findByUserId,
          Program.perform_bind, run_findWallet]
        cases hWallet : db.wallets.find? userId with
        | none => simp
        | some _ =>
            dsimp only
            rw [OrdersRepository.cancelOrder,
              run_closeOrder_eq_ok hWell hFound (Or.inl ⟨rfl, hActive⟩)]
            simp only [run_appendEvents, Engine.run_pure, Except.ok.injEq]
            constructor
            · rintro ⟨wallet, hOwner, hFits, rfl⟩
              exact ⟨order, wallet, rfl, hActive, rfl, hOwner, hFits, rfl⟩
            · rintro ⟨_, wallet, hOrder, _, _, hOwner, hFits, rfl⟩
              cases hOrder
              exact ⟨wallet, hOwner, hFits, rfl⟩
      · simp [hActive]

end OrdersService

namespace MatchingService

/-- A rejection does nothing unless the order is still queued, and releases its
funds if it is. -/
theorem run_rejectOrder_eq_ok {orderId : OrderId} {out : Bool × Database} (hWell : db.WellFormed) :
    engine.run generated (rejectOrderAfterFailedProcessing orderId) db = .ok out ↔
      ((∀ order, db.orders.find? orderId = some order → order.status ≠ .queued) ∧
        out = (false, db)) ∨
      ∃ order wallet, db.orders.find? orderId = some order ∧ order.status = .queued ∧
        db.wallets.find? order.userId = some wallet ∧
        (order.side.release order.reservation).Fits wallet ∧
        out = (true, db.released order .rejected wallet
          [.accountChanged .orderRejected order.userId order.id none]) := by
  unfold rejectOrderAfterFailedProcessing lockMarket
  rw [Program.perform_bind, run_lockMarket, run_lockAndLoadOrder]
  simp only [Option.filter_none, Database.findOrder_none]
  cases hFound : db.orders.find? orderId with
  | none => simp [eq_comm]
  | some order =>
      obtain rfl := Table.key_of_find? hFound
      dsimp only
      by_cases hQueued : order.status = .queued
      · simp only [hQueued, ne_eq, not_true_eq_false, if_false]
        rw [run_closeOrder_eq_ok hWell hFound (Or.inr ⟨rfl, hQueued⟩)]
        simp only [RealtimeOutboxService.appendEvent, run_appendEvents, Engine.run_pure,
          Except.ok.injEq]
        constructor
        · rintro ⟨wallet, hOwner, hFits, rfl⟩
          exact Or.inr ⟨order, wallet, rfl, hQueued, hOwner, hFits, rfl⟩
        · rintro (⟨hNone, _⟩ | ⟨_, wallet, hOrder, _, hOwner, hFits, rfl⟩)
          · exact absurd hQueued (hNone order rfl)
          · cases hOrder
            exact ⟨wallet, hOwner, hFits, rfl⟩
      · simp only [hQueued, ne_eq, not_false_eq_true, if_true, Engine.run_pure, Except.ok.injEq]
        constructor
        · rintro rfl
          exact Or.inl ⟨fun other hOther => Option.some.inj hOther ▸ hQueued, rfl⟩
        · rintro (⟨_, rfl⟩ | ⟨_, _, hOrder, hStatus, _⟩)
          · rfl
          · cases hOrder
            exact absurd hStatus hQueued

end MatchingService
end ExchangeMatching
