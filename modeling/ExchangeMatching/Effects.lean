import ExchangeMatching.PriceTime

/-! What a committed call does to the orders and to the intents to match them,
in one case for each way to change an order. -/
namespace ExchangeMatching

open Transactions

namespace Database

/-- How a committed call changes orders and matching intents. -/
inductive Effect (db : Database) (invocation : Invocation) (db' : Database) : Prop where
  | created (order : Order) (id : order.id = invocation.generated.orderId)
      (fresh : db.orders.find? order.id = none) (queued : order.status = .queued)
      (orders : ∀ id, db'.orders.find? id = if id =
        order.id then some order else db.orders.find? id)
      (intents : db'.matchingOutbox.rows = db.matchingOutbox.rows ++
        [⟨invocation.generated.outboxId, order.id, 0, none, none, none, none,
          invocation.generated.now⟩])
      (notMatching : ∀ id, invocation.call ≠ .processOrder id)
  | closed (order : Order) (status : OrderStatus) (found : db.orders.find? order.id = some order)
      (active : order.status.isActive = true) (inactive : status.isActive = false)
      (orders : ∀ id, db'.orders.find? id =
        if id = order.id then some (order.revised order.remainingAmount status)
        else db.orders.find? id)
      (intents : db'.matchingOutbox = db.matchingOutbox)
      (notMatching : ∀ id, invocation.call ≠ .processOrder id)
  | skipped (id : OrderId)
      (call : invocation.call = .processOrder id ∧ db.orders.find? id ≠ none ∨
        invocation.call = .rejectOrderAfterFailedProcessing id)
      (notQueued : ∀ order, db.orders.find? id = some order → order.status ≠ .queued)
      (same : db' = db)
  | matched (taker : Order) (call : invocation.call = .processOrder taker.id)
      (found : db.orders.find? taker.id = some taker) (queued : taker.status = .queued)
      (matched : Reference.Matched db db' taker) (intents : db'.matchingOutbox = db.matchingOutbox)

variable {newDecimal : String → Option DecimalValue} {db db' : Database}

/-- When funds are released one order is revised, and the others stay as they are. -/
theorem orders_released {order : Order} {status : OrderStatus} {wallet : Wallet}
    {events : List RealtimeDispatchEvent} (hFound : db.orders.find? order.id = some order)
    (id : OrderId) :
    (db.released order status wallet events).orders.find? id =
      if id = order.id then some (order.revised order.remainingAmount status)
      else db.orders.find? id :=
  Market.find?_putOrder hFound

/-- Executed fills leave the matching intents. -/
theorem matchingOutbox_executed {taker : Order} {now : Nat} {fills : List (Order × Int)}
    {progress progress' : MatchingService.Progress}
    (h : MatchingService.Executed taker now fills progress db progress' db') :
    db'.matchingOutbox = db.matchingOutbox := by
  induction h with
  | nil => rfl
  | cons executable buyerFound sellerFound buyerFits sellerFits rest ih => exact ih

/-- A stored order comes with one intent, which has not been attempted. -/
theorem matchingOutbox_stored {generated : Generated} {wallet : Wallet} {order : Order}
    (hIntent : db.IsFreshIntent
      ⟨generated.outboxId, order.id, 0, none, none, none, none, generated.now⟩) :
    (OrdersService.stored generated db wallet order).matchingOutbox.rows =
      db.matchingOutbox.rows ++
        [⟨generated.outboxId, order.id, 0, none, none, none, none, generated.now⟩] :=
  congrArg Table.rows (@matchingOutbox_addIntent ((db.apply (.wallet (wallet.update
    (order.side.reserve order.reservation)))).apply (.newOrder order)) _ hIntent)

/-- A stored order is found under its id, and all others are found as before. -/
theorem orders_stored {generated : Generated} {wallet : Wallet} {order : Order}
    (hFresh : db.IsFresh order) (id : OrderId) :
    (OrdersService.stored generated db wallet order).orders.find? id =
      if id = order.id then some order else db.orders.find? id := by
  have hMarket : (OrdersService.stored generated db wallet order).toMarket =
      (db.putWallet (wallet.update (order.side.reserve order.reservation))).addOrder order := by
    simp only [OrdersService.stored, toMarket_apply_newEvents, toMarket_apply_newIntent,
      toMarket_apply_newOrder, toMarket_apply_wallet]
  rw [hMarket, Market.find?_addOrder (Market.isFresh_putWallet.mpr hFresh), Market.orders_putWallet]

/-- A committed transition has the effect that its invocation names. -/
theorem Transition.effect (hWell : db.WellFormed) {invocation : Invocation}
    (h : db.Transition newDecimal invocation db') : db.Effect invocation db' := by
  cases h with
  | created valid found fits fresh freshIntent =>
      exact .created _ rfl fresh.1 rfl (orders_stored fresh) (matchingOutbox_stored freshIntent)
        (fun id hEq => by cases hEq)
  | cancelled found owner active caller walletFound fits =>
      exact .closed _ .cancelled found active rfl (orders_released found) rfl
        (fun id hEq => by cases hEq)
  | @matched taker progress settled generated found queued executed =>
      have hIntents : settled.matchingOutbox = db.matchingOutbox := matchingOutbox_executed executed
      exact .matched _ rfl found queued (Reference.matched_of_executed hWell found queued executed)
        hIntents
  | rejected found queued walletFound fits =>
      exact .closed _ .rejected found (by rw [queued]; rfl) rfl (orders_released found) rfl
        (fun id hEq => by cases hEq)
  | skipped call notQueued => exact .skipped _ call notQueued rfl

/-- The same for a call that commits, since every such call is a transition. -/
theorem call_effect (hWell : db.WellFormed) {invocation : Invocation} {outcome : Outcome}
    (h : db.call newDecimal invocation = .ok (outcome, db')) : db.Effect invocation db' :=
  (call_transition hWell h).effect hWell

/-- Processing a queued order matches it, and leaves the intents. -/
theorem matched_of_processOrder (hWell : db.WellFormed) {taker : Order}
    (hFound : db.orders.find? taker.id = some taker) (hQueued : taker.status = .queued)
    {generated : Generated} {outcome : Outcome}
    (h : db.call newDecimal ⟨.processOrder taker.id, generated⟩ = .ok (outcome, db')) :
    Reference.Matched db db' taker ∧ db'.matchingOutbox = db.matchingOutbox := by
  cases call_effect hWell h with
  | created order id fresh queued orders intents notMatching => exact absurd rfl (notMatching _)
  | closed order status found active inactive orders intents notMatching =>
      exact absurd rfl (notMatching _)
  | skipped other call notQueued same =>
      rcases call with ⟨hCall, _⟩ | hCall
      · cases hCall
        exact absurd hQueued (notQueued taker hFound)
      · cases hCall
  | matched order call found queued matched intents =>
      have hSame : some order = some taker := by
        rw [← found, ← Call.processOrder.inj call, hFound]
      obtain rfl := Option.some.inj hSame
      exact ⟨matched, intents⟩

/-- For a queued order in a solvent market the call commits, and what it commits is
a match as the reference describes it. -/
theorem call_processOrder_matches (hWell : db.WellFormed) (hSolvent : db.Solvent) {taker : Order}
    (hFound : db.orders.find? taker.id = some taker) (hQueued : taker.status = .queued)
    (generated : Generated) :
    ∃ db', db.call newDecimal ⟨.processOrder taker.id, generated⟩ =
      .ok (.eventsStored true, db') ∧ Reference.Matched db db' taker := by
  obtain ⟨db', hCall⟩ := @call_processOrder_commits newDecimal _ hWell hSolvent _
    (Table.mem_of_find? hFound) hQueued generated
  exact ⟨db', hCall, (matched_of_processOrder hWell hFound hQueued hCall).1⟩

end Database
end ExchangeMatching
