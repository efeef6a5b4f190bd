import ExchangeMatching.Custody

/-! What a call tells the clients. Every user of whom it changed something gets
one event, and nobody else does. -/
namespace ExchangeMatching

open Transactions MatchingOrderBook MatchingService

namespace RealtimeDispatchEvent

/-- An `account.changed` event of the user. -/
def notifies (userId : UserId) : RealtimeDispatchEvent → Bool
  | .marketChanged _ _ _ => false
  | .accountChanged _ user _ _ => user = userId

/-- A `market.changed` event. -/
def isMarketChanged : RealtimeDispatchEvent → Bool
  | .marketChanged _ _ _ => true
  | .accountChanged _ _ _ _ => false

/-- The reason is `trade-executed`. -/
def reportsTrades : RealtimeDispatchEvent → Bool
  | .marketChanged reason _ _ => reason = .tradeExecuted
  | .accountChanged reason _ _ _ => reason = .market .tradeExecuted

def tradeIds : RealtimeDispatchEvent → Option (List TradeId)
  | .marketChanged _ _ tradeIds => tradeIds
  | .accountChanged _ _ _ tradeIds => tradeIds

/-- Each of some users gets one event. -/
theorem length_filter_notifies {users : List UserId} (hUsers : users.Nodup)
    (reason : AccountChangeReason)
    (orderId : OrderId) (trades : Option (List TradeId)) (userId : UserId) :
    ((users.map fun user => accountChanged reason user orderId trades).filter
      (·.notifies userId)).length = if userId ∈ users then 1 else 0 := by
  rw [List.filter_map, List.length_map]
  split_ifs with hUser
  · rw [← List.count_eq_one_of_mem hUsers hUser, List.count_eq_length_filter]
    rfl
  · rw [List.length_eq_zero_iff, List.filter_eq_nil_iff]
    intro user hMem hNotified
    exact hUser (of_decide_eq_true hNotified ▸ hMem)

end RealtimeDispatchEvent

namespace MatchingService

theorem mem_addUser {userIds : List UserId} {user userId : UserId} :
    userId ∈ addUser userIds user ↔ userId ∈ userIds ∨ userId = user := by
  unfold addUser
  split_ifs with hUser
  · exact ⟨Or.inl, fun h => h.elim id fun hEq => hEq ▸ hUser⟩
  · rw [List.mem_append, List.mem_singleton]

theorem nodup_addUser {userIds : List UserId} (h : userIds.Nodup) (user : UserId) :
    (addUser userIds user).Nodup := by
  unfold addUser
  split_ifs with hUser
  · exact h
  · exact List.nodup_append.mpr
      ⟨h, List.nodup_singleton user, fun first hFirst second hSecond hEq =>
      hUser (List.mem_singleton.mp hSecond ▸ hEq ▸ hFirst)⟩

/-- The loop collects the taker's user and the users of its makers, each once. -/
theorem affectedUsers (userIds : List UserId) (fills : List (Order × Int)) (h : userIds.Nodup) :
    (fills.foldl (fun userIds fill => addUser userIds fill.1.userId) userIds).Nodup ∧
      ∀ userId, userId ∈ fills.foldl (fun userIds fill => addUser userIds fill.1.userId) userIds ↔
        userId ∈ userIds ∨ ∃ fill ∈ fills, fill.1.userId = userId := by
  induction fills generalizing userIds with
  | nil => exact ⟨h, fun userId => by simp⟩
  | cons fill fills ih =>
      obtain ⟨hNodup, hMem⟩ := ih (addUser userIds fill.1.userId) (nodup_addUser h fill.1.userId)
      refine ⟨hNodup, fun userId => ?_⟩
      rw [List.foldl_cons, hMem, mem_addUser, or_assoc, @eq_comm _ userId]
      simp only [List.mem_cons, exists_eq_or_imp]

end MatchingService

namespace Database

variable {newDecimal : String → Option DecimalValue} {db db' : Database} {invocation : Invocation}

/-- The wallet of the user or one of the user's orders is different. -/
def Changed (db db' : Database) (userId : UserId) : Prop :=
  db'.wallets.find? userId ≠ db.wallets.find? userId ∨
    ∃ id order, db'.orders.find? id ≠ db.orders.find? id ∧
      (db.orders.find? id = some order ∨ db'.orders.find? id = some order) ∧ order.userId = userId

/-- What is left of an order that rests in the book. -/
def resting (db : Database) (id : OrderId) : Option Int :=
  ((db.orders.find? id).filter (·.status.isResting)).map Order.remainingAmount

/-- The events report a change of the database completely and to nobody else. -/
structure Reports (db db' : Database) (events : List RealtimeDispatchEvent) : Prop where
  inserted : db'.realtimeOutbox = db.realtimeOutbox ++ events
  changed : ∀ userId, db.Changed db' userId → (events.filter (·.notifies userId)).length = 1
  unchanged : ∀ userId, ¬db.Changed db' userId →
    ∀ event ∈ events, event.notifies userId = false
  market : (∃ id, db'.resting id ≠ db.resting id) ∨ db'.trades ≠ db.trades →
    ∃ event ∈ events, event.isMarketChanged = true
  trades : ∀ trades, db'.trades = db.trades ++ trades → ∀ event ∈ events,
    event.reportsTrades = true → event.tradeIds = some (trades.map Trade.id)
  quiet : (∀ id, db'.orders.find? id = db.orders.find? id) →
    (∀ userId, db'.wallets.find? userId = db.wallets.find? userId) → events = []

/-- The users of whom something changed are the owners of the touched orders,
if each of these did change. -/
theorem changed_iff {ids : OrderId → Prop} {users : List UserId} (hTouches : db.Touches db' ids)
    (hKept : ∀ id order, db.orders.find? id = some order →
      ∃ later, db'.orders.find? id = some later ∧ later.userId = order.userId)
    (hTouched : ∀ id, ids id → ∃ later, db'.orders.find? id = some later ∧
      db.orders.find? id ≠ some later ∧ later.userId ∈ users)
    (hUsers : ∀ userId ∈ users, ∃ id later, ids id ∧ db'.orders.find? id = some later ∧
      later.userId = userId) (userId : UserId) : db.Changed db' userId ↔ userId ∈ users := by
  have hOwner : ∀ id order, ids id →
      db.orders.find? id = some order ∨
      db'.orders.find? id = some order → order.userId ∈ users := by
    intro id order hId hOrder
    obtain ⟨later, hLater, _, hMem⟩ := hTouched id hId
    rcases hOrder with hBefore | hAfter
    · obtain ⟨kept, hRow, hSame⟩ := hKept id order hBefore
      rw [hLater, Option.some.injEq] at hRow
      rwa [← hSame, ← hRow]
    · rw [hLater, Option.some.injEq] at hAfter
      rwa [← hAfter]
  constructor
  · rintro (hWallet | ⟨id, order, hChanged, hOrder, rfl⟩)
    · by_contra hOther
      exact hWallet (hTouches.wallets userId fun id order hId hOrder hSame =>
        hOther (hSame ▸ hOwner id order hId hOrder))
    · by_contra hOther
      exact hChanged (hTouches.orders id fun hId => hOther (hOwner id order hId hOrder))
  · intro hUser
    obtain ⟨id, later, hId, hLater, hSame⟩ := hUsers userId hUser
    obtain ⟨row, hRow, hChanged, _⟩ := hTouched id hId
    rw [hLater, Option.some.injEq] at hRow
    refine Or.inr ⟨id, later, fun hEq => hChanged ?_, Or.inr hLater, hSame⟩
    rw [← hRow, ← hEq, hLater]

/-- The users in a list are notified once each, and they are those of whom
something changed. -/
theorem Reports.of_users {events : List RealtimeDispatchEvent} {users : List UserId}
    (hInserted : db'.realtimeOutbox = db.realtimeOutbox ++ events)
    (hCount : ∀ userId, (events.filter (·.notifies userId)).length = if userId ∈
      users then 1 else 0)
    (hChanged : ∀ userId, db.Changed db' userId ↔ userId ∈ users) (hUsers : users ≠ [])
    (hMarket : (∃ id, db'.resting id ≠ db.resting id) ∨ db'.trades ≠ db.trades →
      ∃ event ∈ events, event.isMarketChanged = true)
    (hTrades : ∀ trades, db'.trades = db.trades ++ trades → ∀ event ∈ events,
      event.reportsTrades = true → event.tradeIds = some (trades.map Trade.id)) :
    db.Reports db' events where
  inserted := hInserted
  changed userId hUser := by rw [hCount, if_pos ((hChanged userId).mp hUser)]
  unchanged userId hUser := by
    have hNone := hCount userId
    rw [if_neg fun hMem => hUser ((hChanged userId).mpr hMem), List.length_eq_zero_iff,
      List.filter_eq_nil_iff] at hNone
    exact fun event hEvent => Bool.eq_false_of_not_eq_true (hNone event hEvent)
  market := hMarket
  trades := hTrades
  quiet hOrders hWallets := by
    obtain ⟨userId, hUser⟩ := List.exists_mem_of_ne_nil users hUsers
    rcases (hChanged userId).mpr hUser with hWallet | ⟨id, _, hOrder, _⟩
    · exact absurd (hWallets userId) hWallet
    · exact absurd (hOrders id) hOrder

/-- Rows that calls have stored keep their owners. -/
theorem call_kept (hWell : db.WellFormed) {outcome : Outcome}
    (h : db.call newDecimal invocation = .ok (outcome, db')) (id : OrderId) (order : Order)
    (hFound : db.orders.find? id = some order) :
    ∃ later, db'.orders.find? id = some later ∧ later.userId = order.userId := by
  obtain ⟨later, hLater, hLeads⟩ := (call_evolves hWell h).leads hFound
  exact ⟨later, hLater, by rw [hLeads.kept, Order.revised_userId]⟩

/-- Nothing changes, and there is nothing to report. -/
theorem Reports.unchanged_self (db : Database) : db.Reports db [] where
  inserted := (List.append_nil _).symm
  changed userId hUser := by
    rcases hUser with hWallet | ⟨id, _, hOrder, _⟩
    · exact absurd rfl hWallet
    · exact absurd rfl hOrder
  unchanged _ _ _ hEvent := by cases hEvent
  market hChanged := by
    rcases hChanged with ⟨id, hResting⟩ | hTrades
    · exact absurd rfl hResting
    · exact absurd rfl hTrades
  trades _ _ _ hEvent := by cases hEvent
  quiet _ _ := rfl

/-- One order of one user changes. -/
theorem Reports.of_order (later : Order) {events : List RealtimeDispatchEvent}
    (hTouches : db.Touches db' (· = later.id))
    (hKept : ∀ id order, db.orders.find? id = some order →
      ∃ later, db'.orders.find? id = some later ∧ later.userId = order.userId)
    (hLater : db'.orders.find? later.id = some later)
    (hChanged : db.orders.find? later.id ≠ some later)
    (hInserted : db'.realtimeOutbox = db.realtimeOutbox ++ events)
    (hCount : ∀ userId, (events.filter (·.notifies userId)).length =
      if userId ∈ [later.userId] then 1 else 0)
    (hMarket : (∃ id, db'.resting id ≠ db.resting id) →
      ∃ event ∈ events, event.isMarketChanged = true)
    (hTrades : db'.trades = db.trades) (hReasons : ∀ event ∈ events, event.reportsTrades = false) :
    db.Reports db' events := by
  refine .of_users hInserted hCount (changed_iff hTouches hKept ?_ ?_) (List.cons_ne_nil _ _) ?_ ?_
  · rintro id rfl
    exact ⟨later, hLater, hChanged, List.mem_cons_self⟩
  · intro userId hUser
    exact ⟨later.id, later, rfl, hLater, (List.mem_singleton.mp hUser).symm⟩
  · exact fun h => h.elim hMarket fun hNew => absurd hTrades hNew
  · intro trades _ event hEvent hReported
    rw [hReasons event hEvent] at hReported
    cases hReported

theorem realtimeOutbox_apply_newIntent (row : OrderMatchingOutbox) :
    (db.apply (.newIntent row)).realtimeOutbox = db.realtimeOutbox := by
  simp only [apply, addIntent]
  split_ifs <;> rfl

section Cases

variable (hKept : ∀ id order, db.orders.find? id = some order →
  ∃ later, db'.orders.find? id = some later ∧ later.userId = order.userId)
include hKept

theorem reports_stored {generated : Generated} {wallet : Wallet} {order : Order}
    (hStored : db' = OrdersService.stored generated db wallet order) (hFresh : db.IsFresh order)
    (hQueued : order.status = .queued) (hWallet : db.wallets.find? order.userId = some wallet) :
    db.Reports db' [.accountChanged .orderCreated order.userId order.id none] := by
  subst hStored
  have hOrders := @orders_stored db generated wallet order hFresh
  have hLater := hOrders order.id
  rw [if_pos rfl] at hLater
  refine .of_order order (touches_stored hFresh hWallet) hKept hLater ?_ ?_
    (RealtimeDispatchEvent.length_filter_notifies (List.nodup_singleton _) _ _ _) ?_
      trades_stored ?_
  · rw [hFresh.1]
    exact fun hEq => by cases hEq
  · calc (OrdersService.stored generated db wallet order).realtimeOutbox
        = (((db.apply (.wallet (wallet.update (order.side.reserve order.reservation)))).apply
            (.newOrder order)).apply
              (.newIntent ⟨generated.outboxId, order.id, 0, none, none, none, none,
              generated.now⟩)).realtimeOutbox ++ _ := rfl
      _ = _ := by
        rw [realtimeOutbox_apply_newIntent]
        rfl
  · rintro ⟨id, hResting⟩
    refine absurd ?_ hResting
    rw [resting, resting, hOrders]
    split_ifs with hId
    · rw [hId, hFresh.1, Option.filter_some, hQueued]
      rfl
    · rfl
  · rintro event hEvent
    rw [List.mem_singleton.mp hEvent]
    rfl

theorem reports_released {order : Order} {status : OrderStatus} {wallet : Wallet}
    {events : List RealtimeDispatchEvent} (hReleased : db' = db.released order status wallet events)
    (hFound : db.orders.find? order.id = some order) (hActive : order.status.isActive = true)
    (hClosed : status.isActive = false) (hWallet : db.wallets.find? order.userId = some wallet)
    (hCount : ∀ userId, (events.filter (·.notifies userId)).length =
      if userId ∈ [order.userId] then 1 else 0)
    (hMarket : order.status.isResting = true → ∃ event ∈ events, event.isMarketChanged = true)
    (hReasons : ∀ event ∈ events, event.reportsTrades = false) : db.Reports db' events := by
  subst hReleased
  have hOrders := @orders_released db order status wallet events hFound
  have hLater := hOrders order.id
  rw [if_pos rfl] at hLater
  refine .of_order (order.revised order.remainingAmount status)
    (touches_released hFound hWallet) hKept hLater ?_ rfl hCount ?_ rfl hReasons
  · rw [Order.revised_id, hFound, Ne, Option.some.injEq]
    intro hEq
    have hStatus := congrArg Order.status hEq
    rw [Order.revised_status] at hStatus
    rw [hStatus, hClosed] at hActive
    cases hActive
  · rintro ⟨id, hResting⟩
    by_cases hBook : order.status.isResting = true
    · exact hMarket hBook
    · refine absurd ?_ hResting
      rw [resting, resting, hOrders]
      split_ifs with hId
      · have hOff : status.isResting = false := by
          by_contra hOn
          rw [Bool.not_eq_false] at hOn
          rw [OrderStatus.isActive_of_isResting hOn] at hClosed
          cases hClosed
        rw [hId, hFound, Option.filter_some, Option.filter_some, Order.revised_status, hOff,
          Bool.eq_false_of_not_eq_true hBook]
        rfl
      · rfl

omit hKept in
/-- Executed fills insert no events. -/
theorem realtimeOutbox_executed {taker : Order} {now : Nat} {fills : List (Order × Int)}
    {progress progress' : Progress} (h : Executed taker now fills progress db progress' db') :
    db'.realtimeOutbox = db.realtimeOutbox := by
  induction h with
  | nil => rfl
  | cons executable buyerFound sellerFound buyerFits sellerFits rest ih => exact ih

omit hKept in
/-- The events of a taker: one for the market, and one for each affected user. -/
theorem matchingEvents_eq {taker : Order} {makers : List Order} {progress : Progress}
    (hAlone : makers = [] → progress.affectedUserIds = [taker.userId]) :
    ∃ reason tradeIds, matchingEvents taker makers progress =
        .marketChanged reason taker.id tradeIds ::
          progress.affectedUserIds.map (fun userId =>
            .accountChanged (.market reason) userId taker.id tradeIds) ∧
      (reason = .tradeExecuted → tradeIds = some progress.tradeIds) := by
  unfold matchingEvents
  split_ifs with hNone
  · refine ⟨.orderOpened, none, ?_, fun hReason => by cases hReason⟩
    rw [hAlone hNone]
    rfl
  · exact ⟨_, some progress.tradeIds, rfl, fun _ => rfl⟩

omit hKept in
theorem takerStatus_ne_queued (progress : Progress) : takerStatus progress ≠ .queued := by
  unfold takerStatus
  split_ifs <;> decide

omit hKept in
/-- The row of a maker after the last write of a taker. -/
theorem maker_finish (hWell : db.WellFormed) {taker : Order} {progress : Progress}
    {settled : Database} {now : Nat} (hFound : db.orders.find? taker.id = some taker)
    (hQueued : taker.status = .queued) (hExecuted : Executed taker now
      (plan taker.remainingAmount (candidates db.orders.rows taker none)) (Progress.start taker) db
      progress settled) :
    ∀ fill ∈ plan taker.remainingAmount (candidates db.orders.rows taker none), ∃ amount > 0,
      (progress.finish taker (candidates db.orders.rows taker none) settled).orders.find?
        fill.1.id = some (fill.1.revised (fill.1.remainingAmount - amount)
          (filledStatus (fill.1.remainingAmount - amount))) := by
  intro fill hFill
  have hSettling := Settling.candidates hWell hFound hQueued (List.prefix_refl _)
  have hMaker : fill.1 ∈ candidates db.orders.rows taker none := maker_of_mem_plan hFill
  have hPos := plan_pos hSettling.sound.remaining_nonneg
    (fun maker hMaker => (hSettling.maker_sound hMaker).remaining_nonneg) fill hFill
  rw [orders_finish hWell hFound hQueued hExecuted, if_neg (hSettling.maker_id_ne hMaker),
    hSettling.find?_plan hFill]
  exact ⟨fill.2, hPos, rfl⟩

/-- The owners of the touched orders are the affected users. -/
theorem changed_finish (hWell : db.WellFormed) {taker : Order} {progress : Progress}
    {settled : Database} {now : Nat}
    (hFinished : db' = progress.finish taker (candidates db.orders.rows taker none) settled)
    (hFound : db.orders.find? taker.id = some taker) (hQueued : taker.status = .queued)
    (hExecuted : Executed taker now
      (plan taker.remainingAmount (candidates db.orders.rows taker none)) (Progress.start taker) db
      progress settled)
    (hMem : ∀ userId, userId ∈ progress.affectedUserIds ↔ userId ∈ [taker.userId] ∨
      ∃ fill ∈ plan taker.remainingAmount (candidates db.orders.rows taker none),
        fill.1.userId = userId) (userId : UserId) :
    db.Changed db' userId ↔ userId ∈ progress.affectedUserIds := by
  subst hFinished
  have hSettling := Settling.candidates hWell hFound hQueued (List.prefix_refl _)
  have hRows := orders_finish hWell hFound hQueued hExecuted
  have hMakers := @maker_finish db hWell taker progress settled now hFound hQueued hExecuted
  refine changed_iff (touches_finish hWell hFound hQueued hExecuted) hKept ?_ ?_ userId
  · rintro id (rfl | ⟨fill, hFill, rfl⟩)
    · refine ⟨_, (hRows taker.id).trans (if_pos rfl), ?_, (hMem _).mpr (Or.inl List.mem_cons_self)⟩
      rw [hFound, Ne, Option.some.injEq]
      intro hEq
      have hStatus := congrArg Order.status hEq
      rw [Order.revised_status, hQueued] at hStatus
      exact takerStatus_ne_queued progress hStatus.symm
    · obtain ⟨amount, hAmount, hRow⟩ := hMakers fill hFill
      refine ⟨_, hRow, ?_, (hMem _).mpr (Or.inr ⟨fill, hFill, rfl⟩)⟩
      rw [hSettling.plan_found taker.remainingAmount fill hFill, Ne, Option.some.injEq]
      intro hEq
      have hRemaining := congrArg Order.remainingAmount hEq
      rw [Order.revised_remainingAmount] at hRemaining
      omega
  · intro user hUser
    rcases (hMem user).mp hUser with hTaker | ⟨fill, hFill, rfl⟩
    · exact ⟨taker.id, _, Or.inl rfl, (hRows taker.id).trans (if_pos rfl),
        (List.mem_singleton.mp hTaker).symm⟩
    · obtain ⟨amount, _, hRow⟩ := hMakers fill hFill
      exact ⟨fill.1.id, _, Or.inr ⟨fill, hFill, rfl⟩, hRow, rfl⟩

theorem reports_finish (hWell : db.WellFormed) {taker : Order} {progress : Progress}
    {settled : Database} {now : Nat}
    (hFinished : db' = progress.finish taker (candidates db.orders.rows taker none) settled)
    (hFound : db.orders.find? taker.id = some taker) (hQueued : taker.status = .queued)
    (hExecuted : Executed taker now
      (plan taker.remainingAmount (candidates db.orders.rows taker none)) (Progress.start taker) db
      progress settled) :
    db.Reports db' (matchingEvents taker (candidates db.orders.rows taker none) progress) := by
  obtain ⟨trades, hTrades, _, hIds, hAffected⟩ := hExecuted.recorded
  obtain ⟨hNodup, hMem⟩ := affectedUsers (Progress.start taker).affectedUserIds
    (plan taker.remainingAmount (candidates db.orders.rows taker none)) (List.nodup_singleton _)
  rw [← hAffected] at hNodup hMem
  have hChanged := changed_finish hKept hWell hFinished hFound hQueued hExecuted hMem
  obtain ⟨reason, tradeIds, hEvents, hReason⟩ := @matchingEvents_eq taker
    (candidates db.orders.rows taker none) progress fun hNone => by
      rw [hNone] at hAffected
      exact hAffected
  subst hFinished
  rw [hEvents]
  refine .of_users ?_ (fun user => ?_) hChanged ?_ ?_ ?_
  · calc (progress.finish taker (candidates db.orders.rows taker none) settled).realtimeOutbox
        = settled.realtimeOutbox ++ matchingEvents taker
          (candidates db.orders.rows taker none) progress :=
          rfl
      _ = _ := by rw [realtimeOutbox_executed hExecuted, hEvents]
  · exact RealtimeDispatchEvent.length_filter_notifies hNodup _ _ _ user
  · exact List.ne_nil_of_mem ((hMem taker.userId).mpr (Or.inl List.mem_cons_self))
  · exact fun _ => ⟨_, List.mem_cons_self, rfl⟩
  · intro new hNew event hEvent hReported
    have hSame : trades = new := List.append_cancel_left (hTrades.symm.trans hNew)
    have hTradeIds : progress.tradeIds = new.map Trade.id := by
      rw [hIds, hSame]
      rfl
    rcases List.mem_cons.mp hEvent with rfl | hAccount
    · rw [← hTradeIds]
      exact hReason (of_decide_eq_true hReported)
    · obtain ⟨user, _, rfl⟩ := List.mem_map.mp hAccount
      rw [← hTradeIds]
      exact hReason (AccountChangeReason.market.inj (of_decide_eq_true hReported))

end Cases

/-- A committed call reports what it changed. A caller has an id. -/
theorem Transition.reports (hWell : db.WellFormed) (h : db.Transition newDecimal invocation db')
    (hKept : ∀ id order, db.orders.find? id = some order →
      ∃ later, db'.orders.find? id = some later ∧ later.userId = order.userId)
    (hCaller : ∀ orderId, invocation.call ≠ .cancelOrder "" orderId) :
    ∃ events, db.Reports db' events := by
  cases h with
  | created valid found fits fresh freshIntent =>
      exact ⟨_, reports_stored hKept rfl fresh rfl found⟩
  | @cancelled userId order wallet generated found owner active caller walletFound fits =>
      obtain rfl : order.userId = userId := owner fun hEmpty => hCaller order.id (by rw [hEmpty])
      refine ⟨_, reports_released hKept rfl found active rfl walletFound
        (RealtimeDispatchEvent.length_filter_notifies (List.nodup_singleton order.userId) _ _ _)
        (fun _ => ⟨_, List.mem_cons_self, rfl⟩) ?_⟩
      simp [RealtimeDispatchEvent.reportsTrades]
  | matched found queued executed => exact ⟨_, reports_finish hKept hWell rfl found queued executed⟩
  | @rejected order wallet generated found queued walletFound fits =>
      refine ⟨_, reports_released hKept rfl found (by rw [queued]; rfl) rfl walletFound
        (RealtimeDispatchEvent.length_filter_notifies (List.nodup_singleton order.userId) _ _ _)
        (fun hResting => ?_) ?_⟩
      · rw [queued] at hResting
        cases hResting
      · simp [RealtimeDispatchEvent.reportsTrades]
  | skipped call notQueued => exact ⟨[], .unchanged_self db⟩

end Database

namespace History

variable {newDecimal : String → Option DecimalValue} {start : Database}

/-- In every reachable state a committed call inserts the events that report what
it changed. A caller has an id, which is not empty. -/
theorem notifications_complete (hOpening : start.Opening) (invocations : List Invocation)
    (invocation : Invocation) (hCaller : ∀ orderId, invocation.call ≠ .cancelOrder "" orderId)
    {outcome : Outcome} {db' : Database}
    (hCall : ((History.start start).calls newDecimal invocations).db.call newDecimal invocation =
      .ok (outcome, db')) :
    ∃ events, ((History.start start).calls newDecimal invocations).db.Reports db' events := by
  have hWell := (@exact_of_opening newDecimal start hOpening invocations).1
  exact (Database.call_transition hWell hCall).reports hWell
    (Database.call_kept hWell hCall) hCaller

/-- Matching the BUY order of the sample is reported. -/
theorem notifications_complete_sample : ∃ outcome db' events,
    ((History.start Sample.start).calls Sample.newDecimal (Sample.calls.take 3)).db.call
      Sample.newDecimal ⟨.processOrder "buy", ⟨"", 0, "", 13⟩⟩ = .ok (outcome, db') ∧
    ((History.start Sample.start).calls Sample.newDecimal (Sample.calls.take 3)).db.Reports db'
      events := by
  have hCommits :
      (((History.start Sample.start).calls Sample.newDecimal (Sample.calls.take 3)).db.call
      Sample.newDecimal ⟨.processOrder "buy", ⟨"", 0, "", 13⟩⟩).toOption.isSome = true := by
    decide +kernel
  cases hCall : ((History.start Sample.start).calls Sample.newDecimal (Sample.calls.take 3)).db.call
      Sample.newDecimal ⟨.processOrder "buy", ⟨"", 0, "", 13⟩⟩ with
  | error failure =>
      rw [hCall] at hCommits
      cases hCommits
  | ok out =>
      obtain ⟨events, hReports⟩ :=
        @notifications_complete Sample.newDecimal Sample.start Sample.opening
        (Sample.calls.take 3) ⟨.processOrder "buy", ⟨"", 0, "", 13⟩⟩
          (fun _ hEq => by cases hEq) _ _ hCall
      exact ⟨out.1, out.2, events, rfl, hReports⟩

end History
end ExchangeMatching
