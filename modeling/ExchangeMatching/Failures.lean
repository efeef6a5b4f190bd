import ExchangeMatching.Refinement

/-! How calls fail. The arithmetic fails with a bad request only, and no call
ever attempts an order row whose status disagrees with its remaining amount. -/
namespace ExchangeMatching

open Transactions TradeSettlement MatchingOrderBook

/-- The computation fails with a bad request, if it fails. -/
def Refuses {Result : Type} (computation : Except Failure Result) : Prop :=
  ∀ failure, computation = .error failure → ∃ message, failure = .badRequest message

namespace Refuses

variable {Result Value : Type}

/-- A value is no failure. -/
theorem ok (result : Result) : Refuses (.ok result) := by
  intro failure h
  cases h

/-- An explicit bad request is one of the failures allowed. -/
theorem error (message : String) :
    Refuses (.error (.badRequest message) : Except Failure Result) := by
  rintro _ ⟨⟩
  exact ⟨message, rfl⟩

/-- A refusal is passed on through a sequence: the first part refuses, or the second
one does. -/
theorem bind {computation : Except Failure Value} {next : Value → Except Failure Result}
    (h : Refuses computation) (hNext : ∀ value, Refuses (next value)) :
    Refuses (computation >>= next) := by
  cases computation with
  | error failure => exact fun other hOther => h other (by cases hOther; rfl)
  | ok value => exact hNext value

end Refuses

/-- A decimal that does not fit its column is a bad request, whichever of its checks
fails. -/
theorem refuses_assertDecimalFitsSchema (value : DecimalValue) (fieldName : String) :
    Refuses (assertDecimalFitsSchema value fieldName) := by
  unfold assertDecimalFitsSchema
  split
  · exact .error _
  · split_ifs
    · exact .error _
    · exact .error _
    · exact .ok _

/-- A result that leaves the column is a bad request. -/
theorem refuses_calculated (value : Int) : Refuses (calculated value) := by
  unfold calculated
  split_ifs
  · exact .error _
  · exact .ok _

/-- Products are checked like any calculated amount. -/
theorem refuses_multiplyScaled (left right : Int) : Refuses (multiplyScaled left right) :=
  multiplyScaled_eq left right ▸ refuses_calculated _

/-- And so are differences. -/
theorem refuses_subtractScaled (left right : Int) : Refuses (subtractScaled left right) :=
  subtractScaled_eq left right ▸ refuses_calculated _

/-- An order that costs nothing is refused like one whose cost is out of range. -/
theorem refuses_assertPositiveOrderCost (amount price : Int) :
    Refuses (assertPositiveOrderCost amount price) := by
  refine (refuses_multiplyScaled amount price).bind fun value => ?_
  split_ifs
  · exact .error _
  · exact .ok _

/-- What a client may write wrong in a number is answered with a bad request: no
number, not positive, or too large. -/
theorem refuses_parsePositiveDecimalInput (newDecimal : String → Option DecimalValue)
    (value fieldName : String) :
    Refuses (parsePositiveDecimalInput newDecimal value fieldName) := by
  unfold parsePositiveDecimalInput
  dsimp only
  split_ifs
  · exact .error _
  · split
    · exact .error _
    · exact .error _
    · split_ifs
      · exact .error _
      · exact (refuses_assertDecimalFitsSchema _ _).bind fun _ => .ok _

/-- Both numbers of an order and their product are checked before anything is
written, and each check refuses. -/
theorem OrdersService.refuses_validateOrder (newDecimal : String → Option DecimalValue)
    (amountInput priceInput : String) : Refuses (validateOrder newDecimal amountInput priceInput) :=
  (refuses_parsePositiveDecimalInput _ _ _).bind fun _ =>
    (refuses_parsePositiveDecimalInput _ _ _).bind fun _ =>
      (refuses_assertPositiveOrderCost _ _).bind fun _ => .ok _

/-- The bound that guards one change of a balance is computed with refusals only. -/
theorem refuses_balanceConstraint (change : BalanceField × BalanceChange) :
    Refuses (balanceConstraint change) := by
  refine (refuses_assertDecimalFitsSchema _ _).bind fun _ => ?_
  split_ifs
  · exact .error _
  · split
    · exact (refuses_subtractScaled _ _).bind fun _ => .ok _
    · exact .ok _

/-- The bounds of an update are computed one change after another. -/
theorem refuses_balanceConstraints (data : BalanceUpdate) : Refuses (balanceConstraints data) := by
  unfold balanceConstraints
  induction data with
  | nil => exact .ok _
  | cons change data ih =>
      rw [List.mapM_cons]
      exact (refuses_balanceConstraint change).bind fun _ => ih.bind fun _ => .ok _

/-- What a buyer's reservation loses is a difference of two costs. -/
theorem TradeSettlement.refuses_buyReservationDebit (order : Order) (tradeAmount : Int) :
    Refuses (buyReservationDebit order tradeAmount) :=
  (refuses_subtractScaled _ _).bind fun _ => (refuses_multiplyScaled _ _).bind fun _ =>
    (refuses_multiplyScaled _ _).bind fun _ => refuses_subtractScaled _ _

/-- The fees of a trade are products with a rate, on either side. -/
theorem TradeSettlement.refuses_buildFeeDetails (takerSide : OrderSide)
    (tradeAmount tradePrice : Int) :
    Refuses (buildFeeDetails takerSide tradeAmount tradePrice) := by
  refine (refuses_multiplyScaled _ _).bind fun _ => ?_
  cases takerSide with
  | buy =>
      exact (refuses_multiplyScaled _ _).bind fun _ =>
        (refuses_multiplyScaled _ _).bind fun _ => .ok _
  | sell =>
      exact (refuses_multiplyScaled _ _).bind fun _ =>
        (refuses_multiplyScaled _ _).bind fun _ => .ok _

/-- Sums are checked as well. -/
theorem refuses_addScaled (left right : Int) : Refuses (addScaled left right) :=
  addScaled_eq left right ▸ refuses_calculated _

/-- The name of the check that ties the status of an order to its remainder. -/
def statusCheck : String := "orders_status_remaining_amount_consistency"

/-- The failure is not a violation of the status check. -/
def RespectsStatus (failure : Failure) : Prop := failure ≠ .checkViolation statusCheck

/-- The statements that write no order. -/
def Statement.KeepsOrders {Reply : Type} : Statement Reply → Prop
  | .createOrder .. => False
  | .updateOrder .. => False
  | _ => True

/-- A row is rejected by the numeric range of a column or by a named check that is
false. -/
theorem checkRow_eq_error {columns : List NumericColumn} {checks : List (String × Bool)}
    {failure : Failure} (h : checkRow columns checks = .error failure) :
    (∃ column, failure = .numericOverflow column) ∨
      ∃ check ∈ checks, check.2 = false ∧ failure = .checkViolation check.1 := by
  unfold checkRow at h
  split at h
  · cases h
    exact Or.inl ⟨_, rfl⟩
  · split at h
    · next check hFound =>
      cases h
      exact Or.inr
        ⟨check, List.mem_of_find?_eq_some hFound, by simpa using List.find?_some hFound, rfl⟩
    · cases h

/-- A row check fails with the status check only if that is one of its checks
and it is violated. -/
theorem respectsStatus_of_checkRow {columns : List NumericColumn} {checks : List (String × Bool)}
    {failure : Failure} (h : checkRow columns checks = .error failure)
    (hChecks : ∀ check ∈ checks, check.2 = false → check.1 ≠ statusCheck) :
    RespectsStatus failure := by
  rcases checkRow_eq_error h with ⟨column, rfl⟩ | ⟨check, hCheck, hFalse, rfl⟩
  · exact fun hEq => by cases hEq
  · exact fun hEq => hChecks check hCheck hFalse (Failure.checkViolation.inj hEq)

/-- No check of a wallet has the name of the check on the status of orders. -/
theorem Wallet.check_respectsStatus {wallet : Wallet} {failure : Failure}
    (h : wallet.check = .error failure) : RespectsStatus failure := by
  refine respectsStatus_of_checkRow h fun check hCheck _ => ?_
  obtain ⟨field, _, rfl⟩ := List.mem_map.mp hCheck
  change field.nonNegative ≠ statusCheck
  cases field <;> decide

/-- No check of a trade has that name either. -/
theorem TradeData.check_respectsStatus {data : TradeData} {failure : Failure}
    (h : data.check = .error failure) : RespectsStatus failure := by
  refine respectsStatus_of_checkRow h fun check hCheck _ => ?_
  simp only [List.mem_cons, List.not_mem_nil, or_false] at hCheck
  rcases hCheck with rfl | rfl | rfl | rfl | rfl | rfl <;> dsimp only <;> decide

/-- A row whose status agrees with its remainder never fails the status check. -/
theorem Order.check_respectsStatus {order : Order} {failure : Failure}
    (hConsistent : order.statusConsistent = true) (h : order.check = .error failure) :
    RespectsStatus failure := by
  refine respectsStatus_of_checkRow h fun check hCheck hFalse => ?_
  simp only [List.mem_cons, List.not_mem_nil, or_false] at hCheck
  by_cases hStatus : check.2 = order.statusConsistent
  · rw [hStatus, hConsistent] at hFalse
    cases hFalse
  · rcases hCheck with rfl | rfl | rfl | rfl | rfl
    · dsimp only
      decide
    · dsimp only
      decide
    · dsimp only
      decide
    · dsimp only
      decide
    · exact absurd rfl hStatus

/-- A bad request is not a violation of the status check. -/
theorem respectsStatus_of_refuses {Result : Type} {computation : Except Failure Result}
    (h : Refuses computation) : ∀ failure, computation = .error failure →
    RespectsStatus failure := by
  intro failure hFailed
  obtain ⟨message, rfl⟩ := h failure hFailed
  exact fun hEq => by cases hEq

/-- What a statement that writes no order does: it never meets the status check,
and it leaves the orders. -/
theorem effect_of_keepsOrders {Reply : Type} (generated : Generated) {statement : Statement Reply}
    (db : Database) (hKeeps : statement.KeepsOrders) :
    (∀ failure, engine.effect generated statement db = .error failure → RespectsStatus failure) ∧
    ∀ reply writes, engine.effect generated statement db = .ok (reply, writes) →
      (engine.applyAll db writes).orders = db.orders := by
  rw [engine_effect]
  cases statement with
  | createOrder | updateOrder => exact absurd hKeeps id
  | updateWallet userId condition data =>
      simp only [effect]
      split
      · refine ⟨fun _ h => (by cases h), fun _ _ h => ?_⟩
        cases h
        rfl
      · split_ifs
        · split
          · next hCheck =>
            refine ⟨fun _ h => ?_, fun _ _ h => by cases h⟩
            cases h
            exact Wallet.check_respectsStatus hCheck
          · refine ⟨fun _ h => (by cases h), fun _ _ h => ?_⟩
            cases h
            rfl
        · refine ⟨fun _ h => (by cases h), fun _ _ h => ?_⟩
          cases h
          rfl
  | createTrade data =>
      simp only [effect]
      split
      · next hCheck =>
        refine ⟨fun _ h => ?_, fun _ _ h => by cases h⟩
        cases h
        exact TradeData.check_respectsStatus hCheck
      · refine ⟨fun _ h => (by cases h), fun _ _ h => ?_⟩
        cases h
        rfl
  | createMatchingIntent orderId =>
      simp only [effect]
      split_ifs
      · refine ⟨fun _ h => (by cases h), fun _ _ h => ?_⟩
        cases h
        exact congrArg Market.orders (Database.toMarket_apply_newIntent _)
      · refine ⟨fun _ h hEq => ?_, fun _ _ h => by cases h⟩
        cases h
        cases hEq
  | lockMarket | lockOrder | findOrder | findFirstOrder | findWallet | findWallets | lockWallet
  | insertEvents =>
      refine ⟨fun _ h => (by cases h), fun _ _ h => ?_⟩
      cases h
      rfl

section Runs

variable {generated : Generated} {db : Database} {Result : Type}

/-- Programs that write no order and raise no status violation by themselves. -/
def Harmless (program : Transaction Result) : Prop :=
  program.Within (fun statement => statement.KeepsOrders) RespectsStatus

/-- However a harmless program fails, it does not violate the status check. -/
theorem Harmless.failsWith {program : Transaction Result} (h : Harmless program) :
    engine.FailsWith generated RespectsStatus program db :=
  Engine.failsWith_of_within h fun _ db failure hKeeps =>
    (effect_of_keepsOrders generated db hKeeps).1 failure

/-- A harmless program leaves the orders as they are. -/
theorem Harmless.orders {program : Transaction Result} {out : Result × Database}
    (h : Harmless program) (hRun : engine.run generated program db = .ok out) :
    out.2.orders = db.orders :=
  @Engine.run_within _ _ _ _ _ _ engine generated db _ _
    (fun state => state.orders = db.orders) program out h
    (fun _ state reply writes hKeeps hOrders hEffect =>
      ((effect_of_keepsOrders generated state hKeeps).2 reply writes hEffect).trans hOrders)
    rfl hRun

/-- Computations write nothing, so refusing is all that they can do. -/
theorem harmless_of_refuses {computation : Except Failure Result} (h : Refuses computation) :
    Harmless (Program.ofExcept computation) :=
  .ofExcept (respectsStatus_of_refuses h)

/-- Throwing a bad request is harmless. -/
theorem harmless_badRequest (message : String) :
    Harmless (.throw (.badRequest message) : Transaction Result) := fun hEq => by cases hEq

/-- So is reporting that something does not exist. -/
theorem harmless_notFound (message : String) :
    Harmless (.throw (.notFound message) : Transaction Result) := fun hEq => by cases hEq

/-- An update of balances writes a wallet, or refuses when the guard of the update
finds no row. -/
theorem harmless_updateBalances (userId : UserId) (data : BalanceUpdate) :
    Harmless (WalletsRepository.updateBalances userId data) := by
  refine (harmless_of_refuses (refuses_balanceConstraints data)).bind fun _ =>
    (Program.Within.perform trivial).bind fun _ => ?_
  split_ifs
  · exact harmless_badRequest _
  · exact trivial

/-- The guarded form of an update issues one statement, which writes a wallet. -/
theorem harmless_guardedUpdate (message : String) (userId : UserId) (data : BalanceUpdate) :
    Harmless (guardedUpdate (.badRequest message) userId data) := by
  refine (harmless_of_refuses (refuses_balanceConstraints data)).bind fun _ =>
    (Program.Within.perform trivial).bind fun _ => ?_
  split_ifs
  · exact harmless_badRequest _
  · exact trivial

/-- What a new order has to reserve is computed before the reservation, for a buyer
with a product. -/
theorem harmless_required (side : OrderSide) (amount price : Int) {next : Int → Transaction Result}
    (h : ∀ required, Harmless (next required)) :
    Harmless (do
      let required ← match side with
        | .buy => Program.ofExcept (multiplyScaled amount price)
        | .sell => pure amount
      next required) := by
  cases side with
  | buy => exact (harmless_of_refuses (refuses_multiplyScaled _ _)).bind h
  | sell => exact h amount

/-- Reserving funds looks up a wallet and updates it. -/
theorem harmless_reserveFunds (wallet : Wallet) (side : OrderSide) (amount price : Int) :
    Harmless (WalletsService.reserveFunds wallet side amount price) := by
  rw [reserveFunds_eq]
  exact harmless_required side amount price fun _ => harmless_guardedUpdate _ _ _

/-- Releasing funds updates the wallet of the order's user. -/
theorem harmless_releaseFunds (order : Order) : Harmless (WalletsService.releaseFunds order) := by
  rw [releaseFunds_eq]
  exact harmless_required order.side order.remainingAmount order.price
    fun _ => harmless_updateBalances _ _

/-- Events are inserted into an outbox of their own. -/
theorem harmless_appendEvents (events : List RealtimeDispatchEvent) :
    Harmless (RealtimeOutboxService.appendEvents events) := by
  unfold RealtimeOutboxService.appendEvents
  split_ifs
  · exact trivial
  · exact .perform trivial

/-- Wallets are locked in the order of their ids and then read. -/
theorem harmless_lockAndLoadWallets (userIds : List UserId) :
    Harmless (lockAndLoadWallets userIds) := by
  have hLocks : ∀ sorted, Harmless (WalletsRepository.lockWallets sorted) := by
    intro sorted
    induction sorted with
    | nil => exact trivial
    | cons userId sorted ih => exact (Program.Within.perform trivial).bind fun _ => ih
  unfold lockAndLoadWallets WalletsRepository.lockAndLoadByUserIds
  dsimp only
  split_ifs
  · exact trivial
  · exact (hLocks _).bind fun _ => .perform trivial

/-- Settling the balances of a trade writes no order. -/
theorem harmless_applyTradeBalances (taker maker : Order) (takerWallet makerWallet : Wallet)
    (tradeAmount tradePrice : Int) :
    Harmless (applyTradeBalances taker maker takerWallet makerWallet tradeAmount tradePrice) := by
  refine (harmless_of_refuses (refuses_assertPositiveOrderCost _ _)).bind fun _ => ?_
  cases taker.side with
  | buy =>
      exact (harmless_of_refuses (refuses_buyReservationDebit _ _)).bind fun _ =>
        (harmless_of_refuses (refuses_multiplyScaled _ _)).bind fun _ =>
        (harmless_of_refuses (refuses_subtractScaled _ _)).bind fun _ =>
        (harmless_of_refuses (refuses_multiplyScaled _ _)).bind fun _ =>
        (harmless_of_refuses (refuses_multiplyScaled _ _)).bind fun _ =>
        (harmless_of_refuses (refuses_subtractScaled _ _)).bind fun _ =>
        (harmless_of_refuses (refuses_subtractScaled _ _)).bind fun _ =>
        (harmless_updateBalances _ _).bind fun _ => harmless_updateBalances _ _
  | sell =>
      exact (harmless_of_refuses (refuses_multiplyScaled _ _)).bind fun _ =>
        (harmless_of_refuses (refuses_multiplyScaled _ _)).bind fun _ =>
        (harmless_of_refuses (refuses_multiplyScaled _ _)).bind fun _ =>
        (harmless_of_refuses (refuses_subtractScaled _ _)).bind fun _ =>
        (harmless_of_refuses (refuses_subtractScaled _ _)).bind fun _ =>
        (harmless_of_refuses (refuses_buyReservationDebit _ _)).bind fun _ =>
        (harmless_of_refuses (refuses_subtractScaled _ _)).bind fun _ =>
        (harmless_updateBalances _ _).bind fun _ => harmless_updateBalances _ _

/-- Rewriting an order is harmless where its new row is consistent. -/
theorem failsWith_updateOrder {order : Order} {data : OrderUpdate}
    {next : Order → Transaction Result} (hFound : db.orders.find? order.id = some order)
    (hConsistent : (order.revised (data.remainingAmount.getD order.remainingAmount)
      data.status).statusConsistent = true)
    (hNext : ∀ row, Harmless (next row)) :
    engine.FailsWith generated RespectsStatus (.issue (.updateOrder order.id data) next) db := by
  refine Engine.failsWith_issue (fun failure hFailed => ?_) fun row _ _ => (hNext row).failsWith
  simp only [engine_effect, effect, hFound] at hFailed
  split at hFailed
  · next hCheck =>
    cases hFailed
    exact Order.check_respectsStatus hConsistent hCheck
  · cases hFailed

end Runs

section Calls

variable {newDecimal : String → Option DecimalValue} {generated : Generated} {db : Database}

/-- A new order is queued with all of its amount remaining, which the status check
allows. -/
theorem OrdersService.createOrder_respectsStatus (userId : UserId) (side : OrderSide)
    (amountInput priceInput : String) :
    engine.FailsWith generated RespectsStatus
      (createOrder newDecimal userId side amountInput priceInput) db := by
  refine Engine.failsWith_bind (harmless_of_refuses (refuses_validateOrder _ _ _)).failsWith
    fun ⟨amount, price⟩ state _ => Engine.failsWith_bind
      (Harmless.failsWith (.perform trivial)) fun wallet state _ => ?_
  cases wallet with
  | none => exact (harmless_notFound _).failsWith
  | some wallet =>
      refine Engine.failsWith_bind (harmless_reserveFunds ..).failsWith fun _ state _ =>
        Engine.failsWith_issue (fun failure hFailed => ?_) fun row _ _ => ?_
      · simp only [engine_effect, effect] at hFailed
        split at hFailed
        · next hCheck =>
          cases hFailed
          exact Order.check_respectsStatus (by simp [Order.statusConsistent]) hCheck
        · split_ifs at hFailed
          cases hFailed
          exact fun hEq => by cases hEq
      · have hRest : Harmless (do
            OrderMatchingOutboxService.appendOrder row.id
            RealtimeOutboxService.appendEvent (.accountChanged .orderCreated userId row.id none)
            return row) :=
          (Program.Within.perform trivial).bind fun _ =>
            (harmless_appendEvents _).bind fun _ => trivial
        exact hRest.failsWith

/-- Closing an order meets the status check. -/
theorem failsWith_closeOrder {Result : Type} {order : Order} {status : OrderStatus}
    {next : Order → Transaction Result} (hWell : db.WellFormed)
    (hFound : db.orders.find? order.id = some order)
    (hAllowed : status = .cancelled ∧ order.status.isActive = true ∨
      status = .rejected ∧ order.status = .queued) (hNext : ∀ row, Harmless (next row)) :
    engine.FailsWith generated RespectsStatus (do
      let updated ← Program.perform (.updateOrder order.id ⟨none, status⟩)
      WalletsService.releaseFunds order
      next updated) db :=
  failsWith_updateOrder hFound
    ((hWell.orders order (Table.mem_of_find? hFound)).closed hAllowed).consistent
    fun row => (harmless_releaseFunds order).bind fun _ => hNext row

/-- A cancellation keeps the remainder of the order, and an active order has one. -/
theorem OrdersService.cancelOrder_respectsStatus (hWell : db.WellFormed) (userId : UserId)
    (orderId : OrderId) :
    engine.FailsWith generated RespectsStatus (cancelOrder userId orderId) db := by
  unfold cancelOrder
  intro failure hFailed
  rw [run_lockAndLoadOrder] at hFailed
  revert failure
  cases hOrder : db.findOrder orderId ((some userId).filter (· ≠ "")) with
  | none => exact (harmless_notFound _).failsWith
  | some order =>
      obtain ⟨hFound, _⟩ := Database.findOrder_eq_some.mp hOrder
      obtain rfl := Table.key_of_find? hFound
      dsimp only
      split_ifs with hActive
      · refine Engine.failsWith_bind (Harmless.failsWith (.perform trivial))
          fun wallet state hRun => ?_
        obtain rfl : db = state := by
          cases hRun
          rfl
        cases wallet with
        | none => exact (harmless_notFound _).failsWith
        | some _ =>
            exact failsWith_closeOrder hWell hFound (Or.inl ⟨rfl, hActive⟩) fun row =>
              (harmless_appendEvents _).bind fun _ => trivial
      · exact (harmless_badRequest _).failsWith

namespace MatchingService

/-- A rejection closes an order that is still queued, which has all of its amount
remaining. -/
theorem rejectOrder_respectsStatus (hWell : db.WellFormed) (orderId : OrderId) :
    engine.FailsWith generated RespectsStatus (rejectOrderAfterFailedProcessing orderId) db := by
  unfold rejectOrderAfterFailedProcessing lockMarket
  intro failure hFailed
  rw [Program.perform_bind, run_lockMarket, run_lockAndLoadOrder] at hFailed
  simp only [Option.filter_none, Database.findOrder_none] at hFailed
  revert failure
  cases hFound : db.orders.find? orderId with
  | none => exact Engine.failsWith_of_run_eq_ok rfl
  | some order =>
      obtain rfl := Table.key_of_find? hFound
      dsimp only
      split_ifs with hQueued
      · exact Engine.failsWith_of_run_eq_ok rfl
      · exact failsWith_closeOrder hWell hFound (Or.inr ⟨rfl, not_not.mp hQueued⟩) fun row =>
          (harmless_appendEvents _).bind fun _ => trivial

/-- A trade that leaves a nonnegative remainder meets the status check. -/
theorem recordTrade_respectsStatus {taker maker : Order} {progress : Progress} {amount : Int}
    (hFound : db.orders.find? maker.id = some maker) (hSound : maker.Sound) (hPos : 0 < amount)
    (hLe : amount ≤ maker.remainingAmount) :
    engine.FailsWith generated RespectsStatus (recordTrade taker maker amount progress) db := by
  refine Engine.failsWith_bind (harmless_of_refuses (refuses_buildFeeDetails _ _ _)).failsWith
    fun fees state hFees => Engine.failsWith_bind
      (harmless_of_refuses (refuses_subtractScaled _ _)).failsWith fun next state' hNext => ?_
  obtain ⟨_, rfl⟩ := Engine.run_ofExcept_eq_ok.mp hFees
  obtain ⟨hNext, rfl⟩ := Engine.run_ofExcept_eq_ok.mp hNext
  obtain ⟨rfl, _⟩ := subtractScaled_eq_ok.mp hNext
  have hTrade : ∀ data : TradeData, (Statement.createTrade data).KeepsOrders := fun _ => trivial
  refine Engine.failsWith_issue (effect_of_keepsOrders generated db (hTrade _)).1
    fun trade writes hEffect => ?_
  have hRow : (engine.applyAll db writes).orders.find? maker.id = some maker := by
    rw [(effect_of_keepsOrders generated db (hTrade _)).2 trade writes hEffect]
    exact hFound
  exact failsWith_updateOrder hRow (hSound.filled hPos hLe).consistent fun row =>
    (harmless_of_refuses (refuses_subtractScaled _ _)).bind fun _ =>
      (harmless_of_refuses (refuses_addScaled _ _)).bind fun _ => trivial

/-- After a fill the maker is filled or partially filled, as its remainder says. -/
theorem executeTrade_respectsStatus {taker maker : Order} {progress : Progress} {amount : Int}
    (hFound : db.orders.find? maker.id = some maker) (hSound : maker.Sound) (hPos : 0 < amount)
    (hLe : amount ≤ maker.remainingAmount) :
    engine.FailsWith generated RespectsStatus (executeTrade taker maker amount progress) db := by
  refine Engine.failsWith_bind (harmless_lockAndLoadWallets _).failsWith fun wallets state hLoad =>
    ?_
  have hLoaded : state.orders = db.orders := (harmless_lockAndLoadWallets _).orders hLoad
  split
  · refine Engine.failsWith_bind (harmless_applyTradeBalances _ _ _ _ _ _).failsWith
      fun _ state' hApply => recordTrade_respectsStatus ?_ hSound hPos hLe
    rw [(harmless_applyTradeBalances _ _ _ _ _ _).orders hApply, hLoaded, hFound]
  · exact (harmless_notFound _).failsWith

/-- No fill of the loop violates the status check. -/
theorem settleMakers_respectsStatus {taker : Order} {makers : List Order} {progress : Progress}
    (h : Settling taker makers progress db) :
    engine.FailsWith generated RespectsStatus (settleMakers taker makers progress) db := by
  induction makers generalizing progress db with
  | nil => exact Engine.failsWith_of_run_eq_ok rfl
  | cons maker makers ih =>
      have hSound := h.maker_sound List.mem_cons_self
      have hFound := h.makers_found maker List.mem_cons_self
      have hMakerPos := (isEligibleMaker_iff.mp (h.eligible maker List.mem_cons_self)).2.2.1
      unfold settleMakers
      by_cases hDone : progress.takerRemaining ≤ 0
      · rw [if_pos hDone]
        exact Engine.failsWith_of_run_eq_ok rfl
      · have hPos : 0 < min progress.takerRemaining maker.remainingAmount := by omega
        have hCost := multiplyScaled_fragment hSound hPos.le (min_le_right _ _)
        have hCostNonneg := cost_nonneg hPos.le hSound.price_pos.le
        rw [if_neg hDone, if_neg (not_le.mpr hMakerPos), ← min_def_lt]
        simp only [hCost, Program.ofExcept, Program.mk_pure_bind]
        split_ifs with hDust
        · exact ih h.skip
        · refine Engine.failsWith_bind
            (executeTrade_respectsStatus hFound hSound hPos (min_le_right _ _))
            fun progress' state hRun => ?_
          have hExecutable := h.executable hPos (min_le_left _ _) (min_le_right _ _) (by omega)
          obtain ⟨buyer, seller, hBuyer, hSeller, hBuyerFits, hSellerFits, hPair⟩ :=
            (h.run_executeTrade hExecutable).mp hRun
          cases hPair
          exact ih (h.step hExecutable generated.now hBuyer hSeller hBuyerFits hSellerFits).2

/-- The fills of a match come one after another, each with a maker that still has
the planned amount, so none of them violates the status check. -/
theorem settleTaker_respectsStatus {taker : Order} {makers : List Order}
    (h : Settling taker makers (Progress.start taker) db) :
    engine.FailsWith generated RespectsStatus (settleTaker taker makers) db := by
  unfold settleTaker
  split_ifs with hEmpty
  · exact failsWith_updateOrder h.taker_found (h.sound.opened h.queued).consistent fun row =>
      (harmless_appendEvents _).bind fun _ => trivial
  · refine Engine.failsWith_bind (settleMakers_respectsStatus h) fun progress state hRun => ?_
    have hSettled := (h.executed ((run_settleMakers_eq_ok h).mp hRun)).2
    exact failsWith_updateOrder hSettled.taker_found hSettled.final_sound.consistent fun row =>
      (harmless_appendEvents _).bind fun _ => trivial

/-- Matching ends the taker as its remainder says: filled, partially filled, or open. -/
theorem processOrder_respectsStatus (hWell : db.WellFormed) {fuel : Nat}
    (hFuel : db.orders.rows.length < fuel) (orderId : OrderId) :
    engine.FailsWith generated RespectsStatus (processOrder fuel orderId) db := by
  unfold processOrder lockMarket
  intro failure hFailed
  rw [Program.perform_bind, run_lockMarket, run_lockAndLoadOrder] at hFailed
  simp only [Option.filter_none, Database.findOrder_none] at hFailed
  revert failure
  cases hFound : db.orders.find? orderId with
  | none => exact (harmless_notFound _).failsWith
  | some taker =>
      obtain rfl := Table.key_of_find? hFound
      dsimp only
      split_ifs with hQueued
      · exact Engine.failsWith_of_run_eq_ok rfl
      · obtain ⟨selected, hSearch, hPrefix, _⟩ :=
          run_findAndLockEligibleMakers generated hWell hFuel
          (Table.mem_of_find? hFound) (not_not.mp hQueued)
        refine Engine.failsWith_bind (Engine.failsWith_of_run_eq_ok hSearch)
          fun makers state hRun => ?_
        rw [hSearch] at hRun
        cases hRun
        exact settleTaker_respectsStatus (.candidates hWell hFound (not_not.mp hQueued) hPrefix)

end MatchingService

/-- No call ever attempts an order whose status disagrees with its remainder. -/
theorem Database.call_respectsStatus (hWell : db.WellFormed) {invocation : Invocation}
    {failure : Failure} (h : db.call newDecimal invocation = .error failure) :
    failure ≠ .checkViolation statusCheck := by
  obtain ⟨call, generated⟩ := invocation
  have hReturn : ∀ {Result : Type} {program : Transaction Result} (outcome : Result → Outcome),
      engine.FailsWith generated RespectsStatus program db →
      engine.FailsWith generated RespectsStatus (do return outcome (← program)) db :=
    fun outcome hProgram => Engine.failsWith_bind hProgram
      fun _ _ _ => Engine.failsWith_of_run_eq_ok rfl
  cases call with
  | createOrder userId side amountInput priceInput =>
      exact hReturn .order
        (OrdersService.createOrder_respectsStatus userId side amountInput priceInput) failure h
  | cancelOrder userId orderId =>
      exact hReturn .order (OrdersService.cancelOrder_respectsStatus hWell userId orderId) failure h
  | processOrder orderId =>
      exact hReturn .eventsStored
        (MatchingService.processOrder_respectsStatus hWell (Nat.lt_succ_self _) orderId) failure h
  | rejectOrderAfterFailedProcessing orderId =>
      exact hReturn .eventsStored (MatchingService.rejectOrder_respectsStatus hWell orderId)
        failure h

end Calls
end ExchangeMatching
