import ExchangeMatching.Refinement

/-! The committed calls with all that they write, in one case for each way to
commit. Every one of them is a sequence of market events. -/
namespace ExchangeMatching

open Transactions MatchingOrderBook MatchingService

namespace Database

variable {newDecimal : String → Option DecimalValue} {db db' : Database}

/-- How a call commits. -/
inductive Transition (newDecimal : String → Option DecimalValue) (db : Database) :
    Invocation → Database → Prop where
  | created {userId : UserId} {side : OrderSide} {amountInput priceInput : String}
      {amount price : Int} {generated : Generated} {wallet : Wallet}
      (valid : OrdersService.validateOrder newDecimal amountInput priceInput = .ok (amount, price))
      (found : db.wallets.find? userId = some wallet)
      (fits : (side.reserve (side.reservation amount price)).Fits wallet)
      (fresh : db.IsFresh (newOrder generated userId side amount price))
      (freshIntent : db.IsFreshIntent
        ⟨generated.outboxId, generated.orderId, 0, none, none, none, none, generated.now⟩) :
      Transition newDecimal db ⟨.createOrder userId side amountInput priceInput, generated⟩
        (OrdersService.stored generated db wallet (newOrder generated userId side amount price))
  | cancelled {userId : UserId} {order : Order} {wallet : Wallet} {generated : Generated}
      (found : db.orders.find? order.id = some order) (owner : userId ≠ "" → order.userId = userId)
      (active : order.status.isActive = true) (caller : (db.wallets.find? userId).isSome = true)
      (walletFound : db.wallets.find? order.userId = some wallet)
      (fits : (order.side.release order.reservation).Fits wallet) :
      Transition newDecimal db ⟨.cancelOrder userId order.id, generated⟩
        (db.released order .cancelled wallet [.marketChanged .orderCancelled order.id none,
          .accountChanged (.market .orderCancelled) userId order.id none])
  | matched {taker : Order} {progress : Progress} {settled : Database} {generated : Generated}
      (found : db.orders.find? taker.id = some taker) (queued : taker.status = .queued)
      (executed : Executed taker generated.now
        (plan taker.remainingAmount (candidates db.orders.rows taker none))
          (Progress.start taker) db
        progress settled) :
      Transition newDecimal db ⟨.processOrder taker.id, generated⟩
        (progress.finish taker (candidates db.orders.rows taker none) settled)
  | rejected {order : Order} {wallet : Wallet} {generated : Generated}
      (found : db.orders.find? order.id = some order) (queued : order.status = .queued)
      (walletFound : db.wallets.find? order.userId = some wallet)
      (fits : (order.side.release order.reservation).Fits wallet) :
      Transition newDecimal db ⟨.rejectOrderAfterFailedProcessing order.id, generated⟩
        (db.released order .rejected wallet
          [.accountChanged .orderRejected order.userId order.id none])
  | skipped {invocation : Invocation} {id : OrderId}
      (call : invocation.call = .processOrder id ∧ db.orders.find? id ≠ none ∨
        invocation.call = .rejectOrderAfterFailedProcessing id)
      (notQueued : ∀ order, db.orders.find? id = some order → order.status ≠ .queued) :
      Transition newDecimal db invocation db

theorem call_transition (hWell : db.WellFormed) {invocation : Invocation} {outcome : Outcome}
    (h : db.call newDecimal invocation = .ok (outcome, db')) :
    db.Transition newDecimal invocation db' := by
  obtain ⟨call, generated⟩ := invocation
  unfold Database.call at h
  cases call with
  | createOrder userId side amountInput priceInput =>
      obtain ⟨order, _, hCreate, hPair⟩ := Engine.run_bind_eq_ok.mp h
      cases hPair
      obtain ⟨⟨amount, price⟩, _, hValidate, hStore⟩ := Engine.run_bind_eq_ok.mp hCreate
      obtain ⟨hValid, rfl⟩ := Engine.run_ofExcept_eq_ok.mp hValidate
      obtain ⟨hAmount, hPrice, _⟩ := OrdersService.validateOrder_eq_ok hValid
      obtain ⟨wallet, hWallet, hFits, _, hFresh, hIntent, hOut⟩ :=
        (OrdersService.run_storeOrder_eq_ok hWell.wallets hAmount.1.le hPrice.1.le).mp hStore
      cases hOut
      exact .created hValid hWallet hFits hFresh hIntent
  | cancelOrder userId orderId =>
      obtain ⟨order, _, hCancel, hPair⟩ := Engine.run_bind_eq_ok.mp h
      cases hPair
      obtain ⟨row, wallet, hRow, hActive, hCaller, hWallet, hFits, hOut⟩ :=
        (OrdersService.run_cancelOrder_eq_ok hWell).mp hCancel
      cases hOut
      obtain ⟨hFound, hOwner⟩ := Database.findOrder_eq_some.mp hRow
      obtain rfl := Table.key_of_find? hFound
      have hUser : userId ≠ "" → row.userId = userId := fun hNonempty =>
        hOwner userId (by rw [Option.filter_some, decide_eq_true hNonempty]; rfl)
      exact .cancelled hFound hUser hActive hCaller hWallet hFits
  | processOrder orderId =>
      obtain ⟨stored, _, hProcess, hPair⟩ := Engine.run_bind_eq_ok.mp h
      cases hPair
      obtain ⟨taker, hFound,
        ⟨hStatus, _, rfl⟩ | ⟨hQueued, _, progress, settled, hExecuted, rfl⟩⟩ :=
        (MatchingService.run_processOrder_eq_ok hWell (Nat.lt_succ_self _)).mp hProcess
      · refine .skipped (Or.inl ⟨rfl, by rw [hFound]; simp⟩) fun order hOrder => ?_
        rw [hFound] at hOrder
        cases hOrder
        exact hStatus
      · obtain rfl := Table.key_of_find? hFound
        exact .matched hFound hQueued hExecuted
  | rejectOrderAfterFailedProcessing orderId =>
      obtain ⟨stored, _, hReject, hPair⟩ := Engine.run_bind_eq_ok.mp h
      cases hPair
      rcases (MatchingService.run_rejectOrder_eq_ok hWell).mp hReject with
        ⟨hStatus, hOut⟩ | ⟨order, wallet, hFound, hQueued, hWallet, hFits, hOut⟩
      · cases hOut
        exact .skipped (Or.inr rfl) hStatus
      · cases hOut
        obtain rfl := Table.key_of_find? hFound
        exact .rejected hFound hQueued hWallet hFits

/-- A creation places the new order. -/
theorem toMarket_stored {generated : Generated} {wallet : Wallet} {userId : UserId}
    {side : OrderSide} {amount price : Int} :
    (OrdersService.stored generated db wallet
      (newOrder generated userId side amount price)).toMarket =
      (db.putWallet (wallet.update (side.reserve (side.reservation amount price)))).addOrder
        (newOrder generated userId side amount price) := by
  simp only [OrdersService.stored, toMarket_apply_newEvents, toMarket_apply_newIntent,
    toMarket_apply_newOrder, toMarket_apply_wallet]
  rfl

theorem Transition.evolves (hWell : db.WellFormed) {invocation : Invocation}
    (h : db.Transition newDecimal invocation db') : Market.Evolves db.toMarket db'.toMarket := by
  cases h with
  | created valid found fits fresh freshIntent =>
      rw [toMarket_stored]
      exact .single (.placed (OrdersService.newOrder_sound valid) rfl fresh found fits)
  | cancelled found owner active caller walletFound fits =>
      exact .single (.closed found (Or.inl ⟨rfl, active⟩) walletFound fits)
  | matched found queued executed =>
      have hSettling := Settling.candidates hWell found queued (List.prefix_refl _)
      obtain ⟨hEvolves, hFinal⟩ := hSettling.executed executed
      rw [Progress.market_start found queued] at hEvolves
      exact hEvolves.trans hFinal.finish_evolves
  | rejected found queued walletFound fits =>
      exact .single (.closed found (Or.inr ⟨rfl, queued⟩) walletFound fits)
  | skipped => exact .refl

/-- Every committed call is a sequence of market events. -/
theorem call_evolves {invocation : Invocation} {outcome : Outcome} (hWell : db.WellFormed)
    (h : db.call newDecimal invocation = .ok (outcome, db')) :
    Market.Evolves db.toMarket db'.toMarket :=
  (call_transition hWell h).evolves hWell

end Database

/-- Every history of calls is a sequence of market events. -/
theorem History.calls_evolve {newDecimal : String → Option DecimalValue} {history : History}
    (hWell : history.db.WellFormed) (invocations : List Invocation) :
    Market.Evolves history.db.toMarket (history.calls newDecimal invocations).db.toMarket := by
  have hEvolve := @History.calls_induction newDecimal history (fun later =>
    Market.Evolves history.db.toMarket later.db.toMarket ∧ later.db.WellFormed) ⟨.refl, hWell⟩
  refine (hEvolve ?_ invocations).1
  rintro ⟨log, before⟩ invocation outcome after ⟨hEvolves, hBefore⟩ hCall
  have hStep := Database.call_evolves hBefore hCall
  exact ⟨hEvolves.trans hStep, (hStep.induction hBefore trivial fun _ _ _ _ _ => trivial).1⟩

namespace MatchingService

variable {taker : Order} {now : Nat} {fills : List (Order × Int)} {progress progress' : Progress}
  {db db' : Database}

/-- The loop reports its trades and its users in the order of the fills. -/
theorem Executed.recorded (h : Executed taker now fills progress db progress' db') :
    ∃ trades, db'.trades = db.trades ++ trades ∧
      trades.map (·.makerOrderId) = fills.map (·.1.id) ∧
      progress'.tradeIds = progress.tradeIds ++ trades.map Trade.id ∧
      progress'.affectedUserIds =
        fills.foldl (fun userIds fill => addUser userIds fill.1.userId)
          progress.affectedUserIds := by
  induction h with
  | @nil progress db => exact ⟨[], (List.append_nil _).symm, rfl, (List.append_nil _).symm, rfl⟩
  | @cons maker amount fills progress progress' db db' buyer seller executable buyerFound
      sellerFound buyerFits sellerFits rest ih =>
      obtain ⟨trades, hTrades, hMakers, hIds, hUsers⟩ := ih
      have hMaker : (progress.fill taker maker amount).maker = maker := Fill.maker_ofTaker
      have hFirst : (db.execute (progress.fill taker maker amount) buyer seller now).trades =
          db.trades ++
            [⟨(progress.fill taker maker amount).trade, db.trades.length, db.trades.length,
            now⟩] := rfl
      refine ⟨_ :: trades, by rw [hTrades, hFirst, List.append_assoc, List.singleton_append], ?_,
        ?_, ?_⟩
      · rw [List.map_cons, List.map_cons, hMakers, Fill.trade, hMaker]
      · rw [hIds, Progress.advance, List.append_assoc, List.map_cons, List.singleton_append]
      · rw [hUsers, Progress.advance, hMaker, List.foldl_cons]

end MatchingService
end ExchangeMatching
