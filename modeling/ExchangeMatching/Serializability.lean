import ExchangeMatching.Balances
import ExchangeMatching.Visits

/-! Serializability of the trading transactions. Whatever the interleaving,
the database is the one that the committed calls leave when they run one at a
time in the order of their commits. -/
namespace ExchangeMatching

open Transactions MatchingOrderBook

namespace Workload

section Programs

variable {Index : Type} {workload : Workload Index} {newDecimal : String → Option DecimalValue}
  {admits : Index → Database → Prop} {index : Index} {held : List Resource}
  {db now later : Database} {Result : Type}
  {Q : Result → List Write → List Resource → Database → Prop}

theorem Secure.replays {needed : List Resource} {program : Transaction Result}
    (h : workload.Secure newDecimal admits index needed program (fun _ => needed))
    (hNeeded : needed ⊆ held) :
    (workload.protocol newDecimal admits).Replays workload.Permits index program [] held db
      (fun _ _ _ _ => True) :=
  (h [] held db hNeeded (by simp)).mono fun _ _ _ _ _ => trivial

/-- An order that is stored already, or that no call of the set creates. -/
def Announced (workload : Workload Index) (id : OrderId) (db : Database) : Prop :=
  (db.orders.find? id).isSome ∨ ∀ other, (workload.invocation other).creates ≠ some id

theorem Announced.of_rely {id : OrderId} (h : workload.Announced id now)
    (hRely : (workload.protocol newDecimal admits).Rely workload.Permits index held now later) :
    workload.Announced id later := by
  rcases h with hStored | hNever
  · obtain ⟨order, hOrder⟩ := Option.isSome_iff_exists.mp hStored
    obtain ⟨_, _, hLater⟩ := exists_revised_of_rely hRely hOrder
    exact Or.inl (Option.isSome_of_mem hLater)
  · exact Or.inr hNever

/-- Only a creation of the set can store the order. -/
theorem find?_eq_none_of_permitted {id : OrderId} {write : Write}
    (h : workload.Permits index held write) (hNever : (workload.invocation index).creates ≠ some id)
    (hNone : now.orders.find? id = none) : (now.apply write).orders.find? id = none := by
  cases write with
  | wallet row | newTrade row | newEvents events => exact hNone
  | order other remaining status =>
      rw [Database.toMarket_apply_order, Market.putOrder, Table.find?_modify]
      split_ifs with hId
      · rw [← hId, hNone, Option.map_none]
      · exact hNone
  | newOrder row =>
      refine (Market.find?_addOrder_of_ne ?_).trans hNone
      rintro rfl
      exact hNever h.1
  | newIntent row => rwa [Database.toMarket_apply_newIntent]

theorem Announced.stable {id : OrderId} (h : workload.Announced id now)
    (hNone : now.orders.find? id = none)
    (hRely : (workload.protocol newDecimal admits).Rely workload.Permits index held now later) :
    later.orders.find? id = none := by
  rcases h with hStored | hNever
  · rw [hNone] at hStored
    cases hStored
  · refine hRely.keeps (P := fun db => db.orders.find? id = none) ?_ hNone
    rintro _ _ ⟨_, _, hPermitted⟩ hMissing
    exact find?_eq_none_of_permitted hPermitted (hNever _) hMissing

/-- A wallet is first looked up to see whether it exists. -/
theorem replays_findWallet {userId : UserId} {next : Option Wallet → Transaction Result}
    {failure : Failure} (hNone : next none = .throw failure)
    (hSame : ∀ wallet wallet', wallet.userId = wallet'.userId →
      next (some wallet) = next (some wallet'))
    (hNext : ∀ wallet now, (workload.protocol newDecimal admits).Replays workload.Permits index
      (next (some wallet)) [] held now Q) :
    (workload.protocol newDecimal admits).Replays workload.Permits index
      (.issue (.findWallet userId) next) [] held db Q := by
  intro now _ reply written hEffect
  cases hFound : now.wallets.find? userId with
  | none =>
      have hReply : (reply, written) = (none, []) :=
        (Except.ok.inj hEffect).symm.trans (congrArg (·, []) hFound)
      cases hReply
      rw [hNone]
      refine ⟨by simp, fun later _ out hRun => ?_, trivial⟩
      cases hRun
  | some wallet =>
      have hReply : (reply, written) = (some wallet, []) :=
        (Except.ok.inj hEffect).symm.trans (congrArg (·, []) hFound)
      cases hReply
      refine ⟨by simp, fun later hLater out hRun => ?_, hNext wallet now⟩
      have hOwner : (later.wallets.find? userId).isSome = (now.wallets.find? userId).isSome :=
        isSome_wallet_of_agrees (agrees_of_rely hLater)
      rw [hFound] at hOwner
      obtain ⟨wallet', hWallet'⟩ := Option.isSome_iff_exists.mp hOwner
      have hUsers := (Table.key_of_find? hFound).trans (Table.key_of_find? hWallet').symm
      rw [hSame wallet wallet' hUsers] at hRun
      change engine.run _ (.issue (.findWallet userId) next) later = .ok out
      rw [run_findWallet, hWallet']
      exact hRun

theorem secure_appendOrder {needed : List Resource} {orderId : OrderId}
    (hCreates : (workload.invocation index).creates = some orderId) :
    workload.Secure newDecimal admits index needed (OrderMatchingOutboxService.appendOrder orderId)
      (fun _ => needed) :=
  Secure.perform fun _ _ _ => hCreates

theorem secure_storeNewOrder {needed : List Resource} {userId : UserId} {side : OrderSide}
    {amount price : Int} (hCreates : (workload.invocation index).creates.isSome) :
    workload.Secure newDecimal admits index needed (do
      let order ← OrdersRepository.createOrder userId side amount price
      OrderMatchingOutboxService.appendOrder order.id
      RealtimeOutboxService.appendEvent (.accountChanged .orderCreated userId order.id none)
      return order) (fun _ => needed) := by
  refine Secure.issue (fun _ _ _ => ⟨hCreates, rfl⟩) fun db order written hEffect => ?_
  have hId : order.id = (workload.invocation index).generated.orderId := by
    simp only [effect] at hEffect
    split at hEffect
    · cases hEffect
    · split_ifs at hEffect
      cases hEffect
      rfl
  obtain ⟨orderId, hNew⟩ := Option.isSome_iff_exists.mp hCreates
  refine (secure_appendOrder ?_).bind fun _ => secure_appendEvents.bind fun _ =>
    Secure.pure fun _ => id
  rw [hNew, hId, Invocation.orderId_of_creates hNew]

theorem replays_createOrder {userId : UserId} {side : OrderSide} {amountInput priceInput : String}
    (hCreates : (workload.invocation index).creates.isSome) :
    (workload.protocol newDecimal admits).Replays workload.Permits index
      (OrdersService.createOrder newDecimal userId side amountInput priceInput) [] held db
      (fun _ _ _ _ => True) := by
  unfold OrdersService.createOrder
  cases OrdersService.validateOrder newDecimal amountInput priceInput with
  | error failure => exact trivial
  | ok amounts =>
      obtain ⟨amount, price⟩ := amounts
      refine replays_findWallet rfl (fun wallet wallet' hUser => ?_) fun wallet now => ?_
      · have hReserve : WalletsService.reserveFunds wallet side amount price =
            WalletsService.reserveFunds wallet' side amount price := by
          rw [reserveFunds_eq, reserveFunds_eq, hUser]
        change (WalletsService.reserveFunds wallet side amount price >>= fun _ => _) = _
        rw [hReserve]
        rfl
      · exact (secure_reserveFunds.bind fun _ => secure_storeNewOrder hCreates).replays
          (List.nil_subset _)

theorem replays_cancelOrder {userId : UserId} {orderId : OrderId} :
    (workload.protocol newDecimal admits).Replays workload.Permits index
      (OrdersService.cancelOrder userId orderId) [] held db (fun _ _ _ _ => True) := by
  refine replays_lockAndLoadOrder (fun _ _ _ => Or.inl ⟨_, rfl⟩) fun order held' now _ => ?_
  dsimp only
  split_ifs
  · refine replays_findWallet rfl (fun _ _ _ => rfl) fun wallet now => ?_
    refine Secure.replays ?_ (List.nil_subset _)
    exact (secure_updateOrder (Or.inr rfl)).bind fun _ => secure_releaseFunds.bind fun _ =>
      secure_appendEvents.bind fun _ => Secure.pure fun _ => id
  · exact trivial

theorem replays_processOrder {fuel : Nat} {orderId : OrderId} :
    (workload.protocol newDecimal admits).Replays workload.Permits index
      (MatchingService.processOrder fuel orderId) [] held db (fun _ _ _ _ => True) := by
  refine replays_protected (by simp) fun now _ reply written hEffect => ⟨trivial, ?_⟩
  cases hEffect
  refine replays_lockAndLoadOrder (fun _ _ _ => Or.inl ⟨_, rfl⟩) fun taker held' now' hHeld => ?_
  dsimp only
  split_ifs
  · exact fun _ _ => trivial
  · refine (replays_searchMakers (hHeld (Protocol.mem_heldAfter.mpr (Or.inl rfl)))).bind ?_
    rintro makers writes held'' now'' ⟨rfl, hMarket⟩
    exact (secure_settleTaker (List.mem_singleton.mpr rfl)).replays (by simpa using hMarket)

theorem replays_rejectOrder {orderId : OrderId} (h : workload.Announced orderId db) :
    (workload.protocol newDecimal admits).Replays workload.Permits index
      (MatchingService.rejectOrderAfterFailedProcessing orderId) [] held db
        (fun _ _ _ _ => True) := by
  refine replays_protected (by simp) fun now hNow reply written hEffect => ⟨trivial, ?_⟩
  cases hEffect
  refine replays_lockAndLoadOrder (fun now' hNow' hNone => Or.inr ⟨?_, fun _ _ => trivial⟩)
    fun order held' now' _ => ?_
  · simp only [Option.filter_none, Database.findOrder_none] at hNone ⊢
    exact fun later => ((h.of_rely hNow).of_rely hNow').stable hNone
  · dsimp only
    split_ifs
    · exact fun _ _ => trivial
    · refine Secure.replays ?_ (List.nil_subset _)
      exact (secure_updateOrder (Or.inr rfl)).bind fun _ => secure_releaseFunds.bind fun _ =>
        secure_appendEvents.bind fun _ => Secure.pure fun _ => id

/-- A rejection is only requested for an order that is stored already. -/
def Admits (workload : Workload Index) (index : Index) (db : Database) : Prop :=
  ∀ id, (workload.invocation index).call = .rejectOrderAfterFailedProcessing id →
    workload.Announced id db

theorem replays_transaction {program : Transaction Outcome}
    (h : (workload.protocol newDecimal workload.Admits).starts index db program) :
    (workload.protocol newDecimal workload.Admits).Replays workload.Permits index program [] [] db
      (fun _ _ _ _ => True) := by
  obtain ⟨hAdmitted, fuel, rfl⟩ := h
  cases hCall : (workload.invocation index).call with
  | createOrder userId side amountInput priceInput =>
      have hCreates : (workload.invocation index).creates.isSome := by
        rw [Invocation.creates, hCall]
        rfl
      exact (replays_createOrder hCreates).bind fun _ _ _ _ _ _ _ => trivial
  | cancelOrder userId orderId => exact replays_cancelOrder.bind fun _ _ _ _ _ _ _ => trivial
  | processOrder orderId => exact replays_processOrder.bind fun _ _ _ _ _ _ _ => trivial
  | rejectOrderAfterFailedProcessing orderId =>
      exact (replays_rejectOrder (hAdmitted orderId hCall)).bind fun _ _ _ _ _ _ _ => trivial

end Programs
end Workload

theorem MatchingService.run_processOrder_turns {generated : Generated} {db : Database}
    {fuel fuel' : Nat} {orderId : OrderId} {out : Bool × Database}
    (h : engine.run generated (processOrder fuel orderId) db = .ok out)
    (hTurns : db.orders.rows.length < fuel') :
    engine.run generated (processOrder fuel' orderId) db = .ok out := by
  unfold processOrder lockMarket at h ⊢
  rw [Program.perform_bind, run_lockMarket, run_lockAndLoadOrder] at h ⊢
  cases hTaker : db.findOrder orderId (Option.filter (· ≠ "") none) with
  | none =>
      rw [hTaker] at h
      cases h
  | some taker =>
      rw [hTaker] at h
      dsimp only at h ⊢
      split_ifs at h ⊢
      · exact h
      · obtain ⟨makers, searched, hSearch, hSettle⟩ := Engine.run_bind_eq_ok.mp h
        have hCandidates : (candidates db.orders.rows taker none).length < fuel' := by
          refine Nat.lt_of_le_of_lt ?_ hTurns
          rw [candidates, List.length_insertionSort]
          exact List.length_filter_le _ _
        exact Engine.run_bind_eq_ok.mpr ⟨makers, searched,
          run_searchMakers_turns hSearch (Or.inr hCandidates), hSettle⟩

/-- A transaction that runs alone needs no more turns than a call takes. -/
theorem Database.call_of_run {newDecimal : String → Option DecimalValue} {invocation : Invocation}
    {db : Database} {fuel : Nat} {out : Outcome × Database}
    (h : engine.run invocation.generated (invocation.call.transaction newDecimal fuel) db =
      .ok out) :
    db.call newDecimal invocation = .ok out := by
  unfold call
  cases hCall : invocation.call with
  | createOrder userId side amountInput priceInput => rwa [hCall] at h
  | cancelOrder userId orderId => rwa [hCall] at h
  | processOrder orderId =>
      rw [hCall] at h
      obtain ⟨stored, db', hRun, hReturn⟩ := Engine.run_bind_eq_ok.mp h
      exact Engine.run_bind_eq_ok.mpr ⟨stored, db',
        MatchingService.run_processOrder_turns hRun (Nat.lt_succ_self _), hReturn⟩
  | rejectOrderAfterFailedProcessing orderId => rwa [hCall] at h

namespace Workload

variable {Index : Type} {workload : Workload Index} {newDecimal : String → Option DecimalValue}
  {start db : Database}

theorem calls_of_serially {admits : Index → Database → Prop} {log : List (Index × Outcome)}
    (h : (workload.protocol newDecimal admits).Serially start log db) :
    (History.start start).calls newDecimal (log.map fun entry => workload.invocation entry.1) =
      ⟨log.map fun entry => ⟨workload.invocation entry.1, entry.2⟩, db⟩ := by
  induction h with
  | nil => rfl
  | snoc before starts run ih =>
      obtain ⟨_, fuel, rfl⟩ := starts
      rw [List.map_append, History.calls_append, ih, List.map_append]
      simp only [List.map_cons, List.map_nil, History.calls_cons, History.calls_nil, History.call]
      rw [Database.call_of_run run]

variable [DecidableEq Index]

/-- Calls that run side by side, in any interleaving of their statements and
with any rollbacks, leave the wallets, orders and trades that the committed
ones leave when they run one at a time in commit order. -/
theorem serializable {system : System Statement Failure Database Write Resource Outcome Index}
    (hRun : (workload.protocol newDecimal workload.Admits).Reaches (.start start) system) :
    (History.start start).calls newDecimal
        (system.log.map fun entry => workload.invocation entry.1) =
      ⟨system.log.map fun entry => ⟨workload.invocation entry.1, entry.2⟩, system.committed⟩ :=
  calls_of_serially (Protocol.serially_of_reaches permits_mono
    (fun _ _ _ => replays_transaction) hRun)

end Workload

namespace Sample

/-- Two transactions that have both begun. -/
def begun (workload : Workload Bool) (db : Database) :
    System Statement Failure Database Write Resource Outcome Bool :=
  ((System.start db).put true
      (.running ⟨(workload.invocation true).call.transaction newDecimal 2, [], []⟩)).put
    false (.running ⟨(workload.invocation false).call.transaction newDecimal 2, [], []⟩)

theorem reaches_begun {workload : Workload Bool} {admits : Bool → Database → Prop} {db : Database}
    (hAdmits : ∀ index, admits index db) :
    (workload.protocol newDecimal admits).Reaches (.start db) (begun workload db) :=
  (Relation.ReflTransGen.single (.start true rfl ⟨hAdmits true, 2, rfl⟩)).tail
    (.start false rfl ⟨hAdmits false, 2, rfl⟩)

/-- What the two transactions lead to under a schedule. -/
def scheduled (workload : Workload Bool) (admits : Bool → Database → Prop) (db : Database)
    (schedule : List Bool) :
    Option (System Statement Failure Database Write Resource Outcome Bool) :=
  schedule.foldlM (workload.protocol newDecimal admits).advance (begun workload db)

theorem reaches_scheduled {workload : Workload Bool} {admits : Bool → Database → Prop}
    {db : Database} {schedule : List Bool} (hAdmits : ∀ index, admits index db)
    (h : (scheduled workload admits db schedule).isSome) :
    (workload.protocol newDecimal admits).Reaches (.start db)
      ((scheduled workload admits db schedule).get h) :=
  (reaches_begun hAdmits).trans (Protocol.reaches_of_schedule (Option.some_get h).symm)

/-- A maker is cancelled while a match has it in sight. -/
def race : Workload Bool where
  invocation
    | false => ⟨.cancelOrder "seller" "sell", ⟨"", 0, "", 14⟩⟩
    | true => ⟨.processOrder "buy", ⟨"", 0, "", 15⟩⟩
  apart first second _ hFirst _ := by cases first <;> cases hFirst

def beforeRace : Database := ((History.start start).calls newDecimal (calls.take 3)).db

/-- The whole cancellation runs after the match has found its candidate. -/
def raceSchedule : List Bool := [true, true, true, true, false, false, false, false, false, false,
  false, true, true, true, true, true, true]

/-- An order is created while its rejection is already under way. -/
def early : Workload Bool where
  invocation
    | false => ⟨.createOrder "seller" .sell "1" "5", ⟨"sell", 1, "intent 1", 10⟩⟩
    | true => ⟨.rejectOrderAfterFailedProcessing "sell", ⟨"", 0, "", 11⟩⟩
  apart first second hNe hFirst hSecond := by
    cases first with
    | true => cases hFirst
    | false =>
        cases second with
        | true => cases hSecond
        | false => exact absurd rfl hNe

/-- The rejection has looked for the order before the creation commits. -/
def earlySchedule : List Bool := [true, true, false, false, false, false, false, false, true]

end Sample

namespace Workload

theorem serializable_race : ∃ system,
    (Sample.race.protocol Sample.newDecimal Sample.race.Admits).Reaches
      (.start Sample.beforeRace) system ∧
    system.committed.orders.rows.map Order.status = [.cancelled, .opened] ∧
    (History.start Sample.beforeRace).calls Sample.newDecimal
        (system.log.map fun entry => Sample.race.invocation entry.1) =
      ⟨system.log.map fun entry => ⟨Sample.race.invocation entry.1, entry.2⟩,
        system.committed⟩ := by
  have hRun := @Sample.reaches_scheduled Sample.race Sample.race.Admits Sample.beforeRace
    Sample.raceSchedule (fun index _ h => by cases index <;> cases h) (by decide +kernel)
  exact ⟨_, hRun, by decide +kernel, serializable hRun⟩

/-- A rejection that starts before its order is stored commits without effect,
after the creation has committed. -/
theorem early_rejection_not_serializable : ∃ system,
    (Sample.early.protocol Sample.newDecimal fun _ _ => True).Reaches (.start Sample.start) system ∧
    system.committed.orders.rows.map Order.status = [.queued] ∧
    ((History.start Sample.start).calls Sample.newDecimal
      (system.log.map fun entry => Sample.early.invocation entry.1)).db.orders.rows.map
        Order.status = [.rejected] := by
  have hRun := @Sample.reaches_scheduled Sample.early (fun _ _ => True) Sample.start
    Sample.earlySchedule (fun _ => trivial) (by decide +kernel)
  exact ⟨_, hRun, by decide +kernel, by decide +kernel⟩

end Workload
end ExchangeMatching
