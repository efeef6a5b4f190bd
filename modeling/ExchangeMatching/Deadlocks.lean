import ExchangeMatching.Library.LockOrder
import ExchangeMatching.Serializability

/-! The lock protocol has no deadlock. Every transaction locks the market, then
orders, then wallets. Only a match, which holds the market, locks several
orders or several wallets, so no second one does so at the same time. -/
namespace ExchangeMatching

open Transactions MatchingOrderBook

def Resource.rank : Resource → Nat
  | .market => 0
  | .order _ => 1
  | .wallet _ => 2

def lockOrder : LockOrder Resource where
  rank := Resource.rank
  gate := .market
  bound := 2
  rank_le resource := by cases resource <;> simp [Resource.rank]

/-- Programs that lock wallets, and apart from them only what is held. -/
def LocksWallets {Result : Type} (held : List Resource) (program : Transaction Result) : Prop :=
  program.Within (fun statement => ∀ db, ∀ resource ∈ locks statement db,
    resource ∈ held ∨ ∃ userId, resource = .wallet userId) (fun _ => True)

namespace LocksWallets

variable {Result : Type} {held : List Resource}

/-- A computation locks nothing. -/
theorem ofExcept {computation : Except Failure Result} :
    LocksWallets held (.ofExcept computation) := Program.Within.ofExcept fun _ _ => trivial

/-- A statement keeps to wallets if all that it locks is held already or is the row
of a wallet. -/
theorem perform {Reply : Type} {statement : Statement Reply}
    (h : ∀ db, ∀ resource ∈ locks statement db, resource ∈ held ∨
      ∃ userId, resource = .wallet userId) :
    LocksWallets held (.perform statement) := Program.Within.perform h

/-- An update of a wallet locks the row of that wallet. -/
theorem updateWallet {userId : UserId} {condition : BalanceWhere} {data : BalanceUpdate} :
    LocksWallets held (.perform (.updateWallet userId condition data)) := by
  refine perform fun db resource hLock => Or.inr ?_
  obtain ⟨_, _, rfl⟩ := Option.map_eq_some_iff.mp hLock
  exact ⟨userId, rfl⟩

/-- An update of an order that is held locks nothing new. -/
theorem updateOrder {id : OrderId} {data : OrderUpdate} (hHeld : .order id ∈ held) :
    LocksWallets held (.perform (.updateOrder id data)) := by
  refine perform fun db resource hLock => Or.inl ?_
  obtain ⟨_, _, rfl⟩ := Option.map_eq_some_iff.mp hLock
  exact hHeld

/-- Updating balances locks one wallet, even when the guard of the update finds no
row. -/
theorem updateBalances {userId : UserId} {data : BalanceUpdate} :
    LocksWallets held (WalletsRepository.updateBalances userId data) := by
  refine ofExcept.bind fun _ => updateWallet.bind fun count => ?_
  split_ifs <;> exact trivial

/-- Events are new rows, which need no lock. -/
theorem appendEvents {events : List RealtimeDispatchEvent} :
    LocksWallets held (RealtimeOutboxService.appendEvents events) := by
  unfold RealtimeOutboxService.appendEvents
  split_ifs
  · exact trivial
  · exact perform fun db resource hLock => by cases hLock

/-- Locking the wallets of several users locks nothing but wallets. -/
theorem lockAndLoadByUserIds {userIds : List UserId} :
    LocksWallets held (WalletsRepository.lockAndLoadByUserIds userIds) := by
  have hLocks : ∀ sorted, LocksWallets held (WalletsRepository.lockWallets sorted) := by
    intro sorted
    induction sorted with
    | nil => exact trivial
    | cons userId sorted ih =>
        refine (perform fun db resource hLock => Or.inr ?_).bind fun _ => ih
        obtain ⟨_, _, rfl⟩ := Option.map_eq_some_iff.mp hLock
        exact ⟨userId, rfl⟩
  simp only [WalletsRepository.lockAndLoadByUserIds]
  split_ifs
  · exact trivial
  · exact (hLocks _).bind fun _ => perform fun db resource hLock => by cases hLock

/-- The two updates of a settlement lock the wallets of the two users. -/
theorem applyTradeBalances {taker maker : Order} {takerWallet makerWallet : Wallet}
    {tradeAmount tradePrice : Int} :
    LocksWallets held (TradeSettlement.applyTradeBalances taker maker takerWallet makerWallet
      tradeAmount tradePrice) := by
  refine ofExcept.bind fun _ => ?_
  cases taker.side with
  | buy =>
      iterate 7 refine ofExcept.bind fun _ => ?_
      exact updateBalances.bind fun _ => updateBalances
  | sell =>
      iterate 7 refine ofExcept.bind fun _ => ?_
      exact updateBalances.bind fun _ => updateBalances

/-- A trade updates the maker, whose row the search has locked, and inserts a row. -/
theorem recordTrade {taker maker : Order} {tradeAmount : Int} {progress : MatchingService.Progress}
    (hMaker : .order maker.id ∈ held) :
    LocksWallets held (MatchingService.recordTrade taker maker tradeAmount progress) := by
  refine ofExcept.bind fun _ => ofExcept.bind fun _ => ?_
  refine (perform fun db resource hLock => by cases hLock).bind fun _ =>
    (updateOrder hMaker).bind fun _ => ?_
  exact ofExcept.bind fun _ => ofExcept.bind fun _ => trivial

/-- So the whole loop over the makers locks only wallets, by induction on the list
of makers. -/
theorem settleMakers {taker : Order} {makers : List Order} {progress : MatchingService.Progress}
    (hMakers : ∀ maker ∈ makers, .order maker.id ∈ held) :
    LocksWallets held (MatchingService.settleMakers taker makers progress) := by
  induction makers generalizing progress with
  | nil => exact trivial
  | cons maker makers ih =>
      rw [List.forall_mem_cons] at hMakers
      have hTrade : ∀ tradeAmount, LocksWallets held (do
          if (← Program.ofExcept (multiplyScaled tradeAmount maker.price)) = 0 then
            MatchingService.settleMakers taker makers progress
          else
            let progress ← MatchingService.executeTrade taker maker tradeAmount progress
            MatchingService.settleMakers taker makers progress) := by
        intro tradeAmount
        refine ofExcept.bind fun executed => ?_
        split_ifs
        · exact ih hMakers.2
        · refine Program.Within.bind (lockAndLoadByUserIds.bind fun lockedWallets => ?_)
            fun _ => ih hMakers.2
          split
          · exact applyTradeBalances.bind fun _ => recordTrade hMakers.1
          · exact trivial
      simp only [MatchingService.settleMakers]
      split_ifs
      · exact trivial
      · exact ih hMakers.2
      · exact hTrade _
      · exact hTrade _

/-- And so does the settlement around the loop, as the taker was locked when it was
loaded. -/
theorem settleTaker {taker : Order} {makers : List Order} (hTaker : .order taker.id ∈ held)
    (hMakers : ∀ maker ∈ makers, .order maker.id ∈ held) :
    LocksWallets held (MatchingService.settleTaker taker makers) := by
  unfold MatchingService.settleTaker
  split_ifs
  · exact (updateOrder hTaker).bind fun _ => appendEvents.bind fun _ => trivial
  · exact (settleMakers hMakers).bind fun _ => (updateOrder hTaker).bind fun _ =>
      appendEvents.bind fun _ => trivial

end LocksWallets

namespace Workload

variable {Index : Type} {workload : Workload Index} {newDecimal : String → Option DecimalValue}
  {admits : Index → Database → Prop} {index : Index} {held : List Resource} {Result : Type}

/-- Under the lock of the market wallets may be locked in any order, because only
one transaction at a time has that lock. -/
theorem allows_wallet (hMarket : .market ∈ held) (userId : UserId) :
    lockOrder.Allows held (.wallet userId) :=
  Or.inr fun other _ => Or.inr ⟨hMarket, lockOrder.rank_le other⟩

/-- With the market and its orders locked, a program may lock any wallet. -/
theorem orderly_locksWallets {base : List Resource} {program : Transaction Result}
    (h : LocksWallets base program) (hMarket : .market ∈ base) (hBase : base ⊆ held) :
    (workload.protocol newDecimal admits).Orderly lockOrder index program held
      (fun _ _ => True) := by
  refine Protocol.Orderly.of_within h ?_ hBase
  intro _ statement db resource held' hAllowed hHeld hLock
  rcases hAllowed db resource hLock with hOld | ⟨userId, rfl⟩
  · exact Or.inl (hHeld hOld)
  · exact allows_wallet (hHeld hMarket) userId

/-- A program that takes no lock at all. -/
theorem orderly_lockFree {program : Transaction Result} {P : Failure → Prop}
    (h : program.Within (fun statement => ∀ db, locks statement db = none) P) :
    (workload.protocol newDecimal admits).Orderly lockOrder index program held
      (fun _ _ => True) := by
  refine Protocol.Orderly.of_within h ?_ (List.nil_subset held)
  intro _ statement db resource held' hFree _ hLock
  rw [show (workload.protocol newDecimal admits).locks statement db = none from hFree db] at hLock
  cases hLock

/-- A single guarded update asks for one lock, on a wallet that the order allows. -/
theorem orderly_guardedUpdate {failure : Failure} {userId : UserId} {data : BalanceUpdate}
    (hAllowed : lockOrder.Allows held (.wallet userId)) :
    (workload.protocol newDecimal admits).Orderly lockOrder index
      (guardedUpdate failure userId data) held (fun _ _ => True) := by
  unfold guardedUpdate
  cases balanceConstraints data with
  | error failure => exact trivial
  | ok constraints =>
      refine fun db => ⟨fun resource hLock => ?_, fun count writes _ => ?_⟩
      · obtain ⟨_, _, rfl⟩ := Option.map_eq_some_iff.mp hLock
        exact hAllowed
      · change Protocol.Orderly _ _ _ (if count = 0 then .throw failure else pure ()) _ _
        split_ifs <;> exact trivial

/-- Reserving and releasing funds take the lock of one wallet. -/
theorem orderly_moveFunds {side : OrderSide} {amount price : Int} {failure : Failure}
    {userId : UserId} {data : Int → BalanceUpdate}
    (hAllowed : lockOrder.Allows held (.wallet userId)) :
    (workload.protocol newDecimal admits).Orderly lockOrder index (do
      let required ← match side with
        | .buy => Program.ofExcept (multiplyScaled amount price)
        | .sell => pure amount
      guardedUpdate failure userId (data required)) held (fun _ _ => True) := by
  cases side with
  | sell => exact orderly_guardedUpdate hAllowed
  | buy =>
      dsimp only
      cases multiplyScaled amount price with
      | ok required => exact orderly_guardedUpdate hAllowed
      | error failure => exact trivial

/-- Releasing funds is such an update, of the owner's wallet. -/
theorem orderly_releaseFunds {order : Order}
    (hAllowed : lockOrder.Allows held (.wallet order.userId)) :
    (workload.protocol newDecimal admits).Orderly lockOrder index
      (WalletsService.releaseFunds order) held (fun _ _ => True) := by
  rw [releaseFunds_eq]
  exact orderly_moveFunds hAllowed

/-- Reserving funds is one as well, after a computation that asks for nothing. -/
theorem orderly_reserveFunds {wallet : Wallet} {side : OrderSide} {amount price : Int}
    (hAllowed : lockOrder.Allows held (.wallet wallet.userId)) :
    (workload.protocol newDecimal admits).Orderly lockOrder index
      (WalletsService.reserveFunds wallet side amount price) held (fun _ _ => True) := by
  rw [reserveFunds_eq]
  exact orderly_moveFunds hAllowed

/-- Loading an order with its lock asks for that lock only, and a row that is found
is held afterwards. -/
theorem orderly_lockAndLoadOrder {id : OrderId} {userId : Option UserId}
    (hAllowed : lockOrder.Allows held (.order id)) (hBelow : ∀ resource ∈ held, resource.rank < 2) :
    (workload.protocol newDecimal admits).Orderly lockOrder index
      (OrdersRepository.lockAndLoadOrder id userId) held
      (fun found held' => held ⊆ held' ∧ (∀ resource ∈ held', resource.rank < 2) ∧
        ∀ order ∈ found, order.id = id ∧ .order id ∈ held') := by
  simp only [OrdersRepository.lockAndLoadOrder, Program.perform_bind]
  generalize userId.filter (· ≠ "") = asked
  intro db
  refine ⟨fun resource hLock => ?_, fun locked writes hEffect => ?_⟩
  · obtain ⟨_, _, rfl⟩ := Option.map_eq_some_iff.mp hLock
    exact hAllowed
  · have hReply : (locked, writes) = ((db.findOrder id asked).isSome, []) :=
      (Except.ok.inj hEffect).symm
    cases hLoaded : db.findOrder id asked with
    | none =>
        have hLocks : locks (.lockOrder id asked) db =
            none := by rw [locks, hLoaded, Option.map_none]
        rw [hLoaded] at hReply
        cases hReply
        rw [show (workload.protocol newDecimal admits).locks (.lockOrder id asked) db =
          none from hLocks]
        exact ⟨List.Subset.refl _, hBelow, by simp⟩
    | some order =>
        have hLocks : locks (.lockOrder id asked) db = some (.order id) := by
          rw [locks, hLoaded, Option.map_some]
        rw [hLoaded] at hReply
        cases hReply
        rw [show (workload.protocol newDecimal admits).locks (.lockOrder id asked) db =
          _ from hLocks]
        refine fun db' => ⟨fun resource hLock => (by cases hLock), fun found writes hEffect' => ?_⟩
        have hFound : (found, writes) = (db'.findOrder id asked, []) :=
          (Except.ok.inj hEffect').symm
        cases hFound
        refine ⟨List.subset_cons_self _ _,
          List.forall_mem_cons.mpr ⟨Nat.lt_succ_self 1, hBelow⟩, ?_⟩
        intro order hOrder
        exact ⟨Table.key_of_find? (Option.filter_eq_some_iff.mp hOrder).1, List.mem_cons_self⟩

/-- A new order locks the wallet of its user and nothing else that was there before. -/
theorem orderly_createOrder {userId : UserId} {side : OrderSide} {amountInput priceInput : String} :
    (workload.protocol newDecimal admits).Orderly lockOrder index
      (OrdersService.createOrder newDecimal userId side amountInput priceInput) []
      (fun _ _ => True) := by
  unfold OrdersService.createOrder
  cases OrdersService.validateOrder newDecimal amountInput priceInput with
  | error failure => exact trivial
  | ok amounts =>
      obtain ⟨amount, price⟩ := amounts
      refine fun db => ⟨fun resource hLock => (by cases hLock), fun wallet writes _ => ?_⟩
      cases wallet with
      | none => exact trivial
      | some wallet =>
          have hAllowed : lockOrder.Allows [] (.wallet wallet.userId) :=
            Or.inr fun other hMem => by cases hMem
          change Protocol.Orderly _ _ _
            (WalletsService.reserveFunds wallet side amount price >>= _) [] _
          refine (orderly_reserveFunds hAllowed).bind fun _ held' _ =>
            orderly_lockFree (P := fun _ => True) ?_
          exact ⟨fun _ => rfl, fun _ =>
            ⟨fun _ => rfl, fun _ => ⟨fun _ => rfl, fun _ => trivial⟩⟩⟩

/-- Closing an order goes on from the order to the wallet of its user. -/
theorem orderly_closeOrder {order : Order} {status : OrderStatus}
    {next : Order → Transaction Result}
    (hHeld : .order order.id ∈ held) (hBelow : ∀ resource ∈ held, resource.rank < 2)
    (hNext : ∀ updated, (next updated).Within (fun statement => ∀ db, locks statement db = none)
      (fun _ => True)) :
    (workload.protocol newDecimal admits).Orderly lockOrder index (do
      let updated ← Program.perform (.updateOrder order.id ⟨none, status⟩)
      WalletsService.releaseFunds order
      next updated) held (fun _ _ => True) := by
  rw [Program.perform_bind]
  refine fun db => ⟨fun resource hLock => ?_, fun updated writes _ => ?_⟩
  · obtain ⟨_, _, rfl⟩ := Option.map_eq_some_iff.mp hLock
    exact Or.inl hHeld
  · refine Protocol.Orderly.bind (orderly_releaseFunds (Or.inr fun resource hMem => Or.inl ?_))
      fun _ held' _ => orderly_lockFree (hNext updated)
    rcases List.mem_append.mp hMem with hLock | hOld
    · obtain ⟨_, _, rfl⟩ := Option.map_eq_some_iff.mp (Option.mem_toList.mp hLock)
      exact Nat.lt_succ_self 1
    · exact hBelow resource hOld

/-- A cancellation locks an order before a wallet, which is upwards in the order of
locks. -/
theorem orderly_cancelOrder {userId : UserId} {orderId : OrderId} :
    (workload.protocol newDecimal admits).Orderly lockOrder index
      (OrdersService.cancelOrder userId orderId) [] (fun _ _ => True) := by
  refine (orderly_lockAndLoadOrder (Or.inr fun _ hMem => by cases hMem)
    fun _ hMem => by cases hMem).bind ?_
  rintro (_ | order) held ⟨_, hBelow, hOrder⟩
  · exact trivial
  · obtain ⟨rfl, hHeld⟩ := hOrder order rfl
    dsimp only
    split_ifs
    · refine fun db => ⟨fun resource hLock => (by cases hLock), fun wallet writes _ => ?_⟩
      cases wallet with
      | none => exact trivial
      | some wallet =>
          exact orderly_closeOrder hHeld hBelow fun updated =>
            Program.Within.bind (Program.Within.perform fun _ => rfl) fun _ => trivial
    · exact trivial

/-- Once the market is locked, any order may be. -/
theorem allows_order (id : OrderId) : lockOrder.Allows [.market] (.order id) :=
  Or.inr (List.forall_mem_singleton.mpr (Or.inl Nat.zero_lt_one))

/-- The lock of the market has the lowest rank. -/
theorem below_market : ∀ resource ∈ [Resource.market], resource.rank < 2 :=
  List.forall_mem_singleton.mpr Nat.zero_lt_two

/-- A rejection locks an order before a wallet like a cancellation. -/
theorem orderly_rejectOrder {orderId : OrderId} :
    (workload.protocol newDecimal admits).Orderly lockOrder index
      (MatchingService.rejectOrderAfterFailedProcessing orderId) [] (fun _ _ => True) := by
  refine fun db => ⟨fun _ _ => Or.inr fun _ hMem => (by cases hMem), fun _ _ _ => ?_⟩
  refine (orderly_lockAndLoadOrder (allows_order orderId) below_market).bind ?_
  rintro (_ | order) held ⟨_, hBelow, hOrder⟩
  · exact trivial
  · obtain ⟨rfl, hHeld⟩ := hOrder order rfl
    dsimp only
    split_ifs
    · exact trivial
    · exact orderly_closeOrder hHeld hBelow fun updated =>
        Program.Within.bind (Program.Within.perform fun _ => rfl) fun _ => trivial

/-- The search locks one maker after another, out of their order, which the
lock of the market permits. -/
theorem orderly_searchMakers {taker : Order} {fuel : Nat} {remaining : Int}
    {cursor : Option MakerCursor} {makers : List Order}
    (hBelow : ∀ resource ∈ held, resource.rank < 2)
    (hMarket : .market ∈ held) (hTaker : .order taker.id ∈ held)
    (hMakers : ∀ maker ∈ makers, .order maker.id ∈ held) :
    (workload.protocol newDecimal admits).Orderly lockOrder index
      (searchMakers taker fuel remaining cursor makers) held
      (fun makers held' => .market ∈ held' ∧ .order taker.id ∈ held' ∧
        ∀ maker ∈ makers, .order maker.id ∈ held') := by
  induction fuel generalizing remaining cursor makers held with
  | zero => exact trivial
  | succ fuel ih =>
      by_cases hRemaining : 0 < remaining
      · rw [searchMakers_succ hRemaining]
        refine fun db => ⟨fun _ hLock => (by cases hLock), fun head writes _ => ?_⟩
        cases head with
        | none => exact ⟨hMarket, hTaker, hMakers⟩
        | some candidate =>
            have hAllowed : lockOrder.Allows held (.order candidate.id) :=
              Or.inr fun other hOther => Or.inr ⟨hMarket, Nat.le_of_lt_succ (hBelow other hOther)⟩
            refine (orderly_lockAndLoadOrder hAllowed hBelow).bind ?_
            rintro found held' ⟨hHeld, hBelow', hFound⟩
            have hMakers' : ∀ maker ∈ makers, .order maker.id ∈ held' :=
              fun maker hMem => hHeld (hMakers maker hMem)
            cases found with
            | none => exact ih hBelow' (hHeld hMarket) (hHeld hTaker) hMakers'
            | some maker =>
                dsimp only
                split_ifs
                · have hLocked : ∀ maker' ∈ makers ++ [maker], .order maker'.id ∈ held' := by
                    obtain ⟨hId, hMaker⟩ := hFound maker rfl
                    rw [List.forall_mem_append, List.forall_mem_singleton, hId]
                    exact ⟨hMakers', hMaker⟩
                  cases cover remaining maker with
                  | ok left => exact ih hBelow' (hHeld hMarket) (hHeld hTaker) hLocked
                  | error failure => exact trivial
                · exact ih hBelow' (hHeld hMarket) (hHeld hTaker) hMakers'
      · rw [searchMakers, if_neg hRemaining]
        exact ⟨hMarket, hTaker, hMakers⟩

/-- Matching asks for the market, the taker, the makers and last the wallets. -/
theorem orderly_processOrder {fuel : Nat} {orderId : OrderId} :
    (workload.protocol newDecimal admits).Orderly lockOrder index
      (MatchingService.processOrder fuel orderId) [] (fun _ _ => True) := by
  refine fun db => ⟨fun _ _ => Or.inr fun _ hMem => (by cases hMem), fun _ _ _ => ?_⟩
  refine (orderly_lockAndLoadOrder (allows_order orderId) below_market).bind ?_
  rintro (_ | taker) held ⟨hOld, hBelow, hOrder⟩
  · exact trivial
  · obtain ⟨rfl, hHeld⟩ := hOrder taker rfl
    dsimp only
    split_ifs
    · exact trivial
    · refine (orderly_searchMakers hBelow (hOld List.mem_cons_self) hHeld (by simp)).bind ?_
      rintro makers held' ⟨hMarket, hTaker, hMakers⟩
      exact orderly_locksWallets (LocksWallets.settleTaker hTaker hMakers) hMarket
        (List.Subset.refl _)

/-- Every transaction that a call can start asks for its locks in order. -/
theorem orderly_transaction {program : Transaction Outcome} {db : Database}
    (h : (workload.protocol newDecimal admits).starts index db program) :
    (workload.protocol newDecimal admits).Orderly lockOrder index program [] (fun _ _ => True) := by
  obtain ⟨_, fuel, rfl⟩ := h
  cases (workload.invocation index).call with
  | createOrder userId side amountInput priceInput =>
      exact orderly_createOrder.bind fun _ _ _ => trivial
  | cancelOrder userId orderId => exact orderly_cancelOrder.bind fun _ _ _ => trivial
  | processOrder orderId => exact orderly_processOrder.bind fun _ _ _ => trivial
  | rejectOrderAfterFailedProcessing orderId => exact orderly_rejectOrder.bind fun _ _ _ => trivial

variable [DecidableEq Index]

/-- Calls on any orders of any users, in any interleaving, never wait for each
other in a circle, and one of them can always go on. -/
theorem deadlock_free {start : Database}
    {system : System Statement Failure Database Write Resource Outcome Index}
    (hRun : (workload.protocol newDecimal admits).Reaches (.start start) system) :
    (∀ index, ¬Relation.TransGen ((workload.protocol newDecimal admits).Waits system)
      index index) ∧
    ((∃ index, system.phases index ≠ .over) → ∃ ready, system.phases ready ≠ .over ∧
      ∀ holder, ¬(workload.protocol newDecimal admits).Waits system ready holder) :=
  ⟨Protocol.waits_acyclic (fun _ _ _ => orderly_transaction) hRun,
    fun ⟨_, hUnfinished⟩ => Protocol.exists_unblocked (fun _ _ _ => orderly_transaction) hRun
      hUnfinished⟩

/-- A cancellation waits for a match that has locked its order. -/
theorem deadlock_free_race : ∃ system,
    (Sample.race.protocol Sample.newDecimal fun _ _ => True).Reaches
      (.start Sample.beforeRace) system ∧
    (Sample.race.protocol Sample.newDecimal fun _ _ => True).Waits system false true ∧
    (∀ index, ¬Relation.TransGen
      ((Sample.race.protocol Sample.newDecimal fun _ _ => True).Waits system) index index) ∧
    ((∃ index, system.phases index ≠ .over) → ∃ ready, system.phases ready ≠ .over ∧
      ∀ holder, ¬(Sample.race.protocol Sample.newDecimal fun _ _ => True).Waits system ready
        holder) := by
  have hRun := @Sample.reaches_scheduled Sample.race (fun _ _ => True) Sample.beforeRace
    [true, true, true, true, true] (fun _ => trivial) (by decide +kernel)
  refine ⟨_, hRun, ?_, deadlock_free hRun⟩
  exact ⟨_, _, _, _, _, rfl, by decide, .order "sell", by decide +kernel, by decide +kernel⟩

end Workload
end ExchangeMatching
