import ExchangeMatching.Concurrent

/-! Serializability of the trading transactions. Almost every statement reads
rows that the transaction has locked. The others are the first look at a
wallet, which only asks whether it exists, and the maker search, whose
candidates can only disappear while the market is locked. -/
namespace ExchangeMatching

open Transactions

namespace Workload

variable {Index : Type} (workload : Workload Index) (newDecimal : String → Option DecimalValue)
  (admits : Index → Database → Prop)

/-- Statements whose result the locks protect. -/
def Protected {Reply : Type} (index : Index) (held : List Resource) (statement : Statement Reply)
    (db : Database) : Prop :=
  match statement with
  | .lockMarket | .lockWallet _ | .updateWallet .. | .insertEvents _ => True
  | .lockOrder id userId => (db.findOrder id userId).isSome
  | .findOrder id _ => .order id ∈ held ∧ (db.orders.find? id).isSome
  | .findFirstOrder .. | .findWallet _ => False
  | .findWallets userIds => ∀ userId ∈ userIds,
      userId ∈ db.wallets.rows.map Wallet.userId → .wallet userId ∈ held
  | .createOrder _ _ status .. =>
      (workload.invocation index).creates.isSome ∧ status.isResting = false
  | .updateOrder _ data => .market ∈ held ∨ data.status.isResting = false
  | .createTrade _ => .market ∈ held
  | .createMatchingIntent orderId => (workload.invocation index).creates = some orderId

variable {workload newDecimal admits} {index : Index} {held held' : List Resource}
  {db db' : Database}

/-- An order that is locked and stored is read alike in both states. -/
theorem findOrder_of_agrees {id : OrderId} {userId : Option UserId}
    (hAgrees : workload.Agrees index held db db') (hLocked : .order id ∈ held)
    (hFound : (db.orders.find? id).isSome) : db'.findOrder id userId = db.findOrder id userId := by
  obtain ⟨order, hOrder⟩ := Option.isSome_iff_exists.mp hFound
  rw [Database.findOrder, Database.findOrder, hOrder, hAgrees.orders id order hLocked hOrder]

/-- Whether a user has a wallet is not for locks to protect: wallets neither come
nor go. -/
theorem isSome_wallet_of_agrees {userId : UserId} (hAgrees : workload.Agrees index held db db') :
    (db'.wallets.find? userId).isSome = (db.wallets.find? userId).isSome := by
  rw [Bool.eq_iff_iff, Table.isSome_find?_iff, Table.isSome_find?_iff, hAgrees.owners]

/-- Wallets that are locked are read alike in both states. The others of the list do
not exist in either. -/
theorem findWallets_of_agrees {userIds : List UserId}
    (hAgrees : workload.Agrees index held db db')
    (hLocked : ∀ userId ∈ userIds, userId ∈ db.wallets.rows.map Wallet.userId →
      .wallet userId ∈ held) :
    db'.wallets.rows.filter (·.userId ∈ userIds) =
      db.wallets.rows.filter (·.userId ∈ userIds) := by
  rw [Table.filter_key_eq (fun userId => decide (userId ∈ userIds)),
    Table.filter_key_eq (fun userId => decide (userId ∈ userIds)), hAgrees.owners]
  apply List.filterMap_congr
  intro userId hMem
  obtain ⟨hOwner, hAsked⟩ := List.mem_filter.mp hMem
  exact hAgrees.wallets userId (hLocked userId (of_decide_eq_true hAsked) hOwner)

/-- The statement repeats its reply and its writes in a later state. -/
theorem effect_of_protected {Reply : Type} {statement : Statement Reply} {reply : Reply}
    {written : List Write} (h : workload.Protected index held statement db)
    (hAgrees : workload.Agrees index ((locks statement db).toList ++ held) db db')
    (hEffect : effect (workload.invocation index).generated statement db = .ok (reply, written)) :
    effect (workload.invocation index).generated statement db' = .ok (reply, written) := by
  rw [← hEffect]
  cases statement with
  | lockMarket | lockWallet userId | insertEvents events => rfl
  | findFirstOrder condition orderBy | findWallet userId => exact h.elim
  | lockOrder id userId =>
      obtain ⟨order, hOrder⟩ := Option.isSome_iff_exists.mp h
      have hFound := Option.isSome_of_isSome_filter _ _ h
      rw [effect, effect, findOrder_of_agrees hAgrees (by simp [locks, hOrder]) hFound]
  | findOrder id userId =>
      rw [effect, effect, findOrder_of_agrees hAgrees (List.mem_append_right _ h.1) h.2]
  | findWallets userIds =>
      rw [effect, effect, findWallets_of_agrees hAgrees]
      exact fun userId hMem hOwner => List.mem_append_right _ (h userId hMem hOwner)
  | createOrder userId side status price originalAmount remainingAmount =>
      obtain ⟨id, hId⟩ := Option.isSome_iff_exists.mp h.1
      have hFresh := hAgrees.fresh ⟨(workload.invocation index).generated.orderId,
        (workload.invocation index).generated.sequence, userId, side, status, price, originalAmount,
        remainingAmount, (workload.invocation index).generated.now⟩
        (hId.trans (congrArg some (Invocation.orderId_of_creates hId))) rfl
      simp only [effect, hFresh]
  | updateOrder id data =>
      cases hFound : db.orders.find? id with
      | none =>
          simp only [effect, hFound] at hEffect
          cases hEffect
      | some order =>
          have hLater := hAgrees.orders id order (by simp [locks, hFound]) hFound
          simp only [effect, hFound, hLater]
  | updateWallet userId condition data =>
      have hLater : db'.wallets.find? userId = db.wallets.find? userId := by
        cases hFound : db.wallets.find? userId with
        | none =>
            rw [← Option.not_isSome_iff_eq_none, isSome_wallet_of_agrees hAgrees, hFound]
            exact Bool.false_ne_true
        | some wallet =>
            rw [hAgrees.wallets userId (by simp [locks, hFound]), hFound]
      simp only [effect, hLater]
  | createTrade data =>
      have hTrades := hAgrees.trades (List.mem_append_right _ h)
      simp only [effect, hTrades]
  | createMatchingIntent orderId =>
      have hFresh := hAgrees.intents ⟨(workload.invocation index).generated.outboxId, orderId, 0,
        none, none, none, none, (workload.invocation index).generated.now⟩ h rfl
      simp only [effect, hFresh]

/-- The statement holds the locks for all that it writes. -/
theorem permits_of_protected {Reply : Type} {statement : Statement Reply} {reply : Reply}
    {written : List Write} (h : workload.Protected index held statement db)
    (hEffect : effect (workload.invocation index).generated statement db = .ok (reply, written)) :
    ∀ write ∈ written, workload.Permits index ((locks statement db).toList ++ held) write := by
  cases statement with
  | findFirstOrder condition orderBy | findWallet userId => exact h.elim
  | lockMarket | lockWallet userId | lockOrder id userId | findOrder id userId
  | findWallets userIds =>
      cases hEffect
      simp
  | insertEvents events =>
      cases hEffect
      exact List.forall_mem_singleton.mpr trivial
  | createOrder userId side status price originalAmount remainingAmount =>
      simp only [effect] at hEffect
      split at hEffect
      · cases hEffect
      · split_ifs at hEffect
        cases hEffect
        obtain ⟨id, hId⟩ := Option.isSome_iff_exists.mp h.1
        refine List.forall_mem_singleton.mpr ⟨?_, rfl, h.2⟩
        rw [hId, Invocation.orderId_of_creates hId]
  | updateOrder id data =>
      simp only [effect] at hEffect
      split at hEffect
      · cases hEffect
      · next order hFound =>
        split at hEffect
        · cases hEffect
        · cases hEffect
          refine List.forall_mem_singleton.mpr ⟨?_, h.imp_left (List.mem_append_right _)⟩
          simp [locks, hFound]
  | updateWallet userId condition data =>
      simp only [effect] at hEffect
      split at hEffect
      · cases hEffect
        simp
      · next wallet hFound =>
        split_ifs at hEffect
        · split at hEffect
          · cases hEffect
          · cases hEffect
            refine List.forall_mem_singleton.mpr ?_
            simp [Permits, locks, hFound, Table.key_of_find? hFound]
        · cases hEffect
          simp
  | createTrade data =>
      simp only [effect] at hEffect
      split at hEffect
      · cases hEffect
      · cases hEffect
        exact List.forall_mem_singleton.mpr h
  | createMatchingIntent orderId =>
      simp only [effect] at hEffect
      split_ifs at hEffect
      cases hEffect
      exact List.forall_mem_singleton.mpr ⟨h, rfl⟩

/-- What the other transactions may do leaves alone whatever the held locks protect. -/
theorem agrees_of_rely
    (h : (workload.protocol newDecimal admits).Rely workload.Permits index held db db') :
    workload.Agrees index held db db' := by
  induction h with
  | refl => exact .refl
  | tail _ hStep ih =>
      cases hStep with
      | write ne disjoint permitted => exact ih.trans (.of_permitted ne disjoint permitted)

/-- Two states that agree still do so after the same permitted writes. -/
theorem agrees_applyAll {writes : List Write} (h : workload.Agrees index held db db')
    (hWrites : ∀ write ∈ writes, workload.Permits index held write) :
    workload.Agrees index held (engine.applyAll db writes) (engine.applyAll db' writes) := by
  induction writes generalizing db db' with
  | nil => exact h
  | cons write writes ih =>
      rw [List.forall_mem_cons] at hWrites
      exact ih (h.apply hWrites.1) hWrites.2

/-- Later, under the locks it has taken, the statement would do the same. -/
theorem effect_later_of_protected {Reply : Type} {statement : Statement Reply} {reply : Reply}
    {writes written : List Write}
    (hWrites : ∀ write ∈ writes, workload.Permits index held write)
    (h : workload.Protected index held statement (engine.applyAll db writes))
    (hEffect : (workload.protocol newDecimal admits).effect index statement db writes =
      .ok (reply, written))
    (hRely : (workload.protocol newDecimal admits).Rely workload.Permits index
      ((workload.protocol newDecimal admits).heldAfter statement db writes held) db db') :
    (workload.protocol newDecimal admits).effect index statement db' writes =
      .ok (reply, written) := by
  refine effect_of_protected h ?_ hEffect
  refine agrees_applyAll (agrees_of_rely hRely) fun write hMem => ?_
  exact permits_mono _ _ _ _ (List.subset_append_right _ _) (hWrites write hMem)

/-- A protected statement can be replayed: it is enough to replay what comes after
it with the reply and the writes that it had. -/
theorem replays_protected {Result Reply : Type} {statement : Statement Reply}
    {next : Reply → Transaction Result} {writes : List Write}
    {Q : Result → List Write → List Resource → Database → Prop}
    (hWrites : ∀ write ∈ writes, workload.Permits index held write)
    (h : ∀ now, (workload.protocol newDecimal admits).Rely workload.Permits index held db now →
      ∀ reply written,
        (workload.protocol newDecimal admits).effect index statement now writes =
          .ok (reply, written) →
        workload.Protected index held statement (engine.applyAll now writes) ∧
        (workload.protocol newDecimal admits).Replays workload.Permits index (next reply)
          (writes ++ written)
          ((workload.protocol newDecimal admits).heldAfter statement now writes held) now Q) :
    (workload.protocol newDecimal admits).Replays workload.Permits index (.issue statement next)
      writes held db Q := by
  intro now hNow reply written hEffect
  obtain ⟨hProtected, hNext⟩ := h now hNow reply written hEffect
  refine ⟨permits_of_protected hProtected hEffect, fun later hLater out hRun => ?_, hNext⟩
  rw [Protocol.runFrom_issue_of_effect
    (effect_later_of_protected hWrites hProtected hEffect hLater)]
  exact hRun

/-- A program that can be replayed whenever these locks are held, and leaves
some locks behind. -/
def Secure (workload : Workload Index) (newDecimal : String → Option DecimalValue)
    (admits : Index → Database → Prop) (index : Index) {Result : Type} (needed : List Resource)
    (program : Transaction Result) (left : Result → List Resource) : Prop :=
  ∀ writes held db, needed ⊆ held → (∀ write ∈ writes, workload.Permits index held write) →
    (workload.protocol newDecimal admits).Replays workload.Permits index program writes held db
      (fun result _ held' _ => left result ⊆ held')

namespace Secure

variable {Result Result' : Type} {needed : List Resource} {program : Transaction Result}
  {left : Result → List Resource}

/-- A program that has ended keeps the locks it was given. -/
theorem pure {result : Result} (h : left result ⊆ needed) :
    workload.Secure newDecimal admits index needed (pure result : Transaction Result) left :=
  fun _ _ _ hNeeded _ _ _ => List.Subset.trans h hNeeded

/-- A failure rolls back, so that nothing has to be replayed. -/
theorem throw {failure : Failure} :
    workload.Secure newDecimal admits index needed (.throw failure : Transaction Result) left :=
  fun _ _ _ _ _ => trivial

/-- The second part of a program may need whatever locks the first part leaves. -/
theorem bind {next : Result → Transaction Result'} {left' : Result' → List Resource}
    (h : workload.Secure newDecimal admits index needed program left)
    (hNext : ∀ result, workload.Secure newDecimal admits index (left result) (next result) left') :
    workload.Secure newDecimal admits index needed (program >>= next) left' := by
  intro writes held db hNeeded hWrites
  refine ((h writes held db hNeeded hWrites).withFrame (permits_mono index) hWrites).bind ?_
  rintro result writes' held' db' ⟨hLeft, _, hPermitted⟩
  exact hNext result writes' held' db' hLeft hPermitted

/-- Computations do not depend on the database. -/
theorem ofExcept {computation : Except Failure Result} :
    workload.Secure newDecimal admits index needed (.ofExcept computation : Transaction Result)
      (fun _ => needed) := by
  cases computation with
  | ok result => exact pure (fun _ => id)
  | error failure => exact throw

/-- The first statement is protected by the needed locks, and the rest is secure
whatever the reply. -/
theorem issue {Reply : Type} {statement : Statement Reply} {next : Reply → Transaction Result}
    (hProtected : ∀ held db, needed ⊆ held → workload.Protected index held statement db)
    (hNext : ∀ db reply written,
      effect (workload.invocation index).generated statement db = .ok (reply, written) →
        workload.Secure newDecimal admits index needed (next reply) left) :
    workload.Secure newDecimal admits index needed (.issue statement next) left := by
  intro writes held db hNeeded hWrites
  refine replays_protected hWrites fun now hNow reply written hEffect => ?_
  have hGuard := hProtected held (engine.applyAll now writes) hNeeded
  refine ⟨hGuard, hNext _ reply written hEffect _ _ _
    (List.Subset.trans hNeeded (List.subset_append_right _ _)) ?_⟩
  intro write hMem
  rcases List.mem_append.mp hMem with hOld | hNew
  · exact permits_mono _ _ _ _ (List.subset_append_right _ _) (hWrites write hOld)
  · exact permits_of_protected hGuard hEffect write hNew

/-- A program of one protected statement. -/
theorem perform {Reply : Type} {statement : Statement Reply}
    (hProtected : ∀ held db, needed ⊆ held → workload.Protected index held statement db) :
    workload.Secure newDecimal admits index needed (.perform statement) (fun _ => needed) :=
  issue hProtected fun _ _ _ _ => pure fun _ => id

end Secure

section Programs

variable {needed : List Resource}

/-- An update of balances is protected by its own row lock, as its guard is checked
on the row that it has locked. -/
theorem secure_guardedUpdate {failure : Failure} {userId : UserId} {data : BalanceUpdate} :
    workload.Secure newDecimal admits index needed (guardedUpdate failure userId data)
      (fun _ => needed) := by
  refine Secure.ofExcept.bind fun constraints => ?_
  have hUpdate : workload.Secure newDecimal admits index needed
      (.perform (.updateWallet userId constraints data)) (fun _ => needed) :=
    Secure.perform fun _ _ _ => trivial
  refine hUpdate.bind fun count => ?_
  split_ifs
  · exact Secure.throw
  · exact Secure.pure fun _ => id

/-- Hence updating balances needs no lock beforehand. -/
theorem secure_updateBalances {userId : UserId} {data : BalanceUpdate} :
    workload.Secure newDecimal admits index needed (WalletsRepository.updateBalances userId data)
      (fun _ => needed) := secure_guardedUpdate

/-- Reserving funds computes the amount and then updates with a guard. -/
theorem secure_reserveFunds {wallet : Wallet} {side : OrderSide} {amount price : Int} :
    workload.Secure newDecimal admits index needed
      (WalletsService.reserveFunds wallet side amount price) (fun _ => needed) := by
  rw [reserveFunds_eq]
  cases side with
  | buy => exact Secure.ofExcept.bind fun required => secure_guardedUpdate
  | sell => exact (Secure.pure fun _ => id).bind fun required => secure_guardedUpdate

/-- Releasing funds does the same without a computation. -/
theorem secure_releaseFunds {order : Order} :
    workload.Secure newDecimal admits index needed (WalletsService.releaseFunds order)
      (fun _ => needed) := by
  rw [releaseFunds_eq]
  cases order.side with
  | buy => exact Secure.ofExcept.bind fun released => secure_updateBalances
  | sell => exact (Secure.pure fun _ => id).bind fun released => secure_updateBalances

/-- Events are only appended. -/
theorem secure_appendEvents {events : List RealtimeDispatchEvent} :
    workload.Secure newDecimal admits index needed (RealtimeOutboxService.appendEvents events)
      (fun _ => needed) := by
  unfold RealtimeOutboxService.appendEvents
  split_ifs
  · exact Secure.pure fun _ => id
  · exact Secure.perform fun _ _ _ => trivial

/-- The two updates of a settlement lock the wallets that they change. -/
theorem secure_applyTradeBalances {taker maker : Order} {takerWallet makerWallet : Wallet}
    {tradeAmount tradePrice : Int} :
    workload.Secure newDecimal admits index needed
      (TradeSettlement.applyTradeBalances taker maker takerWallet makerWallet tradeAmount
        tradePrice)
      (fun _ => needed) := by
  refine Secure.ofExcept.bind fun _ => ?_
  cases taker.side with
  | buy =>
      iterate 7 refine Secure.ofExcept.bind fun _ => ?_
      exact secure_updateBalances.bind fun _ => secure_updateBalances
  | sell =>
      iterate 7 refine Secure.ofExcept.bind fun _ => ?_
      exact secure_updateBalances.bind fun _ => secure_updateBalances

/-- An order may be put into the book only while the market is locked. Taking it out
needs no such lock. -/
theorem secure_updateOrder {id : OrderId} {data : OrderUpdate}
    (h : .market ∈ needed ∨ data.status.isResting = false) :
    workload.Secure newDecimal admits index needed (.perform (.updateOrder id data))
      (fun _ => needed) :=
  Secure.perform fun _ _ hNeeded => h.imp_left fun hMarket => hNeeded hMarket

/-- Trades are numbered, which the lock of the market protects. -/
theorem secure_createTrade {data : TradeData} (hMarket : .market ∈ needed) :
    workload.Secure newDecimal admits index needed (.perform (.createTrade data))
      (fun _ => needed) :=
  Secure.perform fun _ _ hNeeded => hNeeded hMarket

/-- Recording a fill writes the maker and the trade under the lock of the market. -/
theorem secure_recordTrade {taker maker : Order} {tradeAmount : Int}
    {progress : MatchingService.Progress} (hMarket : .market ∈ needed) :
    workload.Secure newDecimal admits index needed
      (MatchingService.recordTrade taker maker tradeAmount progress) (fun _ => needed) := by
  refine Secure.ofExcept.bind fun _ => Secure.ofExcept.bind fun _ => ?_
  refine (secure_createTrade hMarket).bind fun _ =>
    (secure_updateOrder (Or.inl hMarket)).bind fun _ => ?_
  exact Secure.ofExcept.bind fun _ => Secure.ofExcept.bind fun _ => Secure.pure fun _ => id

/-- Afterwards the wallets of all users that have one are locked. -/
theorem replays_lockWallets {userIds : List UserId} {writes : List Write} {held : List Resource}
    {db : Database} (hWrites : ∀ write ∈ writes, workload.Permits index held write) :
    (workload.protocol newDecimal admits).Replays workload.Permits index
      (WalletsRepository.lockWallets userIds) writes held db
      (fun _ writes' held' db' => writes' = writes ∧ held ⊆ held' ∧
        (engine.applyAll db' writes).wallets.rows.map Wallet.userId =
          (engine.applyAll db writes).wallets.rows.map Wallet.userId ∧
        ∀ userId ∈ userIds, userId ∈
          (engine.applyAll db writes).wallets.rows.map Wallet.userId → .wallet userId ∈ held') := by
  induction userIds generalizing held db with
  | nil =>
      intro now hNow
      exact ⟨rfl, fun _ => id, (agrees_applyAll (agrees_of_rely hNow) hWrites).owners, by simp⟩
  | cons userId userIds ih =>
      refine replays_protected hWrites fun now hNow reply written hEffect => ⟨trivial, ?_⟩
      have hOwners := (agrees_applyAll (agrees_of_rely hNow) hWrites).owners
      cases hEffect
      rw [List.append_nil]
      refine (ih ?_).mono ?_
      · exact fun write hMem =>
          permits_mono _ _ _ _ (List.subset_append_right _ _) (hWrites write hMem)
      · rintro _ writes' held' db' ⟨rfl, hHeld, hLater, hLocked⟩
        refine ⟨rfl, fun _ hMem => hHeld (Protocol.mem_heldAfter_of_mem hMem),
          hLater.trans hOwners, ?_⟩
        rw [hOwners] at hLocked
        rw [List.forall_mem_cons]
        refine ⟨fun hOwner => hHeld (Protocol.mem_heldAfter.mpr (Or.inl ?_)), hLocked⟩
        rw [← hOwners, ← Table.isSome_find?_iff] at hOwner
        obtain ⟨wallet, hWallet⟩ := Option.isSome_iff_exists.mp hOwner
        exact Option.map_eq_some_iff.mpr ⟨wallet, hWallet, rfl⟩

/-- Several wallets are read only after they have been locked one by one. -/
theorem secure_lockAndLoadByUserIds {userIds : List UserId} :
    workload.Secure newDecimal admits index needed (WalletsRepository.lockAndLoadByUserIds userIds)
      (fun _ => needed) := by
  simp only [WalletsRepository.lockAndLoadByUserIds]
  split_ifs
  · exact Secure.pure fun _ => id
  · intro writes held db hNeeded hWrites
    refine (replays_lockWallets hWrites).bind ?_
    rintro _ writes' held' db' ⟨rfl, hHeld, hOwners, hLocked⟩
    have hWrites' : ∀ write ∈ writes', workload.Permits index held' write :=
      fun write hMem => permits_mono _ _ _ _ hHeld (hWrites write hMem)
    refine replays_protected hWrites' fun now hNow reply written hEffect => ⟨?_, ?_⟩
    · intro userId hMem hOwner
      rw [(agrees_applyAll (agrees_of_rely hNow) hWrites').owners, hOwners] at hOwner
      exact hLocked userId hMem hOwner
    · exact fun later hLater resource hResource =>
        Protocol.mem_heldAfter_of_mem (hHeld (hNeeded hResource))

/-- A fill locks its wallets, pays both users and records the trade. -/
theorem secure_executeTrade {taker maker : Order} {tradeAmount : Int}
    {progress : MatchingService.Progress} (hMarket : .market ∈ needed) :
    workload.Secure newDecimal admits index needed
      (MatchingService.executeTrade taker maker tradeAmount progress) (fun _ => needed) := by
  refine secure_lockAndLoadByUserIds.bind fun lockedWallets => ?_
  split
  · exact secure_applyTradeBalances.bind fun _ => secure_recordTrade hMarket
  · exact Secure.throw

/-- The fills of a match are settled one after another under the same lock. -/
theorem secure_settleMakers {taker : Order} {makers : List Order}
    {progress : MatchingService.Progress} (hMarket : .market ∈ needed) :
    workload.Secure newDecimal admits index needed
      (MatchingService.settleMakers taker makers progress) (fun _ => needed) := by
  induction makers generalizing progress with
  | nil => exact Secure.pure fun _ => id
  | cons maker makers ih =>
      have hTrade : ∀ tradeAmount, workload.Secure newDecimal admits index needed (do
          if (← Program.ofExcept (multiplyScaled tradeAmount maker.price)) = 0 then
            MatchingService.settleMakers taker makers progress
          else
            let progress ← MatchingService.executeTrade taker maker tradeAmount progress
            MatchingService.settleMakers taker makers progress) (fun _ => needed) := by
        intro tradeAmount
        refine Secure.ofExcept.bind fun executed => ?_
        split_ifs
        · exact ih
        · exact (secure_executeTrade hMarket).bind fun _ => ih
      simp only [MatchingService.settleMakers]
      split_ifs
      · exact Secure.pure fun _ => id
      · exact ih
      · exact hTrade _
      · exact hTrade _

/-- And so is the taker, which is written at the end, with the events of the match. -/
theorem secure_settleTaker {taker : Order} {makers : List Order} (hMarket : .market ∈ needed) :
    workload.Secure newDecimal admits index needed (MatchingService.settleTaker taker makers)
      (fun _ => needed) := by
  unfold MatchingService.settleTaker
  split_ifs
  · exact (secure_updateOrder (Or.inl hMarket)).bind fun _ =>
      secure_appendEvents.bind fun _ => Secure.pure fun _ => id
  · exact (secure_settleMakers hMarket).bind fun _ => (secure_updateOrder (Or.inl hMarket)).bind
      fun _ => secure_appendEvents.bind fun _ => Secure.pure fun _ => id

end Programs

end Workload
end ExchangeMatching
