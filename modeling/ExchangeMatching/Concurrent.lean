import ExchangeMatching.Calls
import ExchangeMatching.Library.Replay

/-! Calls that run side by side. What a transaction relies on while it is
under way is that the others leave the rows that it has locked alone. -/
namespace ExchangeMatching

open Transactions

/-- Values that the generators gave to different creations. -/
structure Generated.Apart (first second : Generated) : Prop where
  orderId : first.orderId ≠ second.orderId
  sequence : first.sequence ≠ second.sequence
  outboxId : first.outboxId ≠ second.outboxId

/-- The order that a call creates. -/
def Invocation.creates (invocation : Invocation) : Option OrderId :=
  match invocation.call with
  | .createOrder .. => some invocation.generated.orderId
  | _ => none

/-- A call creates an order under the id that was generated for it. -/
theorem Invocation.orderId_of_creates {invocation : Invocation} {id : OrderId}
    (h : invocation.creates = some id) : id = invocation.generated.orderId := by
  revert h
  cases hCall : invocation.call <;> simp [creates, hCall, eq_comm]

/-- A set of calls. Every creation draws its own values. -/
structure Workload (Index : Type) where
  invocation : Index → Invocation
  apart : ∀ first second, first ≠ second → (invocation first).creates.isSome →
    (invocation second).creates.isSome →
    (invocation first).generated.Apart (invocation second).generated

namespace Workload

variable {Index : Type} (workload : Workload Index) (newDecimal : String → Option DecimalValue)

/-- The calls as transactions under READ COMMITTED. The maker search of a call
may take any number of turns. -/
def protocol (admits : Index → Database → Prop) :
    Protocol Statement Failure Generated Database Write Resource Outcome Index where
  engine := engine
  locks := locks
  environment index := (workload.invocation index).generated
  starts index db program :=
    admits index db ∧ ∃ fuel, program = (workload.invocation index).call.transaction newDecimal fuel

/-- The locks that a call holds for each of its writes. -/
def Permits (index : Index) (held : List Resource) : Write → Prop
  | .wallet row => .wallet row.userId ∈ held
  | .order id _ status => .order id ∈ held ∧ (.market ∈ held ∨ status.isResting = false)
  | .newOrder row => (workload.invocation index).creates = some row.id ∧
      row.sequence = (workload.invocation index).generated.sequence ∧ row.status.isResting = false
  | .newTrade _ => .market ∈ held
  | .newIntent row => (workload.invocation index).creates = some row.orderId ∧
      row.id = (workload.invocation index).generated.outboxId
  | .newEvents _ => True

/-- What a call has read under its locks stays true in a later state. -/
structure Agrees (index : Index) (held : List Resource) (db db' : Database) : Prop where
  orders : ∀ id order, .order id ∈ held → db.orders.find? id = some order →
    db'.orders.find? id = some order
  wallets : ∀ userId, .wallet userId ∈ held → db'.wallets.find? userId = db.wallets.find? userId
  owners : db'.wallets.rows.map Wallet.userId = db.wallets.rows.map Wallet.userId
  trades : .market ∈ held → db'.trades = db.trades
  fresh : ∀ order, (workload.invocation index).creates = some order.id →
    order.sequence = (workload.invocation index).generated.sequence →
    (db'.IsFresh order ↔ db.IsFresh order)
  intents : ∀ row, (workload.invocation index).creates = some row.orderId →
    row.id = (workload.invocation index).generated.outboxId →
    (db'.IsFreshIntent row ↔ db.IsFreshIntent row)

end Workload

namespace Market

variable {market : Market} {order row : Order} {id other : OrderId} {remaining : Int}
  {status : OrderStatus}

/-- A new order does not hide another one. -/
theorem find?_addOrder_of_ne (hNe : id ≠ row.id) :
    (market.addOrder row).orders.find? id = market.orders.find? id := by
  by_cases hFresh : market.IsFresh row
  · rw [find?_addOrder hFresh, if_neg hNe]
  · rw [addOrder, dif_neg hFresh]

/-- Nor does it replace an order that is there. -/
theorem find?_addOrder_of_some {old : Order} (h : market.orders.find? id = some old) :
    (market.addOrder row).orders.find? id = some old := by
  by_cases hFresh : market.IsFresh row
  · rw [find?_addOrder hFresh, if_neg, h]
    rintro rfl
    rw [hFresh.1] at h
    cases h
  · rw [addOrder, dif_neg hFresh, h]

/-- Updating an order leaves the others alone. -/
theorem find?_putOrder_of_ne (hNe : id ≠ other) :
    (market.putOrder other remaining status).orders.find? id = market.orders.find? id := by
  rw [putOrder, Table.find?_modify_of_ne hNe]

/-- Updating a wallet leaves the wallets of the others alone. -/
theorem find?_putWallet_of_ne {wallet : Wallet} {userId : UserId} (hNe : userId ≠ wallet.userId) :
    (market.putWallet wallet).wallets.find? userId = market.wallets.find? userId := by
  rw [putWallet, Table.find?_modify_of_ne hNe]

/-- No wallet changes hands. -/
theorem owners_putWallet {wallet : Wallet} :
    (market.putWallet wallet).wallets.rows.map Wallet.userId =
      market.wallets.rows.map Wallet.userId := by
  rw [putWallet, Table.map_modify]
  exact fun _ => rfl

/-- Whether an id and a sequence number are fresh does not depend on the progress of
orders. -/
theorem isFresh_putOrder : (market.putOrder id remaining status).IsFresh order ↔
    market.IsFresh order := by
  have hIds : (market.putOrder id remaining status).orders.rows.map Order.id =
      market.orders.rows.map Order.id := by
    rw [putOrder, Table.map_modify]
    exact fun order => order.revised_id _ _
  have hSequences : (market.putOrder id remaining status).orders.rows.map Order.sequence =
      market.orders.rows.map Order.sequence := by
    rw [putOrder, Table.map_modify]
    exact fun order => order.revised_sequence _ _
  unfold IsFresh
  rw [← Option.not_isSome_iff_eq_none, ← Option.not_isSome_iff_eq_none, Table.isSome_find?_iff,
    Table.isSome_find?_iff, hIds, hSequences]

/-- A new row leaves another id and another sequence number unused. -/
theorem isFresh_addOrder (hId : order.id ≠ row.id) (hSequence : order.sequence ≠ row.sequence) :
    (market.addOrder row).IsFresh order ↔ market.IsFresh order := by
  by_cases hFresh : market.IsFresh row
  · unfold IsFresh
    rw [find?_addOrder_of_ne hId, orders_addOrder hFresh, Table.insert, List.map_append,
      List.mem_append, List.map_singleton, List.mem_singleton, or_iff_left hSequence]
  · rw [addOrder, dif_neg hFresh]

/-- An order that has been added is fresh no more. -/
theorem not_isFresh_addOrder (hId : order.id = row.id) (hSequence : order.sequence = row.sequence) :
    ¬(market.addOrder row).IsFresh order := by
  by_cases hFresh : market.IsFresh row
  · rintro ⟨hNone, _⟩
    rw [find?_addOrder hFresh, if_pos hId] at hNone
    cases hNone
  · rw [addOrder, dif_neg hFresh]
    unfold IsFresh at hFresh ⊢
    rwa [hId, hSequence]

end Market

namespace Database

variable {db : Database} {intent row : OrderMatchingOutbox}

/-- Intents under different ids and for different orders do not get in each other's
way. -/
theorem isFreshIntent_addIntent (hId : intent.id ≠ row.id) (hOrder : intent.orderId ≠ row.orderId) :
    (db.addIntent row).IsFreshIntent intent ↔ db.IsFreshIntent intent := by
  by_cases hFresh : db.IsFreshIntent row
  · unfold IsFreshIntent
    rw [matchingOutbox_addIntent hFresh, Table.find?_insert, if_neg hId, Table.insert,
      List.map_append, List.mem_append, List.map_singleton, List.mem_singleton, or_iff_left hOrder]
  · rw [addIntent, dif_neg hFresh]

/-- An intent can be inserted once only. -/
theorem not_isFreshIntent_addIntent (hId : intent.id = row.id)
    (hOrder : intent.orderId = row.orderId) : ¬(db.addIntent row).IsFreshIntent intent := by
  by_cases hFresh : db.IsFreshIntent row
  · rintro ⟨hNone, _⟩
    rw [matchingOutbox_addIntent hFresh, Table.find?_insert, if_pos hId] at hNone
    cases hNone
  · rw [addIntent, dif_neg hFresh]
    unfold IsFreshIntent at hFresh ⊢
    rwa [hId, hOrder]

end Database

namespace Workload

variable {Index : Type} {workload : Workload Index} {newDecimal : String → Option DecimalValue}
  {admits : Index → Database → Prop} {index : Index} {held held' : List Resource}
  {db db' : Database}

/-- With more locks at least as much may be written. -/
theorem permits_mono (index : Index) (held held' : List Resource) (write : Write)
    (hHeld : held ⊆ held') (h : workload.Permits index held write) :
    workload.Permits index held' write := by
  cases write with
  | wallet row => exact hHeld h
  | order id remaining status => exact ⟨hHeld h.1, h.2.imp_left fun hMarket => hHeld hMarket⟩
  | newOrder row => exact h
  | newTrade row => exact hHeld h
  | newIntent row => exact h
  | newEvents events => exact trivial

namespace Agrees

/-- A database agrees with itself under any locks. -/
theorem refl : workload.Agrees index held db db :=
  ⟨fun _ _ _ => id, fun _ _ => rfl, rfl, fun _ => rfl, fun _ _ _ => Iff.rfl, fun _ _ _ => Iff.rfl⟩

/-- What stays the same through two steps stays the same through both. -/
theorem trans {db'' : Database} (h : workload.Agrees index held db db')
    (h' : workload.Agrees index held db' db'') : workload.Agrees index held db db'' where
  orders id order hId hFound := h'.orders id order hId (h.orders id order hId hFound)
  wallets userId hUser := (h'.wallets userId hUser).trans (h.wallets userId hUser)
  owners := h'.owners.trans h.owners
  trades hMarket := (h'.trades hMarket).trans (h.trades hMarket)
  fresh order hId hSequence := (h'.fresh order hId hSequence).trans (h.fresh order hId hSequence)
  intents row hOrder hId := (h'.intents row hOrder hId).trans (h.intents row hOrder hId)

/-- A write of another call under other locks is never noticed. -/
theorem of_permitted {other : Index} {write : Write} (hNe : other ≠ index)
    (hDisjoint : ∀ resource ∈ held', resource ∉ held) (h : workload.Permits other held' write) :
    workload.Agrees index held db (db.apply write) := by
  have hApart : ∀ {id id'}, (workload.invocation index).creates = some id →
      (workload.invocation other).creates = some id' → id ≠ id' ∧
        (workload.invocation index).generated.Apart (workload.invocation other).generated := by
    intro id id' hOwn hOther
    have hGenerated := workload.apart _ _ (Ne.symm hNe) (Option.isSome_of_mem hOwn)
      (Option.isSome_of_mem hOther)
    refine ⟨?_, hGenerated⟩
    rw [Invocation.orderId_of_creates hOwn, Invocation.orderId_of_creates hOther]
    exact hGenerated.orderId
  cases write with
  | wallet row =>
      refine ⟨fun _ _ _ => id, fun userId hUser => Market.find?_putWallet_of_ne ?_,
        Market.owners_putWallet, fun _ => rfl, fun _ _ _ => Iff.rfl, fun _ _ _ => Iff.rfl⟩
      rintro rfl
      exact hDisjoint _ h hUser
  | order id remaining status =>
      refine ⟨fun locked order hLocked hFound => ?_, fun _ _ => rfl, rfl, fun _ => rfl,
        fun _ _ _ => Market.isFresh_putOrder, fun _ _ _ => Iff.rfl⟩
      refine (Market.find?_putOrder_of_ne ?_).trans hFound
      rintro rfl
      exact hDisjoint _ h.1 hLocked
  | newOrder row =>
      obtain ⟨hRow, hSequence, _⟩ := h
      refine ⟨fun locked order _ hFound => ?_, fun _ _ => ?_, ?_, fun _ => ?_,
        fun order hOwn hOwnSequence => ?_, fun _ _ _ => Iff.rfl⟩
      · exact Market.find?_addOrder_of_some hFound
      · rw [Database.toMarket_apply_newOrder, Market.wallets_addOrder]
      · rw [Database.toMarket_apply_newOrder, Market.wallets_addOrder]
      · rw [Database.toMarket_apply_newOrder, Market.trades_addOrder]
      · obtain ⟨hId, hGenerated⟩ := hApart hOwn hRow
        rw [Database.toMarket_apply_newOrder, Market.isFresh_addOrder hId]
        rw [hOwnSequence, hSequence]
        exact hGenerated.sequence
  | newTrade row =>
      exact ⟨fun _ _ _ => id, fun _ _ => rfl, rfl,
        fun hMarket => absurd hMarket (hDisjoint _ h), fun _ _ _ => Iff.rfl, fun _ _ _ => Iff.rfl⟩
  | newIntent row =>
      have hMarket : (db.apply (.newIntent row)).toMarket = db.toMarket :=
        Database.toMarket_apply_newIntent row
      refine ⟨?_, ?_, ?_, ?_, ?_, fun intent hOwn hOwnId => ?_⟩
      · exact fun _ _ _ hFound => hMarket ▸ hFound
      · exact fun _ _ => by rw [hMarket]
      · rw [hMarket]
      · exact fun _ => by rw [hMarket]
      · exact fun _ _ _ => by rw [hMarket]
      · obtain ⟨hId, hGenerated⟩ := hApart hOwn h.1
        refine Database.isFreshIntent_addIntent ?_ hId
        rw [hOwnId, h.2]
        exact hGenerated.outboxId
  | newEvents events =>
      exact ⟨fun _ _ _ => id, fun _ _ => rfl, rfl, fun _ => rfl, fun _ _ _ => Iff.rfl,
        fun _ _ _ => Iff.rfl⟩

/-- The own writes of a call keep the agreement. -/
theorem apply {write : Write} (h : workload.Agrees index held db db')
    (hPermitted : workload.Permits index held write) :
    workload.Agrees index held (db.apply write) (db'.apply write) := by
  cases write with
  | wallet row =>
      refine ⟨h.orders, fun userId hUser => ?_, ?_, h.trades, h.fresh, h.intents⟩
      · rw [Database.toMarket_apply_wallet, Database.toMarket_apply_wallet, Market.putWallet,
          Market.putWallet, Table.find?_modify, Table.find?_modify, h.wallets _ hPermitted,
          h.wallets _ hUser]
      · exact Market.owners_putWallet.trans (h.owners.trans Market.owners_putWallet.symm)
  | order id remaining status =>
      refine ⟨fun locked order hLocked hFound => ?_, h.wallets, h.owners, h.trades,
        fun order hOwn hSequence => ?_, h.intents⟩
      · rw [Database.toMarket_apply_order] at hFound ⊢
        by_cases hId : locked = id
        · subst hId
          rw [Market.putOrder, Table.find?_modify_self] at hFound ⊢
          obtain ⟨old, hOld, rfl⟩ := Option.map_eq_some_iff.mp hFound
          rw [h.orders _ _ hLocked hOld, Option.map_some]
        · rw [Market.find?_putOrder_of_ne hId] at hFound ⊢
          exact h.orders _ _ hLocked hFound
      · exact Market.isFresh_putOrder.trans ((h.fresh _ hOwn hSequence).trans
          Market.isFresh_putOrder.symm)
  | newOrder row =>
      obtain ⟨hRow, hSequence, _⟩ := hPermitted
      have hFresh := h.fresh row hRow hSequence
      refine ⟨fun locked order hLocked hFound => ?_, ?_, ?_, ?_, fun order hOwn hOwnSequence => ?_,
        h.intents⟩
      · rw [Database.toMarket_apply_newOrder] at hFound ⊢
        by_cases hNew : db.IsFresh row
        · rw [Market.find?_addOrder hNew] at hFound
          rw [Market.find?_addOrder (hFresh.mpr hNew)]
          split_ifs at hFound ⊢ with hId
          · exact hFound
          · exact h.orders _ _ hLocked hFound
        · rw [Market.addOrder, dif_neg hNew] at hFound
          rw [Market.addOrder, dif_neg (fun hOld => hNew (hFresh.mp hOld))]
          exact h.orders _ _ hLocked hFound
      · rw [Database.toMarket_apply_newOrder, Database.toMarket_apply_newOrder,
          Market.wallets_addOrder, Market.wallets_addOrder]
        exact h.wallets
      · rw [Database.toMarket_apply_newOrder, Database.toMarket_apply_newOrder,
          Market.wallets_addOrder, Market.wallets_addOrder]
        exact h.owners
      · rw [Database.toMarket_apply_newOrder, Database.toMarket_apply_newOrder,
          Market.trades_addOrder, Market.trades_addOrder]
        exact h.trades
      · have hId : order.id = row.id := Option.some.inj (hOwn.symm.trans hRow)
        have hUsed : order.sequence = row.sequence := hOwnSequence.trans hSequence.symm
        exact iff_of_false (Market.not_isFresh_addOrder hId hUsed)
          (Market.not_isFresh_addOrder hId hUsed)
  | newTrade row =>
      refine ⟨h.orders, h.wallets, h.owners, fun hMarket => ?_, h.fresh, h.intents⟩
      rw [Database.toMarket_apply_newTrade, Database.toMarket_apply_newTrade,
        Market.trades_addTrade, Market.trades_addTrade, h.trades hMarket]
  | newIntent row =>
      have hMarket : ∀ db : Database, (db.apply (.newIntent row)).toMarket = db.toMarket :=
        fun _ => Database.toMarket_apply_newIntent row
      refine ⟨?_, ?_, ?_, ?_, ?_, fun intent hOwn hId => ?_⟩
      · rw [hMarket, hMarket]
        exact h.orders
      · rw [hMarket, hMarket]
        exact h.wallets
      · rw [hMarket, hMarket]
        exact h.owners
      · rw [hMarket, hMarket]
        exact h.trades
      · rw [hMarket, hMarket]
        exact h.fresh
      · have hOrder : intent.orderId = row.orderId := Option.some.inj (hOwn.symm.trans hPermitted.1)
        have hUsed : intent.id = row.id := hId.trans hPermitted.2.symm
        exact iff_of_false (Database.not_isFreshIntent_addIntent hUsed hOrder)
          (Database.not_isFreshIntent_addIntent hUsed hOrder)
  | newEvents events => exact ⟨h.orders, h.wallets, h.owners, h.trades, h.fresh, h.intents⟩

end Agrees
end Workload

end ExchangeMatching
