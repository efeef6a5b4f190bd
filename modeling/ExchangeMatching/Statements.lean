import ExchangeMatching.Schema
import ExchangeMatching.Library.Program
import Mathlib.Data.List.Sort

/-! The SQL statements of the trading transactions: what each of them returns
and writes, and which row it locks. A statement that locks several rows is
issued here one row at a time, in the order in which it locks them. -/
namespace ExchangeMatching

open Transactions

inductive BalanceChange where
  | increment (amount : Int)
  | decrement (amount : Int)
deriving DecidableEq, Repr

/-- A partial record from balances to changes, in the order of its keys. -/
abbrev BalanceUpdate := List (BalanceField × BalanceChange)

inductive Bound where
  | lte (limit : Int)
  | gte (limit : Int)
deriving DecidableEq, Repr

abbrev BalanceWhere := List (BalanceField × Bound)

/-- The columns of an order that an update may name. -/
structure OrderUpdate where
  remainingAmount : Option Int
  status : OrderStatus

inductive Statement : Type → Type where
  /-- `pg_advisory_xact_lock` on the BTC/USD market. -/
  | lockMarket : Statement Unit
  /-- `SELECT id FROM orders … FOR UPDATE`: whether it returned a row. -/
  | lockOrder (id : OrderId) (userId : Option UserId) : Statement Bool
  | findOrder (id : OrderId) (userId : Option UserId) : Statement (Option Order)
  | findFirstOrder (condition : Order → Bool) (orderBy : Order → Order → Bool) :
      Statement (Option Order)
  | createOrder (userId : UserId) (side : OrderSide) (status : OrderStatus)
      (price originalAmount remainingAmount : Int) : Statement Order
  | updateOrder (id : OrderId) (data : OrderUpdate) : Statement Order
  | findWallet (userId : UserId) : Statement (Option Wallet)
  | findWallets (userIds : List UserId) : Statement (List Wallet)
  /-- One row of `SELECT id FROM wallets … FOR UPDATE`. -/
  | lockWallet (userId : UserId) : Statement Unit
  /-- `UPDATE wallets … WHERE`: the number of updated rows. -/
  | updateWallet (userId : UserId) (condition : BalanceWhere) (data : BalanceUpdate) : Statement Nat
  | createTrade (data : TradeData) : Statement Trade
  | createMatchingIntent (orderId : OrderId) : Statement Unit
  | insertEvents (events : List RealtimeDispatchEvent) : Statement Unit

/-- Values that a transaction takes from generators and from the clock. -/
structure Generated where
  orderId : OrderId
  sequence : Nat
  outboxId : String
  now : Nat
deriving DecidableEq, Repr

/-- The new version of a row. A version of an order keeps its other columns. -/
inductive Write where
  | wallet (row : Wallet)
  | order (id : OrderId) (remainingAmount : Int) (status : OrderStatus)
  | newOrder (row : Order)
  | newTrade (row : Trade)
  | newIntent (row : OrderMatchingOutbox)
  | newEvents (events : List RealtimeDispatchEvent)

def BalanceChange.apply (balance : Int) : BalanceChange → Int
  | .increment amount => balance + amount
  | .decrement amount => balance - amount

def Bound.holds (balance : Int) : Bound → Bool
  | .lte limit => balance ≤ limit
  | .gte limit => limit ≤ balance

namespace Wallet

def update (wallet : Wallet) (data : BalanceUpdate) : Wallet :=
  data.foldl
    (fun wallet change => wallet.set (change.2.apply (wallet.get change.1)) change.1) wallet

def satisfies (wallet : Wallet) (condition : BalanceWhere) : Bool :=
  condition.all fun bound => bound.2.holds (wallet.get bound.1)

/-- An empty update changes nothing. -/
@[simp] theorem update_nil (wallet : Wallet) : wallet.update [] = wallet := rfl

/-- An update applies its changes from left to right, so that a later change sees
the earlier ones. -/
@[simp] theorem update_cons (wallet : Wallet) (change : BalanceField × BalanceChange)
    (data : BalanceUpdate) :
    wallet.update (change :: data) =
      (wallet.set (change.2.apply (wallet.get change.1)) change.1).update data := rfl

/-- Updates change balances and never the owner. -/
@[simp] theorem userId_update (wallet : Wallet) (data : BalanceUpdate) :
    (wallet.update data).userId = wallet.userId := by
  induction data generalizing wallet with
  | nil => rfl
  | cons change data ih => rw [update_cons, ih, userId_set]

end Wallet

namespace Market

variable (market : Market)

def putWallet (row : Wallet) : Market where
  wallets := market.wallets.modify row.userId (fun old => { row with userId := old.userId })
    (fun _ => rfl)
  orders := market.orders
  sequences := market.sequences
  trades := market.trades

def putOrder (id : OrderId) (remainingAmount : Int) (status : OrderStatus) : Market where
  wallets := market.wallets
  orders := market.orders.modify id (·.revised remainingAmount status)
    (fun order => order.revised_id _ _)
  sequences := by
    rw [Table.map_modify]
    · exact market.sequences
    · exact fun order => order.revised_sequence _ _
  trades := market.trades

/-- Whether the unique columns of a new order are unused. -/
def IsFresh (order : Order) : Prop :=
  market.orders.find? order.id = none ∧ order.sequence ∉ market.orders.rows.map Order.sequence

instance (order : Order) : Decidable (market.IsFresh order) :=
  inferInstanceAs (Decidable (_ ∧ _))

def addOrder (order : Order) : Market :=
  if h : market.IsFresh order then
    { wallets := market.wallets
      orders := market.orders.insert order h.1
      sequences := by
        rw [Table.insert, List.map_append, List.map_singleton]
        exact (List.nodup_append_comm.mp (List.nodup_cons.mpr ⟨h.2, market.sequences⟩))
      trades := market.trades }
  else market

def addTrade (trade : Trade) : Market :=
  { market with trades := market.trades ++ [trade] }

end Market

namespace Database

variable (db : Database)

/-- Whether the unique columns of a new intent are unused. -/
def IsFreshIntent (row : OrderMatchingOutbox) : Prop :=
  db.matchingOutbox.find? row.id = none ∧
    row.orderId ∉ db.matchingOutbox.rows.map OrderMatchingOutbox.orderId

instance (row : OrderMatchingOutbox) : Decidable (db.IsFreshIntent row) :=
  inferInstanceAs (Decidable (_ ∧ _))

def addIntent (row : OrderMatchingOutbox) : Database :=
  if h : db.IsFreshIntent row then
    { db with
      matchingOutbox := db.matchingOutbox.insert row h.1
      intents := by
        rw [Table.insert, List.map_append, List.map_singleton]
        exact (List.nodup_append_comm.mp (List.nodup_cons.mpr ⟨h.2, db.intents⟩)) }
  else db

def apply : Write → Database
  | .wallet row => { db with toMarket := db.putWallet row }
  | .order id remainingAmount status =>
      { db with toMarket := db.putOrder id remainingAmount status }
  | .newOrder row => { db with toMarket := db.addOrder row }
  | .newTrade row => { db with toMarket := db.addTrade row }
  | .newIntent row => db.addIntent row
  | .newEvents events => { db with realtimeOutbox := db.realtimeOutbox ++ events }

/-- The order with this id, if it is one of the given user's. -/
def findOrder (id : OrderId) (userId : Option UserId) : Option Order :=
  (db.orders.find? id).filter fun order => userId.all (order.userId = ·)

end Database

/-- The reply and the writes of a statement, in the rows that it sees. -/
def effect {Reply : Type} (generated : Generated) (statement : Statement Reply) (db : Database) :
    Except Failure (Reply × List Write) :=
  match statement with
  | .lockMarket => .ok ((), [])
  | .lockOrder id userId => .ok ((db.findOrder id userId).isSome, [])
  | .findOrder id userId => .ok (db.findOrder id userId, [])
  | .findFirstOrder condition orderBy =>
      .ok (((db.orders.rows.filter condition).insertionSort (orderBy · ·)).head?, [])
  | .createOrder userId side status price originalAmount remainingAmount =>
      let row : Order := ⟨generated.orderId, generated.sequence, userId, side, status, price,
        originalAmount, remainingAmount, generated.now⟩
      match row.check with
      | .error failure => .error failure
      | .ok () =>
          if db.IsFresh row then .ok (row, [.newOrder row])
          else .error (.uniqueViolation "orders")
  | .updateOrder id data =>
      match db.orders.find? id with
      | none => .error .recordNotFound
      | some order =>
          let row := order.revised (data.remainingAmount.getD order.remainingAmount) data.status
          match row.check with
          | .error failure => .error failure
          | .ok () => .ok (row, [.order id row.remainingAmount row.status])
  | .findWallet userId => .ok (db.wallets.find? userId, [])
  | .findWallets userIds => .ok (db.wallets.rows.filter (·.userId ∈ userIds), [])
  | .lockWallet _ => .ok ((), [])
  | .updateWallet userId condition data =>
      match db.wallets.find? userId with
      | none => .ok (0, [])
      | some wallet =>
          if wallet.satisfies condition then
            match (wallet.update data).check with
            | .error failure => .error failure
            | .ok () => .ok (1, [.wallet (wallet.update data)])
          else .ok (0, [])
  | .createTrade data =>
      match data.check with
      | .error failure => .error failure
      | .ok () =>
          let row : Trade := ⟨data, db.trades.length, db.trades.length, generated.now⟩
          .ok (row, [.newTrade row])
  | .createMatchingIntent orderId =>
      let row : OrderMatchingOutbox :=
        ⟨generated.outboxId, orderId, 0, none, none, none, none, generated.now⟩
      if db.IsFreshIntent row then .ok ((), [.newIntent row])
      else .error (.uniqueViolation "order_matching_outbox")
  | .insertEvents events => .ok ((), [.newEvents events])

def engine : Engine Statement Failure Generated Database Write where
  effect := effect
  apply := Database.apply

/-- What a transaction holds until it commits or rolls back. -/
inductive Resource where
  | market
  | order (id : OrderId)
  | wallet (userId : UserId)
deriving DecidableEq, Repr

/-- The lock that a statement takes, when it finds the row in its snapshot. A
new row is in no snapshot before its transaction commits. -/
def locks {Reply : Type} (statement : Statement Reply) (db : Database) : Option Resource :=
  match statement with
  | .lockMarket => some .market
  | .lockOrder id userId => (db.findOrder id userId).map fun _ => .order id
  | .updateOrder id _ => (db.orders.find? id).map fun _ => .order id
  | .lockWallet userId => (db.wallets.find? userId).map fun _ => .wallet userId
  | .updateWallet userId _ _ => (db.wallets.find? userId).map fun _ => .wallet userId
  | _ => none

abbrev Transaction (Result : Type) := Program Statement Failure Result

section Runs

variable {generated : Generated} {db : Database} {Result : Type}

/-- The engine of the exchange runs the statements of this module. -/
@[simp] theorem engine_effect {Reply : Type} (statement : Statement Reply) :
    engine.effect generated statement db = effect generated statement db := rfl

/-- And it applies their writes. -/
@[simp] theorem engine_apply (write : Write) : engine.apply db write = db.apply write := rfl

/-- A transaction that runs alone never waits for the market. -/
@[simp] theorem run_lockMarket {next : Unit → Transaction Result} :
    engine.run generated (.issue .lockMarket next) db = engine.run generated (next ()) db := rfl

/-- Locking a row tells whether it exists for this user. -/
@[simp] theorem run_lockOrder {id : OrderId} {userId : Option UserId}
    {next : Bool → Transaction Result} :
    engine.run generated (.issue (.lockOrder id userId) next) db =
      engine.run generated (next (db.findOrder id userId).isSome) db := rfl

/-- A row is read as it is in the database. -/
@[simp] theorem run_findOrder {id : OrderId} {userId : Option UserId}
    {next : Option Order → Transaction Result} :
    engine.run generated (.issue (.findOrder id userId) next) db =
      engine.run generated (next (db.findOrder id userId)) db := rfl

/-- The first row in the order asked for, among those that meet the condition. -/
@[simp] theorem run_findFirstOrder {condition : Order → Bool} {orderBy : Order → Order → Bool}
    {next : Option Order → Transaction Result} :
    engine.run generated (.issue (.findFirstOrder condition orderBy) next) db =
      engine.run generated
        (next ((db.orders.rows.filter condition).insertionSort (orderBy · ·)).head?) db := rfl

/-- Wallets are found by their user. -/
@[simp] theorem run_findWallet {userId : UserId} {next : Option Wallet → Transaction Result} :
    engine.run generated (.issue (.findWallet userId) next) db =
      engine.run generated (next (db.wallets.find? userId)) db := rfl

/-- Several wallets come in the order of the table. -/
@[simp] theorem run_findWallets {userIds : List UserId} {next : List Wallet → Transaction Result} :
    engine.run generated (.issue (.findWallets userIds) next) db =
      engine.run generated (next (db.wallets.rows.filter (·.userId ∈ userIds))) db := rfl

/-- Locking a wallet does not change it. -/
@[simp] theorem run_lockWallet {userId : UserId} {next : Unit → Transaction Result} :
    engine.run generated (.issue (.lockWallet userId) next) db = engine.run generated
      (next ()) db := rfl

/-- Events are appended to the outbox. -/
@[simp] theorem run_insertEvents {events : List RealtimeDispatchEvent}
    {next : Unit → Transaction Result} :
    engine.run generated (.issue (.insertEvents events) next) db =
      engine.run generated (next ()) (db.apply (.newEvents events)) := rfl

/-- The row that `createOrder` stores. -/
def newOrder (generated : Generated) (userId : UserId) (side : OrderSide) (amount price : Int) :
    Order :=
  ⟨generated.orderId, generated.sequence, userId, side, .queued, price, amount, amount,
    generated.now⟩

/-- A new order is stored when it meets the checks of the table and its id and
sequence number are new. -/
theorem run_createOrder_eq_ok {userId : UserId} {side : OrderSide} {amount price : Int}
    {next : Order → Transaction Result} {out : Result × Database} :
    engine.run generated (.issue (.createOrder userId side .queued price amount amount) next) db =
        .ok out ↔
      (newOrder generated userId side amount price).Valid ∧
      db.IsFresh (newOrder generated userId side amount price) ∧
      engine.run generated (next (newOrder generated userId side amount price))
        (db.apply (.newOrder (newOrder generated userId side amount price))) = .ok out := by
  rw [Engine.run_issue_eq_ok, ← Order.check_eq_ok]
  simp only [engine_effect, effect, newOrder]
  split
  · next hCheck => simp [hCheck]
  · next hCheck =>
    split_ifs with hFresh
    · simp [hCheck, hFresh]
    · simp [hFresh]

/-- An order is rewritten when it exists and meets the checks afterwards. The
program goes on with the new row. -/
theorem run_updateOrder_eq_ok {id : OrderId} {data : OrderUpdate}
    {next : Order → Transaction Result} {out : Result × Database} :
    engine.run generated (.issue (.updateOrder id data) next) db = .ok out ↔
      ∃ order, db.orders.find? id = some order ∧
        (order.revised (data.remainingAmount.getD order.remainingAmount) data.status).Valid ∧
        engine.run generated
          (next (order.revised (data.remainingAmount.getD order.remainingAmount) data.status))
          (db.apply (.order id (data.remainingAmount.getD order.remainingAmount) data.status)) =
            .ok out := by
  rw [Engine.run_issue_eq_ok]
  simp only [engine_effect, effect]
  cases db.orders.find? id with
  | none => simp
  | some order =>
      simp only [Option.some.injEq, exists_eq_left']
      rw [← Order.check_eq_ok]
      split
      · next hCheck => simp [hCheck]
      · next hCheck => simp [hCheck]

/-- A trade is stored when it meets its checks. Ids and sequence numbers of trades
count up. -/
theorem run_createTrade_eq_ok {data : TradeData} {next : Trade → Transaction Result}
    {out : Result × Database} :
    engine.run generated (.issue (.createTrade data) next) db = .ok out ↔
      data.check = .ok () ∧
      engine.run generated (next ⟨data, db.trades.length, db.trades.length, generated.now⟩)
        (db.apply (.newTrade ⟨data, db.trades.length, db.trades.length, generated.now⟩)) =
          .ok out := by
  rw [Engine.run_issue_eq_ok]
  simp only [engine_effect, effect]
  split
  · next hCheck => simp [hCheck]
  · next hCheck => simp [hCheck]

/-- An intent is stored when neither its id nor its order is in the outbox already. -/
theorem run_createMatchingIntent_eq_ok {orderId : OrderId} {next : Unit → Transaction Result}
    {out : Result × Database} :
    engine.run generated (.issue (.createMatchingIntent orderId) next) db = .ok out ↔
      db.IsFreshIntent ⟨generated.outboxId, orderId, 0, none, none, none, none, generated.now⟩ ∧
      engine.run generated (next ())
        (db.apply (.newIntent
          ⟨generated.outboxId, orderId, 0, none, none, none, none, generated.now⟩)) = .ok out := by
  rw [Engine.run_issue_eq_ok]
  simp only [engine_effect, effect]
  split_ifs with hFresh
  · simp only [Except.ok.injEq, Prod.mk.injEq, true_and, hFresh]
    constructor
    · rintro ⟨_, _, rfl, hRun⟩
      exact hRun
    · exact fun hRun => ⟨(), _, rfl, hRun⟩
  · simp [hFresh]

end Runs
end ExchangeMatching
