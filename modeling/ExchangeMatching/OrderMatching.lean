import ExchangeMatching.Exchange
import ExchangeMatching.Library.Processes

/-! Delivery of matching intents. A dispatcher claims rows of the matching
outbox for a while, hands their orders to the queue and deletes the rows that
the queue has acknowledged; workers process the queued jobs, and reject an
order when its last attempt fails. -/
namespace ExchangeMatching

open Transactions Processes

def orderMatchingOutboxBatchSize : Nat := 50
def orderMatchingOutboxClaimTimeoutSeconds : Nat := 30
def orderMatchingOutboxRetryDelayMs : Nat := 2000

/-- What a process can catch. -/
inductive Thrown where
  | error (message : String)
  | other
deriving DecidableEq, Repr

def Thrown.message (thrown : Thrown) (unknown : String) : String :=
  match thrown with
  | .error message => message
  | .other => unknown

/-- The rows that a claim returns. -/
structure ClaimedOrderMatchingOutboxRow where
  id : String
  orderId : OrderId
  claimToken : String
deriving DecidableEq, Repr

/-- A job as it is added to the queue: its data and the options that matter. -/
structure Job where
  jobId : String
  orderId : OrderId
  attempts : Option Nat
deriving DecidableEq, Repr

/-- A job that the queue still retains. -/
structure RetainedJob extends Job where
  acknowledged : Bool
  /-- It has completed, or was given up. -/
  ended : Bool
deriving DecidableEq, Repr

/-- The queue with a record of the jobs that it ever acknowledged and of those
that ever completed. -/
structure MatchingQueue where
  jobs : Table RetainedJob (·.jobId)
  acknowledged : List String
  completed : List String

namespace OrderMatchingOutbox

/-- The condition of `claimNextBatch`: no lease, or one that has expired, and
no pause between attempts. -/
def isClaimable (row : OrderMatchingOutbox) (now : Nat) : Bool :=
  row.claimedAt.all (· < now - orderMatchingOutboxClaimTimeoutSeconds * 1000) &&
    row.nextAttemptAt.all (· ≤ now)

def claimed (row : OrderMatchingOutbox) (now : Nat) (claimToken : String) : OrderMatchingOutbox :=
  { row with claimedAt := some now, claimToken := some claimToken }

def released (row : OrderMatchingOutbox) (now : Nat) (lastError : String) : OrderMatchingOutbox :=
  { row with
    attemptCount := row.attemptCount + 1
    claimedAt := none
    claimToken := none
    nextAttemptAt := some (now + orderMatchingOutboxRetryDelayMs)
    lastError := some lastError }

section Columns

variable (row : OrderMatchingOutbox) (now : Nat) (claimToken lastError : String)

@[simp] theorem claimed_id : (row.claimed now claimToken).id = row.id := rfl
@[simp] theorem claimed_orderId : (row.claimed now claimToken).orderId = row.orderId := rfl
@[simp] theorem released_id : (row.released now lastError).id = row.id := rfl
@[simp] theorem released_orderId : (row.released now lastError).orderId = row.orderId := rfl

end Columns

/-- The row is the one that this claim holds. -/
def isHeld (row : OrderMatchingOutbox) (id claimToken : String) : Bool :=
  row.id = id && row.claimToken = some claimToken

theorem isHeld_iff {row : OrderMatchingOutbox} {id claimToken : String} :
    row.isHeld id claimToken = true ↔ row.id = id ∧ row.claimToken = some claimToken := by
  simp [isHeld]

end OrderMatchingOutbox

namespace Database

variable (db : Database)

/-- `UPDATE order_matching_outbox … WHERE`. -/
def updateIntents (p : OrderMatchingOutbox → Bool) (f : OrderMatchingOutbox → OrderMatchingOutbox)
    (hId : ∀ row, (f row).id = row.id) (hOrder : ∀ row, (f row).orderId = row.orderId) :
    Database where
  toMarket := db.toMarket
  matchingOutbox := db.matchingOutbox.update p f hId
  intents := by
    rw [Table.map_update _ hOrder]
    exact db.intents
  realtimeOutbox := db.realtimeOutbox

/-- `DELETE FROM order_matching_outbox WHERE`. -/
def deleteIntents (p : OrderMatchingOutbox → Bool) : Database where
  toMarket := db.toMarket
  matchingOutbox := db.matchingOutbox.delete p
  intents := db.intents.sublist (List.filter_sublist.map _)
  realtimeOutbox := db.realtimeOutbox

/-- The rows that a claim selects, oldest first, when it skips those that
others have locked. -/
def claimableIntents (now : Nat) (skipped : List String) : List String :=
  (((db.matchingOutbox.rows.filter fun row => row.isClaimable now && row.id ∉ skipped).insertionSort
    (·.createdAt ≤ ·.createdAt)).take orderMatchingOutboxBatchSize).map (·.id)

def claimIntents (now : Nat) (claimToken : String) (skipped : List String) : Database :=
  db.updateIntents (fun row => row.id ∈ db.claimableIntents now skipped)
    (·.claimed now claimToken) (·.claimed_id now claimToken) (·.claimed_orderId now claimToken)

/-- The `RETURNING` clause of the claim. -/
def claimedRows (now : Nat) (claimToken : String) (skipped : List String) :
    List ClaimedOrderMatchingOutboxRow :=
  (db.matchingOutbox.rows.filter fun row => row.id ∈ db.claimableIntents now skipped).map
    fun row => ⟨row.id, row.orderId, claimToken⟩

def removeClaimedRow (id claimToken : String) : Database :=
  db.deleteIntents (·.isHeld id claimToken)

def releaseClaim (now : Nat) (id claimToken lastError : String) : Database :=
  db.updateIntents (·.isHeld id claimToken) (·.released now lastError)
    (·.released_id now lastError) (·.released_orderId now lastError)

/-- The queued orders without an intent that one run of the restore script
selects. -/
def pendingOrders (skipped : List OrderId) : List Order :=
  ((db.orders.rows.filter fun order => order.status = .queued &&
      order.id ∉ db.matchingOutbox.rows.map OrderMatchingOutbox.orderId &&
      order.id ∉ skipped).insertionSort (·.sequence ≤ ·.sequence)).take 100

/-- Insert one restored intent, unless its order has one by now. -/
def restoreIntent (now : Nat) (order : Order) : Except Failure Database :=
  let row : OrderMatchingOutbox :=
    ⟨"recover_" ++ order.id, order.id, 0, none, none, none, none, now⟩
  if row.orderId ∈ db.matchingOutbox.rows.map OrderMatchingOutbox.orderId then .ok db
  else if db.IsFreshIntent row then .ok (db.addIntent row)
  else .error (.uniqueViolation "order_matching_outbox")

/-- `restore-matching-intents.sql`. -/
def restoreMatchingIntents (now : Nat) (skipped : List OrderId) : Except Failure Database :=
  (db.pendingOrders skipped).foldlM (restoreIntent · now) db

/-- The orders that a transaction moves out of the queue. -/
def departures (db' : Database) : List OrderId :=
  (db.orders.rows.filter fun order => order.status = .queued &&
    (db'.orders.find? order.id).any (·.status ≠ .queued)).map Order.id

end Database

namespace MatchingQueue

variable (queue : MatchingQueue)

/-- `add` is ignored while a job with this id is retained. -/
def add (job : Job) : MatchingQueue :=
  if h : queue.jobs.find? job.jobId = none then
    { queue with jobs := queue.jobs.insert ⟨job, false, false⟩ h }
  else queue

def acknowledge (jobId : String) : MatchingQueue where
  jobs := queue.jobs.modify jobId (fun job => { job with acknowledged := true }) (fun _ => rfl)
  acknowledged := jobId :: queue.acknowledged
  completed := queue.completed

def endJob (jobId : String) : MatchingQueue :=
  { queue with
    jobs := queue.jobs.modify jobId (fun job => { job with ended := true }) (fun _ => rfl) }

/-- A job that has ended waits for a worker again. -/
def retry (jobId : String) : MatchingQueue :=
  { queue with
    jobs := queue.jobs.modify jobId (fun job => { job with ended := false }) (fun _ => rfl) }

def complete (jobId : String) : MatchingQueue :=
  { queue.endJob jobId with completed := jobId :: queue.completed }

def forget (jobId : String) : MatchingQueue :=
  { queue with jobs := queue.jobs.delete (·.jobId = jobId) }

end MatchingQueue

/-- What dispatchers and workers ask of the database and the queue. -/
inductive Command : Type → Type where
  | claimNextBatch : Command (List ClaimedOrderMatchingOutboxRow)
  | add (job : Job) : Command Unit
  | removeClaimedRow (id claimToken : String) : Command Unit
  | releaseClaim (id claimToken lastError : String) : Command Unit
  | transaction (call : Call) : Command Outcome
  /-- The worker reports that a job returned normally. -/
  | moveToCompleted (jobId : String) : Command Unit

abbrev Task (Result : Type) := Process Command Thrown Result

namespace OrderMatchingQueueService

/-- The job of an order. -/
def processOrderJob (orderId : OrderId) : Job := ⟨orderId, orderId, some 3⟩

/-- A client that fails to add is closed, and its failure is thrown again. -/
def enqueueProcessOrder (orderId : OrderId) : Task Unit :=
  .perform (.add (processOrderJob orderId))

end OrderMatchingQueueService

namespace OrderMatchingOutboxDispatcher

/-- Dispatch one claimed row. The result is whether that failed. -/
def dispatchRow (row : ClaimedOrderMatchingOutboxRow) : Task Bool := do
  let dispatched ← Process.attempt do
    OrderMatchingQueueService.enqueueProcessOrder row.orderId
    Process.perform (.removeClaimedRow row.id row.claimToken)
  match dispatched with
  | .ok () => return false
  | .error error =>
      -- A claim that cannot be released is left to expire.
      let _ ← Process.attempt
        (.perform (.releaseClaim row.id row.claimToken (error.message "Unknown queue error")))
      return true

def dispatchRows : List ClaimedOrderMatchingOutboxRow → Bool → Task Bool
  | [], hasFailedDispatch => return hasFailedDispatch
  | row :: rows, hasFailedDispatch => do
      let failed ← dispatchRow row
      dispatchRows rows (hasFailedDispatch || failed)

/-- The dispatcher is told to stop after some turns of its loop. -/
def dispatchLoop : Nat → Task Unit
  | 0 => return ()
  | turns + 1 => do
      let claimedRows ← Process.perform .claimNextBatch
      if claimedRows.length = 0 then return ()
      else
        let hasFailedDispatch ← dispatchRows claimedRows false
        if hasFailedDispatch then return () else dispatchLoop turns

end OrderMatchingOutboxDispatcher

namespace OrderMatchingProcessor

def isFinalAttempt (job : Job) (attemptsMade : Nat) : Bool :=
  job.attempts.getD 1 ≤ attemptsMade + 1

def process (job : Job) (attemptsMade : Nat) : Task Unit := do
  match ← Process.attempt (.perform (.transaction (.processOrder job.orderId))) with
  | .ok _ => return ()
  | .error error =>
      if isFinalAttempt job attemptsMade then
        let _ ← Process.perform (.transaction (.rejectOrderAfterFailedProcessing job.orderId))
        return ()
      else .throw error

/-- A worker runs a job and reports it when `process` has returned. -/
def run (job : Job) (attemptsMade : Nat) : Task Unit := do
  process job attemptsMade
  Process.perform (.moveToCompleted job.jobId)

end OrderMatchingProcessor

/-- The database and the queue, which claim drew each token, and the orders
that the committed transactions have moved out of the queue, in this order. -/
structure World (Index : Type) where
  db : Database
  queue : MatchingQueue
  claims : List (String × Index)
  departures : List OrderId

namespace World

variable {Index : Type} (world : World Index)

def start (db : Database) : World Index := ⟨db, ⟨.empty, [], []⟩, [], []⟩

/-- A transaction commits. -/
def commit (db' : Database) : World Index :=
  { world with db := db', departures := world.departures ++ world.db.departures db' }

variable (newDecimal : String → Option DecimalValue)

/-- What a command does when it takes effect. Leases expire as the clock of
the database allows, which may show any time. -/
def Effect (index : Index) {Reply : Type} (command : Command Reply) (world : World Index)
    (reply : Reply) (world' : World Index) : Prop :=
  match command with
  | .claimNextBatch => ∃ (now : Nat) (claimToken : String) (skipped : List String),
      claimToken ∉ world.claims.map Prod.fst ∧
      List.Perm reply (world.db.claimedRows now claimToken skipped) ∧
      world' = { world with
        db := world.db.claimIntents now claimToken skipped
        claims := (claimToken, index) :: world.claims }
  | .add job => world' = { world with queue := (world.queue.add job).acknowledge job.jobId }
  | .removeClaimedRow id claimToken =>
      world' = { world with db := world.db.removeClaimedRow id claimToken }
  | .releaseClaim id claimToken lastError => ∃ now : Nat,
      world' = { world with db := world.db.releaseClaim now id claimToken lastError }
  | .transaction call => ∃ (generated : Generated) (db' : Database),
      world.db.call newDecimal ⟨call, generated⟩ = .ok (reply, db') ∧ world' = world.commit db'
  | .moveToCompleted jobId => world' = { world with queue := world.queue.complete jobId }

/-- What happens without the dispatchers and the workers: requests of users,
runs of the restore script, retries by an operator, and what the queue does by
itself. -/
inductive Outside : World Index → World Index → Prop where
  | createOrder {world : World Index} {outcome : Outcome} {db' : Database} (userId : UserId)
      (side : OrderSide) (amountInput priceInput : String) (generated : Generated)
      (run : world.db.call newDecimal
        ⟨.createOrder userId side amountInput priceInput, generated⟩ = .ok (outcome, db')) :
      Outside world (world.commit db')
  | cancelOrder {world : World Index} {outcome : Outcome} {db' : Database} (userId : UserId)
      (orderId : OrderId) (generated : Generated)
      (run : world.db.call newDecimal ⟨.cancelOrder userId orderId, generated⟩ =
        .ok (outcome, db')) :
      Outside world (world.commit db')
  | restore {world : World Index} {db' : Database} (now : Nat) (skipped : List OrderId)
      (run : world.db.restoreMatchingIntents now skipped = .ok db') :
      Outside world (world.commit db')
  /-- A job that was sent, but not acknowledged, may turn up later. -/
  | turnUp {world : World Index} (order : Order) (stored : order ∈ world.db.orders) :
      Outside world
        { world with queue := world.queue.add (OrderMatchingQueueService.processOrderJob order.id) }
  /-- A job fails for good. -/
  | giveUp {world : World Index} (jobId : String) :
      Outside world { world with queue := world.queue.endJob jobId }
  | retry {world : World Index} (job : RetainedJob) (retained : job ∈ world.queue.jobs)
      (ended : job.ended = true) :
      Outside world { world with queue := world.queue.retry job.jobId }
  /-- Jobs that have ended, or were never acknowledged, need not be retained. -/
  | forget {world : World Index} (job : RetainedJob) (retained : job ∈ world.queue.jobs)
      (dispensable : job.ended = true ∨ job.acknowledged = false) :
      Outside world { world with queue := world.queue.forget job.jobId }

/-- Dispatchers and workers may be started at any time. A job may be started again
while it has not ended, but not afterwards. -/
inductive Spawns : World Index → Task Unit → Prop where
  | dispatcher {world : World Index} (turns : Nat) :
      Spawns world (OrderMatchingOutboxDispatcher.dispatchLoop turns)
  | worker {world : World Index} (job : RetainedJob) (attemptsMade : Nat)
      (retained : job ∈ world.queue.jobs) (waits : job.ended = false) :
      Spawns world (OrderMatchingProcessor.run job.toJob attemptsMade)

def services : Services Command Thrown (World Index) Index where
  effect index := Effect newDecimal index
  outside := Outside newDecimal
  spawns _ := Spawns

end World
end ExchangeMatching
