import ExchangeMatching.OrderMatching

/-! The realtime outbox. Events are inserted with the changes that they report;
dispatchers claim rows for a while, publish their events and mark the rows as
published, or release them for a later attempt; the tenth failure moves a row
to dead letter. Old rows in a final state are pruned. -/
namespace ExchangeMatching.Realtime

open Processes

def realtimeOutboxBatchSize : Nat := 50
def realtimeOutboxClaimTimeoutSeconds : Nat := 30
def realtimeOutboxRetryDelayMs : Nat := 2000
def realtimeOutboxMaxRetryDelayMs : Nat := 60000
def realtimeOutboxMaxAttempts : Nat := 10
def realtimeOutboxPublishedRetentionDays : Nat := 7
def realtimeOutboxDeadLetterRetentionDays : Nat := 30

def millisecondsPerDay : Nat := 24 * 60 * 60 * 1000

/-- A stored payload comes back as an object or as text. -/
inductive Payload where
  | object (event : RealtimeDispatchEvent)
  | text (content : String)
deriving DecidableEq, Repr

structure RealtimeOutboxEntry where
  id : String
  eventType : String
  payload : Payload
deriving DecidableEq, Repr

/-- A row of `realtime_event_outbox`. Times are in milliseconds. -/
structure RealtimeEventOutbox extends RealtimeOutboxEntry where
  attemptCount : Nat
  claimToken : Option String
  claimedAt : Option Nat
  nextAttemptAt : Option Nat
  lastError : Option String
  publishedAt : Option Nat
  deadLetteredAt : Option Nat
  createdAt : Nat
deriving DecidableEq, Repr

structure ClaimedRealtimeOutboxRow where
  id : String
  claimToken : String
  payload : Payload
deriving DecidableEq, Repr

abbrev Outbox := Table RealtimeEventOutbox (·.id)

namespace RealtimeEventOutbox

variable (row : RealtimeEventOutbox)

/-- The condition of `claimNextBatch`. -/
def isClaimable (now claimTimeoutSeconds : Nat) : Bool :=
  row.publishedAt.isNone && row.deadLetteredAt.isNone && row.nextAttemptAt.all (· ≤ now) &&
    row.claimedAt.all (· < now - claimTimeoutSeconds * 1000)

def claimed (now : Nat) (claimToken : String) : RealtimeEventOutbox :=
  { row with claimedAt := some now, claimToken := some claimToken }

def published (now : Nat) : RealtimeEventOutbox :=
  { row with
    publishedAt := some now
    claimedAt := none
    claimToken := none
    nextAttemptAt := none
    lastError := none }

/-- A released row. All expressions read the old row. -/
def released (now : Nat) (lastError : String) (maxAttempts retryDelayMs maxRetryDelayMs : Nat) :
    RealtimeEventOutbox :=
  { row with
    attemptCount := row.attemptCount + 1
    claimedAt := none
    claimToken := none
    lastError := some lastError
    nextAttemptAt :=
      if maxAttempts ≤ row.attemptCount + 1 then none
      else some (now + min (retryDelayMs * 2 ^ row.attemptCount) maxRetryDelayMs)
    deadLetteredAt := if maxAttempts ≤ row.attemptCount + 1 then some now else none }

/-- The row is the one that this claim holds. -/
def isHeld (id claimToken : String) : Bool :=
  row.id = id && row.claimToken = some claimToken

/-- Published or dead-lettered not after the cutoff for its state. -/
def isExpired (publishedCutoff deadLetterCutoff : Int) : Bool :=
  row.publishedAt.any (fun time : Nat => (time : Int) ≤ publishedCutoff) ||
    row.deadLetteredAt.any (fun time : Nat => (time : Int) ≤ deadLetterCutoff)

variable {row} {id claimToken : String}

@[simp] theorem claimed_id (now : Nat) : (row.claimed now claimToken).id = row.id := rfl
@[simp] theorem published_id (now : Nat) : (row.published now).id = row.id := rfl
@[simp] theorem released_id (now : Nat) (lastError : String)
    (maxAttempts retryDelayMs maxRetryDelayMs : Nat) :
    (row.released now lastError maxAttempts retryDelayMs maxRetryDelayMs).id = row.id := rfl

theorem isHeld_iff : row.isHeld id claimToken = true ↔
    row.id = id ∧ row.claimToken = some claimToken := by
  simp [isHeld]

end RealtimeEventOutbox

namespace Outbox

variable (outbox : Outbox)

/-- Insert one row with the defaults of its other columns. -/
def insertEntry (now : Nat) (entry : RealtimeOutboxEntry) : Except Failure Outbox :=
  if h : outbox.find? entry.id = none then
    .ok (outbox.insert ⟨entry, 0, none, none, none, none, none, none, now⟩ h)
  else .error (.uniqueViolation "realtime_event_outbox")

def insertEvents (now : Nat) (entries : List RealtimeOutboxEntry) : Except Failure Outbox :=
  entries.foldlM (fun outbox entry => insertEntry outbox now entry) outbox

/-- The rows that a claim selects, oldest first, when it skips those that
others have locked. -/
def claimable (now batchSize claimTimeoutSeconds : Nat) (skipped : List String) : List String :=
  (((outbox.rows.filter fun row => row.isClaimable now claimTimeoutSeconds &&
    row.id ∉ skipped).insertionSort (·.createdAt ≤ ·.createdAt)).take batchSize).map (·.id)

def claim (now : Nat) (claimToken : String) (ids : List String) : Outbox :=
  outbox.update (·.id ∈ ids) (·.claimed now claimToken) (fun row => row.claimed_id now)

/-- The `RETURNING` clause of the claim. -/
def claimedRows (claimToken : String) (ids : List String) : List ClaimedRealtimeOutboxRow :=
  (outbox.rows.filter fun row => row.id ∈ ids).map fun row => ⟨row.id, claimToken, row.payload⟩

def markAsPublished (now : Nat) (id claimToken : String) : Outbox :=
  outbox.update (·.isHeld id claimToken) (·.published now) (fun row => row.published_id now)

def releaseClaim (now : Nat) (id claimToken lastError : String)
    (maxAttempts retryDelayMs maxRetryDelayMs : Nat) : Outbox :=
  outbox.update (·.isHeld id claimToken)
    (·.released now lastError maxAttempts retryDelayMs maxRetryDelayMs)
    (fun row => row.released_id now lastError maxAttempts retryDelayMs maxRetryDelayMs)

def pruneExpiredEvents (publishedCutoff deadLetterCutoff : Int) : Outbox :=
  outbox.delete (·.isExpired publishedCutoff deadLetterCutoff)

end Outbox

/-- What a dispatcher asks of the database and of the publisher. A publication
names the row that it is made for. -/
inductive Command : Type → Type where
  | claimNextBatch (batchSize claimTimeoutSeconds : Nat) : Command (List ClaimedRealtimeOutboxRow)
  | publishEvent (row : ClaimedRealtimeOutboxRow) (event : RealtimeDispatchEvent) : Command Unit
  | markAsPublished (id claimToken : String) : Command Unit
  | releaseClaim (id claimToken lastError : String)
      (maxAttempts retryDelayMs maxRetryDelayMs : Nat) : Command Unit
  | pruneExpiredEvents (publishedCutoff deadLetterCutoff : Int) : Command Unit

abbrev Task (Result : Type) := Process Command Thrown Result

namespace RealtimeOutboxDispatcher

/-- `JSON.parse` is given; it throws on malformed text. -/
def normalizePayload (parse : String → Except Thrown RealtimeDispatchEvent) :
    Payload → Task RealtimeDispatchEvent
  | .object event => return event
  | .text content =>
      match parse content with
      | .ok event => return event
      | .error error => .throw error

variable (parse : String → Except Thrown RealtimeDispatchEvent)

/-- Dispatch one claimed row. The result is whether that failed. -/
def dispatchRow (row : ClaimedRealtimeOutboxRow) : Task Bool := do
  let dispatched ← Process.attempt do
    let event ← normalizePayload parse row.payload
    Process.perform (.publishEvent row event)
    Process.perform (.markAsPublished row.id row.claimToken)
  match dispatched with
  | .ok () => return false
  | .error error =>
      -- A claim that cannot be released is left to expire.
      let _ ← Process.attempt (.perform (.releaseClaim row.id row.claimToken
        (error.message "Unknown dispatch error") realtimeOutboxMaxAttempts
        realtimeOutboxRetryDelayMs realtimeOutboxMaxRetryDelayMs))
      return true

def dispatchRows : List ClaimedRealtimeOutboxRow → Bool → Task Bool
  | [], hasFailedDispatch => return hasFailedDispatch
  | row :: rows, hasFailedDispatch => do
      let failed ← dispatchRow parse row
      dispatchRows rows (hasFailedDispatch || failed)

/-- The dispatcher is told to stop after some turns of its loop. -/
def dispatchLoop : Nat → Task Unit
  | 0 => return ()
  | turns + 1 => do
      let claimedRows ← Process.perform
        (.claimNextBatch realtimeOutboxBatchSize realtimeOutboxClaimTimeoutSeconds)
      if claimedRows.length = 0 then return ()
      else
        let hasFailedDispatch ← dispatchRows parse claimedRows false
        if hasFailedDispatch then return () else dispatchLoop turns

/-- A maintenance run that reads the clock now. -/
def pruneExpiredEvents (now : Nat) : Task Unit :=
  .perform (.pruneExpiredEvents
    ((now : Int) - (realtimeOutboxPublishedRetentionDays * millisecondsPerDay : Nat))
    ((now : Int) - (realtimeOutboxDeadLetterRetentionDays * millisecondsPerDay : Nat)))

end RealtimeOutboxDispatcher

/-- The table and the time, which process drew each token, and the rows that
were delivered under each of them. -/
structure World (Index : Type) where
  outbox : Outbox
  now : Nat
  claims : List (String × Index)
  deliveries : List (String × String)

namespace World

variable {Index : Type}

/-- What a command does when it takes effect. -/
def Effect (index : Index) {Reply : Type} (command : Command Reply) (world : World Index)
    (reply : Reply) (world' : World Index) : Prop :=
  match command with
  | .claimNextBatch batchSize claimTimeoutSeconds =>
      ∃ (claimToken : String) (skipped : List String), claimToken ∉ world.claims.map Prod.fst ∧
      List.Perm reply (world.outbox.claimedRows claimToken
        (world.outbox.claimable world.now batchSize claimTimeoutSeconds skipped)) ∧
      world' = { world with
        outbox := world.outbox.claim world.now claimToken
          (world.outbox.claimable world.now batchSize claimTimeoutSeconds skipped)
        claims := (claimToken, index) :: world.claims }
  | .publishEvent row _ =>
      world' = { world with deliveries := (row.id, row.claimToken) :: world.deliveries }
  | .markAsPublished id claimToken =>
      world' = { world with outbox := world.outbox.markAsPublished world.now id claimToken }
  | .releaseClaim id claimToken lastError maxAttempts retryDelayMs maxRetryDelayMs =>
      world' = { world with
        outbox := world.outbox.releaseClaim world.now id claimToken lastError maxAttempts
          retryDelayMs maxRetryDelayMs }
  | .pruneExpiredEvents publishedCutoff deadLetterCutoff =>
      world' =
        { world with outbox := world.outbox.pruneExpiredEvents publishedCutoff deadLetterCutoff }

/-- Transactions of the exchange insert events, and time goes on. -/
inductive Outside : World Index → World Index → Prop where
  | insertEvents {world : World Index} {outbox : Outbox} (entries : List RealtimeOutboxEntry)
      (insert : world.outbox.insertEvents world.now entries = .ok outbox) :
      Outside world { world with outbox := outbox }
  | tick {world : World Index} (milliseconds : Nat) :
      Outside world { world with now := world.now + milliseconds }

inductive Spawns (parse : String → Except Thrown RealtimeDispatchEvent) :
    World Index → Task Unit → Prop where
  | dispatcher {world : World Index} (turns : Nat) :
      Spawns parse world (RealtimeOutboxDispatcher.dispatchLoop parse turns)
  | maintenance {world : World Index} :
      Spawns parse world (RealtimeOutboxDispatcher.pruneExpiredEvents world.now)

def services (parse : String → Except Thrown RealtimeDispatchEvent) :
    Services Command Thrown (World Index) Index where
  effect := Effect
  outside := Outside
  spawns _ := Spawns parse

/-- An empty table. -/
def start (now : Nat) : World Index := ⟨.empty, now, [], []⟩

end World
end ExchangeMatching.Realtime
