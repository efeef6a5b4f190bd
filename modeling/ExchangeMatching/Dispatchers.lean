import ExchangeMatching.Library.SingleFlight
import ExchangeMatching.RealtimeOutbox

/-! The two services that dispatch an outbox. Each instance runs one loop at a
time, attempts every row that it has claimed, and is drained on shutdown. -/
namespace ExchangeMatching

open SingleFlight Processes

namespace Realtime

def realtimeOutboxMaintenanceIntervalMs : Nat := 60 * 60 * 1000

end Realtime

/-- An instance of the service that enqueues matching jobs. -/
def OrderMatchingOutboxDispatcher.worker : Worker Command Thrown ClaimedOrderMatchingOutboxRow where
  claim := .claimNextBatch
  attempt := dispatchRow
  maintenance := none

/-- An instance of the service that publishes events. -/
def Realtime.RealtimeOutboxDispatcher.worker
    (parse : String → Except Thrown RealtimeDispatchEvent) :
    Worker Realtime.Command Thrown ClaimedRealtimeOutboxRow where
  claim := .claimNextBatch realtimeOutboxBatchSize realtimeOutboxClaimTimeoutSeconds
  attempt := dispatchRow parse
  maintenance := some ⟨realtimeOutboxMaintenanceIntervalMs, fun now => .pruneExpiredEvents
    ((now : Int) - (realtimeOutboxPublishedRetentionDays * millisecondsPerDay : Nat))
    ((now : Int) - (realtimeOutboxDeadLetterRetentionDays * millisecondsPerDay : Nat))⟩

/-- A row that cannot be enqueued is released, and a claim that cannot be
released is left alone. -/
theorem OrderMatchingOutboxDispatcher.catches_dispatchRow (row : ClaimedOrderMatchingOutboxRow) :
    Catches (dispatchRow row) := by
  refine (catches_attempt _).bind fun dispatched => ?_
  cases dispatched with
  | ok _ => trivial
  | error error => exact (catches_attempt _).bind fun _ => trivial

/-- The same for a row that cannot be parsed, published or marked. -/
theorem Realtime.RealtimeOutboxDispatcher.catches_dispatchRow
    (parse : String → Except Thrown RealtimeDispatchEvent) (row : ClaimedRealtimeOutboxRow) :
    Catches (dispatchRow parse row) := by
  refine (catches_attempt _).bind fun dispatched => ?_
  cases dispatched with
  | ok _ => trivial
  | error error => exact (catches_attempt _).bind fun _ => trivial

namespace Sample

def claimedRow : ClaimedOrderMatchingOutboxRow := ⟨"intent", "order", "claim"⟩

/-- A loop has found nothing to do, and its promise has not been cleared. -/
def endedDispatcher : Dispatcher Command Thrown ClaimedOrderMatchingOutboxRow :=
  Dispatcher.start.dispatchPending.resume 0 (.ended (.ok ()), [])

theorem reaches_endedDispatcher :
    Dispatcher.Reaches OrderMatchingOutboxDispatcher.worker .start endedDispatcher :=
  .tail (.single .dispatchPending) (.claimed (.ok []) (List.mem_singleton.mpr rfl))

/-- The service stops while a row is enqueued, and waits for the row. -/
theorem reaches_drained : ∃ dispatcher,
    Dispatcher.Reaches OrderMatchingOutboxDispatcher.worker .start dispatcher ∧
      attempts 0 dispatcher.log = [claimedRow] ∧ dispatcher.resolved = true := by
  have hClaimed : Dispatcher.Reaches OrderMatchingOutboxDispatcher.worker .start
      (Dispatcher.start.dispatchPending.resume 0
        (OrderMatchingOutboxDispatcher.worker.claimed false 0 (.ok [claimedRow]))) :=
    .tail (.single .dispatchPending) (.claimed (.ok [claimedRow]) (List.mem_singleton.mpr rfl))
  have hStopped := hClaimed.tail .onApplicationShutdown
  have hEnqueued := hStopped.tail (.replied (.ok ()) (List.mem_singleton.mpr rfl))
  have hRemoved := hEnqueued.tail (.replied (.ok ()) (List.mem_singleton.mpr rfl))
  have hCleared := hRemoved.tail (.cleared (List.mem_singleton.mpr rfl))
  have hResolved := hCleared.tail
    (.resolved List.mem_cons_self (fun _ hEntry => by cases hEntry)
      (fun _ hEntry => by cases hEntry))
  exact ⟨_, hResolved, rfl, rfl⟩

theorem reaches_pruning (parse : String → Except Thrown RealtimeDispatchEvent) : ∃ dispatcher,
    Dispatcher.Reaches (Realtime.RealtimeOutboxDispatcher.worker parse) .start dispatcher ∧
      dispatcher.prunes.length = 1 :=
  ⟨_, .single (.tick 0), rfl⟩

end Sample

/-- Any interleaving keeps the instances of both services in order. -/
theorem dispatchers_behave {parse : String → Except Thrown RealtimeDispatchEvent}
    {matching : Dispatcher Command Thrown ClaimedOrderMatchingOutboxRow}
    {realtime : Dispatcher Realtime.Command Thrown Realtime.ClaimedRealtimeOutboxRow}
    (hMatching : Dispatcher.Reaches OrderMatchingOutboxDispatcher.worker .start matching)
    (hRealtime : Dispatcher.Reaches (Realtime.RealtimeOutboxDispatcher.worker parse) .start
      realtime) :
    matching.Behaves OrderMatchingOutboxDispatcher.worker ∧
      realtime.Behaves (Realtime.RealtimeOutboxDispatcher.worker parse) :=
  ⟨Dispatcher.behaves_of_reaches OrderMatchingOutboxDispatcher.catches_dispatchRow hMatching,
    Dispatcher.behaves_of_reaches (Realtime.RealtimeOutboxDispatcher.catches_dispatchRow parse)
      hRealtime⟩

theorem dispatchers_behave_sample :
    ∃ (matching : Dispatcher Command Thrown ClaimedOrderMatchingOutboxRow)
      (realtime : Dispatcher Realtime.Command Thrown Realtime.ClaimedRealtimeOutboxRow),
    attempts 0 matching.log = [Sample.claimedRow] ∧ matching.resolved = true ∧
      realtime.prunes.length = 1 ∧ matching.Behaves OrderMatchingOutboxDispatcher.worker ∧
        realtime.Behaves (Realtime.RealtimeOutboxDispatcher.worker fun _ => .error .other) := by
  obtain ⟨matching, hMatching, hAttempts, hResolved⟩ := Sample.reaches_drained
  obtain ⟨realtime, hRealtime, hPrunes⟩ := Sample.reaches_pruning fun _ => .error .other
  obtain ⟨hBehaves, hBehaves'⟩ := dispatchers_behave hMatching hRealtime
  exact ⟨matching, realtime, hAttempts, hResolved, hPrunes, hBehaves, hBehaves'⟩

/-- A call that comes before the promise is cleared joins the loop that has ended. -/
theorem ended_loop_joined : ¬∀ dispatcher,
    Dispatcher.Reaches OrderMatchingOutboxDispatcher.worker .start dispatcher →
      dispatcher.stopping = false →
      (∀ entry ∈ dispatcher.loops, ∃ result, entry.2 = .ended result) →
        dispatcher.dispatchPending.log = dispatcher.log ++ [.claim dispatcher.promises] := by
  intro hClaim
  have hLog := hClaim Sample.endedDispatcher Sample.reaches_endedDispatcher rfl
    fun entry hEntry => ⟨.ok (), congrArg Prod.snd (List.mem_singleton.mp hEntry)⟩
  have hLength := congrArg List.length hLog
  cases hLength

end ExchangeMatching
