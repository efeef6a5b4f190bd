import ExchangeMatching.AuditRuns

/-! Recovery. Whatever has crashed, expired or been lost, one process that is
started again and again can bring every queued order to the book, with the help of
an operator who runs the restore script and retries failed jobs. -/
namespace ExchangeMatching

open Transactions Processes

namespace OrderMatchingOutbox

variable {row : OrderMatchingOutbox}

theorem isClaimable_iff {now : Nat} : row.isClaimable now = true ↔
    (∀ claimedAt ∈ row.claimedAt, claimedAt < now - orderMatchingOutboxClaimTimeoutSeconds *
      1000) ∧ ∀ nextAttemptAt ∈ row.nextAttemptAt, nextAttemptAt ≤ now := by
  simp [isClaimable, Option.all_eq_true]

/-- Leases and pauses end. -/
theorem exists_claimable (rows : List OrderMatchingOutbox) :
    ∃ now, ∀ row ∈ rows, row.isClaimable now = true := by
  induction rows with
  | nil => exact ⟨0, fun row hRow => by cases hRow⟩
  | cons row rows ih =>
      obtain ⟨now, hNow⟩ := ih
      let later := now + row.claimedAt.getD 0 + row.nextAttemptAt.getD 0 +
        orderMatchingOutboxClaimTimeoutSeconds * 1000 + 1
      have hLater : now ≤ later := by omega
      refine ⟨later, List.forall_mem_cons.mpr ⟨?_, fun other hOther => ?_⟩⟩
      · refine isClaimable_iff.mpr ⟨fun claimedAt hClaimed => ?_, fun nextAttemptAt hNext => ?_⟩
        · have hGiven : row.claimedAt.getD 0 = claimedAt := by rw [hClaimed, Option.getD_some]
          omega
        · have hGiven : row.nextAttemptAt.getD 0 = nextAttemptAt := by rw [hNext, Option.getD_some]
          omega
      · obtain ⟨hLease, hPause⟩ := isClaimable_iff.mp (hNow other hOther)
        exact isClaimable_iff.mpr
          ⟨fun claimedAt hClaimed => (hLease claimedAt hClaimed).trans_le
            (Nat.sub_le_sub_right hLater _),
            fun nextAttemptAt hNext => (hPause nextAttemptAt hNext).trans hLater⟩

end OrderMatchingOutbox

namespace Reference

variable {db db' : Database} {taker order : Order}

/-- Matching takes its taker out of the queue, and no other order. -/
theorem queued_finalOrder (hWell : db.WellFormed) (hTaker : db.orders.find? taker.id = some taker)
    (hQueued : taker.status = .queued) (hOrder : db.orders.find? order.id = some order) :
    (finalOrder db.orders.rows taker order).status = .queued ↔
      order.id ≠ taker.id ∧ order.status = .queued := by
  unfold finalOrder
  by_cases hId : order.id = taker.id
  · rw [if_pos hId, finalTaker, Order.revised_status]
    split_ifs <;> simp [hId]
  · rw [if_neg hId, matching_eq]
    dsimp only
    split
    · simp [hId]
    · next maker amount hFill =>
      have hSettling := MatchingService.Settling.candidates hWell hTaker hQueued
        (List.prefix_refl _)
      have hPlanned := List.mem_of_find?_eq_some hFill
      have hMaker := hSettling.plan_found taker.remainingAmount _ hPlanned
      have hSame : maker.id = order.id := by simpa using List.find?_some hFill
      rw [hSame, hOrder, Option.some.injEq] at hMaker
      have hResting := MatchingOrderBook.isResting_of_candidateCondition
        (MatchingOrderBook.mem_candidates.mp (MatchingService.maker_of_mem_plan hPlanned)).2
      rw [← hMaker] at hResting
      have hNotQueued : order.status ≠ .queued := fun hEq => by
        rw [hEq] at hResting
        cases hResting
      rw [Order.revised_status]
      split_ifs <;> simp [hNotQueued]

end Reference

namespace Database

variable {newDecimal : String → Option DecimalValue} {db db' : Database} {id : OrderId}

/-- The orders that wait to be matched. -/
def queued (db : Database) : List OrderId :=
  (db.orders.rows.filter (·.status = .queued)).map Order.id

/-- Orders are processed one after another, and no call fails. -/
inductive WorksOff (newDecimal : String → Option DecimalValue) :
    Database → List OrderId → Database → Prop where
  | nil {db : Database} : WorksOff newDecimal db [] db
  | cons {db db' db'' : Database} {id : OrderId} {queue : List OrderId} {generated : Generated}
      {outcome : Outcome}
      (run : db.call newDecimal ⟨.processOrder id, generated⟩ = .ok (outcome, db'))
      (rest : WorksOff newDecimal db' queue db'') : WorksOff newDecimal db (id :: queue) db''

theorem mem_queued :
    id ∈ db.queued ↔ ∃ order, db.orders.find? id = some order ∧ order.status = .queued := by
  simp only [queued, List.mem_map, List.mem_filter, decide_eq_true_eq]
  constructor
  · rintro ⟨order, ⟨hOrder, hQueued⟩, rfl⟩
    exact ⟨order, Table.find?_of_mem hOrder, hQueued⟩
  · rintro ⟨order, hFound, hQueued⟩
    exact ⟨order, ⟨Table.mem_of_find? hFound, hQueued⟩, Table.key_of_find? hFound⟩

theorem nodup_queued : db.queued.Nodup := db.orders.nodup.sublist (List.filter_sublist.map _)

/-- What leaves the queue between two databases. -/
theorem mem_departures_iff
    (hStored : ∀ id, (db.orders.find? id).isSome → (db'.orders.find? id).isSome) :
    id ∈ db.departures db' ↔ id ∈ db.queued ∧ id ∉ db'.queued := by
  constructor
  · intro hLeft
    obtain ⟨hBefore, later, hLater, hStatus⟩ := mem_departures hLeft
    obtain ⟨order, hOrder, rfl⟩ := List.mem_map.mp hLeft
    have hFound : db.orders.find? order.id = some order :=
      Table.find?_of_mem (List.mem_of_mem_filter hOrder)
    refine ⟨mem_queued.mpr ⟨order, hFound, ?_⟩, fun hStill => ?_⟩
    · by_contra hNot
      exact hBefore ⟨order, hFound, hNot⟩
    · obtain ⟨same, hSame, hQueued⟩ := mem_queued.mp hStill
      rw [hLater, Option.some.injEq] at hSame
      exact hStatus (hSame ▸ hQueued)
  · rintro ⟨hBefore, hAfter⟩
    obtain ⟨order, hFound, hQueued⟩ := mem_queued.mp hBefore
    obtain ⟨later, hLater⟩ := Option.isSome_iff_exists.mp (hStored id (Option.isSome_of_mem hFound))
    have hLeft : later.status ≠ .queued := fun hEq => hAfter (mem_queued.mpr ⟨later, hLater, hEq⟩)
    obtain rfl := Table.key_of_find? hFound
    refine List.mem_map.mpr ⟨order, List.mem_filter.mpr ⟨Table.mem_of_find? hFound, ?_⟩, rfl⟩
    rw [hLater, Option.any_some, Bool.and_eq_true, decide_eq_true_eq, decide_eq_true_eq]
    exact ⟨hQueued, hLeft⟩

theorem departures_self (h : db'.orders = db.orders) : db.departures db' = [] := by
  refine List.eq_nil_iff_forall_not_mem.mpr fun id hLeft => ?_
  obtain ⟨hBefore, hAfter⟩ := (mem_departures_iff fun _ hStored => by rwa [h]).mp hLeft
  rw [mem_queued, h] at hAfter
  exact hAfter (mem_queued.mp hBefore)

/-- Processing a queued order takes it out of the queue, and no other. -/
theorem mem_queued_of_processOrder (hWell : db.WellFormed) {generated : Generated}
    {outcome : Outcome} (hQueued : id ∈ db.queued)
    (h : db.call newDecimal ⟨.processOrder id, generated⟩ = .ok (outcome, db')) (other : OrderId) :
    other ∈ db'.queued ↔ other ≠ id ∧ other ∈ db.queued := by
  obtain ⟨taker, hFound, hStatus⟩ := mem_queued.mp hQueued
  obtain rfl := Table.key_of_find? hFound
  obtain ⟨hMatched, _⟩ := matched_of_processOrder hWell hFound hStatus h
  rw [mem_queued, mem_queued, hMatched.orders]
  constructor
  · rintro ⟨later, hLater, hWaits⟩
    obtain ⟨old, hOld, rfl⟩ := Option.map_eq_some_iff.mp hLater
    obtain rfl := Table.key_of_find? hOld
    obtain ⟨hNe, hOldQueued⟩ := (Reference.queued_finalOrder hWell hFound hStatus hOld).mp hWaits
    exact ⟨hNe, old, hOld, hOldQueued⟩
  · rintro ⟨hNe, old, hOld, hOldQueued⟩
    obtain rfl := Table.key_of_find? hOld
    exact ⟨_, by rw [hOld, Option.map_some],
      (Reference.queued_finalOrder hWell hFound hStatus hOld).mpr ⟨hNe, hOldQueued⟩⟩

theorem departures_processOrder (hWell : db.WellFormed) {generated : Generated} {outcome : Outcome}
    (hQueued : id ∈ db.queued)
    (h : db.call newDecimal ⟨.processOrder id, generated⟩ = .ok (outcome, db')) :
    db.departures db' = [id] := by
  refine ((List.perm_ext_iff_of_nodup departures_nodup (List.nodup_singleton id)).mpr
    fun other => ?_).eq_singleton
  rw [mem_departures_iff (call_delivers hWell h).stored, mem_queued_of_processOrder hWell hQueued h,
    List.mem_singleton]
  constructor
  · rintro ⟨hBefore, hLeft⟩
    by_contra hNe
    exact hLeft ⟨hNe, hBefore⟩
  · rintro rfl
    exact ⟨hQueued, fun hStill => hStill.1 rfl⟩

/-- Databases with the same tables are the same. -/
theorem ext_rows (hMarket : db'.toMarket = db.toMarket)
    (hRows : db'.matchingOutbox.rows = db.matchingOutbox.rows)
    (hEvents : db'.realtimeOutbox = db.realtimeOutbox) : db' = db := by
  have hTable : db'.matchingOutbox = db.matchingOutbox := Table.ext hRows
  obtain ⟨market, outbox, intents, events⟩ := db
  obtain ⟨market', outbox', intents', events'⟩ := db'
  cases hMarket
  cases hTable
  cases hEvents
  rfl

/-- Without its intents the database keeps what it keeps. -/
theorem deleteIntents_all (hMarket : db'.toMarket = db.toMarket)
    (hEvents : db'.realtimeOutbox = db.realtimeOutbox) :
    (db'.deleteIntents fun _ => true) = db.deleteIntents fun _ => true := by
  refine ext_rows hMarket ?_ hEvents
  simp only [deleteIntents, Table.delete, Bool.not_true, List.filter_false]

theorem rows_deleteIntents_all : (db.deleteIntents fun _ => true).matchingOutbox.rows = [] := by
  simp [deleteIntents, Table.delete]

theorem deleteIntents_deleteIntents {p q : OrderMatchingOutbox → Bool} :
    (db.deleteIntents p).deleteIntents q = db.deleteIntents fun row => p row || q row := by
  refine ext_rows rfl ?_ rfl
  simp only [deleteIntents, Table.delete, List.filter_filter, Bool.not_or, Bool.and_comm]

/-- The orders that have an intent. -/
def intended (db : Database) : List OrderId :=
  db.matchingOutbox.rows.map OrderMatchingOutbox.orderId

/-- All intents are the work of the restore script. -/
def IsRestored (db : Database) : Prop :=
  ∀ row ∈ db.matchingOutbox, row.id = "recover_" ++ row.orderId

/-- Intents are added for some orders, and nothing else changes. -/
structure Regains (db : Database) (ids : List OrderId) (db' : Database) : Prop where
  market : db'.toMarket = db.toMarket
  events : db'.realtimeOutbox = db.realtimeOutbox
  restored : db'.IsRestored
  intended : ∀ id, id ∈ db'.intended ↔ id ∈ db.intended ∨ id ∈ ids

/-- When one of the orders had no intent, fewer orders of the queue have none. -/
theorem Regains.length_lt {db' : Database} {ids : List OrderId} (h : db.Regains ids db')
    {id : OrderId} (hId : id ∈ ids) (hQueued : id ∈ db.queued) (hMissing : id ∉ db.intended) :
    (db'.queued.filter (· ∉ db'.intended)).length <
      (db.queued.filter (· ∉ db.intended)).length := by
  have hOrders : db'.orders = db.orders := congrArg Market.orders h.market
  have hSame : db'.queued = db.queued := by rw [queued, hOrders]; rfl
  have hNarrow : db'.queued.filter (· ∉ db'.intended) =
      (db.queued.filter (· ∉ db.intended)).filter (· ∉ db'.intended) := by
    rw [hSame, List.filter_filter]
    refine List.filter_congr fun other _ => ?_
    rw [Bool.eq_iff_iff, Bool.and_eq_true, decide_eq_true_eq, decide_eq_true_eq, h.intended]
    exact ⟨fun hNew => ⟨hNew, fun hOld => hNew (Or.inl hOld)⟩, And.left⟩
  rw [hNarrow]
  refine List.length_filter_lt_length_iff_exists.mpr
    ⟨id, List.mem_filter.mpr ⟨hQueued, decide_eq_true hMissing⟩, ?_⟩
  rw [decide_eq_true_eq, not_not, h.intended]
  exact Or.inr hId

theorem restoreIntent_regains (hRestored : db.IsRestored) (now : Nat) (order : Order) :
    ∃ db', db.restoreIntent now order = .ok db' ∧ db.Regains [order.id] db' := by
  let row : OrderMatchingOutbox :=
    ⟨"recover_" ++ order.id, order.id, 0, none, none, none, none, now⟩
  by_cases hPresent : order.id ∈ db.intended
  · refine ⟨db, if_pos hPresent, rfl, rfl, hRestored, fun id => ?_⟩
    rw [List.mem_singleton]
    exact ⟨Or.inl, fun h => h.elim (fun hMem => hMem) fun hId => hId ▸ hPresent⟩
  · have hFresh : db.IsFreshIntent row := by
      refine ⟨Table.find?_eq_none_iff.mpr fun other hOther hId => hPresent ?_, hPresent⟩
      -- Another intent with this id would be one for the same order.
      have hSame : "recover_" ++ other.orderId = "recover_" ++ order.id :=
        (hRestored other hOther).symm.trans hId
      rw [String.append_right_inj] at hSame
      exact List.mem_map.mpr ⟨other, hOther, hSame⟩
    have hRows : (db.addIntent row).matchingOutbox.rows = db.matchingOutbox.rows ++ [row] :=
      congrArg Table.rows (matchingOutbox_addIntent hFresh)
    refine ⟨db.addIntent row, (if_neg hPresent).trans (if_pos hFresh),
      toMarket_apply_newIntent _, ?_,
      fun other hOther => ?_, fun id => ?_⟩
    · rw [addIntent, dif_pos hFresh]
    · rw [Table.mem_def, hRows, List.mem_append, List.mem_singleton] at hOther
      rcases hOther with hOld | rfl
      · exact hRestored other hOld
      · rfl
    · rw [Database.intended, hRows, List.map_append, List.mem_append]
      rfl

theorem restoreIntents_regains (hRestored : db.IsRestored) (now : Nat) (orders : List Order) :
    ∃ db', orders.foldlM (restoreIntent · now) db = .ok db' ∧
      db.Regains (orders.map Order.id) db' := by
  induction orders generalizing db with
  | nil => exact ⟨db, rfl, rfl, rfl, hRestored, fun id => by simp⟩
  | cons order orders ih =>
      obtain ⟨middle, hFirst, hRegains⟩ := restoreIntent_regains hRestored now order
      obtain ⟨last, hRest, hLast⟩ := ih hRegains.restored
      refine ⟨last, ?_, hLast.market.trans hRegains.market, hLast.events.trans hRegains.events,
        hLast.restored, fun id => ?_⟩
      · rw [List.foldlM_cons]
        exact bind_eq_ok.mpr ⟨middle, hFirst, hRest⟩
      · rw [hLast.intended, hRegains.intended, or_assoc, List.map_cons, List.mem_singleton,
          List.mem_cons]

theorem mem_pendingOrders {order : Order} (h : order ∈ db.pendingOrders []) :
    order.id ∈ db.queued ∧ order.id ∉ db.intended := by
  have hSorted := List.mem_of_mem_take h
  rw [List.mem_insertionSort] at hSorted
  obtain ⟨hOrder, hPending⟩ := List.mem_filter.mp hSorted
  simp only [Bool.and_eq_true, decide_eq_true_eq] at hPending
  exact ⟨mem_queued.mpr ⟨order, Table.find?_of_mem hOrder, hPending.1.1⟩, hPending.1.2⟩

/-- The script finds an order as long as there is one. -/
theorem exists_mem_pendingOrders (hQueued : id ∈ db.queued) (hMissing : id ∉ db.intended) :
    ∃ order, order ∈ db.pendingOrders [] := by
  obtain ⟨order, hFound, hStatus⟩ := mem_queued.mp hQueued
  obtain rfl := Table.key_of_find? hFound
  refine List.exists_mem_of_ne_nil _ fun hNil => ?_
  rw [pendingOrders, List.take_eq_nil_iff] at hNil
  have hNone := hNil.resolve_left (by decide)
  have hMem : order ∈ db.orders.rows.filter fun order => order.status = .queued &&
      order.id ∉ db.matchingOutbox.rows.map OrderMatchingOutbox.orderId && order.id ∉ [] := by
    refine List.mem_filter.mpr ⟨Table.mem_of_find? hFound, ?_⟩
    simp only [Bool.and_eq_true, decide_eq_true_eq]
    exact ⟨⟨hStatus, hMissing⟩, List.not_mem_nil⟩
  rw [← List.mem_insertionSort (·.sequence ≤ ·.sequence), hNone] at hMem
  cases hMem

/-- When a claim is dispatched to the end, the rows that it selected are gone. -/
theorem deleteIntents_claimIntents (now : Nat) (claimToken : String) (skipped : List String) :
    ((db.claimIntents now claimToken skipped).deleteIntents fun row =>
      (db.claimedRows now claimToken skipped).any fun claimed =>
        row.isHeld claimed.id claimed.claimToken) =
      db.deleteIntents fun row => row.id ∈ db.claimableIntents now skipped := by
  have hHeld : ∀ row ∈ db.matchingOutbox.rows,
      (db.claimedRows now claimToken skipped).any (fun claimed =>
        (if row.id ∈ db.claimableIntents now skipped then row.claimed now claimToken else
          row).isHeld claimed.id claimed.claimToken) =
        decide (row.id ∈ db.claimableIntents now skipped) := by
    intro row hRow
    rw [Bool.eq_iff_iff, List.any_eq_true, decide_eq_true_eq]
    constructor
    · rintro ⟨claimed, hClaimed, hHeld⟩
      obtain ⟨other, hOther, rfl⟩ := List.mem_map.mp hClaimed
      have hSelected := of_decide_eq_true (List.mem_filter.mp hOther).2
      have hId := (OrderMatchingOutbox.isHeld_iff.mp hHeld).1
      split_ifs at hId
      · assumption
      · exact hId ▸ hSelected
    · intro hSelected
      refine ⟨⟨row.id, row.orderId, claimToken⟩,
        List.mem_map_of_mem (List.mem_filter.mpr ⟨hRow, decide_eq_true hSelected⟩), ?_⟩
      rw [if_pos hSelected]
      exact OrderMatchingOutbox.isHeld_iff.mpr ⟨rfl, rfl⟩
  refine ext_rows rfl ?_ rfl
  simp only [deleteIntents, Table.delete, claimIntents, updateIntents, Table.update,
    List.filter_map, decide_eq_true_eq, Function.comp_def]
  rw [List.filter_congr fun row hRow => congrArg not (hHeld row hRow)]
  refine (List.map_congr_left fun row hRow => if_neg ?_).trans (List.map_id _)
  simpa using (List.mem_filter.mp hRow).2

/-- Unless the outbox is empty, a claim at the right time selects a row. -/
theorem exists_claimable {now : Nat}
    (hClaimable : ∀ row ∈ db.matchingOutbox, row.isClaimable now = true)
    (hSome : db.matchingOutbox.rows ≠ []) :
    ∃ row ∈ db.matchingOutbox.rows, row.id ∈ db.claimableIntents now [] := by
  have hAll : (db.matchingOutbox.rows.filter fun row => row.isClaimable now && row.id ∉ []) =
      db.matchingOutbox.rows := by
    refine List.filter_eq_self.mpr fun row hRow => ?_
    rw [hClaimable row hRow, Bool.true_and]
    exact decide_eq_true List.not_mem_nil
  have hSorted : (db.matchingOutbox.rows.insertionSort (·.createdAt ≤ ·.createdAt)).take
      orderMatchingOutboxBatchSize ≠ [] := by
    rw [ne_eq, List.take_eq_nil_iff, not_or]
    refine ⟨by decide, fun hNil => hSome ?_⟩
    have hPerm := List.perm_insertionSort (·.createdAt ≤ ·.createdAt) db.matchingOutbox.rows
    rw [hNil] at hPerm
    exact hPerm.symm.eq_nil
  obtain ⟨row, hRow⟩ := List.exists_mem_of_ne_nil _ hSorted
  refine ⟨row, (List.mem_insertionSort _).mp (List.mem_of_mem_take hRow), ?_⟩
  rw [claimableIntents, hAll]
  exact List.mem_map_of_mem hRow

end Database

namespace MatchingQueue

variable {queue : MatchingQueue} {id : OrderId}

/-- A job for the order is retained. -/
def Retains (queue : MatchingQueue) (id : OrderId) : Prop := (queue.jobs.find? id).isSome

theorem jobId_of_find? {job : RetainedJob} (h : queue.jobs.find? id = some job) :
    job.jobId = id := by
  have hKey := Table.key_of_find? h
  exact hKey

theorem retains_modify {jobId : String} {f : RetainedJob → RetainedJob}
    (hKey : ∀ job, (f job).jobId = job.jobId) :
    ((queue.jobs.modify jobId f hKey).find? id).isSome ↔ queue.Retains id := by
  rw [Table.find?_modify]
  split_ifs with hId
  · rw [Option.isSome_map, hId]
    rfl
  · rfl

/-- A retry is forgotten once the job has completed. -/
theorem complete_retry {jobId : String} :
    (queue.retry jobId).complete jobId = queue.complete jobId := by
  simp only [complete, endJob, retry, Table.modify_modify]
  rfl

theorem retains_complete {jobId : String} : (queue.complete jobId).Retains id ↔ queue.Retains id :=
  retains_modify (f := fun job => { job with ended := true }) fun _ => rfl

/-- What is sent to the queue is retained, if it was not before. -/
theorem retains_acknowledge_add {added : Job} :
    ((queue.add added).acknowledge added.jobId).Retains id ↔ id = added.jobId ∨
    queue.Retains id := by
  refine (retains_modify (f := fun job => { job with acknowledged := true }) fun _ => rfl).trans ?_
  unfold add Retains
  split_ifs with hNew
  · rw [Table.find?_insert]
    split_ifs with hId
    · simp [hId]
    · simp [hId]
  · refine ⟨Or.inr, fun h => h.elim (fun hId => ?_) fun hOld => hOld⟩
    rw [hId]
    exact Option.isSome_iff_ne_none.mpr hNew

end MatchingQueue

namespace World

variable {Index : Type} {newDecimal : String → Option DecimalValue} {world world' : World Index}
  {index : Index}

/-- What an operator does: the restore script is run, and skips no order, or a job
that has failed is retried. -/
inductive Operates : World Index → World Index → Prop where
  | restore {world : World Index} {db' : Database} (now : Nat)
      (run : world.db.restoreMatchingIntents now [] = .ok db') :
      Operates world { world with db := db' }
  | retry {world : World Index} (job : RetainedJob)
      (failed : job.ended = true ∧ job.jobId ∉ world.queue.completed) :
      Operates world { world with queue := world.queue.retry job.jobId }

/-- As long as an order of the queue has no intent, the script gives intents to
some that have none. -/
theorem exists_restored (world : World Index) (hRestored : world.db.IsRestored) :
    ∃ db', (services newDecimal).Repairs Operates index world { world with db := db' } ∧
      db'.toMarket = world.db.toMarket ∧ db'.realtimeOutbox = world.db.realtimeOutbox ∧
      ∀ id ∈ db'.queued, id ∈ db'.intended := by
  generalize hCount : (world.db.queued.filter (· ∉ world.db.intended)).length = count
  induction count using Nat.strong_induction_on generalizing world with
  | _ count ih =>
    by_cases hDone : ∀ id ∈ world.db.queued, id ∈ world.db.intended
    · exact ⟨world.db, .refl, rfl, rfl, hDone⟩
    push Not at hDone
    obtain ⟨id, hQueued, hMissing⟩ := hDone
    obtain ⟨order, hOrder⟩ := Database.exists_mem_pendingOrders hQueued hMissing
    obtain ⟨db', hRun, hRegains⟩ := Database.restoreIntents_regains hRestored 0
      (world.db.pendingOrders [])
    have hOrders : db'.orders = world.db.orders := congrArg Market.orders hRegains.market
    have hTurn : (services newDecimal).Turn Operates index world { world with db := db' } := by
      refine .outside ?_ (.restore 0 hRun)
      have hCommit : world.commit db' = { world with db := db' } := by
        rw [commit, Database.departures_self hOrders, List.append_nil]
      exact hCommit ▸ Outside.restore 0 [] hRun
    have hFewer : (db'.queued.filter (· ∉ db'.intended)).length < count := by
      obtain ⟨hPending, hLacking⟩ := Database.mem_pendingOrders hOrder
      rw [← hCount]
      exact hRegains.length_lt (List.mem_map_of_mem hOrder) hPending hLacking
    obtain ⟨last, hRepairs, hMarket, hEvents, hIntended⟩ := ih _ hFewer { world with db := db' }
      hRegains.restored rfl
    exact ⟨last, hRepairs.head hTurn, hMarket.trans hRegains.market, hEvents.trans hRegains.events,
      hIntended⟩

/-- All intents were dispatched: their orders have jobs, and the rest is as
before. -/
structure Drained (world world' : World Index) : Prop where
  db : world'.db = world.db.deleteIntents fun _ => true
  departures : world'.departures = world.departures
  completed : world'.queue.completed = world.queue.completed
  retained : ∀ id, id ∈ world.db.intended ∨ world.queue.Retains id → world'.queue.Retains id

open OrderMatchingOutboxDispatcher

theorem succeeds_dispatchRow (world : World Index) (row : ClaimedOrderMatchingOutboxRow) :
    (services newDecimal).Succeeds index (dispatchRow row) world false
      { world with
        db := world.db.removeClaimedRow row.id row.claimToken
        queue :=
          (world.queue.add (OrderMatchingQueueService.processOrderJob row.orderId)).acknowledge
          row.orderId } := by
  have hEnqueued : (services newDecimal).Succeeds index
      (OrderMatchingQueueService.enqueueProcessOrder row.orderId) world () _ := .perform rfl
  have hRemoved : ∀ queued : World Index, (services newDecimal).Succeeds index
      (.perform (.removeClaimedRow row.id row.claimToken) : Task Unit) queued ()
      { queued with db := queued.db.removeClaimedRow row.id row.claimToken } :=
        fun _ => .perform rfl
  exact .bind (.attempt (hEnqueued.bind (hRemoved _))) .pure

theorem succeeds_dispatchRows (world : World Index) (rows : List ClaimedOrderMatchingOutboxRow) :
    ∃ queue, (services newDecimal).Succeeds index (dispatchRows rows false) world false
      { world with
        db := world.db.deleteIntents fun row => rows.any fun claimed =>
          row.isHeld claimed.id claimed.claimToken
        queue := queue } ∧
      queue.completed = world.queue.completed ∧
      ∀ id, id ∈ rows.map (·.orderId) ∨ world.queue.Retains id → queue.Retains id := by
  induction rows generalizing world with
  | nil =>
      refine ⟨world.queue, ?_, rfl, fun id hRetains => hRetains.resolve_left List.not_mem_nil⟩
      have hNothing :
          (world.db.deleteIntents fun row => [].any fun claimed : ClaimedOrderMatchingOutboxRow =>
          row.isHeld claimed.id claimed.claimToken) = world.db := by
        refine Database.ext_rows rfl ?_ rfl
        simp [Database.deleteIntents, Table.delete]
      rw [hNothing]
      exact .pure
  | cons row rows ih =>
      obtain ⟨queue, hRest, hCompleted, hRetained⟩ := ih _
      refine ⟨queue, ?_, ?_, fun id hRetains => hRetained id ?_⟩
      · have hAll := Services.Succeeds.bind (succeeds_dispatchRow world row) hRest
        rw [Database.removeClaimedRow, Database.deleteIntents_deleteIntents] at hAll
        exact hAll
      · rw [hCompleted]
        exact MatchingQueue.completed_add
      · rw [List.map_cons, List.mem_cons] at hRetains
        rcases hRetains with (hFirst | hRest) | hOld
        · exact Or.inr (MatchingQueue.retains_acknowledge_add.mpr (Or.inl hFirst))
        · exact Or.inl hRest
        · exact Or.inr (MatchingQueue.retains_acknowledge_add.mpr (Or.inr hOld))

/-- At a time when no lease and no pause hinders a claim, a dispatcher with
enough turns drains the outbox. -/
theorem succeeds_dispatchLoop {now : Nat} {turns : Nat} (world : World Index)
    (hClaimable : ∀ row ∈ world.db.matchingOutbox, row.isClaimable now = true)
    (hTurns : world.db.matchingOutbox.rows.length < turns) :
    ∃ world', (services newDecimal).Succeeds index (dispatchLoop turns) world () world' ∧
      world.Drained world' := by
  induction turns generalizing world with
  | zero => exact absurd hTurns (Nat.not_lt_zero _)
  | succ turns ih =>
      obtain ⟨claimToken, hFresh⟩ := (world.claims.map Prod.fst).toFinset.exists_notMem
      rw [List.mem_toFinset] at hFresh
      let claimed : World Index := { world with
        db := world.db.claimIntents now claimToken []
        claims := (claimToken, index) :: world.claims }
      have hClaim : (services newDecimal).Succeeds index (.perform .claimNextBatch : Task _) world
          (world.db.claimedRows now claimToken []) claimed :=
        .perform ⟨now, claimToken, [], hFresh, .refl _, rfl⟩
      obtain ⟨queue, hRows, hCompleted, hRetained⟩ :=
        @succeeds_dispatchRows Index newDecimal index claimed
        (world.db.claimedRows now claimToken [])
      rw [Database.deleteIntents_claimIntents] at hRows
      by_cases hEmpty : world.db.matchingOutbox.rows = []
      · have hNothing : world.db.claimedRows now claimToken [] = [] := by
          rw [Database.claimedRows, hEmpty, List.filter_nil, List.map_nil]
        refine ⟨claimed, .bind hClaim ?_,
          ⟨Database.ext_rows rfl ?_ rfl, rfl, rfl, fun id hRetains => ?_⟩⟩
        · rw [hNothing, List.length_nil, if_pos rfl]
          exact .pure
        · simp [claimed, Database.claimIntents, Database.updateIntents, Table.update,
            Database.deleteIntents, Table.delete, hEmpty]
        · refine hRetains.resolve_left ?_
          rw [Database.intended, hEmpty]
          exact List.not_mem_nil
      · obtain ⟨row, hRow, hSelected⟩ := Database.exists_claimable hClaimable hEmpty
        have hSome : (world.db.claimedRows now claimToken []).length ≠ 0 := by
          refine List.length_eq_zero_iff.not.mpr (List.ne_nil_of_mem (List.mem_map_of_mem
            (List.mem_filter.mpr ⟨hRow, decide_eq_true hSelected⟩)))
        obtain ⟨last, hRest, hDrained⟩ := ih { claimed with
            db := world.db.deleteIntents fun row => row.id ∈ world.db.claimableIntents now []
            queue := queue }
          (fun other hOther => hClaimable other (Database.mem_deleteIntents.mp hOther).1)
          ((List.length_filter_lt_length_iff_exists.mpr
            ⟨row, hRow, by simpa using hSelected⟩).trans_le (Nat.le_of_lt_succ hTurns))
        refine ⟨last, .bind hClaim ?_, ⟨hDrained.db.trans ?_, hDrained.departures,
          hDrained.completed.trans hCompleted, fun id hRetains => hDrained.retained id ?_⟩⟩
        · rw [if_neg hSome]
          exact hRows.bind hRest
        · exact Database.deleteIntents_all rfl rfl
        · rcases hRetains with hIntended | hOld
          · obtain ⟨other, hOther, rfl⟩ := List.mem_map.mp hIntended
            by_cases hClaimed : other.id ∈ world.db.claimableIntents now []
            · refine Or.inr (hRetained _ (Or.inl ?_))
              rw [Database.claimedRows, List.map_map]
              exact List.mem_map_of_mem (List.mem_filter.mpr ⟨hOther, decide_eq_true hClaimed⟩)
            · exact Or.inl (List.mem_map_of_mem (Database.mem_deleteIntents.mpr
                ⟨hOther, decide_eq_false hClaimed⟩))
          · exact Or.inr (hRetained id (Or.inr hOld))

/-- A dispatcher is started when all leases and pauses are over. -/
theorem exists_drained (world : World Index) :
    ∃ world', (services newDecimal).Repairs Operates index world world' ∧ world.Drained world' := by
  obtain ⟨now, hClaimable⟩ := OrderMatchingOutbox.exists_claimable world.db.matchingOutbox.rows
  obtain ⟨world', hDone, hDrained⟩ := succeeds_dispatchLoop world hClaimable (Nat.lt_succ_self _)
  exact ⟨world', .single (.complete (.dispatcher _) hDone), hDrained⟩

/-- The delivery is sound, and no transaction fails for want of space. -/
structure Healthy (world : World Index) : Prop where
  sound : world.Sound
  solvent : world.db.Solvent

open OrderMatchingProcessor in
/-- A worker takes the job of a queued order that has not ended. -/
theorem exists_turn (h : world.Healthy) {id : OrderId} (hQueued : id ∈ world.db.queued)
    {job : RetainedJob} (hJob : world.queue.jobs.find? id = some job) (hWaits : job.ended = false) :
    ∃ (generated : Generated) (outcome : Outcome) (db' : Database),
      world.db.call newDecimal ⟨.processOrder id, generated⟩ = .ok (outcome, db') ∧
      (services newDecimal).Turn Operates index world
        { world.commit db' with queue := world.queue.complete id } := by
  obtain ⟨order, hFound, hStatus⟩ := Database.mem_queued.mp hQueued
  obtain rfl := Table.key_of_find? hFound
  have hRetained := Table.mem_of_find? hJob
  have hId := MatchingQueue.jobId_of_find? hJob
  have hFor : job.orderId = order.id := (h.sound.jobs job hRetained).1.symm.trans hId
  let generated : Generated := ⟨"", 0, "", 0⟩
  obtain ⟨db', hRun⟩ := @Database.call_processOrder_commits newDecimal _ h.sound.wellFormed
    h.solvent _ (Table.mem_of_find? hFound) hStatus generated
  refine ⟨generated, _, db', hRun, .complete (.worker job 0 hRetained hWaits) ?_⟩
  rw [← hFor] at hRun
  have hMatched : (services newDecimal).Succeeds index
      (.perform (.transaction (.processOrder job.orderId)) : Task Outcome) world _
        (world.commit db') :=
    .perform ⟨generated, db', hRun, rfl⟩
  have hProcessed : (services newDecimal).Succeeds index (process job.toJob 0) world () _ :=
    .bind (.attempt hMatched) .pure
  refine .bind hProcessed (.perform ?_)
  rw [← hId]
  rfl

/-- The job of a queued order is retried if it has ended, and then taken by a worker:
the order is queued, so the job has not completed. -/
theorem exists_processed (h : world.Healthy) {id : OrderId} (hQueued : id ∈ world.db.queued)
    (hRetains : world.queue.Retains id) :
    ∃ (generated : Generated) (outcome : Outcome) (db' : Database),
      world.db.call newDecimal ⟨.processOrder id, generated⟩ = .ok (outcome, db') ∧
      (services newDecimal).Repairs Operates index world
        { world.commit db' with queue := world.queue.complete id } := by
  obtain ⟨job, hJob⟩ := Option.isSome_iff_exists.mp hRetains
  cases hEnded : job.ended with
  | false =>
      obtain ⟨generated, outcome, db', hRun, hTurn⟩ := exists_turn h hQueued hJob hEnded
      exact ⟨generated, outcome, db', hRun, .single hTurn⟩
  | true =>
      have hRetained := Table.mem_of_find? hJob
      obtain rfl := MatchingQueue.jobId_of_find? hJob
      have hFailed : job.jobId ∉ world.queue.completed := fun hCompleted => by
        obtain ⟨order, hFound, hLeft⟩ := h.sound.completed _ hCompleted
        obtain ⟨same, hSame, hStatus⟩ := Database.mem_queued.mp hQueued
        rw [hFound, Option.some.injEq] at hSame
        exact hLeft (hSame ▸ hStatus)
      have hHappens : (services newDecimal).outside world
          { world with queue := world.queue.retry job.jobId } := Outside.retry job hRetained hEnded
      have hRetry : (services newDecimal).Turn Operates index world _ :=
        .outside hHappens (.retry job ⟨hEnded, hFailed⟩)
      have hHealthy : Healthy { world with queue := world.queue.retry job.jobId } :=
        ⟨((delivery newDecimal).outside h.sound hHappens).1, h.solvent⟩
      have hAgain : (world.queue.retry job.jobId).jobs.find? job.jobId =
          some { job with ended := false } := by
        rw [MatchingQueue.retry, Table.find?_modify_self, hJob, Option.map_some]
      obtain ⟨generated, outcome, db', hRun, hTurn⟩ := exists_turn hHealthy hQueued hAgain rfl
      rw [MatchingQueue.complete_retry] at hTurn
      exact ⟨generated, outcome, db', hRun, .tail (.single hRetry) hTurn⟩

variable [DecidableEq Index]

theorem Healthy.of_repairs (h : world.Healthy)
    (hRepairs : (services newDecimal).Repairs Operates index world world') : world'.Healthy := by
  have hRun := @Services.Repairs.reaches _ _ _ _ _ _ (.start world) index _ _ hRepairs
  have hHolds : (delivery newDecimal).Holds (.start world) := Discipline.holds_start h.sound
  refine ⟨(hHolds.of_reaches (fun _ _ _ hSound hSpawns => safe_spawned hSound hSpawns) hRun).sound,
    ?_⟩
  exact ((evolves_of_reaches h.sound.wellFormed hRun).induction h.sound.wellFormed h.solvent
    fun _ _ hWell hEvent hSolvent => hSolvent.of_event hWell hEvent).2

/-- Workers take the jobs of queued orders in any order. -/
theorem exists_worked_off {queue : List OrderId} (h : world.Healthy) (hDistinct : queue.Nodup)
    (hQueue : ∀ id ∈ queue, id ∈ world.db.queued ∧ world.queue.Retains id) :
    ∃ world', (services newDecimal).Repairs Operates index world world' ∧
      world.db.WorksOff newDecimal queue world'.db ∧
      (∀ id, id ∈ world'.db.queued ↔ id ∈ world.db.queued ∧ id ∉ queue) ∧
      world'.db.matchingOutbox = world.db.matchingOutbox ∧
      world'.departures = world.departures ++ queue ∧
      world'.queue.completed = queue.reverse ++ world.queue.completed := by
  induction queue generalizing world with
  | nil => exact ⟨world, .refl, .nil, fun id => by simp, rfl, by rw [List.append_nil], rfl⟩
  | cons id queue ih =>
      obtain ⟨hNew, hRest⟩ := List.nodup_cons.mp hDistinct
      rw [List.forall_mem_cons] at hQueue
      obtain ⟨⟨hQueued, hRetains⟩, hOthers⟩ := hQueue
      have hWell := h.sound.wellFormed
      obtain ⟨generated, outcome, db', hRun, hTurns⟩ :=
        @exists_processed Index newDecimal _ index h id hQueued hRetains
      obtain ⟨taker, hFound, hStatus⟩ := Database.mem_queued.mp hQueued
      obtain rfl := Table.key_of_find? hFound
      obtain ⟨_, hIntents⟩ := Database.matched_of_processOrder hWell hFound hStatus hRun
      have hLeaves := Database.mem_queued_of_processOrder hWell hQueued hRun
      obtain ⟨last, hRepairs, hWorked, hLeft, hOutbox, hDepartures, hCompleted⟩ :=
        ih (h.of_repairs hTurns) hRest fun other hOther =>
          ⟨(hLeaves other).mpr ⟨fun hEq => hNew (hEq ▸ hOther), (hOthers other hOther).1⟩,
            MatchingQueue.retains_complete.mpr (hOthers other hOther).2⟩
      refine ⟨last, hTurns.trans hRepairs, .cons hRun hWorked, fun other => ?_,
        hOutbox.trans hIntents, hDepartures.trans ?_, hCompleted.trans ?_⟩
      · refine (hLeft other).trans (((hLeaves other).and Iff.rfl).trans ?_)
        rw [List.mem_cons, not_or]
        tauto
      · rw [commit, Database.departures_processOrder hWell hQueued hRun, List.append_assoc]
        rfl
      · rw [List.reverse_cons, List.append_assoc]
        rfl

/-- No state of the delivery is beyond repair. Whatever has been lost and
wherever processes hang, there is a way to let every queued order be matched, in
any order, as if nothing had happened: one process works without failures, and an
operator runs the restore script and retries failed jobs. The outbox is drained,
no order is rejected, and each leaves the queue once. -/
theorem recoverable {start : Database} {cluster : Cluster Command Thrown (World Index) Index}
    (hOpening : start.Opening) (hTotal : ∀ asset, start.wallets.sum (·.total asset) ≤ decimalMax)
    (hEmpty : start.matchingOutbox = .empty)
    (hRun : (services newDecimal).Reaches (.start (World.start start)) cluster) (index : Index)
    {queue : List OrderId} (hQueue : queue.Perm cluster.world.db.queued) :
    ∃ world', (services newDecimal).Repairs Operates index cluster.world world' ∧
      (services newDecimal).Reaches cluster { cluster.put index none with world := world' } ∧
      (cluster.world.db.deleteIntents fun _ => true).WorksOff newDecimal queue world'.db ∧
      world'.db.matchingOutbox.rows = [] ∧ world'.db.queued = [] ∧
      world'.departures = cluster.world.departures ++ queue ∧
      world'.queue.completed = queue.reverse ++ cluster.world.queue.completed := by
  have hHealthy : cluster.world.Healthy := by
    refine ⟨(holds_of_reaches hOpening hEmpty hRun).sound, ?_⟩
    exact ((evolves_of_reaches hOpening.wellFormed hRun).induction hOpening.wellFormed
      (hOpening.solvent hTotal) fun _ _ hWell hEvent hSolvent => hSolvent.of_event hWell hEvent).2
  -- What is left in the outbox is dispatched, and then all intents are restored.
  obtain ⟨first, hFirst, hDrained⟩ := @exists_drained Index newDecimal index cluster.world
  have hNone : first.db.matchingOutbox.rows = [] := by
    rw [hDrained.db, Database.rows_deleteIntents_all]
  obtain ⟨supplied, hSupplied, hMarket, hEvents, hIntended⟩ :=
    @exists_restored Index newDecimal index
    first fun row hRow => by
      rw [Table.mem_def, hNone] at hRow
      cases hRow
  obtain ⟨second, hSecond, hAgain⟩ :=
    @exists_drained Index newDecimal index { first with db := supplied }
  have hRepaired := (hFirst.trans hSupplied).trans hSecond
  have hDb : second.db = cluster.world.db.deleteIntents fun _ => true := by
    rw [hAgain.db]
    refine Database.deleteIntents_all (hMarket.trans ?_) (hEvents.trans ?_)
    · rw [hDrained.db]
      rfl
    · rw [hDrained.db]
      rfl
  have hWaiting : second.db.queued = cluster.world.db.queued := by
    rw [hDb]
    rfl
  have hSame : supplied.queued = cluster.world.db.queued := by
    rw [← hWaiting, hAgain.db]
    rfl
  obtain ⟨world', hLast, hWorked, hLeft, hOutbox, hDepartures, hCompleted⟩ :=
    @exists_worked_off Index newDecimal second index _ queue (hHealthy.of_repairs hRepaired)
      (hQueue.nodup_iff.mpr Database.nodup_queued) fun id hId => by
        rw [hWaiting]
        exact ⟨hQueue.mem_iff.mp hId,
          hAgain.retained id (Or.inl (hIntended id (hSame ▸ hQueue.mem_iff.mp hId)))⟩
  have hAll := hRepaired.trans hLast
  refine ⟨world', hAll, Services.Repairs.reaches hAll, hDb ▸ hWorked, ?_, ?_, ?_, ?_⟩
  · rw [hOutbox, hDb, Database.rows_deleteIntents_all]
  · refine List.eq_nil_iff_forall_not_mem.mpr fun id hId => ?_
    obtain ⟨hWaits, hNot⟩ := (hLeft id).mp hId
    exact hNot (hQueue.mem_iff.mpr (hWaiting ▸ hWaits))
  · rw [hDepartures, hAgain.departures, hDrained.departures]
  · rw [hCompleted, hAgain.completed, hDrained.completed]

end World

namespace Sample

/-- The job of the dispatched order has failed for good, and was forgotten. -/
def lost : World Bool :=
  { dispatched with queue := (dispatched.queue.endJob "sell").forget "sell" }

theorem reaches_lost : ∃ cluster, (World.services newDecimal).Reaches
    (.start (World.start start : World Bool)) cluster ∧ cluster.world = lost := by
  obtain ⟨_, hCreate⟩ := @call_after start
    ⟨.createOrder "seller" .sell "1" "5", ⟨"sell", 1, "intent 1", 10⟩⟩ (by decide +kernel)
  have hCreated : (World.services newDecimal).Reaches (.start (World.start start : World Bool))
      ⟨waiting, fun _ => none⟩ :=
    Services.Reaches.outside .refl (World.Outside.createOrder "seller" .sell "1" "5" _ hCreate)
  obtain ⟨_, hDispatcher⟩ := runs_dispatcher
  have hDispatched := hCreated.spawn rfl (World.Spawns.dispatcher 1) hDispatcher
  have hGivenUp := hDispatched.outside (World.Outside.giveUp "sell")
  have hEnded : ⟨OrderMatchingQueueService.processOrderJob "sell", true, true⟩ ∈
      (dispatched.queue.endJob "sell").jobs.rows := by decide +kernel
  exact ⟨_, hGivenUp.outside (World.Outside.forget _ hEnded (Or.inl rfl)), rfl⟩

end Sample

namespace World

/-- An order without intent and without job is matched after all. -/
theorem recoverable_sample :
    ∃ (cluster : Cluster Command Thrown (World Bool) Bool) (world' : World Bool),
    (services Sample.newDecimal).Reaches (.start (World.start Sample.start)) cluster ∧
    cluster.world.db.queued = ["sell"] ∧ cluster.world.db.matchingOutbox.rows = [] ∧
    cluster.world.queue.jobs.rows = [] ∧
    (services Sample.newDecimal).Reaches cluster { cluster.put true none with world := world' } ∧
    world'.db.queued = [] ∧ world'.departures = ["sell"] := by
  obtain ⟨cluster, hRun, hWorld⟩ := Sample.reaches_lost
  have hQueued : Sample.lost.db.queued = ["sell"] := by decide +kernel
  obtain ⟨world', _, hReaches, _, _, hNone, hDepartures, _⟩ := recoverable
    Sample.opening Sample.total_le rfl hRun true (.of_eq (hWorld ▸ hQueued.symm))
  refine ⟨cluster, world', hRun, ?_, ?_, ?_, hReaches, hNone, hDepartures.trans ?_⟩
  · rw [hWorld, hQueued]
  · rw [hWorld]
    decide +kernel
  · rw [hWorld]
    decide +kernel
  · rw [hWorld]
    decide +kernel

end World
end ExchangeMatching
