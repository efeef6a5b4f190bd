import ExchangeMatching.Lifecycle
import ExchangeMatching.OrderMatching
import ExchangeMatching.Uncrossed

/-! Matching intents and the orders they are for. A transaction stores the
intent of a new order together with it, adds intents only for stored orders,
and never puts an order back into the queue. -/
namespace ExchangeMatching

open Transactions Processes

namespace Database

variable {newDecimal : String → Option DecimalValue} {db db' db'' : Database} {id : OrderId}

/-- The order is stored and has left the queue. -/
def Settled (db : Database) (id : OrderId) : Prop :=
  ∃ order, db.orders.find? id = some order ∧ order.status ≠ .queued

/-- What matters of a transaction to the delivery of intents. -/
structure Delivers (db db' : Database) : Prop where
  wellFormed : db'.WellFormed
  stored : ∀ id, (db.orders.find? id).isSome → (db'.orders.find? id).isSome
  settled : ∀ id, db.Settled id → db'.Settled id
  kept : ∀ row ∈ db.matchingOutbox, row ∈ db'.matchingOutbox
  intents : ∀ row ∈ db'.matchingOutbox, row ∈ db.matchingOutbox ∨
    row.claimToken = none ∧ (db'.orders.find? row.orderId).isSome
  created : ∀ id, db.orders.find? id = none → (db'.orders.find? id).isSome →
    ∃ row ∈ db'.matchingOutbox, row.orderId = id

namespace Delivers

/-- Doing nothing delivers. -/
theorem refl (hWell : db.WellFormed) : db.Delivers db :=
  ⟨hWell, fun _ => id, fun _ => id, fun _ => id, fun _ => Or.inl, fun id hNone hSome => by
    rw [hNone] at hSome
    cases hSome⟩

/-- And deliveries compose, so runs are covered step by step. -/
theorem trans (h : db.Delivers db') (h' : db'.Delivers db'') : db.Delivers db'' where
  wellFormed := h'.wellFormed
  stored id hStored := h'.stored id (h.stored id hStored)
  settled id hSettled := h'.settled id (h.settled id hSettled)
  kept row hRow := h'.kept row (h.kept row hRow)
  intents row hRow := by
    rcases h'.intents row hRow with hOld | hNew
    · exact (h.intents row hOld).imp id fun ⟨hToken, hStored⟩ => ⟨hToken, h'.stored _ hStored⟩
    · exact Or.inr hNew
  created id hNone hSome := by
    cases hMiddle : db'.orders.find? id with
    | none => exact h'.created id hMiddle hSome
    | some order =>
        obtain ⟨row, hRow, hOrder⟩ := h.created id hNone (Option.isSome_of_mem hMiddle)
        exact ⟨row, h'.kept row hRow, hOrder⟩

end Delivers

/-- No call drops an intent: it is settled by the call, or its row is still there. -/
theorem call_delivers (hWell : db.WellFormed) {invocation : Invocation} {outcome : Outcome}
    (h : db.call newDecimal invocation = .ok (outcome, db')) : db.Delivers db' := by
  have hEvolves := call_evolves hWell h
  have hEffect := call_effect hWell h
  refine ⟨(hEvolves.induction hWell trivial fun _ _ _ _ _ => trivial).1, ?_, ?_, ?_, ?_, ?_⟩
  · intro id hStored
    obtain ⟨order, hFound⟩ := Option.isSome_iff_exists.mp hStored
    obtain ⟨later, hLater, _⟩ := hEvolves.leads hFound
    exact Option.isSome_of_mem hLater
  · rintro id ⟨order, hFound, hStatus⟩
    obtain ⟨later, hLater, hLeads⟩ := hEvolves.leads hFound
    exact ⟨later, hLater, hLeads.becomes.queue hStatus⟩
  · intro row hRow
    cases hEffect with
    | created order hId fresh queued orders intents notMatching =>
        rw [Table.mem_def, intents]
        exact List.mem_append_left _ hRow
    | closed order status found active inactive orders intents notMatching => rwa [intents]
    | skipped id call notQueued same => rwa [same]
    | matched taker call found queued matched intents => rwa [intents]
  · intro row hRow
    cases hEffect with
    | created order hId fresh queued orders intents notMatching =>
        rw [Table.mem_def, intents] at hRow
        rcases List.mem_append.mp hRow with hOld | hNew
        · exact Or.inl hOld
        · rw [List.mem_singleton.mp hNew]
          exact Or.inr ⟨rfl, by rw [orders, if_pos rfl]; rfl⟩
    | closed order status found active inactive orders intents notMatching =>
        exact Or.inl (intents ▸ hRow)
    | skipped id call notQueued same => exact Or.inl (same ▸ hRow)
    | matched taker call found queued matched intents => exact Or.inl (intents ▸ hRow)
  · intro id hNone hSome
    cases hEffect with
    | created order hId fresh queued orders intents notMatching =>
        rw [orders] at hSome
        split_ifs at hSome with hOrder
        · refine ⟨⟨invocation.generated.outboxId, order.id, 0, none, none, none, none,
            invocation.generated.now⟩, ?_, hOrder.symm⟩
          rw [Table.mem_def, intents]
          exact List.mem_append_right _ (List.mem_singleton.mpr rfl)
        · rw [hNone] at hSome
          cases hSome
    | closed order status found active inactive orders intents notMatching =>
        rw [orders] at hSome
        split_ifs at hSome with hOrder
        · rw [hOrder, found] at hNone
          cases hNone
        · rw [hNone] at hSome
          cases hSome
    | skipped skippedId call notQueued same =>
        rw [same, hNone] at hSome
        cases hSome
    | matched taker call found queued matched intents =>
        rw [matched.orders, hNone] at hSome
        cases hSome

/-- Once a call to process an order has committed, that order is settled, whatever
the call answered. -/
theorem processed_settled (hWell : db.WellFormed) {generated : Generated} {outcome : Outcome}
    (h : db.call newDecimal ⟨.processOrder id, generated⟩ = .ok (outcome, db')) : db'.Settled id :=
  (call_effect hWell h).processed_not_queued rfl

/-- A stored order is not queued any more once its rejection has committed. -/
theorem rejected_settled (hWell : db.WellFormed) (hStored : (db.orders.find? id).isSome)
    {generated : Generated} {outcome : Outcome}
    (h : db.call newDecimal ⟨.rejectOrderAfterFailedProcessing id, generated⟩ =
      .ok (outcome, db')) :
    db'.Settled id := by
  obtain ⟨order, hFound⟩ := Option.isSome_iff_exists.mp hStored
  obtain ⟨stored, _, hReject, hPair⟩ := Engine.run_bind_eq_ok.mp h
  cases hPair
  rcases (MatchingService.run_rejectOrder_eq_ok hWell).mp hReject with
    ⟨hStatus, hOut⟩ | ⟨row, wallet, hRow, _, _, _, hOut⟩
  · cases hOut
    exact ⟨order, hFound, hStatus order hFound⟩
  · cases hOut
    obtain rfl := Table.key_of_find? hRow
    exact ⟨_, (orders_released hRow row.id).trans (if_pos rfl), by simp⟩

/-- Restoring the intent of one order keeps all others, and opens an intent for this
one if it is queued. -/
theorem restoreIntent_delivers (hWell : db.WellFormed) {now : Nat} {order : Order}
    (hStored : (db.orders.find? order.id).isSome) (h : db.restoreIntent now order = .ok db') :
    db.Delivers db' := by
  unfold restoreIntent at h
  dsimp only at h
  split_ifs at h with hPresent hFresh
  · cases h
    exact .refl hWell
  · cases h
    have hMarket : (db.addIntent
        ⟨"recover_" ++ order.id, order.id, 0, none, none, none, none, now⟩).toMarket =
          db.toMarket :=
      toMarket_apply_newIntent _
    have hRows := congrArg Table.rows (matchingOutbox_addIntent hFresh)
    refine ⟨by rwa [hMarket], fun _ => by rw [hMarket]; exact id,
      fun _ hSettled => by rwa [Settled, hMarket], ?_, ?_, ?_⟩
    · intro row hRow
      rw [Table.mem_def, hRows]
      exact List.mem_append_left _ hRow
    · intro row hRow
      rw [Table.mem_def, hRows] at hRow
      rcases List.mem_append.mp hRow with hOld | hNew
      · exact Or.inl hOld
      · rw [List.mem_singleton.mp hNew]
        exact Or.inr ⟨rfl, by rwa [hMarket]⟩
    · intro id hNone hSome
      rw [hMarket, hNone] at hSome
      cases hSome

/-- The whole script restores intents one order after another. -/
theorem restoreMatchingIntents_delivers (hWell : db.WellFormed) {now : Nat} {skipped : List OrderId}
    (h : db.restoreMatchingIntents now skipped = .ok db') : db.Delivers db' := by
  have hPending : ∀ order ∈ db.pendingOrders skipped, (db.orders.find? order.id).isSome := by
    intro order hOrder
    have hSorted := List.mem_of_mem_take hOrder
    rw [List.mem_insertionSort] at hSorted
    exact Option.isSome_of_mem (Table.find?_of_mem (List.mem_of_mem_filter hSorted))
  unfold restoreMatchingIntents at h
  generalize db.pendingOrders skipped = orders at h hPending
  induction orders generalizing db with
  | nil =>
      cases h
      exact .refl hWell
  | cons order orders ih =>
      rw [List.foldlM_cons] at h
      obtain ⟨middle, hFirst, hRest⟩ := bind_eq_ok.mp h
      rw [List.forall_mem_cons] at hPending
      have hDelivers := restoreIntent_delivers hWell hPending.1 hFirst
      exact hDelivers.trans (ih hDelivers.wellFormed hRest
        (fun other hOther => hDelivers.stored _ (hPending.2 other hOther)))

/-- The rows after a conditional update are the old ones, changed where the
condition holds. -/
theorem mem_updateIntents {p : OrderMatchingOutbox → Bool}
    {f : OrderMatchingOutbox → OrderMatchingOutbox} {hId : ∀ row, (f row).id = row.id}
    {hOrder : ∀ row, (f row).orderId = row.orderId} {row : OrderMatchingOutbox} :
    row ∈ (db.updateIntents p f hId hOrder).matchingOutbox ↔
      ∃ old ∈ db.matchingOutbox, row = if p old then f old else old :=
  @Table.mem_update _ _ _ db.matchingOutbox row f hId p

/-- Ids are not updated, so a row is found where it was. -/
theorem find?_updateIntents {p : OrderMatchingOutbox → Bool}
    {f : OrderMatchingOutbox → OrderMatchingOutbox} {hId : ∀ row, (f row).id = row.id}
    {hOrder : ∀ row, (f row).orderId = row.orderId} {rowId : String} :
    (db.updateIntents p f hId hOrder).matchingOutbox.find? rowId =
      (db.matchingOutbox.find? rowId).map (fun row => if p row then f row else row) :=
  @Table.find?_update _ _ _ _ db.matchingOutbox rowId f hId p

/-- A conditional deletion keeps the rows for which the condition is false. -/
theorem mem_deleteIntents {p : OrderMatchingOutbox → Bool} {row : OrderMatchingOutbox} :
    row ∈ (db.deleteIntents p).matchingOutbox ↔ row ∈ db.matchingOutbox ∧ p row = false :=
  Table.mem_delete

/-- The orders that leave the queue, each of them once. -/
theorem departures_nodup : (db.departures db').Nodup :=
  db.orders.nodup.sublist (List.filter_sublist.map _)

/-- The orders that a step settles were not settled before it. -/
theorem mem_departures (h : id ∈ db.departures db') : ¬db.Settled id ∧ db'.Settled id := by
  obtain ⟨order, hMem, rfl⟩ := List.mem_map.mp h
  obtain ⟨hOrder, hLeft⟩ := List.mem_filter.mp hMem
  rw [Bool.and_eq_true, decide_eq_true_eq, Option.any_eq_true] at hLeft
  obtain ⟨hQueued, later, hLater, hStatus⟩ := hLeft
  refine ⟨?_, later, hLater, of_decide_eq_true hStatus⟩
  rintro ⟨row, hRow, hRowStatus⟩
  rw [Table.find?_of_mem hOrder] at hRow
  cases hRow
  exact hRowStatus hQueued

end Database
end ExchangeMatching
