import ExchangeMatching.Intents

/-! No queued order is lost, and none leaves the queue twice. A dispatcher
deletes a row only after the queue has acknowledged its order, because the
token of its claim still marks the row that it claimed; a worker completes a
job only after the order has left the queue, and no transaction puts an order
back. -/
namespace ExchangeMatching

open Transactions Processes

namespace MatchingQueue

variable {queue : MatchingQueue} {job : RetainedJob} {jobId : String}

/-- The queue invents no jobs. -/
theorem mem_add {added : Job} (h : job ∈ (queue.add added).jobs) :
    job ∈ queue.jobs ∨ job.toJob = added := by
  unfold add at h
  split_ifs at h with hNew
  · change job ∈ queue.jobs.insert _ hNew at h
    rw [Table.mem_insert] at h
    exact h.imp_right fun hJob => congrArg RetainedJob.toJob hJob
  · exact Or.inl h

/-- An acknowledged job is the job that was sent. -/
theorem mem_acknowledge (h : job ∈ (queue.acknowledge jobId).jobs) :
    ∃ old ∈ queue.jobs, job.toJob = old.toJob := by
  simp only [acknowledge, Table.mem_modify] at h
  rcases h with ⟨hOld, _⟩ | ⟨old, hOld, _, rfl⟩
  · exact ⟨job, hOld, rfl⟩
  · exact ⟨old, hOld, rfl⟩

/-- A retried job is the same job. -/
theorem mem_retry (h : job ∈ (queue.retry jobId).jobs) :
    ∃ old ∈ queue.jobs, job.toJob = old.toJob := by
  simp only [retry, Table.mem_modify] at h
  rcases h with ⟨hOld, _⟩ | ⟨old, hOld, _, rfl⟩
  · exact ⟨job, hOld, rfl⟩
  · exact ⟨old, hOld, rfl⟩

/-- So is one that has ended. -/
theorem mem_endJob (h : job ∈ (queue.endJob jobId).jobs) :
    ∃ old ∈ queue.jobs, job.toJob = old.toJob := by
  simp only [endJob, Table.mem_modify] at h
  rcases h with ⟨hOld, _⟩ | ⟨old, hOld, _, rfl⟩
  · exact ⟨job, hOld, rfl⟩
  · exact ⟨old, hOld, rfl⟩

/-- Adding a job acknowledges and completes nothing. -/
@[simp] theorem acknowledged_add {added : Job} :
    (queue.add added).acknowledged = queue.acknowledged := by
  unfold add
  split_ifs <;> rfl

@[simp] theorem completed_add {added : Job} : (queue.add added).completed = queue.completed := by
  unfold add
  split_ifs <;> rfl

end MatchingQueue

namespace World

variable {Index : Type} {newDecimal : String → Option DecimalValue}

/-- The invariant of the delivery. -/
structure Sound (world : World Index) : Prop where
  wellFormed : world.db.WellFormed
  rows : ∀ row ∈ world.db.matchingOutbox, (world.db.orders.find? row.orderId).isSome
  jobs : ∀ job ∈ world.queue.jobs, job.jobId = job.orderId ∧
    (world.db.orders.find? job.orderId).isSome
  distinct : (world.claims.map Prod.fst).Nodup
  tokens : ∀ row ∈ world.db.matchingOutbox, ∀ claimToken ∈ row.claimToken,
    claimToken ∈ world.claims.map Prod.fst
  queued : ∀ order ∈ world.db.orders, order.status = .queued →
    (∃ row ∈ world.db.matchingOutbox, row.orderId = order.id) ∨
      order.id ∈ world.queue.acknowledged
  completed : ∀ id ∈ world.queue.completed, world.db.Settled id
  departed : ∀ id ∈ world.departures, world.db.Settled id
  once : world.departures.Nodup

/-- What no step takes back. A token that was drawn earlier marks only rows
that it marked then. -/
structure Grows (world world' : World Index) : Prop where
  stored : ∀ id, (world.db.orders.find? id).isSome → (world'.db.orders.find? id).isSome
  settled : ∀ id, world.db.Settled id → world'.db.Settled id
  claims : world.claims ⊆ world'.claims
  acknowledged : world.queue.acknowledged ⊆ world'.queue.acknowledged
  held : ∀ row' ∈ world'.db.matchingOutbox, ∀ claimToken ∈ row'.claimToken,
    claimToken ∈ world.claims.map Prod.fst → ∃ row ∈ world.db.matchingOutbox,
      row.id = row'.id ∧ row.orderId = row'.orderId ∧ row.claimToken = some claimToken

/-- What a process must know before it issues a command. -/
def Allows (index : Index) {Reply : Type} (command : Command Reply) (world : World Index) : Prop :=
  match command with
  | .add job => job.jobId = job.orderId ∧ (world.db.orders.find? job.orderId).isSome
  | .removeClaimedRow id claimToken => (claimToken, index) ∈ world.claims ∧
      ∀ row ∈ world.db.matchingOutbox, row.isHeld id claimToken →
        row.orderId ∈ world.queue.acknowledged
  | .moveToCompleted jobId => world.db.Settled jobId
  | .claimNextBatch | .releaseClaim .. | .transaction _ => True

namespace Grows

variable {world world' world'' : World Index}

/-- Nothing need happen. -/
theorem refl : world.Grows world :=
  ⟨fun _ => id, fun _ => id, fun _ => id, fun _ => id,
    fun row hRow _ hToken _ => ⟨row, hRow, rfl, rfl, hToken⟩⟩

/-- And what grows twice has grown. -/
theorem trans (h : world.Grows world') (h' : world'.Grows world'') : world.Grows world'' where
  stored id hStored := h'.stored id (h.stored id hStored)
  settled id hSettled := h'.settled id (h.settled id hSettled)
  claims := List.Subset.trans h.claims h'.claims
  acknowledged := List.Subset.trans h.acknowledged h'.acknowledged
  held row hRow claimToken hToken hDrawn := by
    obtain ⟨middle, hMiddle, hId, hOrder, hMark⟩ := h'.held row hRow claimToken hToken
      (List.map_subset _ h.claims hDrawn)
    obtain ⟨old, hOld, hOldId, hOldOrder, hOldMark⟩ := h.held middle hMiddle claimToken hMark hDrawn
    exact ⟨old, hOld, hOldId.trans hId, hOldOrder.trans hOrder, hOldMark⟩

end Grows

namespace Sound

variable {world : World Index} {db' : Database}

/-- A transaction of the exchange, or the restore script, commits. -/
theorem commit (h : world.Sound) (hDelivers : world.db.Delivers db') :
    (world.commit db').Sound ∧ world.Grows (world.commit db') := by
  refine ⟨⟨hDelivers.wellFormed, ?_, ?_, h.distinct, ?_, ?_, ?_, ?_, ?_⟩,
    ⟨hDelivers.stored, hDelivers.settled, fun _ => id, fun _ => id, ?_⟩⟩
  · intro row hRow
    rcases hDelivers.intents row hRow with hOld | ⟨_, hStored⟩
    · exact hDelivers.stored _ (h.rows row hOld)
    · exact hStored
  · exact fun job hJob => ⟨(h.jobs job hJob).1, hDelivers.stored _ (h.jobs job hJob).2⟩
  · intro row hRow claimToken hToken
    rcases hDelivers.intents row hRow with hOld | ⟨hNone, _⟩
    · exact h.tokens row hOld claimToken hToken
    · rw [hNone] at hToken
      cases hToken
  · intro order hOrder hQueued
    have hFound : db'.orders.find? order.id = some order := Table.find?_of_mem hOrder
    cases hOld : world.db.orders.find? order.id with
    | none => exact Or.inl (hDelivers.created order.id hOld (Option.isSome_of_mem hFound))
    | some old =>
        have hOldQueued : old.status = .queued := by
          by_contra hStatus
          obtain ⟨later, hLater, hLeft⟩ := hDelivers.settled order.id ⟨old, hOld, hStatus⟩
          rw [hFound] at hLater
          cases hLater
          exact hLeft hQueued
        rcases h.queued old (Table.mem_of_find? hOld) hOldQueued with ⟨row, hRow, hId⟩ | hAck
        · exact Or.inl ⟨row, hDelivers.kept row hRow, hId.trans (Table.key_of_find? hOld)⟩
        · exact Or.inr (Table.key_of_find? hOld ▸ hAck)
  · exact fun id hId => hDelivers.settled id (h.completed id hId)
  · intro id hId
    rcases List.mem_append.mp hId with hOld | hNew
    · exact hDelivers.settled id (h.departed id hOld)
    · exact (Database.mem_departures hNew).2
  · refine List.nodup_append.mpr ⟨h.once, Database.departures_nodup, ?_⟩
    rintro id hOld other hNew rfl
    exact (Database.mem_departures hNew).1 (h.departed id hOld)
  · intro row hRow claimToken hToken _
    rcases hDelivers.intents row hRow with hOld | ⟨hNone, _⟩
    · exact ⟨row, hOld, rfl, rfl, hToken⟩
    · rw [hNone] at hToken
      cases hToken

/-- Rows are rewritten, and marked with new tokens only. -/
theorem updateIntents (h : world.Sound) {p : OrderMatchingOutbox → Bool}
    {f : OrderMatchingOutbox → OrderMatchingOutbox} {hId : ∀ row, (f row).id = row.id}
    {hOrder : ∀ row, (f row).orderId = row.orderId} {claims : List (String × Index)}
    (hClaims : world.claims ⊆ claims) (hDistinct : (claims.map Prod.fst).Nodup)
    (hTokens : ∀ row, ∀ claimToken ∈ (f row).claimToken,
      claimToken ∈ claims.map Prod.fst ∧ claimToken ∉ world.claims.map Prod.fst) :
    Sound { world with db := world.db.updateIntents p f hId hOrder, claims := claims } ∧
    world.Grows { world with db := world.db.updateIntents p f hId hOrder, claims := claims } := by
  have hRows : ∀ row ∈ (world.db.updateIntents p f hId hOrder).matchingOutbox,
      ∃ old ∈ world.db.matchingOutbox, old.id = row.id ∧ old.orderId = row.orderId ∧
        (row.claimToken = old.claimToken ∨ ∀ claimToken ∈ row.claimToken,
          claimToken ∈ claims.map Prod.fst ∧ claimToken ∉ world.claims.map Prod.fst) := by
    intro row hRow
    obtain ⟨old, hOld, rfl⟩ := Database.mem_updateIntents.mp hRow
    refine ⟨old, hOld, ?_⟩
    split_ifs
    · exact ⟨(hId old).symm, (hOrder old).symm, Or.inr (hTokens old)⟩
    · exact ⟨rfl, rfl, Or.inl rfl⟩
  refine ⟨⟨h.wellFormed, ?_, h.jobs, hDistinct, ?_, ?_, h.completed, h.departed, h.once⟩,
    ⟨fun _ => id, fun _ => id, hClaims, fun _ => id, ?_⟩⟩
  · intro row hRow
    obtain ⟨old, hOld, _, hSame, _⟩ := hRows row hRow
    exact hSame ▸ h.rows old hOld
  · intro row hRow claimToken hToken
    obtain ⟨old, hOld, _, _, hSame | hNew⟩ := hRows row hRow
    · exact List.map_subset _ hClaims (h.tokens old hOld claimToken (hSame ▸ hToken))
    · exact (hNew claimToken hToken).1
  · intro order hStored hQueued
    rcases h.queued order hStored hQueued with ⟨row, hRow, hFor⟩ | hAcknowledged
    · have hNew : (if p row then f row else row) ∈
          (world.db.updateIntents p f hId hOrder).matchingOutbox :=
        Database.mem_updateIntents.mpr ⟨row, hRow, rfl⟩
      refine Or.inl ⟨_, hNew, ?_⟩
      split_ifs
      · exact (hOrder row).trans hFor
      · exact hFor
    · exact Or.inr hAcknowledged
  · intro row hRow claimToken hToken hDrawn
    obtain ⟨old, hOld, hSameId, hSame, hMark | hNew⟩ := hRows row hRow
    · exact ⟨old, hOld, hSameId, hSame, hMark ▸ hToken⟩
    · exact absurd hDrawn (hNew claimToken hToken).2

/-- A row is deleted when the queue has acknowledged its order. -/
theorem removeClaimedRow (h : world.Sound) {index : Index} {rowId claimToken : String}
    (hAllows : Allows index (.removeClaimedRow rowId claimToken) world) :
    Sound { world with db := world.db.removeClaimedRow rowId claimToken } ∧
    world.Grows { world with db := world.db.removeClaimedRow rowId claimToken } := by
  have hRows : ∀ row ∈ (world.db.removeClaimedRow rowId claimToken).matchingOutbox,
      row ∈ world.db.matchingOutbox := fun row hRow => (Database.mem_deleteIntents.mp hRow).1
  refine ⟨⟨h.wellFormed, fun row hRow => h.rows row (hRows row hRow), h.jobs, h.distinct,
    fun row hRow => h.tokens row (hRows row hRow), ?_, h.completed, h.departed, h.once⟩,
    ⟨fun _ => id, fun _ => id, fun _ => id, fun _ => id,
      fun row hRow _ hToken _ => ⟨row, hRows row hRow, rfl, rfl, hToken⟩⟩⟩
  intro order hStored hQueued
  rcases h.queued order hStored hQueued with ⟨row, hRow, hFor⟩ | hAcknowledged
  · cases hHeld : row.isHeld rowId claimToken with
    | true => exact Or.inr (hFor ▸ hAllows.2 row hRow hHeld)
    | false => exact Or.inl ⟨row, Database.mem_deleteIntents.mpr ⟨hRow, hHeld⟩, hFor⟩
  · exact Or.inr hAcknowledged

/-- The queue changes, and forgets neither acknowledgements nor unsettled orders. -/
theorem withQueue (h : world.Sound) {queue : MatchingQueue}
    (hJobs : ∀ job ∈ queue.jobs, job.jobId = job.orderId ∧
      (world.db.orders.find? job.orderId).isSome)
    (hAcknowledged : world.queue.acknowledged ⊆ queue.acknowledged)
    (hCompleted : ∀ id ∈ queue.completed, world.db.Settled id) :
    Sound { world with queue := queue } ∧ world.Grows { world with queue := queue } :=
  ⟨⟨h.wellFormed, h.rows, hJobs, h.distinct, h.tokens,
    fun order hStored hQueued => (h.queued order hStored hQueued).imp_right fun hId =>
      hAcknowledged hId,
    hCompleted, h.departed, h.once⟩,
    ⟨fun _ => id, fun _ => id, fun _ => id, hAcknowledged,
      fun row hRow _ hToken _ => ⟨row, hRow, rfl, rfl, hToken⟩⟩⟩

end Sound

/-- What the dispatchers and the workers rely on, and what they keep. -/
def delivery (newDecimal : String → Option DecimalValue) :
    Discipline (World.services newDecimal : Services Command Thrown (World Index) Index) where
  Sound := Sound
  Grows := Grows
  Allows := Allows
  refl _ := .refl
  trans := .trans
  effect := by
    intro index Reply command world reply world' hSound hAllows hEffect
    cases command with
    | claimNextBatch =>
        obtain ⟨now, claimToken, skipped, hFresh, _, rfl⟩ := hEffect
        refine hSound.updateIntents (List.subset_cons_self _ _)
          (List.nodup_cons.mpr ⟨hFresh, hSound.distinct⟩) fun row other hOther => ?_
        cases hOther
        exact ⟨List.mem_cons_self, hFresh⟩
    | add job =>
        cases hEffect
        refine hSound.withQueue (fun retained hRetained => ?_) (fun id hId => ?_) ?_
        · obtain ⟨old, hOld, hSame⟩ := MatchingQueue.mem_acknowledge hRetained
          rw [hSame]
          rcases MatchingQueue.mem_add hOld with hMem | rfl
          · exact hSound.jobs old hMem
          · exact hAllows
        · exact List.mem_cons_of_mem _ (by rwa [MatchingQueue.acknowledged_add])
        · change ∀ id ∈ (world.queue.add job).completed, _
          rw [MatchingQueue.completed_add]
          exact hSound.completed
    | removeClaimedRow rowId claimToken =>
        cases hEffect
        exact hSound.removeClaimedRow hAllows
    | releaseClaim rowId claimToken lastError =>
        obtain ⟨now, rfl⟩ := hEffect
        exact hSound.updateIntents (fun _ => id) hSound.distinct fun row other hOther => by
          cases hOther
    | transaction call =>
        obtain ⟨generated, db', hRun, rfl⟩ := hEffect
        exact hSound.commit (Database.call_delivers hSound.wellFormed hRun)
    | moveToCompleted jobId =>
        cases hEffect
        refine hSound.withQueue (fun retained hRetained => ?_) (fun _ => id) fun id hId => ?_
        · obtain ⟨old, hOld, hSame⟩ := MatchingQueue.mem_endJob hRetained
          rw [hSame]
          exact hSound.jobs old hOld
        · rcases List.mem_cons.mp hId with rfl | hOld
          · exact hAllows
          · exact hSound.completed id hOld
  outside := by
    intro world world' hSound hOutside
    cases hOutside with
    | createOrder userId side amountInput priceInput generated run =>
        exact hSound.commit (Database.call_delivers hSound.wellFormed run)
    | cancelOrder userId orderId generated run =>
        exact hSound.commit (Database.call_delivers hSound.wellFormed run)
    | restore now skipped run =>
        exact hSound.commit (Database.restoreMatchingIntents_delivers hSound.wellFormed run)
    | turnUp order stored =>
        refine hSound.withQueue (fun retained hRetained => ?_) (by simp) (by
          rw [MatchingQueue.completed_add]
          exact hSound.completed)
        rcases MatchingQueue.mem_add hRetained with hOld | hAdded
        · exact hSound.jobs retained hOld
        · rw [hAdded]
          exact ⟨rfl, Option.isSome_of_mem (Table.find?_of_mem stored)⟩
    | giveUp jobId =>
        refine hSound.withQueue (fun retained hRetained => ?_) (fun _ => id) hSound.completed
        obtain ⟨old, hOld, hSame⟩ := MatchingQueue.mem_endJob hRetained
        rw [hSame]
        exact hSound.jobs old hOld
    | retry job retained ended =>
        refine hSound.withQueue (fun other hOther => ?_) (fun _ => id) hSound.completed
        obtain ⟨old, hOld, hSame⟩ := MatchingQueue.mem_retry hOther
        rw [hSame]
        exact hSound.jobs old hOld
    | forget job retained dispensable =>
        exact hSound.withQueue
          (fun other hOther => hSound.jobs other (Table.mem_delete.mp hOther).1)
          (fun _ => id) hSound.completed

section Programs

variable {index : Index} {world world' : World Index}

/-- The process has drawn the token of the row, which still marks no row of
another order. -/
structure Owns (index : Index) (row : ClaimedOrderMatchingOutboxRow)
    (world : World Index) : Prop where
  drawn : (row.claimToken, index) ∈ world.claims
  stored : (world.db.orders.find? row.orderId).isSome
  marks : ∀ held ∈ world.db.matchingOutbox, held.isHeld row.id row.claimToken →
    held.orderId = row.orderId

/-- What a dispatcher has claimed remains its own while the world grows, since
claims are never forgotten. -/
theorem Owns.grow {row : ClaimedOrderMatchingOutboxRow} (h : Owns index row world)
    (hGrows : world.Grows world') : Owns index row world' where
  drawn := hGrows.claims h.drawn
  stored := hGrows.stored _ h.stored
  marks held hMem hHeld := by
    obtain ⟨hId, hToken⟩ := OrderMatchingOutbox.isHeld_iff.mp hHeld
    obtain ⟨old, hOld, hOldId, hOrder, hOldToken⟩ := hGrows.held held hMem row.claimToken hToken
      (List.mem_map_of_mem h.drawn)
    exact hOrder.symm.trans
      (h.marks old hOld (OrderMatchingOutbox.isHeld_iff.mpr ⟨hOldId.trans hId, hOldToken⟩))

/-- What a claim returns is owned by the process that made it. -/
theorem owns_of_claim (hSound : world.Sound) {now : Nat} {claimToken : String}
    {skipped : List String} {row : ClaimedOrderMatchingOutboxRow}
    (hRow : row ∈ world.db.claimedRows now claimToken skipped) :
    Owns index row { world with
      db := world.db.claimIntents now claimToken skipped
      claims := (claimToken, index) :: world.claims } := by
  obtain ⟨old, hOld, rfl⟩ := List.mem_map.mp hRow
  have hStored := (List.mem_filter.mp hOld).1
  refine ⟨List.mem_cons_self, hSound.rows old hStored, fun held hMem hHeld => ?_⟩
  have hKey : (world.db.claimIntents now claimToken skipped).matchingOutbox.find? held.id =
    some held :=
    Table.find?_of_mem hMem
  rw [(OrderMatchingOutbox.isHeld_iff.mp hHeld).1, Database.claimIntents,
    Database.find?_updateIntents, Table.find?_of_mem hStored, Option.map_some,
    Option.some.injEq] at hKey
  rw [← hKey]
  split_ifs <;> rfl

open OrderMatchingOutboxDispatcher in
/-- A dispatcher adds the job of a row before it removes the row, which is safe at
every command between. -/
theorem safe_dispatchRow {row : ClaimedOrderMatchingOutboxRow} (hOwns : Owns index row world) :
    (delivery newDecimal).Safe index (dispatchRow row) world (fun _ _ => True) := by
  have hAdd : (delivery newDecimal).Safe index
      (OrderMatchingQueueService.enqueueProcessOrder row.orderId) world
      (fun _ now => row.orderId ∈ now.queue.acknowledged) := by
    refine .perform (fun now _ hGrows => ⟨rfl, hGrows.stored _ hOwns.stored⟩) ?_
    intro now reply later last _ _ hEffect _ hLater
    cases hEffect
    exact hLater.acknowledged List.mem_cons_self
  have hRemove : ∀ (now : World Index), world.Grows now → row.orderId ∈ now.queue.acknowledged →
      (delivery newDecimal).Safe index (.perform (.removeClaimedRow row.id row.claimToken)) now
        (fun _ _ => True) := by
    intro now hNow hAcknowledged
    refine .perform (fun later _ hLater => ?_) fun _ _ _ _ _ _ _ _ _ => trivial
    have hStill := hOwns.grow (hNow.trans hLater)
    exact ⟨hStill.drawn, fun held hMem hHeld =>
      hStill.marks held hMem hHeld ▸ hLater.acknowledged hAcknowledged⟩
  refine (Discipline.Safe.attempt (hAdd.bind fun _ now _ hGrows => hRemove now hGrows)).bind ?_
  intro dispatched now _ _ _
  cases dispatched with
  | ok _ => exact fun _ _ _ => trivial
  | error error =>
      refine (Discipline.Safe.attempt (.perform (Q := fun _ _ => True) (fun _ _ _ => trivial)
        fun _ _ _ _ _ _ _ _ _ => trivial)).bind fun _ _ _ _ _ => fun _ _ _ => trivial

open OrderMatchingOutboxDispatcher in
/-- The loop over a batch is safe, by induction on the rows. -/
theorem safe_dispatchRows {rows : List ClaimedOrderMatchingOutboxRow} {hasFailedDispatch : Bool}
    (hOwns : ∀ row ∈ rows, Owns index row world) :
    (delivery newDecimal).Safe index (dispatchRows rows hasFailedDispatch) world
      (fun _ _ => True) := by
  induction rows generalizing world hasFailedDispatch with
  | nil => exact fun _ _ _ => trivial
  | cons row rows ih =>
      rw [List.forall_mem_cons] at hOwns
      refine (safe_dispatchRow hOwns.1).bind fun failed now _ hGrows _ => ih fun other hOther => ?_
      exact (hOwns.2 other hOther).grow hGrows

open OrderMatchingOutboxDispatcher in
/-- And so is the loop that claims batch after batch. -/
theorem safe_dispatchLoop (turns : Nat) :
    (delivery newDecimal).Safe index (dispatchLoop turns) world (fun _ _ => True) := by
  induction turns generalizing world with
  | zero => exact fun _ _ _ => trivial
  | succ turns ih =>
      have hClaim : (delivery newDecimal).Safe index (.perform .claimNextBatch) world
          (fun rows now => ∀ row ∈ rows, Owns index row now) := by
        refine .perform (fun _ _ _ => trivial) ?_
        rintro now rows later last hNow _ ⟨at', claimToken, skipped, _, hRows, rfl⟩ _ hLater
          row hRow
        exact (owns_of_claim hNow (hRows.mem_iff.mp hRow)).grow hLater
      refine hClaim.bind fun rows now _ _ hOwns => ?_
      split_ifs
      · exact fun _ _ _ => trivial
      · refine (safe_dispatchRows hOwns).bind fun hasFailedDispatch later _ _ _ => ?_
        split_ifs
        · exact fun _ _ _ => trivial
        · exact ih

open OrderMatchingProcessor in
/-- When a job returns normally, its order has left the queue. -/
theorem safe_process {job : Job} {attemptsMade : Nat}
    (hStored : (world.db.orders.find? job.orderId).isSome) :
    (delivery newDecimal).Safe index (process job attemptsMade) world
      (fun _ now => now.db.Settled job.orderId) := by
  have hProcess : (delivery newDecimal).Safe index
      (.perform (.transaction (.processOrder job.orderId)))
      world (fun _ now => now.db.Settled job.orderId) := by
    refine .perform (fun _ _ _ => trivial) ?_
    rintro now outcome later last hNow _ ⟨generated, db', hRun, rfl⟩ _ hLater
    exact hLater.settled _ (Database.processed_settled hNow.wellFormed hRun)
  refine (Discipline.Safe.attempt hProcess).bind fun result now _ hGrows hResult => ?_
  cases result with
  | ok outcome => exact fun later _ hLater => hLater.settled _ (hResult outcome rfl)
  | error error =>
      change (delivery newDecimal).Safe index
        (if isFinalAttempt job attemptsMade then _ else _) now _
      split_ifs
      · have hReject : (delivery newDecimal).Safe index
            (.perform (.transaction (.rejectOrderAfterFailedProcessing job.orderId))) now
            (fun _ later => later.db.Settled job.orderId) := by
          refine .perform (fun _ _ _ => trivial) ?_
          rintro then' outcome later last hThen hUntil ⟨generated, db', hRun, rfl⟩ _ hLater
          have hThere := hUntil.stored _ (hGrows.stored _ hStored)
          exact hLater.settled _ (Database.rejected_settled hThen.wellFormed hThere hRun)
        exact hReject.bind fun _ _ _ _ hSettled => fun _ _ hLater => hLater.settled _ hSettled
      · exact trivial

/-- Every process that may be started is safe: calls, dispatchers and workers. -/
theorem safe_spawned {process : Task Unit} (hSound : world.Sound) (h : Spawns world process) :
    (delivery newDecimal).Safe index process world (fun _ _ => True) := by
  cases h with
  | dispatcher turns => exact safe_dispatchLoop turns
  | worker job attemptsMade retained waits =>
      obtain ⟨hId, hStored⟩ := hSound.jobs job retained
      refine (safe_process hStored).bind fun _ now _ _ hSettled => ?_
      refine .perform (fun later _ hLater => ?_) fun _ _ _ _ _ _ _ _ _ => trivial
      exact hId ▸ hLater.settled _ hSettled

end Programs

section Runs

variable {start : Database} {cluster cluster' : Cluster Command Thrown (World Index) Index}
  {actor : Option Index}

/-- An opening without intents is sound. -/
theorem sound_start (hOpening : start.Opening) (hEmpty : start.matchingOutbox = .empty) :
    (World.start start : World Index).Sound := by
  have hNoRows : ∀ row, row ∉ start.matchingOutbox := by
    rw [hEmpty]
    exact fun row hRow => by cases hRow
  refine ⟨hOpening.wellFormed, fun row hRow => absurd hRow (hNoRows row),
    (fun job hJob => by cases hJob),
    List.nodup_nil, fun row hRow => absurd hRow (hNoRows row), fun order hOrder => ?_,
    (fun id hId => by cases hId), (fun id hId => by cases hId), List.nodup_nil⟩
  have hMem : order ∈ start.orders.rows := hOrder
  rw [hOpening.noOrders] at hMem
  cases hMem

/-- A delivery keeps the rows of the outbox. -/
theorem kept_of_delivers {db db' : Database} (h : db.Delivers db') {row : OrderMatchingOutbox}
    (hRow : row ∈ db.matchingOutbox) : db'.matchingOutbox.find? row.id ≠ none := by
  rw [Table.find?_of_mem (h.kept row hRow)]
  simp

/-- Only a deletion removes a row, and only one that the claim holds. -/
theorem removed_of_effect {index : Index} {world world' : World Index} {Reply : Type}
    {command : Command Reply} {reply : Reply} (hSound : world.Sound)
    (hAllows : Allows index command world)
    (hEffect : Effect newDecimal index command world reply world')
    {row : OrderMatchingOutbox} (hRow : row ∈ world.db.matchingOutbox)
    (hGone : world'.db.matchingOutbox.find? row.id = none) :
    ∃ claimToken, row.claimToken = some claimToken ∧ (claimToken, index) ∈ world.claims ∧
      row.orderId ∈ world.queue.acknowledged := by
  have hFound := Table.find?_of_mem hRow
  cases command with
  | claimNextBatch =>
      obtain ⟨now, claimToken, skipped, _, _, rfl⟩ := hEffect
      rw [Database.claimIntents, Database.find?_updateIntents, hFound] at hGone
      cases hGone
  | add job =>
      cases hEffect
      rw [hFound] at hGone
      cases hGone
  | removeClaimedRow id claimToken =>
      cases hEffect
      cases hHeld : row.isHeld id claimToken with
      | true =>
          exact ⟨claimToken, (OrderMatchingOutbox.isHeld_iff.mp hHeld).2, hAllows.1,
            hAllows.2 row hRow hHeld⟩
      | false => exact absurd rfl (Table.find?_eq_none_iff.mp hGone row
          (Database.mem_deleteIntents.mpr ⟨hRow, hHeld⟩))
  | releaseClaim id claimToken lastError =>
      obtain ⟨now, rfl⟩ := hEffect
      rw [Database.releaseClaim, Database.find?_updateIntents, hFound] at hGone
      cases hGone
  | transaction call =>
      obtain ⟨generated, db', hRun, rfl⟩ := hEffect
      exact absurd hGone (kept_of_delivers (Database.call_delivers hSound.wellFormed hRun) hRow)
  | moveToCompleted jobId =>
      cases hEffect
      rw [hFound] at hGone
      cases hGone

variable [DecidableEq Index]

/-- So the discipline holds of every cluster that is reached. -/
theorem holds_of_reaches (hOpening : start.Opening) (hEmpty : start.matchingOutbox = .empty)
    (hRun : (services newDecimal).Reaches (.start (World.start start)) cluster) :
    (delivery newDecimal).Holds cluster :=
  (Discipline.holds_start (sound_start hOpening hEmpty)).of_reaches
    (fun _ _ _ hSound hSpawns => safe_spawned hSound hSpawns) hRun

/-- A row that disappears in a step is removed by the dispatcher that holds the
claim, after the job was added. -/
theorem removed_of_step (hHolds : (delivery newDecimal).Holds cluster)
    (hStep : (services newDecimal).Step cluster actor cluster') {row : OrderMatchingOutbox}
    (hRow : row ∈ cluster.world.db.matchingOutbox)
    (hGone : cluster'.world.db.matchingOutbox.find? row.id = none) :
    ∃ index claimToken, actor = some index ∧ row.claimToken = some claimToken ∧
      (claimToken, index) ∈ cluster.world.claims ∧
      row.orderId ∈ cluster.world.queue.acknowledged := by
  have hSame : cluster.world.db.matchingOutbox.find? row.id ≠ none := by
    rw [Table.find?_of_mem hRow]
    simp
  have hWell : cluster.world.db.WellFormed := hHolds.sound.wellFormed
  cases hStep with
  | spawn index idle spawns => exact absurd hGone hSame
  | perform index running performs =>
      have hAllows := hHolds.allows running
      cases performs with
      | done hEffect | lost failure hEffect =>
          exact ⟨index, (removed_of_effect hHolds.sound hAllows hEffect hRow hGone).imp
            fun _ hRemoved => ⟨rfl, hRemoved⟩⟩
      | failed failure => exact absurd hGone hSame
  | stop index => exact absurd hGone hSame
  | outside happens =>
      cases happens with
      | createOrder userId side amountInput priceInput generated run =>
          exact absurd hGone (kept_of_delivers (Database.call_delivers hWell run) hRow)
      | cancelOrder userId orderId generated run =>
          exact absurd hGone (kept_of_delivers (Database.call_delivers hWell run) hRow)
      | restore now skipped run =>
          exact absurd hGone
            (kept_of_delivers (Database.restoreMatchingIntents_delivers hWell run) hRow)
      | turnUp order stored => exact absurd hGone hSame
      | giveUp jobId => exact absurd hGone hSame
      | retry job retained ended => exact absurd hGone hSame
      | forget job retained dispensable => exact absurd hGone hSame

/-- Over any interleaving of users, dispatchers, workers, replayed jobs,
crashes and restores: a queued order has its intent, or a job of it has been
acknowledged and none has completed; the order of a completed job is not
queued; a row is deleted only by the dispatcher whose token it carries, after
its order was acknowledged; and an order leaves the queue at most once. -/
theorem matching_delivered (hOpening : start.Opening) (hEmpty : start.matchingOutbox = .empty)
    (hRun : (services newDecimal).Reaches (.start (World.start start)) cluster) :
    (∀ order ∈ cluster.world.db.orders, order.status = .queued →
      (∃ row ∈ cluster.world.db.matchingOutbox, row.orderId = order.id) ∨
      (order.id ∈ cluster.world.queue.acknowledged ∧
        order.id ∉ cluster.world.queue.completed)) ∧
    (∀ id ∈ cluster.world.queue.completed, ∀ order, cluster.world.db.orders.find? id =
      some order → order.status ≠ .queued) ∧
    (∀ actor cluster', (services newDecimal).Step cluster actor cluster' →
      ∀ row ∈ cluster.world.db.matchingOutbox,
        cluster'.world.db.matchingOutbox.find? row.id = none →
        ∃ index claimToken, actor = some index ∧ row.claimToken = some claimToken ∧
          (claimToken, index) ∈ cluster.world.claims ∧
          row.orderId ∈ cluster.world.queue.acknowledged) ∧
    (cluster.world.claims.map Prod.fst).Nodup ∧ cluster.world.departures.Nodup := by
  have hHolds := holds_of_reaches hOpening hEmpty hRun
  have hSound : cluster.world.Sound := hHolds.sound
  have hCompleted : ∀ id ∈ cluster.world.queue.completed, ∀ order,
      cluster.world.db.orders.find? id = some order → order.status ≠ .queued := by
    intro id hId order hFound
    obtain ⟨row, hRow, hStatus⟩ := hSound.completed id hId
    rw [hFound] at hRow
    cases hRow
    exact hStatus
  refine ⟨fun order hOrder hQueued => ?_, hCompleted, fun _ _ hStep _ hRow hGone =>
    removed_of_step hHolds hStep hRow hGone, hSound.distinct, hSound.once⟩
  refine (hSound.queued order hOrder hQueued).imp_right fun hAcknowledged => ⟨hAcknowledged, ?_⟩
  exact fun hId => hCompleted _ hId order (Table.find?_of_mem hOrder) hQueued

end Runs
end World

namespace Sample

/-- The exchange after one more call. -/
def after (db : Database) (invocation : Invocation) : Database :=
  ((History.start db).call newDecimal invocation).db

/-- A call that commits leaves the database that the sample computes. -/
theorem call_after {db : Database} {invocation : Invocation}
    (h : (db.call newDecimal invocation).isOk = true) :
    ∃ outcome, db.call newDecimal invocation = .ok (outcome, after db invocation) := by
  cases hCall : db.call newDecimal invocation with
  | error failure =>
      rw [hCall] at h
      cases h
  | ok result =>
      refine ⟨result.1, ?_⟩
      rw [after, History.call, History.start, hCall]

/-- A SELL order is created, dispatched and processed. -/
def created : Database :=
  after start ⟨.createOrder "seller" .sell "1" "5", ⟨"sell", 1, "intent 1", 10⟩⟩

/-- The order waits for its dispatch. -/
def waiting : World Bool := (World.start start).commit created

/-- The order was handed to the queue. -/
def dispatched : World Bool where
  db := (waiting.db.claimIntents 20 "claim 1" []).removeClaimedRow "intent 1" "claim 1"
  queue := (waiting.queue.add (OrderMatchingQueueService.processOrderJob "sell")).acknowledge "sell"
  claims := [("claim 1", true)]
  departures := waiting.departures

def processed : Database := after dispatched.db ⟨.processOrder "sell", ⟨"", 0, "", 30⟩⟩

/-- The order is in the book. -/
def delivered : World Bool :=
  { dispatched.commit processed with queue := dispatched.queue.complete "sell" }

/-- In the sample the dispatcher adds the job and then removes the row. -/
theorem runs_dispatcher : ∃ rest, (World.services newDecimal).Runs true
    (OrderMatchingOutboxDispatcher.dispatchLoop 1) waiting rest dispatched := by
  have hRows : waiting.db.claimedRows 20 "claim 1" [] = [⟨"intent 1", "sell", "claim 1"⟩] := by
    decide +kernel
  have hClaim : World.Effect newDecimal true .claimNextBatch waiting
      [⟨"intent 1", "sell", "claim 1"⟩] { waiting with
        db := waiting.db.claimIntents 20 "claim 1" []
        claims := [("claim 1", true)] } :=
    ⟨20, "claim 1", [], List.not_mem_nil, by rw [hRows], rfl⟩
  exact ⟨_, .perform _ (.done hClaim) (.perform (.ok ()) (.done rfl)
    (.perform (.ok ()) (.done rfl) .nil))⟩

/-- And the worker processes the order and completes the job. -/
theorem runs_worker : ∃ rest, (World.services newDecimal).Runs false
    (OrderMatchingProcessor.run (OrderMatchingQueueService.processOrderJob "sell") 0)
      dispatched rest
    delivered := by
  obtain ⟨outcome, hProcess⟩ := @call_after dispatched.db
    ⟨.processOrder "sell", ⟨"", 0, "", 30⟩⟩ (by decide +kernel)
  exact ⟨_, .perform (.ok outcome) (.done ⟨_, _, hProcess, rfl⟩)
    (.perform (.ok ()) (.done rfl) .nil)⟩

/-- A dispatcher and a worker bring the order to the book. -/
theorem reaches_delivered : ∃ cluster, (World.services newDecimal).Reaches
    (.start (World.start start : World Bool)) cluster ∧ cluster.world = delivered := by
  obtain ⟨_, hCreate⟩ := @call_after start
    ⟨.createOrder "seller" .sell "1" "5", ⟨"sell", 1, "intent 1", 10⟩⟩ (by decide +kernel)
  have hCreated : (World.services newDecimal).Reaches (.start (World.start start : World Bool))
      ⟨waiting, fun _ => none⟩ :=
    Services.Reaches.outside .refl (World.Outside.createOrder "seller" .sell "1" "5" _ hCreate)
  obtain ⟨_, hDispatcher⟩ := runs_dispatcher
  obtain ⟨_, hWorker⟩ := runs_worker
  have hDispatched := hCreated.spawn rfl (World.Spawns.dispatcher 1) hDispatcher
  have hRetained : ⟨OrderMatchingQueueService.processOrderJob "sell", true, false⟩ ∈
      dispatched.queue.jobs.rows := by decide +kernel
  exact ⟨_, hDispatched.spawn rfl (World.Spawns.worker _ 0 hRetained rfl) hWorker, rfl⟩

end Sample

namespace World

theorem matching_delivered_sample : ∃ cluster : Cluster Command Thrown (World Bool) Bool,
    (services Sample.newDecimal).Reaches (.start (World.start Sample.start)) cluster ∧
    cluster.world.db.matchingOutbox.rows = [] ∧ cluster.world.queue.completed = ["sell"] ∧
    (∀ id ∈ cluster.world.queue.completed, ∀ order, cluster.world.db.orders.find? id =
      some order → order.status ≠ .queued) ∧
    cluster.world.departures.Nodup := by
  obtain ⟨cluster, hRun, hWorld⟩ := Sample.reaches_delivered
  obtain ⟨_, hCompleted, _, _, hOnce⟩ := matching_delivered Sample.opening rfl hRun
  refine ⟨cluster, hRun, ?_, ?_, hCompleted, hOnce⟩
  · rw [hWorld]
    decide +kernel
  · rw [hWorld]
    decide +kernel

end World
end ExchangeMatching
