import ExchangeMatching.RealtimeOutbox

/-! The life of a realtime outbox row. A row in a final state has no claim, so
no claimant that comes late can write to it: every write of a claimant asks
for its token. -/
namespace ExchangeMatching.Realtime

open Processes

namespace RealtimeEventOutbox

variable {row : RealtimeEventOutbox} {now now' : Nat} {claimToken lastError : String}

def isFinal (row : RealtimeEventOutbox) : Prop := row.publishedAt.isSome ∨ row.deadLetteredAt.isSome

/-- The invariant of a row. -/
structure Sound (row : RealtimeEventOutbox) (now : Nat) : Prop where
  claim : row.claimedAt = none ↔ row.claimToken = none
  exclusive : row.publishedAt = none ∨ row.deadLetteredAt = none
  attempts : row.attemptCount ≤ realtimeOutboxMaxAttempts
  dead : row.deadLetteredAt.isSome ↔ row.attemptCount = realtimeOutboxMaxAttempts
  final : row.isFinal → row.claimToken = none ∧ row.nextAttemptAt = none
  paused : row.claimToken.isSome → ∀ time ∈ row.nextAttemptAt, time ≤ now

namespace Sound

/-- A row stays sound as time passes. -/
theorem mono (h : row.Sound now) (hLater : now ≤ now') : row.Sound now' :=
  { h with paused := fun hToken time hTime => (h.paused hToken time hTime).trans hLater }

/-- A claimed row is in no final state. -/
theorem open_of_token (h : row.Sound now) (hToken : row.claimToken = some claimToken) :
    row.publishedAt = none ∧ row.deadLetteredAt = none := by
  have hOpen : ¬row.isFinal := by
    intro hFinal
    rw [(h.final hFinal).1] at hToken
    cases hToken
  rw [isFinal, not_or, Bool.not_eq_true, Bool.not_eq_true, Option.isSome_eq_false_iff,
    Option.isSome_eq_false_iff, Option.isNone_iff_eq_none, Option.isNone_iff_eq_none] at hOpen
  exact hOpen

/-- Claiming a row that is due sets both parts of the claim. -/
theorem claimed (h : row.Sound now) {claimTimeoutSeconds : Nat}
    (hClaimable : row.isClaimable now claimTimeoutSeconds = true) :
    (row.claimed now claimToken).Sound now := by
  rw [isClaimable, Bool.and_eq_true, Bool.and_eq_true, Bool.and_eq_true, Option.isNone_iff_eq_none,
    Option.isNone_iff_eq_none, Option.all_eq_true] at hClaimable
  obtain ⟨⟨⟨hPublished, hDead⟩, hPause⟩, _⟩ := hClaimable
  refine ⟨by simp [RealtimeEventOutbox.claimed], h.exclusive, h.attempts, h.dead, fun hFinal => ?_,
    fun _ time hTime => of_decide_eq_true (hPause time hTime)⟩
  rcases hFinal with hSome | hSome
  · have hNone : (row.publishedAt).isSome := hSome
    rw [hPublished] at hNone
    cases hNone
  · have hNone : (row.deadLetteredAt).isSome := hSome
    rw [hDead] at hNone
    cases hNone

/-- Publishing ends the claim, and the row is final. -/
theorem published (h : row.Sound now) (hToken : row.claimToken = some claimToken) :
    (row.published now).Sound now :=
  ⟨Iff.rfl.trans (by simp [RealtimeEventOutbox.published]), Or.inr (h.open_of_token hToken).2,
    h.attempts, h.dead, fun _ => ⟨rfl, rfl⟩, fun hSome => by cases hSome⟩

/-- Releasing ends the claim with a deadline for the next attempt, or with a dead
letter. -/
theorem released (h : row.Sound now) (hToken : row.claimToken = some claimToken) :
    (row.released now lastError realtimeOutboxMaxAttempts realtimeOutboxRetryDelayMs
      realtimeOutboxMaxRetryDelayMs).Sound now := by
  obtain ⟨hPublished, hDead⟩ := h.open_of_token hToken
  have hLess : row.attemptCount < realtimeOutboxMaxAttempts := by
    refine lt_of_le_of_ne h.attempts fun hLast => ?_
    have hSome := h.dead.mpr hLast
    rw [hDead] at hSome
    cases hSome
  refine ⟨by simp [RealtimeEventOutbox.released], Or.inl hPublished, hLess, ?_, fun hFinal => ?_,
    fun hSome => by cases hSome⟩
  · simp only [RealtimeEventOutbox.released]
    split_ifs with hLast
    · exact iff_of_true rfl (le_antisymm hLess hLast)
    · exact iff_of_false (by simp) (by omega)
  · simp only [isFinal, RealtimeEventOutbox.released, hPublished] at hFinal ⊢
    split_ifs at hFinal ⊢ with hLast
    · exact ⟨trivial, rfl⟩
    · simp at hFinal

/-- A new row is open and unclaimed. -/
theorem inserted (entry : RealtimeOutboxEntry) (createdAt : Nat) :
    Sound ⟨entry, 0, none, none, none, none, none, none, createdAt⟩ now :=
  ⟨Iff.rfl.trans (by simp), Or.inl rfl, Nat.zero_le _, by simp [realtimeOutboxMaxAttempts],
    (by simp [isFinal]), (by simp)⟩

end RealtimeEventOutbox.Sound

/-- A row is only selected for a claim when it is claimable. -/
theorem Outbox.isClaimable_of_mem {outbox : Outbox} {row : RealtimeEventOutbox}
    {now batchSize claimTimeoutSeconds : Nat} {skipped : List String} (hRow : row ∈ outbox)
    (h : row.id ∈ outbox.claimable now batchSize claimTimeoutSeconds skipped) :
    row.isClaimable now claimTimeoutSeconds = true := by
  obtain ⟨other, hOther, hId⟩ := List.mem_map.mp h
  have hSorted := List.mem_of_mem_take hOther
  rw [List.mem_insertionSort, List.mem_filter, Bool.and_eq_true] at hSorted
  obtain ⟨hMem, hClaimable, _⟩ := hSorted
  rwa [List.inj_on_of_nodup_map outbox.nodup hMem hRow hId] at hClaimable

namespace World

variable {Index : Type} {parse : String → Except Thrown RealtimeDispatchEvent}

/-- The invariant of the table and its claims. -/
structure Sound (world : World Index) : Prop where
  rows : ∀ row ∈ world.outbox, row.Sound world.now
  distinct : (world.claims.map Prod.fst).Nodup

/-- What no step takes back. -/
structure Grows (world world' : World Index) : Prop where
  now : world.now ≤ world'.now
  claims : world.claims ⊆ world'.claims
  deliveries : world.deliveries ⊆ world'.deliveries

/-- What a process must know before it issues a command. -/
def Allows (index : Index) {Reply : Type} (command : Command Reply) (world : World Index) : Prop :=
  match command with
  | .claimNextBatch .. => True
  | .publishEvent row _ => (row.claimToken, index) ∈ world.claims
  | .markAsPublished id claimToken =>
      (claimToken, index) ∈ world.claims ∧ (id, claimToken) ∈ world.deliveries
  | .releaseClaim _ _ _ maxAttempts retryDelayMs maxRetryDelayMs =>
      maxAttempts = realtimeOutboxMaxAttempts ∧ retryDelayMs = realtimeOutboxRetryDelayMs ∧
        maxRetryDelayMs = realtimeOutboxMaxRetryDelayMs
  | .pruneExpiredEvents publishedCutoff deadLetterCutoff =>
      publishedCutoff + (realtimeOutboxPublishedRetentionDays * millisecondsPerDay : Nat) ≤
        world.now ∧ deadLetterCutoff +
          (realtimeOutboxDeadLetterRetentionDays * millisecondsPerDay : Nat) ≤ world.now

/-- Time need not pass. -/
theorem Grows.refl {world : World Index} : world.Grows world :=
  ⟨le_rfl, List.Subset.refl _, List.Subset.refl _⟩

/-- The table may change in any way. -/
theorem Grows.withOutbox {world : World Index} {outbox : Outbox} :
    world.Grows { world with outbox := outbox } :=
  ⟨le_rfl, List.Subset.refl _, List.Subset.refl _⟩

/-- Claims and deliveries accumulate. -/
theorem Grows.trans {world world' world'' : World Index} (h : world.Grows world')
    (h' : world'.Grows world'') : world.Grows world'' :=
  ⟨h.now.trans h'.now, List.Subset.trans h.claims h'.claims,
    List.Subset.trans h.deliveries h'.deliveries⟩

/-- What one step may do under an id of the table. -/
inductive Advances (world : World Index) (actor : Option Index) :
    Option RealtimeEventOutbox → Option RealtimeEventOutbox → Prop where
  | kept {stored : Option RealtimeEventOutbox} : Advances world actor stored stored
  | inserted (entry : RealtimeOutboxEntry) :
      Advances world actor none (some ⟨entry, 0, none, none, none, none, none, none, world.now⟩)
  | claimed {row : RealtimeEventOutbox} (claimToken : String) {claimTimeoutSeconds : Nat}
      (claimable : row.isClaimable world.now claimTimeoutSeconds = true) :
      Advances world actor (some row) (some (row.claimed world.now claimToken))
  | published {row : RealtimeEventOutbox} {index : Index} {claimToken : String}
      (publisher : actor = some index) (held : row.claimToken = some claimToken)
      (drawn : (claimToken, index) ∈ world.claims)
      (delivered : (row.id, claimToken) ∈ world.deliveries) :
      Advances world actor (some row) (some (row.published world.now))
  | released {row : RealtimeEventOutbox} {claimToken : String} (lastError : String)
      (held : row.claimToken = some claimToken) :
      Advances world actor (some row) (some (row.released world.now lastError
        realtimeOutboxMaxAttempts realtimeOutboxRetryDelayMs realtimeOutboxMaxRetryDelayMs))
  | pruned {row : RealtimeEventOutbox} (publishedCutoff deadLetterCutoff : Int)
      (expired : row.isExpired publishedCutoff deadLetterCutoff = true)
      (publishedLong : publishedCutoff +
        (realtimeOutboxPublishedRetentionDays * millisecondsPerDay : Nat) ≤ world.now)
      (deadLong : deadLetterCutoff +
        (realtimeOutboxDeadLetterRetentionDays * millisecondsPerDay : Nat) ≤ world.now) :
      Advances world actor (some row) none

/-- However a row advances, it is sound afterwards. -/
theorem Advances.sound {world : World Index} {actor : Option Index}
    {stored : Option RealtimeEventOutbox} {row' : RealtimeEventOutbox}
    (h : world.Advances actor stored (some row')) (hSound : ∀ row ∈ stored, row.Sound world.now) :
    row'.Sound world.now := by
  cases h with
  | kept => exact hSound row' rfl
  | inserted entry => exact .inserted entry world.now
  | claimed claimToken claimable => exact (hSound _ rfl).claimed claimable
  | published publisher held drawn delivered => exact (hSound _ rfl).published held
  | released lastError held => exact (hSound _ rfl).released held

/-- The commands, id by id. -/
theorem advances_of_effect {index : Index} {world world' : World Index} {Reply : Type}
    {command : Command Reply} {reply : Reply} (hAllows : Allows index command world)
    (hEffect : Effect index command world reply world') (id : String) :
    world.Advances (some index) (world.outbox.find? id) (world'.outbox.find? id) := by
  cases command with
  | claimNextBatch batchSize claimTimeoutSeconds =>
      obtain ⟨claimToken, skipped, _, _, rfl⟩ := hEffect
      rw [Outbox.claim, Table.find?_update]
      cases hFound : world.outbox.find? id with
      | none => exact .kept
      | some row =>
          rw [Option.map_some]
          split_ifs with hClaimed
          · exact .claimed claimToken
              (Outbox.isClaimable_of_mem (Table.mem_of_find? hFound) (of_decide_eq_true hClaimed))
          · exact .kept
  | publishEvent claimed event =>
      cases hEffect
      exact .kept
  | markAsPublished rowId claimToken =>
      cases hEffect
      rw [Outbox.markAsPublished, Table.find?_update]
      cases hFound : world.outbox.find? id with
      | none => exact .kept
      | some row =>
          rw [Option.map_some]
          split_ifs with hHeld
          · obtain ⟨rfl, hToken⟩ := RealtimeEventOutbox.isHeld_iff.mp hHeld
            exact .published rfl hToken hAllows.1 hAllows.2
          · exact .kept
  | releaseClaim rowId claimToken lastError maxAttempts retryDelayMs maxRetryDelayMs =>
      cases hEffect
      obtain ⟨rfl, rfl, rfl⟩ := hAllows
      rw [Outbox.releaseClaim, Table.find?_update]
      cases hFound : world.outbox.find? id with
      | none => exact .kept
      | some row =>
          rw [Option.map_some]
          split_ifs with hHeld
          · exact .released lastError (RealtimeEventOutbox.isHeld_iff.mp hHeld).2
          · exact .kept
  | pruneExpiredEvents publishedCutoff deadLetterCutoff =>
      cases hEffect
      rw [Outbox.pruneExpiredEvents, Table.find?_delete]
      cases hFound : world.outbox.find? id with
      | none => exact .kept
      | some row =>
          cases hExpired : row.isExpired publishedCutoff deadLetterCutoff with
          | true =>
              rw [Option.filter_some_neg (by simp [hExpired])]
              exact .pruned _ _ hExpired hAllows.1 hAllows.2
          | false =>
              rw [Option.filter_some_pos (by simp [hExpired])]
              exact .kept

end World

/-- An insertion adds rows with their defaults and touches no other. -/
theorem Outbox.find?_insertEvents {outbox outbox' : Outbox} {now : Nat}
    {entries : List RealtimeOutboxEntry} (h : outbox.insertEvents now entries = .ok outbox')
    (id : String) : outbox'.find? id = outbox.find? id ∨ outbox.find? id = none ∧
      ∃ entry, outbox'.find? id = some ⟨entry, 0, none, none, none, none, none, none, now⟩ := by
  induction entries generalizing outbox with
  | nil =>
      cases h
      exact Or.inl rfl
  | cons entry entries ih =>
      rw [insertEvents, List.foldlM_cons] at h
      obtain ⟨middle, hInsert, hRest⟩ := bind_eq_ok.mp h
      have hStep := ih hRest
      unfold insertEntry at hInsert
      split_ifs at hInsert with hNew
      cases hInsert
      rw [Table.find?_insert] at hStep
      split_ifs at hStep with hId
      · subst hId
        obtain hSame | ⟨hNone, _⟩ := hStep
        · exact Or.inr ⟨hNew, entry, hSame⟩
        · cases hNone
      · exact hStep

namespace World

variable {Index : Type} {parse : String → Except Thrown RealtimeDispatchEvent}

/-- Around the dispatchers rows are only inserted. -/
theorem advances_of_outside {world world' : World Index} (h : Outside world world') (id : String) :
    world.Advances none (world.outbox.find? id) (world'.outbox.find? id) := by
  cases h with
  | insertEvents entries insert =>
      rcases Outbox.find?_insertEvents insert id with hSame | ⟨hNone, entry, hNew⟩
      · rw [hSame]
        exact .kept
      · rw [hNone, hNew]
        exact .inserted entry
  | tick milliseconds => exact .kept

/-- Steps that advance every row keep the invariant. -/
theorem Sound.step {world world' : World Index} {actor : Option Index} (h : world.Sound)
    (hAdvances : ∀ id, world.Advances actor (world.outbox.find? id) (world'.outbox.find? id))
    (hNow : world.now ≤ world'.now) (hDistinct : (world'.claims.map Prod.fst).Nodup) :
    world'.Sound where
  rows row hRow := by
    have hStep := hAdvances row.id
    rw [Table.find?_of_mem hRow] at hStep
    exact (hStep.sound fun old hOld => h.rows old (Table.mem_of_find? hOld)).mono hNow
  distinct := hDistinct

/-- What the processes of the realtime outbox rely on, and what they keep. -/
def lifecycle (parse : String → Except Thrown RealtimeDispatchEvent) :
    Discipline (services parse : Services Command Thrown (World Index) Index) where
  Sound := Sound
  Grows := Grows
  Allows := Allows
  refl _ := .refl
  trans := .trans
  effect := by
    intro index Reply command world reply world' hSound hAllows hEffect
    have hAdvances := advances_of_effect hAllows hEffect
    cases command with
    | claimNextBatch batchSize claimTimeoutSeconds =>
        obtain ⟨claimToken, skipped, hFresh, _, rfl⟩ := hEffect
        exact ⟨hSound.step hAdvances le_rfl (List.nodup_cons.mpr ⟨hFresh, hSound.distinct⟩),
          le_rfl, List.subset_cons_self _ _, List.Subset.refl _⟩
    | publishEvent row event =>
        cases hEffect
        exact ⟨hSound.step hAdvances le_rfl hSound.distinct, le_rfl, List.Subset.refl _,
          List.subset_cons_self _ _⟩
    | markAsPublished id claimToken =>
        cases hEffect
        exact ⟨hSound.step hAdvances le_rfl hSound.distinct, .withOutbox⟩
    | releaseClaim id claimToken lastError maxAttempts retryDelayMs maxRetryDelayMs =>
        cases hEffect
        exact ⟨hSound.step hAdvances le_rfl hSound.distinct, .withOutbox⟩
    | pruneExpiredEvents publishedCutoff deadLetterCutoff =>
        cases hEffect
        exact ⟨hSound.step hAdvances le_rfl hSound.distinct, .withOutbox⟩
  outside := by
    intro world world' hSound hOutside
    have hAdvances := advances_of_outside hOutside
    cases hOutside with
    | insertEvents entries insert =>
        exact ⟨hSound.step hAdvances le_rfl hSound.distinct, .withOutbox⟩
    | tick milliseconds =>
        exact ⟨hSound.step hAdvances (Nat.le_add_right ..) hSound.distinct, Nat.le_add_right ..,
          List.Subset.refl _, List.Subset.refl _⟩

section Programs

variable {index : Index} {world : World Index}

open RealtimeOutboxDispatcher

/-- Reading a payload touches nothing. -/
theorem safe_normalizePayload {payload : Payload} :
    (lifecycle parse).Safe index (normalizePayload parse payload) world (fun _ _ => True) := by
  unfold normalizePayload
  split
  · exact fun _ _ _ => trivial
  · split
    · exact fun _ _ _ => trivial
    · exact trivial

/-- A dispatcher marks a row as published only after it has delivered it under its
own claim. -/
theorem safe_dispatchRow {row : ClaimedRealtimeOutboxRow}
    (hDrawn : (row.claimToken, index) ∈ world.claims) :
    (lifecycle parse).Safe index (dispatchRow parse row) world (fun _ _ => True) := by
  have hPublish : ∀ (event : RealtimeDispatchEvent) (now : World Index), world.Grows now →
      (lifecycle parse).Safe index (.perform (.publishEvent row event)) now
        (fun _ later => (row.id, row.claimToken) ∈ later.deliveries) := by
    intro event now hNow
    refine .perform (fun later _ hLater => hLater.claims (hNow.claims hDrawn)) ?_
    intro before reply after last _ _ hEffect _ hLast
    cases hEffect
    exact hLast.deliveries List.mem_cons_self
  have hMark : ∀ now : World Index, world.Grows now →
      (row.id, row.claimToken) ∈ now.deliveries →
      (lifecycle parse).Safe index (.perform (.markAsPublished row.id row.claimToken)) now
        (fun _ _ => True) := by
    intro now hNow hDelivered
    exact .perform (fun later _ hLater =>
      ⟨hLater.claims (hNow.claims hDrawn), hLater.deliveries hDelivered⟩)
      fun _ _ _ _ _ _ _ _ _ => trivial
  refine (Discipline.Safe.attempt (safe_normalizePayload.bind fun event now _ hNow _ =>
    (hPublish event now hNow).bind fun _ later _ hLater hDelivered =>
      hMark later (hNow.trans hLater) hDelivered)).bind ?_
  intro dispatched now _ _ _
  cases dispatched with
  | ok _ => exact fun _ _ _ => trivial
  | error error =>
      have hRelease : (lifecycle parse).Safe index (.perform (.releaseClaim row.id row.claimToken
          (error.message "Unknown dispatch error") realtimeOutboxMaxAttempts
          realtimeOutboxRetryDelayMs realtimeOutboxMaxRetryDelayMs)) now (fun _ _ => True) :=
        .perform (fun _ _ _ => ⟨rfl, rfl, rfl⟩) fun _ _ _ _ _ _ _ _ _ => trivial
      exact (Discipline.Safe.attempt hRelease).bind fun _ _ _ _ _ => fun _ _ _ => trivial

/-- And so it does with each row of a batch. -/
theorem safe_dispatchRows {rows : List ClaimedRealtimeOutboxRow} {hasFailedDispatch : Bool}
    (hDrawn : ∀ row ∈ rows, (row.claimToken, index) ∈ world.claims) :
    (lifecycle parse).Safe index (dispatchRows parse rows hasFailedDispatch) world
      (fun _ _ => True) := by
  induction rows generalizing world hasFailedDispatch with
  | nil => exact fun _ _ _ => trivial
  | cons row rows ih =>
      rw [List.forall_mem_cons] at hDrawn
      refine (safe_dispatchRow hDrawn.1).bind fun failed now _ hNow _ => ih fun other hOther => ?_
      exact hNow.claims (hDrawn.2 other hOther)

/-- And with each batch. -/
theorem safe_dispatchLoop (turns : Nat) :
    (lifecycle parse).Safe index (dispatchLoop parse turns) world (fun _ _ => True) := by
  induction turns generalizing world with
  | zero => exact fun _ _ _ => trivial
  | succ turns ih =>
      have hClaim : (lifecycle parse).Safe index (.perform (.claimNextBatch realtimeOutboxBatchSize
          realtimeOutboxClaimTimeoutSeconds)) world
          (fun rows now => ∀ row ∈ rows, (row.claimToken, index) ∈ now.claims) := by
        refine .perform (fun _ _ _ => trivial) ?_
        intro before rows after last _ _ hEffect _ hLast row hRow
        obtain ⟨claimToken, skipped, _, hRows, rfl⟩ := hEffect
        obtain ⟨old, _, rfl⟩ := List.mem_map.mp (hRows.mem_iff.mp hRow)
        exact hLast.claims List.mem_cons_self
      refine hClaim.bind fun rows now _ _ hDrawn => ?_
      split_ifs
      · exact fun _ _ _ => trivial
      · refine (safe_dispatchRows hDrawn).bind fun hasFailedDispatch later _ _ _ => ?_
        split_ifs
        · exact fun _ _ _ => trivial
        · exact ih

/-- Pruning computes its two cutoffs from the current time, before it deletes. -/
theorem safe_pruneExpiredEvents :
    (lifecycle parse).Safe index (pruneExpiredEvents world.now) world (fun _ _ => True) := by
  refine .perform (fun now _ hNow => ?_) fun _ _ _ _ _ _ _ _ _ => trivial
  have hClock : (world.now : Int) ≤ now.now := Int.ofNat_le.mpr hNow.now
  exact ⟨by omega, by omega⟩

/-- Whatever is started keeps to this lifecycle. -/
theorem safe_spawned {process : Task Unit} (h : Spawns parse world process) :
    (lifecycle parse).Safe index process world (fun _ _ => True) := by
  cases h with
  | dispatcher turns => exact safe_dispatchLoop turns
  | maintenance => exact safe_pruneExpiredEvents

end Programs

/-- What a step may make of a stored row: it is left alone in a final state,
published only by the holder of its claim after a delivery, and paused for
longer after each failure. -/
structure Respects (world : World Index) (actor : Option Index) (row row' : RealtimeEventOutbox) :
    Prop where
  final : row.isFinal → row' = row
  published : row.publishedAt = none → row'.publishedAt.isSome → ∃ index claimToken,
    actor = some index ∧ row.claimToken = some claimToken ∧ (claimToken, index) ∈ world.claims ∧
      (row.id, claimToken) ∈ world.deliveries
  failed : row'.attemptCount ≠ row.attemptCount → row'.attemptCount = row.attemptCount + 1 ∧
    (row'.attemptCount < 10 → row'.nextAttemptAt =
      some (world.now + min (2000 * 2 ^ (row'.attemptCount - 1)) 60000))

/-- What the lifecycle allows is what its description says of a row. -/
theorem Advances.respects {world : World Index} {actor : Option Index}
    {row row' : RealtimeEventOutbox}
    (h : world.Advances actor (some row) (some row')) (hSound : row.Sound world.now) :
    world.Respects actor row row' := by
  cases h with
  | kept =>
      refine ⟨fun _ => rfl, fun hNone hSome => ?_, fun hNe => absurd rfl hNe⟩
      rw [hNone] at hSome
      cases hSome
  | claimed claimToken claimable =>
      rw [RealtimeEventOutbox.isClaimable, Bool.and_eq_true, Bool.and_eq_true, Bool.and_eq_true,
        Option.isNone_iff_eq_none, Option.isNone_iff_eq_none] at claimable
      obtain ⟨⟨⟨hPublished, hDead⟩, _⟩, _⟩ := claimable
      refine ⟨fun hFinal => ?_, fun hNone hSome => ?_, fun hNe => absurd rfl hNe⟩
      · rw [RealtimeEventOutbox.isFinal, hPublished, hDead] at hFinal
        simp at hFinal
      · have hStill : row.publishedAt.isSome := hSome
        rw [hNone] at hStill
        cases hStill
  | published publisher held drawn delivered =>
      refine ⟨fun hFinal => ?_, fun _ _ => ⟨_, _, publisher, held, drawn, delivered⟩,
        fun hNe => absurd rfl hNe⟩
      rw [(hSound.final hFinal).1] at held
      cases held
  | released lastError held =>
      refine ⟨fun hFinal => ?_, fun hNone hSome => ?_, fun _ => ⟨rfl, fun hLess => ?_⟩⟩
      · rw [(hSound.final hFinal).1] at held
        cases held
      · have hStill : row.publishedAt.isSome := hSome
        rw [hNone] at hStill
        cases hStill
      · exact if_neg (not_le.mpr hLess)

/-- A row is only pruned a long time after it was published or dead-lettered. -/
theorem Advances.retention {world : World Index} {actor : Option Index} {row : RealtimeEventOutbox}
    (h : world.Advances actor (some row) none) :
    (∃ time, row.publishedAt = some time ∧
      time + realtimeOutboxPublishedRetentionDays * millisecondsPerDay ≤ world.now) ∨
    ∃ time, row.deadLetteredAt = some time ∧
      time + realtimeOutboxDeadLetterRetentionDays * millisecondsPerDay ≤ world.now := by
  cases h with
  | pruned publishedCutoff deadLetterCutoff expired publishedLong deadLong =>
      rw [RealtimeEventOutbox.isExpired, Bool.or_eq_true, Option.any_eq_true, Option.any_eq_true]
        at expired
      rcases expired with ⟨time, hTime, hCutoff⟩ | ⟨time, hTime, hCutoff⟩
      · have hBefore := of_decide_eq_true hCutoff
        exact Or.inl ⟨time, hTime, by omega⟩
      · have hBefore := of_decide_eq_true hCutoff
        exact Or.inr ⟨time, hTime, by omega⟩

section Runs

variable [DecidableEq Index] {cluster cluster' : Cluster Command Thrown (World Index) Index}
  {actor : Option Index} {start : Nat}

/-- It holds of every cluster that is reached. -/
theorem holds_of_reaches (hRun : (services parse).Reaches (.start (World.start start)) cluster) :
    (lifecycle parse).Holds cluster := by
  have hSound : (World.start start : World Index).Sound :=
    ⟨(fun row hRow => by cases hRow), List.nodup_nil⟩
  have hStart : (lifecycle parse).Holds (.start (World.start start : World Index)) :=
    Discipline.holds_start hSound
  exact hStart.of_reaches (fun _ _ _ _ hSpawns => safe_spawned hSpawns) hRun

/-- Every step advances the row under every id. -/
theorem advances_of_step (hHolds : (lifecycle parse).Holds cluster)
    (hStep : (services parse).Step cluster actor cluster') (id : String) :
    cluster.world.Advances actor (cluster.world.outbox.find? id)
      (cluster'.world.outbox.find? id) := by
  cases hStep with
  | spawn index idle spawns => exact .kept
  | perform index running performs =>
      have hAllows := hHolds.allows running
      cases performs with
      | done hEffect | lost failure hEffect => exact advances_of_effect hAllows hEffect id
      | failed failure => exact .kept
  | stop index => exact .kept
  | outside happens => exact advances_of_outside happens id

/-- The life cycle of the rows, over any interleaving of insertions, claims,
deliveries, late acknowledgements and releases, lost replies, crashes and
maintenance. -/
theorem row_lifecycle (hRun : (services parse).Reaches (.start (World.start start)) cluster) :
    (∀ row ∈ cluster.world.outbox,
      (row.claimedAt = none ↔ row.claimToken = none) ∧
      ¬(row.publishedAt.isSome ∧ row.deadLetteredAt.isSome) ∧
      row.attemptCount ≤ 10 ∧ (row.deadLetteredAt.isSome ↔ row.attemptCount = 10) ∧
      (row.publishedAt.isSome ∨ row.deadLetteredAt.isSome →
        row.claimedAt = none ∧ row.claimToken = none ∧ row.nextAttemptAt = none)) ∧
    (cluster.world.claims.map Prod.fst).Nodup ∧
    ∀ actor cluster', (services parse).Step cluster actor cluster' →
      ∀ row ∈ cluster.world.outbox, match cluster'.world.outbox.find? row.id with
        | some row' => cluster.world.Respects actor row row'
        | none => (∃ time, row.publishedAt = some time ∧
              time + realtimeOutboxPublishedRetentionDays * millisecondsPerDay ≤
                cluster.world.now) ∨
            ∃ time, row.deadLetteredAt = some time ∧
              time + realtimeOutboxDeadLetterRetentionDays * millisecondsPerDay ≤
                cluster.world.now := by
  have hHolds := holds_of_reaches hRun
  have hSound : cluster.world.Sound := hHolds.sound
  refine ⟨fun row hRow => ?_, hSound.distinct, fun actor cluster' hStep row hRow => ?_⟩
  · have hRowSound := hSound.rows row hRow
    refine ⟨hRowSound.claim, ?_, hRowSound.attempts, hRowSound.dead, fun hFinal => ?_⟩
    · rintro ⟨hPublished, hDead⟩
      rcases hRowSound.exclusive with hNone | hNone
      · rw [hNone] at hPublished
        cases hPublished
      · rw [hNone] at hDead
        cases hDead
    · obtain ⟨hToken, hPause⟩ := hRowSound.final hFinal
      exact ⟨hRowSound.claim.mpr hToken, hToken, hPause⟩
  · have hAdvances := advances_of_step hHolds hStep row.id
    rw [Table.find?_of_mem hRow] at hAdvances
    cases hLater : cluster'.world.outbox.find? row.id with
    | none =>
        rw [hLater] at hAdvances
        exact hAdvances.retention
    | some row' =>
        rw [hLater] at hAdvances
        exact hAdvances.respects (hSound.rows row hRow)

end Runs
end World
end ExchangeMatching.Realtime
