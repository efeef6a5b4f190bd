import ExchangeMatching.RealtimeDeadlines
import ExchangeMatching.RealtimeJournal
import Mathlib.Data.Fintype.EquivFin

/-! Recovery of the realtime outbox. Whatever has failed, a dispatcher that is
started again and again publishes each stored event that can be read within a
minute, and within ten minutes gives up those that cannot. -/
namespace ExchangeMatching.Realtime

open Processes

namespace RealtimeEventOutbox

variable {parse : String → Except Thrown RealtimeDispatchEvent} {row : RealtimeEventOutbox}
  {now claimTimeoutSeconds : Nat} {id claimToken : String}

/-- The row after a dispatch that nothing but its payload can fail. -/
def attempted (parse : String → Except Thrown RealtimeDispatchEvent) (now : Nat)
    (row : RealtimeEventOutbox) : RealtimeEventOutbox :=
  match row.payload.read parse with
  | .ok _ => row.published now
  | .error error =>
      row.released now (error.message "Unknown dispatch error") realtimeOutboxMaxAttempts
      realtimeOutboxRetryDelayMs realtimeOutboxMaxRetryDelayMs

/-- An attempt changes neither the id of a row nor its payload. -/
theorem attempted_id : (row.attempted parse now).id = row.id := by
  unfold attempted
  split <;> rfl

theorem attempted_payload : (row.attempted parse now).payload = row.payload := by
  unfold attempted
  split <;> rfl

/-- A claim is no part of what an attempt leaves behind, since the attempt ends it. -/
theorem attempted_claimed :
    (row.claimed now claimToken).attempted parse now = row.attempted parse now := by
  rfl

/-- The event of the row, if it can be read. -/
def event (parse : String → Except Thrown RealtimeDispatchEvent) (row : RealtimeEventOutbox) :
    Option (String × RealtimeDispatchEvent) := (row.payload.read parse).toOption.map (row.id, ·)

/-- The event of a row is read from the payload, so it survives every attempt. -/
theorem event_attempted : (row.attempted parse now).event parse = row.event parse := by
  rw [event, attempted_payload, attempted_id, event]

/-- Whoever attempted a row holds it no more. -/
theorem not_isHeld_attempted : (row.attempted parse now).isHeld id claimToken = false := by
  unfold attempted
  split <;> simp [isHeld, published, released]

/-- What was attempted is not attempted again at the same time. -/
theorem not_isClaimable_attempted :
    (row.attempted parse now).isClaimable now claimTimeoutSeconds = false := by
  unfold attempted
  split
  · simp [isClaimable, published]
  · unfold isClaimable released
    dsimp only
    have hPause : 0 < min (realtimeOutboxRetryDelayMs * 2 ^ row.attemptCount)
      realtimeOutboxMaxRetryDelayMs :=
      lt_min (Nat.mul_pos (by decide) (Nat.two_pow_pos _)) (by decide)
    split_ifs
    · simp
    · have hLater : ¬now + min (realtimeOutboxRetryDelayMs * 2 ^ row.attemptCount)
          realtimeOutboxMaxRetryDelayMs ≤ now := by omega
      simp [hLater]

/-- The row is in no final state. -/
def isOpen (row : RealtimeEventOutbox) : Bool := row.publishedAt.isNone && row.deadLetteredAt.isNone

/-- A row is open until it is published or dead. -/
theorem isOpen_iff : row.isOpen = true ↔ ¬row.isFinal := by
  rw [isOpen, isFinal, not_or, Bool.and_eq_true, Bool.not_eq_true, Bool.not_eq_true,
    Option.isSome_eq_false_iff, Option.isSome_eq_false_iff]

/-- What a dispatcher can know of the times in a row. -/
structure Timely (row : RealtimeEventOutbox) (now : Nat) : Prop where
  claimed : ∀ time ∈ row.claimedAt, time ≤ now
  paused : ∀ time ∈ row.nextAttemptAt, time ≤ now + realtimeOutboxMaxRetryDelayMs

/-- Deadlines that have been set stay within reach as time passes. -/
theorem Timely.mono (h : row.Timely now) {now' : Nat} (hLater : now ≤ now') : row.Timely now' where
  claimed time hTime := (h.claimed time hTime).trans hLater
  paused time hTime := (h.paused time hTime).trans (Nat.add_le_add_right hLater _)

/-- After a minute neither a lease nor a pause hinders a claim. -/
theorem Timely.isClaimable (h : row.Timely now) :
    row.isClaimable (now + realtimeOutboxMaxRetryDelayMs) realtimeOutboxClaimTimeoutSeconds =
      row.isOpen := by
  have hLease : row.claimedAt.all (fun time : Nat => time < now + realtimeOutboxMaxRetryDelayMs -
      realtimeOutboxClaimTimeoutSeconds * 1000) = true := by
    refine (Option.all_eq_true ..).mpr fun time hTime => decide_eq_true ?_
    have hBefore := h.claimed time hTime
    have hShorter : realtimeOutboxClaimTimeoutSeconds * 1000 <
        realtimeOutboxMaxRetryDelayMs := by decide
    omega
  have hPause : row.nextAttemptAt.all
    (fun time : Nat => time ≤ now + realtimeOutboxMaxRetryDelayMs) = true :=
    (Option.all_eq_true ..).mpr fun time hTime => decide_eq_true (h.paused time hTime)
  rw [RealtimeEventOutbox.isClaimable, hLease, hPause, Bool.and_true, Bool.and_true, isOpen]

/-- The row after so many minutes, when it is attempted once a minute. -/
def afterMinutes (parse : String → Except Thrown RealtimeDispatchEvent) (now : Nat)
    (row : RealtimeEventOutbox) : Nat → RealtimeEventOutbox
  | 0 => row
  | minutes + 1 =>
      if (row.afterMinutes parse now minutes).isOpen then
        (row.afterMinutes parse now minutes).attempted parse
          (now + (minutes + 1) * realtimeOutboxMaxRetryDelayMs)
      else row.afterMinutes parse now minutes

variable {minutes : Nat}

/-- The minutes that pass do not change which row it is. -/
theorem afterMinutes_id : (row.afterMinutes parse now minutes).id = row.id := by
  induction minutes with
  | zero => rfl
  | succ minutes ih =>
      rw [afterMinutes]
      split_ifs
      · exact attempted_id.trans ih
      · exact ih

/-- A row that is done is not attempted again. -/
theorem afterMinutes_of_final (h : row.isFinal) : row.afterMinutes parse now minutes = row := by
  induction minutes with
  | zero => rfl
  | succ minutes ih => rw [afterMinutes, ih, if_neg fun hOpen => isOpen_iff.mp hOpen h]

/-- A row that can be read is published by the first pass that finds it due. -/
theorem afterMinutes_of_readable (h : ¬row.isFinal) (hRead : (row.payload.read parse).isOk = true) :
    row.afterMinutes parse now (minutes + 1) =
      row.published (now + realtimeOutboxMaxRetryDelayMs) := by
  induction minutes with
  | zero =>
      rw [afterMinutes, afterMinutes, if_pos (isOpen_iff.mpr h), attempted, zero_add, one_mul]
      split
      · rfl
      · next error hError =>
        rw [hError] at hRead
        cases hRead
  | succ minutes ih =>
      rw [afterMinutes, ih, if_neg]
      simp [isOpen, published]

/-- The tenth failure gives the row up. -/
theorem afterMinutes_of_unreadable (h : row.Sound now) (hOpen : ¬row.isFinal)
    (hRead : (row.payload.read parse).isOk = false) :
    (row.afterMinutes parse now minutes).payload = row.payload ∧
    (row.afterMinutes parse now minutes).publishedAt = none ∧
    if row.attemptCount + minutes < realtimeOutboxMaxAttempts then
      (row.afterMinutes parse now minutes).deadLetteredAt = none ∧
        (row.afterMinutes parse now minutes).attemptCount = row.attemptCount + minutes
    else (row.afterMinutes parse now minutes).deadLetteredAt = some (now +
        (realtimeOutboxMaxAttempts - row.attemptCount) * realtimeOutboxMaxRetryDelayMs) ∧
      (row.afterMinutes parse now minutes).attemptCount = realtimeOutboxMaxAttempts := by
  rw [isFinal, not_or, Bool.not_eq_true, Bool.not_eq_true, Option.isSome_eq_false_iff,
    Option.isSome_eq_false_iff, Option.isNone_iff_eq_none, Option.isNone_iff_eq_none] at hOpen
  obtain ⟨hPublished, hDead⟩ := hOpen
  have hFew : row.attemptCount < realtimeOutboxMaxAttempts := by
    refine lt_of_le_of_ne h.attempts fun hLast => ?_
    have hSome := h.dead.mpr hLast
    rw [hDead] at hSome
    cases hSome
  induction minutes with
  | zero => exact ⟨rfl, hPublished, by rw [add_zero, if_pos hFew]; exact ⟨hDead, rfl⟩⟩
  | succ minutes ih =>
      obtain ⟨hPayload, hUnpublished, hAttempts⟩ := ih
      split_ifs at hAttempts with hBefore
      · obtain ⟨hAlive, hCount⟩ := hAttempts
        have hStill : (row.afterMinutes parse now minutes).isOpen = true := by
          simp [isOpen, hUnpublished, hAlive]
        rw [afterMinutes, if_pos hStill, attempted, hPayload]
        split
        · next event hEvent =>
          rw [hEvent] at hRead
          cases hRead
        · refine ⟨hPayload, hUnpublished, ?_⟩
          simp only [released, hCount]
          split_ifs with hMore hLast
          · omega
          · exact ⟨rfl, by omega⟩
          · refine ⟨?_, by omega⟩
            rw [show realtimeOutboxMaxAttempts - row.attemptCount = minutes + 1 by omega]
          · omega
      · obtain ⟨hGone, hCount⟩ := hAttempts
        have hOver : ¬(row.afterMinutes parse now minutes).isOpen = true := by simp [isOpen, hGone]
        rw [afterMinutes, if_neg hOver, if_neg (by omega)]
        exact ⟨hPayload, hUnpublished, hGone, hCount⟩

/-- After a minute without failures no open row can be read. -/
theorem not_isReadable_afterMinutes (h : row.Sound now)
    (hOpen : (row.afterMinutes parse now (minutes + 1)).isOpen = true) :
    ((row.afterMinutes parse now (minutes + 1)).payload.read parse).isOk = false := by
  by_cases hFinal : row.isFinal
  · rw [afterMinutes_of_final hFinal] at hOpen
    exact absurd hFinal (isOpen_iff.mp hOpen)
  · cases hPayload : (row.payload.read parse).isOk with
    | true =>
        rw [afterMinutes_of_readable hFinal hPayload] at hOpen
        cases hOpen
    | false => rw [(afterMinutes_of_unreadable h hFinal hPayload).1, hPayload]

/-- What becomes of a row within ten minutes: it stays as it is in a final state;
else it is published after a minute, or given up if it cannot be read. -/
structure Settles (parse : String → Except Thrown RealtimeDispatchEvent) (now : Nat)
    (row row' : RealtimeEventOutbox) : Prop where
  final : row.isFinal → row' = row
  published : ¬row.isFinal → (row.payload.read parse).isOk = true →
    row' = row.published (now + realtimeOutboxMaxRetryDelayMs)
  dead : ¬row.isFinal → (row.payload.read parse).isOk = false →
    row'.publishedAt = none ∧ row'.attemptCount = realtimeOutboxMaxAttempts ∧ row'.deadLetteredAt =
      some (now + (realtimeOutboxMaxAttempts - row.attemptCount) * realtimeOutboxMaxRetryDelayMs)

/-- After as many minutes as there are attempts every row is published or dead, as
its payload decides. -/
theorem settles_afterMinutes (h : row.Sound now) :
    row.Settles parse now (row.afterMinutes parse now realtimeOutboxMaxAttempts) where
  final hFinal := afterMinutes_of_final hFinal
  published hOpen hRead := afterMinutes_of_readable hOpen hRead
  dead hOpen hRead := by
    obtain ⟨_, hPublished, hAttempts⟩ :=
      @afterMinutes_of_unreadable parse row now realtimeOutboxMaxAttempts h hOpen hRead
    rw [if_neg (by omega)] at hAttempts
    exact ⟨hPublished, hAttempts.2, hAttempts.1⟩

end RealtimeEventOutbox

namespace Outbox

variable {parse : String → Except Thrown RealtimeDispatchEvent} {outbox : Outbox} {now : Nat}
  {claimToken : String} {ids : List String}

/-- Some rows are attempted. -/
def attempt (outbox : Outbox) (parse : String → Except Thrown RealtimeDispatchEvent) (now : Nat)
    (p : RealtimeEventOutbox → Bool) : Outbox :=
  outbox.update p (·.attempted parse now) fun _ => RealtimeEventOutbox.attempted_id

/-- An attempt on a batch changes each row of the batch by itself. -/
theorem rows_attempt {p : RealtimeEventOutbox → Bool} : (outbox.attempt parse now p).rows =
    outbox.rows.map fun row => if p row then row.attempted parse now else row := rfl

/-- Each row afterwards comes from one before, attempted if it was in the batch. -/
theorem mem_attempt {p : RealtimeEventOutbox → Bool} {row : RealtimeEventOutbox} :
    row ∈ outbox.attempt parse now p ↔
    ∃ old ∈ outbox, row = if p old then old.attempted parse now else old :=
  Table.mem_update

/-- The events among some rows, as far as they can be read. -/
def readable (outbox : Outbox) (parse : String → Except Thrown RealtimeDispatchEvent)
    (p : RealtimeEventOutbox → Bool) : List (String × RealtimeDispatchEvent) :=
  (outbox.rows.filter p).filterMap (·.event parse)

/-- When a claim is dispatched to the end, the rows that it selected were attempted. -/
theorem attempt_claim :
    (outbox.claim now claimToken ids).attempt parse now (fun row =>
      (outbox.claimedRows claimToken ids).any fun claimed =>
        row.isHeld claimed.id claimed.claimToken) =
    outbox.attempt parse now (·.id ∈ ids) := by
  refine Table.ext ((List.map_map ..).trans (List.map_congr_left fun row hRow => ?_))
  rw [Function.comp_apply]
  by_cases hSelected : row.id ∈ ids
  · have hHeld : (outbox.claimedRows claimToken ids).any fun claimed =>
        (row.claimed now claimToken).isHeld claimed.id claimed.claimToken := by
      refine List.any_eq_true.mpr ⟨⟨row.id, claimToken, row.payload⟩, ?_,
        RealtimeEventOutbox.isHeld_iff.mpr ⟨rfl, rfl⟩⟩
      exact List.mem_map_of_mem (List.mem_filter.mpr ⟨hRow, decide_eq_true hSelected⟩)
    simp only [hSelected, decide_true, if_true, hHeld, RealtimeEventOutbox.attempted_claimed]
  · have hHeld : ¬((outbox.claimedRows claimToken ids).any fun claimed =>
        row.isHeld claimed.id claimed.claimToken) = true := by
      intro hHeld
      obtain ⟨claimed, hClaimed, hHolds⟩ := List.any_eq_true.mp hHeld
      obtain ⟨other, hOther, rfl⟩ := List.mem_map.mp hClaimed
      refine hSelected ?_
      rw [(RealtimeEventOutbox.isHeld_iff.mp hHolds).1]
      exact of_decide_eq_true (List.mem_filter.mp hOther).2
    simp only [hSelected, decide_false, if_false, hHeld, Bool.false_eq_true]

/-- What remains to be attempted is attempted afterwards. -/
theorem attempt_attempt {p q : RealtimeEventOutbox → Bool}
    (h : ∀ row : RealtimeEventOutbox, q (row.attempted parse now) = false) :
    (outbox.attempt parse now p).attempt parse now q = outbox.attempt parse now fun row =>
      p row || q row :=
  Table.update_update h

/-- Which rows are attempted depends only on the rows that there are. -/
theorem attempt_congr {p q : RealtimeEventOutbox → Bool} (h : ∀ row ∈ outbox, p row = q row) :
    outbox.attempt parse now p = outbox.attempt parse now q :=
  Table.update_congr h fun _ _ _ => rfl

/-- With nothing to attempt the outbox stays as it is. -/
theorem attempt_of_none {p : RealtimeEventOutbox → Bool} (h : ∀ row ∈ outbox, p row = false) :
    outbox.attempt parse now p = outbox := by
  refine Table.ext ((List.map_congr_left fun row hRow => ?_).trans (List.map_id _))
  exact if_neg fun hSelected => Bool.false_ne_true ((h row hRow).symm.trans hSelected)

/-- An attempt leaves fewer rows to be attempted. -/
theorem length_filter_attempt_lt {p q : RealtimeEventOutbox → Bool} {row : RealtimeEventOutbox}
    (h : ∀ row : RealtimeEventOutbox, q (row.attempted parse now) = false) (hRow : row ∈ outbox)
    (hFirst : p row = true) (hSecond : q row = true) :
    ((outbox.attempt parse now p).rows.filter q).length < (outbox.rows.filter q).length := by
  have hRest : ((outbox.attempt parse now p).rows.filter q).length =
      ((outbox.rows.filter q).filter (!p ·)).length := by
    simp only [attempt, Table.update, List.filter_map, List.length_map, List.filter_filter]
    refine congrArg List.length (List.filter_congr fun row _ => ?_)
    rw [Function.comp_apply]
    cases hSelected : p row with
    | true => simp [h]
    | false => simp
  rw [hRest]
  exact List.length_filter_lt_length_iff_exists.mpr
    ⟨row, List.mem_filter.mpr ⟨hRow, hSecond⟩, by simp [hFirst]⟩

/-- The rows that can be read are those of the first and those of the second attempt. -/
theorem readable_perm {p q : RealtimeEventOutbox → Bool}
    (h : ∀ row : RealtimeEventOutbox, q (row.attempted parse now) = false)
    (hImp : ∀ row ∈ outbox, p row = true → q row = true) :
    List.Perm (outbox.readable parse q)
      ((outbox.attempt parse now p).readable parse q ++ outbox.readable parse p) := by
  have hFirst : (outbox.rows.filter q).filter p = outbox.rows.filter p := by
    rw [List.filter_filter]
    refine List.filter_congr fun row hRow => ?_
    cases hSelected : p row with
    | true => rw [hImp row hRow hSelected, Bool.true_and]
    | false => rw [Bool.false_and]
  have hEvent : (RealtimeEventOutbox.event parse) ∘
      (fun row => if p row then row.attempted parse now else row) =
      RealtimeEventOutbox.event parse := by
    funext row
    rw [Function.comp_apply]
    split_ifs
    · exact RealtimeEventOutbox.event_attempted
    · rfl
  have hSecond : (outbox.attempt parse now p).readable parse q =
      ((outbox.rows.filter q).filter (!p ·)).filterMap (·.event parse) := by
    rw [readable, rows_attempt, List.filter_map, List.filterMap_map, hEvent, List.filter_filter]
    refine congrArg (List.filterMap _) (List.filter_congr fun row _ => ?_)
    rw [Function.comp_apply]
    cases hSelected : p row with
    | true => simp [h]
    | false => simp
  rw [hSecond, readable, readable, ← hFirst, ← List.filterMap_append]
  exact ((List.perm_append_comm.trans (List.filter_append_perm p _)).symm).filterMap _

/-- And so do the events that are published. -/
theorem readable_congr {p q : RealtimeEventOutbox → Bool} (h : ∀ row ∈ outbox, p row = q row) :
    outbox.readable parse p = outbox.readable parse q :=
  congrArg (List.filterMap _) (List.filter_congr h)

/-- Rows that cannot be read publish nothing. -/
theorem readable_eq_nil {p : RealtimeEventOutbox → Bool}
    (h : ∀ row ∈ outbox, p row = true → (row.payload.read parse).isOk = false) :
    outbox.readable parse p = [] := by
  refine List.filterMap_eq_nil_iff.mpr fun row hRow => ?_
  obtain ⟨hMem, hSelected⟩ := List.mem_filter.mp hRow
  have hFailed := h row hMem hSelected
  rw [RealtimeEventOutbox.event]
  cases hRead : row.payload.read parse with
  | ok event =>
      rw [hRead] at hFailed
      cases hFailed
  | error error => rfl

/-- Unless no row is claimable, a claim selects one. -/
theorem exists_claimable {batchSize claimTimeoutSeconds : Nat} {row : RealtimeEventOutbox}
    (hSize : batchSize ≠ 0) (hRow : row ∈ outbox)
    (hClaimable : row.isClaimable now claimTimeoutSeconds = true) :
    ∃ other ∈ outbox.rows, other.id ∈ outbox.claimable now batchSize claimTimeoutSeconds [] := by
  have hSome : (((outbox.rows.filter fun row => row.isClaimable now claimTimeoutSeconds &&
      row.id ∉ ([] : List String)).insertionSort (·.createdAt ≤ ·.createdAt)).take batchSize) ≠
        [] := by
    rw [ne_eq, List.take_eq_nil_iff, not_or]
    refine ⟨hSize, List.ne_nil_of_mem
      ((List.mem_insertionSort _).mpr (List.mem_filter.mpr ⟨hRow, ?_⟩))⟩
    rw [hClaimable, Bool.true_and]
    exact decide_eq_true List.not_mem_nil
  obtain ⟨other, hOther⟩ := List.exists_mem_of_ne_nil _ hSome
  have hSorted := (List.mem_insertionSort _).mp (List.mem_of_mem_take hOther)
  exact ⟨other, (List.mem_filter.mp hSorted).1, List.mem_map_of_mem hOther⟩

end Outbox

namespace World

variable {Index : Type} {parse : String → Except Thrown RealtimeDispatchEvent}

section Timely

variable {world world' : World Index} {actor : Option Index}

/-- Each way in which a row advances sets its deadline within the largest delay. -/
theorem Advances.timely {stored : Option RealtimeEventOutbox} {row' : RealtimeEventOutbox}
    (h : world.Advances actor stored (some row')) (hTimely : ∀ row ∈ stored, row.Timely world.now) :
    row'.Timely world.now := by
  cases h with
  | kept => exact hTimely row' rfl
  | inserted entry => exact ⟨(fun _ hNone => by cases hNone), (fun _ hNone => by cases hNone)⟩
  | claimed claimToken claimable =>
      refine ⟨fun time hTime => ?_, (hTimely _ rfl).paused⟩
      cases hTime
      exact le_rfl
  | published publisher held drawn delivered =>
      exact ⟨(fun _ hNone => by cases hNone), (fun _ hNone => by cases hNone)⟩
  | released lastError held =>
      refine ⟨(fun _ hNone => by cases hNone), fun time hTime => ?_⟩
      simp only [RealtimeEventOutbox.released] at hTime
      split_ifs at hTime
      · cases hTime
      · cases hTime
        exact Nat.add_le_add_left (min_le_right _ _) _

variable [DecidableEq Index] {cluster : Cluster Command Thrown (World Index) Index} {start : Nat}

/-- So over a whole run no deadline is ever further away than that. -/
theorem timely_of_reaches (hRun : (services parse).Reaches (.start (World.start start)) cluster) :
    ∀ row ∈ cluster.world.outbox, row.Timely cluster.world.now := by
  induction hRun with
  | refl => exact fun row hRow => by cases hRow
  | @tail middle last hBefore hStep ih =>
      obtain ⟨actor, hStep⟩ := hStep
      have hHolds := holds_of_reaches hBefore
      have hGrows : middle.world.Grows last.world :=
        (hHolds.step (fun _ _ _ _ hSpawns => safe_spawned hSpawns) hStep).2
      intro row hRow
      have hAdvances := advances_of_step hHolds hStep row.id
      rw [Table.find?_of_mem hRow] at hAdvances
      exact (hAdvances.timely fun old hOld => ih old (Table.mem_of_find? hOld)).mono hGrows.now

end Timely

end World

namespace Journal

variable {Index : Type} {parse : String → Except Thrown RealtimeDispatchEvent} {index : Index}

/-- Time goes on, and nothing else happens. -/
def Ticks (journal journal' : Journal Index) : Prop :=
  ∃ milliseconds, journal' = { journal with now := journal.now + milliseconds }

open RealtimeOutboxDispatcher

/-- What is published of a claimed row. -/
def publication (parse : String → Except Thrown RealtimeDispatchEvent)
    (row : ClaimedRealtimeOutboxRow) : Option (ClaimedRealtimeOutboxRow × RealtimeDispatchEvent) :=
  (row.payload.read parse).toOption.map (row, ·)

/-- Dispatching a claimed row attempts the one that is stored. -/
theorem succeeds_dispatchRow (journal : Journal Index) {row : ClaimedRealtimeOutboxRow}
    (hStored : ∀ stored ∈ journal.outbox, stored.isHeld row.id row.claimToken = true →
      stored.payload = row.payload) :
    ∃ failed deliveries, (services parse).Succeeds index (dispatchRow parse row) journal failed
      { journal with
        outbox := journal.outbox.attempt parse journal.now (·.isHeld row.id row.claimToken)
        deliveries := deliveries
        published := journal.published ++ [row].filterMap (publication parse) } := by
  unfold dispatchRow
  rw [normalizePayload_of_read]
  cases hRead : row.payload.read parse with
  | ok event =>
      have hOutbox : journal.outbox.attempt parse journal.now (·.isHeld row.id row.claimToken) =
          journal.outbox.markAsPublished journal.now row.id row.claimToken := by
        refine Table.update_congr (fun _ _ => rfl) fun stored hMem hHeld => ?_
        rw [RealtimeEventOutbox.attempted, hStored stored hMem hHeld, hRead]
      have hSent : [row].filterMap (publication parse) = [(row, event)] := by
        simp [publication, hRead, Except.toOption]
      rw [hOutbox, hSent]
      let published : Journal Index := { journal with
        deliveries := (row.id, row.claimToken) :: journal.deliveries
        published := journal.published ++ [(row, event)] }
      have hPublished : (services parse).Succeeds index
          (.perform (.publishEvent row event) : Task Unit)
          journal () published := .perform ⟨rfl, rfl, rfl⟩
      have hMarked : (services parse).Succeeds index
          (.perform (.markAsPublished row.id row.claimToken) : Task Unit) published ()
          { published with
            outbox := journal.outbox.markAsPublished journal.now row.id row.claimToken } :=
        .perform ⟨rfl, rfl, (List.append_nil _).symm⟩
      exact ⟨false, _, .bind (.attempt (.bind .pure (hPublished.bind hMarked))) .pure⟩
  | error error =>
      have hOutbox : journal.outbox.attempt parse journal.now (·.isHeld row.id row.claimToken) =
          journal.outbox.releaseClaim journal.now row.id row.claimToken
            (error.message "Unknown dispatch error") realtimeOutboxMaxAttempts
              realtimeOutboxRetryDelayMs
            realtimeOutboxMaxRetryDelayMs := by
        refine Table.update_congr (fun _ _ => rfl) fun stored hMem hHeld => ?_
        rw [RealtimeEventOutbox.attempted, hStored stored hMem hHeld, hRead]
      have hSent : [row].filterMap (publication parse) = [] := by
        simp [publication, hRead, Except.toOption]
      rw [hOutbox, hSent, List.append_nil]
      have hThrown : (services parse).Succeeds index
          (.pure (.error error) : Task (Except Thrown Unit)) journal (.error error) journal := .pure
      have hReleased : (services parse).Succeeds index
          (.perform (.releaseClaim row.id row.claimToken
          (error.message "Unknown dispatch error") realtimeOutboxMaxAttempts
            realtimeOutboxRetryDelayMs
          realtimeOutboxMaxRetryDelayMs) : Task Unit) journal () { journal with
            outbox := journal.outbox.releaseClaim journal.now row.id row.claimToken
              (error.message "Unknown dispatch error") realtimeOutboxMaxAttempts
                realtimeOutboxRetryDelayMs
              realtimeOutboxMaxRetryDelayMs } := .perform ⟨rfl, rfl, (List.append_nil _).symm⟩
      exact ⟨true, journal.deliveries, .bind hThrown (.bind (.attempt hReleased) .pure)⟩

/-- A batch can be worked through without a failure of the database or the channel. -/
theorem succeeds_dispatchRows (journal : Journal Index) {rows : List ClaimedRealtimeOutboxRow}
    (hStored : ∀ row ∈ rows, ∀ stored ∈ journal.outbox, stored.isHeld row.id row.claimToken =
      true → stored.payload = row.payload) (hasFailedDispatch : Bool) :
    ∃ failed deliveries, (services parse).Succeeds index (dispatchRows parse rows hasFailedDispatch)
      journal failed { journal with
        outbox := journal.outbox.attempt parse journal.now fun stored =>
          rows.any fun row => stored.isHeld row.id row.claimToken
        deliveries := deliveries
        published := journal.published ++ rows.filterMap (publication parse) } := by
  induction rows generalizing journal hasFailedDispatch with
  | nil =>
      rw [Outbox.attempt_of_none fun stored _ => List.any_nil, List.filterMap_nil, List.append_nil]
      exact ⟨hasFailedDispatch, journal.deliveries, .pure⟩
  | cons row rows ih =>
      rw [List.forall_mem_cons] at hStored
      obtain ⟨failed, deliveries, hFirst⟩ :=
        @succeeds_dispatchRow Index parse index journal row hStored.1
      obtain ⟨last, later, hRest⟩ := ih
        { journal with
          outbox := journal.outbox.attempt parse journal.now (·.isHeld row.id row.claimToken)
          deliveries := deliveries
          published := journal.published ++ [row].filterMap (publication parse) }
        (fun other hOther stored hMem hHeld => by
          obtain ⟨old, hOld, rfl⟩ := Outbox.mem_attempt.mp hMem
          split_ifs at hHeld ⊢ with hTaken
          · rw [RealtimeEventOutbox.not_isHeld_attempted] at hHeld
            cases hHeld
          · exact hStored.2 other hOther old hOld hHeld) (hasFailedDispatch || failed)
      refine ⟨last, later, hFirst.bind ?_⟩
      dsimp only at hRest
      rw [Outbox.attempt_attempt fun stored => List.any_eq_false.mpr fun other _ => by
        rw [RealtimeEventOutbox.not_isHeld_attempted]; exact Bool.false_ne_true,
        List.append_assoc, ← List.filterMap_append] at hRest
      exact hRest

/-- At one moment some rows are attempted, and the events among them that can be
read are published, once each. -/
structure Attempts (parse : String → Except Thrown RealtimeDispatchEvent)
    (p : RealtimeEventOutbox → Bool) (journal journal' : Journal Index) : Prop where
  now : journal'.now = journal.now
  outbox : journal'.outbox = journal.outbox.attempt parse journal.now p
  inserted : journal'.inserted = journal.inserted
  published : ∃ sent, journal'.published = journal.published ++ sent ∧
    (sent.map fun entry => (entry.1.id, entry.2)).Perm (journal.outbox.readable parse p)

/-- What a batch publishes are the events of its readable rows. -/
theorem event_of_publication {ids : List String} {outbox : Outbox} {claimToken : String} :
    ((outbox.claimedRows claimToken ids).filterMap (publication parse)).map
        (fun entry => (entry.1.id, entry.2)) = outbox.readable parse (·.id ∈ ids) := by
  rw [Outbox.claimedRows, List.filterMap_map, List.map_filterMap, Outbox.readable]
  refine List.filterMap_congr fun row _ => ?_
  simp only [Function.comp_apply, publication, RealtimeEventOutbox.event, Option.map_map]
  rfl

/-- A dispatcher attempts the rows that it claims. -/
theorem exists_turn (journal : Journal Index)
    (hSome : ∃ row ∈ journal.outbox.rows, row.id ∈ journal.outbox.claimable journal.now
      realtimeOutboxBatchSize realtimeOutboxClaimTimeoutSeconds []) :
    ∃ journal', (services parse).Turn Ticks index journal journal' ∧
      Attempts parse (·.id ∈ journal.outbox.claimable journal.now realtimeOutboxBatchSize
        realtimeOutboxClaimTimeoutSeconds []) journal journal' := by
  generalize hIds : journal.outbox.claimable journal.now realtimeOutboxBatchSize
    realtimeOutboxClaimTimeoutSeconds [] = ids at hSome ⊢
  obtain ⟨claimToken, hFresh⟩ :=
    Infinite.exists_notMem_finset (journal.claims.map Prod.fst).toFinset
  rw [List.mem_toFinset] at hFresh
  let claimed : Journal Index := { journal with
    outbox := journal.outbox.claim journal.now claimToken ids
    claims := (claimToken, index) :: journal.claims }
  have hClaim : (services parse).Succeeds index (.perform (.claimNextBatch realtimeOutboxBatchSize
      realtimeOutboxClaimTimeoutSeconds) : Task _) journal
        (journal.outbox.claimedRows claimToken ids)
      claimed :=
    .perform
      ⟨⟨claimToken, [], hFresh, by rw [hIds], by rw [hIds]⟩, rfl, (List.append_nil _).symm⟩
  obtain ⟨failed, deliveries, hRows⟩ := @succeeds_dispatchRows Index parse index claimed _
    (fun _ hRow _ => Outbox.payload_of_claimed hRow) false
  obtain ⟨row, hRow, hSelected⟩ := hSome
  have hLength : (journal.outbox.claimedRows claimToken ids).length ≠ 0 :=
    List.length_eq_zero_iff.not.mpr (List.ne_nil_of_mem (List.mem_map_of_mem
      (List.mem_filter.mpr ⟨hRow, decide_eq_true hSelected⟩)))
  have hEnd : ∀ last, (services parse).Succeeds index
      (if failed = true then return () else dispatchLoop parse 0) last () last := by
    intro last
    cases failed with
    | true => exact .pure
    | false => exact .pure
  have hLoop : ∀ last, (services parse).Succeeds index
      (dispatchRows parse (journal.outbox.claimedRows claimToken ids) false) claimed failed last →
      (services parse).Succeeds index (dispatchLoop parse 1) journal () last := by
    intro last hDispatched
    refine .bind hClaim ?_
    rw [if_neg hLength]
    exact hDispatched.bind (hEnd last)
  exact ⟨_, .complete (.dispatcher 1) (hLoop _ hRows), rfl, Outbox.attempt_claim, rfl,
    (journal.outbox.claimedRows claimToken ids).filterMap (publication parse), rfl,
    .of_eq event_of_publication⟩

/-- Dispatchers that are started again and again attempt all claimable rows at
one moment. -/
theorem exists_attempted (journal : Journal Index) :
    ∃ journal', (services parse).Repairs Ticks index journal journal' ∧
      Attempts parse (·.isClaimable journal.now realtimeOutboxClaimTimeoutSeconds) journal
        journal' := by
  generalize hCount : (journal.outbox.rows.filter
    (·.isClaimable journal.now realtimeOutboxClaimTimeoutSeconds)).length = count
  induction count using Nat.strong_induction_on generalizing journal with
  | _ count ih =>
    by_cases hNone : ∀ row ∈ journal.outbox,
        row.isClaimable journal.now realtimeOutboxClaimTimeoutSeconds = false
    · refine ⟨journal, .refl, rfl, (Outbox.attempt_of_none hNone).symm, rfl, [],
        (List.append_nil _).symm, ?_⟩
      rw [Outbox.readable_eq_nil fun row hRow hSelected => ?_, List.map_nil]
      rw [hNone row hRow] at hSelected
      cases hSelected
    push Not at hNone
    obtain ⟨row, hRow, hClaimable⟩ := hNone
    rw [ne_eq, Bool.not_eq_false] at hClaimable
    have hSize : realtimeOutboxBatchSize ≠ 0 := by decide
    obtain ⟨other, hOther, hSelected⟩ := Outbox.exists_claimable hSize hRow hClaimable
    obtain ⟨middle, hTurn, hFirst⟩ :=
      @exists_turn Index parse index journal ⟨other, hOther, hSelected⟩
    have hFewer : (middle.outbox.rows.filter
        (·.isClaimable middle.now realtimeOutboxClaimTimeoutSeconds)).length < count := by
      rw [hFirst.now, hFirst.outbox, ← hCount]
      exact Outbox.length_filter_attempt_lt (fun _ => RealtimeEventOutbox.not_isClaimable_attempted)
        hOther (decide_eq_true hSelected) (Outbox.isClaimable_of_mem hOther hSelected)
    obtain ⟨last, hRepairs, hSecond⟩ := ih _ hFewer middle rfl
    refine ⟨last, hRepairs.head hTurn, hSecond.now.trans hFirst.now, ?_,
      hSecond.inserted.trans hFirst.inserted, ?_⟩
    · rw [hSecond.outbox, hFirst.now, hFirst.outbox, Outbox.attempt_attempt fun _ =>
        RealtimeEventOutbox.not_isClaimable_attempted]
      refine Outbox.attempt_congr fun row hRow => ?_
      rw [Bool.or_eq_right_iff_imp]
      exact fun hSelected => Outbox.isClaimable_of_mem hRow (of_decide_eq_true hSelected)
    · obtain ⟨later, hLater, hRest⟩ := hSecond.published
      obtain ⟨sent, hSent, hPublished⟩ := hFirst.published
      refine ⟨sent ++ later, by rw [hLater, hSent, List.append_assoc], ?_⟩
      rw [hFirst.now, hFirst.outbox] at hRest
      rw [List.map_append]
      refine (List.perm_append_comm.trans (hRest.append hPublished)).trans (Outbox.readable_perm
        (fun _ => RealtimeEventOutbox.not_isClaimable_attempted) fun row hRow hSelected => ?_).symm
      exact Outbox.isClaimable_of_mem hRow (of_decide_eq_true hSelected)

section Recovery

variable [DecidableEq Index] {cluster : Cluster Command Thrown (Journal Index) Index} {start : Nat}

/-- Every journal that is reached is sound. -/
theorem sound_of_reaches (hRun : (services parse).Reaches (.start (Journal.start start)) cluster) :
    cluster.world.Sound := (World.holds_of_reaches (reaches_world hRun)).sound

/-- Dispatchers are started again and again, once a minute. -/
theorem exists_afterMinutes (hRun : (services parse).Reaches (.start (Journal.start start)) cluster)
    (index : Index) (minutes : Nat) :
    ∃ journal', (services parse).Repairs Ticks index cluster.world journal' ∧
      journal'.now = cluster.world.now + minutes * realtimeOutboxMaxRetryDelayMs ∧
      journal'.outbox.rows = cluster.world.outbox.rows.map
        (·.afterMinutes parse cluster.world.now minutes) ∧
      journal'.inserted = cluster.world.inserted ∧
      ∃ sent, journal'.published = cluster.world.published ++ sent ∧
        (sent.map fun entry => (entry.1.id, entry.2)).Perm
          (if minutes = 0 then [] else cluster.world.outbox.readable parse (·.isOpen)) := by
  have hSound := sound_of_reaches hRun
  induction minutes with
  | zero =>
      exact ⟨cluster.world, .refl, by rw [zero_mul, add_zero], (List.map_id _).symm, rfl, [],
        (List.append_nil _).symm, .nil⟩
  | succ minutes ih =>
      obtain ⟨before, hRepairs, hNow, hRows, hInserted, earlier, hEarlier, hPublished⟩ := ih
      let middle : Journal Index :=
        { before with now := before.now + realtimeOutboxMaxRetryDelayMs }
      have hTick : (services parse).Turn Ticks index before middle := .outside (.tick _) ⟨_, rfl⟩
      obtain ⟨last, hAttempted, hAll⟩ := @exists_attempted Index parse index middle
      have hOpen : ∀ row ∈ before.outbox,
          row.isClaimable middle.now realtimeOutboxClaimTimeoutSeconds = row.isOpen := by
        have hBefore := World.timely_of_reaches (reaches_world (hRun.trans hRepairs.reaches))
        exact fun row hRow => (hBefore row hRow).isClaimable
      have hLater : middle.now =
          cluster.world.now + (minutes + 1) * realtimeOutboxMaxRetryDelayMs := by
        rw [Nat.succ_mul, ← Nat.add_assoc, ← hNow]
      obtain ⟨later, hSent, hPerm⟩ := hAll.published
      refine ⟨last, (hRepairs.tail hTick).trans hAttempted, hAll.now.trans hLater, ?_,
        hAll.inserted.trans hInserted, earlier ++ later, ?_, ?_⟩
      · rw [hAll.outbox, Outbox.attempt_congr hOpen, Outbox.rows_attempt, hLater, hRows,
          List.map_map]
        rfl
      · rw [hSent, ← List.append_assoc, ← hEarlier]
      · rw [Outbox.readable_congr hOpen] at hPerm
        rw [if_neg (Nat.succ_ne_zero _), List.map_append]
        cases minutes with
        | zero =>
            rw [if_pos rfl] at hPublished
            have hSame : before.outbox.rows = cluster.world.outbox.rows :=
              hRows.trans (List.map_id _)
            rw [Outbox.readable, hSame] at hPerm
            rw [hPublished.eq_nil, List.nil_append]
            exact hPerm
        | succ minutes =>
            rw [if_neg (Nat.succ_ne_zero _)] at hPublished
            have hNone : before.outbox.readable parse (·.isOpen) = [] := by
              refine Outbox.readable_eq_nil fun row hRow hStill => ?_
              rw [Table.mem_def, hRows] at hRow
              obtain ⟨old, hOld, rfl⟩ := List.mem_map.mp hRow
              exact RealtimeEventOutbox.not_isReadable_afterMinutes (hSound.rows old hOld) hStill
            rw [hNone] at hPerm
            rw [hPerm.eq_nil, List.append_nil]
            exact hPublished

omit [DecidableEq Index] in
/-- A row that is somewhere in the outbox is settled in the outbox of the end. -/
theorem exists_settled {journal journal' : Journal Index} (hSound : journal.Sound)
    (hRows : journal'.outbox.rows = journal.outbox.rows.map
      (·.afterMinutes parse journal.now realtimeOutboxMaxAttempts))
    {row : RealtimeEventOutbox} (hRow : row ∈ journal.outbox) :
    ∃ row', journal'.outbox.find? row.id = some row' ∧ row.Settles parse journal.now row' := by
  have hMem : row.afterMinutes parse journal.now realtimeOutboxMaxAttempts ∈ journal'.outbox := by
    rw [Table.mem_def, hRows]
    exact List.mem_map_of_mem hRow
  have hFound : journal'.outbox.find?
      (row.afterMinutes parse journal.now realtimeOutboxMaxAttempts).id = some _ :=
    Table.find?_of_mem hMem
  rw [RealtimeEventOutbox.afterMinutes_id] at hFound
  exact ⟨_, hFound, RealtimeEventOutbox.settles_afterMinutes (hSound.rows row hRow)⟩

/-- No stored event is stuck. Whatever has failed, crashed or hung, there is a
schedule of one dispatcher, started again and again with nothing failing, that
publishes every event that can be read a minute later, once each, and gives up
the others within ten minutes. -/
theorem events_recoverable (hRun : (services parse).Reaches (.start (Journal.start start)) cluster)
    (index : Index) :
    ∃ journal' sent, (services parse).Repairs Ticks index cluster.world journal' ∧
      (services parse).Reaches cluster { cluster.put index none with world := journal' } ∧
      journal'.now = cluster.world.now + realtimeOutboxMaxAttempts * realtimeOutboxMaxRetryDelayMs ∧
      journal'.outbox.rows.map (·.id) = cluster.world.outbox.rows.map (·.id) ∧
      (∀ row ∈ cluster.world.outbox, ∃ row', journal'.outbox.find? row.id = some row' ∧
        row.Settles parse cluster.world.now row') ∧
      journal'.published = cluster.world.published ++ sent ∧
      (sent.map fun entry => (entry.1.id, entry.2)).Perm
        (cluster.world.outbox.readable parse (·.isOpen)) := by
  obtain ⟨journal', hRepairs, hNow, hRows, _, sent, hSent, hPublished⟩ :=
    exists_afterMinutes hRun index realtimeOutboxMaxAttempts
  refine ⟨journal', sent, hRepairs, hRepairs.reaches, hNow, ?_, ?_, hSent, hPublished⟩
  · rw [hRows, List.map_map]
    exact List.map_congr_left fun row _ => RealtimeEventOutbox.afterMinutes_id
  · exact fun row hRow => exists_settled (sound_of_reaches hRun) hRows hRow

end Recovery

end Journal

namespace Sample

/-- Two events, one of which cannot be read. -/
def mixedEntries : List RealtimeOutboxEntry := entries ["0"] ++ [⟨"1", "market.changed", .text ""⟩]

def mixed : Outbox :=
  match Outbox.insertEvents .empty 0 mixedEntries with
  | .ok outbox => outbox
  | .error _ => .empty

def recorded : Journal Bool := { outbox := mixed, now := 0, claims := [], deliveries := [],
                                 inserted := mixedEntries, published := [] }

/-- A dispatcher has claimed both, and then crashed. -/
def crashed : Journal Bool := { recorded with toWorld := claimed recorded.toWorld true "claim" }

def pending (id : String) (payload : Payload) : RealtimeEventOutbox :=
  ⟨⟨id, "market.changed", payload⟩, 0, some "claim", some 0, none, none, none, none, 0⟩

/-- What the outbox of the sample holds when its dispatcher has crashed. -/
theorem rows_crashed :
    crashed.outbox.rows = [pending "0" (.object event), pending "1" (.text "")] := by decide +kernel

/-- The two rows are recorded by the calls that are around the dispatcher. -/
theorem reaches_recorded (parse : String → Except Thrown RealtimeDispatchEvent) :
    (Journal.services parse).Reaches (.start (Journal.start 0 : Journal Bool))
      ⟨recorded, fun _ => none⟩ := by
  have hInsert : Outbox.insertEvents .empty 0 mixedEntries = .ok mixed := rfl
  exact Services.Reaches.outside .refl (Journal.Outside.insertEvents mixedEntries hInsert)

/-- Then a dispatcher is started that dies as soon as it has claimed them. -/
theorem reaches_crashed (parse : String → Except Thrown RealtimeDispatchEvent) :
    ∃ cluster, (Journal.services parse).Reaches (.start (Journal.start 0 : Journal Bool)) cluster ∧
      cluster.world = crashed := by
  have hClaim := @effect_claimed recorded.toWorld true "claim" List.not_mem_nil
  have hEffect : Journal.Effect true (.claimNextBatch realtimeOutboxBatchSize
      realtimeOutboxClaimTimeoutSeconds) recorded (claimedRows recorded.toWorld "claim") crashed :=
    ⟨hClaim, rfl, rfl⟩
  have hIdle : (⟨recorded, fun _ => none⟩ : Cluster Command Thrown (Journal Bool) Bool).processes
      true =
      none := rfl
  exact ⟨_, (reaches_recorded parse).spawn hIdle (World.Spawns.dispatcher 1)
    (.perform _ (.done hEffect) .nil), rfl⟩

end Sample

namespace Journal

theorem events_recoverable_sample :
    ∃ (cluster : Cluster Command Thrown (Journal Bool) Bool) (journal' : Journal Bool),
    (services Sample.parse).Reaches (.start (Journal.start 0)) cluster ∧
    cluster.world.outbox.rows =
      [Sample.pending "0" (.object Sample.event), Sample.pending "1" (.text "")] ∧
    (services Sample.parse).Reaches cluster { cluster.put false none with world := journal' } ∧
    (journal'.outbox.find? "0").map (·.publishedAt) = some (some 60000) ∧
    (journal'.outbox.find? "1").map (·.deadLetteredAt) = some (some 600000) ∧
    journal'.published.map (fun entry => (entry.1.id, entry.2)) = [("0", Sample.event)] := by
  obtain ⟨cluster, hRun, hWorld⟩ := Sample.reaches_crashed Sample.parse
  obtain ⟨journal', sent, _, hReaches, _, _, hSettles, hSent, hPublished⟩ :=
    events_recoverable hRun false
  have hRows : cluster.world.outbox.rows =
      [Sample.pending "0" (.object Sample.event), Sample.pending "1" (.text "")] :=
    hWorld ▸ Sample.rows_crashed
  have hNow : cluster.world.now = 0 := hWorld ▸ rfl
  have hNone : cluster.world.published = [] := hWorld ▸ rfl
  simp only [Table.mem_def, hRows, List.forall_mem_cons, hNow] at hSettles
  obtain ⟨⟨first, hFirst, hRead⟩, ⟨second, hSecond, hUnread⟩, _⟩ := hSettles
  refine ⟨cluster, journal', hRun, hRows, hReaches, ?_, ?_, ?_⟩
  · rw [show "0" = (Sample.pending "0" (.object Sample.event)).id from rfl, hFirst, Option.map_some,
      hRead.published (RealtimeEventOutbox.isOpen_iff.mp rfl) rfl]
    rfl
  · rw [show "1" = (Sample.pending "1" (.text "")).id from rfl, hSecond, Option.map_some,
      (hUnread.dead (RealtimeEventOutbox.isOpen_iff.mp rfl) rfl).2.2]
    rfl
  · rw [Outbox.readable, hRows] at hPublished
    rw [hSent, hNone, List.nil_append]
    exact hPublished.eq_singleton

end Journal
end ExchangeMatching.Realtime
