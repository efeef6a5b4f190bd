import ExchangeMatching.RealtimeLifecycle
import Mathlib.Data.List.Infix

/-! What has gone through the realtime outbox. Every entry that is stored was
inserted, and what a dispatcher publishes is the event of such an entry; what is
published after a moment is told apart from what was published before by the
tokens of the claims. -/
namespace ExchangeMatching.Realtime

open Processes

/-- What `normalizePayload` returns or throws. -/
def Payload.read (parse : String → Except Thrown RealtimeDispatchEvent) :
    Payload → Except Thrown RealtimeDispatchEvent
  | .object event => .ok event
  | .text content => parse content

namespace Outbox

variable {outbox : Outbox} {row : RealtimeEventOutbox} {now : Nat} {id claimToken : String}

/-- A claim marks the rows that it lists and leaves the others as they are. -/
theorem mem_claim {ids : List String} : row ∈ outbox.claim now claimToken ids ↔
    ∃ old ∈ outbox, row = if old.id ∈ ids then old.claimed now claimToken else old := by
  refine Table.mem_update.trans ?_
  simp only [decide_eq_true_eq]

/-- A claimed row has the payload of the stored one. -/
theorem payload_of_claimed {ids : List String} {row : ClaimedRealtimeOutboxRow}
    (hRow : row ∈ outbox.claimedRows claimToken ids)
    {stored : RealtimeEventOutbox} (hStored : stored ∈ outbox.claim now claimToken ids)
    (hHeld : stored.isHeld row.id row.claimToken = true) : stored.payload = row.payload := by
  obtain ⟨other, hOther, rfl⟩ := List.mem_map.mp hRow
  obtain ⟨old, hOld, rfl⟩ := mem_claim.mp hStored
  have hId := (RealtimeEventOutbox.isHeld_iff.mp hHeld).1
  have hSame : old = other := by
    refine List.inj_on_of_nodup_map outbox.nodup hOld (List.mem_of_mem_filter hOther) ?_
    split_ifs at hId
    · exact hId
    · exact hId
  rw [hSame]
  split_ifs <;> rfl

/-- Only the holder of a row can mark it as published. -/
theorem mem_markAsPublished : row ∈ outbox.markAsPublished now id claimToken ↔
    ∃ old ∈ outbox, row = if old.isHeld id claimToken then old.published now else old :=
  Table.mem_update

/-- And only the holder can release it. -/
theorem mem_releaseClaim {lastError : String} {maxAttempts retryDelayMs maxRetryDelayMs : Nat} :
    row ∈ outbox.releaseClaim now id claimToken lastError maxAttempts retryDelayMs maxRetryDelayMs ↔
      ∃ old ∈ outbox, row = if old.isHeld id claimToken then
        old.released now lastError maxAttempts retryDelayMs maxRetryDelayMs else old :=
  Table.mem_update

/-- An insertion keeps the rows that there are, and adds rows for its entries. -/
theorem mem_insertEvents {outbox' : Outbox} {entries : List RealtimeOutboxEntry}
    (h : outbox.insertEvents now entries = .ok outbox') (hRow : row ∈ outbox') :
    row ∈ outbox ∨ ∃ entry ∈ entries, row =
      ⟨entry, 0, none, none, none, none, none, none, now⟩ := by
  induction entries generalizing outbox with
  | nil =>
      cases h
      exact Or.inl hRow
  | cons entry entries ih =>
      rw [insertEvents, List.foldlM_cons] at h
      obtain ⟨middle, hInsert, hRest⟩ := bind_eq_ok.mp h
      unfold insertEntry at hInsert
      split_ifs at hInsert with hNew
      cases hInsert
      rcases ih hRest with hMiddle | ⟨other, hOther, hEq⟩
      · rcases Table.mem_insert.mp hMiddle with hOld | rfl
        · exact Or.inl hOld
        · exact Or.inr ⟨entry, List.mem_cons_self, rfl⟩
      · exact Or.inr ⟨other, List.mem_cons_of_mem _ hOther, hEq⟩

/-- Inserted entries are there, unclaimed and due at once. -/
theorem mem_of_insertEvents {outbox' : Outbox} {entries : List RealtimeOutboxEntry}
    (h : outbox.insertEvents now entries = .ok outbox') {entry : RealtimeOutboxEntry}
    (hEntry : entry ∈ entries) :
    ⟨entry, 0, none, none, none, none, none, none, now⟩ ∈ outbox' := by
  suffices hRows : (∀ row ∈ outbox, row ∈ outbox') ∧
      ∀ entry ∈ entries, ⟨entry, 0, none, none, none, none, none, none, now⟩ ∈
        outbox' from hRows.2 entry hEntry
  clear hEntry
  induction entries generalizing outbox with
  | nil =>
      cases h
      exact ⟨fun row hRow => hRow, fun _ hNone => by cases hNone⟩
  | cons other entries ih =>
      rw [insertEvents, List.foldlM_cons] at h
      obtain ⟨middle, hInsert, hRest⟩ := bind_eq_ok.mp h
      unfold insertEntry at hInsert
      split_ifs at hInsert with hNew
      cases hInsert
      obtain ⟨hKept, hStored⟩ := ih hRest
      exact ⟨fun row hRow => hKept row (Table.mem_insert.mpr (Or.inl hRow)),
        List.forall_mem_cons.mpr ⟨hKept _ (Table.mem_insert.mpr (Or.inr rfl)), hStored⟩⟩

end Outbox

/-- The outbox with a record of all that was inserted and of all that was
published, for which row it was claimed for. -/
structure Journal (Index : Type) extends World Index where
  inserted : List RealtimeOutboxEntry
  published : List (ClaimedRealtimeOutboxRow × RealtimeDispatchEvent)

namespace Journal

variable {Index : Type}

def start (now : Nat) : Journal Index := { World.start now with inserted := [], published := [] }

/-- What a command publishes. -/
def publications {Reply : Type} : Command Reply →
    List (ClaimedRealtimeOutboxRow × RealtimeDispatchEvent)
  | .publishEvent row event => [(row, event)]
  | _ => []

def Effect (index : Index) {Reply : Type} (command : Command Reply) (journal : Journal Index)
    (reply : Reply) (journal' : Journal Index) : Prop :=
  World.Effect index command journal.toWorld reply journal'.toWorld ∧
    journal'.inserted = journal.inserted ∧
    journal'.published = journal.published ++ publications command

inductive Outside : Journal Index → Journal Index → Prop where
  | insertEvents {journal : Journal Index} {outbox : Outbox} (entries : List RealtimeOutboxEntry)
      (insert : journal.outbox.insertEvents journal.now entries = .ok outbox) :
      Outside journal { journal with outbox := outbox, inserted := journal.inserted ++ entries }
  | tick {journal : Journal Index} (milliseconds : Nat) :
      Outside journal { journal with now := journal.now + milliseconds }

def services (parse : String → Except Thrown RealtimeDispatchEvent) :
    Services Command Thrown (Journal Index) Index where
  effect := Effect
  outside := Outside
  spawns _ journal := World.Spawns parse journal.toWorld

variable {parse : String → Except Thrown RealtimeDispatchEvent} [DecidableEq Index]
  {first cluster : Cluster Command Thrown (Journal Index) Index}

omit [DecidableEq Index] in
/-- Without its record the journal is the outbox. -/
theorem isView :
    (services parse).IsView (World.services parse) (toWorld : Journal Index → World Index) where
  effect hEffect := And.left hEffect
  outside hOutside := by
    cases hOutside with
    | insertEvents entries insert => exact .insertEvents entries insert
    | tick milliseconds => exact .tick milliseconds
  spawns hSpawns := hSpawns

theorem reaches_world (h : (services parse).Reaches first cluster) :
    (World.services parse).Reaches (first.map toWorld) (cluster.map toWorld) := isView.reaches h

/-- What a dispatcher has claimed: an entry that was inserted, under a drawn
token, and a row that is still held under this token has the same payload. -/
structure Genuine (journal : Journal Index) (row : ClaimedRealtimeOutboxRow) : Prop where
  inserted : ∃ entry ∈ journal.inserted, entry.id = row.id ∧ entry.payload = row.payload
  drawn : row.claimToken ∈ journal.claims.map Prod.fst
  stored : ∀ stored ∈ journal.outbox, stored.isHeld row.id row.claimToken = true →
    stored.payload = row.payload

/-- The record tells of nothing that was not inserted. -/
structure Authentic (parse : String → Except Thrown RealtimeDispatchEvent)
    (journal : Journal Index) : Prop where
  rows : ∀ row ∈ journal.outbox, row.toRealtimeOutboxEntry ∈ journal.inserted
  published : ∀ entry ∈ journal.published,
    journal.Genuine entry.1 ∧ entry.1.payload.read parse = .ok entry.2

/-- Where a stored row comes from in one step. A token that it has not had before
is new, and it is marked only after its event was published under its token. -/
inductive Origin (journal journal' : Journal Index) : RealtimeEventOutbox → Prop where
  | inserted {entry : RealtimeOutboxEntry} (mem : entry ∈ journal'.inserted) :
      Origin journal journal' ⟨entry, 0, none, none, none, none, none, none, journal.now⟩
  | stored {row row' : RealtimeEventOutbox} (mem : row ∈ journal.outbox)
      (entry : row'.toRealtimeOutboxEntry = row.toRealtimeOutboxEntry)
      (token : ∀ claimToken, row'.claimToken = some claimToken →
        row.claimToken = some claimToken ∨ claimToken ∉ journal.claims.map Prod.fst)
      (published : row'.publishedAt.isSome → row.publishedAt.isSome ∨
        ∃ sent ∈ journal.published, row.isHeld sent.1.id sent.1.claimToken = true) :
      Origin journal journal' row'

/-- What one step may do. What it inserts it stores. -/
structure Moves (journal journal' : Journal Index) : Prop where
  now : journal.now ≤ journal'.now
  origin : ∀ row ∈ journal'.outbox, Origin journal journal' row
  inserted : journal.inserted <+: journal'.inserted
  stored : ∀ entry ∈ journal'.inserted.drop journal.inserted.length,
    ⟨entry, 0, none, none, none, none, none, none, journal.now⟩ ∈ journal'.outbox
  claims : journal.claims ⊆ journal'.claims
  published : journal.published <+: journal'.published

/-- What a process must know before it issues a command. -/
def Allows (parse : String → Except Thrown RealtimeDispatchEvent) {Reply : Type}
    (command : Command Reply) (journal : Journal Index) : Prop :=
  match command with
  | .publishEvent row event => journal.Genuine row ∧ row.payload.read parse = .ok event
  | .markAsPublished id claimToken =>
      ∃ sent ∈ journal.published, sent.1.id = id ∧ sent.1.claimToken = claimToken
  | _ => True

section Steps

omit [DecidableEq Index]

variable {journal journal' : Journal Index}

/-- A row that is left as it was is its own origin. -/
theorem Origin.kept {row : RealtimeEventOutbox} (h : row ∈ journal.outbox) :
    Origin journal journal' row :=
  .stored h rfl (fun _ => Or.inl) Or.inl

/-- A step that inserts nothing. -/
theorem Moves.of_inserted (hInserted : journal'.inserted = journal.inserted)
    (hNow : journal.now ≤ journal'.now)
    (hOrigin : ∀ row ∈ journal'.outbox, Origin journal journal' row)
    (hClaims : journal.claims ⊆ journal'.claims)
    (hPublished : journal.published <+: journal'.published) : journal.Moves journal' where
  now := hNow
  origin := hOrigin
  inserted := hInserted ▸ List.prefix_refl _
  stored entry hEntry := by
    rw [hInserted, List.drop_length] at hEntry
    cases hEntry
  claims := hClaims
  published := hPublished

/-- A journal can stay where it is. -/
theorem Moves.refl (journal : Journal Index) : journal.Moves journal :=
  .of_inserted rfl le_rfl (fun _ hRow => .kept hRow) (List.Subset.refl _) (List.prefix_refl _)

/-- What a dispatcher has claimed stays genuine while others work, because a token
is drawn once. -/
theorem Genuine.moves {row : ClaimedRealtimeOutboxRow} (h : journal.Genuine row)
    (hMoves : journal.Moves journal') : journal'.Genuine row where
  inserted := by
    obtain ⟨entry, hEntry, hRow⟩ := h.inserted
    exact ⟨entry, hMoves.inserted.subset hEntry, hRow⟩
  drawn := List.map_subset _ hMoves.claims h.drawn
  stored later hLater hHeld := by
    obtain ⟨hId, hToken⟩ := RealtimeEventOutbox.isHeld_iff.mp hHeld
    cases hMoves.origin later hLater with
    | inserted mem => cases hToken
    | @stored old _ mem entry token published =>
        have hSame := (token _ hToken).resolve_right fun hNew => hNew h.drawn
        have hOld : old.id = row.id := (congrArg RealtimeOutboxEntry.id entry).symm.trans hId
        exact (congrArg RealtimeOutboxEntry.payload entry).trans
          (h.stored old mem (RealtimeEventOutbox.isHeld_iff.mpr ⟨hOld, hSame⟩))

/-- A move keeps the journal authentic if all that it publishes was read from a
genuine claim. -/
theorem Authentic.moves (h : journal.Authentic parse) (hMoves : journal.Moves journal')
    (hPublished : ∀ entry ∈ journal'.published, entry ∈ journal.published ∨
      journal.Genuine entry.1 ∧ entry.1.payload.read parse = .ok entry.2) :
        journal'.Authentic parse where
  rows row hRow := by
    cases hMoves.origin row hRow with
    | inserted mem => exact mem
    | stored mem entry token published => exact entry ▸ hMoves.inserted.subset (h.rows _ mem)
  published entry hEntry := by
    obtain ⟨hGenuine, hRead⟩ := (hPublished entry hEntry).elim (h.published entry) id
    exact ⟨hGenuine.moves hMoves, hRead⟩

/-- Commands take no time, and no claim is forgotten. -/
theorem World.kept_of_effect {index : Index} {world world' : World Index} {Reply : Type}
    {command : Command Reply} {reply : Reply} (h : World.Effect index command world reply world') :
    world'.now = world.now ∧ world.claims ⊆ world'.claims := by
  cases command with
  | claimNextBatch batchSize claimTimeoutSeconds =>
      obtain ⟨claimToken, skipped, _, _, rfl⟩ := h
      exact ⟨rfl, List.subset_cons_self _ _⟩
  | publishEvent | markAsPublished | releaseClaim | pruneExpiredEvents =>
      cases h
      exact ⟨rfl, List.Subset.refl _⟩

/-- A command leaves rows as they were, or changes them under the token of its claim. -/
theorem origin_of_effect {index : Index} {Reply : Type} {command : Command Reply} {reply : Reply}
    (hAllows : Allows parse command journal) (hEffect : Effect index command journal reply journal')
    {row : RealtimeEventOutbox} (hRow : row ∈ journal'.outbox) : Origin journal journal' row := by
  obtain ⟨hWorld, _, _⟩ := hEffect
  cases command with
  | claimNextBatch batchSize claimTimeoutSeconds =>
      obtain ⟨claimToken, skipped, hFresh, _, hWorld⟩ := hWorld
      rw [hWorld] at hRow
      obtain ⟨old, hOld, rfl⟩ := Outbox.mem_claim.mp hRow
      split_ifs
      · refine .stored hOld rfl (fun token hToken => Or.inr ?_) Or.inl
        cases hToken
        exact hFresh
      · exact .kept hOld
  | publishEvent claimed event =>
      have hWorld : journal'.toWorld = _ := hWorld
      rw [hWorld] at hRow
      exact .kept hRow
  | markAsPublished id claimToken =>
      have hWorld : journal'.toWorld = _ := hWorld
      rw [hWorld] at hRow
      obtain ⟨old, hOld, rfl⟩ := Outbox.mem_markAsPublished.mp hRow
      split_ifs with hHeld
      · obtain ⟨sent, hSent, rfl, rfl⟩ := hAllows
        exact .stored hOld rfl (fun _ hNone => by cases hNone) fun _ => Or.inr ⟨sent, hSent, hHeld⟩
      · exact .kept hOld
  | releaseClaim id claimToken lastError maxAttempts retryDelayMs maxRetryDelayMs =>
      have hWorld : journal'.toWorld = _ := hWorld
      rw [hWorld] at hRow
      obtain ⟨old, hOld, rfl⟩ := Outbox.mem_releaseClaim.mp hRow
      split_ifs
      · exact .stored hOld rfl (fun _ hNone => by cases hNone) Or.inl
      · exact .kept hOld
  | pruneExpiredEvents publishedCutoff deadLetterCutoff =>
      have hWorld : journal'.toWorld = _ := hWorld
      rw [hWorld] at hRow
      exact .kept (Table.mem_delete.mp hRow).1

/-- So every command that is allowed is a move. -/
theorem moves_of_effect {index : Index} {Reply : Type} {command : Command Reply} {reply : Reply}
    (hAllows : Allows parse command journal)
    (hEffect : Effect index command journal reply journal') : journal.Moves journal' := by
  obtain ⟨hNow, hClaims⟩ := World.kept_of_effect hEffect.1
  exact .of_inserted hEffect.2.1 hNow.ge (fun _ hRow => origin_of_effect hAllows hEffect hRow)
    hClaims (hEffect.2.2 ▸ List.prefix_append ..)

/-- And so is what happens around the dispatchers, where time passes and events are
recorded. -/
theorem moves_of_outside (h : Outside journal journal') : journal.Moves journal' := by
  cases h with
  | insertEvents entries insert =>
      refine ⟨le_rfl, fun row hRow => ?_, List.prefix_append .., fun entry hEntry => ?_,
        List.Subset.refl _, List.prefix_refl _⟩
      · rcases Outbox.mem_insertEvents insert hRow with hOld | ⟨entry, hEntry, rfl⟩
        · exact .kept hOld
        · exact .inserted (List.mem_append_right _ hEntry)
      · rw [List.drop_left] at hEntry
        exact Outbox.mem_of_insertEvents insert hEntry
  | tick milliseconds =>
      exact .of_inserted rfl (Nat.le_add_right ..) (fun _ hRow => .kept hRow) (List.Subset.refl _)
        (List.prefix_refl _)

/-- A row that has only been dealt with since an earlier moment: it was claimed
under tokens that were drawn since, so what it is marked for was published since. -/
structure Recent (earlier journal : Journal Index) (row : RealtimeEventOutbox) : Prop where
  tokens : ∀ claimToken, row.claimToken = some claimToken →
    claimToken ∉ earlier.claims.map Prod.fst
  published : row.publishedAt.isSome → ∃ entry ∈ journal.published.drop earlier.published.length,
    entry.1.id = row.id ∧ entry.1.payload = row.payload

/-- What lies between two moments. -/
structure Since (earlier journal : Journal Index) : Prop where
  now : earlier.now ≤ journal.now
  inserted : earlier.inserted <+: journal.inserted
  claims : earlier.claims ⊆ journal.claims
  published : earlier.published <+: journal.published

/-- Nothing has happened since now. -/
theorem Since.refl (journal : Journal Index) : journal.Since journal :=
  ⟨le_rfl, List.prefix_refl _, List.Subset.refl _, List.prefix_refl _⟩

/-- What has happened since a journal only grows. -/
theorem Since.moves {earlier : Journal Index} (h : earlier.Since journal)
    (hMoves : journal.Moves journal') : earlier.Since journal' :=
  ⟨h.now.trans hMoves.now, h.inserted.trans hMoves.inserted,
    List.Subset.trans h.claims hMoves.claims, h.published.trans hMoves.published⟩

/-- A row that is recent stays so, as its claims and its publications since then are
kept. -/
theorem Recent.moves {earlier : Journal Index} (hEarlier : earlier.Authentic parse)
    (hAuthentic : journal.Authentic parse) (hSince : earlier.Since journal)
    (hMoves : journal.Moves journal') {row' : RealtimeEventOutbox} (hRow' : row' ∈ journal'.outbox)
    (h : ∀ row ∈ journal.outbox, row.id = row'.id → earlier.Recent journal row) :
    earlier.Recent journal' row' := by
  cases hMoves.origin row' hRow' with
  | inserted mem => exact ⟨(fun _ hToken => by cases hToken), (fun hSome => by cases hSome)⟩
  | @stored row _ mem entry token published =>
      have hId : row'.id = row.id := congrArg RealtimeOutboxEntry.id entry
      have hPayload : row'.payload = row.payload := congrArg RealtimeOutboxEntry.payload entry
      have hRecent := h row mem hId.symm
      refine ⟨fun claimToken hToken => ?_, fun hPublished => ?_⟩
      · rcases token claimToken hToken with hOld | hFresh
        · exact hRecent.tokens claimToken hOld
        · exact fun hDrawn => hFresh (List.map_subset _ hSince.claims hDrawn)
      · have hLater : journal.published.drop earlier.published.length ⊆
            journal'.published.drop earlier.published.length := (hMoves.published.drop _).subset
        rw [hId, hPayload]
        rcases published hPublished with hBefore | ⟨sent, hSent, hHeld⟩
        · obtain ⟨sent, hSent, hSame⟩ := hRecent.published hBefore
          exact ⟨sent, hLater hSent, hSame⟩
        · -- The row is held under a token that nothing published earlier can have.
          obtain ⟨hSame, hToken⟩ := RealtimeEventOutbox.isHeld_iff.mp hHeld
          obtain ⟨rest, hRest⟩ := hSince.published
          have hRecently : sent ∈ rest := by
            rw [← hRest, List.mem_append] at hSent
            refine hSent.resolve_left fun hOld => ?_
            exact hRecent.tokens _ hToken (hEarlier.published sent hOld).1.drawn
          refine ⟨sent, hLater ?_, hSame.symm,
            ((hAuthentic.published sent hSent).1.stored row mem hHeld).symm⟩
          rwa [← hRest, List.drop_left]

/-- What stays true of a journal. -/
structure Grows (journal journal' : Journal Index) : Prop where
  published : journal.published <+: journal'.published
  genuine : ∀ row, journal.Genuine row → journal'.Genuine row

/-- A move loses no inserted entry and no publication. -/
theorem Moves.grows (h : journal.Moves journal') : journal.Grows journal' :=
  ⟨h.published, fun _ hGenuine => hGenuine.moves h⟩

/-- What the processes of the outbox rely on when they publish. -/
def authenticity (parse : String → Except Thrown RealtimeDispatchEvent) :
    Discipline (services parse : Services Command Thrown (Journal Index) Index) where
  Sound := Authentic parse
  Grows := Grows
  Allows _ := Allows parse
  refl journal := (Moves.refl journal).grows
  trans h h' :=
    ⟨h.published.trans h'.published, fun row hGenuine => h'.genuine row (h.genuine row hGenuine)⟩
  effect := by
    intro index Reply command journal reply journal' hSound hAllows hEffect
    have hMoves := moves_of_effect hAllows hEffect
    refine ⟨hSound.moves hMoves fun entry hEntry => ?_, hMoves.grows⟩
    obtain ⟨_, _, hPublished⟩ := hEffect
    rw [hPublished, List.mem_append] at hEntry
    refine hEntry.imp_right fun hNew => ?_
    cases command with
    | publishEvent row event =>
        obtain rfl := List.mem_singleton.mp hNew
        exact hAllows
    | claimNextBatch | markAsPublished | releaseClaim | pruneExpiredEvents => cases hNew
  outside := by
    intro journal journal' hSound hOutside
    have hMoves := moves_of_outside hOutside
    refine ⟨hSound.moves hMoves fun entry hEntry => Or.inl ?_, hMoves.grows⟩
    cases hOutside with
    | insertEvents entries insert => exact hEntry
    | tick milliseconds => exact hEntry

end Steps

section Programs

open RealtimeOutboxDispatcher

variable {journal : Journal Index} {index : Index}

omit [DecidableEq Index]

/-- Whether a payload is normalised depends only on whether it can be read, as a
text or as an object. -/
theorem normalizePayload_of_read {payload : Payload} :
    normalizePayload parse payload = match payload.read parse with
      | .ok event => return event
      | .error error => .throw error := by
  cases payload with
  | object event => rfl
  | text content => rfl

/-- A dispatcher that publishes the event of a genuine claim keeps the journal
authentic. -/
theorem safe_dispatchRow {row : ClaimedRealtimeOutboxRow} (hGenuine : journal.Genuine row) :
    (authenticity parse).Safe index (dispatchRow parse row) journal (fun _ _ => True) := by
  have hRead : (authenticity parse).Safe index (normalizePayload parse row.payload) journal
      (fun event _ => row.payload.read parse = .ok event) := by
    rw [normalizePayload_of_read]
    cases row.payload.read parse with
    | ok event => exact fun _ _ _ => rfl
    | error error => exact trivial
  have hPublish : ∀ (event : RealtimeDispatchEvent) (now : Journal Index), journal.Grows now →
      row.payload.read parse = .ok event →
      (authenticity parse).Safe index (.perform (.publishEvent row event)) now
        (fun _ later => ∃ sent ∈ later.published, sent.1 = row) := by
    intro event now hNow hEvent
    refine .perform (fun later _ hLater => ⟨hLater.genuine row (hNow.genuine row hGenuine), hEvent⟩)
      ?_
    intro before reply after last _ _ hEffect _ hLast
    obtain ⟨_, _, hPublished⟩ := hEffect
    refine ⟨(row, event), hLast.published.subset ?_, rfl⟩
    rw [hPublished]
    exact List.mem_append_right _ List.mem_cons_self
  have hMark : ∀ now : Journal Index, (∃ sent ∈ now.published, sent.1 = row) →
      (authenticity parse).Safe index (.perform (.markAsPublished row.id row.claimToken)) now
        (fun _ _ => True) := by
    rintro now ⟨sent, hSent, rfl⟩
    exact .perform (fun later _ hLater => ⟨sent, hLater.published.subset hSent, rfl, rfl⟩)
      fun _ _ _ _ _ _ _ _ _ => trivial
  refine (Discipline.Safe.attempt (hRead.bind fun event now _ hNow hEvent =>
    (hPublish event now hNow hEvent).bind fun _ later _ _ hSent => hMark later hSent)).bind ?_
  intro dispatched now _ _ _
  cases dispatched with
  | ok _ => exact fun _ _ _ => trivial
  | error error =>
      have hRelease : (authenticity parse).Safe index (.perform (.releaseClaim row.id row.claimToken
          (error.message "Unknown dispatch error") realtimeOutboxMaxAttempts
          realtimeOutboxRetryDelayMs realtimeOutboxMaxRetryDelayMs)) now (fun _ _ => True) :=
        .perform (fun _ _ _ => trivial) fun _ _ _ _ _ _ _ _ _ => trivial
      exact (Discipline.Safe.attempt hRelease).bind fun _ _ _ _ _ => fun _ _ _ => trivial

/-- So does the loop over a batch, by induction on the batch. -/
theorem safe_dispatchRows {rows : List ClaimedRealtimeOutboxRow} {hasFailedDispatch : Bool}
    (hGenuine : ∀ row ∈ rows, journal.Genuine row) :
    (authenticity parse).Safe index (dispatchRows parse rows hasFailedDispatch) journal
      (fun _ _ => True) := by
  induction rows generalizing journal hasFailedDispatch with
  | nil => exact fun _ _ _ => trivial
  | cons row rows ih =>
      rw [List.forall_mem_cons] at hGenuine
      exact (safe_dispatchRow hGenuine.1).bind fun failed now _ hNow _ =>
        ih fun other hOther => hNow.genuine other (hGenuine.2 other hOther)

/-- The rows of a claim are genuine. -/
theorem genuine_of_claim {batchSize claimTimeoutSeconds : Nat}
    {rows : List ClaimedRealtimeOutboxRow}
    {journal' : Journal Index} (hAuthentic : journal.Authentic parse)
    (hEffect : Effect index (.claimNextBatch batchSize claimTimeoutSeconds) journal rows journal')
    {row : ClaimedRealtimeOutboxRow} (hRow : row ∈ rows) : journal'.Genuine row := by
  obtain ⟨⟨claimToken, skipped, _, hRows, hWorld⟩, hInserted, _⟩ := hEffect
  have hClaimed := hRows.mem_iff.mp hRow
  obtain ⟨old, hOld, rfl⟩ := List.mem_map.mp hClaimed
  refine ⟨⟨old.toRealtimeOutboxEntry, ?_, rfl, rfl⟩, ?_, fun stored hStored hHeld => ?_⟩
  · exact hInserted ▸ hAuthentic.rows old (List.mem_of_mem_filter hOld)
  · rw [hWorld]
    exact List.mem_cons_self
  · rw [hWorld] at hStored
    exact Outbox.payload_of_claimed hClaimed hStored hHeld

/-- And the loop over the batches, each of which is claimed afresh. -/
theorem safe_dispatchLoop (turns : Nat) :
    (authenticity parse).Safe index (dispatchLoop parse turns) journal (fun _ _ => True) := by
  induction turns generalizing journal with
  | zero => exact fun _ _ _ => trivial
  | succ turns ih =>
      have hClaim : (authenticity parse).Safe index
          (.perform (.claimNextBatch realtimeOutboxBatchSize
          realtimeOutboxClaimTimeoutSeconds)) journal
            (fun rows now => ∀ row ∈ rows, now.Genuine row) := by
        refine .perform (fun _ _ _ => trivial) ?_
        intro before rows after last hBefore _ hEffect _ hLast row hRow
        exact hLast.genuine row (genuine_of_claim hBefore hEffect hRow)
      refine hClaim.bind fun rows now _ _ hGenuine => ?_
      split_ifs
      · exact fun _ _ _ => trivial
      · refine (safe_dispatchRows hGenuine).bind fun hasFailedDispatch later _ _ _ => ?_
        split_ifs
        · exact fun _ _ _ => trivial
        · exact ih

/-- Every process that can be started is safe. -/
theorem safe_spawned {process : Task Unit} (h : World.Spawns parse journal.toWorld process) :
    (authenticity parse).Safe index process journal (fun _ _ => True) := by
  cases h with
  | dispatcher turns => exact safe_dispatchLoop turns
  | maintenance => exact .perform (fun _ _ _ => trivial) fun _ _ _ _ _ _ _ _ _ => trivial

end Programs

section Runs

variable {later : Cluster Command Thrown (Journal Index) Index} {start : Nat}

/-- Hence every journal that is reached is authentic. -/
theorem authentic_of_reaches
    (hRun : (services parse).Reaches (.start (Journal.start start)) cluster) :
    (authenticity parse).Holds cluster := by
  have hStart : (authenticity parse).Holds (.start (Journal.start start : Journal Index)) :=
    Discipline.holds_start ⟨(fun _ hNone => by cases hNone), (fun _ hNone => by cases hNone)⟩
  exact hStart.of_reaches (fun _ _ _ _ hSpawns => safe_spawned hSpawns) hRun

/-- And the steps of a cluster move the journal. -/
theorem moves_of_step (hHolds : (authenticity parse).Holds cluster) {actor : Option Index}
    (hStep : (services parse).Step cluster actor later) : cluster.world.Moves later.world := by
  cases hStep with
  | spawn index idle spawns => exact .refl cluster.world
  | perform index running performs =>
      have hAllows := hHolds.allows running
      cases performs with
      | done hEffect | lost failure hEffect => exact moves_of_effect hAllows hEffect
      | failed failure => exact .refl cluster.world
  | stop index => exact .refl cluster.world
  | outside happens => exact moves_of_outside happens

/-- Rows that were not stored at an earlier moment have only been dealt with since. -/
theorem recent_of_reaches (hHolds : (authenticity parse).Holds cluster)
    (hRun : (services parse).Reaches cluster later) :
    cluster.world.Since later.world ∧ ∀ row ∈ later.world.outbox,
      cluster.world.outbox.find? row.id = none → cluster.world.Recent later.world row := by
  induction hRun with
  | refl =>
      refine ⟨.refl cluster.world, fun row hRow hNew => ?_⟩
      rw [Table.find?_of_mem hRow] at hNew
      cases hNew
  | tail hBefore hStep ih =>
      obtain ⟨hSince, hRecent⟩ := ih
      obtain ⟨actor, hStep⟩ := hStep
      have hMiddle := hHolds.of_reaches (fun _ _ _ _ hSpawns => safe_spawned hSpawns) hBefore
      have hMoves := moves_of_step hMiddle hStep
      exact ⟨hSince.moves hMoves,
        fun row hRow hNew => .moves hHolds.sound hMiddle.sound hSince hMoves hRow
        fun old hOld hSame => hRecent old hOld (hSame ▸ hNew)⟩

/-- A row that was stored since an earlier moment. -/
structure Young (earlier journal : Journal Index) (row : RealtimeEventOutbox) : Prop where
  recent : earlier.Recent journal row
  created : earlier.now ≤ row.createdAt
  final : ∀ time, row.publishedAt = some time ∨
    row.deadLetteredAt = some time → earlier.now ≤ time

omit [DecidableEq Index] in
/-- An entry that is inserted later is young. -/
theorem young_inserted {earlier journal : Journal Index} {entry : RealtimeOutboxEntry} {now : Nat}
    (hNow : earlier.now ≤ now) :
    earlier.Young journal ⟨entry, 0, none, none, none, none, none, none, now⟩ :=
  ⟨⟨(fun _ hNone => by cases hNone), (fun hNone => by cases hNone)⟩, hNow, by simp⟩

/-- Within a week a young row is only written, and stays young. -/
theorem Young.step {earlier : Journal Index} (hEarlier : earlier.Authentic parse)
    (hHolds : (authenticity parse).Holds cluster)
    (hWorld : (World.lifecycle parse).Holds (cluster.map toWorld))
    {actor : Option Index} (hStep : (services parse).Step cluster actor later)
    (hSince : earlier.Since cluster.world)
    (hWeek : cluster.world.now < earlier.now + realtimeOutboxPublishedRetentionDays *
      millisecondsPerDay)
    {row : RealtimeEventOutbox} (hRow : row ∈ cluster.world.outbox)
    (h : earlier.Young cluster.world row) :
    ∃ row' ∈ later.world.outbox, row'.toRealtimeOutboxEntry = row.toRealtimeOutboxEntry ∧
      earlier.Young later.world row' := by
  have hMoves := moves_of_step hHolds hStep
  have hAdvances := World.advances_of_step hWorld (isView.step hStep) row.id
  have hRecent : ∀ row' ∈ later.world.outbox, row'.id = row.id →
      earlier.Recent later.world row' := by
    refine fun row' hRow' hId =>
      .moves hEarlier hHolds.sound hSince hMoves hRow' fun old hOld hSame => ?_
    rw [List.inj_on_of_nodup_map cluster.world.outbox.nodup hOld hRow (hSame.trans hId)]
    exact h.recent
  have hFound : (cluster.map toWorld).world.outbox.find? row.id = some row :=
    Table.find?_of_mem hRow
  have hNow : (cluster.map toWorld).world.now = cluster.world.now := rfl
  rw [hFound] at hAdvances
  cases hLater : (later.map toWorld).world.outbox.find? row.id with
  | none =>
      rw [hLater] at hAdvances
      have hLonger : realtimeOutboxPublishedRetentionDays * millisecondsPerDay ≤
          realtimeOutboxDeadLetterRetentionDays * millisecondsPerDay := by decide
      obtain ⟨time, hTime, hLong⟩ | ⟨time, hTime, hLong⟩ := hAdvances.retention
      · have hBefore := h.final time (Or.inl hTime)
        omega
      · have hBefore := h.final time (Or.inr hTime)
        omega
  | some row' =>
      rw [hLater] at hAdvances
      have hMem : row' ∈ later.world.outbox := Table.mem_of_find? hLater
      have hKey := Table.key_of_find? hLater
      have hYoung := hRecent row' hMem hKey
      refine ⟨row', hMem, ?_, hYoung, ?_, ?_⟩
      · cases hAdvances <;> rfl
      · cases hAdvances <;> exact h.created
      · cases hAdvances with
        | kept => exact h.final
        | claimed claimToken claimable => exact h.final
        | published publisher held drawn delivered =>
            rintro time (hTime | hTime)
            · cases hTime
              exact hSince.now
            · exact h.final time (Or.inr hTime)
        | released lastError held =>
            rintro time (hTime | hTime)
            · exact h.final time (Or.inl hTime)
            · simp only [RealtimeEventOutbox.released] at hTime
              split_ifs at hTime
              cases hTime
              exact hSince.now

/-- What was inserted within the last week is stored. -/
theorem young_of_reaches (hRun : (services parse).Reaches (.start (Journal.start start)) cluster)
    (hLater : (services parse).Reaches cluster later)
    (hWeek : later.world.now < cluster.world.now + realtimeOutboxPublishedRetentionDays *
      millisecondsPerDay) :
    ∀ entry ∈ later.world.inserted.drop cluster.world.inserted.length,
      ∃ row ∈ later.world.outbox, row.toRealtimeOutboxEntry = entry ∧
        cluster.world.Young later.world row := by
  have hHolds := authentic_of_reaches hRun
  induction hLater with
  | refl =>
      intro entry hEntry
      rw [List.drop_length] at hEntry
      cases hEntry
  | @tail middle last hBefore hStep ih =>
      intro entry hEntry
      obtain ⟨actor, hStep⟩ := hStep
      have hMiddle := authentic_of_reaches (hRun.trans hBefore)
      have hMoves := moves_of_step hMiddle hStep
      have hSince := (recent_of_reaches hHolds hBefore).1
      have hSooner := hMoves.now.trans_lt hWeek
      obtain ⟨rest, hRest⟩ := hMoves.inserted
      rw [← hRest, List.drop_append_of_le_length hSince.inserted.length_le, List.mem_append]
        at hEntry
      rcases hEntry with hOld | hNew
      · obtain ⟨row, hRow, rfl, hYoung⟩ := ih hSooner entry hOld
        have hWorld := World.holds_of_reaches (reaches_world (hRun.trans hBefore))
        obtain ⟨row', hRow', hSame, hYoung'⟩ :=
          hYoung.step hHolds.sound hMiddle hWorld hStep hSince hSooner hRow
        exact ⟨row', hRow', hSame, hYoung'⟩
      · refine ⟨_, hMoves.stored entry ?_, rfl, young_inserted hSince.now⟩
        rwa [← hRest, List.drop_left]

end Runs

end Journal
end ExchangeMatching.Realtime
