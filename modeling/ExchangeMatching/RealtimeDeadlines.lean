import ExchangeMatching.RealtimeLifecycle

/-! Retry deadlines of the realtime outbox. A deadline is only looked at when a
row is claimed. It is kept as long as the row stays claimed; a dispatcher whose
lease was taken over may publish after the other one has recorded an outcome. -/
namespace ExchangeMatching.Realtime

open Processes

namespace World

variable {Index : Type} {parse : String → Except Thrown RealtimeDispatchEvent}

/-- The row has no final state, and its retry deadline has passed. -/
def IsDue (world : World Index) (id : String) : Prop :=
  ∃ stored, world.outbox.find? id = some stored ∧ stored.publishedAt = none ∧
    stored.deadLetteredAt = none ∧ ∀ time ∈ stored.nextAttemptAt, time ≤ world.now

/-- The row is claimed by some dispatcher. -/
def IsClaimed (world : World Index) (id : String) : Prop :=
  ∃ stored, world.outbox.find? id = some stored ∧ stored.claimToken.isSome

/-- The row for which a process calls `publishEvent` next. -/
def publishing : Task Unit → Option ClaimedRealtimeOutboxRow
  | .issue (.publishEvent claimed _) _ => some claimed
  | _ => none

/-- Every call of `publishEvent` is made for a row that is due. -/
def Honors (cluster : Cluster Command Thrown (World Index) Index) (index : Index) : Prop :=
  ∀ claimed ∈ (cluster.processes index).bind publishing, cluster.world.IsDue claimed.id

/-- Every call of `publishEvent` is made for a row that is claimed, by the caller
or by one that took over its lease and has recorded no outcome so far. -/
def KeepsClaim (cluster : Cluster Command Thrown (World Index) Index) (index : Index) : Prop :=
  ∀ claimed ∈ (cluster.processes index).bind publishing, cluster.world.IsClaimed claimed.id

theorem Sound.isDue {world : World Index} (h : world.Sound) {id : String}
    (hClaimed : world.IsClaimed id) : world.IsDue id := by
  obtain ⟨stored, hFound, hToken⟩ := hClaimed
  have hRow := h.rows stored (Table.mem_of_find? hFound)
  obtain ⟨hPublished, hDead⟩ := hRow.open_of_token (Option.some_get hToken).symm
  exact ⟨stored, hFound, hPublished, hDead, hRow.paused hToken⟩

variable [DecidableEq Index]

/-- A run in which dispatchers publish claimed rows only publishes only rows that
are due. -/
theorem deadlines_honored {start : Nat} {cluster : Cluster Command Thrown (World Index) Index}
    (hRun : (services parse).ReachesWith KeepsClaim (.start (World.start start)) cluster) :
    (services parse).ReachesWith Honors (.start (World.start start)) cluster ∧
      ∀ index, KeepsClaim cluster index → Honors cluster index := by
  have hDue : ∀ (cluster : Cluster Command Thrown (World Index) Index) (index : Index),
      (services parse).Reaches (.start (World.start start)) cluster → KeepsClaim cluster index →
        Honors cluster index := by
    intro cluster index hReaches hKeeps claimed hClaimed
    have hSound : cluster.world.Sound := (holds_of_reaches hReaches).sound
    exact hSound.isDue (hKeeps claimed hClaimed)
  exact ⟨hRun.imp hDue, fun index => hDue cluster index hRun.reaches⟩

end World

/-! A run with two dispatchers. The first claims seventeen rows and spends two
seconds on each of the first sixteen. Its lease is over before it comes to the
last row, which the second one claims and fails to deliver. -/
namespace Sample

def parse (_ : String) : Except Thrown RealtimeDispatchEvent := .error .other

def event : RealtimeDispatchEvent := .marketChanged .orderOpened "order" none

def entries (ids : List String) : List RealtimeOutboxEntry :=
  ids.map fun id => ⟨id, "market.changed", .object event⟩

/-- The table after events were inserted under these ids. -/
def stored (ids : List String) : Outbox :=
  match Outbox.insertEvents .empty 0 (entries ids) with
  | .ok outbox => outbox
  | .error _ => .empty

def inserted (ids : List String) : World Bool := ⟨stored ids, 0, [], []⟩

theorem insertEvents_stored {ids : List String}
    (h : (Outbox.insertEvents .empty 0 (entries ids)).isOk = true) :
    Outbox.insertEvents .empty 0 (entries ids) = .ok (stored ids) := by
  unfold stored
  cases hInsert : Outbox.insertEvents .empty 0 (entries ids) with
  | ok outbox => rfl
  | error failure =>
      rw [hInsert] at h
      cases h

theorem reaches_inserted (ids : List String)
    (h : (Outbox.insertEvents .empty 0 (entries ids)).isOk = true) :
    (World.services parse).ReachesWith World.KeepsClaim (.start (World.start 0))
      ⟨inserted ids, fun _ => none⟩ :=
  Relation.ReflTransGen.single
    ⟨none, .outside (.insertEvents (entries ids) (insertEvents_stored h)),
    fun index hIndex => by cases hIndex⟩

/-- The world after a claim of all claimable rows. -/
def claimed (world : World Bool) (index : Bool) (claimToken : String) : World Bool :=
  { world with
    outbox := world.outbox.claim world.now claimToken (world.outbox.claimable world.now
      realtimeOutboxBatchSize realtimeOutboxClaimTimeoutSeconds [])
    claims := (claimToken, index) :: world.claims }

def claimedRows (world : World Bool) (claimToken : String) : List ClaimedRealtimeOutboxRow :=
  world.outbox.claimedRows claimToken (world.outbox.claimable world.now realtimeOutboxBatchSize
    realtimeOutboxClaimTimeoutSeconds [])

theorem effect_claimed {world : World Bool} {index : Bool} {claimToken : String}
    (hFresh : claimToken ∉ world.claims.map Prod.fst) :
    World.Effect index (.claimNextBatch realtimeOutboxBatchSize realtimeOutboxClaimTimeoutSeconds)
      world (claimedRows world claimToken) (claimed world index claimToken) :=
  ⟨claimToken, [], hFresh, .refl _, rfl⟩

/-- A delivery takes two seconds and is acknowledged. -/
def delivered (world : World Bool) (row : ClaimedRealtimeOutboxRow) : World Bool :=
  { world with
    outbox := world.outbox.markAsPublished (world.now + 2000) row.id row.claimToken
    now := world.now + 2000
    deliveries := (row.id, row.claimToken) :: world.deliveries }

theorem runs_delivered {index : Bool} {rows last : List ClaimedRealtimeOutboxRow}
    {world : World Bool} (hPayload : ∀ row ∈ rows, row.payload = .object event) :
    (World.services parse).Runs index
      (RealtimeOutboxDispatcher.dispatchRows parse (rows ++ last) false) world
      (RealtimeOutboxDispatcher.dispatchRows parse last false) (rows.foldl delivered world) := by
  induction rows generalizing world with
  | nil => exact .nil
  | cons row rows ih =>
      rw [List.forall_mem_cons] at hPayload
      obtain ⟨id, claimToken, payload⟩ := row
      obtain rfl : payload = .object event := hPayload.1
      refine .perform (.ok ()) (.done rfl)
        (.outside (.tick 2000) (.perform (.ok ()) (.done rfl) ?_))
      exact ih hPayload.2

/-- The seventeen rows, just claimed by the first dispatcher. -/
def batch : World Bool := claimed (inserted ((List.range 17).map toString)) true "claim 1"

def batchRows : List ClaimedRealtimeOutboxRow :=
  claimedRows (inserted ((List.range 17).map toString)) "claim 1"

/-- Sixteen rows were delivered. -/
def late : World Bool := (batchRows.take 16).foldl delivered batch

/-- The second dispatcher has claimed the last row and failed to deliver it. -/
def failed : World Bool :=
  { claimed late false "claim 2" with
    outbox := (claimed late false "claim 2").outbox.releaseClaim late.now "16" "claim 2"
      "Redis unavailable" realtimeOutboxMaxAttempts realtimeOutboxRetryDelayMs
      realtimeOutboxMaxRetryDelayMs }

theorem runs_first : ∃ next, (World.services parse).Runs true
    (RealtimeOutboxDispatcher.dispatchLoop parse 1) (inserted ((List.range 17).map toString))
    (RealtimeOutboxDispatcher.dispatchRows parse [⟨"16", "claim 1", .object event⟩] false >>= next)
    late := by
  have hRows : claimedRows (inserted ((List.range 17).map toString)) "claim 1" =
      batchRows.take 16 ++ [⟨"16", "claim 1", .object event⟩] := by decide +kernel
  have hPayload : ∀ row ∈ batchRows.take 16, row.payload = .object event := by decide +kernel
  have hClaim := @effect_claimed (inserted ((List.range 17).map toString)) true "claim 1"
    List.not_mem_nil
  rw [hRows] at hClaim
  exact ⟨_, .perform _ (.done hClaim) (runs_delivered hPayload).bind⟩

/-- The second dispatcher takes the last row over and fails to deliver it. -/
theorem runs_second : ∃ rest, (World.services parse).Runs false
    (RealtimeOutboxDispatcher.dispatchLoop parse 1) late rest failed := by
  have hRows : claimedRows late "claim 2" = [⟨"16", "claim 2", .object event⟩] := by decide +kernel
  have hFresh : "claim 2" ∉ late.claims.map Prod.fst := by decide +kernel
  have hClaim := @effect_claimed late false "claim 2" hFresh
  rw [hRows] at hClaim
  have hRelease : World.Effect false (.releaseClaim "16" "claim 2" "Redis unavailable"
      realtimeOutboxMaxAttempts realtimeOutboxRetryDelayMs realtimeOutboxMaxRetryDelayMs)
      (claimed late false "claim 2") () failed := rfl
  exact ⟨_, .perform _ (.done hClaim)
    (.perform (Except.error (Thrown.error "Redis unavailable")) (.failed _)
      (.perform (.ok ()) (.done hRelease) .nil))⟩

/-- One row is claimed and published in time. -/
theorem reaches_published : ∃ cluster : Cluster Command Thrown (World Bool) Bool,
    (World.services parse).ReachesWith World.KeepsClaim (.start (World.start 0)) cluster ∧
      cluster.world.deliveries = [("0", "claim 1")] := by
  have hInserted := reaches_inserted ["0"] (by decide +kernel)
  have hRows : claimedRows (inserted ["0"]) "claim 1" = [⟨"0", "claim 1", .object event⟩] := by
    decide +kernel
  have hClaim := @effect_claimed (inserted ["0"]) true "claim 1" List.not_mem_nil
  rw [hRows] at hClaim
  have hStored : ((claimed (inserted ["0"]) true "claim 1").outbox.find? "0").any
      (·.claimToken.isSome) = true := by decide +kernel
  have hPublish : (World.services parse).Performs true
      (.publishEvent ⟨"0", "claim 1", .object event⟩ event)
      (claimed (inserted ["0"]) true "claim 1") (.ok ())
      { claimed (inserted ["0"]) true "claim 1" with deliveries := [("0", "claim 1")] } := .done rfl
  have hSpawned := hInserted.tail ⟨some true, .spawn true rfl (World.Spawns.dispatcher 1),
    (by rintro _ - row ⟨⟩)⟩
  have hClaimed := hSpawned.tail ⟨some true, .perform true rfl (.done hClaim),
    (by rintro _ ⟨⟩ row ⟨⟩)⟩
  have hPublished := hClaimed.tail ⟨some true, .perform true rfl hPublish,
    (by rintro _ ⟨⟩ row ⟨⟩; exact (Option.any_eq_true _ _).mp hStored)⟩
  exact ⟨_, hPublished, rfl⟩

end Sample

namespace World

theorem deadlines_honored_sample : ∃ cluster : Cluster Command Thrown (World Bool) Bool,
    cluster.world.deliveries = [("0", "claim 1")] ∧
    (services Sample.parse).ReachesWith Honors (.start (World.start 0)) cluster := by
  obtain ⟨cluster, hRun, hDelivered⟩ := Sample.reaches_published
  exact ⟨cluster, hDelivered, (deadlines_honored hRun).1⟩

theorem row_lifecycle_sample : ∃ cluster : Cluster Command Thrown (World Bool) Bool,
    (services Sample.parse).Reaches (.start (World.start 0)) cluster ∧
    cluster.world.deliveries = [("0", "claim 1")] ∧
    (∀ row ∈ cluster.world.outbox, row.claimedAt = none ↔ row.claimToken = none) ∧
    (cluster.world.claims.map Prod.fst).Nodup := by
  obtain ⟨cluster, hRun, hDelivered⟩ := Sample.reaches_published
  obtain ⟨hRows, hDistinct, _⟩ := row_lifecycle hRun.reaches
  exact ⟨cluster, hRun.reaches, hDelivered, fun row hRow => (hRows row hRow).1, hDistinct⟩

/-- The first dispatcher comes to the last row two seconds before the deadline
that the second one has set. -/
theorem deadline_missed : ∃ cluster : Cluster Command Thrown (World Bool) Bool,
    (services Sample.parse).Reaches (.start (World.start 0)) cluster ∧
    (cluster.processes true).bind publishing = some ⟨"16", "claim 1", .object Sample.event⟩ ∧
    cluster.world.now = 32000 ∧
    (cluster.world.outbox.find? "16").map (·.nextAttemptAt) = some (some 34000) ∧
    ¬Honors cluster true := by
  obtain ⟨next, hFirst⟩ := Sample.runs_first
  obtain ⟨rest, hSecond⟩ := Sample.runs_second
  have hInserted := (Sample.reaches_inserted ((List.range 17).map toString)
    (by decide +kernel)).reaches
  have hLate := hInserted.spawn rfl (Spawns.dispatcher 1) hFirst
  have hFailed := hLate.spawn rfl (Spawns.dispatcher 1) hSecond
  have hTime : Sample.failed.now = 32000 := by decide +kernel
  have hDeadline : (Sample.failed.outbox.find? "16").map (·.nextAttemptAt) = some (some 34000) := by
    decide +kernel
  refine ⟨_, hFailed, rfl, hTime, hDeadline, fun hHonors => ?_⟩
  obtain ⟨stored, hFound, _, _, hDue⟩ := hHonors ⟨"16", "claim 1", .object Sample.event⟩ rfl
  have hFound' : Sample.failed.outbox.find? "16" = some stored := hFound
  rw [hFound', Option.map_some, Option.some_inj] at hDeadline
  have hNow : 34000 ≤ Sample.failed.now := hDue 34000 hDeadline
  omega

end World
end ExchangeMatching.Realtime
