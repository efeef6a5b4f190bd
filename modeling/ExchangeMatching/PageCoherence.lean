import ExchangeMatching.RealtimePipeline
import ExchangeMatching.Views

/-! The exchange with its realtime outbox and the pages that watch it. A call
changes the database and stores the events that report it in one transaction;
dispatchers, the channel and the gateway bring them to the sockets; and a page
asks again for what they invalidate. -/
namespace ExchangeMatching

def RealtimeDispatchEvent.type : RealtimeDispatchEvent → String
  | .marketChanged .. => "market.changed"
  | .accountChanged .. => "account.changed"

namespace RealtimeOutboxService

open Realtime

/-- The entries of some events. Each gets an id of its own. -/
def buildEntries (ids : List String) (events : List RealtimeDispatchEvent) :
    List RealtimeOutboxEntry :=
  ids.zipWith (fun id event => ⟨id, event.type, .object event⟩) events

theorem payload_buildEntries {ids : List String} {events : List RealtimeDispatchEvent}
    (h : ids.length = events.length) :
    (buildEntries ids events).map (·.payload) = events.map .object := by
  rw [buildEntries, List.map_zipWith, ← List.map_uncurry_zip_eq_zipWith]
  calc (ids.zip events).map (Function.uncurry fun _ event => Payload.object event)
      = ((ids.zip events).map Prod.snd).map .object := (List.map_map ..).symm
    _ = events.map .object := by rw [List.map_snd_zip h.ge]

end RealtimeOutboxService

namespace Realtime

open Processes Gateway RealtimeGateway RealtimeOutboxService

/-- A page that hears of a change to one of its queries is concerned by it. -/
theorem concerns_of_invalidates {viewer : UserId} {key : QueryKey} {event : RealtimeDispatchEvent}
    (h : ExchangeRealtime.invalidates viewer key (dispatchEvent event) = true) :
    concerns viewer event = true := by
  cases event with
  | marketChanged reason orderId tradeIds => rfl
  | accountChanged reason userId orderId tradeIds =>
      rw [ExchangeRealtime.invalidates, Bool.and_eq_true] at h
      have hRoom : buildUserRoom userId = buildUserRoom viewer := of_decide_eq_true h.1
      exact decide_eq_true (buildUserRoom_injective hRoom)

/-- The calls so far, and the way of the events that they stored. -/
structure Deployment (Index Socket : Type) : Type 1 where
  history : History
  pipeline : Pipeline Index Socket

namespace Deployment

variable {Index Socket : Type}

def start (db : Database) (now : Nat) : Deployment Index Socket := ⟨.start db, .start now⟩

def journal (deployment : Deployment Index Socket) : Journal Index :=
  deployment.pipeline.publisher.world

/-- The transaction of a call stores these entries. -/
def store (deployment : Deployment Index Socket) (entries : List RealtimeOutboxEntry)
    (outbox : Outbox) :
    Pipeline Index Socket :=
  { deployment.pipeline with publisher := { deployment.pipeline.publisher with
    world := { deployment.journal with
      outbox := outbox
      inserted := deployment.journal.inserted ++ entries } } }

variable (newDecimal : String → Option DecimalValue)
  (parse : String → Except Thrown RealtimeDispatchEvent)
  (stringify : RealtimeDispatchEvent → String)
  (verifyAsync : Nat → String → Except Thrown JwtPayload) [DecidableEq Index] [DecidableEq Socket]

/-- Calls run one after another, as if each were alone. Nothing else stores events. -/
inductive Step (deployment : Deployment Index Socket) : Deployment Index Socket → Prop where
  | call (invocation : Invocation) {events : List RealtimeDispatchEvent} {ids : List String}
      {outbox : Outbox} (caller : ∀ orderId, invocation.call ≠ .cancelOrder "" orderId)
      (appends : (deployment.history.call newDecimal invocation).db.realtimeOutbox =
        deployment.history.db.realtimeOutbox ++ events)
      (drawn : ids.length = events.length)
      (insert : deployment.journal.outbox.insertEvents deployment.journal.now
        (buildEntries ids events) = .ok outbox) :
      Step deployment ⟨deployment.history.call newDecimal invocation,
        deployment.store (buildEntries ids events) outbox⟩
  | pipeline {pipeline : Pipeline Index Socket}
      (step : Pipeline.Step parse stringify verifyAsync deployment.pipeline pipeline)
      (quiet : pipeline.publisher.world.inserted = deployment.journal.inserted) :
      Step deployment { deployment with pipeline := pipeline }

def Reaches : Deployment Index Socket → Deployment Index Socket → Prop :=
  Relation.ReflTransGen (Step newDecimal parse stringify verifyAsync)

variable {newDecimal parse stringify verifyAsync} {first later : Deployment Index Socket}
  {db : Database} {now : Nat}

theorem reaches_pipeline (h : Reaches newDecimal parse stringify verifyAsync first later) :
    Pipeline.Reaches parse stringify verifyAsync first.pipeline later.pipeline := by
  induction h with
  | refl => exact .refl
  | tail _ hStep ih =>
      cases hStep with
      | call invocation caller appends drawn insert =>
          exact ih.tail (Pipeline.step_of_silent (.outside (.insertEvents _ insert)) rfl)
      | pipeline step quiet => exact ih.tail step

/-- What the pipeline does while no call is made. -/
theorem reaches_of_pipeline {pipeline : Pipeline Index Socket}
    (h : Pipeline.Reaches parse stringify verifyAsync first.pipeline pipeline)
    (hRun : Pipeline.Reaches parse stringify verifyAsync (.start now) first.pipeline)
    (hQuiet : pipeline.publisher.world.inserted = first.journal.inserted) :
    Reaches newDecimal parse stringify verifyAsync first { first with pipeline := pipeline } := by
  induction h with
  | refl => exact .refl
  | @tail middle last hBefore hStep ih =>
      have hHolds := Journal.authentic_of_reaches (Pipeline.reaches_publisher hRun)
      have hEarlier :=
        (Journal.recent_of_reaches hHolds (Pipeline.reaches_publisher hBefore)).1.inserted
      have hLater := (Journal.recent_of_reaches
        (Journal.authentic_of_reaches (Pipeline.reaches_publisher (hRun.trans hBefore)))
        (Pipeline.reaches_publisher (.single hStep))).1.inserted
      have hSame : middle.publisher.world.inserted = first.journal.inserted := by
        refine (hEarlier.eq_of_length (le_antisymm hEarlier.length_le ?_)).symm
        exact hLater.length_le.trans_eq (congrArg List.length hQuiet)
      exact (ih hSame).tail (.pipeline hStep (hQuiet.trans hSame.symm))

/-- After repairs of the outbox the gateway takes all messages from the channel. -/
theorem exists_recovered (hJson : ∀ event, parse (stringify event) = .ok event)
    (hRun : Pipeline.Reaches parse stringify verifyAsync (.start now) first.pipeline)
    {index : Index} {journal' : Journal Index}
    (hRepairs : (Journal.services parse).Repairs Journal.Ticks index first.journal journal')
    (hInserted : journal'.inserted = first.journal.inserted) :
    ∃ last events, Pipeline.Recovers parse stringify index first.pipeline last.pipeline ∧
      Reaches newDecimal parse stringify verifyAsync first last ∧ last.history = first.history ∧
      last.journal = journal' ∧ last.pipeline.sent = first.pipeline.sent ++ events ∧
      last.pipeline.dispatched = first.pipeline.dispatched ++ (first.pipeline.channel ++ events) ∧
      ∀ socket connection, first.pipeline.gateway.world.connections socket = some connection →
        connection.connected = true →
        ∃ connection', last.pipeline.gateway.world.connections socket =
          some connection' ∧ connection'.connected = true := by
  have hPublisher := Pipeline.reaches_publisher hRun
  obtain ⟨events, hEvents⟩ := Pipeline.sent_grows hPublisher hRepairs.reaches
  obtain ⟨pipeline, hRecovers, hJournal, hSent, hDispatched, hOpen⟩ :=
    Pipeline.exists_recovered hJson first.pipeline hRepairs hEvents.symm
  exact ⟨{ first with pipeline := pipeline }, events, hRecovers,
    reaches_of_pipeline (hRecovers.reaches hPublisher) hRun (hJournal ▸ hInserted), rfl, hJournal,
    hSent, hDispatched, hOpen⟩

theorem exists_calls (hRun : Reaches newDecimal parse stringify verifyAsync (start db now) first) :
    ∃ invocations, first.history = (History.start db).calls newDecimal invocations := by
  induction hRun with
  | refl => exact ⟨[], rfl⟩
  | tail _ hStep ih =>
      obtain ⟨invocations, hCalls⟩ := ih
      cases hStep with
      | call invocation caller appends drawn insert =>
          exact ⟨invocations ++ [invocation], by rw [History.calls_append, ← hCalls]; rfl⟩
      | pipeline step quiet => exact ⟨invocations, hCalls⟩

/-- What was stored between two moments are the events that announce the changes. -/
theorem announced_of_reaches {startsWith : String → String → Bool} {text : TradeId → String}
    (hOpening : db.Opening)
    (hRun : Reaches newDecimal parse stringify verifyAsync (start db now) first)
    (hLater : Reaches newDecimal parse stringify verifyAsync first later) :
    first.history.db.Announced newDecimal startsWith text later.history.db ∧
    ∃ entries, later.journal.inserted = first.journal.inserted ++ entries ∧
      later.history.db.realtimeOutbox.map Payload.object =
        first.history.db.realtimeOutbox.map Payload.object ++ entries.map (·.payload) := by
  induction hLater with
  | refl => exact ⟨.refl _, [], (List.append_nil _).symm, (List.append_nil _).symm⟩
  | @tail middle last hBefore hStep ih =>
      obtain ⟨hAnnounced, entries, hInserted, hEvents⟩ := ih
      cases hStep with
      | @call invocation events ids outbox caller appends drawn insert =>
          obtain ⟨invocations, hCalls⟩ := exists_calls (hRun.trans hBefore)
          have hCall := @History.announced_call newDecimal startsWith text db hOpening invocations
            invocation caller
          rw [← hCalls] at hCall
          refine ⟨hAnnounced.trans hCall, entries ++ buildEntries ids events, ?_, ?_⟩
          · rw [← List.append_assoc, ← hInserted]
            rfl
          · rw [appends, List.map_append, hEvents, List.append_assoc, List.map_append,
              payload_buildEntries drawn]
      | pipeline step quiet => exact ⟨hAnnounced, entries, quiet.trans hInserted, hEvents⟩

section Pages

variable (newDecimal) (startsWith : String → String → Bool) (text : TradeId → String)

/-- These emissions make the page of a viewer ask again for whatever is answered
differently. -/
def Tells (db db' : Database) (viewer : UserId) (emissions : List Emission) : Prop :=
  ∀ (time : Nat) (asked shown : View), asked.key = shown.key →
    shown.answer newDecimal startsWith text db'.toMarket viewer time ≠
      asked.answer newDecimal startsWith text db.toMarket viewer time →
    ∃ emission ∈ emissions, ExchangeRealtime.invalidates viewer shown.key emission = true

variable {newDecimal startsWith text}
variable (hJson : ∀ event, parse (stringify event) = .ok event) (hOpening : db.Opening)
  (hRun : Reaches newDecimal parse stringify verifyAsync (start db now) first)
include hOpening hRun

/-- Everything stored can be read. -/
theorem exists_object {entry : RealtimeOutboxEntry} (hEntry : entry ∈ first.journal.inserted) :
    ∃ event, entry.payload = .object event := by
  obtain ⟨_, entries, hInserted, hEvents⟩ :=
    @announced_of_reaches _ _ newDecimal parse stringify verifyAsync _ _ _ _ db now
      (fun _ _ => true) toString hOpening .refl hRun
  have hMem : entry.payload ∈ first.history.db.realtimeOutbox.map Payload.object := by
    rw [hEvents]
    refine List.mem_append_right _ (List.mem_map_of_mem ?_)
    rwa [hInserted] at hEntry
  obtain ⟨event, _, hEvent⟩ := List.mem_map.mp hMem
  exact ⟨event, hEvent.symm⟩

/-- Ten minutes without failures publish whatever has not been given up. -/
theorem isSome_publishedAt {row : RealtimeEventOutbox} (hRow : row ∈ first.journal.outbox)
    (hAlive : row.isFinal → row.deadLetteredAt = none) :
    (row.afterMinutes parse first.journal.now realtimeOutboxMaxAttempts).publishedAt.isSome := by
  have hReaches := Pipeline.reaches_publisher (reaches_pipeline hRun)
  have hSettles := @RealtimeEventOutbox.settles_afterMinutes parse row first.journal.now
    ((Journal.sound_of_reaches hReaches).rows row hRow)
  by_cases hFinal : row.isFinal
  · have hSome := hFinal.resolve_right fun hDead => by
      rw [hAlive hFinal] at hDead
      cases hDead
    rwa [hSettles.final hFinal]
  · obtain ⟨event, hObject⟩ :=
      exists_object hOpening hRun ((Journal.authentic_of_reaches hReaches).sound.rows row hRow)
    have hRead : (row.payload.read parse).isOk = true := by
      rw [hObject]
      rfl
    rw [hSettles.published hFinal hRead]
    rfl

/-- When all that was stored since was published since and is delivered, the
sockets have been told. -/
theorem exists_told (hLater : Reaches newDecimal parse stringify verifyAsync first later)
    (hPublished : ∀ entry ∈ later.journal.inserted.drop first.journal.inserted.length,
      ∃ sent ∈ later.journal.published.drop first.journal.published.length, sent.1.payload =
        entry.payload)
    (hDelivered : Pipeline.Delivered first.pipeline later.pipeline) {viewer : UserId}
    {socket : Socket} {connection : Connection}
    (hConnection : first.pipeline.gateway.world.connections socket = some connection)
    (hRoom : buildUserRoom viewer ∈ connection.rooms) :
    ∃ connection', later.pipeline.gateway.world.connections socket = some connection' ∧
      (connection'.connected = true → ∃ emissions,
        connection'.received.filter (concerns viewer ·.event) =
          connection.received.filter (concerns viewer ·.event) ++ emissions ∧
        Tells newDecimal startsWith text first.history.db later.history.db viewer emissions) := by
  obtain ⟨connection', hFound, hReceives⟩ :=
    Pipeline.exists_received (reaches_pipeline hLater) hDelivered hConnection hRoom
  refine ⟨connection', hFound, fun hConnected => ?_⟩
  obtain ⟨emissions, hReceived, hSent⟩ := hReceives hConnected
  refine ⟨emissions, hReceived, fun time asked shown hKey hDiffers => ?_⟩
  obtain ⟨⟨events, hAppends, hAnnounced⟩, entries, hInserted, hEvents⟩ :=
    @announced_of_reaches _ _ newDecimal parse stringify verifyAsync _ _ _ _ _ _ startsWith text
      hOpening hRun hLater
  obtain ⟨event, hEvent, hInvalidates⟩ := hAnnounced viewer time asked shown hKey hDiffers
  -- The event was stored in one of the entries since, so it was published since.
  rw [hAppends, List.map_append] at hEvents
  have hPayload : Payload.object event ∈ entries.map (·.payload) :=
    List.append_cancel_left hEvents ▸ List.mem_map_of_mem hEvent
  obtain ⟨entry, hEntry, hObject⟩ := List.mem_map.mp hPayload
  have hSince : entry ∈ later.journal.inserted.drop first.journal.inserted.length := by
    rwa [hInserted, List.drop_left]
  obtain ⟨sent, hPublication, hSame⟩ := hPublished entry hSince
  have hAuthentic := (Journal.authentic_of_reaches
    (Pipeline.reaches_publisher (reaches_pipeline (hRun.trans hLater)))).sound
  have hRead := (hAuthentic.published sent (List.mem_of_mem_drop hPublication)).2
  rw [hSame, hObject] at hRead
  cases hRead
  exact ⟨_, hSent sent hPublication (concerns_of_invalidates hInvalidates), hInvalidates⟩

/-- A page shows the present once it has asked again for what it was told of. Over
any calls, crashes, retries, losses and reconnections of less than a week: when all
that is stored since is marked as published and what was published is delivered, a
socket that was in the room of its user and has stayed connected has received
emissions that invalidate every query of the page that is now answered differently. -/
theorem pages_converge (hLater : Reaches newDecimal parse stringify verifyAsync first later)
    (hWeek : later.journal.now < first.journal.now + realtimeOutboxPublishedRetentionDays *
      millisecondsPerDay)
    (hPublished : ∀ row ∈ later.journal.outbox, first.journal.now ≤ row.createdAt →
      row.publishedAt.isSome)
    (hDelivered : Pipeline.Delivered first.pipeline later.pipeline) {viewer : UserId}
    {socket : Socket} {connection : Connection}
    (hConnection : first.pipeline.gateway.world.connections socket = some connection)
    (hRoom : buildUserRoom viewer ∈ connection.rooms) :
    ∃ connection', later.pipeline.gateway.world.connections socket = some connection' ∧
      (connection'.connected = true → ∃ emissions,
        connection'.received.filter (concerns viewer ·.event) =
          connection.received.filter (concerns viewer ·.event) ++ emissions ∧
        Tells newDecimal startsWith text first.history.db later.history.db viewer emissions) := by
  refine exists_told hOpening hRun hLater (fun entry hEntry => ?_) hDelivered hConnection hRoom
  obtain ⟨row, hRow, rfl, hYoung⟩ :=
    Journal.young_of_reaches (Pipeline.reaches_publisher (reaches_pipeline hRun))
    (Pipeline.reaches_publisher (reaches_pipeline hLater)) hWeek entry hEntry
  obtain ⟨sent, hSent, _, hPayload⟩ := hYoung.recent.published (hPublished row hRow hYoung.created)
  exact ⟨sent, hSent, hPayload⟩

include hJson in
/-- And the pages can catch up. However many processes hang, as long as nothing that
is stored since has been given up and no message since is lost, there is a recovery
of ten minutes with a single dispatcher, the gateway and no further call that tells
every such socket of every query that is answered differently. -/
theorem pages_catch_up (hLater : Reaches newDecimal parse stringify verifyAsync first later)
    (hWeek : later.journal.now + realtimeOutboxMaxAttempts * realtimeOutboxMaxRetryDelayMs <
      first.journal.now + realtimeOutboxPublishedRetentionDays * millisecondsPerDay)
    (hAlive : ∀ row ∈ later.journal.outbox, first.journal.now ≤ row.createdAt →
      row.deadLetteredAt = none)
    (hKept : Pipeline.Kept first.pipeline later.pipeline) (index : Index) :
    ∃ last, Pipeline.Recovers parse stringify index later.pipeline last.pipeline ∧
      Reaches newDecimal parse stringify verifyAsync later last ∧ last.history = later.history ∧
      last.journal.now = later.journal.now + realtimeOutboxMaxAttempts *
        realtimeOutboxMaxRetryDelayMs ∧
      ∀ viewer socket connection connection', first.pipeline.gateway.world.connections socket =
        some connection → buildUserRoom viewer ∈ connection.rooms →
        later.pipeline.gateway.world.connections socket = some connection' →
        connection'.connected = true →
        ∃ connection'' emissions, last.pipeline.gateway.world.connections socket =
          some connection'' ∧ connection''.received.filter (concerns viewer ·.event) =
            connection.received.filter (concerns viewer ·.event) ++ emissions ∧
          Tells newDecimal startsWith text first.history.db later.history.db viewer emissions := by
  have hAll := hRun.trans hLater
  have hPipeline := reaches_pipeline hAll
  obtain ⟨journal', hRepairs, hNow, hRows, hInserted, _⟩ := Journal.exists_afterMinutes
    (Pipeline.reaches_publisher hPipeline) index realtimeOutboxMaxAttempts
  obtain ⟨last, events, hRecovers, hLast, hHistory, rfl, hSent, hDispatched, hOpen⟩ :=
    @exists_recovered _ _ newDecimal _ _ _ _ _ later _ hJson hPipeline _ _ hRepairs hInserted
  have hDelivered := hKept.delivered (reaches_pipeline hRun)
    (reaches_pipeline hLater) hSent hDispatched
  -- Nothing that is stored since is left over.
  have hPublished : ∀ entry ∈ last.journal.inserted.drop first.journal.inserted.length,
      ∃ sent ∈ last.journal.published.drop first.journal.published.length, sent.1.payload =
        entry.payload := by
    intro entry hEntry
    obtain ⟨row, hRow, rfl, hYoung⟩ := Journal.young_of_reaches
      (Pipeline.reaches_publisher (reaches_pipeline hRun))
      (Pipeline.reaches_publisher (reaches_pipeline (hLater.trans hLast)))
        (hNow.trans_lt hWeek) entry hEntry
    rw [Table.mem_def, show last.pipeline.publisher.world.outbox.rows = _ from hRows] at hRow
    obtain ⟨old, hOld, rfl⟩ := List.mem_map.mp hRow
    have hSome := isSome_publishedAt hOpening hAll hOld fun hFinal =>
      hAlive old hOld (RealtimeEventOutbox.afterMinutes_of_final hFinal ▸ hYoung.created)
    obtain ⟨sent, hSent, _, hPayload⟩ := hYoung.recent.published hSome
    exact ⟨sent, hSent, hPayload⟩
  refine ⟨last, hRecovers, hLast, hHistory, hNow,
    fun viewer socket connection connection' hConnection hRoom hLaterFound hConnected => ?_⟩
  obtain ⟨connection'', hFound, hStill⟩ := hOpen socket connection' hLaterFound hConnected
  obtain ⟨same, hSame, hTold⟩ :=
    @exists_told _ _ newDecimal parse stringify verifyAsync _ _ _ last db now
    startsWith text hOpening hRun (hLater.trans hLast) hPublished hDelivered viewer socket
      connection
    hConnection hRoom
  obtain rfl : same = connection'' := Option.some.inj (hSame.symm.trans hFound)
  obtain ⟨emissions, hReceived, hTells⟩ := hTold hStill
  exact ⟨same, emissions, hFound, hReceived, hHistory ▸ hTells⟩

end Pages

end Deployment

namespace Sample

def seller : JwtPayload := ⟨"seller", "alice"⟩

def verifySeller (_ : Nat) (token : String) : Except Thrown JwtPayload :=
  if token = "signed" then .ok seller else .error (.error "jwt malformed")

def order : Invocation := ⟨.createOrder "seller" .sell "1" "5", ⟨"sell", 1, "intent 1", 10⟩⟩

def orderEvent : RealtimeDispatchEvent := .accountChanged .orderCreated "seller" "sell" none

def orderStored : Outbox :=
  match Outbox.insertEvents .empty 0 (buildEntries ["evt"] [orderEvent]) with
  | .ok outbox => outbox
  | .error _ => .empty

/-- A user places an order after the own page has joined its room. -/
theorem reaches_ordered : ∃ first later : Deployment Bool Bool,
    Deployment.Reaches ExchangeMatching.Sample.newDecimal read stringify verifySeller
      (.start ExchangeMatching.Sample.start 0) first ∧
    Deployment.Reaches ExchangeMatching.Sample.newDecimal read stringify verifySeller first later ∧
    first.history = .start ExchangeMatching.Sample.start ∧ first.journal.now = 0 ∧
    later.history = (History.start ExchangeMatching.Sample.start).call
      ExchangeMatching.Sample.newDecimal order ∧
    later.journal =
      { Journal.start 0 with
        outbox := orderStored, inserted := buildEntries ["evt"] [orderEvent] } ∧
    later.pipeline.gateway = first.pipeline.gateway ∧ Pipeline.Kept first.pipeline later.pipeline ∧
    first.pipeline.gateway.world.connections true =
      some ⟨some " Bearer signed ", true, ["user:seller"], []⟩ := by
  have hVerified : verifySeller 0 "signed" = .ok seller := by decide
  obtain ⟨gateway, hGateway, hWorld⟩ := Gateway.Sample.reaches_joined read hVerified
  have hQuiet : gateway.world.dispatched = (Pipeline.start 0 : Pipeline Bool Bool).dispatched := by
    rw [hWorld]
    rfl
  have hJoined := @Pipeline.reaches_of_gateway Bool Bool read stringify verifySeller _ _
    (.start 0) gateway hGateway hQuiet
  let first : Deployment Bool Bool :=
    ⟨.start ExchangeMatching.Sample.start, ⟨.start (Journal.start 0), [], gateway⟩⟩
  have hRun : Deployment.Reaches ExchangeMatching.Sample.newDecimal read stringify verifySeller
      (.start ExchangeMatching.Sample.start 0) first :=
    Deployment.reaches_of_pipeline hJoined .refl rfl
  have hAppends :
      ((History.start ExchangeMatching.Sample.start).call ExchangeMatching.Sample.newDecimal
      order).db.realtimeOutbox = ExchangeMatching.Sample.start.realtimeOutbox ++
        [orderEvent] := by decide +kernel
  have hInsert : Outbox.insertEvents .empty 0 (buildEntries ["evt"] [orderEvent]) =
    .ok orderStored := rfl
  have hCall : Deployment.Step ExchangeMatching.Sample.newDecimal read stringify verifySeller first
      ⟨first.history.call ExchangeMatching.Sample.newDecimal order,
        first.store (buildEntries ["evt"] [orderEvent]) orderStored⟩ :=
    .call order (fun orderId hNone => by cases hNone) hAppends rfl hInsert
  refine ⟨first, _, hRun, .single hCall, rfl, rfl, rfl, rfl, rfl, Pipeline.Kept.refl _, ?_⟩
  rw [show first.pipeline.gateway.world = _ from hWorld]
  rfl

/-- The user's wallet is another one then. -/
theorem wallet_changed : View.wallet.answer ExchangeMatching.Sample.newDecimal
      (fun id start => start.isPrefixOf id) toString
        ((History.start ExchangeMatching.Sample.start).call
        ExchangeMatching.Sample.newDecimal order).db.toMarket "seller" 0 ≠
    View.wallet.answer ExchangeMatching.Sample.newDecimal
      (fun id start => start.isPrefixOf id) toString
      ExchangeMatching.Sample.start.toMarket "seller" 0 := by
  intro hSame
  have hReserved := congrArg Except.toOption (Answer.wallet.inj hSame)
  have hBtc := congrArg (·.map WalletSummary.reservedBtc) hReserved
  revert hBtc
  decide +kernel

end Sample

namespace Deployment

/-- The event of the order is published, and the page has been told. -/
theorem pages_converge_sample : ∃ (first last : Deployment Bool Bool) (connection : Connection),
    Reaches ExchangeMatching.Sample.newDecimal Sample.read Sample.stringify Sample.verifySeller
      (start ExchangeMatching.Sample.start 0) first ∧
    Reaches ExchangeMatching.Sample.newDecimal Sample.read Sample.stringify Sample.verifySeller
      first last ∧
    last.pipeline.gateway.world.connections true = some connection ∧
    ∃ emission ∈ connection.received, ExchangeRealtime.invalidates "seller"
      QueryKeys.wallet emission = true := by
  obtain ⟨first, later, hRun, hLater, hStart, hTime, hHistory, hJournal, hGateway, hKept, hFound⟩ :=
    Sample.reaches_ordered
  obtain ⟨journal', hRepairs, hAttempts⟩ :=
    @Journal.exists_attempted Bool Sample.read true later.journal
  obtain ⟨last, events, _, hLast, hSameHistory, rfl, hSent, hDispatched, hOpen⟩ :=
    @exists_recovered Bool Bool ExchangeMatching.Sample.newDecimal Sample.read Sample.stringify
      Sample.verifySeller _ _ later _
    Sample.read_stringify (reaches_pipeline (hRun.trans hLater)) _ _ hRepairs hAttempts.inserted
  have hReaches := hLater.trans hLast
  have hDelivered := hKept.delivered (reaches_pipeline hRun)
    (reaches_pipeline hLater) hSent hDispatched
  have hWeek : last.journal.now <
      first.journal.now + realtimeOutboxPublishedRetentionDays * millisecondsPerDay := by
    rw [hAttempts.now, hJournal, hTime]
    decide
  have hPublished : ∀ row ∈ last.journal.outbox, first.journal.now ≤ row.createdAt →
      row.publishedAt.isSome := by
    rw [hAttempts.outbox, hJournal]
    intro row hRow _
    have hRows : ∀ row ∈ (Sample.orderStored.attempt Sample.read 0
        (·.isClaimable 0 realtimeOutboxClaimTimeoutSeconds)).rows,
          row.publishedAt.isSome := by decide +kernel
    exact hRows row hRow
  obtain ⟨connection, hConnection, hConnected⟩ := hOpen true _ (hGateway ▸ hFound) rfl
  obtain ⟨same, hSame, hTold⟩ :=
    @pages_converge Bool Bool ExchangeMatching.Sample.newDecimal Sample.read
    Sample.stringify Sample.verifySeller _ _ first _ ExchangeMatching.Sample.start 0
    (fun id start => start.isPrefixOf id) toString ExchangeMatching.Sample.opening hRun hReaches
    hWeek hPublished hDelivered "seller" true _ hFound List.mem_cons_self
  obtain rfl : same = connection := Option.some.inj (hSame.symm.trans hConnection)
  obtain ⟨emissions, hReceived, hTells⟩ := hTold hConnected
  rw [hSameHistory, hHistory, hStart] at hTells
  obtain ⟨emission, hEmission, hInvalidates⟩ := hTells 0 .wallet .wallet rfl Sample.wallet_changed
  refine ⟨first, _, same, hRun, hReaches, hSame, emission, ?_, hInvalidates⟩
  refine List.mem_of_mem_filter (p := (concerns "seller" ·.event)) ?_
  rw [hReceived]
  exact List.mem_append_right _ hEmission

/-- The page of the user is told to ask for its wallet again. -/
theorem pages_catch_up_sample :
    ∃ (first later last : Deployment Bool Bool) (connection : Connection),
    Reaches ExchangeMatching.Sample.newDecimal Sample.read Sample.stringify Sample.verifySeller
      (start ExchangeMatching.Sample.start 0) first ∧
    Reaches ExchangeMatching.Sample.newDecimal Sample.read Sample.stringify Sample.verifySeller
      first later ∧
    Pipeline.Recovers Sample.read Sample.stringify true later.pipeline last.pipeline ∧
    last.history = later.history ∧ last.journal.now = 600000 ∧
    last.pipeline.gateway.world.connections true = some connection ∧
    ∃ emission ∈ connection.received, ExchangeRealtime.invalidates "seller"
      QueryKeys.wallet emission = true := by
  obtain ⟨first, later, hRun, hLater, hStart, hTime, hHistory, hJournal, hGateway, hKept, hFound⟩ :=
    Sample.reaches_ordered
  have hNow : later.journal.now = 0 := congrArg (fun journal : Journal Bool => journal.now) hJournal
  have hAlive : ∀ row ∈ later.journal.outbox, first.journal.now ≤ row.createdAt →
      row.deadLetteredAt = none := by
    rw [hJournal]
    intro row hRow _
    have hRows : ∀ row ∈ Sample.orderStored.rows, row.deadLetteredAt = none := by decide +kernel
    exact hRows row hRow
  have hWeek : later.journal.now + realtimeOutboxMaxAttempts * realtimeOutboxMaxRetryDelayMs <
      first.journal.now + realtimeOutboxPublishedRetentionDays * millisecondsPerDay := by
    rw [hNow, hTime]
    decide
  obtain ⟨last, hRecovers, _, hSame, hLastNow, hTold⟩ :=
    @pages_catch_up Bool Bool ExchangeMatching.Sample.newDecimal
    Sample.read Sample.stringify Sample.verifySeller _ _ first later ExchangeMatching.Sample.start 0
    (fun id start => start.isPrefixOf id) toString Sample.read_stringify
      ExchangeMatching.Sample.opening hRun hLater
    hWeek hAlive hKept true
  obtain ⟨connection, emissions, hConnection, hReceived, hTells⟩ :=
    hTold "seller" true _ _ hFound List.mem_cons_self (hGateway ▸ hFound) rfl
  rw [hHistory, hStart] at hTells
  obtain ⟨emission, hEmission, hInvalidates⟩ := hTells 0 .wallet .wallet rfl Sample.wallet_changed
  refine ⟨first, later, last, connection, hRun, hLater, hRecovers,
    hSame, by rw [hLastNow, hNow]; rfl, hConnection, emission, ?_, hInvalidates⟩
  refine List.mem_of_mem_filter (p := (concerns "seller" ·.event)) ?_
  rw [hReceived]
  exact List.mem_append_right _ hEmission

end Deployment
end Realtime
end ExchangeMatching
