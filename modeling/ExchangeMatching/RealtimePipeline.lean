import ExchangeMatching.RealtimeGateway
import ExchangeMatching.RealtimeRecovery

/-! The way of an event from the transaction that stores it to the sockets that
it concerns. Dispatchers publish on a channel, from which the gateway takes
message after message; in between sockets come and go, dispatchers crash and
messages get lost. -/
namespace ExchangeMatching.Realtime

open Processes Gateway RealtimeGateway

/-- Some dispatchers, the messages on their way and one gateway. -/
structure Pipeline (Index Socket : Type) : Type 1 where
  publisher : Cluster Command Thrown (Journal Index) Index
  channel : List RealtimeDispatchEvent
  gateway : Cluster GatewayCommand Thrown (Gateway.World Socket) Socket

namespace Pipeline

variable {Index Socket : Type}

def start (now : Nat) : Pipeline Index Socket :=
  ⟨.start (Journal.start now), [], .start Gateway.World.start⟩

variable (parse : String → Except Thrown RealtimeDispatchEvent)
  (stringify : RealtimeDispatchEvent → String)
  (verifyAsync : Nat → String → Except Thrown JwtPayload)

/-- The events that were published. -/
def sent (pipeline : Pipeline Index Socket) : List RealtimeDispatchEvent :=
  pipeline.publisher.world.published.map Prod.snd

/-- The events that the gateway has dispatched. -/
def dispatched (pipeline : Pipeline Index Socket) : List RealtimeDispatchEvent :=
  pipeline.gateway.world.dispatched

/-- Whatever was published between two states has been dispatched in between. -/
def Delivered (first later : Pipeline Index Socket) : Prop :=
  later.sent.drop first.sent.length ⊆ later.dispatched.drop first.dispatched.length

/-- Whatever was published between two states has been dispatched in between, or
is on its way. -/
def Kept (first later : Pipeline Index Socket) : Prop :=
  later.sent.drop first.sent.length ⊆ later.dispatched.drop first.dispatched.length ++ later.channel

/-- The gateway dispatches the next message of the channel. -/
inductive Takes (pipeline : Pipeline Index Socket) : Pipeline Index Socket → Prop where
  | next {event : RealtimeDispatchEvent} {rest : List RealtimeDispatchEvent}
      (waits : pipeline.channel = event :: rest) :
      Takes pipeline { pipeline with
        channel := rest
        gateway := { pipeline.gateway with
          world := pipeline.gateway.world.onMessage parse realtimeEventsChannel (stringify
            event) } }

variable [DecidableEq Index] [DecidableEq Socket]

/-- Both sides go on by themselves. The channel of Redis delivers at most once: it
keeps the order of the messages, but may lose any of them. The subscriber listens
to no other channel. -/
inductive Step (pipeline : Pipeline Index Socket) : Pipeline Index Socket → Prop where
  | publisher {actor : Option Index} {cluster : Cluster Command Thrown (Journal Index) Index}
      {events : List RealtimeDispatchEvent}
      (step : (Journal.services parse).Step pipeline.publisher actor cluster)
      (published : cluster.world.published.map Prod.snd = pipeline.sent ++ events) :
      Step pipeline { pipeline with publisher := cluster, channel := pipeline.channel ++ events }
  | gateway {actor : Option Socket}
      {cluster : Cluster GatewayCommand Thrown (Gateway.World Socket) Socket}
      (step : (Gateway.World.services parse verifyAsync).Step pipeline.gateway actor cluster)
      (quiet : cluster.world.dispatched = pipeline.dispatched) :
      Step pipeline { pipeline with gateway := cluster }
  | message {later : Pipeline Index Socket} (takes : Takes parse stringify pipeline later) :
      Step pipeline later
  | lose {kept : List RealtimeDispatchEvent} (sublist : kept.Sublist pipeline.channel) :
      Step pipeline { pipeline with channel := kept }

def Reaches : Pipeline Index Socket → Pipeline Index Socket → Prop :=
  Relation.ReflTransGen (Step parse stringify verifyAsync)

/-- One dispatcher is started again and again, nothing fails and nothing is lost;
then the gateway takes some of the messages. -/
def Recovers (index : Index) (first later : Pipeline Index Socket) : Prop :=
  ∃ journal' events, (Journal.services parse).Repairs Journal.Ticks index
    first.publisher.world journal' ∧ journal'.published.map Prod.snd = first.sent ++ events ∧
    Relation.ReflTransGen (Takes parse stringify)
      { first with
        publisher := { first.publisher.put index none with world := journal' }
        channel := first.channel ++ events } later

variable {parse stringify verifyAsync} {first later : Pipeline Index Socket} {now : Nat}

theorem reaches_publisher (h : Reaches parse stringify verifyAsync first later) :
    (Journal.services parse).Reaches first.publisher later.publisher := by
  induction h with
  | refl => exact .refl
  | tail _ hStep ih =>
      cases hStep with
      | publisher step published => exact ih.tail ⟨_, step⟩
      | gateway step quiet => exact ih
      | message takes =>
          cases takes
          exact ih
      | lose sublist => exact ih

theorem reaches_gateway (h : Reaches parse stringify verifyAsync first later) :
    (Gateway.World.services parse verifyAsync).Reaches first.gateway later.gateway := by
  induction h with
  | refl => exact .refl
  | tail _ hStep ih =>
      cases hStep with
      | publisher step published => exact ih
      | gateway step quiet => exact ih.tail ⟨_, step⟩
      | message takes =>
          cases takes
          exact ih.tail ⟨none, .outside (.message realtimeEventsChannel _)⟩
      | lose sublist => exact ih

/-- A step of the dispatchers that publishes nothing leaves the channel as it is. -/
theorem step_of_silent {actor : Option Index}
    {cluster : Cluster Command Thrown (Journal Index) Index}
    (h : (Journal.services parse).Step first.publisher actor cluster)
    (hSilent : cluster.world.published = first.publisher.world.published) :
    Step parse stringify verifyAsync first { first with publisher := cluster } := by
  have hPublished : cluster.world.published.map Prod.snd = first.sent ++ [] := by
    rw [hSilent, List.append_nil, sent]
  have hStep := @Step.publisher _ _ parse stringify verifyAsync _ _ first _ _ _ h hPublished
  rwa [List.append_nil] at hStep

omit [DecidableEq Socket] in
/-- What was published once remains published. -/
theorem sent_grows {cluster : Cluster Command Thrown (Journal Index) Index}
    (hRun : (Journal.services parse).Reaches (.start (Journal.start now)) first.publisher)
    (h : (Journal.services parse).Reaches first.publisher cluster) :
    first.sent <+: cluster.world.published.map Prod.snd :=
  (Journal.recent_of_reaches (Journal.authentic_of_reaches hRun) h).1.published.map Prod.snd

/-- What the dispatchers publish alone goes into the channel. -/
theorem reaches_of_publisher {cluster : Cluster Command Thrown (Journal Index) Index}
    {events : List RealtimeDispatchEvent}
    (hRun : (Journal.services parse).Reaches (.start (Journal.start now)) first.publisher)
    (h : (Journal.services parse).Reaches first.publisher cluster)
    (hPublished : cluster.world.published.map Prod.snd = first.sent ++ events) :
    Reaches parse stringify verifyAsync first
      { first with publisher := cluster, channel := first.channel ++ events } := by
  induction h generalizing events with
  | refl =>
      obtain rfl : events = [] := List.append_right_eq_self.mp hPublished.symm
      rw [List.append_nil]
      exact .refl
  | @tail middle last hBefore hStep ih =>
      obtain ⟨actor, hStep⟩ := hStep
      obtain ⟨before, hMiddle⟩ := sent_grows hRun hBefore
      obtain ⟨after, hLast⟩ :=
        ((Journal.moves_of_step (Journal.authentic_of_reaches (hRun.trans hBefore))
          hStep).published).map Prod.snd
      rw [hPublished, ← hMiddle, List.append_assoc, List.append_cancel_left_eq] at hLast
      rw [← hLast, ← List.append_assoc] at hPublished ⊢
      exact (ih hMiddle.symm).tail
        (.publisher hStep (hPublished.trans (congrArg (· ++ after) hMiddle)))

theorem reaches_of_gateway {cluster : Cluster GatewayCommand Thrown (Gateway.World Socket) Socket}
    (h : (Gateway.World.services parse verifyAsync).Reaches first.gateway cluster)
    (hQuiet : cluster.world.dispatched = first.dispatched) :
    Reaches parse stringify verifyAsync first { first with gateway := cluster } := by
  induction h with
  | refl => exact .refl
  | @tail middle last hBefore hStep ih =>
      obtain ⟨before, hEarlier, _⟩ :=
        @Gateway.World.follows_of_reaches verifyAsync parse "" _ _ _ _ hBefore
      obtain ⟨after, hLater, _⟩ :=
        @Gateway.World.follows_of_reaches verifyAsync parse "" _ _ _ _ (.single hStep)
      have hNothing : first.dispatched ++ (before ++ after) = first.dispatched := by
        rw [← List.append_assoc, dispatched, ← hEarlier, ← hLater]
        exact hQuiet
      obtain ⟨rfl, rfl⟩ := List.append_eq_nil_iff.mp (List.append_right_eq_self.mp hNothing)
      rw [List.append_nil] at hEarlier hLater
      obtain ⟨actor, hStep⟩ := hStep
      exact (ih hEarlier).tail (.gateway hStep hLater)

theorem reaches_of_takes (h : Relation.ReflTransGen (Takes parse stringify) first later) :
    Reaches parse stringify verifyAsync first later := by
  induction h with
  | refl => exact .refl
  | tail _ hTakes ih => exact ih.tail (.message hTakes)

/-- A recovery is one of the runs. -/
theorem Recovers.reaches {index : Index} (h : Recovers parse stringify index first later)
    (hRun : (Journal.services parse).Reaches (.start (Journal.start now)) first.publisher) :
    Reaches parse stringify verifyAsync first later := by
  obtain ⟨journal', events, hRepairs, hPublished, hTakes⟩ := h
  exact (reaches_of_publisher hRun hRepairs.reaches hPublished).trans (reaches_of_takes hTakes)

section Json

variable (hJson : ∀ event, parse (stringify event) = .ok event)
include hJson

omit [DecidableEq Index] [DecidableEq Socket] in
theorem onMessage_stringify (world : Gateway.World Socket) (event : RealtimeDispatchEvent) :
    world.onMessage parse realtimeEventsChannel (stringify event) = world.emit event := by
  rw [Gateway.World.onMessage, if_neg (not_not.mpr rfl), hJson]

/-- The gateway dispatches what was published, in the same order, each message at
most once. -/
theorem dispatched_in_order (hRun : Reaches parse stringify verifyAsync (start now) first) :
    (first.dispatched ++ first.channel).Sublist first.sent := by
  induction hRun with
  | refl => exact List.Sublist.refl _
  | @tail middle last hBefore hStep ih =>
      cases hStep with
      | publisher step published =>
          rw [← List.append_assoc, sent, published]
          exact ih.append (List.Sublist.refl _)
      | gateway step quiet =>
          rw [dispatched, quiet]
          exact ih
      | message takes =>
          cases takes with
          | @next event rest waits =>
              rw [dispatched, onMessage_stringify hJson]
              rw [waits, List.append_cons] at ih
              exact ih
      | lose sublist => exact ((List.Sublist.refl _).append sublist).trans ih

omit hJson in
/-- The gateway forgets nothing that it has dispatched. -/
theorem exists_dispatched (hLater : Reaches parse stringify verifyAsync first later) :
    ∃ events, later.dispatched = first.dispatched ++ events := by
  obtain ⟨events, hEvents, _⟩ :=
    @Gateway.World.follows_of_reaches verifyAsync parse "" _ _ _ _ (reaches_gateway hLater)
  exact ⟨events, hEvents⟩

omit [DecidableEq Index] [DecidableEq Socket] hJson in
theorem Kept.refl (pipeline : Pipeline Index Socket) : Kept pipeline pipeline := by
  rw [Kept, List.drop_length]
  exact List.nil_subset _

omit hJson in
/-- If nothing was lost so far, everything is delivered once the channel has been
emptied, with whatever was published on top. -/
theorem Kept.delivered {last : Pipeline Index Socket} (hKept : Kept first later)
    (hRun : Reaches parse stringify verifyAsync (start now) first)
    (hLater : Reaches parse stringify verifyAsync first later) {events : List RealtimeDispatchEvent}
    (hSent : last.sent = later.sent ++ events)
    (hDispatched : last.dispatched = later.dispatched ++ (later.channel ++ events)) :
    Delivered first last := by
  have hPublished : first.sent.length ≤ later.sent.length :=
    (sent_grows (reaches_publisher hRun) (reaches_publisher hLater)).length_le
  obtain ⟨since, hSince⟩ := exists_dispatched hLater
  have hEarlier : first.dispatched.length ≤ later.dispatched.length := by
    rw [hSince, List.length_append]
    exact Nat.le_add_right _ _
  rw [Delivered, hSent, hDispatched, List.drop_append_of_le_length hPublished,
    List.drop_append_of_le_length hEarlier, ← List.append_assoc]
  intro event hEvent
  rcases List.mem_append.mp hEvent with hOld | hNew
  · exact List.mem_append_left _ (hKept hOld)
  · exact List.mem_append_right _ hNew

omit hJson in
/-- Once what was published since is delivered, a socket that was in the room of a
user and has stayed connected has received all of it that concerns the user. -/
theorem exists_received (hLater : Reaches parse stringify verifyAsync first later)
    (hDelivered : Delivered first later) {userId : UserId} {socket : Socket}
    {connection : Connection}
    (hConnection : first.gateway.world.connections socket = some connection)
    (hRoom : buildUserRoom userId ∈ connection.rooms) :
    ∃ connection', later.gateway.world.connections socket = some connection' ∧
      (connection'.connected = true → ∃ emissions,
        connection'.received.filter (concerns userId ·.event) =
          connection.received.filter (concerns userId ·.event) ++ emissions ∧
        ∀ sent ∈ later.publisher.world.published.drop first.publisher.world.published.length,
          concerns userId sent.2 = true → dispatchEvent sent.2 ∈ emissions) := by
  obtain ⟨events, hEvents, hSockets⟩ :=
    @Gateway.World.follows_of_reaches verifyAsync parse userId _ _ _ _ (reaches_gateway hLater)
  obtain ⟨connection', hFound, hFollows⟩ := hSockets socket connection hConnection
  refine ⟨connection', hFound, fun hConnected => ⟨_, hFollows.received hConnected hRoom,
    fun entry hEntry hConcerns => ?_⟩⟩
  have hSince : later.dispatched.drop first.dispatched.length = events :=
    (congrArg (List.drop _) hEvents).trans List.drop_left
  rw [Delivered, hSince] at hDelivered
  refine List.mem_map_of_mem (List.mem_filter.mpr ⟨hDelivered ?_, hConcerns⟩)
  rw [sent, sent, List.length_map, ← List.map_drop]
  exact List.mem_map_of_mem hEntry

/-- Events are delivered from end to end. Over any interleaving, with any crashes,
retries and losses, a socket receives nothing but stored events, and account events
only for users for whom its token verifies; and once everything that was published
since is delivered, a socket that was in the room of a user and has stayed connected
has received every event that concerns the user, was stored since, and is marked as
published. -/
theorem events_delivered (hRun : Reaches parse stringify verifyAsync (start now) first)
    (hLater : Reaches parse stringify verifyAsync first later) :
    (∀ socket connection, later.gateway.world.connections socket = some connection →
      ∀ emission ∈ connection.received, ∃ entry ∈ later.publisher.world.inserted, ∃ event,
        entry.payload.read parse = .ok event ∧ emission = dispatchEvent event ∧
        ∀ userId, event.notifies userId = true →
          Verified verifyAsync connection.authToken userId) ∧
    (Delivered first later → ∀ userId socket connection,
      first.gateway.world.connections socket = some connection →
        buildUserRoom userId ∈ connection.rooms →
      ∃ connection', later.gateway.world.connections socket = some connection' ∧
        (connection'.connected = true → ∃ emissions,
          connection'.received.filter (concerns userId ·.event) =
            connection.received.filter (concerns userId ·.event) ++ emissions ∧
          ∀ row ∈ later.publisher.world.outbox, first.publisher.world.outbox.find? row.id = none →
            row.publishedAt.isSome → ∃ event, row.payload.read parse = .ok event ∧
              (concerns userId event = true → dispatchEvent event ∈ emissions))) := by
  have hAll := hRun.trans hLater
  have hHolds := Journal.authentic_of_reaches (reaches_publisher hRun)
  have hAuthentic := (Journal.authentic_of_reaches (reaches_publisher hAll)).sound
  refine ⟨fun socket connection hConnection emission hEmission => ?_,
    fun hDelivered userId socket connection hConnection hRoom => ?_⟩
  · obtain ⟨event, hEvent, hEq, hVerified⟩ :=
      (Gateway.World.sound_of_reaches (reaches_gateway hAll) socket connection
        hConnection).received emission hEmission
    have hSent := (dispatched_in_order hJson hAll).subset (List.mem_append_left _ hEvent)
    obtain ⟨entry, hEntry, rfl⟩ := List.mem_map.mp hSent
    obtain ⟨hGenuine, hRead⟩ := hAuthentic.published entry hEntry
    obtain ⟨stored, hStored, _, hPayload⟩ := hGenuine.inserted
    exact ⟨stored, hStored, entry.2, hPayload ▸ hRead, hEq, hVerified⟩
  · obtain ⟨connection', hFound, hReceives⟩ := exists_received hLater hDelivered hConnection hRoom
    refine ⟨connection', hFound, fun hConnected => ?_⟩
    obtain ⟨emissions, hReceived, hSent⟩ := hReceives hConnected
    refine ⟨emissions, hReceived, fun row hRow hNew hPublished => ?_⟩
    obtain ⟨hSince, hRecent⟩ := Journal.recent_of_reaches hHolds (reaches_publisher hLater)
    obtain ⟨entry, hEntry, _, hPayload⟩ := (hRecent row hRow hNew).published hPublished
    have hRead := (hAuthentic.published entry (List.mem_of_mem_drop hEntry)).2
    exact ⟨entry.2, hPayload ▸ hRead, hSent entry hEntry⟩

omit [DecidableEq Index] [DecidableEq Socket] in
/-- The gateway takes all messages from the channel, and no socket is closed. -/
theorem exists_drained (first : Pipeline Index Socket) :
    ∃ later, Relation.ReflTransGen (Takes parse stringify) first later ∧
      later.publisher = first.publisher ∧ later.dispatched = first.dispatched ++ first.channel ∧
      ∀ socket connection, first.gateway.world.connections socket = some connection →
        connection.connected = true → ∃ connection', later.gateway.world.connections socket =
          some connection' ∧ connection'.connected = true := by
  obtain ⟨publisher, channel, gateway⟩ := first
  induction channel generalizing gateway with
  | nil =>
      exact ⟨_, .refl, rfl, (List.append_nil _).symm, fun _ connection hFound hConnected =>
        ⟨connection, hFound, hConnected⟩⟩
  | cons event rest ih =>
      obtain ⟨later, hTakes, hPublisher, hDispatched, hOpen⟩ :=
        ih { gateway with world := gateway.world.emit event }
      have hNext := @Takes.next Index Socket parse stringify
        ⟨publisher, event :: rest, gateway⟩ event rest rfl
      rw [onMessage_stringify hJson] at hNext
      refine ⟨later, hTakes.head hNext, hPublisher, hDispatched.trans (List.append_cons ..).symm,
        fun socket connection hFound hConnected => ?_⟩
      refine hOpen socket (connection.receive (dispatchEvent event)) ?_ ?_
      · exact Option.map_eq_some_iff.mpr ⟨connection, hFound, rfl⟩
      · unfold Connection.receive
        split_ifs
        · exact hConnected
        · exact hConnected

omit [DecidableEq Socket] in
/-- After repairs of the outbox the gateway takes all messages from the channel. -/
theorem exists_recovered (first : Pipeline Index Socket) {index : Index} {journal' : Journal Index}
    (hRepairs : (Journal.services parse).Repairs Journal.Ticks index first.publisher.world journal')
    {events : List RealtimeDispatchEvent}
    (hPublished : journal'.published.map Prod.snd = first.sent ++ events) :
    ∃ later, Recovers parse stringify index first later ∧ later.publisher.world = journal' ∧
      later.sent = first.sent ++ events ∧
      later.dispatched = first.dispatched ++ (first.channel ++ events) ∧
      ∀ socket connection, first.gateway.world.connections socket = some connection →
        connection.connected = true → ∃ connection', later.gateway.world.connections socket =
          some connection' ∧ connection'.connected = true := by
  obtain ⟨later, hTakes, hPublisher, hDispatched, hOpen⟩ :=
    @exists_drained Index Socket parse stringify hJson { first with
      publisher := { first.publisher.put index none with world := journal' }
      channel := first.channel ++ events }
  refine ⟨later, ⟨journal', events, hRepairs, hPublished, hTakes⟩, ?_, ?_, hDispatched, hOpen⟩
  · rw [hPublisher]
  · rw [sent, hPublisher]
    exact hPublished

/-- Nothing that is pending is out of reach. In every state, however many processes
hang, there is a recovery of ten minutes with a single dispatcher and the gateway
that brings to each connected socket, besides the messages on their way, every
event that waits in the outbox and concerns the user, once. -/
theorem pending_delivered (hRun : Reaches parse stringify verifyAsync (start now) first)
    (index : Index) : ∃ later pending, Recovers parse stringify index first later ∧
      Reaches parse stringify verifyAsync first later ∧
      later.publisher.world.now =
        first.publisher.world.now + realtimeOutboxMaxAttempts * realtimeOutboxMaxRetryDelayMs ∧
      (∀ row ∈ first.publisher.world.outbox, ∃ row', later.publisher.world.outbox.find? row.id =
        some row' ∧ row.Settles parse first.publisher.world.now row') ∧
      pending.Perm ((first.publisher.world.outbox.readable parse (·.isOpen)).map Prod.snd) ∧
      ∀ userId socket connection, first.gateway.world.connections socket = some connection →
        connection.connected = true → buildUserRoom userId ∈ connection.rooms →
        ∃ connection', later.gateway.world.connections socket = some connection' ∧
          connection'.received.filter (concerns userId ·.event) =
            connection.received.filter (concerns userId ·.event) ++
              ((first.channel ++ pending).filter (concerns userId)).map dispatchEvent := by
  obtain ⟨journal', hRepairs, hNow, hRows, _, sent, hSent, hPending⟩ :=
    Journal.exists_afterMinutes (reaches_publisher hRun) index realtimeOutboxMaxAttempts
  have hPublished : journal'.published.map Prod.snd = first.sent ++ sent.map Prod.snd := by
    rw [hSent, List.map_append, Pipeline.sent]
  obtain ⟨later, hRecovers, rfl, _, hDispatched, hOpen⟩ :=
    @exists_recovered Index Socket parse stringify _ hJson first index _ hRepairs _ hPublished
  have hLater : Reaches parse stringify verifyAsync first later :=
    hRecovers.reaches (reaches_publisher hRun)
  refine ⟨later, sent.map Prod.snd, hRecovers, hLater, hNow, ?_, ?_,
    fun userId socket connection hFound hConnected hRoom => ?_⟩
  · exact fun row hRow => Journal.exists_settled (Journal.sound_of_reaches (reaches_publisher hRun))
      hRows hRow
  · have hEvents := hPending.map Prod.snd
    rwa [List.map_map] at hEvents
  · obtain ⟨connection', hFound', hConnected'⟩ := hOpen socket connection hFound hConnected
    obtain ⟨events, hEvents, hSockets⟩ :=
      @Gateway.World.follows_of_reaches verifyAsync parse userId _ _ _ _ (reaches_gateway hLater)
    obtain ⟨same, hSame, hFollows⟩ := hSockets socket connection hFound
    rw [hFound', Option.some.injEq] at hSame
    subst hSame
    refine ⟨connection', hFound', ?_⟩
    rw [hFollows.received hConnected' hRoom]
    obtain rfl : events = first.channel ++ sent.map Prod.snd :=
      List.append_cancel_left (hEvents.symm.trans hDispatched)
    rfl

end Json

end Pipeline

namespace Sample

/-! Messages that stand in for JSON: a mark stands before each character of a
field, and another one ends the field. -/

def encode : List String → List Char
  | [] => []
  | field :: fields => field.toList.flatMap (fun char => ['-', char]) ++ '.' :: encode fields

def decode : List Char → List String
  | '-' :: char :: chars =>
      match decode chars with
      | [] => []
      | field :: fields => .ofList (char :: field.toList) :: fields
  | '.' :: chars => "" :: decode chars
  | _ => []

theorem decode_encode (fields : List String) : decode (encode fields) = fields := by
  induction fields with
  | nil => rfl
  | cons field fields ih =>
      rw [encode]
      have hField : ∀ chars : List Char, decode
          (chars.flatMap (fun char => ['-', char]) ++ '.' :: encode fields) =
          .ofList chars :: fields := by
        intro chars
        induction chars with
        | nil => simp [decode, ih]
        | cons char chars ihChars => simp [decode, ihChars]
      rw [hField, String.ofList_toList]

def reasonText : AccountChangeReason → String
  | .market .orderOpened => "order-opened"
  | .market .orderCancelled => "order-cancelled"
  | .market .tradeExecuted => "trade-executed"
  | .orderCreated => "order-created"
  | .orderRejected => "order-rejected"

def readReason (text : String) : AccountChangeReason :=
  match text with
  | "order-opened" => .market .orderOpened
  | "order-cancelled" => .market .orderCancelled
  | "trade-executed" => .market .tradeExecuted
  | "order-created" => .orderCreated
  | _ => .orderRejected

/-- Numbers are written as so many characters. -/
def idFields : Option (List TradeId) → List String
  | none => []
  | some tradeIds => "tradeIds" :: tradeIds.map fun tradeId => .ofList (.replicate tradeId '1')

def readIds : List String → Option (List TradeId)
  | [] => none
  | _ :: tradeIds => some (tradeIds.map (·.toList.length))

def stringify : RealtimeDispatchEvent → String
  | .marketChanged reason orderId tradeIds => .ofList (encode
      ("market.changed" :: reasonText (.market reason) :: orderId :: idFields tradeIds))
  | .accountChanged reason userId orderId tradeIds => .ofList (encode
      ("account.changed" :: reasonText reason :: userId :: orderId :: idFields tradeIds))

def read (content : String) : Except Thrown RealtimeDispatchEvent :=
  match decode content.toList with
  | "market.changed" :: reason :: orderId :: rest =>
      match readReason reason with
      | .market reason => .ok (.marketChanged reason orderId (readIds rest))
      | _ => .error .other
  | "account.changed" :: reason :: userId :: orderId :: rest =>
      .ok (.accountChanged (readReason reason) userId orderId (readIds rest))
  | _ => .error (.error "Unexpected end of JSON input")

theorem read_stringify (event : RealtimeDispatchEvent) : read (stringify event) = .ok event := by
  have hIds : ∀ tradeIds : Option (List TradeId), readIds (idFields tradeIds) = tradeIds := by
    rintro (_ | tradeIds)
    · rfl
    · simp [idFields, readIds, Function.comp_def]
  cases event with
  | marketChanged reason orderId tradeIds =>
      rw [stringify, read, String.toList_ofList, decode_encode]
      cases reason <;> simp [reasonText, readReason, hIds]
  | accountChanged reason userId orderId tradeIds =>
      rw [stringify, read, String.toList_ofList, decode_encode]
      cases reason with
      | market reason => cases reason <;> simp [reasonText, readReason, hIds]
      | orderCreated | orderRejected => simp [reasonText, readReason, hIds]

/-- A socket is in the room of its user, and the dispatchers have come as far as these. -/
theorem reaches_joined {cluster : Cluster Command Thrown (Journal Bool) Bool}
    (h : (Journal.services read).Reaches (.start (Journal.start 0)) cluster) :
    ∃ first : Pipeline Bool Bool, Pipeline.Reaches read stringify Gateway.Sample.verifyAsync
        (Pipeline.start 0) first ∧ first.publisher = cluster ∧
        first.gateway.world = Gateway.Sample.joined ∧
      first.channel = first.sent := by
  obtain ⟨gateway, hGateway, hWorld⟩ :=
    Gateway.Sample.reaches_joined read Gateway.Sample.verifyAsync_signed
  have hQuiet : gateway.world.dispatched = (Pipeline.start 0 : Pipeline Bool Bool).dispatched := by
    rw [hWorld]
    rfl
  have hJoined := @Pipeline.reaches_of_gateway Bool Bool read stringify
    Gateway.Sample.verifyAsync _ _ (Pipeline.start 0) gateway hGateway hQuiet
  exact ⟨_, hJoined.trans (Pipeline.reaches_of_publisher .refl h rfl), rfl, hWorld, rfl⟩

end Sample

namespace Pipeline

/-- An event that is stored after a socket has joined reaches it. -/
theorem events_delivered_sample : ∃ (first later : Pipeline Bool Bool) (connection : Connection),
    Reaches Sample.read Sample.stringify Gateway.Sample.verifyAsync (start 0) first ∧
    Reaches Sample.read Sample.stringify Gateway.Sample.verifyAsync first later ∧
    first.publisher.world.outbox.rows = [] ∧
    later.gateway.world.connections true = some connection ∧
    dispatchEvent Sample.event ∈ connection.received := by
  obtain ⟨first, hRun, hPublisher, hGateway, _⟩ :=
    @Sample.reaches_joined (.start (Journal.start 0)) .refl
  obtain ⟨journal', hRepairs, hAttempts⟩ :=
    @Journal.exists_attempted Bool Sample.read true Sample.recorded
  have hStored := (Sample.reaches_recorded Sample.read).trans hRepairs.reaches
  rw [← hPublisher] at hStored
  obtain ⟨events, hEvents⟩ := sent_grows (reaches_publisher hRun) hStored
  have hPublished := @reaches_of_publisher Bool Bool Sample.read Sample.stringify
    Gateway.Sample.verifyAsync _ _ first _ _ _ (reaches_publisher hRun) hStored hEvents.symm
  obtain ⟨later, hDrained, hLast, hDispatched, hOpen⟩ :=
    @exists_drained Bool Bool Sample.read Sample.stringify
    Sample.read_stringify ⟨_, first.channel ++ events, first.gateway⟩
  have hLater := hPublished.trans (reaches_of_takes hDrained)
  have hFound : first.gateway.world.connections true =
      some ⟨some " Bearer signed ", true, ["user:user 1"], []⟩ := hGateway ▸ rfl
  obtain ⟨connection, hConnection, hConnected⟩ := hOpen true _ hFound rfl
  have hSent : later.sent = first.sent ++ events := by
    rw [hEvents, sent, hLast]
  have hDelivered := (Kept.refl first).delivered hRun .refl hSent hDispatched
  obtain ⟨same, hSame, hReceives⟩ :=
    (events_delivered Sample.read_stringify hRun hLater).2 hDelivered "user 1" true _ hFound
      List.mem_cons_self
  rw [hConnection, Option.some.injEq] at hSame
  subst hSame
  obtain ⟨emissions, hReceived, hRows⟩ := hReceives hConnected
  have hRow : later.publisher.world.outbox.find? "0" = some
      ⟨⟨"0", "market.changed", .object Sample.event⟩, 0, none, none, none, none, some 0, none,
        0⟩ := by
    rw [hLast]
    exact (congrArg (Table.find? · "0") hAttempts.outbox).trans (by decide +kernel)
  obtain ⟨event, hRead, hMem⟩ := hRows _ (Table.mem_of_find? hRow) (hPublisher ▸ rfl) rfl
  cases hRead
  have hEmission : dispatchEvent Sample.event ∈ connection.received := by
    refine List.mem_of_mem_filter (p := (concerns "user 1" ·.event)) ?_
    rw [hReceived]
    exact List.mem_append_right _ (hMem rfl)
  exact ⟨first, later, connection, hRun, hLater, hPublisher ▸ rfl, hConnection, hEmission⟩

theorem pending_delivered_sample : ∃ (first later : Pipeline Bool Bool) (connection : Connection),
    Reaches Sample.read Sample.stringify Gateway.Sample.verifyAsync (start 0) first ∧
    first.publisher.world.outbox.rows =
      [Sample.pending "0" (.object Sample.event), Sample.pending "1" (.text "")] ∧
    Recovers Sample.read Sample.stringify true first later ∧
    later.gateway.world.connections true = some connection ∧
    connection.received.filter (concerns "user 1" ·.event) = [dispatchEvent Sample.event] := by
  obtain ⟨cluster, hCrashed, hWorld⟩ := Sample.reaches_crashed Sample.read
  obtain ⟨first, hRun, rfl, hGateway, hChannel⟩ := Sample.reaches_joined hCrashed
  obtain ⟨later, pending, hRecovers, _, _, _, hPending, hSockets⟩ :=
    pending_delivered Sample.read_stringify hRun true
  have hFound : first.gateway.world.connections true =
      some ⟨some " Bearer signed ", true, ["user:user 1"], []⟩ := hGateway ▸ rfl
  obtain ⟨connection, hConnection, hReceived⟩ :=
    hSockets "user 1" true _ hFound rfl List.mem_cons_self
  have hRows : first.publisher.world.outbox.rows =
      [Sample.pending "0" (.object Sample.event), Sample.pending "1" (.text "")] :=
    hWorld ▸ Sample.rows_crashed
  have hSent : first.sent = [] := by
    rw [sent, hWorld]
    rfl
  rw [Outbox.readable, hRows] at hPending
  have hOnly : pending = [Sample.event] := hPending.eq_singleton
  refine ⟨first, later, connection, hRun, hRows, hRecovers, hConnection, hReceived.trans ?_⟩
  rw [hOnly, hChannel, hSent, List.nil_append]
  rfl

end Pipeline
end ExchangeMatching.Realtime
