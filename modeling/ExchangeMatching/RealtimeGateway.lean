import ExchangeMatching.Accounts
import ExchangeMatching.Library.Processes
import ExchangeMatching.Notifications
import ExchangeMatching.OrderMatching

/-! The realtime gateway. A socket joins the room of the user for whom its
token verifies; market events go to all sockets and account events to the room
of their user. Handshakes, verifications, closings and messages of the channel
interleave in any order. -/
namespace ExchangeMatching

open Processes

def realtimeEventsChannel : String := "realtime-events"
def marketChangedEvent : String := "market:changed"
def accountChangedEvent : String := "account:changed"
def userRoomPrefix : String := "user:"

/-- What the server sends: to the sockets in a room, or to all of them. -/
structure Emission where
  room : Option String
  name : String
  event : RealtimeDispatchEvent
deriving DecidableEq, Repr

/-- What a connection handler asks of the token service and of its socket. -/
inductive GatewayCommand : Type → Type where
  | verifyAsync (token : String) : GatewayCommand JwtPayload
  | join (room : String) : GatewayCommand Unit
  | disconnect : GatewayCommand Unit

namespace RealtimeGateway

def bearerPrefix : String := "Bearer "

/-- The token of the handshake, which is given if it is text. -/
def extractToken (authToken : Option String) : Option String :=
  let token := (authToken.map trim).filter (· ≠ "")
  token.map fun token =>
    if bearerPrefix.toList.isPrefixOf token.toList then
      .ofList (token.toList.drop bearerPrefix.length)
    else token

def buildUserRoom (userId : UserId) : String := userRoomPrefix ++ userId

def handleConnection (authToken : Option String) : Process GatewayCommand Thrown Unit :=
  match extractToken authToken with
  | none => .perform .disconnect
  | some token => do
      let joined ← Process.attempt do
        let payload ← Process.perform (.verifyAsync token)
        Process.perform (.join (buildUserRoom payload.sub))
      match joined with
      | .ok () => return ()
      | .error _ => .perform .disconnect

def dispatchEvent : RealtimeDispatchEvent → Emission
  | .marketChanged reason orderId tradeIds =>
      ⟨none, marketChangedEvent, .marketChanged reason orderId tradeIds⟩
  | .accountChanged reason userId orderId tradeIds =>
      ⟨some (buildUserRoom userId), accountChangedEvent,
        .accountChanged reason userId orderId tradeIds⟩

/-- Different users have different rooms, because the prefix has a fixed length. -/
theorem buildUserRoom_injective {userId other : UserId}
    (h : buildUserRoom userId = buildUserRoom other) : userId = other :=
  (String.append_right_inj _).mp h

end RealtimeGateway

namespace Gateway

open RealtimeGateway

structure Connection where
  authToken : Option String
  connected : Bool
  rooms : List String
  received : List Emission
deriving DecidableEq, Repr

namespace Connection

variable (connection : Connection)

/-- The server reaches a connected socket that is in the room. -/
def hears (emission : Emission) : Bool :=
  connection.connected && emission.room.all (· ∈ connection.rooms)

def receive (emission : Emission) : Connection :=
  if connection.hears emission then
    { connection with received := connection.received ++ [emission] }
  else connection

/-- A socket that has been disconnected joins no room any more. -/
def join (room : String) : Connection :=
  if connection.connected then { connection with rooms := room :: connection.rooms } else connection

def disconnect : Connection := { connection with connected := false, rooms := [] }

end Connection

/-- The sockets of one gateway, and what it has dispatched. -/
structure World (Socket : Type) where
  connections : Socket → Option Connection
  dispatched : List RealtimeDispatchEvent

namespace World

variable {Socket : Type} [DecidableEq Socket] (world : World Socket)

def start : World Socket := ⟨fun _ => none, []⟩

def modify (socket : Socket) (f : Connection → Connection) : World Socket :=
  { world with
    connections := Function.update world.connections socket ((world.connections socket).map f) }

/-- The event is emitted to every socket that the emission reaches. -/
def emit (event : RealtimeDispatchEvent) : World Socket where
  connections socket := (world.connections socket).map (·.receive (dispatchEvent event))
  dispatched := world.dispatched ++ [event]

variable (parse : String → Except Thrown RealtimeDispatchEvent)

/-- The listener of the subscriber. A message that does not parse is logged. -/
def onMessage (channel message : String) : World Socket :=
  if channel ≠ realtimeEventsChannel then world
  else match parse message with
    | .ok event => world.emit event
    | .error _ => world

variable (verifyAsync : Nat → String → Except Thrown JwtPayload)

/-- Whether a token verifies may depend on the time. -/
def Effect (socket : Socket) {Reply : Type} (command : GatewayCommand Reply) (world : World Socket)
    (reply : Reply) (world' : World Socket) : Prop :=
  match command with
  | .verifyAsync token => ∃ now : Nat, verifyAsync now token = .ok reply ∧ world' = world
  | .join room => world' = world.modify socket (·.join room)
  | .disconnect => world' = world.modify socket .disconnect

inductive Outside : World Socket → World Socket → Prop where
  | connect {world : World Socket} (socket : Socket) (authToken : Option String)
      (new : world.connections socket = none) :
      Outside world { world with
        connections := Function.update world.connections socket (some ⟨authToken, true, [], []⟩) }
  | close {world : World Socket} (socket : Socket) : Outside world (world.modify socket .disconnect)
  | message {world : World Socket} (channel content : String) :
      Outside world (world.onMessage parse channel content)

/-- The handler of a socket runs with the token of its handshake. -/
def Spawns (socket : Socket) (world : World Socket) (process : Process GatewayCommand Thrown Unit) :
    Prop :=
  ∃ connection, world.connections socket = some connection ∧
    process = handleConnection connection.authToken

def services : Services GatewayCommand Thrown (World Socket) Socket where
  effect := Effect verifyAsync
  outside := Outside parse
  spawns := Spawns

end World

section Admission

variable {verifyAsync : Nat → String → Except Thrown JwtPayload}
  {parse : String → Except Thrown RealtimeDispatchEvent} {userId : UserId} {connection : Connection}
  {emission : Emission}

/-- The token of the handshake has verified, at some time, for the user. -/
def Verified (verifyAsync : Nat → String → Except Thrown JwtPayload) (authToken : Option String)
    (userId : UserId) : Prop :=
  ∃ token now payload, extractToken authToken = some token ∧ verifyAsync now token = .ok payload ∧
    payload.sub = userId

/-- The socket is in rooms of verified users only, and has received nothing
else than dispatched market events and account events of these users. -/
structure Connection.Sound (verifyAsync : Nat → String → Except Thrown JwtPayload)
    (dispatched : List RealtimeDispatchEvent) (connection : Connection) : Prop where
  rooms : ∀ room ∈ connection.rooms, ∃ userId, Verified verifyAsync
    connection.authToken userId ∧ room = buildUserRoom userId
  received : ∀ emission ∈ connection.received, ∃ event ∈ dispatched, emission =
    dispatchEvent event ∧ ∀ userId, event.notifies userId = true →
    Verified verifyAsync connection.authToken userId

/-- An event that is for one user is emitted to the room of that user. -/
theorem room_of_notifies {event : RealtimeDispatchEvent} (h : event.notifies userId = true) :
    (dispatchEvent event).room = some (buildUserRoom userId) := by
  cases event with
  | marketChanged reason orderId tradeIds => cases h
  | accountChanged reason user orderId tradeIds =>
      have hUser : user = userId := of_decide_eq_true h
      rw [← hUser]
      rfl

namespace Connection.Sound

variable {dispatched : List RealtimeDispatchEvent}

/-- What a connection receives is in one of its rooms, or for everybody, so it stays
sound. -/
theorem receive (h : connection.Sound verifyAsync dispatched) (event : RealtimeDispatchEvent) :
    (connection.receive (dispatchEvent event)).Sound verifyAsync (dispatched ++ [event]) := by
  have hOld : connection.Sound verifyAsync (dispatched ++ [event]) :=
    ⟨h.rooms, fun emission hEmission => by
      obtain ⟨old, hMem, hRest⟩ := h.received emission hEmission
      exact ⟨old, List.mem_append_left _ hMem, hRest⟩⟩
  unfold Connection.receive
  split_ifs with hHears
  · refine ⟨hOld.rooms, fun emission hEmission => ?_⟩
    rcases List.mem_append.mp hEmission with hMem | hNew
    · exact hOld.received emission hMem
    · refine ⟨event, List.mem_append_right _ (List.mem_singleton.mpr rfl),
        List.mem_singleton.mp hNew, fun userId hNotifies => ?_⟩
      rw [hears, Bool.and_eq_true, room_of_notifies hNotifies] at hHears
      obtain ⟨user, hUser, hRoom⟩ := h.rooms _ (of_decide_eq_true hHears.2)
      exact buildUserRoom_injective hRoom ▸ hUser
  · exact hOld

/-- Joining the room of the user that the token was verified for keeps a connection
sound. -/
theorem join (h : connection.Sound verifyAsync dispatched)
    (hUser : Verified verifyAsync connection.authToken userId) :
    (connection.join (buildUserRoom userId)).Sound verifyAsync dispatched := by
  unfold Connection.join
  split_ifs
  · refine ⟨fun room hRoom => ?_, h.received⟩
    rcases List.mem_cons.mp hRoom with rfl | hOld
    · exact ⟨userId, hUser, rfl⟩
    · exact h.rooms room hOld
  · exact h

/-- A connection that is closed receives nothing any more and has nothing to lose. -/
theorem disconnect (h : connection.Sound verifyAsync dispatched) :
    connection.disconnect.Sound verifyAsync dispatched :=
  ⟨fun _ hRoom => absurd hRoom List.not_mem_nil, h.received⟩

end Connection.Sound

namespace World

variable {Socket : Type} [DecidableEq Socket] {world world' : World Socket} {socket other : Socket}

/-- A change of one connection leaves the others as they are. -/
theorem connections_modify {f : Connection → Connection} :
    (world.modify socket f).connections other =
      if other = socket then (world.connections other).map f else world.connections other := by
  by_cases hSocket : other = socket
  · rw [if_pos hSocket, hSocket]
    exact Function.update_self ..
  · rw [if_neg hSocket]
    exact Function.update_of_ne hSocket ..

/-- All sockets are sound. -/
def Sound (verifyAsync : Nat → String → Except Thrown JwtPayload) (world : World Socket) : Prop :=
  ∀ socket connection, world.connections socket = some connection →
    connection.Sound verifyAsync world.dispatched

/-- Sockets keep the token of their handshake. -/
def Grows (world world' : World Socket) : Prop :=
  ∀ socket connection, world.connections socket = some connection →
    ∃ later, world'.connections socket = some later ∧ later.authToken = connection.authToken

/-- Connections are only ever changed in place, with their token kept. -/
theorem Grows.modify {f : Connection → Connection} (hToken : ∀ connection,
    (f connection).authToken = connection.authToken) : world.Grows (world.modify socket f) := by
  intro other connection hConnection
  rw [connections_modify]
  split_ifs
  · exact ⟨_, by rw [hConnection, Option.map_some], hToken connection⟩
  · exact ⟨connection, hConnection, rfl⟩

/-- So the world stays sound if the changed connection does. -/
theorem Sound.modify (h : world.Sound verifyAsync) {f : Connection → Connection}
    (hSound : ∀ connection, world.connections socket = some connection →
      connection.Sound verifyAsync world.dispatched →
      (f connection).Sound verifyAsync world.dispatched) :
    (world.modify socket f).Sound verifyAsync := by
  intro other connection hConnection
  rw [connections_modify] at hConnection
  split_ifs at hConnection with hSocket
  · obtain ⟨old, hOld, rfl⟩ := Option.map_eq_some_iff.mp hConnection
    exact hSound old (hSocket ▸ hOld) (h other old hOld)
  · exact h other connection hConnection

/-- Joining a room does not touch the token of the handshake. -/
theorem join_authToken {room : String} :
    (connection.join room).authToken = connection.authToken := by
  unfold Connection.join
  split_ifs <;> rfl

/-- Nor does receiving an event. -/
theorem receive_authToken : (connection.receive emission).authToken = connection.authToken := by
  unfold Connection.receive
  split_ifs <;> rfl

omit [DecidableEq Socket] in
/-- An event is received by the connections that are in its room at this moment,
each of which stays sound. -/
theorem Sound.emit (h : world.Sound verifyAsync) (event : RealtimeDispatchEvent) :
    (world.emit event).Sound verifyAsync := by
  intro socket connection hConnection
  obtain ⟨old, hOld, rfl⟩ := Option.map_eq_some_iff.mp hConnection
  exact (h socket old hOld).receive event

omit [DecidableEq Socket] in
/-- Emitting adds the event to what was dispatched and keeps every token. -/
theorem grows_emit (event : RealtimeDispatchEvent) : world.Grows (world.emit event) :=
  fun _ _ hConnection =>
    ⟨_, Option.map_eq_some_iff.mpr ⟨_, hConnection, rfl⟩, receive_authToken⟩

/-- A handler joins the room of a verified user only. -/
def Allows (verifyAsync : Nat → String → Except Thrown JwtPayload) (socket : Socket) {Reply : Type}
    (command : GatewayCommand Reply) (world : World Socket) : Prop :=
  match command with
  | .join room => ∃ connection, world.connections socket = some connection ∧
      ∃ userId, Verified verifyAsync connection.authToken userId ∧ room = buildUserRoom userId
  | .verifyAsync _ | .disconnect => True

def admission (verifyAsync : Nat → String → Except Thrown JwtPayload)
    (parse : String → Except Thrown RealtimeDispatchEvent) :
    Discipline (services parse verifyAsync : Services GatewayCommand Thrown (World Socket) Socket)
      where
  Sound := Sound verifyAsync
  Grows := Grows
  Allows := Allows verifyAsync
  refl _ _ connection hConnection := ⟨connection, hConnection, rfl⟩
  trans hFirst hSecond socket connection hConnection := by
    obtain ⟨middle, hMiddle, hSame⟩ := hFirst socket connection hConnection
    obtain ⟨last, hLast, hSame'⟩ := hSecond socket middle hMiddle
    exact ⟨last, hLast, hSame'.trans hSame⟩
  effect := by
    intro socket Reply command world reply world' hSound hAllows hEffect
    cases command with
    | verifyAsync token =>
        obtain ⟨_, _, rfl⟩ := hEffect
        exact ⟨hSound, fun _ connection hConnection => ⟨connection, hConnection, rfl⟩⟩
    | join room =>
        cases hEffect
        obtain ⟨connection, hConnection, userId, hUser, rfl⟩ := hAllows
        refine ⟨hSound.modify fun row hRow hOld => ?_, .modify fun _ => join_authToken⟩
        obtain rfl := Option.some.inj (hConnection.symm.trans hRow)
        exact hOld.join hUser
    | disconnect =>
        cases hEffect
        exact ⟨hSound.modify fun _ _ hOld => hOld.disconnect, .modify fun _ => rfl⟩
  outside := by
    intro world world' hSound hOutside
    cases hOutside with
    | connect socket authToken new =>
        constructor
        · intro other connection hConnection
          dsimp only at hConnection
          by_cases hSocket : other = socket
          · rw [hSocket, Function.update_self, Option.some.injEq] at hConnection
            rw [← hConnection]
            exact ⟨fun _ hRoom => absurd hRoom List.not_mem_nil,
              fun _ hReceived => absurd hReceived List.not_mem_nil⟩
          · rw [Function.update_of_ne hSocket] at hConnection
            exact hSound other connection hConnection
        · intro other connection hConnection
          have hSocket : other ≠ socket := by
            rintro rfl
            rw [new] at hConnection
            cases hConnection
          exact ⟨connection, (Function.update_of_ne hSocket ..).trans hConnection, rfl⟩
    | close socket => exact ⟨hSound.modify fun _ _ hOld => hOld.disconnect, .modify fun _ => rfl⟩
    | message channel content =>
        unfold onMessage
        split_ifs
        · exact ⟨hSound, fun _ connection hConnection => ⟨connection, hConnection, rfl⟩⟩
        · cases parse content with
          | ok event => exact ⟨hSound.emit event, grows_emit event⟩
          | error error =>
              exact ⟨hSound, fun _ connection hConnection => ⟨connection, hConnection, rfl⟩⟩

/-- The handler of a socket asks for the room of its own user only. -/
theorem safe_handleConnection (hConnection : world.connections socket = some connection) :
    (admission verifyAsync parse).Safe socket (handleConnection connection.authToken) world
      (fun _ _ => True) := by
  have hDisconnect : ∀ now, (admission verifyAsync parse).Safe socket
      (.perform .disconnect : Process GatewayCommand Thrown Unit) now (fun _ _ => True) :=
    fun _ => .perform (fun _ _ _ => trivial) fun _ _ _ _ _ _ _ _ _ => trivial
  unfold handleConnection
  cases hToken : extractToken connection.authToken with
  | none => exact hDisconnect world
  | some token =>
      have hVerify : (admission verifyAsync parse).Safe socket
          (.perform (.verifyAsync token) : Process GatewayCommand Thrown JwtPayload) world
          (fun payload _ => Verified verifyAsync connection.authToken payload.sub) := by
        refine .perform (fun _ _ _ => trivial) ?_
        rintro now payload later last _ _ ⟨time, hPayload, _⟩ _ _
        exact ⟨token, time, payload, hToken, hPayload, rfl⟩
      have hJoin : (admission verifyAsync parse).Safe socket (do
          let payload ← Process.perform (.verifyAsync token)
          Process.perform (.join (buildUserRoom payload.sub))) world (fun _ _ => True) := by
        refine hVerify.bind fun payload now _ hGrows hPayload => ?_
        refine .perform (fun later _ hLater => ?_) fun _ _ _ _ _ _ _ _ _ => trivial
        obtain ⟨middle, hMiddle, hSame⟩ := hGrows socket connection hConnection
        obtain ⟨row, hRow, hSame'⟩ := hLater socket middle hMiddle
        exact ⟨row, hRow, payload.sub, by rwa [hSame', hSame], rfl⟩
      refine (Discipline.Safe.attempt hJoin).bind fun result now _ _ _ => ?_
      cases result with
      | ok _ => exact fun _ _ _ => trivial
      | error failure => exact hDisconnect now

end World

/-- The event is for everybody or for the user. -/
def concerns (userId : UserId) (event : RealtimeDispatchEvent) : Bool :=
  event.isMarketChanged || event.notifies userId

/-- A socket later on, after some events were dispatched: as long as it stays
connected it stays in its rooms, and in the room of a user it has received
those events that concern the user, once each and in order. -/
structure Connection.Follows (userId : UserId) (events : List RealtimeDispatchEvent)
    (connection later : Connection) : Prop where
  connected : later.connected = true → connection.connected = true
  rooms : later.connected = true → connection.rooms ⊆ later.rooms
  received : later.connected = true → buildUserRoom userId ∈ connection.rooms →
    later.received.filter (concerns userId ·.event) =
      connection.received.filter (concerns userId ·.event) ++
        (events.filter (concerns userId)).map dispatchEvent

namespace Connection.Follows

variable {events events' : List RealtimeDispatchEvent} {later last : Connection}

/-- A connection follows itself with no events in between. -/
theorem refl (userId : UserId) (connection : Connection) :
    Follows userId [] connection connection where
  connected := id
  rooms _ := List.Subset.refl _
  received _ _ := by rw [List.filter_nil, List.map_nil, List.append_nil]

/-- And what follows in two parts follows the events of both. -/
theorem trans (h : Follows userId events connection later)
    (h' : Follows userId events' later last) :
    Follows userId (events ++ events') connection last where
  connected hLast := h.connected (h'.connected hLast)
  rooms hLast := List.Subset.trans (h.rooms (h'.connected hLast)) (h'.rooms hLast)
  received hLast hRoom := by
    have hLater := h'.connected hLast
    rw [h'.received hLast (h.rooms hLater hRoom), h.received hLater hRoom, List.append_assoc,
      List.filter_append, List.map_append]

/-- Rooms are gained without an event being delivered. -/
theorem join (userId : UserId) (connection : Connection) (room : String) :
    Follows userId [] connection (connection.join room) := by
  unfold Connection.join
  split_ifs with hConnected
  · refine ⟨fun _ => hConnected, fun _ => List.subset_cons_self _ _, fun _ _ => ?_⟩
    rw [List.filter_nil, List.map_nil, List.append_nil]
  · exact refl userId connection

/-- A connection that was closed need not follow any more. -/
theorem disconnect (userId : UserId) (connection : Connection) :
    Follows userId [] connection connection.disconnect where
  connected h := by cases h
  rooms h := by cases h
  received h := by cases h

/-- A connected socket in the room of the user receives what concerns the user. -/
theorem receive (userId : UserId) (connection : Connection) (event : RealtimeDispatchEvent) :
    Follows userId [event] connection (connection.receive (dispatchEvent event)) := by
  have hEvent : (dispatchEvent event).event = event := by cases event <;> rfl
  unfold Connection.receive
  split_ifs with hHears
  · refine ⟨id, fun _ => List.Subset.refl _, fun _ _ => ?_⟩
    rw [List.filter_append, List.filter_singleton, List.filter_singleton, hEvent]
    cases concerns userId event <;> rfl
  · refine ⟨id, fun _ => List.Subset.refl _, fun hConnected hRoom => ?_⟩
    have hOther : concerns userId event = false := by
      by_contra hConcerns
      refine hHears ?_
      rw [Bool.not_eq_false, concerns, Bool.or_eq_true] at hConcerns
      rw [hears, hConnected, Bool.true_and]
      rcases hConcerns with hMarket | hNotifies
      · cases event with
        | marketChanged reason orderId tradeIds => rfl
        | accountChanged reason user orderId tradeIds => cases hMarket
      · rw [room_of_notifies hNotifies]
        exact decide_eq_true hRoom
    rw [List.filter_singleton, hOther]
    exact (List.append_nil _).symm

end Connection.Follows

namespace World

variable {Socket : Type} [DecidableEq Socket] {world world' world'' : World Socket}
  {socket : Socket}

/-- All sockets later on. -/
def Follows (userId : UserId) (world world' : World Socket) : Prop :=
  ∃ events, world'.dispatched = world.dispatched ++ events ∧
    ∀ socket connection, world.connections socket = some connection →
      ∃ later, world'.connections socket = some later ∧ connection.Follows userId events later

omit [DecidableEq Socket] in
/-- The world follows itself. -/
theorem Follows.refl (userId : UserId) (world : World Socket) : world.Follows userId world :=
  ⟨[], (List.append_nil _).symm, fun _ connection hConnection =>
    ⟨connection, hConnection, .refl userId connection⟩⟩

omit [DecidableEq Socket] in
/-- Following is transitive, so it can be proved step by step. -/
theorem Follows.trans (h : world.Follows userId world') (h' : world'.Follows userId world'') :
    world.Follows userId world'' := by
  obtain ⟨events, hEvents, hSockets⟩ := h
  obtain ⟨events', hEvents', hSockets'⟩ := h'
  refine ⟨events ++ events', by rw [hEvents', hEvents, List.append_assoc],
    fun socket connection hConnection => ?_⟩
  obtain ⟨later, hLater, hFollows⟩ := hSockets socket connection hConnection
  obtain ⟨last, hLast, hFollows'⟩ := hSockets' socket later hLater
  exact ⟨last, hLast, hFollows.trans hFollows'⟩

/-- A change of one connection that delivers nothing keeps the whole world following. -/
theorem follows_modify {f : Connection → Connection}
    (hFollows : ∀ connection : Connection, connection.Follows userId [] (f connection)) :
    world.Follows userId (world.modify socket f) := by
  refine ⟨[], (List.append_nil _).symm, fun other connection hConnection => ?_⟩
  rw [connections_modify]
  split_ifs
  · exact ⟨_, by rw [hConnection, Option.map_some], hFollows connection⟩
  · exact ⟨connection, hConnection, .refl userId connection⟩

/-- No command of a handler loses an event. -/
theorem follows_of_effect {Reply : Type} {command : GatewayCommand Reply} {reply : Reply}
    (h : Effect verifyAsync socket command world reply world') : world.Follows userId world' := by
  cases command with
  | verifyAsync token =>
      obtain ⟨_, _, rfl⟩ := h
      exact .refl userId world'
  | join room =>
      cases h
      exact follows_modify fun connection => .join userId connection room
  | disconnect =>
      cases h
      exact follows_modify fun connection => .disconnect userId connection

/-- And neither does what happens around the handlers: a handshake, a published
event or the end of a connection. -/
theorem follows_of_outside (h : Outside parse world world') : world.Follows userId world' := by
  cases h with
  | connect socket authToken new =>
      refine ⟨[], (List.append_nil _).symm, fun other connection hConnection => ?_⟩
      have hSocket : other ≠ socket := by
        rintro rfl
        rw [new] at hConnection
        cases hConnection
      exact ⟨connection, (Function.update_of_ne hSocket ..).trans hConnection,
        .refl userId connection⟩
  | close socket => exact follows_modify fun connection => .disconnect userId connection
  | message channel content =>
      unfold onMessage
      split_ifs
      · exact .refl userId world
      · cases parse content with
        | ok event =>
            exact ⟨[event], rfl, fun _ connection hConnection =>
              ⟨_, Option.map_eq_some_iff.mpr ⟨connection, hConnection, rfl⟩,
                .receive userId connection event⟩⟩
        | error error => exact .refl userId world

variable {cluster cluster' : Cluster GatewayCommand Thrown (World Socket) Socket}

/-- So by induction no event is lost over a whole run. -/
theorem follows_of_reaches (hRun : (services parse verifyAsync).Reaches cluster cluster') :
    cluster.world.Follows userId cluster'.world :=
  Services.Reaches.keeps (P := fun world => cluster.world.Follows userId world) hRun
    (fun _ _ _ _ _ _ hEffect hFollows => hFollows.trans (follows_of_effect hEffect))
    (fun _ _ hOutside hFollows => hFollows.trans (follows_of_outside hOutside)) (.refl userId _)

/-- Every world that is reached is sound, for one that has just started is. -/
theorem sound_of_reaches (hRun : (services parse verifyAsync).Reaches (.start start) cluster) :
    cluster.world.Sound verifyAsync := by
  have hStart : (admission verifyAsync parse).Holds
      (Cluster.start start : Cluster GatewayCommand Thrown (World Socket) Socket) :=
    Discipline.holds_start fun _ _ hNone => by cases hNone
  refine (hStart.of_reaches ?_ hRun).sound
  rintro socket world _ _ ⟨connection, hConnection, rfl⟩
  exact safe_handleConnection hConnection

/-- Over any interleaving of handshakes, verifications, closings and messages:
what a socket receives was dispatched, and account events reach it only for
users for whom its own token verifies; and from the moment on at which it has
joined the room of a user, as long as it stays connected, it receives every
event that concerns the user, once and in order. -/
theorem gateway_delivers (hRun : (services parse verifyAsync).Reaches (.start start) cluster)
    (hLater : (services parse verifyAsync).Reaches cluster cluster') :
    (∀ socket connection, cluster'.world.connections socket = some connection →
      ∀ emission ∈ connection.received, ∃ event ∈ cluster'.world.dispatched,
        emission = dispatchEvent event ∧ ∀ userId, event.notifies userId = true →
          Verified verifyAsync connection.authToken userId) ∧
    ∀ userId, ∃ events, cluster'.world.dispatched = cluster.world.dispatched ++ events ∧
      ∀ socket connection, cluster.world.connections socket = some connection →
        buildUserRoom userId ∈ connection.rooms →
        ∃ later, cluster'.world.connections socket = some later ∧ (later.connected = true →
          later.received.filter (concerns userId ·.event) =
            connection.received.filter (concerns userId ·.event) ++
              (events.filter (concerns userId)).map dispatchEvent) := by
  have hSound := sound_of_reaches (hRun.trans hLater)
  refine ⟨fun socket connection hConnection => (hSound socket connection hConnection).received,
    fun userId => ?_⟩
  obtain ⟨events, hEvents, hSockets⟩ := @follows_of_reaches _ _ userId _ _ _ _ hLater
  refine ⟨events, hEvents, fun socket connection hConnection hRoom => ?_⟩
  obtain ⟨later, hFound, hFollows⟩ := hSockets socket connection hConnection
  exact ⟨later, hFound, fun hConnected => hFollows.received hConnected hRoom⟩

end World

end Admission

namespace Sample

def event : RealtimeDispatchEvent := .accountChanged .orderCreated "user 1" "order 1" none

def payload : JwtPayload := ⟨"user 1", "alice"⟩

def verifyAsync (_ : Nat) (token : String) : Except Thrown JwtPayload :=
  if token = "signed" then .ok payload else .error (.error "jwt malformed")

/-- The sample verifies its one token. -/
theorem verifyAsync_signed : verifyAsync 0 "signed" = .ok payload := by decide

def parse (content : String) : Except Thrown RealtimeDispatchEvent :=
  if content = "event" then .ok event else .error .other

def connected : World Bool where
  connections := Function.update (fun _ => none) true (some ⟨some " Bearer signed ", true, [], []⟩)
  dispatched := []

def joined : World Bool := connected.modify true (·.join (buildUserRoom "user 1"))

/-- One socket is connected and its handler has joined the room of its user. -/
theorem reaches_joined (parse : String → Except Thrown RealtimeDispatchEvent)
    {verifyAsync : Nat → String → Except Thrown JwtPayload} {payload : JwtPayload}
    (hVerified : verifyAsync 0 "signed" = .ok payload) :
    ∃ cluster, (World.services parse verifyAsync).Reaches
      (.start (World.start : World Bool)) cluster ∧
      cluster.world = connected.modify true (·.join (buildUserRoom payload.sub)) := by
  have hConnected : (World.services parse verifyAsync).Reaches (.start (World.start : World Bool))
      ⟨connected, fun _ => none⟩ :=
    Services.Reaches.outside .refl (World.Outside.connect true (some " Bearer signed ") rfl)
  have hToken : extractToken (some " Bearer signed ") = some "signed" := by decide +kernel
  have hRuns : ∃ rest, (World.services parse verifyAsync).Runs true
      (handleConnection (some " Bearer signed ")) connected rest
      (connected.modify true (·.join (buildUserRoom payload.sub))) := by
    unfold handleConnection
    rw [hToken]
    have hVerify : World.Effect verifyAsync true
      (.verifyAsync "signed") connected payload connected :=
      ⟨0, hVerified, rfl⟩
    have hJoin : World.Effect verifyAsync true (.join (buildUserRoom payload.sub)) connected ()
        (connected.modify true (·.join (buildUserRoom payload.sub))) := rfl
    exact ⟨_, .perform (Except.ok payload) (.done hVerify)
      (.perform (Except.ok ()) (.done hJoin) .nil)⟩
  obtain ⟨_, hHandler⟩ := hRuns
  have hSpawns : World.Spawns true connected (handleConnection (some " Bearer signed ")) :=
    ⟨⟨some " Bearer signed ", true, [], []⟩, rfl, rfl⟩
  exact ⟨_, hConnected.spawn rfl hSpawns hHandler, rfl⟩

end Sample

/-- The socket receives the event of its user. -/
theorem World.gateway_delivers_sample : ∃ cluster cluster' later,
    (services Sample.parse Sample.verifyAsync).Reaches (.start (start : World Bool)) cluster ∧
    (services Sample.parse Sample.verifyAsync).Reaches cluster cluster' ∧
    cluster'.world.connections true = some later ∧ later.received = [dispatchEvent Sample.event] ∧
    ∃ event ∈ cluster'.world.dispatched, dispatchEvent Sample.event = dispatchEvent event ∧
      ∀ userId, event.notifies userId = true →
        Verified Sample.verifyAsync later.authToken userId := by
  obtain ⟨cluster, hRun, hWorld⟩ : ∃ cluster, (services Sample.parse Sample.verifyAsync).Reaches
      (.start (start : World Bool)) cluster ∧ cluster.world = Sample.joined :=
    Sample.reaches_joined Sample.parse Sample.verifyAsync_signed
  have hLater : (services Sample.parse Sample.verifyAsync).Reaches cluster
      { cluster with
        world := cluster.world.onMessage Sample.parse realtimeEventsChannel "event" } :=
    Services.Reaches.outside .refl (Outside.message realtimeEventsChannel "event")
  have hReceived : (Sample.joined.onMessage Sample.parse realtimeEventsChannel "event").connections
      true =
        some ⟨some " Bearer signed ", true, ["user:user 1"], [dispatchEvent Sample.event]⟩ := by
    decide +kernel
  refine ⟨cluster, _,
    ⟨some " Bearer signed ", true, ["user:user 1"], [dispatchEvent Sample.event]⟩, hRun,
    hLater, ?_, rfl, ?_⟩
  · rw [hWorld]
    exact hReceived
  · refine (gateway_delivers hRun hLater).1 true
      ⟨some " Bearer signed ", true, ["user:user 1"], [dispatchEvent Sample.event]⟩ ?_ _
        List.mem_cons_self
    rw [hWorld]
    exact hReceived

end Gateway
end ExchangeMatching
