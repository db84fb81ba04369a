import CrmEmulator.Registry
import CrmEmulator.Failure
import CrmEmulator.Supply

/-!
# CrmEmulator.Streaming.Bus — event logs and client sessions

Every channel has a log of events, numbered by one counter over all channels.  A client has a
cursor for every channel that it subscribes to, and a poll delivers the events after the cursor.

1. Events, logs and sessions.
2. Publishing: find or create the log, then append the event with the next number.
3. Subscribing, polling and leaving.
4. Clearing, in three steps: logs, sessions, counter.
-/

namespace CrmEmulator

/-! ## Events and sessions -/

structure Event where
  replayId : Int
  payload : Json
  createdDate : String
deriving DecidableEq

namespace Event

def toJson (e : Event) : Json :=
  .obj [("replayId", .int e.replayId), ("payload", e.payload), ("createdDate", .str e.createdDate)]

end Event

/-- An event for one subscriber. -/
structure Delivery where
  channel : String
  event : Event
deriving DecidableEq

def Delivery.toJson (d : Delivery) : Json :=
  .obj [("channel", .str d.channel), ("data", d.event.toJson)]

/-- The events of a channel, in the order of publication. -/
abbrev Log := List Event

/-- The number of the last event, if there is one. -/
def Log.latest? (log : Log) : Option Int := log.getLast?.map (·.replayId)

/-- A subscription: a channel and the number after which events are due. -/
structure Subscription where
  channel : String
  cursor : Int
deriving Repr, DecidableEq

structure Session where
  /-- Subscriptions in the order in which they were made. -/
  subscriptions : List Subscription
  connectedAt : String
deriving Repr, DecidableEq

/-- The cursor before all events. -/
def replayAll : Int := -2

/-- The request for events that are published from now on. -/
def replayNew : Int := -1

/-- Logs, sessions, and the number of the last event. -/
structure EventBus where
  channels : Registry Log
  clients : Registry Session
  counter : Int
deriving DecidableEq

namespace EventBus

def empty : EventBus := ⟨.empty, .empty, 0⟩

/-! ## Publishing -/

/-- Make sure that a channel has a log. -/
def openChannel (b : EventBus) (channel : String) : EventBus :=
  if b.channels.contains channel then b else { b with channels := b.channels.put channel [] }

/-- Append an event with the next number to the log of a channel. -/
def appendEvent (b : EventBus) (channel : String) (payload : Json) (now : String) :
    Event × EventBus :=
  let event : Event := ⟨b.counter + 1, payload, now⟩
  let log := (b.channels.get? channel).getD []
  (event, { b with
    channels := b.channels.put channel (log ++ [event])
    counter := b.counter + 1 })

/-- Publish an event. -/
def publish (b : EventBus) (channel : String) (payload : Json) (now : String) :
    Event × EventBus :=
  (b.openChannel channel).appendEvent channel payload now

/-! ## Clients -/

def clientAlphabet : List Char := "0123456789abcdef".toList

/-- The id of a client. -/
def clientId (serial : Nat) : String :=
  "mock-client-" ++ String.ofList (Supply.digitsIn clientAlphabet 12 serial)

/-- Open a session: its id, the bus and the supply after it. -/
def connect (b : EventBus) (supply : Supply) : String × EventBus × Supply :=
  let id := clientId supply.serial
  (id, { b with clients := b.clients.put id ⟨[], supply.now⟩ },
    { supply with serial := supply.serial + 1 })

def hasClient (b : EventBus) (client : String) : Bool := b.clients.contains client

def session (b : EventBus) (client : String) : Except Failure Session :=
  match b.clients.get? client with
  | some s => .ok s
  | none => .error (.notFound ("Unknown client: " ++ client))

/-- The cursor that a request means: for new events it is the last number of the log, or zero if
there is none. -/
def cursorFor (b : EventBus) (channel : String) (replayFrom : Int) : Int :=
  if replayFrom = replayNew then (((b.channels.get? channel).getD []).latest?).getD 0
  else replayFrom

def placeSubscription (sub : Subscription) : List Subscription → List Subscription
  | [] => [sub]
  | old :: rest =>
    if old.channel = sub.channel then sub :: rest else old :: placeSubscription sub rest

/-- Subscribe to a channel, or move the cursor of the subscription to it. -/
def subscribe (b : EventBus) (client channel : String) (replayFrom : Int) :
    Except Failure EventBus := do
  let s ← b.session client
  let subscriptions := placeSubscription ⟨channel, b.cursorFor channel replayFrom⟩ s.subscriptions
  return { b with clients := b.clients.put client { s with subscriptions } }

/-- End a subscription, and say whether there was one. -/
def unsubscribe (b : EventBus) (client channel : String) : Except Failure (Bool × EventBus) := do
  let s ← b.session client
  let subscriptions := s.subscriptions.filter (·.channel ≠ channel)
  return (subscriptions.length ≠ s.subscriptions.length,
    { b with clients := b.clients.put client { s with subscriptions } })

/-- Is an event due for a cursor? -/
def isDue (cursor : Int) (e : Event) : Bool := cursor = replayAll || cursor < e.replayId

/-- What one subscription delivers, and its cursor after it. -/
def pollSubscription (channels : Registry Log) (sub : Subscription) :
    List Delivery × Subscription :=
  match channels.get? sub.channel with
  | none => ([], sub)
  | some log =>
    ((log.filter (isDue sub.cursor)).map (⟨sub.channel, ·⟩),
      { sub with cursor := max (Log.latest? log |>.getD 0) sub.cursor })

/-- What a client's subscriptions deliver, one after the other. -/
def poll (b : EventBus) (client : String) : Except Failure (List Delivery × EventBus) := do
  let s ← b.session client
  let polled := s.subscriptions.map (pollSubscription b.channels)
  return (polled.flatMap (·.1),
    { b with clients := b.clients.put client { s with subscriptions := polled.map (·.2) } })

/-- End a session, and say whether there was one. -/
def disconnect (b : EventBus) (client : String) : Bool × EventBus :=
  (b.hasClient client, { b with clients := b.clients.erase client })

/-! ## Overview -/

def eventCount (b : EventBus) : Nat := b.channels.toList.foldr (fun log n => log.length + n) 0

def eventsJson (b : EventBus) : Json :=
  .obj [
    ("channels", .obj (b.channels.entries.map fun (name, log) => (name, .obj [
      ("count", .ofNat log.length), ("events", .arr (log.map Event.toJson))]))),
    ("totalEvents", .ofNat b.eventCount)]

def clientsJson (b : EventBus) : Json :=
  .obj [
    ("count", .ofNat b.clients.size),
    ("clients", .arr (b.clients.entries.map fun (id, s) => .obj [
      ("id", .str id), ("subscriptions", .ofStrings (s.subscriptions.map (·.channel))),
      ("connectedAt", .str s.connectedAt)]))]

/-! ## Clearing -/

def clearChannels (b : EventBus) : EventBus := { b with channels := .empty }

def clearClients (b : EventBus) : EventBus := { b with clients := .empty }

def resetCounter (b : EventBus) : EventBus := { b with counter := 0 }

/-- The numbers of events and sessions that are dropped, and the bus without them. -/
def clear (b : EventBus) : (Nat × Nat) × EventBus :=
  ((b.eventCount, b.clients.size), b.clearChannels.clearClients.resetCounter)

end EventBus

end CrmEmulator
