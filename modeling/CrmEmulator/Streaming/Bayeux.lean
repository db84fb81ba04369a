import CrmEmulator.Streaming.Bus
import CrmEmulator.Json.Members
import CrmEmulator.Text.Numeral

/-!
# CrmEmulator.Streaming.Bayeux — the messages of streaming clients

A request is a list of messages, or a single one.  Every message is answered on its own, in order;
a message that cannot be read is answered with an error and does not stop the others.
-/

namespace CrmEmulator

namespace Bayeux

/-! ## Messages -/

structure Message where
  channel : String
  clientId : Option String
  subscription : Option String
  id : Option Json
  ext : Option Json
deriving DecidableEq

namespace Message

/-- The members of a message, in the order of a message by position. -/
def memberNames : List String := ["channel", "clientId", "subscription", "id", "ext"]

/-- Null or any document. -/
def readAny? : Json → Option (Option Json)
  | .null => some none
  | doc => some (some doc)

def ofMembers? (members : List (String × Json)) : Option Message := do
  return {
    channel := ← Json.readMember? members "channel" "" Json.readString?
    clientId := ← Json.readMember? members "clientId" none (Json.readOption? Json.readString?)
    subscription :=
      ← Json.readMember? members "subscription" none (Json.readOption? Json.readString?)
    id := ← Json.readMember? members "id" none readAny?
    ext := ← Json.readMember? members "ext" none readAny? }

/-- The message of an object, or of a list that gives all its members by position. -/
def ofJson? : Json → Option Message
  | .obj members => ofMembers? members
  | .arr items =>
    if items.length = memberNames.length then ofMembers? (memberNames.zip items) else none
  | _ => none

/-- The number after which a subscriber wants events: that of its channel in `ext.replay`, or else
new events only. -/
def replayFrom (m : Message) : Int :=
  match (m.ext.bind (·.member? "replay")).bind (·.member? (m.subscription.getD "")) with
  | some (.int n) => if Numeral.inInt64 n then n else replayNew
  | _ => replayNew

/-- The id of a message as its answer repeats it. -/
def idJson (m : Message) : Json := m.id.getD .null

def clientJson (m : Message) : Json := (m.clientId.map Json.str).getD .null

def client (m : Message) : String := m.clientId.getD ""

end Message

/-! ## Answers -/

def retryAdvice : Json :=
  .obj [("reconnect", .str "retry"), ("interval", .ofNat 0), ("timeout", .ofNat 110000)]

def unknownClient (m : Message) : Json :=
  .obj [
    ("channel", .str m.channel),
    ("clientId", m.clientJson),
    ("successful", .bool false),
    ("error", .str "403::Unknown client"),
    ("advice", .obj [("reconnect", .str "handshake"), ("interval", .ofNat 0)]),
    ("id", m.idJson)]

def unreadable : Json :=
  .obj [
    ("channel", .str ""),
    ("successful", .bool false),
    ("error", .str "400::Invalid message: the document is not a message")]

def unknownChannel (m : Message) : Json :=
  .obj [
    ("channel", .str m.channel),
    ("successful", .bool false),
    ("error", .str ("Unknown meta channel: " ++ m.channel)),
    ("id", m.idJson)]

/-- The bus with the supply that new clients come from. -/
structure State where
  bus : EventBus
  supply : Supply
deriving DecidableEq

def handshake (st : State) (m : Message) : Json × State :=
  let (client, bus, supply) := st.bus.connect st.supply
  (.obj [
    ("channel", .str "/meta/handshake"),
    ("version", .str "1.0"),
    ("minimumVersion", .str "1.0"),
    ("clientId", .str client),
    ("supportedConnectionTypes", .ofStrings ["long-polling"]),
    ("successful", .bool true),
    ("id", m.idJson),
    ("ext", .obj [("replay", .bool true), ("payload", .bool true)]),
    ("advice", retryAdvice)], ⟨bus, supply⟩)

/-- The answer to a subscription that was made or ended. -/
def subscribed (channel : String) (m : Message) (subscription : String) : Json :=
  .obj [
    ("channel", .str channel),
    ("clientId", .str m.client),
    ("subscription", .str subscription),
    ("successful", .bool true),
    ("id", m.idJson)]

def subscribe (st : State) (m : Message) : Json × State :=
  match m.subscription with
  | none =>
    (.obj [
      ("channel", .str "/meta/subscribe"),
      ("clientId", m.clientJson),
      ("successful", .bool false),
      ("error", .str "400::subscription is required"),
      ("id", m.idJson)], st)
  | some subscription =>
    match st.bus.subscribe m.client subscription m.replayFrom with
    | .ok bus => (subscribed "/meta/subscribe" m subscription, { st with bus })
    | .error _ => (unknownClient m, st)

def unsubscribe (st : State) (m : Message) : Json × State :=
  match st.bus.unsubscribe m.client (m.subscription.getD "") with
  | .ok (_, bus) =>
    (subscribed "/meta/unsubscribe" m (m.subscription.getD ""), { st with bus })
  | .error _ => (unknownClient m, st)

/-- The events that are due, and after them one acknowledgement. -/
def connect (st : State) (m : Message) : List Json × State :=
  match st.bus.poll m.client with
  | .error _ => ([unknownClient m], st)
  | .ok (deliveries, bus) =>
    (deliveries.map Delivery.toJson ++ [.obj [
      ("channel", .str "/meta/connect"),
      ("clientId", .str m.client),
      ("successful", .bool true),
      ("id", m.idJson),
      ("advice", retryAdvice)]], { st with bus })

def disconnect (st : State) (m : Message) : Json × State :=
  let (_, bus) := st.bus.disconnect m.client
  (.obj [
    ("channel", .str "/meta/disconnect"),
    ("clientId", .str m.client),
    ("successful", .bool true),
    ("id", m.idJson)], { st with bus })

/-- The answers to one message.  Nothing else happens while a client waits for events, so a wait
ends with what was due when it began. -/
def dispatch (st : State) (m : Message) : List Json × State :=
  let single (answer : Json × State) : List Json × State := ([answer.1], answer.2)
  match m.channel with
  | "/meta/handshake" => single (handshake st m)
  | "/meta/subscribe" => single (subscribe st m)
  | "/meta/unsubscribe" => single (unsubscribe st m)
  | "/meta/connect" => connect st m
  | "/meta/disconnect" => single (disconnect st m)
  | _ => ([unknownChannel m], st)

/-- The answers to one document of a request. -/
def answer (st : State) (doc : Json) : List Json × State :=
  match Message.ofJson? doc with
  | some m => dispatch st m
  | none => ([unreadable], st)

def answerAll (st : State) : List Json → List Json × State
  | [] => ([], st)
  | doc :: docs =>
    let (first, st) := answer st doc
    let (rest, st) := answerAll st docs
    (first ++ rest, st)

/-- The answers to a request: a list of messages, or a single one. -/
def handle (st : State) (body : Json) : List Json × State :=
  match body with
  | .arr docs => answerAll st docs
  | doc => answerAll st [doc]

end Bayeux

end CrmEmulator
