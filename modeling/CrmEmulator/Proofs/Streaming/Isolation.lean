import CrmEmulator.Proofs.Streaming.Bus
import CrmEmulator.Streaming.Bayeux

/-!
# CrmEmulator.Proofs.Streaming.Isolation — messages that are refused

1. `Bad`: all reasons to refuse a message.  `Outcome` lists all that a message can do: a bad one
   gets one reply and leaves the state as it is, any other gets the events that it asks for, if it
   is a connect, and one reply after them.
2. `exchanges`: the messages of a request with their answers, each in the state that the messages
   before it have left.
3. By induction over the messages, those that are refused may be left out: the others meet the same
   states and get the same answers, and the last state is the same.
-/

namespace CrmEmulator

/-! ## Sessions -/

namespace EventBus

theorem session_of_hasClient {b : EventBus} {client : String} (h : b.hasClient client) :
    ∃ s, b.session client = .ok s := by
  obtain ⟨s, hs⟩ := Option.isSome_iff_exists.mp h
  exact ⟨s, session_ok.mpr hs⟩

/-- One that is not known is named in the failure. -/
theorem session_of_not_hasClient {b : EventBus} {client : String} (h : b.hasClient client = false) :
    b.session client = .error (.notFound ("Unknown client: " ++ client)) := by
  have hnone : b.clients.get? client = none := by
    simpa [hasClient, Registry.contains] using h
  rw [session, hnone]

end EventBus

namespace Bayeux

/-! ## One message -/

def metaChannels : List String :=
  ["/meta/handshake", "/meta/subscribe", "/meta/unsubscribe", "/meta/connect", "/meta/disconnect"]

/-- The channels whose messages need a session. -/
def clientChannels : List String := ["/meta/subscribe", "/meta/unsubscribe", "/meta/connect"]

/-- The reasons to refuse a message. -/
inductive Bad (st : State) (doc : Json) : Prop
  | unreadable (h : Message.ofJson? doc = none)
  | unknownChannel {m : Message} (h : Message.ofJson? doc = some m)
      (hchannel : m.channel ∉ metaChannels)
  | missingSubscription {m : Message} (h : Message.ofJson? doc = some m)
      (hchannel : m.channel = "/meta/subscribe") (hnone : m.subscription = none)
  | unknownClient {m : Message} (h : Message.ofJson? doc = some m)
      (hchannel : m.channel ∈ clientChannels) (hclient : st.bus.hasClient m.client = false)

/-- The reasons to refuse a message, by its channel. -/
theorem bad_iff {st : State} {doc : Json} {m : Message} (h : Message.ofJson? doc = some m) :
    Bad st doc ↔ m.channel ∉ metaChannels ∨
      (m.channel = "/meta/subscribe" ∧ m.subscription = none) ∨
      (m.channel ∈ clientChannels ∧ st.bus.hasClient m.client = false) := by
  constructor
  · rintro (hnone | ⟨hsome, hchannel⟩ | ⟨hsome, hchannel, hnone⟩ | ⟨hsome, hchannel, hclient⟩)
    · rw [h] at hnone
      cases hnone
    all_goals
      obtain rfl := Option.some_inj.mp (h.symm.trans hsome)
    · exact .inl hchannel
    · exact .inr (.inl ⟨hchannel, hnone⟩)
    · exact .inr (.inr ⟨hchannel, hclient⟩)
  · rintro (hchannel | ⟨hchannel, hnone⟩ | ⟨hchannel, hclient⟩)
    · exact .unknownChannel h hchannel
    · exact .missingSubscription h hchannel hnone
    · exact .unknownClient h hchannel hclient

/-- A document that is a message on the channel of connects. -/
def IsConnect (doc : Json) : Prop :=
  ∃ m, Message.ofJson? doc = some m ∧ m.channel = "/meta/connect"

/-- A reply says whether its message was successful. -/
def Says (success : Bool) (reply : Json) : Prop :=
  reply.member? "successful" = some (.bool success)

/-- Events do not. -/
theorem member?_delivery (d : Delivery) : d.toJson.member? "successful" = none := rfl

/-- All that a message can do: its answers, and the state after it. -/
inductive Outcome (st : State) (doc : Json) : List Json × State → Prop
  | refused {reply : Json} (hbad : Bad st doc) (hreply : Says false reply) :
      Outcome st doc ([reply], st)
  | accepted {events : List Delivery} {reply : Json} {st' : State} (hgood : ¬Bad st doc)
      (hreply : Says true reply) (hevents : events ≠ [] → IsConnect doc) :
      Outcome st doc (events.map Delivery.toJson ++ [reply], st')

theorem Outcome.acknowledged {st st' : State} {doc reply : Json} (hgood : ¬Bad st doc)
    (hreply : Says true reply) : Outcome st doc ([reply], st') :=
  @accepted st doc [] reply st' hgood hreply (absurd rfl)

section Channels

variable {st : State} {doc : Json} {m : Message}

/-- A handshake is always acknowledged. -/
theorem handshake_outcome (h : Message.ofJson? doc = some m)
    (hchannel : m.channel = "/meta/handshake") :
    Outcome st doc ([(handshake st m).1], (handshake st m).2) := by
  refine .acknowledged ?_ rfl
  simp [bad_iff h, hchannel, metaChannels, clientChannels]

/-- A disconnection is always acknowledged. -/
theorem disconnect_outcome (h : Message.ofJson? doc = some m)
    (hchannel : m.channel = "/meta/disconnect") :
    Outcome st doc ([(disconnect st m).1], (disconnect st m).2) := by
  refine .acknowledged ?_ rfl
  simp [bad_iff h, hchannel, metaChannels, clientChannels]

/-- A subscription is acknowledged, or refused and nothing changes. -/
theorem subscribe_outcome (h : Message.ofJson? doc = some m)
    (hchannel : m.channel = "/meta/subscribe") :
    Outcome st doc ([(subscribe st m).1], (subscribe st m).2) := by
  have hclients : m.channel ∈ clientChannels := hchannel ▸ by decide
  cases hsubscription : m.subscription with
  | none =>
    simp only [subscribe, hsubscription]
    exact .refused (.missingSubscription h hchannel hsubscription) rfl
  | some subscription =>
    cases hclient : st.bus.hasClient m.client with
    | false =>
      simp only [subscribe, hsubscription, EventBus.subscribe,
        EventBus.session_of_not_hasClient hclient, error_bind]
      exact .refused (.unknownClient h hclients hclient) rfl
    | true =>
      obtain ⟨s, hs⟩ := EventBus.session_of_hasClient hclient
      simp only [subscribe, hsubscription, EventBus.subscribe, hs, ok_bind]
      refine .acknowledged ?_ rfl
      simp [bad_iff h, hchannel, hsubscription, hclient, metaChannels]

/-- The end of a subscription is acknowledged, or refused and nothing changes. -/
theorem unsubscribe_outcome (h : Message.ofJson? doc = some m)
    (hchannel : m.channel = "/meta/unsubscribe") :
    Outcome st doc ([(unsubscribe st m).1], (unsubscribe st m).2) := by
  have hclients : m.channel ∈ clientChannels := hchannel ▸ by decide
  cases hclient : st.bus.hasClient m.client with
  | false =>
    simp only [unsubscribe, EventBus.unsubscribe, EventBus.session_of_not_hasClient hclient,
      error_bind]
    exact .refused (.unknownClient h hclients hclient) rfl
  | true =>
    obtain ⟨s, hs⟩ := EventBus.session_of_hasClient hclient
    simp only [unsubscribe, EventBus.unsubscribe, hs, ok_bind]
    refine .acknowledged ?_ rfl
    simp [bad_iff h, hchannel, hclient, metaChannels]

/-- A connection is acknowledged with what is due, or refused and nothing changes. -/
theorem connect_outcome (h : Message.ofJson? doc = some m)
    (hchannel : m.channel = "/meta/connect") : Outcome st doc (connect st m) := by
  have hclients : m.channel ∈ clientChannels := hchannel ▸ by decide
  cases hclient : st.bus.hasClient m.client with
  | false =>
    simp only [connect, EventBus.poll, EventBus.session_of_not_hasClient hclient, error_bind]
    exact .refused (.unknownClient h hclients hclient) rfl
  | true =>
    obtain ⟨s, hs⟩ := EventBus.session_of_hasClient hclient
    simp only [connect, EventBus.poll, hs, ok_bind]
    refine .accepted ?_ rfl fun _ => ⟨m, h, hchannel⟩
    simp [bad_iff h, hchannel, hclient, metaChannels]

/-- Every message that is read has one of the outcomes. -/
theorem dispatch_outcome (h : Message.ofJson? doc = some m) :
    Outcome st doc (dispatch st m) := by
  unfold dispatch
  split
  · next hchannel => exact handshake_outcome h hchannel
  · next hchannel => exact subscribe_outcome h hchannel
  · next hchannel => exact unsubscribe_outcome h hchannel
  · next hchannel => exact connect_outcome h hchannel
  · next hchannel => exact disconnect_outcome h hchannel
  · next hhandshake hsubscribe hunsubscribe hconnect hdisconnect =>
    refine .refused (.unknownChannel h ?_) rfl
    simpa [metaChannels] using ⟨hhandshake, hsubscribe, hunsubscribe, hconnect, hdisconnect⟩

end Channels

/-- Every document has one of the outcomes, be it a message or not. -/
theorem answer_outcome (st : State) (doc : Json) : Outcome st doc (answer st doc) := by
  unfold answer
  split
  · next m h => exact dispatch_outcome h
  · next h => exact .refused (.unreadable h) rfl

/-! ## A request -/

/-- The messages of a request. -/
def documents : Json → List Json
  | .arr docs => docs
  | doc => [doc]

theorem handle_eq (st : State) (body : Json) : handle st body = answerAll st (documents body) := by
  cases body <;> rfl

/-- A message, the state that it finds, and its answers. -/
structure Exchange where
  before : State
  document : Json
  answers : List Json
deriving DecidableEq

namespace Exchange

/-- Is there a reply that says that the message failed? -/
def isRefused (e : Exchange) : Bool :=
  e.answers.any fun reply => reply.member? "successful" = some (.bool false)

end Exchange

/-- The messages with their answers, each in the state that those before it have left. -/
def exchanges : State → List Json → List Exchange
  | _, [] => []
  | st, doc :: docs => ⟨st, doc, (answer st doc).1⟩ :: exchanges (answer st doc).2 docs

/-- The exchanges of a request are about its documents, in their order. -/
theorem document_exchanges (st : State) (docs : List Json) :
    (exchanges st docs).map (·.document) = docs := by
  induction docs generalizing st with
  | nil => rfl
  | cons doc docs ih => simp [exchanges, ih]

/-- Their answers are those of the request. -/
theorem answers_exchanges (st : State) (docs : List Json) :
    (exchanges st docs).flatMap (·.answers) = (answerAll st docs).1 := by
  induction docs generalizing st with
  | nil => rfl
  | cons doc docs ih => simp [exchanges, answerAll, ih]

/-- Each of them is an outcome in the state before it. -/
theorem outcome_of_mem_exchanges {st : State} {docs : List Json} {e : Exchange}
    (he : e ∈ exchanges st docs) : ∃ st', Outcome e.before e.document (e.answers, st') := by
  induction docs generalizing st with
  | nil => cases he
  | cons doc docs ih =>
    rcases List.mem_cons.mp he with rfl | he
    · exact ⟨(answer st doc).2, answer_outcome st doc⟩
    · exact ih he

/-! ## Refusals -/

/-- The reply after the events decides. -/
theorem isRefused_eq {e : Exchange} {events : List Delivery} {reply : Json} {success : Bool}
    (h : e.answers = events.map Delivery.toJson ++ [reply]) (hreply : Says success reply) :
    e.isRefused = !success := by
  have hmember : reply.member? "successful" = some (.bool success) := hreply
  cases success <;> simp [Exchange.isRefused, h, hmember, member?_delivery]

/-- Events for a connect, then one reply: that the message failed, if there is a reason to refuse
it. -/
theorem Outcome.answers_eq {st st' : State} {doc : Json} {answers : List Json}
    (h : Outcome st doc (answers, st')) :
    ∃ (events : List Delivery) (success : Bool) (reply : Json),
      answers = events.map Delivery.toJson ++ [reply] ∧ Says success reply ∧
      (events ≠ [] → IsConnect doc) ∧ (success = false ↔ Bad st doc) := by
  cases h with
  | @refused reply hbad hreply =>
    exact ⟨[], false, reply, rfl, hreply, absurd rfl, iff_of_true rfl hbad⟩
  | @accepted events reply _ hgood hreply hevents =>
    exact ⟨events, true, reply, rfl, hreply, hevents, iff_of_false Bool.noConfusion hgood⟩

/-- A message is refused exactly when there is a reason to. -/
theorem isRefused_iff {e : Exchange} {st' : State}
    (h : Outcome e.before e.document (e.answers, st')) :
    e.isRefused ↔ Bad e.before e.document := by
  obtain ⟨events, success, reply, hanswers, hreply, -, hsuccess⟩ := h.answers_eq
  rw [isRefused_eq hanswers hreply, ← hsuccess, Bool.not_eq_true']

/-- A bad message leaves the state as it was. -/
theorem Outcome.kept {st st' : State} {doc : Json} {answers : List Json}
    (h : Outcome st doc (answers, st')) (hbad : Bad st doc) : st' = st := by
  cases h with
  | refused => rfl
  | accepted hgood => exact absurd hbad hgood

/-- Without the messages that are refused, the others meet the same states and get the same
answers. -/
theorem exchanges_accepted (st : State) (docs : List Json) :
    let kept := (exchanges st docs).filter (!·.isRefused)
    exchanges st (kept.map (·.document)) = kept ∧
      (answerAll st (kept.map (·.document))).2 = (answerAll st docs).2 := by
  induction docs generalizing st with
  | nil => exact ⟨rfl, rfl⟩
  | cons doc docs ih =>
    have houtcome : Outcome st doc ((answer st doc).1, (answer st doc).2) := answer_outcome st doc
    obtain ⟨hexchanges, hlast⟩ := ih (answer st doc).2
    cases hrefused : Exchange.isRefused ⟨st, doc, (answer st doc).1⟩ with
    | true =>
      -- the rest of the request starts where the refused message started
      have hkept : (answer st doc).2 = st := houtcome.kept ((isRefused_iff houtcome).mp hrefused)
      rw [hkept] at hexchanges hlast
      simpa [exchanges, answerAll, hrefused, hkept] using ⟨hexchanges, hlast⟩
    | false => simpa [exchanges, answerAll, hrefused] using ⟨hexchanges, hlast⟩

/-- The answers to a request are the answers to its messages, in order: events if the message is a
connect, then one reply that says whether the message was successful.  A message is refused if it
cannot be read, or its channel or client is unknown, or its subscription is missing.  Without the
messages that are refused, the others meet the same states and get the same answers, and the last
state is the same. -/
theorem refused_messages_are_isolated (st : State) (body : Json) :
    let run := exchanges st (documents body)
    let kept := run.filter (!·.isRefused)
    run.map (·.document) = documents body ∧
    (handle st body).1 = run.flatMap (·.answers) ∧
    (∀ e ∈ run, ∃ (events : List Delivery) (success : Bool) (reply : Json),
      e.answers = events.map Delivery.toJson ++ [reply] ∧
      (∀ event ∈ events, event.toJson.member? "successful" = none) ∧
      Says success reply ∧
      (events ≠ [] → IsConnect e.document) ∧
      (success = false ↔ Bad e.before e.document) ∧
      (e.isRefused ↔ success = false)) ∧
    exchanges st (kept.map (·.document)) = kept ∧
    handle st (.arr (kept.map (·.document))) = (kept.flatMap (·.answers), (handle st body).2) := by
  intro run kept
  -- what is refused changes nothing, so the others go on as if it were not there
  obtain ⟨hexchanges, hlast⟩ : exchanges st (kept.map (·.document)) = kept ∧
      (answerAll st (kept.map (·.document))).2 = (answerAll st (documents body)).2 :=
    exchanges_accepted st (documents body)
  refine ⟨document_exchanges st _, ?_, ?_, hexchanges, ?_⟩
  · rw [handle_eq, answers_exchanges]
  · rintro e he
    obtain ⟨st', houtcome⟩ := outcome_of_mem_exchanges he
    obtain ⟨events, success, reply, hanswers, hreply, hevents, hsuccess⟩ := houtcome.answers_eq
    refine ⟨events, success, reply, hanswers, fun event _ => member?_delivery event, hreply,
      hevents, hsuccess, ?_⟩
    rw [isRefused_eq hanswers hreply, Bool.not_eq_true']
  · calc handle st (.arr (kept.map (·.document)))
      _ = answerAll st (kept.map (·.document)) := rfl
      _ = ((exchanges st (kept.map (·.document))).flatMap (·.answers),
            (answerAll st (documents body)).2) := by
        rw [answers_exchanges, ← hlast]
      _ = (kept.flatMap (·.answers), (handle st body).2) := by rw [hexchanges, handle_eq]

/-- A client with a log that it has not subscribed to. -/
def listeningState : State where
  bus := ⟨⟨[("/event/Note__e", [⟨1, .null, "now"⟩])]⟩, ⟨[("a", ⟨[], "now"⟩)]⟩, 1⟩
  supply := ⟨0, 0⟩

/-- A message of a client. -/
def message (channel client : String) (others : List (String × Json)) : Json :=
  .obj ([("channel", .str channel), ("clientId", .str client)] ++ others)

def mixedMessages : List Json := [
  message "/meta/publish" "a" [],
  message "/meta/subscribe" "a" [],
  message "/meta/subscribe" "a" [("subscription", .str "/event/Note__e"),
    ("ext", .obj [("replay", .obj [("/event/Note__e", .int (-2))])])],
  message "/meta/connect" "b" [],
  .str "hello",
  message "/meta/connect" "a" []]

/-- Of six messages four are refused, one for each reason; the client that subscribes and connects
gets its event in between. -/
theorem mixedMessages_without_refusals :
    let run := exchanges listeningState mixedMessages
    let kept := run.filter (!·.isRefused)
    run.map (·.isRefused) = [true, true, false, true, true, false] ∧
    run.map (·.answers.length) = [1, 1, 1, 1, 1, 2] ∧
    kept.map (·.document) = [mixedMessages[2], mixedMessages[5]] ∧
    handle listeningState (.arr (kept.map (·.document))) =
      (kept.flatMap (·.answers), (handle listeningState (.arr mixedMessages)).2) := by
  have hall := refused_messages_are_isolated listeningState (.arr mixedMessages)
  exact ⟨by decide +kernel, by decide +kernel, by decide +kernel, hall.2.2.2.2⟩

end Bayeux

end CrmEmulator
