import CrmEmulator.Proofs.Outcome
import CrmEmulator.Proofs.Registry
import CrmEmulator.Streaming.Bus

/-!
# CrmEmulator.Proofs.Streaming.Bus — the bus as its clients see it

Two views say all that a client can tell of the bus: `log`, the events of a channel, and
`cursor?`, the position of a client's subscription.  Operations one after the other make a run;
`published` and `delivered` are what a run's publishers and one client's polls get back.  `Effect`
lists all that an operation can do to the bus; what it does to a view is read off from there.
-/

namespace CrmEmulator

namespace EventBus

/-! ## Views -/

/-- The events of a channel; a channel without a log has none. -/
def log (b : EventBus) (channel : String) : Log := (b.channels.get? channel).getD []

/-- The cursor of the first subscription to a channel. -/
def cursorOn (channel : String) (subscriptions : List Subscription) : Option Int :=
  (subscriptions.find? (·.channel = channel)).map (·.cursor)

/-- The subscriptions of a client; an unknown client has none. -/
def subscriptionsOf (b : EventBus) (client : String) : List Subscription :=
  ((b.clients.get? client).map (·.subscriptions)).getD []

/-- The bus with other subscriptions in the session of a client. -/
def setSubscriptions (b : EventBus) (client : String) (s : Session)
    (subscriptions : List Subscription) : EventBus :=
  { b with clients := b.clients.put client { s with subscriptions } }

/-- Where a client's subscription to a channel stands. -/
def cursor? (b : EventBus) (client channel : String) : Option Int :=
  cursorOn channel (b.subscriptionsOf client)

/-! ## Operations -/

/-- What clients and publishers ask of the bus. -/
inductive Op
  | publish (channel : String) (payload : Json) (now : String)
  | connect (supply : Supply)
  | subscribe (client channel : String) (replayFrom : Int)
  | unsubscribe (client channel : String)
  | poll (client : String)
  | disconnect (client : String)

/-- The bus after an operation; one that fails leaves it as it is. -/
def next (b : EventBus) : Op → EventBus
  | .publish channel payload now => (b.publish channel payload now).2
  | .connect supply => (b.connect supply).2.1
  | .subscribe client channel replayFrom =>
    match b.subscribe client channel replayFrom with
    | .ok b' => b'
    | .error _ => b
  | .unsubscribe client channel =>
    match b.unsubscribe client channel with
    | .ok (_, b') => b'
    | .error _ => b
  | .poll client =>
    match b.poll client with
    | .ok (_, b') => b'
    | .error _ => b
  | .disconnect client => (b.disconnect client).2

/-- The bus after operations one after the other. -/
def run (b : EventBus) (ops : List Op) : EventBus := ops.foldl next b

@[simp] theorem run_nil (b : EventBus) : b.run [] = b := rfl

@[simp] theorem run_cons (b : EventBus) (op : Op) (ops : List Op) :
    b.run (op :: ops) = (b.next op).run ops := rfl

/-- A run of two lists of operations is the second list run after the first. -/
theorem run_append (b : EventBus) (ops ops' : List Op) :
    b.run (ops ++ ops') = (b.run ops).run ops' := by
  simp [run, List.foldl_append]

/-- The id of the session that an operation opens. -/
def Op.opened? : Op → Option String
  | .connect supply => some (clientId supply.serial)
  | _ => none

/-- The ids of the sessions that operations open, in order. -/
def openedIds (ops : List Op) : List String := ops.filterMap Op.opened?

/-- The event that an operation publishes on a channel. -/
def publishedBy (b : EventBus) (channel : String) : Op → List Event
  | .publish channel' payload now =>
    if channel' = channel then [(b.publish channel' payload now).1] else []
  | _ => []

/-- The events that operations publish on a channel, in order. -/
def published (channel : String) : EventBus → List Op → List Event
  | _, [] => []
  | b, op :: ops => b.publishedBy channel op ++ published channel (b.next op) ops

/-- What an operation delivers to a client on a channel. -/
def deliveredBy (b : EventBus) (client channel : String) : Op → List Event
  | .poll client' =>
    if client' = client then
      match b.poll client' with
      | .ok (deliveries, _) => (deliveries.filter (·.channel = channel)).map (·.event)
      | .error _ => []
    else []
  | _ => []

/-- What a client's polls deliver on a channel in the course of operations, in order. -/
def delivered (client channel : String) : EventBus → List Op → List Event
  | _, [] => []
  | b, op :: ops => b.deliveredBy client channel op ++ delivered client channel (b.next op) ops

/-- What is delivered in two runs is delivered in the first and then in the second. -/
theorem delivered_append (client channel : String) (b : EventBus) (ops ops' : List Op) :
    delivered client channel b (ops ++ ops') =
      delivered client channel b ops ++ delivered client channel (b.run ops) ops' := by
  induction ops generalizing b with
  | nil => rfl
  | cons op ops ih => simp [delivered, ih]

/-! ## Subscription lists -/

/-- A subscription is placed under its channel and leaves the others alone. -/
theorem cursorOn_placeSubscription (sub : Subscription) (channel : String)
    (subs : List Subscription) :
    cursorOn channel (placeSubscription sub subs) =
      if sub.channel = channel then some sub.cursor else cursorOn channel subs := by
  induction subs with
  | nil =>
    by_cases h : sub.channel = channel <;> simp [placeSubscription, cursorOn, h]
  | cons old rest ih =>
    unfold placeSubscription
    split
    · next hold =>
      by_cases h : sub.channel = channel <;> simp [cursorOn, hold, h]
    · next hold =>
      by_cases h : old.channel = channel
      · have hne : sub.channel ≠ channel := fun e => hold (h.trans e.symm)
        simp [cursorOn, h, hne]
      · simpa [cursorOn, h] using ih

/-- Ending a subscription leaves the others alone. -/
theorem cursorOn_filter_ne {channel ended : String} (h : channel ≠ ended)
    (subs : List Subscription) :
    cursorOn channel (subs.filter (·.channel ≠ ended)) = cursorOn channel subs := by
  have hboth : ∀ sub : Subscription,
      (sub.channel ≠ ended ∧ sub.channel = channel) ↔ sub.channel = channel :=
    fun sub => ⟨And.right, fun hsub => ⟨hsub ▸ h, hsub⟩⟩
  simp only [cursorOn, List.find?_filter, decide_eq_true_eq, hboth]

/-- Placing a subscription adds at most its own channel to a list. -/
theorem mem_channels_placeSubscription {sub : Subscription} {subs : List Subscription}
    {channel : String} (h : channel ∈ (placeSubscription sub subs).map (·.channel)) :
    channel = sub.channel ∨ channel ∈ subs.map (·.channel) := by
  induction subs with
  | nil => simpa [placeSubscription] using h
  | cons old rest ih =>
    unfold placeSubscription at h
    split at h
    · simp only [List.map_cons, List.mem_cons] at h ⊢
      exact h.imp_right Or.inr
    · simp only [List.map_cons, List.mem_cons] at h ⊢
      rcases h with hc | hc
      · exact .inr (.inl hc)
      · exact (ih hc).imp_right Or.inr

/-- A subscription list has no channel twice after a subscription is placed. -/
theorem nodup_placeSubscription (sub : Subscription) {subs : List Subscription}
    (h : (subs.map (·.channel)).Nodup) :
    ((placeSubscription sub subs).map (·.channel)).Nodup := by
  induction subs with
  | nil => simp [placeSubscription]
  | cons old rest ih =>
    rw [List.map_cons, List.nodup_cons] at h
    unfold placeSubscription
    split
    · next hold =>
      rw [List.map_cons, List.nodup_cons]
      exact ⟨hold ▸ h.1, h.2⟩
    · next hold =>
      rw [List.map_cons, List.nodup_cons]
      refine ⟨?_, ih h.2⟩
      intro hold'
      rcases mem_channels_placeSubscription hold' with hc | hc
      · exact hold hc
      · exact h.1 hc

/-! ## What an operation does to the views -/

/-- An event is appended to the log of its channel and to no other. -/
theorem log_appendEvent (b : EventBus) (channel channel' : String) (payload : Json) (now : String) :
    (b.appendEvent channel payload now).2.log channel' =
      b.log channel' ++
        if channel = channel' then [(b.appendEvent channel payload now).1] else [] := by
  by_cases h : channel' = channel
  · subst h
    simp [appendEvent, log]
  · simp [appendEvent, log, h, Ne.symm h]

/-- Opening a channel adds no events. -/
theorem log_openChannel (b : EventBus) (channel channel' : String) :
    (b.openChannel channel).log channel' = b.log channel' := by
  unfold openChannel
  split
  · rfl
  · next hnew =>
    have hnone : b.channels.get? channel = none := by simpa [Registry.contains] using hnew
    by_cases h : channel' = channel
    · subst h
      simp [log, hnone]
    · simp [log, h]

@[simp] theorem counter_openChannel (b : EventBus) (channel : String) :
    (b.openChannel channel).counter = b.counter := by
  unfold openChannel
  split <;> rfl

@[simp] theorem clients_openChannel (b : EventBus) (channel : String) :
    (b.openChannel channel).clients = b.clients := by
  unfold openChannel
  split <;> rfl

theorem replayId_publish (b : EventBus) (channel : String) (payload : Json) (now : String) :
    (b.publish channel payload now).1.replayId = b.counter + 1 := by
  simp [publish, appendEvent]

theorem counter_publish (b : EventBus) (channel : String) (payload : Json) (now : String) :
    (b.publish channel payload now).2.counter = b.counter + 1 := by
  simp [publish, appendEvent]

/-- A session is found exactly if the client is there. -/
theorem session_ok {b : EventBus} {client : String} {s : Session} :
    b.session client = .ok s ↔ b.clients.get? client = some s := by
  unfold session
  split
  · next s' hs => simp [hs]
  · next hs => simp [hs]

/-- What a successful subscription does: the client's list gets the cursor, nothing else changes. -/
theorem subscribe_ok {b b' : EventBus} {client channel : String} {replayFrom : Int}
    (h : b.subscribe client channel replayFrom = .ok b') :
    ∃ s, b.clients.get? client = some s ∧ b' = b.setSubscriptions client s
      (placeSubscription ⟨channel, b.cursorFor channel replayFrom⟩ s.subscriptions) := by
  rcases bind_eq_ok.mp h with ⟨s, hs, heq⟩
  cases heq
  exact ⟨s, session_ok.mp hs, rfl⟩

/-- Unsubscribing drops the subscription of the session that it finds. -/
theorem unsubscribe_ok {b b' : EventBus} {client channel : String} {was : Bool}
    (h : b.unsubscribe client channel = .ok (was, b')) :
    ∃ s, b.clients.get? client = some s ∧ b' = b.setSubscriptions client s
      (s.subscriptions.filter (·.channel ≠ channel)) := by
  rcases bind_eq_ok.mp h with ⟨s, hs, heq⟩
  cases heq
  exact ⟨s, session_ok.mp hs, rfl⟩

/-- Polling handles all subscriptions of the session that it finds. -/
theorem poll_eq {b : EventBus} {client : String} {s : Session}
    (hs : b.clients.get? client = some s) :
    b.poll client = .ok ((s.subscriptions.map (pollSubscription b.channels)).flatMap (·.1),
      b.setSubscriptions client s
        ((s.subscriptions.map (pollSubscription b.channels)).map (·.2))) := by
  unfold poll
  rw [session_ok.mpr hs]
  rfl

/-- Only a client that is there is polled. -/
theorem poll_ok {b b' : EventBus} {client : String} {deliveries : List Delivery}
    (h : b.poll client = .ok (deliveries, b')) :
    ∃ s, b.clients.get? client = some s := by
  rcases bind_eq_ok.mp h with ⟨s, hs, -⟩
  exact ⟨s, session_ok.mp hs⟩

theorem channel_pollSubscription (channels : Registry Log) (sub : Subscription) :
    (pollSubscription channels sub).2.channel = sub.channel := by
  unfold pollSubscription
  split <;> rfl

/-! ## Effects -/

/-- What a request makes of the subscriptions of the client that asks for it. -/
inductive Resubscribes (b : EventBus) (client : String) (subs : List Subscription) :
    Op → List Subscription → Prop
  | subscribe (channel : String) (replayFrom : Int) :
      Resubscribes b client subs (.subscribe client channel replayFrom)
        (placeSubscription ⟨channel, b.cursorFor channel replayFrom⟩ subs)
  | unsubscribe (channel : String) :
      Resubscribes b client subs (.unsubscribe client channel)
        (subs.filter (·.channel ≠ channel))
  | poll :
      Resubscribes b client subs (.poll client)
        ((subs.map (pollSubscription b.channels)).map (·.2))

/-- All that an operation can do to the bus. -/
inductive Effect (b : EventBus) (op : Op) : EventBus → Prop
  | kept (hnone : ∀ channel, b.publishedBy channel op = []) : Effect b op b
  | published {channel : String} {payload : Json} {now : String}
      (hop : op = .publish channel payload now) : Effect b op (b.publish channel payload now).2
  | opened {supply : Supply} (hop : op = .connect supply) : Effect b op (b.connect supply).2.1
  | resubscribed {client : String} {s : Session} {subs : List Subscription}
      (hs : b.clients.get? client = some s) (h : Resubscribes b client s.subscriptions op subs) :
      Effect b op (b.setSubscriptions client s subs)
  | closed {client : String} (hop : op = .disconnect client) : Effect b op (b.disconnect client).2

/-- All that an operation can do to logs, sessions and counter. -/
theorem next_effect (b : EventBus) (op : Op) : Effect b op (b.next op) := by
  cases op with
  | publish channel payload now => exact .published rfl
  | connect supply => exact .opened rfl
  | subscribe client channel replayFrom =>
    simp only [next]
    split
    · next h =>
      rcases subscribe_ok h with ⟨s, hs, rfl⟩
      exact .resubscribed hs (.subscribe channel replayFrom)
    · -- the client is unknown
      exact .kept fun _ => rfl
  | unsubscribe client channel =>
    simp only [next]
    split
    · next h =>
      rcases unsubscribe_ok h with ⟨s, hs, rfl⟩
      exact .resubscribed hs (.unsubscribe channel)
    · exact .kept fun _ => rfl
  | poll client =>
    simp only [next]
    split
    · next h =>
      rcases poll_ok h with ⟨s, hs⟩
      rw [poll_eq hs] at h
      cases h
      exact .resubscribed hs .poll
    · exact .kept fun _ => rfl
  | disconnect client => exact .closed rfl

/-- An operation adds to a log what it publishes there, and changes no log otherwise. -/
theorem log_next (b : EventBus) (op : Op) (channel : String) :
    (b.next op).log channel = b.log channel ++ b.publishedBy channel op := by
  have heffect := next_effect b op
  generalize b.next op = b' at heffect ⊢
  cases heffect with
  | kept hnone => rw [hnone, List.append_nil]
  | published hop =>
    subst hop
    simp only [publish, log_appendEvent, log_openChannel, publishedBy]
  | opened hop =>
    subst hop
    simp [connect, log, publishedBy]
  | resubscribed hs h => cases h <;> simp [setSubscriptions, log, publishedBy]
  | closed hop =>
    subst hop
    simp [disconnect, log, publishedBy]

/-- Publishing counts on, and nothing else does. -/
theorem counter_next (b : EventBus) (op : Op) :
    (∃ channel payload now, op = .publish channel payload now ∧
      (b.next op).counter = b.counter + 1) ∨
    (b.next op).counter = b.counter := by
  have heffect := next_effect b op
  generalize b.next op = b' at heffect ⊢
  cases heffect with
  | @published channel payload now hop =>
    left
    exact ⟨channel, payload, now, hop, counter_publish b channel payload now⟩
  | _ => exact .inr rfl

end EventBus

end CrmEmulator
