import CrmEmulator.Proofs.Streaming.Delivery

/-!
# CrmEmulator.Proofs.Streaming.Dropped — polls that are not carried through

A poll handles the subscriptions of its client one after the other, and holds the session while it
does.  Between two of them other calls go on, and the poll itself may be dropped: what it has taken
so far is lost.

1. `due`: what the next poll of a client delivers on a channel.
2. `pollSteps`: a poll subscription by subscription, with what other calls do in between.  With
   nothing in between it is `poll`.
3. One step takes what is due on the channel of its subscription, and leaves all other channels.
4. `Dropped`: a call that ends in the course of a poll.  The next poll delivers what was due before
   on the channels that the call had not come to, and nothing of the others.
-/

namespace CrmEmulator

namespace EventBus

variable {b b' : EventBus} {client channel : String} {e : Event} {i : Nat}

/-! ## What is due -/

/-- The channels of a client, in the order of its subscriptions. -/
def channelsOf (b : EventBus) (client : String) : List String :=
  (b.subscriptionsOf client).map (·.channel)

/-- The events that the next poll of a client delivers on a channel. -/
def due (b : EventBus) (client channel : String) : List Event :=
  match b.cursor? client channel with
  | some cursor => (b.log channel).filter (isDue cursor)
  | none => []

/-- An event is due on a channel if it is in its log and due for the cursor there. -/
theorem mem_due : e ∈ b.due client channel ↔
    e ∈ b.log channel ∧ ∃ cursor, b.cursor? client channel = some cursor ∧ isDue cursor e := by
  unfold due
  split
  · next cursor h => simp [h]
  · next h => simp [h]

/-- The channels of a client are those with a cursor. -/
theorem mem_channelsOf : channel ∈ b.channelsOf client ↔
    ∃ cursor, b.cursor? client channel = some cursor := by
  simp only [channelsOf, cursor?, cursorOn, List.mem_map, Option.map_eq_some_iff]
  constructor
  · rintro ⟨sub, hsub, hchannel⟩
    have hfound : ((b.subscriptionsOf client).find? (·.channel = channel)).isSome :=
      List.find?_isSome.mpr ⟨sub, hsub, by simp [hchannel]⟩
    rcases Option.isSome_iff_exists.mp hfound with ⟨first, hfirst⟩
    exact ⟨first.cursor, first, hfirst, rfl⟩
  · rintro ⟨cursor, sub, hsub, -⟩
    exact ⟨sub, List.mem_of_find?_eq_some hsub, by simpa using List.find?_some hsub⟩

theorem mem_channelsOf_of_mem_due (h : e ∈ b.due client channel) :
    channel ∈ b.channelsOf client := by
  rcases mem_due.mp h with ⟨-, cursor, hcursor, -⟩
  exact mem_channelsOf.mpr ⟨cursor, hcursor⟩

/-- A poll that is carried through delivers just what is due. -/
theorem poll_delivers_due (hb : Sound b) (h : channel ∈ b.channelsOf client) :
    (∃ answer, b.poll client = .ok answer) ∧
      b.deliveredBy client channel (.poll client) = b.due client channel := by
  rcases mem_channelsOf.mp h with ⟨cursor, hcursor⟩
  rcases poll_subscribed hb hcursor with ⟨hanswer, hsent, -⟩
  exact ⟨hanswer, by simp [hsent, due, hcursor]⟩

/-- A run without polls leaves the cursors of the subscriptions that it keeps. -/
theorem cursor?_run {ops : List Op} (hkeep : ∀ op ∈ ops, op.keepsSubscription client channel)
    (hpoll : .poll client ∉ ops) :
    (b.run ops).cursor? client channel = b.cursor? client channel := by
  induction ops generalizing b with
  | nil => rfl
  | cons op ops ih =>
    rw [List.mem_cons, not_or] at hpoll
    rcases hkeep op List.mem_cons_self with ⟨hstay, hopen⟩
    rw [run_cons, ih (fun op hop => hkeep op (List.mem_cons_of_mem _ hop)) hpoll.2]
    exact cursor?_next hstay hopen (Ne.symm hpoll.1)

/-- Events that are in a log stay there. -/
theorem mem_log_run {ops : List Op} (he : e ∈ b.log channel) : e ∈ (b.run ops).log channel := by
  rw [log_run]
  exact List.mem_append_left _ he

/-- As long as the subscription stands and its client does not poll, what is due stays due. -/
theorem mem_due_run {ops : List Op} (hkeep : ∀ op ∈ ops, op.keepsSubscription client channel)
    (hpoll : .poll client ∉ ops) (he : e ∈ b.log channel) :
    e ∈ (b.run ops).due client channel ↔ e ∈ b.due client channel := by
  rw [mem_due, mem_due, cursor?_run hkeep hpoll]
  simp [he, mem_log_run he]

/-! ## One subscription -/

/-- Handle the subscription at a position in the list of a client: what it delivers, and the bus
after its cursor has moved. -/
def handle (b : EventBus) (client : String) (i : Nat) : List Delivery × EventBus :=
  match b.clients.get? client with
  | none => ([], b)
  | some s =>
    match s.subscriptions[i]? with
    | none => ([], b)
    | some sub =>
      let (deliveries, moved) := pollSubscription b.channels sub
      (deliveries, b.setSubscriptions client s (s.subscriptions.set i moved))

/-- All that one step of a poll can do. -/
inductive Handles (b : EventBus) (client : String) (i : Nat) : List Delivery × EventBus → Prop
  | nothing (hi : (b.subscriptionsOf client)[i]? = none) : Handles b client i ([], b)
  | one {s : Session} {sub : Subscription} (hs : b.clients.get? client = some s)
      (hi : s.subscriptions[i]? = some sub) :
      Handles b client i ((pollSubscription b.channels sub).1,
        b.setSubscriptions client s (s.subscriptions.set i (pollSubscription b.channels sub).2))

/-- One step of a poll does one of the things that are listed. -/
theorem handle_handles (b : EventBus) (client : String) (i : Nat) :
    Handles b client i (b.handle client i) := by
  unfold handle
  split
  · next hs => exact .nothing (by simp [subscriptionsOf, hs])
  · next s hs =>
    split
    · next hi => exact .nothing (by simp [subscriptionsOf, hs, hi])
    · next sub hi => exact .one hs hi

/-! ### Lists of subscriptions -/

/-- Moving a cursor keeps the channels. -/
theorem map_channel_set {subs : List Subscription} {sub moved : Subscription}
    (hi : subs[i]? = some sub) (hmoved : moved.channel = sub.channel) :
    (subs.set i moved).map (·.channel) = subs.map (·.channel) := by
  rcases List.getElem?_eq_some_iff.mp hi with ⟨hlt, rfl⟩
  have hmap : i < (subs.map (·.channel)).length := by simpa using hlt
  rw [List.map_set, hmoved]
  simpa using List.set_getElem_self hmap

/-- Moving one of several cursors is seen on its channel only. -/
theorem cursorOn_set {subs : List Subscription} (hdistinct : (subs.map (·.channel)).Nodup)
    {sub moved : Subscription} (hi : subs[i]? = some sub) (hmoved : moved.channel = sub.channel)
    (channel : String) : cursorOn channel (subs.set i moved) =
      if sub.channel = channel then some moved.cursor else cursorOn channel subs := by
  induction subs generalizing i with
  | nil => cases hi
  | cons first rest ih =>
    rw [List.map_cons, List.nodup_cons] at hdistinct
    cases i with
    | zero =>
      cases hi
      by_cases hchannel : sub.channel = channel <;> simp [cursorOn, hmoved, hchannel]
    | succ i =>
      have hne : first.channel ≠ sub.channel := fun he =>
        hdistinct.1 (he ▸ List.mem_map_of_mem (List.mem_of_getElem? hi))
      by_cases hchannel : first.channel = channel
      · have hother : sub.channel ≠ channel := fun he => hne (hchannel.trans he.symm)
        simp [cursorOn, hchannel, hother]
      · simpa [cursorOn, hchannel] using ih hdistinct.2 hi

/-- The cursor on a channel is that of its subscription. -/
theorem cursorOn_of_getElem? {subs : List Subscription}
    (hdistinct : (subs.map (·.channel)).Nodup) {sub : Subscription} (hi : subs[i]? = some sub) :
    cursorOn sub.channel subs = some sub.cursor := by
  have hset := cursorOn_set hdistinct hi rfl sub.channel
  rcases List.getElem?_eq_some_iff.mp hi with ⟨hlt, rfl⟩
  simpa using hset

/-! ### What a step keeps -/

/-- A step of a poll adds no events. -/
theorem log_handle (b : EventBus) (client : String) (i : Nat) (channel : String) :
    (b.handle client i).2.log channel = b.log channel := by
  have hstep := handle_handles b client i
  generalize b.handle client i = step at hstep
  cases hstep with
  | nothing => rfl
  | one => rfl

/-- A step of a poll ends no subscription. -/
theorem channelsOf_handle (b : EventBus) (client client' : String) (i : Nat) :
    (b.handle client i).2.channelsOf client' = b.channelsOf client' := by
  have hstep := handle_handles b client i
  generalize b.handle client i = step at hstep
  cases hstep with
  | nothing => rfl
  | @one s sub hs hi =>
    unfold channelsOf
    rw [subscriptionsOf_setSubscriptions]
    split
    · next hclient =>
      rw [hclient, subscriptionsOf_of_get? hs]
      exact map_channel_set hi (channel_pollSubscription b.channels sub)
    · rfl

/-- A step of a poll keeps a bus sound. -/
theorem Sound.handle (hb : Sound b) (client : String) (i : Nat) : Sound (b.handle client i).2 := by
  have hcounter : (b.handle client i).2.counter = b.counter := by
    have hstep := handle_handles b client i
    generalize b.handle client i = step at hstep
    cases hstep with
    | nothing => rfl
    | one => rfl
  refine hb.of_sublist (fun channel => ?_) (Int.le_of_eq hcounter.symm) fun client' => ?_
  · exact log_handle b client i channel ▸ List.Sublist.refl _
  · have hsame := channelsOf_handle b client client' i
    unfold channelsOf at hsame
    rw [hsame]
    exact hb.distinct client'

/-! ### What a step takes -/

/-- A step delivers what is due on the channel of its subscription. -/
theorem mem_handle (hb : Sound b) (hi : (b.channelsOf client)[i]? = some channel)
    (he : e ∈ b.due client channel) : ⟨channel, e⟩ ∈ (b.handle client i).1 := by
  have hdistinct := hb.distinct client
  have hstep := handle_handles b client i
  unfold channelsOf at hi
  generalize b.handle client i = step at hstep
  cases hstep with
  | nothing hnone => simp [hnone] at hi
  | @one s sub hs hsub =>
    have hsubs := subscriptionsOf_of_get? hs
    rw [hsubs] at hdistinct hi
    have hchannel : sub.channel = channel := by simpa [hsub] using hi
    subst hchannel
    rcases mem_due.mp he with ⟨hlog, cursor, hcursor, hdue⟩
    rw [cursor?, hsubs, cursorOn_of_getElem? hdistinct hsub] at hcursor
    cases hcursor
    rw [deliveries_pollSubscription]
    exact List.mem_map_of_mem (List.mem_filter.mpr ⟨hlog, hdue⟩)

/-- After a step nothing that was there is due on the channel of its subscription; on any other
channel it is due as before. -/
theorem mem_due_handle (hb : Sound b) (he : e ∈ b.log channel) :
    e ∈ (b.handle client i).2.due client channel ↔
      e ∈ b.due client channel ∧ (b.channelsOf client)[i]? ≠ some channel := by
  have hdistinct := hb.distinct client
  have hstep := handle_handles b client i
  have hlog := log_handle b client i channel
  unfold channelsOf
  generalize b.handle client i = step at hstep hlog
  cases hstep with
  | nothing hi => simp [hi]
  | @one s sub hs hi =>
    have hsubs := subscriptionsOf_of_get? hs
    rw [hsubs] at hdistinct ⊢
    have hcursor : (b.setSubscriptions client s
        (s.subscriptions.set i (pollSubscription b.channels sub).2)).cursor? client channel =
          if sub.channel = channel then some (pollSubscription b.channels sub).2.cursor
          else b.cursor? client channel := by
      unfold cursor?
      rw [subscriptionsOf_setSubscriptions, if_pos rfl, hsubs]
      exact cursorOn_set hdistinct hi (channel_pollSubscription b.channels sub) channel
    rw [mem_due, mem_due, hcursor, hlog]
    by_cases hchannel : sub.channel = channel
    · subst hchannel
      -- the cursor has passed the last number of the log
      have hpassed := (hb.pollCursor sub.channel sub.cursor).1
      have hnot := List.filter_eq_nil_iff.mp hpassed e he
      simp [hi, hnot]
    · simp [hi, hchannel]

/-! ## A poll step by step -/

/-- A poll from a position on: each subscription is handled, followed by what other calls do until
the poll goes on or is dropped. -/
def pollSteps (client : String) : EventBus → Nat → List (List Op) → List Delivery × EventBus
  | b, _, [] => ([], b)
  | b, i, ops :: parts =>
    let (deliveries, b') := b.handle client i
    let (rest, b'') := pollSteps client (b'.run ops) (i + 1) parts
    (deliveries ++ rest, b'')

theorem pollSteps_cons (client : String) (b : EventBus) (i : Nat) (ops : List Op)
    (parts : List (List Op)) :
    pollSteps client b i (ops :: parts) =
      ((b.handle client i).1 ++
          (pollSteps client ((b.handle client i).2.run ops) (i + 1) parts).1,
        (pollSteps client ((b.handle client i).2.run ops) (i + 1) parts).2) := rfl

theorem setSubscriptions_self {s : Session} (hs : b.clients.get? client = some s) :
    b.setSubscriptions client s s.subscriptions = b := by
  unfold setSubscriptions
  rw [Registry.put_of_get? hs]

/-- The last subscriptions that are set stand. -/
theorem setSubscriptions_setSubscriptions (b : EventBus) (client : String) (s : Session)
    (subs subs' : List Subscription) :
    (b.setSubscriptions client s subs).setSubscriptions client
      { s with subscriptions := subs } subs' = b.setSubscriptions client s subs' := by
  unfold setSubscriptions
  simp [Registry.put_put]

/-- With nothing in between, the steps from a position on are a poll of the subscriptions there. -/
theorem pollSteps_alone {s : Session} {front back : List Subscription}
    (hs : b.clients.get? client = some s) (hsubs : s.subscriptions = front ++ back) :
    pollSteps client b front.length (List.replicate back.length []) =
      ((back.map (pollSubscription b.channels)).flatMap (·.1),
        b.setSubscriptions client s
          (front ++ (back.map (pollSubscription b.channels)).map (·.2))) := by
  induction back generalizing b s front with
  | nil =>
    rw [List.append_nil] at hsubs
    simp [pollSteps, ← hsubs, setSubscriptions_self hs]
  | cons sub back ih =>
    let moved := (pollSubscription b.channels sub).2
    have hstep : b.handle client front.length = ((pollSubscription b.channels sub).1,
        b.setSubscriptions client s ((front ++ [moved]) ++ back)) := by
      simp [handle, hs, hsubs, moved]
    have hs' : (b.setSubscriptions client s ((front ++ [moved]) ++ back)).clients.get? client =
        some { s with subscriptions := (front ++ [moved]) ++ back } := by
      simp [setSubscriptions]
    have hrest := ih hs' rfl
    rw [List.length_append, List.length_singleton, setSubscriptions_setSubscriptions] at hrest
    simp only [List.length_cons, List.replicate_succ, pollSteps_cons, hstep, run_nil, hrest]
    simp [moved, setSubscriptions]

/-- A poll that nobody interrupts is its steps, one after the other. -/
theorem poll_eq_pollSteps {s : Session} (hs : b.clients.get? client = some s) :
    b.poll client = .ok (pollSteps client b 0 (List.replicate s.subscriptions.length [])) := by
  have hall : s.subscriptions = [] ++ s.subscriptions := rfl
  have hsteps := pollSteps_alone hs hall
  rw [List.length_nil] at hsteps
  rw [poll_eq hs, hsteps, List.nil_append]

/-- An operation that another call can do while a poll of the client holds its session. -/
def Op.spares (client : String) : Op → Bool
  | .publish .. => true
  | .connect supply => clientId supply.serial ≠ client
  | .subscribe client' .. | .unsubscribe client' _ | .poll client' | .disconnect client' =>
    client' ≠ client

theorem keepsSubscription_of_spares {op : Op} (h : op.spares client) (channel : String) :
    op.keepsSubscription client channel := by
  cases op <;> simp_all [Op.spares, Op.keepsSubscription, Op.endsSubscription, Op.opened?]

theorem poll_not_mem_of_spares {ops : List Op} (h : ∀ op ∈ ops, op.spares client) :
    .poll client ∉ ops := by
  intro hpoll
  simpa [Op.spares] using h _ hpoll

/-- What other calls do during a poll leaves its subscriptions as they are. -/
theorem subscriptionsOf_run {ops : List Op} (h : ∀ op ∈ ops, op.spares client) :
    (b.run ops).subscriptionsOf client = b.subscriptionsOf client := by
  induction ops generalizing b with
  | nil => rfl
  | cons op ops ih =>
    have hop := h op List.mem_cons_self
    rw [run_cons, ih fun op' hop' => h op' (List.mem_cons_of_mem _ hop')]
    rcases subscriptionsOf_next b op client with
      hsame | ⟨hopened, -⟩ | ⟨channel, r, rfl, -⟩ | ⟨channel, rfl, -⟩ | ⟨rfl, -⟩ | ⟨rfl, -⟩
    · exact hsame
    · exact absurd hopened (keepsSubscription_of_spares hop "").2
    all_goals simp [Op.spares] at hop

/-- An event of a log is due after such operations exactly if it was before. -/
theorem mem_due_of_spares {ops : List Op} (h : ∀ op ∈ ops, op.spares client)
    (he : e ∈ b.log channel) :
    e ∈ (b.run ops).due client channel ↔ e ∈ b.due client channel :=
  mem_due_run (fun op hop => keepsSubscription_of_spares (h op hop) channel)
    (poll_not_mem_of_spares h) he

/-! ### What a poll keeps and takes -/

section

variable {parts : List (List Op)}

/-- Events that are in a log stay there during a poll. -/
theorem mem_log_pollSteps (he : e ∈ b.log channel) :
    e ∈ (pollSteps client b i parts).2.log channel := by
  induction parts generalizing b i with
  | nil => exact he
  | cons ops parts ih =>
    rw [pollSteps_cons]
    exact ih (mem_log_run (by rwa [log_handle]))

/-- A poll that is interrupted keeps a bus sound. -/
theorem Sound.pollSteps (hb : Sound b) : Sound (pollSteps client b i parts).2 := by
  induction parts generalizing b i with
  | nil => exact hb
  | cons ops parts ih => exact ih ((hb.handle client i).run ops)

/-- Such operations keep the channels of the client. -/
theorem channelsOf_run {ops : List Op} (h : ∀ op ∈ ops, op.spares client) :
    (b.run ops).channelsOf client = b.channelsOf client := by
  unfold channelsOf
  rw [subscriptionsOf_run h]

/-- An interrupted poll keeps the channels of the client. -/
theorem channelsOf_pollSteps (hspare : ∀ ops ∈ parts, ∀ op ∈ ops, op.spares client) :
    (pollSteps client b i parts).2.channelsOf client = b.channelsOf client := by
  induction parts generalizing b i with
  | nil => rfl
  | cons ops parts ih =>
    rw [List.forall_mem_cons] at hspare
    exact (ih hspare.2).trans ((channelsOf_run hspare.1).trans (channelsOf_handle b client client i))

/-- What is among some elements from a place on is at the place or among those behind it. -/
theorem mem_take_drop_succ {α : Type} {x : α} (xs : List α) (i n : Nat) :
    x ∈ (xs.drop i).take (n + 1) ↔ xs[i]? = some x ∨ x ∈ (xs.drop (i + 1)).take n := by
  cases hi : xs[i]? with
  | none =>
    have hend : xs.length ≤ i := List.getElem?_eq_none_iff.mp hi
    simp [List.drop_eq_nil_of_le hend, List.drop_eq_nil_of_le (Nat.le_succ_of_le hend)]
  | some y =>
    rcases List.getElem?_eq_some_iff.mp hi with ⟨hlt, rfl⟩
    rw [List.drop_eq_getElem_cons hlt, List.take_succ_cons, List.mem_cons, Option.some.injEq]
    exact or_congr_left eq_comm

/-- After some steps of a poll, what was there is due as before on the channels that the poll has
not come to, and not due any more on the others. -/
theorem mem_due_pollSteps (hb : Sound b) (hspare : ∀ ops ∈ parts, ∀ op ∈ ops, op.spares client)
    (he : e ∈ b.log channel) :
    e ∈ (pollSteps client b i parts).2.due client channel ↔
      e ∈ b.due client channel ∧ channel ∉ ((b.channelsOf client).drop i).take parts.length := by
  induction parts generalizing b i with
  | nil => simp [pollSteps]
  | cons ops parts ih =>
    rw [List.forall_mem_cons] at hspare
    have hmid : e ∈ (b.handle client i).2.log channel := by rwa [log_handle]
    have hrest := ih (i := i + 1) ((hb.handle client i).run ops) hspare.2 (mem_log_run hmid)
    rw [channelsOf_run hspare.1, channelsOf_handle, mem_due_of_spares hspare.1 hmid,
      mem_due_handle hb he] at hrest
    rw [List.length_cons, mem_take_drop_succ]
    rw [pollSteps_cons, hrest, not_or, and_assoc]

/-- A poll delivers what was due at its beginning on the channels that it comes to. -/
theorem mem_pollSteps (hb : Sound b) (hspare : ∀ ops ∈ parts, ∀ op ∈ ops, op.spares client)
    (he : e ∈ b.due client channel)
    (hchannel : channel ∈ ((b.channelsOf client).drop i).take parts.length) :
    ⟨channel, e⟩ ∈ (pollSteps client b i parts).1 := by
  induction parts generalizing b i with
  | nil => simp at hchannel
  | cons ops parts ih =>
    rw [List.forall_mem_cons] at hspare
    rw [List.length_cons, mem_take_drop_succ] at hchannel
    rw [pollSteps_cons, List.mem_append]
    by_cases hi : (b.channelsOf client)[i]? = some channel
    · exact .inl (mem_handle hb hi he)
    · -- the step is about another channel, so the event is still due after it
      have hlog := (mem_due.mp he).1
      have hmid : e ∈ (b.handle client i).2.due client channel :=
        (mem_due_handle hb hlog).mpr ⟨he, hi⟩
      have hlater := (mem_due_of_spares hspare.1 (mem_due.mp hmid).1).mpr hmid
      refine .inr (ih ((hb.handle client i).run ops) hspare.2 hlater ?_)
      rw [channelsOf_run hspare.1, channelsOf_handle]
      exact hchannel.resolve_left hi

end

/-! ## Calls that are dropped -/

/-- A poll, or a wait for events, that is dropped: the bus after it, and the channels whose
subscriptions it had handled when it was dropped.  A poll can be dropped as long as there is a
subscription to handle; a wait polls again as long as nothing is delivered. -/
inductive Dropped (client : String) : EventBus → List String → EventBus → Prop
  | during {b : EventBus} {parts : List (List Op)}
      (hspare : ∀ ops ∈ parts, ∀ op ∈ ops, op.spares client)
      (hmore : parts = [] ∨ parts.length < (b.channelsOf client).length) :
      Dropped client b ((b.channelsOf client).take parts.length) (pollSteps client b 0 parts).2
  | waited {b b' : EventBus} {parts : List (List Op)} {ops : List Op} {handled : List String}
      (hspare : ∀ ops ∈ parts, ∀ op ∈ ops, op.spares client)
      (hall : parts.length = (b.channelsOf client).length)
      (hnone : (pollSteps client b 0 parts).1 = [])
      (hrest : Dropped client ((pollSteps client b 0 parts).2.run ops) handled b') :
      Dropped client b handled b'

/-- What a dropped call leaves of what was due.  It has handled the first subscriptions of the
client, and not all of them. -/
theorem Dropped.mem_due {handled : List String} (h : Dropped client b handled b') (hb : Sound b)
    (he : e ∈ b.due client channel) :
    Sound b' ∧ channel ∈ b'.channelsOf client ∧ e ∈ b'.log channel ∧
      handled <+: b.channelsOf client ∧ handled.length < (b.channelsOf client).length ∧
        (e ∈ b'.due client channel ↔ channel ∉ handled) := by
  have hlog := (EventBus.mem_due.mp he).1
  have hchannel := mem_channelsOf_of_mem_due he
  cases h with
  | @during _ parts hspare hmore =>
    refine ⟨hb.pollSteps, ?_, mem_log_pollSteps hlog, List.take_prefix _ _, ?_, ?_⟩
    · rwa [channelsOf_pollSteps hspare]
    · have hpos := List.length_pos_of_mem hchannel
      rw [List.length_take]
      rcases hmore with rfl | hmore
      · simpa using hpos
      · omega
    · rw [mem_due_pollSteps hb hspare hlog]
      simp [he]
  | waited hspare hall hnone hrest =>
    -- a poll that comes to all subscriptions delivers the event, so that nothing is waited for
    have hsent := mem_pollSteps hb hspare he (by rwa [hall, List.drop_zero, List.take_length])
    simp [hnone] at hsent

/-- A client with one subscription loses nothing. -/
theorem Dropped.mem_due_of_single {handled : List String} (h : Dropped client b handled b')
    (hb : Sound b) (he : e ∈ b.due client channel) (hone : (b.channelsOf client).length = 1) :
    e ∈ b'.due client channel := by
  rcases h.mem_due hb he with ⟨-, -, -, -, hlength, hdue⟩
  have hnil : handled = [] := List.length_eq_zero_iff.mp (by omega)
  exact hdue.mpr (hnil ▸ List.not_mem_nil)

/-- After a call was dropped, the next poll that is carried through succeeds.  Of what was due
before the call, it delivers just the events of the channels that the call had not handled. -/
theorem next_poll_delivers_unhandled (hb : Sound b) {handled : List String}
    (hdrop : Dropped client b handled b') {later : List Op}
    (hkeep : ∀ op ∈ later, op.keepsSubscription client channel) (hpoll : .poll client ∉ later)
    (he : e ∈ b.due client channel) :
    (handled <+: b.channelsOf client ∧ handled.length < (b.channelsOf client).length) ∧
      (∃ answer, (b'.run later).poll client = .ok answer) ∧
        (e ∈ (b'.run later).deliveredBy client channel (.poll client) ↔ channel ∉ handled) := by
  rcases hdrop.mem_due hb he with ⟨hb', hchannel, hlog, hfirst, hlength, hdue⟩
  have hstill : channel ∈ (b'.run later).channelsOf client := by
    rwa [mem_channelsOf, cursor?_run hkeep hpoll, ← mem_channelsOf]
  rcases poll_delivers_due (hb'.run later) hstill with ⟨hanswer, hsent⟩
  refine ⟨⟨hfirst, hlength⟩, hanswer, ?_⟩
  rw [hsent, mem_due_run hkeep hpoll hlog, hdue]

/-- A client with two channels, on each of which an event is due. -/
def twoDue : EventBus :=
  empty.run [.connect ⟨0, 0⟩, .publish "/event/A" .null "t", .publish "/event/B" .null "t",
    .subscribe (clientId 0) "/event/A" replayAll, .subscribe (clientId 0) "/event/B" replayAll]

/-- The bus after a poll that was dropped when it had handled the first channel. -/
def halfPolled : EventBus := (pollSteps (clientId 0) twoDue 0 [[]]).2

theorem dropped_halfPolled : Dropped (clientId 0) twoDue ["/event/A"] halfPolled := by
  have hspare : ∀ ops ∈ [([] : List Op)], ∀ op ∈ ops, op.spares (clientId 0) := by simp
  exact .during hspare (.inr (by decide))

/-- Of the two events, the next poll delivers the second one, also when others are published. -/
theorem halfPolled_delivers_second :
    (∃ answer, (halfPolled.run [.publish "/event/A" .null "u"]).poll (clientId 0) = .ok answer) ∧
      ⟨1, .null, "t"⟩ ∉ (halfPolled.run [.publish "/event/A" .null "u"]).deliveredBy
        (clientId 0) "/event/A" (.poll (clientId 0)) ∧
      ⟨2, .null, "t"⟩ ∈ (halfPolled.run [.publish "/event/A" .null "u"]).deliveredBy
        (clientId 0) "/event/B" (.poll (clientId 0)) := by
  have hb : Sound twoDue := sound_empty.run _
  have hfirst : ⟨1, .null, "t"⟩ ∈ twoDue.due (clientId 0) "/event/A" := by decide +kernel
  have hsecond : ⟨2, .null, "t"⟩ ∈ twoDue.due (clientId 0) "/event/B" := by decide +kernel
  have hlater (channel : String) : ∀ op ∈ [Op.publish "/event/A" .null "u"],
      op.keepsSubscription (clientId 0) channel := by
    simp [Op.keepsSubscription, Op.endsSubscription, Op.opened?]
  rcases next_poll_delivers_unhandled hb dropped_halfPolled (hlater _) (by simp) hfirst with
    ⟨-, hanswer, hlost⟩
  rcases next_poll_delivers_unhandled hb dropped_halfPolled (hlater _) (by simp) hsecond with
    ⟨-, -, hkept⟩
  exact ⟨hanswer, fun h => hlost.mp h (by decide), hkept.mpr (by decide)⟩

/-- So a dropped poll can lose an event: it was due, and the next poll only delivers the other. -/
theorem dropped_poll_loses_event :
    Dropped (clientId 0) twoDue ["/event/A"] halfPolled ∧
      twoDue.due (clientId 0) "/event/A" = [⟨1, .null, "t"⟩] ∧
        halfPolled.poll (clientId 0) = .ok ([⟨"/event/B", ⟨2, .null, "t"⟩⟩],
          halfPolled.next (.poll (clientId 0))) := by
  refine ⟨dropped_halfPolled, ?_, rfl⟩
  decide +kernel

end EventBus

end CrmEmulator
