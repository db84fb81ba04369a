import CrmEmulator.Proofs.Streaming.Sound

/-!
# CrmEmulator.Proofs.Streaming.Delivery — every event once, in order

1. A poll delivers what is due at the cursor and moves the cursor past the log, so that nothing in
   the log is due any more and everything still to come is due as before.
2. By induction over a run: what was delivered so far, followed by what is due now, is what was
   due at the subscription, followed by what was published since and is due at its cursor.
3. `owed`: what a subscription with a replay position is to be sent, and that it is sent just that.
-/

namespace CrmEmulator

namespace EventBus

/-! ## One poll -/

/-- What a subscription delivers are the events that are due on its channel. -/
theorem deliveries_pollSubscription (b : EventBus) (sub : Subscription) :
    (pollSubscription b.channels sub).1 =
      ((b.log sub.channel).filter (isDue sub.cursor)).map (⟨sub.channel, ·⟩) := by
  unfold pollSubscription log
  split
  · next h => simp [h]
  · next events h => simp [h]

/-- What the subscriptions in a list deliver on one channel. -/
theorem deliveries_poll (b : EventBus) (channel : String) {subs : List Subscription}
    (hdistinct : (subs.map (·.channel)).Nodup) :
    (((subs.map (pollSubscription b.channels)).flatMap (·.1)).filter
        (·.channel = channel)).map (·.event) =
      match cursorOn channel subs with
      | some cursor => (b.log channel).filter (isDue cursor)
      | none => [] := by
  induction subs with
  | nil => rfl
  | cons sub rest ih =>
    rw [List.map_cons, List.nodup_cons] at hdistinct
    have hrest := ih hdistinct.2
    simp only [List.map_cons, List.flatMap_cons, List.filter_append, List.map_append,
      deliveries_pollSubscription, hrest]
    by_cases h : sub.channel = channel
    · -- the channel occurs nowhere else in the list
      have hnone : cursorOn channel rest = none := by
        simp only [cursorOn, Option.map_eq_none_iff, List.find?_eq_none, decide_eq_true_eq]
        intro sub' hsub' he
        exact hdistinct.1 (List.mem_map.mpr ⟨sub', hsub', he.trans h.symm⟩)
      have hsome : cursorOn channel (sub :: rest) = some sub.cursor := by simp [cursorOn, h]
      rw [hnone, hsome]
      simp [h, List.filter_map, Function.comp_def]
    · have hcons : cursorOn channel (sub :: rest) = cursorOn channel rest := by simp [cursorOn, h]
      rw [hcons]
      simp [h, List.filter_map, Function.comp_def]

/-- After a poll the cursor of a channel is where its subscription was handled to. -/
theorem cursorOn_poll (channels : Registry Log) (channel : String) (subs : List Subscription) :
    cursorOn channel ((subs.map (pollSubscription channels)).map (·.2)) =
      (cursorOn channel subs).map fun cursor =>
        (pollSubscription channels ⟨channel, cursor⟩).2.cursor := by
  induction subs with
  | nil => rfl
  | cons sub rest ih =>
    by_cases h : sub.channel = channel
    · subst h
      simp [cursorOn, channel_pollSubscription]
    · simpa [cursorOn, channel_pollSubscription, h] using ih

/-- The last number of a log bounds all its numbers. -/
theorem Sound.latest {b : EventBus} (hb : Sound b) (channel : String) :
    0 ≤ (Log.latest? (b.log channel)).getD 0 ∧
    (Log.latest? (b.log channel)).getD 0 ≤ b.counter ∧
    ∀ e ∈ b.log channel, e.replayId ≤ (Log.latest? (b.log channel)).getD 0 := by
  have hinc := hb.increasing channel
  have hnum := hb.numbered channel
  rcases List.eq_nil_or_concat (b.log channel) with hnil | ⟨front, last, hcat⟩
  · rw [hnil]
    exact ⟨Int.le_refl 0, hb.counter_nonneg, fun e he => absurd he List.not_mem_nil⟩
  · rw [List.concat_eq_append] at hcat
    rw [hcat] at hinc hnum ⊢
    have hlast : (Log.latest? (front ++ [last])).getD 0 = last.replayId := by
      simp [Log.latest?]
    have hl := hnum last (by simp)
    rw [hlast]
    refine ⟨by omega, hl.2, ?_⟩
    intro e he
    rcases List.mem_append.mp he with hfront | hend
    · have := (List.pairwise_append.mp hinc).2.2 e hfront last (List.mem_singleton.mpr rfl)
      omega
    · rw [List.mem_singleton] at hend
      subst hend
      exact Int.le_refl _

theorem isDue_eq_true {cursor : Int} {e : Event} :
    isDue cursor e = true ↔ cursor = replayAll ∨ cursor < e.replayId := by
  simp [isDue]

/-- After a poll nothing in the log is due; what is still to come is due as before. -/
theorem Sound.pollCursor {b : EventBus} (hb : Sound b) (channel : String) (cursor : Int) :
    (b.log channel).filter
        (isDue (pollSubscription b.channels ⟨channel, cursor⟩).2.cursor) = [] ∧
    ∀ e : Event, b.counter < e.replayId →
      isDue (pollSubscription b.channels ⟨channel, cursor⟩).2.cursor e = isDue cursor e := by
  rcases hb.latest channel with ⟨hpos, hle, hbound⟩
  unfold pollSubscription
  split
  · next h =>
    -- nothing was ever published there
    have hnil : b.log channel = [] := by simp [log, h]
    rw [hnil]
    exact ⟨rfl, fun e _ => rfl⟩
  · next events h =>
    have hlog : b.log channel = events := by simp [log, h]
    rw [hlog] at hpos hle hbound ⊢
    have hall : ∀ e : Event,
        isDue (max ((Log.latest? events).getD 0) cursor) e = true ↔
          max ((Log.latest? events).getD 0) cursor < e.replayId := by
      intro e
      rw [isDue_eq_true, replayAll]
      omega
    constructor
    · -- the cursor has passed the last number of the log
      rw [List.filter_eq_nil_iff]
      intro e he
      have := hbound e he
      rw [hall]
      omega
    · intro e he
      rw [Bool.eq_iff_iff, hall, isDue_eq_true, replayAll]
      omega

/-! ## A run of polls -/

/-- An operation that ends a client's subscription to a channel or begins it anew. -/
def Op.endsSubscription (client channel : String) : Op → Bool
  | .subscribe client' channel' _ => client' = client && channel' = channel
  | .unsubscribe client' channel' => client' = client && channel' = channel
  | .disconnect client' => client' = client
  | _ => false

/-- A cursor stays where it is, unless its subscription is opened, ended or polled. -/
theorem cursor?_next {b : EventBus} {op : Op} {client channel : String}
    (hstay : op.endsSubscription client channel = false) (hopen : op.opened? ≠ some client)
    (hpoll : op ≠ .poll client) :
    (b.next op).cursor? client channel = b.cursor? client channel := by
  unfold cursor?
  rcases subscriptionsOf_next b op client with
    h | ⟨hop, -⟩ | ⟨channel', r, rfl, h⟩ | ⟨channel', rfl, h⟩ | ⟨hop, -⟩ | ⟨rfl, -⟩
  · rw [h]
  · exact absurd hop hopen
  · have hne : channel' ≠ channel := by simpa [Op.endsSubscription] using hstay
    rw [h, cursorOn_placeSubscription, if_neg hne]
  · have hne : channel' ≠ channel := by simpa [Op.endsSubscription] using hstay
    rw [h, cursorOn_filter_ne (Ne.symm hne)]
  · exact absurd hop hpoll
  · simp [Op.endsSubscription] at hstay

/-- A poll of a subscribed client delivers what is due and moves the cursor. -/
theorem poll_subscribed {b : EventBus} (hb : Sound b) {client channel : String} {cursor : Int}
    (hcursor : b.cursor? client channel = some cursor) :
    (∃ answer, b.poll client = .ok answer) ∧
    b.deliveredBy client channel (.poll client) = (b.log channel).filter (isDue cursor) ∧
    (b.next (.poll client)).cursor? client channel =
      some (pollSubscription b.channels ⟨channel, cursor⟩).2.cursor := by
  have hknown : ∃ s, b.clients.get? client = some s := by
    cases hs : b.clients.get? client with
    | none => simp [cursor?, subscriptionsOf, hs, cursorOn] at hcursor
    | some s => exact ⟨s, rfl⟩
  rcases hknown with ⟨s, hs⟩
  have hsubs := subscriptionsOf_of_get? hs
  have hdistinct := hb.distinct client
  unfold cursor? at hcursor
  rw [hsubs] at hcursor hdistinct
  refine ⟨⟨_, poll_eq hs⟩, ?_, ?_⟩
  · have h := deliveries_poll b channel hdistinct
    rw [hcursor] at h
    simpa [deliveredBy, poll_eq hs] using h
  · simp only [next, poll_eq hs, cursor?, subscriptionsOf_setSubscriptions, if_true, cursorOn_poll,
      hcursor, Option.map_some]

/-- Only the poll of a client delivers to it. -/
theorem deliveredBy_eq_nil (b : EventBus) {client : String} (channel : String) {op : Op}
    (h : op ≠ .poll client) : b.deliveredBy client channel op = [] := by
  cases op with
  | poll client' =>
    have hne : client' ≠ client := fun e => h (e ▸ rfl)
    simp [deliveredBy, hne]
  | _ => rfl

/-- Without a poll nothing is delivered. -/
theorem delivered_eq_nil (b : EventBus) {client : String} (channel : String) {ops : List Op}
    (h : .poll client ∉ ops) : delivered client channel b ops = [] := by
  induction ops generalizing b with
  | nil => rfl
  | cons op ops ih =>
    rw [List.mem_cons, not_or] at h
    rw [delivered, deliveredBy_eq_nil b channel (Ne.symm h.1), ih _ h.2, List.append_nil]

/-- What a run publishes has numbers above the counter at its beginning. -/
theorem counter_lt_published {b : EventBus} {channel : String} {ops : List Op} {e : Event}
    (h : e ∈ published channel b ops) : b.counter < e.replayId := by
  induction ops generalizing b with
  | nil => cases h
  | cons op ops ih =>
    rcases List.mem_append.mp h with hnow | hlater
    · have := publishedBy_replayId hnow
      omega
    · exact Int.lt_of_le_of_lt (counter_le_next b op) (ih hlater)

/-- A log is what was in it, followed by what was published on its channel. -/
theorem log_run (b : EventBus) (channel : String) (ops : List Op) :
    (b.run ops).log channel = b.log channel ++ published channel b ops := by
  induction ops generalizing b with
  | nil => simp [published]
  | cons op ops ih => rw [run_cons, ih, log_next, List.append_assoc, published]

/-- An operation that leaves a client's subscription to a channel in place. -/
def Op.keepsSubscription (client channel : String) (op : Op) : Prop :=
  op.endsSubscription client channel = false ∧ op.opened? ≠ some client

/-- As long as a subscription stands, what it was sent and what is due to it now make up what was
due to it at the beginning and what was published since. -/
theorem delivered_append_due {client channel : String} (ops : List Op) {b : EventBus}
    (hb : Sound b) {cursor : Int} (hcursor : b.cursor? client channel = some cursor)
    (hkeep : ∀ op ∈ ops, op.keepsSubscription client channel) :
    ∃ cursor', (b.run ops).cursor? client channel = some cursor' ∧
      delivered client channel b ops ++ ((b.run ops).log channel).filter (isDue cursor') =
        (b.log channel).filter (isDue cursor) ++
          (published channel b ops).filter (isDue cursor) := by
  induction ops generalizing b cursor with
  | nil => exact ⟨cursor, hcursor, by simp [delivered, published]⟩
  | cons op ops ih =>
    have hrest : ∀ op' ∈ ops, op'.keepsSubscription client channel :=
      fun op' h => hkeep op' (List.mem_cons_of_mem _ h)
    rcases hkeep op List.mem_cons_self with ⟨hstay, hopen⟩
    by_cases hpoll : op = .poll client
    · -- the poll sends all that is due; of the log nothing is due to the new cursor
      subst hpoll
      rcases poll_subscribed hb hcursor with ⟨-, hsent, hmoved⟩
      rcases hb.pollCursor channel cursor with ⟨hnone, hsame⟩
      rcases ih (hb.next _) hmoved hrest with ⟨cursor', hlast, h⟩
      refine ⟨cursor', hlast, ?_⟩
      have hlog : (b.next (.poll client)).log channel = b.log channel := by
        rw [log_next]
        exact List.append_nil _
      have hfuture : (published channel (b.next (.poll client)) ops).filter
            (isDue (pollSubscription b.channels ⟨channel, cursor⟩).2.cursor) =
          (published channel (b.next (.poll client)) ops).filter (isDue cursor) := by
        apply List.filter_congr
        intro e he
        apply hsame e
        exact Int.lt_of_le_of_lt (counter_le_next b _) (counter_lt_published he)
      rw [hlog, hnone, hfuture] at h
      simpa [delivered, hsent, published, publishedBy] using h
    · -- any other operation sends nothing and may add to the log
      have hsent : b.deliveredBy client channel op = [] := deliveredBy_eq_nil b channel hpoll
      obtain ⟨cursor', hlast, h⟩ := ih (hb.next op)
        ((cursor?_next hstay hopen hpoll).trans hcursor) hrest
      refine ⟨cursor', hlast, ?_⟩
      simpa [delivered, hsent, published, log_next] using h

/-! ## What a subscription is owed -/

/-- What a subscription is to be sent: of the log, the events after the replay position, which are
all of them for `replayAll`; for `replayNew`, what was published since the subscription. -/
def owed (replayFrom : Int) (log since : List Event) : List Event :=
  if replayFrom = replayAll then log
  else if replayFrom = replayNew then since
  else log.filter (replayFrom < ·.replayId)

/-- What is due at the cursor of a new subscription, and of all that comes later, is what the
subscription is owed. -/
theorem Sound.due_eq_owed {b : EventBus} (hb : Sound b) (channel : String) (replayFrom : Int)
    {since : List Event} (hsince : ∀ e ∈ since, b.counter < e.replayId) :
    (b.log channel).filter (isDue (b.cursorFor channel replayFrom)) ++
        since.filter (isDue (b.cursorFor channel replayFrom)) =
      owed replayFrom (b.log channel ++ since) since := by
  rcases hb.latest channel with ⟨hpos, hle, hbound⟩
  unfold owed
  split
  · next hall =>
    subst hall
    have hdue : ∀ e, isDue (b.cursorFor channel replayAll) e = true := by
      intro e
      simp [isDue, cursorFor, replayAll, replayNew]
    rw [← List.filter_append]
    rw [List.filter_eq_self]
    intro e _
    exact hdue e
  · next hall =>
    split
    · next hnew =>
      subst hnew
      -- the cursor is the last number of the log: all that is there lies before it
      have hcursor : b.cursorFor channel replayNew = (Log.latest? (b.log channel)).getD 0 := by
        simp [cursorFor, log]
      have hold : (b.log channel).filter (isDue (b.cursorFor channel replayNew)) = [] := by
        rw [List.filter_eq_nil_iff]
        intro e he
        have := hbound e he
        rw [isDue_eq_true, hcursor, replayAll]
        omega
      have hnew : since.filter (isDue (b.cursorFor channel replayNew)) = since := by
        rw [List.filter_eq_self]
        intro e he
        have := hsince e he
        rw [isDue_eq_true, hcursor]
        omega
      rw [hold, hnew, List.nil_append]
    · next hnew =>
      have hcursor : b.cursorFor channel replayFrom = replayFrom := by simp [cursorFor, hnew]
      rw [hcursor, ← List.filter_append]
      apply List.filter_congr
      intro e _
      simp [isDue, hall]

/-- Numbers grow along every log and no two logs share one.  And from a successful subscription on,
as long as it stands, a client's polls succeed and deliver on its channel, in order and each once,
just the events that the log of the channel owes it at the last poll. -/
theorem polls_deliver_owed_once :
    (∀ ops : List Op,
      (∀ channel, (((empty.run ops).log channel).map (·.replayId)).Pairwise (· < ·)) ∧
      ∀ channel channel', channel ≠ channel' → ∀ e ∈ (empty.run ops).log channel,
        ∀ e' ∈ (empty.run ops).log channel', e.replayId ≠ e'.replayId) ∧
    ∀ (before earlier later : List Op) (client channel : String) (replayFrom : Int)
      (b : EventBus),
      (openedIds (before ++ .subscribe client channel replayFrom ::
        (earlier ++ .poll client :: later))).Nodup →
      (empty.run before).subscribe client channel replayFrom = .ok b →
      (∀ op ∈ earlier ++ .poll client :: later, op.endsSubscription client channel = false) →
      .poll client ∉ later →
      (∃ answer, (b.run earlier).poll client = .ok answer) ∧
      delivered client channel b (earlier ++ .poll client :: later) =
        owed replayFrom ((b.run earlier).log channel) (published channel b earlier) := by
  constructor
  · intro ops
    have hsound := sound_empty.run ops
    exact ⟨fun channel => List.pairwise_map.mpr (hsound.increasing channel), hsound.disjoint⟩
  · intro before earlier later client channel replayFrom b hids hsub hstay hlast
    have hbefore : Sound (empty.run before) := sound_empty.run before
    rcases subscribe_ok hsub with ⟨s, hs, hb⟩
    have hnext : (empty.run before).next (.subscribe client channel replayFrom) = b := by
      simp [next, hsub]
    have hsound : Sound b := hnext ▸ hbefore.next _
    have hcursor : b.cursor? client channel =
        some ((empty.run before).cursorFor channel replayFrom) := by
      rw [hb, cursor?, subscriptionsOf_setSubscriptions, if_pos rfl, cursorOn_placeSubscription,
        if_pos rfl]
    -- the client's id was given out before, so no later session takes it
    have hopened : client ∈ openedIds before := by
      rcases known_run (b := empty) (by simp [hs] : ((empty.run before).clients.get? client).isSome)
        with hnone | hmem
      · simp [empty] at hnone
      · exact hmem
    have hfresh : ∀ op ∈ earlier ++ .poll client :: later, op.opened? ≠ some client := by
      intro op hop hopen
      rw [openedIds, List.filterMap_append, List.nodup_append] at hids
      refine hids.2.2 client hopened client ?_ rfl
      exact List.mem_filterMap.mpr ⟨op, List.mem_cons_of_mem _ hop, hopen⟩
    have hkeep : ∀ op ∈ earlier, op.keepsSubscription client channel := fun op hop =>
      ⟨hstay op (List.mem_append_left _ hop), hfresh op (List.mem_append_left _ hop)⟩
    rcases delivered_append_due earlier hsound hcursor hkeep with ⟨cursor, hpolled, hsent⟩
    rcases poll_subscribed (hsound.run earlier) hpolled with ⟨hanswer, hdue, -⟩
    refine ⟨hanswer, ?_⟩
    have hlog : b.log channel = (empty.run before).log channel := by rw [hb]; rfl
    have hcounter : b.counter = (empty.run before).counter := by rw [hb]; rfl
    calc delivered client channel b (earlier ++ .poll client :: later)
        = delivered client channel b earlier ++
            ((b.run earlier).log channel).filter (isDue cursor) := by
          rw [delivered_append, delivered, hdue, delivered_eq_nil _ channel hlast, List.append_nil]
      _ = (b.log channel).filter (isDue ((empty.run before).cursorFor channel replayFrom)) ++
            (published channel b earlier).filter
              (isDue ((empty.run before).cursorFor channel replayFrom)) := hsent
      _ = owed replayFrom ((b.run earlier).log channel) (published channel b earlier) := by
          rw [log_run, hlog]
          exact hbefore.due_eq_owed channel replayFrom
            fun e he => hcounter ▸ counter_lt_published he

/-- A subscription to new events skips the event before it and gets the one after it, although
another channel and an earlier poll come in between. -/
theorem polls_deliver_new_event :
    ∃ b, (empty.run [.publish "/event/A" .null "t", .connect ⟨0, 0⟩]).subscribe
        (clientId 0) "/event/A" replayNew = .ok b ∧
      delivered (clientId 0) "/event/A" b [.poll (clientId 0), .publish "/event/B" .null "t",
        .publish "/event/A" (.bool true) "t", .poll (clientId 0), .disconnect (clientId 1)] =
        [⟨3, .bool true, "t"⟩] := by
  refine ⟨_, rfl, ?_⟩
  exact (polls_deliver_owed_once.2 [.publish "/event/A" .null "t", .connect ⟨0, 0⟩]
    [.poll (clientId 0), .publish "/event/B" .null "t", .publish "/event/A" (.bool true) "t"]
    [.disconnect (clientId 1)] (clientId 0) "/event/A" replayNew _ (by decide) rfl (by decide)
    (by simp)).2.trans rfl

end EventBus

end CrmEmulator
