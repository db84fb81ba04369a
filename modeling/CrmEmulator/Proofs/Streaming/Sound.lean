import CrmEmulator.Proofs.Streaming.Bus

/-!
# CrmEmulator.Proofs.Streaming.Sound — what every run of the bus keeps

`Sound`: numbers of events grow along every log, no two logs share one, and none exceeds the
counter; no client subscribes twice to a channel.  The steps are taken from what an operation does
to subscriptions (`subscriptionsOf_next`) and to logs (`log_next`).
-/

namespace CrmEmulator

namespace EventBus

/-! ## Subscriptions after an operation -/

/-- Setting the subscriptions of a client changes those of no other. -/
theorem subscriptionsOf_setSubscriptions (b : EventBus) (client client' : String) (s : Session)
    (subs : List Subscription) :
    (b.setSubscriptions client s subs).subscriptionsOf client' =
      if client' = client then subs else b.subscriptionsOf client' := by
  by_cases h : client' = client <;> simp [setSubscriptions, subscriptionsOf, h]

theorem subscriptionsOf_of_get? {b : EventBus} {client : String} {s : Session}
    (h : b.clients.get? client = some s) : b.subscriptionsOf client = s.subscriptions := by
  simp [subscriptionsOf, h]

/-- All that an operation can do to the subscriptions of a client. -/
theorem subscriptionsOf_next (b : EventBus) (op : Op) (client : String) :
    (b.next op).subscriptionsOf client = b.subscriptionsOf client ∨
    (op.opened? = some client ∧ (b.next op).subscriptionsOf client = []) ∨
    (∃ channel replayFrom, op = .subscribe client channel replayFrom ∧
      (b.next op).subscriptionsOf client =
        placeSubscription ⟨channel, b.cursorFor channel replayFrom⟩ (b.subscriptionsOf client)) ∨
    (∃ channel, op = .unsubscribe client channel ∧
      (b.next op).subscriptionsOf client =
        (b.subscriptionsOf client).filter (·.channel ≠ channel)) ∨
    (op = .poll client ∧
      (b.next op).subscriptionsOf client =
        ((b.subscriptionsOf client).map (pollSubscription b.channels)).map (·.2)) ∨
    (op = .disconnect client ∧ (b.next op).subscriptionsOf client = []) := by
  have heffect := next_effect b op
  generalize b.next op = b' at heffect ⊢
  cases heffect with
  | kept => exact .inl rfl
  | published =>
    left
    simp [publish, appendEvent, subscriptionsOf]
  | @opened supply hop =>
    subst hop
    by_cases h : client = clientId supply.serial
    · right; left
      simp [connect, subscriptionsOf, Op.opened?, h]
    · left
      simp [connect, subscriptionsOf, h]
  | resubscribed hs h =>
    -- the session of one client is written back; is it this client's?
    rw [subscriptionsOf_setSubscriptions]
    split
    · next hc =>
      subst hc
      rw [subscriptionsOf_of_get? hs]
      cases h with
      | subscribe channel replayFrom =>
        right; right; left
        exact ⟨channel, replayFrom, rfl, rfl⟩
      | unsubscribe channel =>
        right; right; right; left
        exact ⟨channel, rfl, rfl⟩
      | poll =>
        right; right; right; right; left
        exact ⟨rfl, rfl⟩
    · exact .inl rfl
  | @closed client' hop =>
    by_cases h : client = client'
    · subst h
      right; right; right; right; right
      exact ⟨hop, by simp [disconnect, subscriptionsOf]⟩
    · left
      simp [disconnect, subscriptionsOf, h]

/-- A client has a session only if it had one or one was opened for it. -/
theorem known_next {b : EventBus} {op : Op} {client : String}
    (h : ((b.next op).clients.get? client).isSome) :
    (b.clients.get? client).isSome ∨ op.opened? = some client := by
  have heffect := next_effect b op
  generalize b.next op = b' at heffect h
  cases heffect with
  | kept => exact .inl h
  | published => exact .inl (by simpa [publish, appendEvent] using h)
  | @opened supply hop =>
    by_cases he : client = clientId supply.serial
    · exact .inr (by simp [hop, Op.opened?, he])
    · exact .inl (by simpa [connect, he] using h)
  | @resubscribed client' s subs hs _ =>
    by_cases he : client = client'
    · exact .inl (by simp [he, hs])
    · exact .inl (by simpa [setSubscriptions, he] using h)
  | @closed client' hop =>
    by_cases he : client = client'
    · simp [disconnect, he] at h
    · exact .inl (by simpa [disconnect, he] using h)

/-- A client that is known after a run was known before or was opened in between. -/
theorem known_run {b : EventBus} {ops : List Op} {client : String}
    (h : ((b.run ops).clients.get? client).isSome) :
    (b.clients.get? client).isSome ∨ client ∈ openedIds ops := by
  induction ops generalizing b with
  | nil => exact .inl h
  | cons op ops ih =>
    rcases ih h with hnext | hlater
    · rcases known_next hnext with hb | hop
      · exact .inl hb
      · exact .inr (List.mem_filterMap.mpr ⟨op, List.mem_cons_self, hop⟩)
    · rcases List.mem_filterMap.mp hlater with ⟨op', hmem, hop'⟩
      exact .inr (List.mem_filterMap.mpr ⟨op', List.mem_cons_of_mem _ hmem, hop'⟩)

/-! ## The invariant -/

/-- What every run keeps. -/
structure Sound (b : EventBus) : Prop where
  counter_nonneg : 0 ≤ b.counter
  numbered : ∀ channel, ∀ e ∈ b.log channel, 0 < e.replayId ∧ e.replayId ≤ b.counter
  increasing : ∀ channel, (b.log channel).Pairwise fun e e' => e.replayId < e'.replayId
  disjoint : ∀ channel channel', channel ≠ channel' →
    ∀ e ∈ b.log channel, ∀ e' ∈ b.log channel', e.replayId ≠ e'.replayId
  distinct : ∀ client, ((b.subscriptionsOf client).map (·.channel)).Nodup

/-- An empty bus is sound. -/
theorem sound_empty : Sound empty where
  counter_nonneg := Int.le_refl 0
  numbered := by intro channel e he; cases he
  increasing := fun _ => List.Pairwise.nil
  disjoint := by intro channel channel' _ e he; cases he
  distinct := fun _ => List.nodup_nil

/-- Events may be dropped and the counter may grow. -/
theorem Sound.of_sublist {b b' : EventBus} (hb : Sound b)
    (hlog : ∀ channel, (b'.log channel).Sublist (b.log channel)) (hcounter : b.counter ≤ b'.counter)
    (hdistinct : ∀ client, ((b'.subscriptionsOf client).map (·.channel)).Nodup) : Sound b' where
  counter_nonneg := Int.le_trans hb.counter_nonneg hcounter
  numbered := by
    intro channel e he
    have h := hb.numbered channel e ((hlog channel).subset he)
    exact ⟨h.1, Int.le_trans h.2 hcounter⟩
  increasing := fun channel => (hb.increasing channel).sublist (hlog channel)
  disjoint := fun channel channel' hne e he e' he' =>
    hb.disjoint channel channel' hne e ((hlog channel).subset he) e' ((hlog channel').subset he')
  distinct := hdistinct

/-- What is published gets the number after the counter. -/
theorem publishedBy_replayId {b : EventBus} {channel : String} {op : Op} {e : Event}
    (h : e ∈ b.publishedBy channel op) :
    e.replayId = b.counter + 1 ∧ (b.next op).counter = b.counter + 1 := by
  cases op with
  | publish channel' payload now =>
    simp only [publishedBy] at h
    split at h
    · rw [List.mem_singleton] at h
      subst h
      exact ⟨replayId_publish b channel' payload now, counter_publish b channel' payload now⟩
    · cases h
  | _ => cases h

/-- An operation publishes on one channel at most. -/
theorem publishedBy_unique {b : EventBus} {channel channel' : String} {op : Op} {e e' : Event}
    (h : e ∈ b.publishedBy channel op) (h' : e' ∈ b.publishedBy channel' op) :
    channel = channel' := by
  cases op with
  | publish target payload now =>
    simp only [publishedBy] at h h'
    split at h
    · split at h'
      · exact (‹target = channel›).symm.trans ‹target = channel'›
      · cases h'
    · cases h
  | _ => cases h

/-- An operation publishes at most one event. -/
theorem publishedBy_length (b : EventBus) (channel : String) (op : Op) :
    (b.publishedBy channel op).length ≤ 1 := by
  cases op with
  | publish channel' payload now =>
    simp only [publishedBy]
    split <;> simp
  | _ => exact Nat.zero_le 1

/-- No operation takes the counter back. -/
theorem counter_le_next (b : EventBus) (op : Op) : b.counter ≤ (b.next op).counter := by
  rcases counter_next b op with ⟨_, _, _, _, h⟩ | h <;> omega

/-- Every operation keeps a bus sound. -/
theorem Sound.next {b : EventBus} (hb : Sound b) (op : Op) : Sound (b.next op) where
  counter_nonneg := Int.le_trans hb.counter_nonneg (counter_le_next b op)
  numbered := by
    intro channel e he
    rw [log_next, List.mem_append] at he
    rcases he with hold | hnew
    · have h := hb.numbered channel e hold
      exact ⟨h.1, Int.le_trans h.2 (counter_le_next b op)⟩
    · have h := publishedBy_replayId hnew
      have := hb.counter_nonneg
      omega
  increasing := by
    intro channel
    rw [log_next, List.pairwise_append]
    refine ⟨hb.increasing channel, ?_, ?_⟩
    · -- one operation publishes one event at most, so there is nothing to compare
      match hp : b.publishedBy channel op with
      | [] => exact List.Pairwise.nil
      | [e] => exact List.pairwise_singleton _ e
      | e :: e' :: rest =>
        have h := publishedBy_length b channel op
        rw [hp] at h
        simp at h
    · intro e he e' he'
      have h := hb.numbered channel e he
      have h' := publishedBy_replayId he'
      omega
  disjoint := by
    intro channel channel' hne e he e' he'
    rw [log_next, List.mem_append] at he he'
    rcases he with hold | hnew <;> rcases he' with hold' | hnew'
    · exact hb.disjoint channel channel' hne e hold e' hold'
    · -- a new event has a larger number than every old one
      have h := hb.numbered channel e hold
      have h' := publishedBy_replayId hnew'
      omega
    · have h := publishedBy_replayId hnew
      have h' := hb.numbered channel' e' hold'
      omega
    · exact absurd (publishedBy_unique hnew hnew') hne
  distinct := by
    intro client
    rcases subscriptionsOf_next b op client with
      h | ⟨-, h⟩ | ⟨channel, r, -, h⟩ | ⟨channel, -, h⟩ | ⟨-, h⟩ | ⟨-, h⟩ <;> rw [h]
    · exact hb.distinct client
    · exact List.nodup_nil
    · exact nodup_placeSubscription _ (hb.distinct client)
    · exact (hb.distinct client).sublist (List.filter_sublist.map _)
    · -- a poll moves cursors and keeps the channels
      simpa [List.map_map, Function.comp_def, channel_pollSubscription] using hb.distinct client
    · exact List.nodup_nil

/-- A run keeps a bus sound. -/
theorem Sound.run {b : EventBus} (hb : Sound b) (ops : List Op) : Sound (b.run ops) := by
  induction ops generalizing b with
  | nil => exact hb
  | cons op ops ih => exact ih (hb.next op)

end EventBus

end CrmEmulator
