import Dizzchat.Realtime.Presence

set_option autoImplicit false

/-! # No socket is served unsubscribed

The same replica as in the study of presence, with every Redis call and every send free to fail.
`connections_served`: while neither lock is held and the reader task is alive, a conversation with a
connection has its channel among the wanted ones and in the subscriptions of the pub/sub.

Only one direction of the agreement of map and channels is left: a broadcast may take the last
connection out of the map and leave the channel, but nothing takes the channel from a connection.
While the lock of the registry is held the joining connection is the exception (`Serves`); while the
reader subscribes a new pub/sub, the channels it has still to go through are (`ServedInv.covered`). -/

namespace Dizzchat

open Transition

variable {κ τ β : Type*} [DecidableEq κ]

/-! ## The map and the channels -/

namespace ConversationRegistry

/-- The conversation has its channel, if it has a connection. -/
def Served (s : ConversationRegistry κ τ) (c : ConversationId) : Prop :=
  s.manager.registered c ≠ ∅ → conversationChannel c ∈ s.subscriber.channels

/-- What is served while the holder of the lock is at this point of its call. A connection whose
    `join` is subscribing is not, and may have been dropped by a broadcast in the meantime. -/
def Serves (s : ConversationRegistry κ τ) : RegistryCall κ → Prop
  | .subscribing c k call => s.manager.registered c ⊆ {k} ∧
      (call = .waitingSubscribe c ∨ call = .subscribing c) ∧ ∀ c' ≠ c, s.Served c'
  | .unsubscribing c _ call => s.manager.registered c = ∅ ∧
      (call = .waitingUnsubscribe c ∨
        call = .unsubscribing c ∧ conversationChannel c ∉ s.subscriber.channels) ∧
      ∀ c' ≠ c, s.Served c'
  | .waitingJoin .. | .waitingLeave .. | .returned | .raised => ∀ c, s.Served c

omit [DecidableEq κ] in
theorem serves_iff {s : ConversationRegistry κ τ} {l : RegistryCall κ} (hl : l.locked = false) :
    s.Serves l ↔ ∀ c, s.Served c := by
  cases l with
  | waitingJoin | waitingLeave | returned | raised => exact Iff.rfl
  | subscribing | unsubscribing => cases hl

omit [DecidableEq κ] in
theorem Served.congr {s s' : ConversationRegistry κ τ} {c : ConversationId} (h : s.Served c)
    (hmanager : s'.manager.registered c ⊆ s.manager.registered c)
    (hchannels : conversationChannel c ∈ s.subscriber.channels →
      conversationChannel c ∈ s'.subscriber.channels) : s'.Served c :=
  fun hne => hchannels (h fun he => hne (Finset.subset_empty.1 (he ▸ hmanager)))

omit [DecidableEq κ] in
theorem served_of_empty {s : ConversationRegistry κ τ} {c : ConversationId}
    (h : s.manager.registered c = ∅) : s.Served c :=
  fun hne => absurd h hne

omit [DecidableEq κ] in
theorem forall_served {s : ConversationRegistry κ τ} {c : ConversationId} (hc : s.Served c)
    (hrest : ∀ c' ≠ c, s.Served c') (c' : ConversationId) : s.Served c' := by
  rcases eq_or_ne c' c with rfl | hne
  · exact hc
  · exact hrest c' hne

end ConversationRegistry

omit [DecidableEq κ] in
theorem looksInside_serves :
    LooksInside (ConversationRegistry.Serves : ConversationRegistry κ τ → _) :=
  fun _ _ _ hl hl' h =>
    (ConversationRegistry.serves_iff hl').2 ((ConversationRegistry.serves_iff hl).1 h)

theorem RegistryMove.serves {t : τ} {step : RegistryStep} {s s' : ConversationRegistry κ τ}
    {l l' : RegistryCall κ} (h : RegistryMove t s step l s' l') (hs : s.Serves l) :
    s'.Serves l' := by
  cases h with
  | @joinsFirst c k hfree h =>
      refine ⟨?_, .inl rfl, fun c' hc => ?_⟩
      · simp only
        rw [ConnectionManager.register_registered, h]
        rfl
      · exact (hs c').congr (ConnectionManager.register_registered_of_ne hc k _).subset id
  | @joins c k hfree h =>
      refine ConversationRegistry.forall_served (c := c) (fun _ => hs c h) fun c' hc => ?_
      exact (hs c').congr (ConnectionManager.register_registered_of_ne hc k _).subset id
  | @subscribes c k step call call' subscriber h hend =>
      obtain ⟨hk, hcall, hrest⟩ := hs
      rcases h.subscribe_channels hcall with ⟨rfl, hch⟩ | ⟨rfl, -⟩ | ⟨rfl, -⟩
      · exact ⟨hk, .inr rfl, fun c' hc => (hrest c' hc).congr (Finset.Subset.refl _) (by rw [hch]; exact id)⟩
      · cases hend
      · cases hend
  | @joined c k step call subscriber h =>
      obtain ⟨hk, hcall, hrest⟩ := hs
      rcases h.subscribe_channels hcall with ⟨hend, -⟩ | ⟨-, hch⟩ | ⟨hend, -⟩
      · cases hend
      · refine ConversationRegistry.forall_served (c := c) (fun _ => ?_) fun c' hc => ?_
        · simp only
          rw [hch]
          exact Finset.mem_insert_self _ _
        · refine (hrest c' hc).congr (Finset.Subset.refl _) fun hin => ?_
          simp only
          rw [hch]
          exact Finset.mem_insert_of_mem hin
      · cases hend
  | @rollsBack c k step call subscriber h =>
      obtain ⟨hk, hcall, hrest⟩ := hs
      rcases h.subscribe_channels hcall with ⟨hend, -⟩ | ⟨hend, -⟩ | ⟨-, hch⟩
      · cases hend
      · cases hend
      · refine ConversationRegistry.forall_served (c := c) ?_ fun c' hc => ?_
        · -- the connection that goes was the only one there could be
          refine ConversationRegistry.served_of_empty ?_
          simp only
          rw [ConnectionManager.unregister_registered, ← Finset.subset_empty]
          exact (Finset.erase_subset_erase k hk).trans (by simp)
        · exact (hrest c' hc).congr (ConnectionManager.unregister_registered_subset c c' k _)
            (by rw [hch]; exact id)
  | @leavesLast c k hfree h =>
      refine ⟨?_, .inl rfl, fun c' hc => ?_⟩
      · simp only
        rw [ConnectionManager.unregister_registered, h, Finset.erase_singleton]
      · exact (hs c').congr (ConnectionManager.unregister_registered_subset c c' k _) id
  | @leaves c k hfree h =>
      exact fun c' => (hs c').congr (ConnectionManager.unregister_registered_subset c c' k _) id
  | @unsubscribes c k step call call' subscriber h hend =>
      obtain ⟨hnone, hcall, hrest⟩ := hs
      rcases h.unsubscribe_channels (hcall.imp_right And.left) with ⟨rfl, hch⟩ | ⟨hended, -⟩
      · refine ⟨hnone, .inr ⟨rfl, ?_⟩, fun c' hc => (hrest c' hc).congr (Finset.Subset.refl _) ?_⟩
        · simp only
          rw [hch]
          exact Finset.notMem_erase _ _
        · simp only
          rw [hch, Finset.mem_erase, Ne, conversationChannel_inj, and_iff_right hc]
          exact id
      · rw [hend] at hended
        cases hended
  | @left c k step call call' subscriber l h hend =>
      obtain ⟨hnone, hcall, hrest⟩ := hs
      have hl : l'.locked = false := by rcases hend with ⟨-, rfl⟩ | ⟨-, rfl⟩ <;> rfl
      refine (ConversationRegistry.serves_iff hl).2 ?_
      rcases h.unsubscribe_channels (hcall.imp_right And.left) with ⟨rfl, -⟩ | ⟨-, -, hch⟩
      · rcases hend with ⟨hend, -⟩ | ⟨hend, -⟩ <;> cases hend
      · exact ConversationRegistry.forall_served (ConversationRegistry.served_of_empty hnone)
          fun c' hc => (hrest c' hc).congr (Finset.Subset.refl _) (by rw [hch]; exact id)

omit [DecidableEq κ] in
/-- A registry that has lost connections, and no channels, serves what it served. -/
theorem ConversationRegistry.Serves.shrink {s s' : ConversationRegistry κ τ} {l : RegistryCall κ}
    (hs : s.Serves l) (hchannels : s'.subscriber.channels = s.subscriber.channels)
    (hsub : ∀ c, s'.manager.registered c ⊆ s.manager.registered c) : s'.Serves l := by
  have hserved : ∀ c, s.Served c → s'.Served c := fun c hc => hc.congr (hsub c) (by rw [hchannels]; exact id)
  cases l with
  | subscribing c k call =>
      obtain ⟨hk, hcall, hrest⟩ := hs
      exact ⟨(hsub c).trans hk, hcall, fun c' hc => hserved c' (hrest c' hc)⟩
  | unsubscribing c k call =>
      obtain ⟨hnone, hcall, hrest⟩ := hs
      refine ⟨Finset.subset_empty.1 (hnone ▸ hsub c), ?_, fun c' hc => hserved c' (hrest c' hc)⟩
      rwa [hchannels]
  | waitingJoin | waitingLeave | returned | raised => exact fun c => hserved c (hs c)

/-! ## The pub/sub -/

/-- The call of the subscriber that a call of the registry is waiting for. -/
def RegistryCall.inner : RegistryCall κ → SubscriberCall
  | .subscribing _ _ call | .unsubscribing _ _ call => call
  | .waitingJoin .. | .waitingLeave .. | .returned | .raised => .returned

/-- The channels the reader has still to subscribe the pub/sub to. -/
def Reader.toGo {δ : Type*} : Reader δ → Finset Channel
  | .resubscribing rest => rest
  | .top | .polling | .waitingRead | .reading | .delivering _ | .backingOff | .waitingReconnect
  | .closing | .ended => ∅

/-- A reader outside the lock is not in the middle of subscribing. -/
theorem Reader.toGo_eq_empty {δ : Type*} {r : Reader δ} (h : r.locked = false) : r.toGo = ∅ := by
  cases r with
  | reading | closing | resubscribing => cases h
  | top | polling | waitingRead | delivering | backingOff | waitingReconnect | ended => rfl

/-- Who is inside the lock of the subscriber. -/
def Replica.inside (r : Replica κ τ) (calls : τ → RegistryCall κ) : LockOwner τ → Bool
  | .reader => r.reader.locked
  | .caller t => (calls t).inner.locked

/-- Every channel that is wanted is subscribed, or the reader is about to subscribe it. -/
def Replica.Covered (r : Replica κ τ) : Prop :=
  ∀ channel ∈ r.registry.subscriber.channels,
    channel ∈ r.reader.toGo ∨ channel ∈ r.registry.subscriber.pubsub.subscribed

/-- The locks have one owner each, what is registered is served, and what is wanted is subscribed as
    long as the reader lives. -/
structure ServedInv (r : Replica κ τ) (calls : τ → RegistryCall κ) : Prop where
  owned : LockOwned r.registry.lock (RegistryCall.locked ∘ calls)
  subscriberOwned : LockOwned r.registry.subscriber.lock (r.inside calls)
  served : r.registry.Serves (r.registry.holder calls)
  covered : r.reader.hasEnded = false → r.Covered

omit [DecidableEq κ] in
theorem servedInv_init : ServedInv (Replica.init : Replica κ τ) fun _ => RegistryCall.returned where
  owned := LockOwned.init
  subscriberOwned o := by
    cases o <;> simp [Replica.inside, Replica.init, Subscriber.init, Reader.locked,
      RegistryCall.inner, SubscriberCall.locked]
  served c := ConversationRegistry.served_of_empty rfl
  covered _ _ h := absurd h (Finset.notMem_empty _)

/-! ## What a step does to the invariant -/

section Steps

variable {r : Replica κ τ} {calls : τ → RegistryCall κ}

omit [DecidableEq κ] in
theorem inside_reader [DecidableEq τ] (registry : ConversationRegistry κ τ)
    (reader : Reader (Broadcast κ)) :
    Replica.inside ⟨registry, reader⟩ calls =
      Function.update (r.inside calls) .reader reader.locked := by
  funext o
  cases o <;> simp [Replica.inside]

omit [DecidableEq κ] in
theorem inside_caller [DecidableEq τ] (registry : ConversationRegistry κ τ) (t : τ)
    (l : RegistryCall κ) :
    Replica.inside ⟨registry, r.reader⟩ (Function.update calls t l) =
      Function.update (r.inside calls) (.caller t) l.inner.locked := by
  funext o
  cases o with
  | reader => simp [Replica.inside]
  | caller u =>
      rcases eq_or_ne u t with rfl | hu
      · simp [Replica.inside]
      · simp [Replica.inside, hu]

/-- A call of the registry takes the lock of the subscriber in its inner call only. -/
theorem RegistryMove.subscriber_lock {t : τ} {step : RegistryStep} {s s' : ConversationRegistry κ τ}
    {l l' : RegistryCall κ} (h : RegistryMove t s step l s' l') :
    LockMove (.caller t) s.subscriber.lock l.inner.locked s'.subscriber.lock l'.inner.locked := by
  cases h with
  | joinsFirst | joins | leavesLast | leaves => exact .keeps _ _
  | subscribes h | joined h | rollsBack h | unsubscribes h => exact h.lock
  | left h hend => rcases hend with ⟨rfl, rfl⟩ | ⟨rfl, rfl⟩ <;> exact h.lock

omit [DecidableEq κ] in
/-- A recorded channel is subscribed before it is recorded, and forgotten before it is
    unsubscribed. -/
theorem SubscriberMove.covers {t : τ} {step : SubscriberStep} {s s' : Subscriber τ}
    {call call' : SubscriberCall} (h : SubscriberMove t s step call s' call')
    (hout : ∀ c, call = .unsubscribing c → conversationChannel c ∉ s.channels)
    {toGo : Finset Channel}
    (hs : ∀ channel ∈ s.channels, channel ∈ toGo ∨ channel ∈ s.pubsub.subscribed) :
    ∀ channel ∈ s'.channels, channel ∈ toGo ∨ channel ∈ s'.pubsub.subscribed := by
  intro channel hchannel
  cases h with
  | acquiresSubscribe | raisedSubscribe | raisedUnsubscribe => exact hs channel hchannel
  | subscribed =>
      rcases Finset.mem_insert.1 hchannel with rfl | hmem
      · exact .inr (Finset.mem_insert_self _ _)
      · exact (hs channel hmem).imp_right Finset.mem_insert_of_mem
  | acquiresUnsubscribe => exact hs channel (Finset.mem_of_mem_erase hchannel)
  | unsubscribed =>
      refine (hs channel hchannel).imp_right fun hsub => Finset.mem_erase.2 ⟨?_, hsub⟩
      rintro rfl
      exact hout _ rfl hchannel

theorem RegistryMove.covers {t : τ} {step : RegistryStep} {s s' : ConversationRegistry κ τ}
    {l l' : RegistryCall κ} (h : RegistryMove t s step l s' l') (hs : s.Serves l)
    {reader : Reader (Broadcast κ)} (hcovered : Replica.Covered ⟨s, reader⟩) :
    Replica.Covered ⟨s', reader⟩ := by
  cases h with
  | joinsFirst | joins | leavesLast | leaves => exact hcovered
  | subscribes h | joined h | rollsBack h =>
      obtain ⟨-, hcall, -⟩ := hs
      refine h.covers (fun c hc => ?_) hcovered
      rcases hcall with rfl | rfl <;> cases hc
  | unsubscribes h | left h =>
      obtain ⟨-, hcall, -⟩ := hs
      refine h.covers (fun c hc => ?_) hcovered
      rcases hcall with rfl | ⟨rfl, hout⟩
      · cases hc
      · cases hc
        exact hout

variable [DecidableEq τ]

theorem servedInv_call {registry : ConversationRegistry κ τ} (hr : ServedInv r calls) {t : τ}
    {step : RegistryStep} {l : RegistryCall κ}
    (h : RegistryMove t r.registry step (calls t) registry l) :
    ServedInv { r with registry } (Function.update calls t l) := by
  have hserves : r.registry.Serves (calls t) :=
    looksInside_serves.call hr.owned hr.served h.lock_free
  obtain ⟨howned, hserved⟩ := looksInside_serves.move hr.owned h (h.serves hserves)
  refine ⟨howned, ?_, hserved, fun halive => h.covers hserves (hr.covered halive)⟩
  rw [inside_caller]
  exact hr.subscriberOwned.move h.subscriber_lock

omit [DecidableEq κ] in
theorem servedInv_start (hr : ServedInv r calls) {t : τ} (ht : (calls t).hasEnded = true)
    {l : RegistryCall κ} (hl : l.locked = false) (hinner : l.inner = .returned) :
    ServedInv r (Function.update calls t l) := by
  have hcall : (calls t).locked = false ∧ (calls t).inner.locked = false := by
    cases hcall : calls t <;> rw [hcall] at ht <;> first | exact ⟨rfl, rfl⟩ | cases ht
  obtain ⟨howned, hholder⟩ := holder_start hr.owned hcall.1 hl
  refine ⟨howned, ?_, hholder ▸ hr.served, hr.covered⟩
  have hinside : r.inside (Function.update calls t l) = r.inside calls := by
    refine (inside_caller r.registry t l).trans (Function.update_eq_self_iff.2 ?_)
    rw [hinner]
    exact hcall.2.symm
  rw [hinside]
  exact hr.subscriberOwned

omit [DecidableEq κ] [DecidableEq τ] in
theorem ReaderMove.covers {deliver : Message → Option (Broadcast κ)} {step : ReaderStep}
    {registry : ConversationRegistry κ τ} {subscriber : Subscriber τ}
    {reader reader' : Reader (Broadcast κ)}
    (h : ReaderMove deliver registry.subscriber step reader subscriber reader')
    (hcovered : reader.hasEnded = false → Replica.Covered ⟨registry, reader⟩)
    (halive : reader'.hasEnded = false) :
    Replica.Covered ⟨{ registry with subscriber }, reader'⟩ := by
  intro channel hchannel
  simp only at hchannel ⊢
  rw [h.channels_eq] at hchannel
  cases h with
  | polls | waits | wakes | reads | drops | delivers | skips | fails | backsOff | reconnects =>
      exact hcovered rfl channel hchannel
  | closesEmpty he =>
      rw [he] at hchannel
      exact absurd hchannel (Finset.notMem_empty _)
  | closes => exact .inl hchannel
  | @resubscribesLast added rest hmem he =>
      refine .inr (Finset.mem_insert.2 ?_)
      rcases hcovered rfl channel hchannel with hrest | hsub
      · -- the channel just subscribed was the last one to go
        exact .inl ((Finset.erase_eq_empty_iff _ _).1 he |>.elim
          (fun hempty => absurd (hempty ▸ hrest) (Finset.notMem_empty _))
          fun hone => Finset.mem_singleton.1 (hone ▸ hrest))
      · exact .inr hsub
  | @resubscribes added rest hmem he =>
      rcases hcovered rfl channel hchannel with hrest | hsub
      · rcases eq_or_ne channel added with rfl | hne
        · exact .inr (Finset.mem_insert_self _ _)
        · exact .inl (Finset.mem_erase.2 ⟨hne, hrest⟩)
      · exact .inr (Finset.mem_insert_of_mem hsub)
  | dies => cases halive

theorem servedInv_read {r' : Replica κ τ} (hr : ServedInv r calls) {step : ReaderStep}
    (h : r.read step = some r') : ServedInv r' calls := by
  obtain ⟨⟨subscriber, reader⟩, hrun, rfl⟩ := Option.map_eq_some_iff.1 h
  have hmove := run_move hrun
  refine ⟨hr.owned, ?_, ?_, hmove.covers hr.covered⟩
  · rw [inside_reader (r := r)]
    exact hr.subscriberOwned.move hmove.lock
  · exact hr.served.shrink hmove.channels_eq fun c => Finset.Subset.refl _

omit [DecidableEq κ] [DecidableEq τ] in
theorem servedInv_shrink {manager : ConnectionManager κ} (hr : ServedInv r calls)
    (hsub : ∀ c, manager.registered c ⊆ r.registry.manager.registered c) :
    ServedInv { r with registry := { r.registry with manager } } calls where
  owned := hr.owned
  subscriberOwned := hr.subscriberOwned
  served := hr.served.shrink rfl hsub
  covered := hr.covered

theorem servedInv_delivered {r' : Replica κ τ} (hr : ServedInv r calls) {k : κ} {succeeds : Bool}
    (h : r.delivered k succeeds = some r') : ServedInv r' calls := by
  obtain ⟨b, m, b', hreader, hsent, rfl⟩ := delivered_eq_some h
  have hshrunk := servedInv_shrink hr (sent_move hsent).registered_subset
  obtain ⟨registry, reader⟩ := r
  obtain rfl : reader = .delivering b := hreader
  -- before and after the send the reader is outside the lock, with nothing to subscribe
  have hafter : (Replica.afterSend b').locked = false ∧ (Replica.afterSend b').toGo = ∅ := by
    cases b' <;> exact ⟨rfl, rfl⟩
  refine ⟨hshrunk.owned, ?_, hshrunk.served, fun _ => ?_⟩
  · rw [inside_reader (r := ⟨registry, .delivering b⟩), hafter.1]
    exact hr.subscriberOwned.move (o := .reader) (.keeps _ _)
  · intro channel hchannel
    simp only [hafter.2]
    exact hr.covered rfl channel hchannel

omit [DecidableEq κ] [DecidableEq τ] in
theorem servedInv_publish (hr : ServedInv r calls) (message : Message) :
    ServedInv (r.publish message) calls where
  owned := hr.owned
  subscriberOwned := hr.subscriberOwned
  served := hr.served.shrink rfl fun _ => Finset.Subset.refl _
  covered halive channel hchannel := by
    simp only [Replica.publish, PubSub.publish_subscribed]
    exact hr.covered halive channel hchannel

end Steps

/-! ## The result -/

variable [DecidableEq τ] [DecidableEq β]

theorem servedInv_step {w w' : PresenceWorld κ τ β} {e : PresenceEvent κ τ β}
    (hw : ServedInv w.replica w.calls) (h : w.step e = some w') :
    ServedInv w'.replica w'.calls := by
  cases e with
  | join t c k | leave t c k =>
      obtain ⟨hended, heq⟩ := Option.ite_none_right_eq_some.1 h
      cases heq
      exact servedInv_start hw hended rfl rfl
  | call t step =>
      obtain ⟨⟨registry, call⟩, hcall, rfl⟩ := Option.map_eq_some_iff.1 h
      exact servedInv_call hw (registryCall_move hcall)
  | reader step =>
      obtain ⟨replica, hread, rfl⟩ := Option.map_eq_some_iff.1 h
      exact servedInv_read hw hread
  | delivered k succeeds =>
      obtain ⟨replica, hdelivered, rfl⟩ := Option.map_eq_some_iff.1 h
      exact servedInv_delivered hw hdelivered
  | broadcast i c message =>
      simp only [PresenceWorld.step] at h
      split at h <;> cases h
      exact hw
  | sent i k succeeds =>
      simp only [PresenceWorld.step] at h
      split at h
      · cases h
      · obtain ⟨⟨m, b'⟩, hsent, rfl⟩ := Option.map_eq_some_iff.1 h
        exact servedInv_shrink hw (sent_move hsent).registered_subset
  | published message =>
      cases h
      exact servedInv_publish hw message

/-- No socket is served unsubscribed: while neither lock is held and the reader task is alive, a
    conversation with a connection has its channel among the wanted ones and in the subscriptions of
    the current pub/sub, whatever sends, reads and Redis calls have failed. -/
theorem connections_served {w : PresenceWorld κ τ β} {es : List (PresenceEvent κ τ β)}
    (h : exec PresenceWorld.step PresenceWorld.init es = some w)
    (halive : w.replica.reader.hasEnded = false) (hregistry : w.replica.registry.lock = none)
    (hsubscriber : w.replica.registry.subscriber.lock = none) {c : ConversationId}
    (hc : w.replica.registry.manager.registered c ≠ ∅) :
    conversationChannel c ∈ w.replica.registry.subscriber.channels ∧
      conversationChannel c ∈ w.replica.registry.subscriber.pubsub.subscribed := by
  have hw : ServedInv w.replica w.calls :=
    exec_invariant (I := fun w => ServedInv w.replica w.calls) (fun w e w' => servedInv_step)
      servedInv_init h
  have hserved := hw.served
  unfold ConversationRegistry.holder at hserved
  rw [hregistry] at hserved
  have hwanted := hserved c hc
  refine ⟨hwanted, (hw.covered halive _ hwanted).resolve_left fun htoGo => ?_⟩
  rw [Reader.toGo_eq_empty (hw.subscriberOwned.outside hsubscriber .reader)] at htoGo
  exact Finset.notMem_empty _ htoGo

/-- One socket is dropped by a failing send and another one joins, a read fails, and the reader goes
    through a whole `_reconnect`. -/
def joinsAcrossReconnect : List (PresenceEvent Bool Unit Empty) :=
  [.join () helloRequest.conversationId false, .call () .acquire,
    .call () (.subscriber .acquire), .call () (.subscriber (.redis true)),
    .published (PostMessage.userMessage helloRequest 1 ⟨0, 0⟩),
    .reader .turn, .reader .acquire, .reader (.read .message), .delivered false false,
    .join () helloRequest.conversationId true, .call () .acquire,
    .call () (.subscriber .acquire), .call () (.subscriber (.redis true)),
    .reader .turn, .reader .acquire, .reader (.read .raises), .reader .wake, .reader .acquire,
    .reader (.closed false),
    .reader (.resubscribed (conversationChannel helloRequest.conversationId) true)]

theorem connections_served_acrossReconnect :
    ∃ w : PresenceWorld Bool Unit Empty,
      exec PresenceWorld.step PresenceWorld.init joinsAcrossReconnect = some w ∧
        conversationChannel helloRequest.conversationId ∈
          w.replica.registry.subscriber.channels ∧
        conversationChannel helloRequest.conversationId ∈
          w.replica.registry.subscriber.pubsub.subscribed := by
  obtain ⟨w, hrun, halive, hregistry, hsubscriber, hc⟩ := exec_reaches PresenceWorld.step
    PresenceWorld.init joinsAcrossReconnect
    (fun w => w.replica.reader.hasEnded = false ∧ w.replica.registry.lock = none ∧
      w.replica.registry.subscriber.lock = none ∧
      w.replica.registry.manager.registered helloRequest.conversationId ≠ ∅) (by decide)
  exact ⟨w, hrun, connections_served hrun halive hregistry hsubscriber hc⟩

end Dizzchat
