import Dizzchat.Realtime.ConnectionManager
import Dizzchat.Realtime.Subscriber

set_option autoImplicit false

/-! # Joining and leaving a conversation

`ConversationRegistry`: `join` and `leave` change the connection map and drive the subscriber under
one lock, while broadcasts drop dead connections from the same map without it.

`Consistent` says, by what the holder of the lock is doing, how the map and the subscribed channels
agree. Every step of `join` and `leave` keeps it, whether Redis answers or raises; the one step that
breaks it is a broadcast that drops the last connection of a conversation
(`registryInv_shrink`). -/

namespace Dizzchat

open Transition

/-- The fields of `ConversationRegistry`. -/
structure ConversationRegistry (κ τ : Type*) where
  manager : ConnectionManager κ
  subscriber : Subscriber τ
  lock : Option τ

/-- A call of `join` or `leave`: it waits for the lock of the registry, and on a transition between
    none and one connection for the subscriber. -/
inductive RegistryCall (κ : Type*)
  | waitingJoin (conversationId : ConversationId) (connection : κ)
  | subscribing (conversationId : ConversationId) (connection : κ) (call : SubscriberCall)
  | waitingLeave (conversationId : ConversationId) (connection : κ)
  | unsubscribing (conversationId : ConversationId) (connection : κ) (call : SubscriberCall)
  | returned
  | raised
deriving DecidableEq

inductive RegistryStep
  | acquire
  | subscriber (step : SubscriberStep)
deriving DecidableEq

variable {κ τ β : Type*} [DecidableEq κ]

/-- The steps of a call by `t`. A `join` whose `subscribe` raises takes its connection out again. -/
def ConversationRegistry.call (t : τ) :
    RegistryStep → ConversationRegistry κ τ → RegistryCall κ →
      Option (ConversationRegistry κ τ × RegistryCall κ)
  | .acquire, s, .waitingJoin c k =>
      if s.lock.isNone then
        if (s.manager.register c k).2 then
          -- from here to the end of the call `c` has a connection and is not subscribed
          some ({ s with manager := (s.manager.register c k).1, lock := some t },
            .subscribing c k (.waitingSubscribe c))
        else some ({ s with manager := (s.manager.register c k).1 }, .returned)
      else none
  | .subscriber step, s, .subscribing c k call =>
      (RedisConversationSubscriber.call t step s.subscriber call).map fun (subscriber, call) =>
        match call with
        | .returned => ({ s with subscriber, lock := none }, .returned)
        | .raised =>
            ({ manager := (s.manager.unregister c k).1, subscriber, lock := none }, .raised)
        | call => ({ s with subscriber }, .subscribing c k call)
  | .acquire, s, .waitingLeave c k =>
      if s.lock.isNone then
        if (s.manager.unregister c k).2 then
          some ({ s with manager := (s.manager.unregister c k).1, lock := some t },
            .unsubscribing c k (.waitingUnsubscribe c))
        else some ({ s with manager := (s.manager.unregister c k).1 }, .returned)
      else none
  | .subscriber step, s, .unsubscribing c k call =>
      (RedisConversationSubscriber.call t step s.subscriber call).map fun (subscriber, call) =>
        match call with
        | .returned => ({ s with subscriber, lock := none }, .returned)
        -- there is nothing to take back: the connection is gone either way
        | .raised => ({ s with subscriber, lock := none }, .raised)
        | call => ({ s with subscriber }, .unsubscribing c k call)
  | _, _, _ => none

/-! ## What a step can do -/

namespace RegistryCall

/-- Inside the lock of the registry. -/
def locked : RegistryCall κ → Bool
  | .subscribing .. | .unsubscribing .. => true
  | .waitingJoin .. | .waitingLeave .. | .returned | .raised => false

def hasEnded : RegistryCall κ → Bool
  | .returned | .raised => true
  | .waitingJoin .. | .subscribing .. | .waitingLeave .. | .unsubscribing .. => false

end RegistryCall

/-- The steps of a call of `join` or `leave`, one constructor for each. -/
inductive RegistryMove (t : τ) (s : ConversationRegistry κ τ) :
    RegistryStep → RegistryCall κ → ConversationRegistry κ τ → RegistryCall κ → Prop
  | joinsFirst {c : ConversationId} {k : κ} (hfree : s.lock = none)
      (h : s.manager.registered c = ∅) :
      RegistryMove t s .acquire (.waitingJoin c k)
        { s with manager := (s.manager.register c k).1, lock := some t }
        (.subscribing c k (.waitingSubscribe c))
  | joins {c : ConversationId} {k : κ} (hfree : s.lock = none) (h : s.manager.registered c ≠ ∅) :
      RegistryMove t s .acquire (.waitingJoin c k)
        { s with manager := (s.manager.register c k).1 } .returned
  | subscribes {c : ConversationId} {k : κ} {step : SubscriberStep} {call call' : SubscriberCall}
      {subscriber : Subscriber τ} (h : SubscriberMove t s.subscriber step call subscriber call')
      (hend : call'.hasEnded = false) :
      RegistryMove t s (.subscriber step) (.subscribing c k call) { s with subscriber }
        (.subscribing c k call')
  | joined {c : ConversationId} {k : κ} {step : SubscriberStep} {call : SubscriberCall}
      {subscriber : Subscriber τ} (h : SubscriberMove t s.subscriber step call subscriber .returned) :
      RegistryMove t s (.subscriber step) (.subscribing c k call)
        { s with subscriber, lock := none } .returned
  | rollsBack {c : ConversationId} {k : κ} {step : SubscriberStep} {call : SubscriberCall}
      {subscriber : Subscriber τ} (h : SubscriberMove t s.subscriber step call subscriber .raised) :
      RegistryMove t s (.subscriber step) (.subscribing c k call)
        { manager := (s.manager.unregister c k).1, subscriber, lock := none } .raised
  | leavesLast {c : ConversationId} {k : κ} (hfree : s.lock = none)
      (h : s.manager.registered c = {k}) :
      RegistryMove t s .acquire (.waitingLeave c k)
        { s with manager := (s.manager.unregister c k).1, lock := some t }
        (.unsubscribing c k (.waitingUnsubscribe c))
  | leaves {c : ConversationId} {k : κ} (hfree : s.lock = none) (h : s.manager.registered c ≠ {k}) :
      RegistryMove t s .acquire (.waitingLeave c k)
        { s with manager := (s.manager.unregister c k).1 } .returned
  | unsubscribes {c : ConversationId} {k : κ} {step : SubscriberStep} {call call' : SubscriberCall}
      {subscriber : Subscriber τ} (h : SubscriberMove t s.subscriber step call subscriber call')
      (hend : call'.hasEnded = false) :
      RegistryMove t s (.subscriber step) (.unsubscribing c k call) { s with subscriber }
        (.unsubscribing c k call')
  | left {c : ConversationId} {k : κ} {step : SubscriberStep} {call call' : SubscriberCall}
      {subscriber : Subscriber τ} {l : RegistryCall κ}
      (h : SubscriberMove t s.subscriber step call subscriber call')
      (hend : call' = .returned ∧ l = .returned ∨ call' = .raised ∧ l = .raised) :
      RegistryMove t s (.subscriber step) (.unsubscribing c k call)
        { s with subscriber, lock := none } l

theorem registryCall_move {t : τ} {step : RegistryStep} {s s' : ConversationRegistry κ τ}
    {l l' : RegistryCall κ} (h : ConversationRegistry.call t step s l = some (s', l')) :
    RegistryMove t s step l s' l' := by
  unfold ConversationRegistry.call at h
  split at h
  · split at h
    · next hfree =>
        rw [Option.isNone_iff_eq_none] at hfree
        split at h <;> cases h
        · next hfirst => exact .joinsFirst hfree ((ConnectionManager.register_first ..).1 hfirst)
        · next hlater =>
            exact .joins hfree fun he => hlater ((ConnectionManager.register_first ..).2 he)
    · cases h
  · obtain ⟨⟨subscriber, call⟩, hcall, heq⟩ := Option.map_eq_some_iff.1 h
    have hmove := call_move hcall
    simp only at heq
    cases call with
    | returned => cases heq; exact .joined hmove
    | raised => cases heq; exact .rollsBack hmove
    | waitingSubscribe | subscribing | waitingUnsubscribe | unsubscribing =>
        cases heq; exact .subscribes hmove rfl
  · split at h
    · next hfree =>
        rw [Option.isNone_iff_eq_none] at hfree
        split at h <;> cases h
        · next hlast => exact .leavesLast hfree ((ConnectionManager.unregister_last ..).1 hlast)
        · next hothers =>
            exact .leaves hfree fun he => hothers ((ConnectionManager.unregister_last ..).2 he)
    · cases h
  · obtain ⟨⟨subscriber, call⟩, hcall, heq⟩ := Option.map_eq_some_iff.1 h
    have hmove := call_move hcall
    simp only at heq
    cases call with
    | returned => cases heq; exact .left hmove (.inl ⟨rfl, rfl⟩)
    | raised => cases heq; exact .left hmove (.inr ⟨rfl, rfl⟩)
    | waitingSubscribe | subscribing | waitingUnsubscribe | unsubscribing =>
        cases heq; exact .unsubscribes hmove rfl
  · cases h

theorem RegistryMove.lock {t : τ} {step : RegistryStep} {s s' : ConversationRegistry κ τ}
    {l l' : RegistryCall κ} (h : RegistryMove t s step l s' l') :
    LockMove t s.lock l.locked s'.lock l'.locked := by
  cases h with
  | joinsFirst hfree | leavesLast hfree => rw [hfree]; exact .acquires
  | joins | leaves | subscribes | unsubscribes => exact .keeps _ _
  | joined | rollsBack => exact .releases _
  | left _ hend => rcases hend with ⟨-, rfl⟩ | ⟨-, rfl⟩ <;> exact .releases _

/-- A call moves as it takes the lock or inside it. -/
theorem RegistryMove.lock_free {t : τ} {step : RegistryStep} {s s' : ConversationRegistry κ τ}
    {l l' : RegistryCall κ} (h : RegistryMove t s step l s' l') :
    s.lock = none ∨ l.locked = true := by
  cases h with
  | joinsFirst hfree | joins hfree | leavesLast hfree | leaves hfree => exact .inl hfree
  | subscribes | joined | rollsBack | unsubscribes | left => exact .inr rfl

/-! ## The map and the channels -/

namespace ConversationRegistry

/-- The conversation is subscribed exactly when it has a connection. -/
def Matches (s : ConversationRegistry κ τ) (c : ConversationId) : Prop :=
  s.manager.registered c ≠ ∅ ↔ conversationChannel c ∈ s.subscriber.channels

/-- How the map and the channels agree while the holder of the lock is at this point of its call.
    Outside the lock every conversation matches. -/
def Consistent (s : ConversationRegistry κ τ) : RegistryCall κ → Prop
  | .subscribing c k call => s.manager.registered c = {k} ∧
      conversationChannel c ∉ s.subscriber.channels ∧
      (call = .waitingSubscribe c ∨ call = .subscribing c) ∧ ∀ c' ≠ c, s.Matches c'
  | .unsubscribing c _ call => s.manager.registered c = ∅ ∧
      (call = .waitingUnsubscribe c ∨
        call = .unsubscribing c ∧ conversationChannel c ∉ s.subscriber.channels) ∧
      ∀ c' ≠ c, s.Matches c'
  | .waitingJoin .. | .waitingLeave .. | .returned | .raised => ∀ c, s.Matches c

omit [DecidableEq κ] in
theorem Consistent.matches {s : ConversationRegistry κ τ} {l : RegistryCall κ}
    (h : s.Consistent l) (hl : l.locked = false) (c : ConversationId) : s.Matches c := by
  cases l with
  | waitingJoin | waitingLeave | returned | raised => exact h c
  | subscribing | unsubscribing => cases hl

omit [DecidableEq κ] in
theorem consistent_of_matches {s : ConversationRegistry κ τ} {l : RegistryCall κ}
    (hl : l.locked = false) (h : ∀ c, s.Matches c) : s.Consistent l := by
  cases l with
  | waitingJoin | waitingLeave | returned | raised => exact h
  | subscribing | unsubscribing => cases hl

end ConversationRegistry

theorem conversationChannel_inj {c c' : ConversationId} :
    conversationChannel c = conversationChannel c' ↔ c = c' := by
  simp [conversationChannel]

/-- What a call of `subscribe` does to the channels. -/
theorem SubscriberMove.subscribe_channels {t : τ} {step : SubscriberStep} {s s' : Subscriber τ}
    {call call' : SubscriberCall} (h : SubscriberMove t s step call s' call') {c : ConversationId}
    (hcall : call = .waitingSubscribe c ∨ call = .subscribing c) :
    call' = .subscribing c ∧ s'.channels = s.channels ∨
      call' = .returned ∧ s'.channels = insert (conversationChannel c) s.channels ∨
      call' = .raised ∧ s'.channels = s.channels := by
  rcases hcall with rfl | rfl
  · cases h with
    | acquiresSubscribe => exact .inl ⟨rfl, rfl⟩
  · cases h with
    | subscribed => exact .inr (.inl ⟨rfl, rfl⟩)
    | raisedSubscribe => exact .inr (.inr ⟨rfl, rfl⟩)

/-- What a call of `unsubscribe` does to the channels. -/
theorem SubscriberMove.unsubscribe_channels {t : τ} {step : SubscriberStep} {s s' : Subscriber τ}
    {call call' : SubscriberCall} (h : SubscriberMove t s step call s' call') {c : ConversationId}
    (hcall : call = .waitingUnsubscribe c ∨ call = .unsubscribing c) :
    call' = .unsubscribing c ∧ s'.channels = s.channels.erase (conversationChannel c) ∨
      call'.hasEnded = true ∧ call = .unsubscribing c ∧ s'.channels = s.channels := by
  rcases hcall with rfl | rfl
  · cases h with
    | acquiresUnsubscribe => exact .inl ⟨rfl, rfl⟩
  · cases h with
    | unsubscribed => exact .inr ⟨rfl, rfl, rfl⟩
    | raisedUnsubscribe => exact .inr ⟨rfl, rfl, rfl⟩

namespace ConversationRegistry

omit [DecidableEq κ] in
/-- A conversation whose connections and channel are left alone goes on matching. -/
theorem Matches.congr {s s' : ConversationRegistry κ τ} {c : ConversationId} (h : s.Matches c)
    (hmanager : s'.manager.registered c = s.manager.registered c)
    (hchannels : conversationChannel c ∈ s'.subscriber.channels ↔
      conversationChannel c ∈ s.subscriber.channels) : s'.Matches c := by
  unfold Matches
  rw [hmanager, hchannels]
  exact h

omit [DecidableEq κ] in
theorem matches_of_mem {s : ConversationRegistry κ τ} {c : ConversationId}
    (hmanager : s.manager.registered c ≠ ∅)
    (hchannels : conversationChannel c ∈ s.subscriber.channels) : s.Matches c :=
  iff_of_true hmanager hchannels

omit [DecidableEq κ] in
theorem matches_of_empty {s : ConversationRegistry κ τ} {c : ConversationId}
    (hmanager : s.manager.registered c = ∅)
    (hchannels : conversationChannel c ∉ s.subscriber.channels) : s.Matches c :=
  iff_of_false (not_not_intro hmanager) hchannels

omit [DecidableEq κ] in
/-- A call is done when its own conversation matches again: the others always have. -/
theorem forall_matches {s : ConversationRegistry κ τ} {c : ConversationId} (hc : s.Matches c)
    (hrest : ∀ c' ≠ c, s.Matches c') (c' : ConversationId) : s.Matches c' := by
  rcases eq_or_ne c' c with rfl | hne
  · exact hc
  · exact hrest c' hne

section Join

variable {s s' : ConversationRegistry κ τ} {c : ConversationId} {k : κ}

/-- The conversations that a connection does not register with. -/
theorem Matches.register {c' : ConversationId} (h : s.Matches c') (hc : c' ≠ c)
    (hmanager : s'.manager = (s.manager.register c k).1) (hsubscriber : s'.subscriber = s.subscriber) :
    s'.Matches c' := by
  refine h.congr ?_ (by rw [hsubscriber])
  rw [hmanager]
  exact ConnectionManager.register_registered_of_ne hc k _

theorem consistent_joinsFirst (hs : ∀ c, s.Matches c) (h : s.manager.registered c = ∅)
    (hmanager : s'.manager = (s.manager.register c k).1) (hsubscriber : s'.subscriber = s.subscriber) :
    s'.Consistent (.subscribing c k (.waitingSubscribe c)) := by
  refine ⟨?_, ?_, .inl rfl, fun c' hc => (hs c').register hc hmanager hsubscriber⟩
  · rw [hmanager, ConnectionManager.register_registered, h]
    rfl
  · rw [hsubscriber]
    intro hin
    exact (hs c).2 hin h

theorem matches_joins (hs : ∀ c, s.Matches c) (h : s.manager.registered c ≠ ∅)
    (hmanager : s'.manager = (s.manager.register c k).1) (hsubscriber : s'.subscriber = s.subscriber) :
    ∀ c, s'.Matches c := by
  refine forall_matches (c := c) ?_ fun c' hc => (hs c').register hc hmanager hsubscriber
  refine matches_of_mem ?_ ?_
  · rw [hmanager, ConnectionManager.register_registered]
    exact Finset.insert_ne_empty _ _
  · rw [hsubscriber]
    exact (hs c).1 h

end Join

section Leave

variable {s s' : ConversationRegistry κ τ} {c : ConversationId} {k : κ}

theorem Matches.unregister {c' : ConversationId} (h : s.Matches c') (hc : c' ≠ c)
    (hmanager : s'.manager = (s.manager.unregister c k).1)
    (hchannels : s'.subscriber.channels = s.subscriber.channels) : s'.Matches c' := by
  refine h.congr ?_ (by rw [hchannels])
  rw [hmanager]
  exact ConnectionManager.unregister_registered_of_ne hc k _

theorem consistent_leavesLast (hs : ∀ c, s.Matches c) (h : s.manager.registered c = {k})
    (hmanager : s'.manager = (s.manager.unregister c k).1) (hsubscriber : s'.subscriber = s.subscriber) :
    s'.Consistent (.unsubscribing c k (.waitingUnsubscribe c)) := by
  refine ⟨?_, .inl rfl, fun c' hc => (hs c').unregister hc hmanager (by rw [hsubscriber])⟩
  rw [hmanager, ConnectionManager.unregister_registered, h, Finset.erase_singleton]

/-- Others are still registered, or there was no connection to begin with. -/
theorem matches_leaves (hs : ∀ c, s.Matches c) (h : s.manager.registered c ≠ {k})
    (hmanager : s'.manager = (s.manager.unregister c k).1) (hsubscriber : s'.subscriber = s.subscriber) :
    ∀ c, s'.Matches c := by
  refine forall_matches (c := c) ?_ fun c' hc => (hs c').unregister hc hmanager (by rw [hsubscriber])
  have hmatch : s.manager.registered c ≠ ∅ ↔ _ := hs c
  unfold Matches
  rw [hmanager, hsubscriber, ConnectionManager.unregister_registered, ← hmatch, not_iff_not,
    Finset.erase_eq_empty_iff]
  exact or_iff_left h

end Leave

section Subscribing

variable {s s' : ConversationRegistry κ τ} {c : ConversationId} {k : κ} {t : τ}
  {step : SubscriberStep} {call call' : SubscriberCall}

omit [DecidableEq κ] in
theorem consistent_subscribes (hs : s.Consistent (.subscribing c k call))
    (hmanager : s'.manager = s.manager) (h : SubscriberMove t s.subscriber step call s'.subscriber call')
    (hend : call'.hasEnded = false) : s'.Consistent (.subscribing c k call') := by
  obtain ⟨hk, hout, hcall, hrest⟩ := hs
  rcases h.subscribe_channels hcall with ⟨rfl, hch⟩ | ⟨rfl, -⟩ | ⟨rfl, -⟩
  · refine ⟨by rwa [hmanager], by rwa [hch], .inr rfl, fun c' hc => ?_⟩
    exact (hrest c' hc).congr (by rw [hmanager]) (by rw [hch])
  · cases hend
  · cases hend

omit [DecidableEq κ] in
theorem matches_joined (hs : s.Consistent (.subscribing c k call)) (hmanager : s'.manager = s.manager)
    (h : SubscriberMove t s.subscriber step call s'.subscriber .returned) : ∀ c, s'.Matches c := by
  obtain ⟨hk, -, hcall, hrest⟩ := hs
  rcases h.subscribe_channels hcall with ⟨hend, -⟩ | ⟨-, hch⟩ | ⟨hend, -⟩
  · cases hend
  · refine forall_matches (c := c) ?_ fun c' hc => ?_
    · refine matches_of_mem ?_ ?_
      · rw [hmanager, hk]
        exact Finset.singleton_ne_empty k
      · rw [hch]
        exact Finset.mem_insert_self _ _
    · refine (hrest c' hc).congr (by rw [hmanager]) ?_
      rw [hch, Finset.mem_insert, conversationChannel_inj, or_iff_right hc]
  · cases hend

/-- The one connection goes as it came. -/
theorem matches_rollsBack (hs : s.Consistent (.subscribing c k call))
    (hmanager : s'.manager = (s.manager.unregister c k).1)
    (h : SubscriberMove t s.subscriber step call s'.subscriber .raised) : ∀ c, s'.Matches c := by
  obtain ⟨hk, hout, hcall, hrest⟩ := hs
  rcases h.subscribe_channels hcall with ⟨hend, -⟩ | ⟨hend, -⟩ | ⟨-, hch⟩
  · cases hend
  · cases hend
  · refine forall_matches (c := c) ?_ fun c' hc => (hrest c' hc).unregister hc hmanager hch
    refine matches_of_empty ?_ (by rwa [hch])
    rw [hmanager, ConnectionManager.unregister_registered, hk, Finset.erase_singleton]

omit [DecidableEq κ] in
theorem consistent_unsubscribes (hs : s.Consistent (.unsubscribing c k call))
    (hmanager : s'.manager = s.manager) (h : SubscriberMove t s.subscriber step call s'.subscriber call')
    (hend : call'.hasEnded = false) : s'.Consistent (.unsubscribing c k call') := by
  obtain ⟨hnone, hcall, hrest⟩ := hs
  rcases h.unsubscribe_channels (hcall.imp_right And.left) with ⟨rfl, hch⟩ | ⟨hended, -⟩
  · refine ⟨by rwa [hmanager], .inr ⟨rfl, ?_⟩, fun c' hc => ?_⟩
    · rw [hch]
      exact Finset.notMem_erase _ _
    · refine (hrest c' hc).congr (by rw [hmanager]) ?_
      rw [hch, Finset.mem_erase, Ne, conversationChannel_inj, and_iff_right hc]
  · rw [hend] at hended
    cases hended

omit [DecidableEq κ] in
/-- The channel is gone since `unsubscribe` took its lock, however it ends. -/
theorem matches_left (hs : s.Consistent (.unsubscribing c k call)) (hmanager : s'.manager = s.manager)
    (h : SubscriberMove t s.subscriber step call s'.subscriber call')
    (hend : call' = .returned ∨ call' = .raised) : ∀ c, s'.Matches c := by
  obtain ⟨hnone, hcall, hrest⟩ := hs
  rcases h.unsubscribe_channels (hcall.imp_right And.left) with ⟨rfl, -⟩ | ⟨-, hcall', hch⟩
  · rcases hend with hend | hend <;> cases hend
  · refine forall_matches (c := c) ?_ fun c' hc => ?_
    · rcases hcall with rfl | ⟨-, hout⟩
      · cases hcall'
      · exact matches_of_empty (by rwa [hmanager]) (by rwa [hch])
    · exact (hrest c' hc).congr (by rw [hmanager]) (by rw [hch])

end Subscribing

end ConversationRegistry

theorem RegistryMove.consistent {t : τ} {step : RegistryStep} {s s' : ConversationRegistry κ τ}
    {l l' : RegistryCall κ} (h : RegistryMove t s step l s' l') (hs : s.Consistent l) :
    s'.Consistent l' := by
  cases h with
  | joinsFirst hfree h => exact ConversationRegistry.consistent_joinsFirst hs h rfl rfl
  | joins hfree h => exact ConversationRegistry.matches_joins hs h rfl rfl
  | subscribes h hend => exact ConversationRegistry.consistent_subscribes hs rfl h hend
  | joined h => exact ConversationRegistry.matches_joined hs rfl h
  | rollsBack h => exact ConversationRegistry.matches_rollsBack hs rfl h
  | leavesLast hfree h => exact ConversationRegistry.consistent_leavesLast hs h rfl rfl
  | leaves hfree h => exact ConversationRegistry.matches_leaves hs h rfl rfl
  | unsubscribes h hend => exact ConversationRegistry.consistent_unsubscribes hs rfl h hend
  | left h hend =>
      have hl : l'.locked = false := by rcases hend with ⟨-, rfl⟩ | ⟨-, rfl⟩ <;> rfl
      exact ConversationRegistry.consistent_of_matches hl
        (ConversationRegistry.matches_left hs rfl h (hend.imp And.left And.left))

/-! ## The registry among its callers -/

/-- The call that holds the lock of the registry, if there is one. -/
def ConversationRegistry.holder (s : ConversationRegistry κ τ) (calls : τ → RegistryCall κ) :
    RegistryCall κ :=
  match s.lock with
  | none => .returned
  | some t => calls t

/-- A condition that outside the lock does not depend on where a call is. -/
def LooksInside (C : ConversationRegistry κ τ → RegistryCall κ → Prop) : Prop :=
  ∀ s l l', l.locked = false → l'.locked = false → C s l → C s l'

section Holder

variable {C : ConversationRegistry κ τ → RegistryCall κ → Prop} {s s' : ConversationRegistry κ τ}
  {calls : τ → RegistryCall κ} {t : τ}

omit [DecidableEq κ] in
/-- A call that can move sees the registry as the condition has it for its own step. -/
theorem LooksInside.call (hC : LooksInside C) (howned : LockOwned s.lock (RegistryCall.locked ∘ calls))
    (hs : C s (s.holder calls)) (h : s.lock = none ∨ (calls t).locked = true) : C s (calls t) := by
  unfold ConversationRegistry.holder at hs
  rcases h with hfree | hin
  · rw [hfree] at hs
    exact hC s _ _ rfl (howned.outside hfree t) hs
  · rw [(howned t).1 hin] at hs
    exact hs

/-- What the call that moves leaves is what the holder of the lock leaves. -/
theorem LooksInside.move [DecidableEq τ] (hC : LooksInside C)
    (howned : LockOwned s.lock (RegistryCall.locked ∘ calls)) {step : RegistryStep}
    {l : RegistryCall κ} (h : RegistryMove t s step (calls t) s' l) (hs' : C s' l) :
    LockOwned s'.lock (RegistryCall.locked ∘ Function.update calls t l) ∧
      C s' (s'.holder (Function.update calls t l)) := by
  have howned' : LockOwned s'.lock (RegistryCall.locked ∘ Function.update calls t l) := by
    have hmove := howned.move (o := t) h.lock
    rwa [← Function.comp_update] at hmove
  refine ⟨howned', ?_⟩
  unfold ConversationRegistry.holder
  cases hlock : s'.lock with
  | none =>
      have hl := howned'.outside hlock t
      rw [Function.comp_apply, Function.update_self] at hl
      exact hC s' _ _ hl rfl hs'
  | some u =>
      -- only the call that has moved can hold the lock now
      have hu : u = t := by
        rcases (hlock ▸ h.lock).owner with hbefore | hu
        · rcases h.lock_free with hfree | hin
          · cases hbefore.symm.trans hfree
          · exact Option.some.inj (hbefore.symm.trans ((howned t).1 hin))
        · exact hu
      rw [hu]
      simp only [Function.update_self]
      exact hs'

omit [DecidableEq κ] in
/-- A call that starts is not the holder. -/
theorem holder_start [DecidableEq τ] (howned : LockOwned s.lock (RegistryCall.locked ∘ calls))
    (ht : (calls t).locked = false) {l : RegistryCall κ} (hl : l.locked = false) :
    LockOwned s.lock (RegistryCall.locked ∘ Function.update calls t l) ∧
      s.holder (Function.update calls t l) = s.holder calls := by
  have hview : ∀ u, (Function.update calls t l u).locked = (calls u).locked :=
    view_update_eq (f := RegistryCall.locked) (hl.trans ht.symm)
  refine ⟨fun u => ?_, ?_⟩
  · rw [Function.comp_apply, hview u]
    exact howned u
  · unfold ConversationRegistry.holder
    cases hlock : s.lock with
    | none => rfl
    | some u =>
        have hu : u ≠ t := by
          rintro rfl
          exact Bool.false_ne_true (ht.symm.trans ((howned u).2 hlock))
        simp only [Function.update_of_ne hu]

end Holder

omit [DecidableEq κ] in
theorem looksInside_consistent :
    LooksInside (ConversationRegistry.Consistent : ConversationRegistry κ τ → _) :=
  fun _ _ _ hl hl' h => ConversationRegistry.consistent_of_matches hl' (h.matches hl)

/-- The lock has one owner, and the map and the channels agree as far as its call has come. -/
structure RegistryInv (s : ConversationRegistry κ τ) (calls : τ → RegistryCall κ) : Prop where
  owned : LockOwned s.lock (RegistryCall.locked ∘ calls)
  consistent : s.Consistent (s.holder calls)

omit [DecidableEq κ] in
/-- A call that can move sees the registry as its own step expects it. -/
theorem RegistryInv.consistent_call {s : ConversationRegistry κ τ} {calls : τ → RegistryCall κ}
    (hs : RegistryInv s calls) {t : τ} (h : s.lock = none ∨ (calls t).locked = true) :
    s.Consistent (calls t) :=
  looksInside_consistent.call hs.owned hs.consistent h

omit [DecidableEq κ] in
/-- While the lock is free every conversation matches. -/
theorem RegistryInv.matches {s : ConversationRegistry κ τ} {calls : τ → RegistryCall κ}
    (hs : RegistryInv s calls) (hfree : s.lock = none) (c : ConversationId) : s.Matches c := by
  have hcons := hs.consistent
  unfold ConversationRegistry.holder at hcons
  rw [hfree] at hcons
  exact hcons c

omit [DecidableEq κ] in
/-- A connection is registered under a subscribed channel, unless it is itself the one whose `join`
    is subscribing. -/
theorem RegistryInv.channel_mem {s : ConversationRegistry κ τ} {calls : τ → RegistryCall κ}
    (hs : RegistryInv s calls) {c : ConversationId} {k : κ} (hk : k ∈ s.manager.registered c)
    (hcalls : ∀ t call, calls t ≠ .subscribing c k call) :
    conversationChannel c ∈ s.subscriber.channels := by
  have hne : s.manager.registered c ≠ ∅ := Finset.ne_empty_of_mem hk
  have hcons := hs.consistent
  have hholder : ∀ call, s.holder calls ≠ .subscribing c k call := by
    intro call
    unfold ConversationRegistry.holder
    split
    · exact fun h => by cases h
    · exact hcalls _ call
  cases hl : s.holder calls with
  | subscribing c' k' call =>
      rw [hl] at hcons
      rcases eq_or_ne c c' with rfl | hc
      · rw [hcons.1, Finset.mem_singleton] at hk
        exact absurd (hk ▸ hl) (hholder call)
      · exact (hcons.2.2.2 c hc).1 hne
  | unsubscribing c' k' call =>
      rw [hl] at hcons
      rcases eq_or_ne c c' with rfl | hc
      · exact absurd hcons.1 hne
      · exact (hcons.2.2 c hc).1 hne
  | waitingJoin | waitingLeave | returned | raised =>
      rw [hl] at hcons
      exact (hcons c).1 hne

variable [DecidableEq τ]

theorem registryInv_call {s s' : ConversationRegistry κ τ} {calls : τ → RegistryCall κ}
    (hs : RegistryInv s calls) {t : τ} {step : RegistryStep} {l : RegistryCall κ}
    (h : RegistryMove t s step (calls t) s' l) :
    RegistryInv s' (Function.update calls t l) := by
  obtain ⟨howned, hcons⟩ := looksInside_consistent.move hs.owned h
    (h.consistent (hs.consistent_call h.lock_free))
  exact ⟨howned, hcons⟩

omit [DecidableEq κ] in
/-- A call that starts is nobody's business before it asks for the lock. -/
theorem registryInv_start {s : ConversationRegistry κ τ} {calls : τ → RegistryCall κ}
    (hs : RegistryInv s calls) {t : τ} (ht : (calls t).locked = false) {l : RegistryCall κ}
    (hl : l.locked = false) : RegistryInv s (Function.update calls t l) := by
  obtain ⟨howned, hholder⟩ := holder_start hs.owned ht hl
  exact ⟨howned, hholder ▸ hs.consistent⟩

omit [DecidableEq κ] [DecidableEq τ] in
/-- A registry that has lost connections, but of no conversation all of them. -/
theorem registryInv_shrink {s s' : ConversationRegistry κ τ} {calls : τ → RegistryCall κ}
    (hs : RegistryInv s calls) (hlock : s'.lock = s.lock)
    (hchannels : s'.subscriber.channels = s.subscriber.channels)
    (hsub : ∀ c, s'.manager.registered c ⊆ s.manager.registered c)
    (hempty : ∀ c, s'.manager.registered c = ∅ → s.manager.registered c = ∅) :
    RegistryInv s' calls := by
  have hempty_iff : ∀ c, s'.manager.registered c = ∅ ↔ s.manager.registered c = ∅ :=
    fun c => ⟨hempty c, fun h => Finset.subset_empty.1 (h ▸ hsub c)⟩
  have hmatches : ∀ c, s.Matches c → s'.Matches c := by
    intro c hc
    unfold ConversationRegistry.Matches
    rw [Ne, hempty_iff, hchannels]
    exact hc
  have hholder : s'.holder calls = s.holder calls := by
    unfold ConversationRegistry.holder
    rw [hlock]
  refine ⟨hlock ▸ hs.owned, ?_⟩
  have hcons := hs.consistent
  rw [hholder]
  cases hl : s.holder calls with
  | subscribing c k call =>
      rw [hl] at hcons
      obtain ⟨hk, hout, hcall, hrest⟩ := hcons
      -- the sole connection of `c` is among those that stay
      refine ⟨?_, by rwa [hchannels], hcall, fun c' hc => hmatches c' (hrest c' hc)⟩
      refine (Finset.subset_singleton_iff.1 (hk ▸ hsub c)).resolve_left fun he => ?_
      exact Finset.singleton_ne_empty k (hk.symm.trans (hempty c he))
  | unsubscribing c k call =>
      rw [hl] at hcons
      obtain ⟨hnone, hcall, hrest⟩ := hcons
      exact ⟨(hempty_iff c).2 hnone, by rwa [hchannels], fun c' hc => hmatches c' (hrest c' hc)⟩
  | waitingJoin | waitingLeave | returned | raised =>
      rw [hl] at hcons
      exact fun c => hmatches c (hcons c)

end Dizzchat
