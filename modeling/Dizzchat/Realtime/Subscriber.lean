import Dizzchat.Messaging.Message
import Dizzchat.Transition.Lock
import Dizzchat.Transition.Run
import Mathlib.Data.Finset.Erase

set_option autoImplicit false

/-! # The Redis subscriber of a replica

`RedisConversationSubscriber`: one pub/sub, the channels the replica wants, and one lock around
every touch of the pub/sub. Callers subscribe and unsubscribe; the reader task polls for messages
and, when a read fails, builds a new pub/sub and subscribes it to every channel again. Every call to
Redis may succeed or raise, and every `await` is a place where others run.

`stop()` is not part of this world. Without it the loop of `_run` has one way out: an exception that
leaves `_reconnect`, whose `subscribe` calls are not guarded (`reader_heals_iff`). -/

namespace Dizzchat

open Transition

/-- A pub/sub channel: one for each conversation. -/
structure Channel where
  conversationId : ConversationId
deriving DecidableEq

def conversationChannel (conversationId : ConversationId) : Channel := ⟨conversationId⟩

/-- A Redis pub/sub: its subscriptions, and the messages it has been sent and not yet read. -/
structure PubSub where
  subscribed : Finset Channel
  inbox : List Message

namespace PubSub

/-- `redis.pubsub()` -/
def new : PubSub := ⟨∅, []⟩

/-- Redis sends a publication to a pub/sub that is subscribed to its channel at that moment. -/
def publish (message : Message) (pubsub : PubSub) : PubSub :=
  if conversationChannel message.conversationId ∈ pubsub.subscribed then
    { pubsub with inbox := pubsub.inbox ++ [message] }
  else pubsub

def subscribe (channel : Channel) (pubsub : PubSub) : PubSub :=
  { pubsub with subscribed := insert channel pubsub.subscribed }

def unsubscribe (channel : Channel) (pubsub : PubSub) : PubSub :=
  { pubsub with subscribed := pubsub.subscribed.erase channel }

@[simp]
theorem publish_subscribed (message : Message) (pubsub : PubSub) :
    (pubsub.publish message).subscribed = pubsub.subscribed := by
  unfold publish
  split <;> rfl

end PubSub

/-- Who holds the lock of the subscriber. -/
inductive LockOwner (τ : Type*)
  | reader
  | caller (t : τ)
deriving DecidableEq

/-- The fields of `RedisConversationSubscriber`. -/
structure Subscriber (τ : Type*) where
  pubsub : PubSub
  channels : Finset Channel
  lock : Option (LockOwner τ)

variable {τ δ : Type*}

namespace Subscriber

def init : Subscriber τ := ⟨PubSub.new, ∅, none⟩

def release (s : Subscriber τ) : Subscriber τ := { s with lock := none }

end Subscriber

/-! ## `subscribe` and `unsubscribe` -/

/-- A call of `subscribe` or `unsubscribe`: it waits for the lock, then for Redis. -/
inductive SubscriberCall
  | waitingSubscribe (conversationId : ConversationId)
  | subscribing (conversationId : ConversationId)
  | waitingUnsubscribe (conversationId : ConversationId)
  | unsubscribing (conversationId : ConversationId)
  | returned
  | raised
deriving DecidableEq

inductive SubscriberStep
  | acquire
  /-- The Redis call returns or raises. -/
  | redis (succeeds : Bool)
deriving DecidableEq

/-- The steps of a call by `t`. A channel is recorded after it is subscribed, and forgotten before
    it is unsubscribed. -/
def RedisConversationSubscriber.call (t : τ) :
    SubscriberStep → Subscriber τ → SubscriberCall → Option (Subscriber τ × SubscriberCall)
  | .acquire, s, .waitingSubscribe c =>
      if s.lock.isNone then some ({ s with lock := some (.caller t) }, .subscribing c) else none
  | .redis true, s, .subscribing c =>
      some ({ pubsub := s.pubsub.subscribe (conversationChannel c)
              channels := insert (conversationChannel c) s.channels
              lock := none }, .returned)
  | .redis false, s, .subscribing _ => some (s.release, .raised)
  | .acquire, s, .waitingUnsubscribe c =>
      if s.lock.isNone then
        some ({ s with lock := some (.caller t)
                       channels := s.channels.erase (conversationChannel c) }, .unsubscribing c)
      else none
  | .redis true, s, .unsubscribing c =>
      some ({ s with pubsub := s.pubsub.unsubscribe (conversationChannel c), lock := none },
        .returned)
  | .redis false, s, .unsubscribing _ => some (s.release, .raised)
  | _, _, _ => none

/-! ## The reader task -/

/-- Where the reader is. `δ` is the state of a delivery to the local sockets. -/
inductive Reader (δ : Type*)
  /-- At the head of the loop. -/
  | top
  /-- Sleeping, as there is no channel to read. -/
  | polling
  | waitingRead
  /-- In `get_message`, holding the lock. -/
  | reading
  | delivering (delivery : δ)
  | backingOff
  | waitingReconnect
  /-- In the `aclose` of `_reconnect`, holding the lock. -/
  | closing
  /-- In a `subscribe` of `_reconnect`, holding the lock, with these channels to go. -/
  | resubscribing (rest : Finset Channel)
  /-- An exception has ended the task. -/
  | ended
deriving DecidableEq

/-- What `get_message` comes back with: the next message, something that is not delivered (nothing,
    or no message frame, or data that does not decode), or an exception. -/
inductive ReadOutcome
  | message
  | nothing
  | raises
deriving DecidableEq

inductive ReaderStep
  | turn
  | wake
  | acquire
  | read (outcome : ReadOutcome)
  /-- `aclose` returns or raises; its exception is suppressed. -/
  | closed (succeeds : Bool)
  | resubscribed (channel : Channel) (succeeds : Bool)
deriving DecidableEq

/-- `_run`, with `_read_next` and `_reconnect`; `deliver` starts the delivery of a message, and is
    `none` when there is nothing to wait for. -/
def RedisConversationSubscriber.run (deliver : Message → Option δ) :
    ReaderStep → Subscriber τ → Reader δ → Option (Subscriber τ × Reader δ)
  | .turn, s, .top => some (s, if s.channels = ∅ then .polling else .waitingRead)
  | .wake, s, .polling => some (s, .top)
  | .acquire, s, .waitingRead =>
      if s.lock.isNone then some ({ s with lock := some .reader }, .reading) else none
  | .read .message, s, .reading =>
      match s.pubsub.inbox with
      | [] => none
      | message :: inbox => some ({ s with pubsub := { s.pubsub with inbox }, lock := none },
          match deliver message with
          | none => .top
          | some delivery => .delivering delivery)
  | .read .nothing, s, .reading => some (s.release, .top)
  | .read .raises, s, .reading => some (s.release, .backingOff)
  | .wake, s, .backingOff => some (s, .waitingReconnect)
  | .acquire, s, .waitingReconnect =>
      if s.lock.isNone then some ({ s with lock := some .reader }, .closing) else none
  | .closed _, s, .closing =>
      -- the new pub/sub takes the place of the old one whether or not `aclose` raised
      if s.channels = ∅ then some ({ s with pubsub := PubSub.new, lock := none }, .top)
      else some ({ s with pubsub := PubSub.new }, .resubscribing s.channels)
  | .resubscribed channel succeeds, s, .resubscribing rest =>
      if channel ∈ rest then
        if succeeds then
          let pubsub := s.pubsub.subscribe channel
          if rest.erase channel = ∅ then some ({ s with pubsub, lock := none }, .top)
          else some ({ s with pubsub }, .resubscribing (rest.erase channel))
        -- `_run` calls `_reconnect` outside its `try`
        else some (s.release, .ended)
      else none
  | _, _, _ => none

/-! ## The subscriber among its callers -/

/-- A subscriber, its reader, and callers that make one call after another. -/
structure SubscriberWorld (τ : Type*) where
  subscriber : Subscriber τ
  reader : Reader Message
  calls : τ → SubscriberCall

inductive SubscriberEvent (τ : Type*)
  | reader (step : ReaderStep)
  | delivered
  | subscribe (t : τ) (conversationId : ConversationId)
  | unsubscribe (t : τ) (conversationId : ConversationId)
  | call (t : τ) (step : SubscriberStep)
  | published (message : Message)
  /-- The connection drops, and Redis forgets its subscriptions. While the reader subscribes again
      a drop shows as a call of its own that raises. -/
  | dropped

def SubscriberCall.hasEnded : SubscriberCall → Bool
  | .returned | .raised => true
  | .waitingSubscribe _ | .subscribing _ | .waitingUnsubscribe _ | .unsubscribing _ => false

namespace SubscriberWorld

def init : SubscriberWorld τ := ⟨Subscriber.init, .top, fun _ => .returned⟩

variable [DecidableEq τ]

def step (w : SubscriberWorld τ) : SubscriberEvent τ → Option (SubscriberWorld τ)
  | .reader step => (RedisConversationSubscriber.run some step w.subscriber w.reader).map
      fun (subscriber, reader) => { w with subscriber, reader }
  | .delivered => match w.reader with
      | .delivering _ => some { w with reader := .top }
      | _ => none
  | .subscribe t c => if (w.calls t).hasEnded then
      some { w with calls := Function.update w.calls t (.waitingSubscribe c) } else none
  | .unsubscribe t c => if (w.calls t).hasEnded then
      some { w with calls := Function.update w.calls t (.waitingUnsubscribe c) } else none
  | .call t step => (RedisConversationSubscriber.call t step w.subscriber (w.calls t)).map
      fun (subscriber, call) => { w with subscriber, calls := Function.update w.calls t call }
  | .published message => some { w with subscriber := { w.subscriber with
      pubsub := w.subscriber.pubsub.publish message } }
  | .dropped => match w.reader with
      | .resubscribing _ => none
      | _ => some { w with subscriber := { w.subscriber with pubsub := PubSub.new } }

end SubscriberWorld

/-! ## How the reader ends -/

namespace Reader

/-- Inside the locked part of `_reconnect`. -/
def reconnecting : Reader δ → Bool
  | .closing | .resubscribing _ => true
  | .top | .polling | .waitingRead | .reading | .delivering _ | .backingOff | .waitingReconnect
  | .ended => false

def hasEnded : Reader δ → Bool
  | .ended => true
  | .top | .polling | .waitingRead | .reading | .delivering _ | .backingOff | .waitingReconnect
  | .closing | .resubscribing _ => false

/-- Holding the lock. -/
def locked : Reader δ → Bool
  | .reading | .closing | .resubscribing _ => true
  | .top | .polling | .waitingRead | .delivering _ | .backingOff | .waitingReconnect
  | .ended => false

end Reader

/-- The steps of the reader, one constructor for each. -/
inductive ReaderMove (deliver : Message → Option δ) (s : Subscriber τ) :
    ReaderStep → Reader δ → Subscriber τ → Reader δ → Prop
  | polls (h : s.channels = ∅) : ReaderMove deliver s .turn .top s .polling
  | waits (h : s.channels ≠ ∅) : ReaderMove deliver s .turn .top s .waitingRead
  | wakes : ReaderMove deliver s .wake .polling s .top
  | reads (h : s.lock = none) :
      ReaderMove deliver s .acquire .waitingRead { s with lock := some .reader } .reading
  | drops {message : Message} {inbox : List Message} (h : s.pubsub.inbox = message :: inbox)
      (hdeliver : deliver message = none) :
      ReaderMove deliver s (.read .message) .reading
        { s with pubsub := { s.pubsub with inbox }, lock := none } .top
  | delivers {message : Message} {inbox : List Message} {delivery : δ}
      (h : s.pubsub.inbox = message :: inbox) (hdeliver : deliver message = some delivery) :
      ReaderMove deliver s (.read .message) .reading
        { s with pubsub := { s.pubsub with inbox }, lock := none } (.delivering delivery)
  | skips : ReaderMove deliver s (.read .nothing) .reading s.release .top
  | fails : ReaderMove deliver s (.read .raises) .reading s.release .backingOff
  | backsOff : ReaderMove deliver s .wake .backingOff s .waitingReconnect
  | reconnects (h : s.lock = none) :
      ReaderMove deliver s .acquire .waitingReconnect { s with lock := some .reader } .closing
  | closesEmpty {succeeds : Bool} (h : s.channels = ∅) :
      ReaderMove deliver s (.closed succeeds) .closing
        { s with pubsub := PubSub.new, lock := none } .top
  | closes {succeeds : Bool} (h : s.channels ≠ ∅) :
      ReaderMove deliver s (.closed succeeds) .closing { s with pubsub := PubSub.new }
        (.resubscribing s.channels)
  | resubscribesLast {channel : Channel} {rest : Finset Channel} (hmem : channel ∈ rest)
      (h : rest.erase channel = ∅) :
      ReaderMove deliver s (.resubscribed channel true) (.resubscribing rest)
        { s with pubsub := s.pubsub.subscribe channel, lock := none } .top
  | resubscribes {channel : Channel} {rest : Finset Channel} (hmem : channel ∈ rest)
      (h : rest.erase channel ≠ ∅) :
      ReaderMove deliver s (.resubscribed channel true) (.resubscribing rest)
        { s with pubsub := s.pubsub.subscribe channel } (.resubscribing (rest.erase channel))
  | dies {channel : Channel} {rest : Finset Channel} (hmem : channel ∈ rest) :
      ReaderMove deliver s (.resubscribed channel false) (.resubscribing rest) s.release .ended

/-- Only a read begins a delivery, that of the message it takes out of the inbox. -/
theorem ReaderMove.of_delivering {deliver : Message → Option δ} {c : ReaderStep}
    {s s' : Subscriber τ} {r : Reader δ} {delivery : δ}
    (h : ReaderMove deliver s c r s' (.delivering delivery)) :
    c = .read .message ∧
      ∃ message inbox, s.pubsub.inbox = message :: inbox ∧ deliver message = some delivery := by
  cases h with
  | delivers hinbox hdeliver => exact ⟨rfl, _, _, hinbox, hdeliver⟩

theorem run_move {deliver : Message → Option δ} {c : ReaderStep} {s s' : Subscriber τ}
    {r r' : Reader δ} (h : RedisConversationSubscriber.run deliver c s r = some (s', r')) :
    ReaderMove deliver s c r s' r' := by
  unfold RedisConversationSubscriber.run at h
  split at h
  · split at h <;> cases h
    · next he => exact .polls he
    · next he => exact .waits he
  · cases h; exact .wakes
  · split at h <;> cases h
    next hlock => exact .reads (Option.isNone_iff_eq_none.1 hlock)
  · split at h
    · cases h
    · next hinbox =>
        split at h <;> cases h
        · next hdeliver => exact .drops hinbox hdeliver
        · next hdeliver => exact .delivers hinbox hdeliver
  · cases h; exact .skips
  · cases h; exact .fails
  · cases h; exact .backsOff
  · split at h <;> cases h
    next hlock => exact .reconnects (Option.isNone_iff_eq_none.1 hlock)
  · split at h <;> cases h
    · next he => exact .closesEmpty he
    · next he => exact .closes he
  · split at h
    · next hmem =>
        split at h
        · next hsucceeds =>
            subst hsucceeds
            split at h <;> cases h
            · next he => exact .resubscribesLast hmem he
            · next he => exact .resubscribes hmem he
        · next hraises =>
            obtain rfl := Bool.eq_false_of_not_eq_true hraises
            cases h
            exact .dies hmem
    · cases h
  · cases h

/-! ## What a reconnect leaves -/

/-- The steps of a call of `subscribe` or `unsubscribe`. -/
inductive SubscriberMove (t : τ) (s : Subscriber τ) :
    SubscriberStep → SubscriberCall → Subscriber τ → SubscriberCall → Prop
  | acquiresSubscribe {c : ConversationId} (h : s.lock = none) :
      SubscriberMove t s .acquire (.waitingSubscribe c) { s with lock := some (.caller t) }
        (.subscribing c)
  | subscribed {c : ConversationId} :
      SubscriberMove t s (.redis true) (.subscribing c)
        { pubsub := s.pubsub.subscribe (conversationChannel c)
          channels := insert (conversationChannel c) s.channels
          lock := none } .returned
  | acquiresUnsubscribe {c : ConversationId} (h : s.lock = none) :
      SubscriberMove t s .acquire (.waitingUnsubscribe c)
        { s with lock := some (.caller t), channels := s.channels.erase (conversationChannel c) }
        (.unsubscribing c)
  | unsubscribed {c : ConversationId} :
      SubscriberMove t s (.redis true) (.unsubscribing c)
        { s with pubsub := s.pubsub.unsubscribe (conversationChannel c), lock := none } .returned
  | raisedSubscribe {c : ConversationId} :
      SubscriberMove t s (.redis false) (.subscribing c) s.release .raised
  | raisedUnsubscribe {c : ConversationId} :
      SubscriberMove t s (.redis false) (.unsubscribing c) s.release .raised

theorem call_move {t : τ} {c : SubscriberStep} {s s' : Subscriber τ} {l l' : SubscriberCall}
    (h : RedisConversationSubscriber.call t c s l = some (s', l')) :
    SubscriberMove t s c l s' l' := by
  unfold RedisConversationSubscriber.call at h
  split at h
  · split at h <;> cases h
    next hlock => exact .acquiresSubscribe (Option.isNone_iff_eq_none.1 hlock)
  · cases h; exact .subscribed
  · cases h; exact .raisedSubscribe
  · split at h <;> cases h
    next hlock => exact .acquiresUnsubscribe (Option.isNone_iff_eq_none.1 hlock)
  · cases h; exact .unsubscribed
  · cases h; exact .raisedUnsubscribe
  · cases h

/-- Inside the locked part of `subscribe` or `unsubscribe`. -/
def SubscriberCall.locked : SubscriberCall → Bool
  | .subscribing _ | .unsubscribing _ => true
  | .waitingSubscribe _ | .waitingUnsubscribe _ | .returned | .raised => false

theorem ReaderMove.lock {deliver : Message → Option δ} {c : ReaderStep} {s s' : Subscriber τ}
    {r r' : Reader δ} (h : ReaderMove deliver s c r s' r') :
    LockMove .reader s.lock r.locked s'.lock r'.locked := by
  cases h with
  | polls | waits | wakes | backsOff | closes | resubscribes => exact .keeps _ _
  | reads h | reconnects h => rw [h]; exact .acquires
  | drops | delivers | skips | fails | closesEmpty | resubscribesLast | dies => exact .releases _

/-- The reader never writes `_channels`. -/
theorem ReaderMove.channels_eq {deliver : Message → Option δ} {c : ReaderStep} {s s' : Subscriber τ}
    {r r' : Reader δ} (h : ReaderMove deliver s c r s' r') : s'.channels = s.channels := by
  cases h <;> rfl

theorem SubscriberMove.lock {t : τ} {c : SubscriberStep} {s s' : Subscriber τ}
    {l l' : SubscriberCall} (h : SubscriberMove t s c l s' l') :
    LockMove (.caller t) s.lock l.locked s'.lock l'.locked := by
  cases h with
  | acquiresSubscribe h | acquiresUnsubscribe h => rw [h]; exact .acquires
  | subscribed | unsubscribed | raisedSubscribe | raisedUnsubscribe => exact .releases _

/-- A call touches `_channels` and the pub/sub inside the lock or as it enters it, never while
    another owner is inside. -/
theorem SubscriberMove.lock_free {t : τ} {c : SubscriberStep} {s s' : Subscriber τ}
    {l l' : SubscriberCall} (h : SubscriberMove t s c l s' l') : s.lock = none ∨ l.locked = true := by
  cases h with
  | acquiresSubscribe h | acquiresUnsubscribe h => exact .inl h
  | subscribed | unsubscribed | raisedSubscribe | raisedUnsubscribe => exact .inr rfl

/-- Who is inside the lock of the subscriber. -/
def SubscriberWorld.inside (w : SubscriberWorld τ) : LockOwner τ → Bool
  | .reader => w.reader.locked
  | .caller t => (w.calls t).locked

/-- The lock has one owner, and a reader that is subscribing again has covered every channel that
    it has not still to go through. -/
structure ReconnectInv (w : SubscriberWorld τ) : Prop where
  owned : LockOwned w.subscriber.lock w.inside
  covered : ∀ rest, w.reader = .resubscribing rest → ∀ channel ∈ w.subscriber.channels,
    channel ∈ rest ∨ channel ∈ w.subscriber.pubsub.subscribed

theorem reconnectInv_init : ReconnectInv (SubscriberWorld.init : SubscriberWorld τ) where
  owned := by
    intro o
    cases o <;> simp [SubscriberWorld.init, SubscriberWorld.inside, Subscriber.init, Reader.locked,
      SubscriberCall.locked]
  covered _ h := by cases h

variable [DecidableEq τ]

theorem reconnectInv_reader {s s' : Subscriber τ} {r r' : Reader Message} {calls : τ → SubscriberCall}
    (hw : ReconnectInv ⟨s, r, calls⟩) {c : ReaderStep} (h : ReaderMove some s c r s' r') :
    ReconnectInv ⟨s', r', calls⟩ where
  owned := by
    have hmove := hw.owned.move (o := .reader) h.lock
    intro o
    cases o with
    | reader => simpa [SubscriberWorld.inside] using hmove .reader
    | caller t => simpa [SubscriberWorld.inside] using hmove (.caller t)
  covered rest hrest channel hchannel := by
    simp only at hrest hchannel ⊢
    rw [h.channels_eq] at hchannel
    cases h with
    | closes he =>
        cases hrest
        exact .inl hchannel
    | @resubscribes added rest₀ hmem he =>
        cases hrest
        rcases hw.covered _ rfl channel hchannel with hin | hsub
        · by_cases hc : channel = added
          · exact .inr (Finset.mem_insert.2 (.inl hc))
          · exact .inl (Finset.mem_erase.2 ⟨hc, hin⟩)
        · exact .inr (Finset.mem_insert_of_mem hsub)
    | polls | waits | wakes | backsOff | reads | reconnects | drops | delivers | skips | fails
    | closesEmpty | resubscribesLast | dies => cases hrest

theorem reconnectInv_call {s s' : Subscriber τ} {r : Reader Message} {calls : τ → SubscriberCall}
    (hw : ReconnectInv ⟨s, r, calls⟩) {t : τ} {c : SubscriberStep} {l : SubscriberCall}
    (h : SubscriberMove t s c (calls t) s' l) :
    ReconnectInv ⟨s', r, Function.update calls t l⟩ where
  owned := by
    have hmove := hw.owned.move (o := .caller t) h.lock
    intro o
    rcases eq_or_ne o (.caller t) with rfl | ho
    · simpa [SubscriberWorld.inside] using hmove (.caller t)
    · have hother := hmove o
      rw [Function.update_of_ne ho] at hother
      cases o with
      | reader => exact hother
      | caller u =>
          have hu : u ≠ t := fun hu => ho (congrArg _ hu)
          simpa [SubscriberWorld.inside, hu] using hother
  covered rest hrest := by
    -- the reader is inside the lock, so no call can make a move
    obtain rfl : r = .resubscribing rest := hrest
    have hreader : s.lock = some .reader := (hw.owned .reader).1 rfl
    rcases h.lock_free with hfree | hin
    · rw [hreader] at hfree
      cases hfree
    · cases hreader.symm.trans ((hw.owned (.caller t)).1 hin)

theorem reconnectInv_start {s : Subscriber τ} {r : Reader Message} {calls : τ → SubscriberCall}
    (hw : ReconnectInv ⟨s, r, calls⟩) {t : τ} (ht : (calls t).hasEnded = true) {l : SubscriberCall}
    (hl : l.locked = false) : ReconnectInv ⟨s, r, Function.update calls t l⟩ where
  owned o := by
    have hsame : l.locked = (calls t).locked := by
      rw [hl]
      cases hcall : calls t <;> simp [hcall, SubscriberCall.hasEnded, SubscriberCall.locked] at ht ⊢
    cases o with
    | reader => exact hw.owned .reader
    | caller u =>
        have hu := view_update_eq (f := SubscriberCall.locked) hsame u
        simpa [SubscriberWorld.inside, hu] using hw.owned (.caller u)
  covered := hw.covered

theorem reconnectInv_step {w w' : SubscriberWorld τ} {e : SubscriberEvent τ} (hw : ReconnectInv w)
    (h : w.step e = some w') : ReconnectInv w' := by
  obtain ⟨s, r, calls⟩ := w
  cases e with
  | reader c =>
      obtain ⟨⟨s', r'⟩, hrun, rfl⟩ := Option.map_eq_some_iff.1 h
      exact reconnectInv_reader hw (run_move hrun)
  | delivered =>
      cases r with
      | delivering message =>
          cases h
          refine ⟨fun o => ?_, fun _ hrest => by cases hrest⟩
          cases o with
          | reader => exact hw.owned .reader
          | caller t => exact hw.owned (.caller t)
      | top | polling | waitingRead | reading | backingOff | waitingReconnect | closing
      | resubscribing | ended => cases h
  | subscribe t c =>
      obtain ⟨hended, heq⟩ := Option.ite_none_right_eq_some.1 h
      cases heq
      exact reconnectInv_start hw hended rfl
  | unsubscribe t c =>
      obtain ⟨hended, heq⟩ := Option.ite_none_right_eq_some.1 h
      cases heq
      exact reconnectInv_start hw hended rfl
  | call t c =>
      obtain ⟨⟨s', l⟩, hcall, rfl⟩ := Option.map_eq_some_iff.1 h
      exact reconnectInv_call hw (call_move hcall)
  | published message =>
      cases h
      refine ⟨hw.owned, fun rest hrest channel hchannel => ?_⟩
      rw [PubSub.publish_subscribed]
      exact hw.covered rest hrest channel hchannel
  | dropped =>
      cases r with
      | resubscribing rest => cases h
      | top | polling | waitingRead | reading | delivering | backingOff | waitingReconnect | closing
      | ended =>
          cases h
          exact ⟨hw.owned, fun _ hrest => by cases hrest⟩

/-! ## The reader heals itself -/

/-- The step from `w` to `w'` leaves the reader task alive, and where it comes out of `_reconnect`
    the pub/sub is subscribed to every channel. -/
def SubscriberWorld.Repairs (w w' : SubscriberWorld τ) : Prop :=
  w'.reader.hasEnded = false ∧
    (w.reader.reconnecting = true → w'.reader.reconnecting = false →
      w'.subscriber.channels ⊆ w'.subscriber.pubsub.subscribed)

instance (w w' : SubscriberWorld τ) : Decidable (w.Repairs w') :=
  inferInstanceAs (Decidable (_ ∧ (_ → _ → _)))

/-- Every step of the run repairs. -/
def SubscriberWorld.Heals (es : List (SubscriberEvent τ)) : Prop :=
  StepsMeet SubscriberWorld.step (fun w e => ∀ w' ∈ w.step e, w.Repairs w') SubscriberWorld.init es

instance (es : List (SubscriberEvent τ)) : Decidable (SubscriberWorld.Heals es) :=
  decidableStepsMeet _ _ _

/-- A `subscribe` inside `_reconnect` raises. -/
def SubscriberEvent.resubscribeRaises : SubscriberEvent τ → Bool
  | .reader (.resubscribed _ false) => true
  | _ => false

/-- The task ends with the first `subscribe` of `_reconnect` that raises, and by nothing else. -/
theorem step_hasEnded_iff {w w' : SubscriberWorld τ} {e : SubscriberEvent τ}
    (h : w.step e = some w') :
    w'.reader.hasEnded = true ↔ w.reader.hasEnded = true ∨ e.resubscribeRaises = true := by
  obtain ⟨s, r, calls⟩ := w
  cases e with
  | reader c =>
      obtain ⟨⟨s', r'⟩, hrun, rfl⟩ := Option.map_eq_some_iff.1 h
      have hmove := run_move hrun
      simp only at hmove ⊢
      cases hmove <;> simp [Reader.hasEnded, SubscriberEvent.resubscribeRaises]
  | delivered =>
      cases r <;> cases h
      simp [Reader.hasEnded, SubscriberEvent.resubscribeRaises]
  | subscribe t c | unsubscribe t c =>
      obtain ⟨-, heq⟩ := Option.ite_none_right_eq_some.1 h
      cases heq
      simp [SubscriberEvent.resubscribeRaises]
  | call t c =>
      obtain ⟨⟨s', l⟩, -, rfl⟩ := Option.map_eq_some_iff.1 h
      simp [SubscriberEvent.resubscribeRaises]
  | published message =>
      cases h
      simp [SubscriberEvent.resubscribeRaises]
  | dropped =>
      cases r <;> cases h <;> simp [SubscriberEvent.resubscribeRaises]

/-- A good `_reconnect` subscribes the new pub/sub to every channel. -/
theorem step_reconnected {w w' : SubscriberWorld τ} {e : SubscriberEvent τ} (hw : ReconnectInv w)
    (h : w.step e = some w') (hin : w.reader.reconnecting = true)
    (hout : w'.reader.reconnecting = false) (halive : w'.reader.hasEnded = false) :
    w'.subscriber.channels ⊆ w'.subscriber.pubsub.subscribed := by
  obtain ⟨s, r, calls⟩ := w
  cases e with
  | reader c =>
      obtain ⟨⟨s', r'⟩, hrun, rfl⟩ := Option.map_eq_some_iff.1 h
      have hmove := run_move hrun
      simp only at hmove hin hout halive ⊢
      cases hmove with
      | closesEmpty he =>
          simp only [he]
          exact Finset.empty_subset _
      | @resubscribesLast added rest hmem he =>
          -- no channel is left to go through
          intro channel hchannel
          rcases hw.covered rest rfl channel hchannel with hrest | hsub
          · by_cases hc : channel = added
            · exact Finset.mem_insert.2 (.inl hc)
            · have hgone : channel ∈ rest.erase added := Finset.mem_erase.2 ⟨hc, hrest⟩
              rw [he] at hgone
              exact absurd hgone (Finset.notMem_empty _)
          · exact Finset.mem_insert_of_mem hsub
      | closes | resubscribes => cases hout
      | dies => cases halive
      | polls | waits | wakes | reads | drops | delivers | skips | fails | backsOff
      | reconnects => cases hin
  | delivered => cases r <;> cases h; cases hin
  | dropped =>
      cases r with
      | closing => cases h; cases hout
      | resubscribing rest => cases h
      | top | polling | waitingRead | reading | delivering | backingOff | waitingReconnect
      | ended => cases hin
  | subscribe t c | unsubscribe t c =>
      obtain ⟨-, heq⟩ := Option.ite_none_right_eq_some.1 h
      cases heq
      exact absurd hin (by simpa using hout)
  | call t c =>
      obtain ⟨⟨s', l⟩, -, rfl⟩ := Option.map_eq_some_iff.1 h
      exact absurd hin (by simpa using hout)
  | published message =>
      cases h
      exact absurd hin (by simpa using hout)

theorem step_repairs_iff {w w' : SubscriberWorld τ} {e : SubscriberEvent τ} (hw : ReconnectInv w)
    (halive : w.reader.hasEnded = false) (h : w.step e = some w') :
    w.Repairs w' ↔ e.resubscribeRaises = false := by
  have hended : w'.reader.hasEnded = false ↔ e.resubscribeRaises = false := by
    rw [← Bool.not_eq_true, ← Bool.not_eq_true, step_hasEnded_iff h, halive]
    simp
  exact ⟨fun hrep => hended.1 hrep.1, fun he =>
    ⟨hended.2 he, fun hin hout => step_reconnected hw h hin hout (hended.2 he)⟩⟩

/-- The reader heals itself in a run exactly when no `subscribe` inside `_reconnect` raises. -/
theorem reader_heals_iff {w : SubscriberWorld τ} {es : List (SubscriberEvent τ)}
    (h : exec SubscriberWorld.step SubscriberWorld.init es = some w) :
    SubscriberWorld.Heals es ↔ ∀ e ∈ es, e.resubscribeRaises = false := by
  refine stepsMeet_iff_forall (I := fun w => ReconnectInv w ∧ w.reader.hasEnded = false)
    (fun w e w' hw he hstep => ?_) (fun w e w' hw hstep => ?_) ⟨reconnectInv_init, rfl⟩ h
  · exact ⟨reconnectInv_step hw.1 hstep, ((step_repairs_iff hw.1 hw.2 hstep).2 he).1⟩
  · rw [← step_repairs_iff hw.1 hw.2 hstep]
    exact ⟨fun hall => hall w' hstep, fun hrep t ht => Option.some.inj (hstep.symm.trans ht) ▸ hrep⟩

/-- The replica subscribes to one conversation, a read fails, and `_reconnect` comes to its one
    `subscribe`. -/
def readFails (c : ConversationId) : List (SubscriberEvent Unit) :=
  [.subscribe () c, .call () .acquire, .call () (.redis true), .reader .turn, .reader .acquire,
    .dropped, .reader (.read .raises), .reader .wake, .reader .acquire, .reader (.closed false)]

theorem reader_heals_afterDrop :
    SubscriberWorld.Heals
      (readFails ⟨0⟩ ++ [.reader (.resubscribed (conversationChannel ⟨0⟩) true)]) := by
  obtain ⟨w, hrun, -⟩ := exec_reaches SubscriberWorld.step SubscriberWorld.init
    (readFails ⟨0⟩ ++ [.reader (.resubscribed (conversationChannel ⟨0⟩) true)])
    (fun w => w.reader.hasEnded = false) (by decide)
  exact (reader_heals_iff hrun).2 (by decide)

/-- The outage outlasts the backoff: the `subscribe` of `_reconnect` raises, and the reader task is
    gone. -/
theorem reader_ends :
    ∃ w, exec SubscriberWorld.step SubscriberWorld.init
        (readFails ⟨0⟩ ++ [.reader (.resubscribed (conversationChannel ⟨0⟩) false)]) = some w ∧
      w.reader = .ended ∧
      ¬ SubscriberWorld.Heals
        (readFails ⟨0⟩ ++ [.reader (.resubscribed (conversationChannel ⟨0⟩) false)]) :=
  exec_reaches SubscriberWorld.step SubscriberWorld.init _ _ (by decide)

end Dizzchat
