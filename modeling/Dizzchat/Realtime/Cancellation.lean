import Dizzchat.Realtime.Gateway

set_option autoImplicit false

/-! # How a handler ends

`conversation_ws` await by await: each of them returns, raises, or is where the cancellation of the
task arrives. What an await returns is kept as far as the next one depends on it; `Gateway` has the
rest, and `Awaits` shows that its handlers are these with the closing of a socket passed over.

A `CancelledError` is no `Exception`. The rollback of `join` does not catch it, and it can arrive
while the `leave` of a `finally` still waits for its lock: there, and only there, a handler ends
with its connection in the map. -/

namespace Dizzchat

open Transition

/-! ## The awaits of a handler -/

/-- What an await raises. -/
inductive Raised
  | webSocketDisconnect
  | exception
  | cancelledError
deriving DecidableEq

/-- What an `except Exception` catches. -/
def Raised.isException : Raised → Bool
  | .webSocketDisconnect | .exception => true
  | .cancelledError => false

/-- What `_receive_loop` does next, once the limiter has answered for a frame. -/
inductive Verdict
  /-- It sends an error frame. -/
  | refuse
  /-- It closes the socket, as the token is no longer valid. -/
  | expire
  | exchange
deriving DecidableEq

/-- Where a handler waits. -/
inductive Await (κ : Type*)
  | accepting
  /-- In the `receive_json` of `_authenticate`. -/
  | authenticating
  /-- Closing with 4401. -/
  | unauthenticated
  | ensuring (lastSeenSeq : Option Int)
  /-- Closing with 4403. -/
  | forbidden
  /-- Sending `auth.ok`. -/
  | greeting (lastSeenSeq : Option Int)
  | joining (lastSeenSeq : Option Int) (call : RegistryCall κ)
  /-- Closing with 1011 as `join` has raised. -/
  | unjoined
  /-- In the `replay_since` of `_replay_missed`. -/
  | replaying
  | sending (missed : List Message)
  /-- In the `receive_json` of `_receive_loop`. -/
  | receiving
  | limiting
  | exchanging
  /-- Sending the answer to a frame. -/
  | answering
  /-- Closing with 4401 as the token has expired. -/
  | expiring
  /-- Closing with 1011 in the `except Exception` around the replay and the loop. -/
  | failing
  | leaving (call : RegistryCall κ)
  | ended
deriving DecidableEq

/-- What an await outside the registry returns. -/
inductive Answer
  | accepted
  | authenticated (lastSeenSeq : Option Int)
  /-- No frame in time, a payload that is not JSON, no `auth` frame, or an invalid token. -/
  | notAuthenticated
  | ensured
  /-- `ConversationNotFound` or `NotConversationParticipant`. -/
  | notEnsured
  | sent
  | closed
  | missed (messages : List Message)
  /-- A frame, or a payload that is not JSON. -/
  | received
  | limited (verdict : Verdict)
  | exchanged
deriving DecidableEq

section Handler

variable {κ : Type*} (c : ConversationId) (k : κ)

namespace Await

/-- The loop of `_replay_missed` over what it has still to send. -/
def afterMissed : List Message → Await κ
  | [] => .receiving
  | missed => .sending missed

def afterLimit : Verdict → Await κ
  | .refuse => .answering
  | .expire => .expiring
  | .exchange => .exchanging

/-- Where a handler goes on after a step of `join`. -/
def afterJoin (lastSeenSeq : Option Int) : RegistryCall κ → Await κ
  | .returned => match lastSeenSeq with
      | none => .receiving
      | some _ => .replaying
  | .raised => .unjoined
  | call => .joining lastSeenSeq call

/-- Where a handler goes on after a step of `leave`. -/
def afterLeave : RegistryCall κ → Await κ
  | .returned | .raised => .ended
  | call => .leaving call

/-- The `except` clauses around the replay and the loop, on the way to their `finally`. -/
def afterServing : Raised → Await κ
  | .exception => .failing
  | .webSocketDisconnect | .cancelledError => .leaving (.waitingLeave c k)

/-- The call of the registry that the handler is in. -/
def registryCall : Await κ → Option (RegistryCall κ)
  | .joining _ call | .leaving call => some call
  | _ => none

end Await

/-- Where `conversation_ws` goes on when an await returns. -/
def ConversationWs.returned : Answer → Await κ → Option (Await κ)
  | .accepted, .accepting => some .authenticating
  | .authenticated lastSeenSeq, .authenticating => some (.ensuring lastSeenSeq)
  | .notAuthenticated, .authenticating => some .unauthenticated
  | .ensured, .ensuring lastSeenSeq => some (.greeting lastSeenSeq)
  | .notEnsured, .ensuring _ => some .forbidden
  | .sent, .greeting lastSeenSeq => some (.joining lastSeenSeq (.waitingJoin c k))
  | .closed, .unauthenticated | .closed, .forbidden | .closed, .unjoined => some .ended
  | .missed messages, .replaying => some (.afterMissed messages)
  | .sent, .sending (_ :: missed) => some (.afterMissed missed)
  | .received, .receiving => some .limiting
  | .limited verdict, .limiting => some (.afterLimit verdict)
  | .exchanged, .exchanging => some .answering
  | .sent, .answering => some .receiving
  -- out of the loop by its `return`, or out of the `except`: the `finally` is next
  | .closed, .expiring | .closed, .failing => some (.leaving (.waitingLeave c k))
  | _, _ => none

/-- Where `conversation_ws` goes on when an await outside the registry raises. -/
def ConversationWs.raised (raised : Raised) : Await κ → Option (Await κ)
  | .accepting | .authenticating | .unauthenticated | .ensuring _ | .forbidden | .greeting _
  | .unjoined => some .ended
  -- `_receive_loop` has a `try` of its own around the exchange
  | .exchanging =>
      some (if raised.isException then .answering else .leaving (.waitingLeave c k))
  | .replaying | .sending _ | .receiving | .limiting | .answering | .expiring =>
      some (.afterServing c k raised)
  | .failing => some (.leaving (.waitingLeave c k))
  | .joining .. | .leaving _ | .ended => none

end Handler

/-! ## Cancellation inside the registry -/

variable {κ τ : Type*}

/-- The task of a caller is cancelled; `applied` says whether Redis has carried out the command it
    waits for. The `async with` gives the lock back. -/
def RedisConversationSubscriber.cancelled (applied : Bool) (s : Subscriber τ) :
    SubscriberCall → Option (Subscriber τ)
  | .waitingSubscribe _ | .waitingUnsubscribe _ => some s
  | .subscribing c => some
      { s with pubsub := if applied then s.pubsub.subscribe (conversationChannel c) else s.pubsub
               lock := none }
  | .unsubscribing c => some
      { s with pubsub := if applied then s.pubsub.unsubscribe (conversationChannel c) else s.pubsub
               lock := none }
  | .returned | .raised => none

/-- The task of a `join` or a `leave` is cancelled. -/
def ConversationRegistry.cancelled (applied : Bool) (s : ConversationRegistry κ τ) :
    RegistryCall κ → Option (ConversationRegistry κ τ)
  | .waitingJoin .. | .waitingLeave .. => some s
  -- the `except Exception` of `join` lets it pass, and the registration stays
  | .subscribing _ _ call | .unsubscribing _ _ call =>
      (RedisConversationSubscriber.cancelled applied s.subscriber call).map fun subscriber =>
        { s with subscriber, lock := none }
  | .returned | .raised => none

/-! ## The sockets of a replica -/

/-- A replica and the handlers of its sockets. -/
@[ext]
structure Sockets (κ : Type*) where
  replica : Replica κ κ
  awaits : κ → Await κ

inductive SocketsEvent (κ : Type*)
  | returned (k : κ) (answer : Answer)
  | raised (k : κ) (raised : Raised)
  | registry (k : κ) (step : RegistryStep)
  /-- The task of the handler is cancelled where it waits. -/
  | cancelled (k : κ) (applied : Bool)
  | reader (step : ReaderStep)
  /-- A send of the broadcast under way comes back. -/
  | delivered (k : κ) (succeeds : Bool)
  | published (conversationId : ConversationId) (message : Message)
  /-- `close_all` forgets every connection. -/
  | drained
deriving DecidableEq

namespace Sockets

/-- Nobody has connected yet. -/
def init : Sockets κ := ⟨Replica.init, fun _ => .accepting⟩

def registered (c : ConversationId) (w : Sockets κ) : Finset κ :=
  w.replica.registry.manager.registered c

variable [DecidableEq κ]

/-- The handler of `k` goes on, and leaves the registry so. -/
def goOn (k : κ) (registry : ConversationRegistry κ κ) (a : Await κ) (w : Sockets κ) :
    Sockets κ where
  replica := { w.replica with registry }
  awaits := Function.update w.awaits k a

@[simp]
theorem goOn_awaits_self (k : κ) (registry : ConversationRegistry κ κ) (a : Await κ)
    (w : Sockets κ) : (w.goOn k registry a).awaits k = a := by
  simp [goOn]

theorem goOn_awaits_of_ne {k k' : κ} (hk : k' ≠ k) (registry : ConversationRegistry κ κ)
    (a : Await κ) (w : Sockets κ) : (w.goOn k registry a).awaits k' = w.awaits k' := by
  simp [goOn, hk]

def step (conversation : κ → ConversationId) (w : Sockets κ) : SocketsEvent κ → Option (Sockets κ)
  | .returned k answer =>
      (ConversationWs.returned (conversation k) k answer (w.awaits k)).map fun a =>
        w.goOn k w.replica.registry a
  | .raised k raised =>
      (ConversationWs.raised (conversation k) k raised (w.awaits k)).map fun a =>
        w.goOn k w.replica.registry a
  | .registry k step => match w.awaits k with
      | .joining lastSeenSeq call =>
          (ConversationRegistry.call k step w.replica.registry call).map fun (registry, call) =>
            w.goOn k registry (.afterJoin lastSeenSeq call)
      | .leaving call =>
          (ConversationRegistry.call k step w.replica.registry call).map fun (registry, call) =>
            w.goOn k registry (.afterLeave call)
      | _ => none
  | .cancelled k applied => match (w.awaits k).registryCall with
      -- neither the `except Exception` around `join` nor anything around `leave` catches it
      | some call =>
          (ConversationRegistry.cancelled applied w.replica.registry call).map fun registry =>
            w.goOn k registry .ended
      | none =>
          (ConversationWs.raised (conversation k) k .cancelledError (w.awaits k)).map fun a =>
            w.goOn k w.replica.registry a
  | .reader step => (w.replica.read step).map fun replica => { w with replica }
  | .delivered k succeeds => (w.replica.delivered k succeeds).map fun replica => { w with replica }
  | .published c message => some { w with replica := w.replica.receive c message }
  | .drained => some { w with replica :=
      { w.replica with registry := { w.replica.registry with manager := .init } } }

end Sockets

/-! ## What a handler owes -/

namespace Await

/-- In the `subscribe` of its `join`. -/
def subscribing : Await κ → Bool
  | .joining _ (.subscribing ..) => true
  | _ => false

/-- Between `register` and `unregister`, where a cancellation goes past both. -/
def exposed : Await κ → Bool
  | .joining _ (.subscribing ..) | .leaving (.waitingLeave ..) => true
  | _ => false

end Await

section Owed

variable [DecidableEq κ] (conversation : κ → ConversationId)

namespace Sockets

/-- No handler that has ended has its connection in the map. -/
def Released (w : Sockets κ) : Prop :=
  ∀ k, w.awaits k = .ended → ∀ c, k ∉ w.registered c

/-- The event lets a `join` of `c` by `k` past the lock of the registry. -/
def LetsIn (c : ConversationId) (k : κ) (w : Sockets κ) (e : SocketsEvent κ) : Prop :=
  e = .registry k .acquire ∧ ∃ lastSeenSeq, w.awaits k = .joining lastSeenSeq (.waitingJoin c k)

/-- In every run from here the next `join` of `c` that gets the lock subscribes. -/
def SubscribesNext (c : ConversationId) (w : Sockets κ) : Prop :=
  ∀ es w₁ k e w₂, exec (step conversation) w es = some w₁ →
    StepsMeet (step conversation) (fun v e => ∀ k, ¬ v.LetsIn c k e) w es →
    w₁.LetsIn c k e → step conversation w₁ e = some w₂ → (w₂.awaits k).subscribing = true

/-- From `w` to `w'`, a `join` that ends without returning leaves no registration behind, and if it
    was to subscribe, or nobody else is connected, the next one will subscribe. -/
def RollsBack (w w' : Sockets κ) : Prop :=
  ∀ k lastSeenSeq call, w.awaits k = .joining lastSeenSeq call →
    w'.awaits k = .unjoined ∨ w'.awaits k = .ended →
    (∀ c, k ∉ w'.registered c) ∧
      ((w.awaits k).subscribing = true ∨ w'.registered (conversation k) = ∅ →
        w'.SubscribesNext conversation (conversation k))

/-- The step leaves no connection of an ended handler in the map, and rolls back a failed `join`. -/
def Releases (w : Sockets κ) (e : SocketsEvent κ) : Prop :=
  ∀ w' ∈ step conversation w e, w'.Released ∧ w.RollsBack conversation w'

/-- No cancellation reaches a registered connection inside the `subscribe` of its `join`, or while
    its `leave` waits for the lock. -/
def Spares (w : Sockets κ) : SocketsEvent κ → Prop
  | .cancelled k _ => (w.awaits k).exposed = true → k ∉ w.registered (conversation k)
  | _ => True

instance decidableSpares (w : Sockets κ) :
    (e : SocketsEvent κ) → Decidable (w.Spares conversation e)
  | .cancelled k _ => inferInstanceAs
      (Decidable ((w.awaits k).exposed = true → k ∉ w.registered (conversation k)))
  | .returned .. | .raised .. | .registry .. | .reader _ | .delivered .. | .published ..
  | .drained => inferInstanceAs (Decidable True)

end Sockets

end Owed

/-! ## What a step can do -/

namespace Await

/-- Inside the lock of the registry. -/
def locked : Await κ → Bool
  | .joining _ call | .leaving call => call.locked
  | _ => false

/-- Past the `register` of its `join` and before the `unregister` of its `leave`. -/
def joined : Await κ → Bool
  | .joining _ (.subscribing ..) | .replaying | .sending _ | .receiving | .limiting | .exchanging
  | .answering | .expiring | .failing | .leaving (.waitingLeave ..) => true
  | _ => false

/-- The registry is called for this connection of this conversation. -/
def Calls (c : ConversationId) (k : κ) : Await κ → Prop
  | .joining _ call => call = .waitingJoin c k ∨ ∃ call', call = .subscribing c k call'
  | .leaving call => call = .waitingLeave c k ∨ ∃ call', call = .unsubscribing c k call'
  | _ => True

theorem locked_of_outside {a : Await κ} (h : a.registryCall = none) : a.locked = false := by
  cases a <;> first | rfl | cases h

theorem locked_of_registryCall {a : Await κ} {call : RegistryCall κ}
    (h : a.registryCall = some call) : a.locked = call.locked := by
  cases a <;> cases h <;> rfl

theorem afterJoin_locked (lastSeenSeq : Option Int) (call : RegistryCall κ) :
    (Await.afterJoin lastSeenSeq call).locked = call.locked := by
  cases call with
  | returned => cases lastSeenSeq <;> rfl
  | waitingJoin | subscribing | waitingLeave | unsubscribing | raised => rfl

theorem locked_of_subscribing {a : Await κ} (h : a.subscribing = true) : a.locked = true := by
  cases a with
  | joining _ call => cases call <;> first | rfl | cases h
  | _ => cases h

theorem exposed_of_joined {a : Await κ} {call : RegistryCall κ} (hat : a.registryCall = some call)
    (h : a.joined = true) : a.exposed = true := by
  cases a with
  | joining _ call | leaving call => cases call <;> first | rfl | cases h
  | _ => cases hat

theorem afterLeave_locked (call : RegistryCall κ) :
    (Await.afterLeave call).locked = call.locked := by
  cases call <;> rfl

/-- A step of a handler outside the registry. -/
structure Quiet (c : ConversationId) (k : κ) (a a' : Await κ) : Prop where
  outside : a.registryCall = none
  unlocked : a'.locked = false
  calls : a'.Calls c k
  joined : a.joined = true → a'.joined = true

theorem afterMissed_joined (missed : List Message) :
    (Await.afterMissed missed : Await κ).joined = true := by
  cases missed <;> rfl

theorem quiet_afterMissed {c : ConversationId} {k : κ} {a : Await κ} (ha : a.registryCall = none)
    (missed : List Message) : Quiet c k a (.afterMissed missed) := by
  refine ⟨ha, ?_, ?_, fun _ => afterMissed_joined missed⟩
  · cases missed <;> rfl
  · cases missed <;> trivial

theorem quiet_afterServing {c : ConversationId} {k : κ} {a : Await κ} (ha : a.registryCall = none)
    (raised : Raised) : Quiet c k a (.afterServing c k raised) := by
  cases raised with
  | exception => exact ⟨ha, rfl, trivial, fun _ => rfl⟩
  | webSocketDisconnect | cancelledError => exact ⟨ha, rfl, .inl rfl, fun _ => rfl⟩

end Await

theorem returned_quiet {c : ConversationId} {k : κ} {answer : Answer} {a a' : Await κ}
    (h : ConversationWs.returned c k answer a = some a') : Await.Quiet c k a a' := by
  unfold ConversationWs.returned at h
  split at h
  all_goals try (cases h; exact ⟨rfl, rfl, trivial, id⟩)
  · -- `join` is called
    cases h; exact ⟨rfl, rfl, .inl rfl, id⟩
  · cases h; exact Await.quiet_afterMissed rfl _
  · cases h; exact Await.quiet_afterMissed rfl _
  · next verdict => cases h; cases verdict <;> exact ⟨rfl, rfl, trivial, fun _ => rfl⟩
  · -- `leave` is called
    cases h; exact ⟨rfl, rfl, .inl rfl, id⟩
  · cases h; exact ⟨rfl, rfl, .inl rfl, id⟩
  · cases h

theorem raised_quiet {c : ConversationId} {k : κ} {raised : Raised} {a a' : Await κ}
    (h : ConversationWs.raised c k raised a = some a') : Await.Quiet c k a a' := by
  unfold ConversationWs.raised at h
  split at h
  all_goals try (cases h; exact ⟨rfl, rfl, trivial, id⟩)
  · cases hcaught : raised.isException <;> simp only [hcaught] at h <;> cases h
    · exact ⟨rfl, rfl, .inl rfl, id⟩
    · exact ⟨rfl, rfl, trivial, id⟩
  all_goals try (cases h; exact Await.quiet_afterServing rfl _)
  · cases h; exact ⟨rfl, rfl, .inl rfl, id⟩
  all_goals cases h

/-! ## What a step can do -/

/-- Only a `join` that gets the lock brings a connection into the map. -/
theorem RegistryMove.of_mem_registered [DecidableEq κ] {t : τ} {step : RegistryStep}
    {s s' : ConversationRegistry κ τ} {l l' : RegistryCall κ} (h : RegistryMove t s step l s' l')
    {c : ConversationId} {k : κ} (hk : k ∈ s'.manager.registered c) :
    k ∈ s.manager.registered c ∨
      s.lock = none ∧ step = .acquire ∧ l = .waitingJoin c k := by
  have hjoin : ∀ {c' : ConversationId} {k' : κ} {manager : ConnectionManager κ},
      k ∈ ((manager.register c' k').1).registered c →
        k ∈ manager.registered c ∨ c' = c ∧ k' = k := by
    intro c' k' manager hk
    rcases eq_or_ne c c' with rfl | hc
    · rw [ConnectionManager.register_registered, Finset.mem_insert] at hk
      exact hk.elim (fun heq => .inr ⟨rfl, heq.symm⟩) .inl
    · rw [ConnectionManager.register_registered_of_ne hc] at hk
      exact .inl hk
  cases h with
  | joinsFirst hfree | joins hfree =>
      refine (hjoin hk).imp_right fun heq => ?_
      obtain ⟨rfl, rfl⟩ := heq
      exact ⟨hfree, rfl, rfl⟩
  | rollsBack | leavesLast | leaves =>
      exact .inl (ConnectionManager.unregister_registered_subset _ _ _ _ hk)
  | subscribes | joined | unsubscribes | left => exact .inl hk

section Moves

variable [DecidableEq κ] (conversation : κ → ConversationId)

/-- The steps of the sockets of a replica: a handler moves outside the registry, inside it, or is
    cancelled there, or others move. -/
inductive SocketsMove (w : Sockets κ) : SocketsEvent κ → Sockets κ → Prop
  | quiet {e : SocketsEvent κ} {k : κ} {a : Await κ}
      (h : Await.Quiet (conversation k) k (w.awaits k) a) (hspares : w.Spares conversation e) :
      SocketsMove w e (w.goOn k w.replica.registry a)
  | joins {k : κ} {step : RegistryStep} {lastSeenSeq : Option Int} {call call' : RegistryCall κ}
      {registry : ConversationRegistry κ κ} (hat : w.awaits k = .joining lastSeenSeq call)
      (h : RegistryMove k w.replica.registry step call registry call') :
      SocketsMove w (.registry k step) (w.goOn k registry (.afterJoin lastSeenSeq call'))
  | leaves {k : κ} {step : RegistryStep} {call call' : RegistryCall κ}
      {registry : ConversationRegistry κ κ} (hat : w.awaits k = .leaving call)
      (h : RegistryMove k w.replica.registry step call registry call') :
      SocketsMove w (.registry k step) (w.goOn k registry (.afterLeave call'))
  | cancels {k : κ} {applied : Bool} {call : RegistryCall κ} {registry : ConversationRegistry κ κ}
      (hat : (w.awaits k).registryCall = some call)
      (hmanager : registry.manager = w.replica.registry.manager)
      (hlock : LockMove k w.replica.registry.lock call.locked registry.lock false) :
      SocketsMove w (.cancelled k applied) (w.goOn k registry .ended)
  | others {e : SocketsEvent κ} {w' : Sockets κ} (hawaits : w'.awaits = w.awaits)
      (hlock : w'.replica.registry.lock = w.replica.registry.lock)
      (hsub : ∀ c, w'.registered c ⊆ w.registered c) (hspares : w.Spares conversation e) :
      SocketsMove w e w'

omit [DecidableEq κ] in
/-- A cancelled call gives back the lock, and leaves the map alone. -/
theorem cancelled_lock {applied : Bool} {s s' : ConversationRegistry κ τ} {call : RegistryCall κ}
    (t : τ) (h : ConversationRegistry.cancelled applied s call = some s') :
    s'.manager = s.manager ∧ LockMove t s.lock call.locked s'.lock false := by
  cases call with
  | waitingJoin | waitingLeave =>
      cases h
      exact ⟨rfl, .keeps _ _⟩
  | subscribing | unsubscribing =>
      obtain ⟨subscriber, -, rfl⟩ := Option.map_eq_some_iff.1 h
      exact ⟨rfl, .releases _⟩
  | returned | raised => cases h

theorem step_move {w w' : Sockets κ} {e : SocketsEvent κ}
    (h : Sockets.step conversation w e = some w') : SocketsMove conversation w e w' := by
  cases e with
  | returned k answer =>
      obtain ⟨a, ha, rfl⟩ := Option.map_eq_some_iff.1 h
      exact .quiet (returned_quiet ha) trivial
  | raised k raised =>
      obtain ⟨a, ha, rfl⟩ := Option.map_eq_some_iff.1 h
      exact .quiet (raised_quiet ha) trivial
  | registry k step =>
      simp only [Sockets.step] at h
      split at h
      · next hat =>
          obtain ⟨⟨registry, call⟩, hcall, rfl⟩ := Option.map_eq_some_iff.1 h
          exact .joins hat (registryCall_move hcall)
      · next hat =>
          obtain ⟨⟨registry, call⟩, hcall, rfl⟩ := Option.map_eq_some_iff.1 h
          exact .leaves hat (registryCall_move hcall)
      · cases h
  | cancelled k applied =>
      simp only [Sockets.step] at h
      split at h
      · next call hat =>
          obtain ⟨registry, hcall, rfl⟩ := Option.map_eq_some_iff.1 h
          obtain ⟨hmanager, hlock⟩ := cancelled_lock k hcall
          exact .cancels hat hmanager hlock
      · obtain ⟨a, ha, rfl⟩ := Option.map_eq_some_iff.1 h
        have hquiet := raised_quiet ha
        refine .quiet hquiet fun hexposed => ?_
        have hout := hquiet.outside
        cases hat : w.awaits k <;> simp [hat, Await.exposed, Await.registryCall] at hexposed hout
  | reader step =>
      obtain ⟨replica, hread, rfl⟩ := Option.map_eq_some_iff.1 h
      obtain ⟨⟨subscriber, reader⟩, -, rfl⟩ := Option.map_eq_some_iff.1 hread
      exact .others rfl rfl (fun c => Finset.Subset.refl _) trivial
  | delivered k succeeds =>
      obtain ⟨replica, hdelivered, rfl⟩ := Option.map_eq_some_iff.1 h
      obtain ⟨b, manager, b', -, hsent, rfl⟩ := delivered_eq_some hdelivered
      exact .others rfl rfl (sent_move hsent).registered_subset trivial
  | published c message =>
      cases h
      exact .others rfl rfl (fun c => Finset.Subset.refl _) trivial
  | drained =>
      cases h
      exact .others rfl rfl (fun c => Finset.empty_subset _) trivial

end Moves

/-! ## The map and the awaits -/

section Invariant

variable [DecidableEq κ] {conversation : κ → ConversationId}

/-- Every handler calls the registry for its own connection. -/
def Sockets.CallsOwn (conversation : κ → ConversationId) (w : Sockets κ) : Prop :=
  ∀ k, (w.awaits k).Calls (conversation k) k

theorem SocketsMove.callsOwn {w w' : Sockets κ} {e : SocketsEvent κ}
    (h : SocketsMove conversation w e w') (hw : w.CallsOwn conversation) :
    w'.CallsOwn conversation := by
  have hgoOn : ∀ {k : κ} {registry : ConversationRegistry κ κ} {a : Await κ},
      a.Calls (conversation k) k → (w.goOn k registry a).CallsOwn conversation := by
    intro k registry a ha k'
    rcases eq_or_ne k' k with rfl | hk
    · rwa [Sockets.goOn_awaits_self]
    · rw [Sockets.goOn_awaits_of_ne hk]
      exact hw k'
  cases h with
  | quiet h => exact hgoOn h.calls
  | @joins k _ lastSeenSeq _ _ _ hat h =>
      have hcall := hw k
      rw [hat] at hcall
      refine hgoOn ?_
      rcases hcall with rfl | ⟨call', rfl⟩
      · cases h with
        | joinsFirst => exact .inr ⟨_, rfl⟩
        | joins => cases lastSeenSeq <;> trivial
      · cases h with
        | subscribes => exact .inr ⟨_, rfl⟩
        | joined => cases lastSeenSeq <;> trivial
        | rollsBack => trivial
  | @leaves k _ _ _ _ hat h =>
      have hcall := hw k
      rw [hat] at hcall
      refine hgoOn ?_
      rcases hcall with rfl | ⟨call', rfl⟩
      · cases h with
        | leavesLast => exact .inr ⟨_, rfl⟩
        | leaves => trivial
      · cases h with
        | unsubscribes => exact .inr ⟨_, rfl⟩
        | left _ hend => rcases hend with ⟨-, rfl⟩ | ⟨-, rfl⟩ <;> trivial
  | cancels => exact hgoOn trivial
  | others hawaits =>
      intro k
      rw [hawaits]
      exact hw k

/-- Only a `join` that gets the lock brings a connection into the map. -/
theorem SocketsMove.of_mem_registered {w w' : Sockets κ} {e : SocketsEvent κ}
    (h : SocketsMove conversation w e w') (hw : w.CallsOwn conversation) {c : ConversationId}
    {k : κ} (hk : k ∈ w'.registered c) :
    k ∈ w.registered c ∨ w.replica.registry.lock = none ∧ w.LetsIn c k e := by
  cases h with
  | quiet => exact .inl hk
  | @joins k' _ lastSeenSeq _ _ _ hat h =>
      refine (h.of_mem_registered hk).imp_right ?_
      rintro ⟨hfree, rfl, rfl⟩
      have hcall := hw k'
      rw [hat] at hcall
      rcases hcall with heq | ⟨call', heq⟩ <;> cases heq
      exact ⟨hfree, rfl, lastSeenSeq, hat⟩
  | @leaves k' _ _ _ _ hat h =>
      refine (h.of_mem_registered hk).imp_right ?_
      rintro ⟨-, -, rfl⟩
      have hcall := hw k'
      rw [hat] at hcall
      rcases hcall with heq | ⟨call', heq⟩ <;> cases heq
  | cancels _ hmanager =>
      refine .inl ?_
      simp only [Sockets.registered, Sockets.goOn, hmanager] at hk
      exact hk
  | others _ _ hsub => exact .inl (hsub c hk)

/-- Where nobody is connected, the next `join` subscribes. -/
theorem subscribesNext_of_empty {w : Sockets κ} (hw : w.CallsOwn conversation) {c : ConversationId}
    (hempty : w.registered c = ∅) : w.SubscribesNext conversation c := by
  rintro es w₁ k e w₂ hrun hnone ⟨rfl, lastSeenSeq, hat⟩ hstep
  have hreached : w₁.CallsOwn conversation ∧ w₁.registered c = ∅ := by
    refine exec_invariant_of_stepsMeet (I := fun v => v.CallsOwn conversation ∧ v.registered c = ∅)
      (fun v e v' hv hout hstep => ?_) ⟨hw, hempty⟩ hnone hrun
    have hmove := step_move conversation hstep
    refine ⟨hmove.callsOwn hv.1, Finset.eq_empty_iff_forall_notMem.2 fun k' hk' => ?_⟩
    rcases hmove.of_mem_registered hv.1 hk' with hin | ⟨-, hlets⟩
    · rw [hv.2] at hin
      exact Finset.notMem_empty k' hin
    · exact hout k' hlets
  simp only [Sockets.step, hat] at hstep
  obtain ⟨⟨registry, call⟩, hcall, rfl⟩ := Option.map_eq_some_iff.1 hstep
  rw [Sockets.goOn_awaits_self]
  cases registryCall_move hcall with
  | joinsFirst => rfl
  | joins _ hothers => exact absurd hreached.2 hothers

/-- The lock of the registry is held from inside it, and a connection is in the map only while its
    handler owes an `unregister`. -/
structure SocketsInv (conversation : κ → ConversationId) (w : Sockets κ) : Prop where
  owned : LockOwned w.replica.registry.lock (Await.locked ∘ w.awaits)
  calls : w.CallsOwn conversation
  located : ∀ k c, k ∈ w.registered c → c = conversation k ∧ (w.awaits k).joined = true
  sole : ∀ k, (w.awaits k).subscribing = true → w.registered (conversation k) ⊆ {k}

namespace SocketsInv

omit [DecidableEq κ] in
theorem init : SocketsInv conversation (Sockets.init : Sockets κ) where
  owned := LockOwned.init
  calls _ := trivial
  located k c hk := absurd hk (Finset.notMem_empty k)
  sole k hsub := by cases hsub

variable {w w' : Sockets κ} {e : SocketsEvent κ}

omit [DecidableEq κ] in
/-- A connection whose handler has no `unregister` to come is not in the map. -/
theorem not_registered (hw : SocketsInv conversation w) {k : κ} (hk : (w.awaits k).joined = false)
    (c : ConversationId) : k ∉ w.registered c := by
  intro hin
  rw [(hw.located k c hin).2] at hk
  cases hk

omit [DecidableEq κ] in
theorem released (hw : SocketsInv conversation w) : w.Released := by
  intro k hk c
  exact hw.not_registered (by rw [hk]; rfl) c

omit [DecidableEq κ] in
theorem lock_of_subscribing (hw : SocketsInv conversation w) {k : κ}
    (hsub : (w.awaits k).subscribing = true) : w.replica.registry.lock = some k := by
  exact (hw.owned k).1 (Await.locked_of_subscribing hsub)

/-- While a `join` subscribes nobody else comes into the map. -/
theorem registered_subset (hw : SocketsInv conversation w) (h : SocketsMove conversation w e w')
    {k : κ} (hsub : (w.awaits k).subscribing = true) (c : ConversationId) :
    w'.registered c ⊆ w.registered c := by
  intro k' hk'
  rcases h.of_mem_registered hw.calls hk' with hin | ⟨hfree, -⟩
  · exact hin
  · cases hfree.symm.trans (hw.lock_of_subscribing hsub)

/-- A `join` that ends without returning has left nothing behind. -/
theorem rollsBack (hw : SocketsInv conversation w) (hw' : SocketsInv conversation w')
    (h : SocketsMove conversation w e w') : w.RollsBack conversation w' := by
  intro k lastSeenSeq call hat hend
  have hout : ∀ c, k ∉ w'.registered c :=
    hw'.not_registered (by rcases hend with hend | hend <;> rw [hend] <;> rfl)
  refine ⟨hout, fun hfirst => subscribesNext_of_empty hw'.calls ?_⟩
  refine hfirst.elim (fun hsub => ?_) id
  have hsubset := (hw.registered_subset h hsub _).trans (hw.sole k hsub)
  refine (Finset.subset_singleton_iff.1 hsubset).resolve_right fun heq => hout (conversation k) ?_
  rw [heq]
  exact Finset.mem_singleton_self k

end SocketsInv

theorem SocketsMove.owned {w w' : Sockets κ} {e : SocketsEvent κ}
    (h : SocketsMove conversation w e w') (hw : SocketsInv conversation w) :
    LockOwned w'.replica.registry.lock (Await.locked ∘ w'.awaits) := by
  have hgoOn : ∀ {k : κ} {registry : ConversationRegistry κ κ} {a : Await κ},
      LockMove k w.replica.registry.lock (w.awaits k).locked registry.lock a.locked →
      LockOwned (w.goOn k registry a).replica.registry.lock
        (Await.locked ∘ (w.goOn k registry a).awaits) := by
    intro k registry a hlock
    have hmove := hw.owned.move (o := k) hlock
    rwa [← Function.comp_update] at hmove
  cases h with
  | quiet h =>
      refine hgoOn ?_
      rw [Await.locked_of_outside h.outside, h.unlocked]
      exact .keeps _ _
  | joins hat h =>
      refine hgoOn ?_
      rw [hat, Await.afterJoin_locked]
      exact h.lock
  | leaves hat h =>
      refine hgoOn ?_
      rw [hat, Await.afterLeave_locked]
      exact h.lock
  | cancels hat _ hlock =>
      refine hgoOn ?_
      rw [Await.locked_of_registryCall hat]
      exact hlock
  | others hawaits hlock =>
      rw [hlock, hawaits]
      exact hw.owned

/-- A `join` that leaves its connection in the map goes on to serve it, or subscribes. -/
theorem RegistryMove.joined_afterJoin {c : ConversationId} {k : κ} {lastSeenSeq : Option Int}
    {step : RegistryStep} {s s' : ConversationRegistry κ κ} {call call' : RegistryCall κ}
    (h : RegistryMove k s step call s' call') (hcall : (Await.joining lastSeenSeq call).Calls c k)
    (hk : k ∈ s'.manager.registered c) : (Await.afterJoin lastSeenSeq call').joined = true := by
  rcases hcall with rfl | ⟨_, rfl⟩
  · cases h with
    | joinsFirst => rfl
    | joins => cases lastSeenSeq <;> rfl
  · cases h with
    | subscribes => rfl
    | joined => cases lastSeenSeq <;> rfl
    | rollsBack =>
        simp only [ConnectionManager.unregister_registered] at hk
        exact absurd hk (Finset.notMem_erase k _)

/-- A `leave` takes its connection out of the map as it gets the lock. -/
theorem RegistryMove.not_registered_leave {c : ConversationId} {k : κ} {step : RegistryStep}
    {s s' : ConversationRegistry κ κ} {call' : RegistryCall κ}
    (h : RegistryMove k s step (.waitingLeave c k) s' call') : k ∉ s'.manager.registered c := by
  cases h <;>
  · simp only [ConnectionManager.unregister_registered]
    exact Finset.notMem_erase k _

/-- A `join` that comes to subscribe has found the conversation without a connection. -/
theorem RegistryMove.registered_afterJoin {c : ConversationId} {k : κ} {lastSeenSeq : Option Int}
    {step : RegistryStep} {s s' : ConversationRegistry κ κ} {call call' : RegistryCall κ}
    (h : RegistryMove k s step call s' call') (hcall : (Await.joining lastSeenSeq call).Calls c k)
    (hsub : (Await.afterJoin lastSeenSeq call').subscribing = true) :
    (Await.joining lastSeenSeq call).subscribing = true ∨ s'.manager.registered c = {k} := by
  rcases hcall with rfl | ⟨_, rfl⟩
  · cases h with
    | joinsFirst _ hempty =>
        simp only [ConnectionManager.register_registered, hempty]
        exact .inr rfl
    | joins => cases lastSeenSeq <;> cases hsub
  · exact .inl rfl

/-- Who is still in the map after a step owes an `unregister` after it. -/
theorem SocketsMove.located {w w' : Sockets κ} {e : SocketsEvent κ}
    (h : SocketsMove conversation w e w') (hw : SocketsInv conversation w)
    (hspares : w.Spares conversation e) {k : κ} {c : ConversationId} (hk : k ∈ w'.registered c) :
    c = conversation k ∧ (w'.awaits k).joined = true := by
  have hc : c = conversation k := by
    rcases h.of_mem_registered hw.calls hk with hin | ⟨-, -, _, hat⟩
    · exact (hw.located k c hin).1
    · have hcall := hw.calls k
      rw [hat] at hcall
      rcases hcall with heq | ⟨_, heq⟩ <;> cases heq
      rfl
  subst hc
  refine ⟨rfl, ?_⟩
  have hbefore := h.of_mem_registered hw.calls hk
  -- a handler that does not move owes what it has owed
  have hother : ∀ {k₀ : κ} {registry : ConversationRegistry κ κ} {a : Await κ}, k ≠ k₀ →
      k ∈ w.registered (conversation k) → ((w.goOn k₀ registry a).awaits k).joined = true := by
    intro k₀ registry a hne hin
    rw [Sockets.goOn_awaits_of_ne hne]
    exact (hw.located k _ hin).2
  cases h with
  | @quiet _ k₀ _ h =>
      rcases eq_or_ne k k₀ with rfl | hne
      · rw [Sockets.goOn_awaits_self]
        exact h.joined (hw.located k _ hk).2
      · exact hother hne hk
  | @joins k₀ _ _ _ _ _ hat h =>
      rcases eq_or_ne k k₀ with rfl | hne
      · rw [Sockets.goOn_awaits_self]
        exact h.joined_afterJoin (hat ▸ hw.calls k) hk
      · rcases hbefore with hin | ⟨-, heq, -⟩
        · exact hother hne hin
        · cases heq
          exact absurd rfl hne
  | @leaves k₀ _ call _ _ hat h =>
      rcases hbefore with hin | ⟨-, heq, _, hat'⟩
      · rcases eq_or_ne k k₀ with rfl | hne
        · have hjoined := (hw.located k _ hin).2
          have hcall := hw.calls k
          rw [hat] at hjoined hcall
          rcases hcall with rfl | ⟨_, rfl⟩
          · exact absurd hk h.not_registered_leave
          · cases hjoined
        · exact hother hne hin
      · cases heq
        cases hat.symm.trans hat'
  | @cancels k₀ _ call _ hat hmanager =>
      simp only [Sockets.registered, Sockets.goOn, hmanager] at hk
      rcases eq_or_ne k k₀ with rfl | hne
      · exact absurd hk (hspares (Await.exposed_of_joined hat (hw.located k _ hk).2))
      · exact hother hne hk
  | others hawaits _ hsub =>
      rw [hawaits]
      exact (hw.located k _ (hsub _ hk)).2

theorem SocketsMove.sole {w w' : Sockets κ} {e : SocketsEvent κ}
    (h : SocketsMove conversation w e w') (hw : SocketsInv conversation w) {k : κ}
    (hsub : (w'.awaits k).subscribing = true) : w'.registered (conversation k) ⊆ {k} := by
  by_cases hbefore : (w.awaits k).subscribing = true
  · exact (hw.registered_subset h hbefore _).trans (hw.sole k hbefore)
  -- the `join` has just got the lock
  have hmover : ∀ {k₀ : κ} {registry : ConversationRegistry κ κ} {a : Await κ},
      ((w.goOn k₀ registry a).awaits k).subscribing = true → k = k₀ ∧ a.subscribing = true := by
    intro k₀ registry a hsub
    rcases eq_or_ne k k₀ with rfl | hne
    · rw [Sockets.goOn_awaits_self] at hsub
      exact ⟨rfl, hsub⟩
    · rw [Sockets.goOn_awaits_of_ne hne] at hsub
      exact absurd hsub hbefore
  cases h with
  | quiet h =>
      have hlocked := Await.locked_of_subscribing (hmover hsub).2
      rw [h.unlocked] at hlocked
      cases hlocked
  | joins hat h =>
      obtain ⟨rfl, hsub'⟩ := hmover hsub
      rcases h.registered_afterJoin (hat ▸ hw.calls k) hsub' with hin | hsole
      · rw [hat] at hbefore
        exact absurd hin hbefore
      · exact hsole.subset
  | @leaves _ _ _ call' _ _ h =>
      have hsub := (hmover hsub).2
      cases call' <;> cases hsub
  | cancels => cases (hmover hsub).2
  | others hawaits =>
      rw [hawaits] at hsub
      exact absurd hsub hbefore

theorem SocketsInv.step {w w' : Sockets κ} {e : SocketsEvent κ} (hw : SocketsInv conversation w)
    (hspares : w.Spares conversation e) (h : Sockets.step conversation w e = some w') :
    SocketsInv conversation w' := by
  have hmove := step_move conversation h
  exact ⟨hmove.owned hw, hmove.callsOwn hw.calls, fun k c hk => hmove.located hw hspares hk,
    fun k hsub => hmove.sole hw hsub⟩

/-- A cancellation that is not spared leaves the connection of a handler that has ended. -/
theorem not_released {w w' : Sockets κ} {e : SocketsEvent κ} (hspares : ¬ w.Spares conversation e)
    (h : Sockets.step conversation w e = some w') : ¬ w'.Released := by
  cases step_move conversation h with
  | quiet _ hspared | others _ _ _ hspared => exact absurd hspared hspares
  | joins | leaves => exact absurd trivial hspares
  | @cancels k _ _ registry hat hmanager hlock =>
      obtain ⟨-, hin⟩ := Classical.not_imp.1 hspares
      rw [not_not] at hin
      intro hreleased
      refine hreleased k (Sockets.goOn_awaits_self ..) (conversation k) ?_
      simp only [Sockets.registered, Sockets.goOn, hmanager]
      exact hin

end Invariant

/-! ## Every way out -/

/-- A handler ends with its connection out of the map, and a failed `join` leaves nothing behind, in
    exactly the runs that spare the registered connections a cancellation inside `subscribe` or at
    the lock of `leave`. -/
theorem handler_releases_iff [DecidableEq κ] (conversation : κ → ConversationId)
    {es : List (SocketsEvent κ)} {w : Sockets κ}
    (h : exec (Sockets.step conversation) Sockets.init es = some w) :
    StepsMeet (Sockets.step conversation) (Sockets.Releases conversation) Sockets.init es ↔
      StepsMeet (Sockets.step conversation) (Sockets.Spares conversation) Sockets.init es := by
  refine stepsMeet_congr (fun w e w' hw hspares hstep => hw.step hspares hstep)
    (fun w e w' hw hstep => ⟨fun hreleases => ?_, fun hspares w₁ hw₁ => ?_⟩) SocketsInv.init h
  · by_contra hspares
    exact not_released hspares hstep (hreleases w' hstep).1
  · have hw' := hw.step hspares hw₁
    exact ⟨hw'.released, hw.rollsBack hw' (step_move conversation hw₁)⟩

/-- A socket comes as far as the lock of the registry, without a cursor, and takes it. -/
def comesToJoin (k : Bool) : List (SocketsEvent Bool) :=
  [.returned k .accepted, .returned k (.authenticated none), .returned k .ensured,
    .returned k .sent, .registry k .acquire]

/-- The `subscribe` of its `join` returns. -/
def subscribes (k : Bool) : List (SocketsEvent Bool) :=
  [.registry k (.subscriber .acquire), .registry k (.subscriber (.redis true))]

/-- A socket is cancelled in the loop, and its `leave` runs to its end. -/
theorem handler_releases_cancelledLoop : ∃ w,
    exec (Sockets.step fun _ : Bool => ⟨0⟩) Sockets.init (comesToJoin false ++ subscribes false ++
      [.cancelled false false, .registry false .acquire, .registry false (.subscriber .acquire),
        .registry false (.subscriber (.redis true))]) = some w ∧ w.awaits false = .ended ∧
    StepsMeet (Sockets.step fun _ : Bool => ⟨0⟩) (Sockets.Releases fun _ => ⟨0⟩) Sockets.init
      (comesToJoin false ++ subscribes false ++
        [.cancelled false false, .registry false .acquire, .registry false (.subscriber .acquire),
          .registry false (.subscriber (.redis true))]) := by
  obtain ⟨w, hrun, hended⟩ := exec_reaches (Sockets.step fun _ : Bool => ⟨0⟩) Sockets.init
    (comesToJoin false ++ subscribes false ++
      [.cancelled false false, .registry false .acquire, .registry false (.subscriber .acquire),
        .registry false (.subscriber (.redis true))])
    (fun w => w.awaits false = .ended) (by decide)
  exact ⟨w, hrun, hended, (handler_releases_iff _ hrun).2 (by decide)⟩

/-- Cancelled inside `subscribe`: the handler ends in the map, and the next `join` does not
    subscribe. Cancelled as `leave` waits for the `join` of another conversation: the handler ends in
    the map, too. -/
theorem handler_leaks :
    (∃ w, exec (Sockets.step fun _ : Bool => ⟨0⟩) Sockets.init
        (comesToJoin false ++ .cancelled false false :: comesToJoin true) = some w ∧
      ¬ w.Released ∧ w.awaits true = .receiving ∧
      w.replica.registry.subscriber.channels = ∅) ∧
    ∃ w, exec (Sockets.step fun k : Bool => if k then ⟨1⟩ else ⟨0⟩) Sockets.init
        (comesToJoin false ++ subscribes false ++ comesToJoin true ++
          [.raised false .webSocketDisconnect, .cancelled false false]) = some w ∧
      ¬ w.Released := by
  constructor
  · obtain ⟨w, hrun, hended, hin, hjoined, hchannels⟩ := exec_reaches
      (Sockets.step fun _ : Bool => ⟨0⟩) Sockets.init
      (comesToJoin false ++ .cancelled false false :: comesToJoin true)
      (fun w => w.awaits false = .ended ∧ false ∈ w.registered ⟨0⟩ ∧ w.awaits true = .receiving ∧
        w.replica.registry.subscriber.channels = ∅) (by decide)
    exact ⟨w, hrun, fun hreleased => hreleased false hended _ hin, hjoined, hchannels⟩
  · obtain ⟨w, hrun, hended, hin⟩ := exec_reaches
      (Sockets.step fun k : Bool => if k then ⟨1⟩ else ⟨0⟩) Sockets.init
      (comesToJoin false ++ subscribes false ++ comesToJoin true ++
        [.raised false .webSocketDisconnect, .cancelled false false])
      (fun w => w.awaits false = .ended ∧ false ∈ w.registered ⟨0⟩) (by decide)
    exact ⟨w, hrun, fun hreleased => hreleased false hended _ hin⟩

end Dizzchat
