import Dizzchat.Messaging.PostMessage
import Dizzchat.Realtime.Replica

set_option autoImplicit false

/-! # Subscriptions and presence

One replica among any number of `join` and `leave` calls, and any number of broadcasts besides those
of its reader.

`subscription_matchesPresence`: while the lock of the registry is free, a conversation has a
connection exactly when its channel is subscribed, as long as no broadcast drops the last connection
of a conversation. Nothing unsubscribes after such a drop. -/

namespace Dizzchat

open Transition

/-! ## The replica among its sockets -/

variable {κ τ β : Type*} [DecidableEq κ]

/-- A replica, the `join` and `leave` calls of `τ`, and the broadcasts of `β` besides the reader's. -/
structure PresenceWorld (κ τ β : Type*) where
  replica : Replica κ τ
  calls : τ → RegistryCall κ
  broadcasts : β → Option (Broadcast κ)

inductive PresenceEvent (κ τ β : Type*)
  | join (t : τ) (conversationId : ConversationId) (connection : κ)
  | leave (t : τ) (conversationId : ConversationId) (connection : κ)
  | call (t : τ) (step : RegistryStep)
  | reader (step : ReaderStep)
  | delivered (connection : κ) (succeeds : Bool)
  | broadcast (i : β) (conversationId : ConversationId) (message : Message)
  | sent (i : β) (connection : κ) (succeeds : Bool)
  | published (message : Message)

namespace PresenceWorld

def init : PresenceWorld κ τ β := ⟨Replica.init, fun _ => .returned, fun _ => none⟩

variable [DecidableEq τ] [DecidableEq β]

def step (w : PresenceWorld κ τ β) : PresenceEvent κ τ β → Option (PresenceWorld κ τ β)
  | .join t c k => if (w.calls t).hasEnded then
      some { w with calls := Function.update w.calls t (.waitingJoin c k) } else none
  | .leave t c k => if (w.calls t).hasEnded then
      some { w with calls := Function.update w.calls t (.waitingLeave c k) } else none
  | .call t step =>
      (ConversationRegistry.call t step w.replica.registry (w.calls t)).map fun (registry, call) =>
        { w with replica := { w.replica with registry }, calls := Function.update w.calls t call }
  | .reader step => (w.replica.read step).map fun replica => { w with replica }
  | .delivered k succeeds =>
      (w.replica.delivered k succeeds).map fun replica => { w with replica }
  | .broadcast i c message => match w.broadcasts i with
      | none =>
          let broadcast := w.replica.registry.manager.broadcast c message
          some { w with broadcasts := Function.update w.broadcasts i broadcast }
      | some _ => none
  | .sent i k succeeds => match w.broadcasts i with
      | none => none
      | some b => (b.sent k succeeds w.replica.registry.manager).map fun (manager, b) =>
          let registry := { w.replica.registry with manager }
          { w with replica := { w.replica with registry }
                   broadcasts := Function.update w.broadcasts i b }
  | .published message => some { w with replica := w.replica.publish message }

end PresenceWorld

/-! ## When presence is kept -/

/-- The send, if the event is one: the broadcast it belongs to, and how it ends. -/
def PresenceWorld.send (w : PresenceWorld κ τ β) :
    PresenceEvent κ τ β → Option (Broadcast κ × κ × Bool)
  | .delivered k succeeds => match w.replica.reader with
      | .delivering b => some (b, k, succeeds)
      | _ => none
  | .sent i k succeeds => (w.broadcasts i).map fun b => (b, k, succeeds)
  | _ => none

/-- The event does not end a broadcast that drops the last connection of its conversation. -/
def PresenceWorld.KeepsPresence (w : PresenceWorld κ τ β) (e : PresenceEvent κ τ β) : Prop :=
  ∀ s ∈ w.send e, ¬ s.1.dropsLast s.2.1 s.2.2 w.replica.registry.manager

instance (w : PresenceWorld κ τ β) (e : PresenceEvent κ τ β) : Decidable (w.KeepsPresence e) :=
  inferInstanceAs (Decidable (∀ s ∈ w.send e, _))

omit [DecidableEq κ] in
theorem RegistryCall.not_locked_of_hasEnded {l : RegistryCall κ} (h : l.hasEnded = true) :
    l.locked = false := by
  cases l <;> first | rfl | cases h

variable [DecidableEq τ] [DecidableEq β]

theorem registryInv_step {w w' : PresenceWorld κ τ β} {e : PresenceEvent κ τ β}
    (hw : RegistryInv w.replica.registry w.calls) (hkeep : w.KeepsPresence e)
    (h : w.step e = some w') : RegistryInv w'.replica.registry w'.calls := by
  cases e with
  | join t c k | leave t c k =>
      obtain ⟨hended, heq⟩ := Option.ite_none_right_eq_some.1 h
      cases heq
      exact registryInv_start hw (RegistryCall.not_locked_of_hasEnded hended) rfl
  | call t step =>
      obtain ⟨⟨registry, call⟩, hcall, rfl⟩ := Option.map_eq_some_iff.1 h
      exact registryInv_call hw (registryCall_move hcall)
  | reader step =>
      obtain ⟨replica, hread, rfl⟩ := Option.map_eq_some_iff.1 h
      exact registryInv_read hw hread
  | delivered k succeeds =>
      obtain ⟨replica, hdelivered, rfl⟩ := Option.map_eq_some_iff.1 h
      obtain ⟨b, m, b', hreader, hsent, rfl⟩ := delivered_eq_some hdelivered
      exact registryInv_sent hw (hkeep (b, k, succeeds) (by simp [PresenceWorld.send, hreader])) hsent
  | broadcast i c message =>
      simp only [PresenceWorld.step] at h
      split at h <;> cases h
      exact hw
  | sent i k succeeds =>
      simp only [PresenceWorld.step] at h
      split at h
      · cases h
      · next b hb =>
          obtain ⟨⟨m, b'⟩, hsent, rfl⟩ := Option.map_eq_some_iff.1 h
          exact registryInv_sent hw (hkeep (b, k, succeeds) (by simp [PresenceWorld.send, hb])) hsent
  | published message =>
      cases h
      exact registryInv_shrink hw rfl rfl (fun c => Finset.Subset.refl _) (fun c => id)

/-- In a run in which no broadcast drops the last connection of a conversation, a conversation has a
    connection exactly when its channel is subscribed, whenever the lock of the registry is free. -/
theorem subscription_matchesPresence {w : PresenceWorld κ τ β} {es : List (PresenceEvent κ τ β)}
    (h : exec PresenceWorld.step PresenceWorld.init es = some w)
    (hkeep : StepsMeet PresenceWorld.step PresenceWorld.KeepsPresence PresenceWorld.init es)
    (hfree : w.replica.registry.lock = none) (c : ConversationId) :
    w.replica.registry.manager.registered c ≠ ∅ ↔
      conversationChannel c ∈ w.replica.registry.subscriber.channels := by
  have hw : RegistryInv w.replica.registry w.calls :=
    exec_invariant_of_stepsMeet (I := fun w => RegistryInv w.replica.registry w.calls)
      (fun w e w' => registryInv_step) registryInv_init hkeep h
  exact hw.matches hfree c

/-- The condition is exact: a broadcast that drops the last connection of a conversation while the
    lock is free leaves it subscribed. -/
theorem subscribedButEmpty_of_drop {w w' : PresenceWorld κ τ β} {e : PresenceEvent κ τ β}
    (hw : RegistryInv w.replica.registry w.calls) (hfree : w.replica.registry.lock = none)
    (hdrop : ¬ w.KeepsPresence e) (h : w.step e = some w') :
    ∃ c, w'.replica.registry.manager.registered c = ∅ ∧
      conversationChannel c ∈ w'.replica.registry.subscriber.channels := by
  simp only [PresenceWorld.KeepsPresence, not_forall, not_not] at hdrop
  obtain ⟨⟨b, k, succeeds⟩, hsend, hlast⟩ := hdrop
  have hsubscribed := (hw.matches hfree b.conversationId).1 hlast.2.1
  cases e with
  | delivered k' succeeds' =>
      obtain ⟨replica, hdelivered, rfl⟩ := Option.map_eq_some_iff.1 h
      obtain ⟨b₀, m, b', hreader, hsent, rfl⟩ := delivered_eq_some hdelivered
      simp only [PresenceWorld.send, hreader] at hsend
      cases hsend
      exact ⟨b.conversationId, (sent_move hsent).empties hlast, hsubscribed⟩
  | sent i k' succeeds' =>
      simp only [PresenceWorld.step] at h
      simp only [PresenceWorld.send] at hsend
      split at h
      · cases h
      · next b₀ hb =>
          obtain ⟨⟨m, b'⟩, hsent, rfl⟩ := Option.map_eq_some_iff.1 h
          rw [hb] at hsend
          cases hsend
          exact ⟨b.conversationId, (sent_move hsent).empties hlast, hsubscribed⟩
  | join | leave | call | reader | broadcast | published => cases hsend

/-- One socket joins, and a message for it is published, read and sent. -/
def sentToOnlySocket (succeeds : Bool) : List (PresenceEvent Unit Unit Empty) :=
  [.join () helloRequest.conversationId (), .call () .acquire, .call () (.subscriber .acquire),
    .call () (.subscriber (.redis true)),
    .published (PostMessage.userMessage helloRequest 1 ⟨0, 0⟩),
    .reader .turn, .reader .acquire, .reader (.read .message), .delivered () succeeds]

theorem subscription_matchesPresence_sent :
    ∃ w : PresenceWorld Unit Unit Empty,
      exec PresenceWorld.step PresenceWorld.init (sentToOnlySocket true) = some w ∧
        (w.replica.registry.manager.registered helloRequest.conversationId ≠ ∅ ↔
          conversationChannel helloRequest.conversationId ∈
            w.replica.registry.subscriber.channels) := by
  obtain ⟨w, hrun, hfree⟩ := exec_reaches PresenceWorld.step PresenceWorld.init
    (sentToOnlySocket true) (fun w => w.replica.registry.lock = none) (by decide)
  exact ⟨w, hrun, subscription_matchesPresence hrun (by decide) hfree _⟩

/-- The send to the only socket fails: the broadcast drops it, and the channel stays subscribed. -/
theorem subscription_outlivesPresence :
    ∃ w : PresenceWorld Unit Unit Empty,
      exec PresenceWorld.step PresenceWorld.init (sentToOnlySocket false) = some w ∧
        w.replica.registry.lock = none ∧
        w.replica.registry.manager.registered helloRequest.conversationId = ∅ ∧
        conversationChannel helloRequest.conversationId ∈ w.replica.registry.subscriber.channels :=
  exec_reaches PresenceWorld.step PresenceWorld.init _ _ (by decide)

end Dizzchat
