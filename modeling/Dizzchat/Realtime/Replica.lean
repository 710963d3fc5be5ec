import Dizzchat.Realtime.Registry

set_option autoImplicit false

/-! # A replica

The registry of a replica and the reader task that delivers what its subscriber receives through
`ConnectionManager.broadcast`. The reader leaves the map and the channels alone; a broadcast takes
dead connections out of the map, and breaks nothing unless it takes the last ones of a
conversation. -/

namespace Dizzchat

open Transition

structure Replica (κ τ : Type*) where
  registry : ConversationRegistry κ τ
  reader : Reader (Broadcast κ)

variable {κ τ : Type*} [DecidableEq κ]

namespace Replica

def init : Replica κ τ := ⟨⟨ConnectionManager.init, Subscriber.init, none⟩, .top⟩

/-- `_deliver` starts a broadcast of the message. -/
def read (step : ReaderStep) (r : Replica κ τ) : Option (Replica κ τ) :=
  (RedisConversationSubscriber.run
      (fun message => r.registry.manager.broadcast message.conversationId message)
      step r.registry.subscriber r.reader).map fun (subscriber, reader) =>
    { registry := { r.registry with subscriber }, reader }

/-- Where the reader goes on after a send of its broadcast. -/
def afterSend : Option (Broadcast κ) → Reader (Broadcast κ)
  | some b => .delivering b
  | none => .top

/-- A send of the broadcast the reader waits for comes back. -/
def delivered (k : κ) (succeeds : Bool) (r : Replica κ τ) : Option (Replica κ τ) :=
  match r.reader with
  | .delivering b => (b.sent k succeeds r.registry.manager).map fun (manager, b) =>
      { registry := { r.registry with manager }, reader := afterSend b }
  | _ => none

def publish (message : Message) (r : Replica κ τ) : Replica κ τ :=
  { r with registry := { r.registry with subscriber := { r.registry.subscriber with
      pubsub := r.registry.subscriber.pubsub.publish message } } }

end Replica

/-! ## Dropping the last connection -/

/-- The send to `k` ends the broadcast, and every connection the conversation has is dead. -/
def Broadcast.dropsLast (k : κ) (succeeds : Bool) (b : Broadcast κ) (m : ConnectionManager κ) :
    Prop :=
  b.todo = {k} ∧ m.registered b.conversationId ≠ ∅ ∧
    m.registered b.conversationId ⊆ (b.deadAfter k succeeds).toFinset

instance (k : κ) (succeeds : Bool) (b : Broadcast κ) (m : ConnectionManager κ) :
    Decidable (b.dropsLast k succeeds m) :=
  inferInstanceAs (Decidable (_ ∧ _ ∧ _))

/-- A broadcast takes connections out of the map, and adds none. -/
theorem BroadcastMove.registered_subset {k : κ} {succeeds : Bool} {b : Broadcast κ}
    {m m' : ConnectionManager κ} {b' : Option (Broadcast κ)}
    (h : BroadcastMove k succeeds b m m' b') (c : ConversationId) :
    m'.registered c ⊆ m.registered c := by
  cases h with
  | goesOn => exact Finset.Subset.refl _
  | finishes =>
      rcases eq_or_ne c b.conversationId with rfl | hc
      · rw [ConnectionManager.drop_registered]
        exact Finset.sdiff_subset
      · rw [ConnectionManager.drop_registered_of_ne hc]

/-- A broadcast takes connections out of the map, and of no conversation all of them unless it
    drops the last ones. -/
theorem BroadcastMove.keeps {k : κ} {succeeds : Bool} {b : Broadcast κ} {m m' : ConnectionManager κ}
    {b' : Option (Broadcast κ)} (h : BroadcastMove k succeeds b m m' b')
    (hdrop : ¬ b.dropsLast k succeeds m) (c : ConversationId) :
    m'.registered c ⊆ m.registered c ∧ (m'.registered c = ∅ → m.registered c = ∅) := by
  refine ⟨h.registered_subset c, fun he => ?_⟩
  cases h with
  | goesOn => exact he
  | finishes htodo =>
      rcases eq_or_ne c b.conversationId with rfl | hc
      · rw [ConnectionManager.drop_registered] at he
        by_contra hne
        exact hdrop ⟨htodo, hne, Finset.sdiff_eq_empty_iff_subset.1 he⟩
      · rwa [ConnectionManager.drop_registered_of_ne hc] at he

/-- A broadcast that drops the last connections leaves its conversation without one. -/
theorem BroadcastMove.empties {k : κ} {succeeds : Bool} {b : Broadcast κ} {m m' : ConnectionManager κ}
    {b' : Option (Broadcast κ)} (h : BroadcastMove k succeeds b m m' b')
    (hdrop : b.dropsLast k succeeds m) : m'.registered b.conversationId = ∅ := by
  cases h with
  | goesOn _ hmore => exact absurd hdrop.1 hmore
  | finishes =>
      rw [ConnectionManager.drop_registered]
      exact Finset.sdiff_eq_empty_iff_subset.2 hdrop.2.2

/-! ## What the reader does to the registry -/

omit [DecidableEq κ] in
theorem registryInv_init :
    RegistryInv (Replica.init : Replica κ τ).registry fun _ => RegistryCall.returned := by
  refine ⟨LockOwned.init, fun c => ?_⟩
  exact ConversationRegistry.matches_of_empty rfl (Finset.notMem_empty _)

/-- The reader task touches neither the map nor the channels. -/
theorem registryInv_read {r r' : Replica κ τ} {calls : τ → RegistryCall κ} {step : ReaderStep}
    (hr : RegistryInv r.registry calls) (h : r.read step = some r') :
    RegistryInv r'.registry calls := by
  obtain ⟨⟨subscriber, reader⟩, hrun, rfl⟩ := Option.map_eq_some_iff.1 h
  exact registryInv_shrink hr rfl (run_move hrun).channels_eq (fun c => Finset.Subset.refl _)
    (fun c => id)

theorem registryInv_sent {s : ConversationRegistry κ τ} {calls : τ → RegistryCall κ}
    (hs : RegistryInv s calls) {k : κ} {succeeds : Bool} {b : Broadcast κ}
    (hdrop : ¬ b.dropsLast k succeeds s.manager) {m : ConnectionManager κ}
    {b' : Option (Broadcast κ)} (h : b.sent k succeeds s.manager = some (m, b')) :
    RegistryInv { s with manager := m } calls :=
  registryInv_shrink hs rfl rfl (fun c => ((sent_move h).keeps hdrop c).1)
    (fun c => ((sent_move h).keeps hdrop c).2)

/-- A send that comes back belongs to the broadcast the reader waits for. -/
theorem delivered_eq_some {r r' : Replica κ τ} {k : κ} {succeeds : Bool}
    (h : r.delivered k succeeds = some r') :
    ∃ b m b', r.reader = .delivering b ∧ b.sent k succeeds r.registry.manager = some (m, b') ∧
      r' = { registry := { r.registry with manager := m }, reader := Replica.afterSend b' } := by
  unfold Replica.delivered at h
  split at h
  · next b hreader =>
      obtain ⟨⟨m, b'⟩, hsent, rfl⟩ := Option.map_eq_some_iff.1 h
      exact ⟨b, m, b', hreader, hsent, rfl⟩
  · cases h

end Dizzchat
