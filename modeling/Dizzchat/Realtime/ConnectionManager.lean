import Dizzchat.Messaging.Message
import Mathlib.Data.Finset.Basic
import Mathlib.Data.Finset.Dedup

set_option autoImplicit false

/-! # The connections of a replica

`ConnectionManager`: the map from a conversation to its live connections, `register` and
`unregister`, and `broadcast`. A broadcast sends to a snapshot, one connection after another, and
drops the connections that failed when the last send has come back; others run between the sends. -/

namespace Dizzchat

variable {κ : Type*}

/-- The `_connections` map. A conversation is mapped only while it has a connection. -/
structure ConnectionManager (κ : Type*) where
  connections : ConversationId → Option (Finset κ)
  nonempty : ∀ c ks, connections c = some ks → ks.Nonempty

namespace ConnectionManager

def init : ConnectionManager κ where
  connections _ := none
  nonempty _ _ h := by cases h

/-- The connections of a conversation. -/
def registered (c : ConversationId) (m : ConnectionManager κ) : Finset κ :=
  (m.connections c).getD ∅

/-- The map with other connections for one conversation. -/
def put (c : ConversationId) (ks : Option (Finset κ)) (h : ∀ s, ks = some s → s.Nonempty)
    (m : ConnectionManager κ) : ConnectionManager κ where
  connections := Function.update m.connections c ks
  nonempty c' s hs := by
    rcases eq_or_ne c' c with rfl | hc
    · exact h s (by rwa [Function.update_self] at hs)
    · exact m.nonempty c' s (by rwa [Function.update_of_ne hc] at hs)

variable [DecidableEq κ]

/-- `register`: whether the connection is the first of its conversation. -/
def register (c : ConversationId) (k : κ) (m : ConnectionManager κ) : ConnectionManager κ × Bool :=
  let connections := (m.connections c).getD ∅
  (m.put c (some (insert k connections)) (by rintro s ⟨⟩; exact Finset.insert_nonempty k _),
    decide (connections = ∅))

/-- `unregister`: whether the connection was the last of its conversation. -/
def unregister (c : ConversationId) (k : κ) (m : ConnectionManager κ) :
    ConnectionManager κ × Bool :=
  match m.connections c with
  | none => (m, false)
  | some connections =>
      if h : (connections.erase k).Nonempty then
        (m.put c (some (connections.erase k)) (by rintro s ⟨⟩; exact h), false)
      else (m.put c none (by rintro s ⟨⟩), true)

/-! ## The map as a family of sets -/

omit [DecidableEq κ] in
@[simp]
theorem registered_put_self (c : ConversationId) (ks : Option (Finset κ))
    (h : ∀ s, ks = some s → s.Nonempty) (m : ConnectionManager κ) :
    (m.put c ks h).registered c = ks.getD ∅ := by
  simp [registered, put]

omit [DecidableEq κ] in
theorem registered_put_of_ne {c c' : ConversationId} (hc : c' ≠ c) (ks : Option (Finset κ))
    (h : ∀ s, ks = some s → s.Nonempty) (m : ConnectionManager κ) :
    (m.put c ks h).registered c' = m.registered c' := by
  simp [registered, put, hc]

theorem register_registered (c : ConversationId) (k : κ) (m : ConnectionManager κ) :
    ((m.register c k).1).registered c = insert k (m.registered c) := by
  simp only [register]
  rw [registered_put_self]
  rfl

theorem register_registered_of_ne {c c' : ConversationId} (hc : c' ≠ c) (k : κ)
    (m : ConnectionManager κ) : ((m.register c k).1).registered c' = m.registered c' := by
  simp [register, registered_put_of_ne hc]

theorem register_first (c : ConversationId) (k : κ) (m : ConnectionManager κ) :
    (m.register c k).2 = true ↔ m.registered c = ∅ := by
  simp [register, registered]

theorem unregister_registered (c : ConversationId) (k : κ) (m : ConnectionManager κ) :
    ((m.unregister c k).1).registered c = (m.registered c).erase k := by
  unfold unregister
  split
  · next h => simp [registered, h]
  · next h =>
      split
      · rw [registered_put_self]
        simp [registered, h]
      · next hempty =>
          rw [registered_put_self]
          simpa [registered, h] using (Finset.not_nonempty_iff_eq_empty.1 hempty).symm

theorem unregister_registered_of_ne {c c' : ConversationId} (hc : c' ≠ c) (k : κ)
    (m : ConnectionManager κ) : ((m.unregister c k).1).registered c' = m.registered c' := by
  unfold unregister
  split
  · rfl
  · split <;> simp [registered_put_of_ne hc]

theorem unregister_registered_subset (c c' : ConversationId) (k : κ) (m : ConnectionManager κ) :
    ((m.unregister c k).1).registered c' ⊆ m.registered c' := by
  rcases eq_or_ne c' c with rfl | hc
  · rw [unregister_registered]
    exact Finset.erase_subset _ _
  · exact (unregister_registered_of_ne hc k m).subset

/-- Only the removal of a sole connection is a last leave. -/
theorem unregister_last (c : ConversationId) (k : κ) (m : ConnectionManager κ) :
    (m.unregister c k).2 = true ↔ m.registered c = {k} := by
  unfold unregister
  split
  · next h => simp [registered, h]
  · next ks h =>
      have hks : ks.Nonempty := m.nonempty c ks h
      split
      · next hrest =>
          simp only [registered, h, Option.getD_some, Bool.false_eq_true, false_iff]
          rintro rfl
          rw [Finset.erase_singleton] at hrest
          exact Finset.not_nonempty_empty hrest
      · next hrest =>
          simp only [registered, h, Option.getD_some, true_iff]
          rw [Finset.not_nonempty_iff_eq_empty, Finset.erase_eq_empty_iff] at hrest
          exact hrest.resolve_left hks.ne_empty

end ConnectionManager

/-! ## Broadcasting -/

/-- A `broadcast` between two sends. -/
structure Broadcast (κ : Type*) where
  conversationId : ConversationId
  message : Message
  /-- The connections of the snapshot that the frame has still to be sent to. -/
  todo : Finset κ
  dead : List κ
deriving DecidableEq

variable [DecidableEq κ]

namespace ConnectionManager

/-- `broadcast` up to its first send; it returns at once when there is nobody to send to. -/
def broadcast (c : ConversationId) (message : Message) (m : ConnectionManager κ) :
    Option (Broadcast κ) :=
  -- connections that register from here on are not in the snapshot
  let connections := (m.connections c).getD ∅
  if connections = ∅ then none else some ⟨c, message, connections, []⟩

/-- The loop over `dead` at the end of a broadcast. -/
def drop (c : ConversationId) (dead : List κ) (m : ConnectionManager κ) : ConnectionManager κ :=
  dead.foldl (fun m k => (m.unregister c k).1) m

end ConnectionManager

/-- The `dead` list after the send to `k`. -/
def Broadcast.deadAfter (k : κ) (succeeds : Bool) (b : Broadcast κ) : List κ :=
  if succeeds then b.dead else b.dead ++ [k]

/-- The send to `k` succeeds or raises. After the last one the dead connections are dropped and the
    broadcast is over. -/
def Broadcast.sent (k : κ) (succeeds : Bool) (b : Broadcast κ) (m : ConnectionManager κ) :
    Option (ConnectionManager κ × Option (Broadcast κ)) :=
  if k ∈ b.todo then
    if b.todo.erase k = ∅ then some (m.drop b.conversationId (b.deadAfter k succeeds), none)
    else some (m, some { b with todo := b.todo.erase k, dead := b.deadAfter k succeeds })
  else none

namespace ConnectionManager

theorem drop_registered (c : ConversationId) (dead : List κ) (m : ConnectionManager κ) :
    (m.drop c dead).registered c = m.registered c \ dead.toFinset := by
  induction dead generalizing m with
  | nil => simp [drop]
  | cons k dead ih =>
      have hrest := ih (m.unregister c k).1
      rw [unregister_registered] at hrest
      rw [List.toFinset_cons, Finset.sdiff_insert, ← Finset.erase_sdiff_comm]
      exact hrest

theorem drop_registered_of_ne {c c' : ConversationId} (hc : c' ≠ c) (dead : List κ)
    (m : ConnectionManager κ) : (m.drop c dead).registered c' = m.registered c' := by
  induction dead generalizing m with
  | nil => rfl
  | cons k dead ih => exact (ih _).trans (unregister_registered_of_ne hc k m)

theorem broadcast_eq_none {c : ConversationId} {message : Message} {m : ConnectionManager κ}
    (h : m.broadcast c message = none) : m.registered c = ∅ := by
  by_contra hne
  have hsome : m.broadcast c message = some ⟨c, message, m.registered c, []⟩ := if_neg hne
  cases hsome.symm.trans h

theorem broadcast_eq_some {c : ConversationId} {message : Message} {m : ConnectionManager κ}
    {b : Broadcast κ} (h : m.broadcast c message = some b) :
    m.registered c ≠ ∅ ∧ b = ⟨c, message, m.registered c, []⟩ := by
  obtain ⟨hne, heq⟩ := Option.ite_none_left_eq_some.1 h
  exact ⟨hne, (Option.some.inj heq).symm⟩

end ConnectionManager

/-- What a send that comes back can do: the broadcast goes on with the connection crossed off, or it
    is over and has dropped its dead connections. -/
inductive BroadcastMove (k : κ) (succeeds : Bool) (b : Broadcast κ) (m : ConnectionManager κ) :
    ConnectionManager κ → Option (Broadcast κ) → Prop
  | goesOn (hmem : k ∈ b.todo) (h : b.todo ≠ {k}) :
      BroadcastMove k succeeds b m m
        (some { b with todo := b.todo.erase k, dead := b.deadAfter k succeeds })
  | finishes (h : b.todo = {k}) :
      BroadcastMove k succeeds b m
        (m.drop b.conversationId (b.deadAfter k succeeds)) none

theorem sent_move {k : κ} {succeeds : Bool} {b : Broadcast κ} {m m' : ConnectionManager κ}
    {b' : Option (Broadcast κ)} (h : b.sent k succeeds m = some (m', b')) :
    BroadcastMove k succeeds b m m' b' := by
  unfold Broadcast.sent at h
  split at h
  · next hmem =>
      have hlast : b.todo.erase k = ∅ ↔ b.todo = {k} := by
        rw [Finset.erase_eq_empty_iff]
        exact or_iff_right (Finset.ne_empty_of_mem hmem)
      split at h <;> cases h
      · next he => exact .finishes (hlast.1 he)
      · next he => exact .goesOn hmem (fun heq => he (hlast.2 heq))
  · cases h

end Dizzchat
