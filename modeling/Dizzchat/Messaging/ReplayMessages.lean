import Dizzchat.Messaging.Message
import Dizzchat.Transition.Keyset

set_option autoImplicit false

/-! # Replaying what a client missed

`list_since` and the loop of `ReplayMessages.execute`, one turn for each page it reads. The turns of
one call read the rows committed at different moments, so a turn takes the rows it sees.

`turn_covers` carries every use of the loop: a committed message that is collected or still beyond
the cursor stays so, and at the end it is collected. A cursor is the parameter of a comparison with a
`BigInteger` column, and the driver refuses one that does not fit: `boundTurn` is the turn with that
in it, the same one for every cursor that can be bound. -/

namespace Dizzchat

open Transition

/-- `list_since`, among the committed rows. -/
def MessageRepository.listSince (conversationId : ConversationId) (after : Option MessageId)
    (limit : ℕ) (rows : List Message) : List Message :=
  Keyset.page (fun m : Message => m.id.value) (after.map MessageId.value) limit
    (rows.filter fun m => decide (m.conversationId = conversationId))

/-- `_REPLAY_PAGE_SIZE` -/
def replayPageSize : ℕ := 500

/-- A call of `ReplayMessages.execute` between two pages. -/
inductive Replay
  | reading (cursor : Option MessageId) (collected : List Message)
  | finished (collected : List Message)
deriving DecidableEq

/-- One turn of the loop of `ReplayMessages.execute`. -/
def ReplayMessages.turn (pageSize : ℕ) (conversationId : ConversationId) (rows : List Message)
    (cursor : Option MessageId) (collected : List Message) : Replay :=
  let page := MessageRepository.listSince conversationId cursor pageSize rows
  match page.getLast? with
  | none => .finished collected
  | some last =>
      if page.length < pageSize then .finished (collected ++ page)
      else .reading (some last.id) (collected ++ page)

/-- The messages a replay has collected. -/
def Replay.messages : Replay → List Message
  | .reading _ collected | .finished collected => collected

/-- A turn collects committed messages of its conversation. -/
theorem mem_turn {pageSize : ℕ} {conversationId : ConversationId} {rows collected : List Message}
    {cursor : Option MessageId} {m : Message}
    (h : m ∈ (ReplayMessages.turn pageSize conversationId rows cursor collected).messages) :
    m ∈ collected ∨ m ∈ rows ∧ m.conversationId = conversationId := by
  have hread : ∀ m ∈ MessageRepository.listSince conversationId cursor pageSize rows,
      m ∈ rows ∧ m.conversationId = conversationId := by
    intro m hm
    have hfilter := List.mem_filter.1 (Keyset.mem_of_mem_page hm).1
    exact ⟨hfilter.1, of_decide_eq_true hfilter.2⟩
  unfold ReplayMessages.turn at h
  simp only at h
  split at h
  · exact .inl h
  · split at h
    · exact (List.mem_append.1 h).imp_right (hread m)
    · exact (List.mem_append.1 h).imp_right (hread m)

/-- The message lies beyond the cursor. -/
def Message.isAfter (cursor : Option MessageId) (message : Message) : Bool :=
  Keyset.beyond (fun m : Message => m.id.value) (cursor.map MessageId.value) message

@[simp]
theorem Message.isAfter_some {cursor : MessageId} {message : Message} :
    message.isAfter (some cursor) = true ↔ cursor.value < message.id.value :=
  Keyset.beyond_some

/-- The replay has the message, or has still to come to it. -/
def Replay.Covers (message : Message) : Replay → Prop
  | .reading cursor collected => message ∈ collected ∨ message.isAfter cursor = true
  | .finished collected => message ∈ collected

/-- A message of the conversation beyond the cursor is on the page, or the page is full and the
    message lies beyond its last message. -/
theorem mem_listSince_or_isAfter {conversationId : ConversationId} {cursor : Option MessageId}
    (limit : ℕ) {rows : List Message} (hinj : ∀ a ∈ rows, ∀ b ∈ rows, a.id = b.id → a = b)
    {message : Message} (hmem : message ∈ rows) (hconv : message.conversationId = conversationId)
    (hafter : message.isAfter cursor = true) :
    message ∈ MessageRepository.listSince conversationId cursor limit rows ∨
      (MessageRepository.listSince conversationId cursor limit rows).length = limit ∧
        ∀ last ∈ MessageRepository.listSince conversationId cursor limit rows,
          message.isAfter (some last.id) = true := by
  simp only [Message.isAfter_some]
  refine Keyset.mem_page_or_lt limit (fun a ha b hb hab => ?_) ?_ hafter
  · exact hinj a (List.mem_of_mem_filter ha) b (List.mem_of_mem_filter hb)
      (congrArg MessageId.mk hab)
  · simpa [List.mem_filter] using ⟨hmem, hconv⟩

theorem turn_covers {pageSize : ℕ} (hsize : 0 < pageSize) {conversationId : ConversationId}
    {rows : List Message} (hinj : ∀ a ∈ rows, ∀ b ∈ rows, a.id = b.id → a = b)
    {cursor : Option MessageId} {collected : List Message} {message : Message}
    (hmem : message ∈ rows) (hconv : message.conversationId = conversationId)
    (h : (Replay.reading cursor collected).Covers message) :
    (ReplayMessages.turn pageSize conversationId rows cursor collected).Covers message := by
  have hnext : message ∈ collected ∨ _ :=
    h.imp_right fun hafter => mem_listSince_or_isAfter pageSize hinj hmem hconv hafter
  simp only [ReplayMessages.turn]
  generalize MessageRepository.listSince conversationId cursor pageSize rows = page at hnext ⊢
  split
  · next hempty =>
      -- an empty page is not a full one, so nothing of the conversation is left beyond the cursor
      rcases hnext with hin | hin | ⟨hfull, -⟩
      · exact hin
      · rw [List.getLast?_eq_none_iff.1 hempty] at hin
        exact absurd hin List.not_mem_nil
      · rw [List.getLast?_eq_none_iff.1 hempty, List.length_nil] at hfull
        omega
  · next last hlast =>
      split
      · next hshort =>
          rcases hnext with hin | hin | ⟨hfull, -⟩
          · exact List.mem_append_left _ hin
          · exact List.mem_append_right _ hin
          · omega
      · -- the next cursor is on this page, and the message is beyond all of the page
        rcases hnext with hin | hin | ⟨-, hbeyond⟩
        · exact .inl (List.mem_append_left _ hin)
        · exact .inl (List.mem_append_right _ hin)
        · exact .inr (hbeyond last (List.mem_of_getLast? hlast))

/-! ## Binding a cursor -/

/-- The values of a `BigInteger` column: -2⁶³ up to 2⁶³ - 1. -/
def BigInteger.Fits (value : Int) : Prop :=
  -9223372036854775808 ≤ value ∧ value ≤ 9223372036854775807

instance (value : Int) : Decidable (BigInteger.Fits value) :=
  inferInstanceAs (Decidable (_ ∧ _))

inductive DriverError
  /-- "value out of int64 range" -/
  | outOfRange (value : Int)
deriving DecidableEq

/-- The parameter for a column of type `BigInteger`. -/
def BigInteger.bind (value : Int) : Except DriverError Int :=
  if BigInteger.Fits value then .ok value else .error (.outOfRange value)

/-- The parameter of `id > after` or `id < before`, if the statement has one. -/
def bindCursor : Option MessageId → Except DriverError (Option MessageId)
  | none => .ok none
  | some cursor => (BigInteger.bind cursor.value).map fun value => some ⟨value⟩

/-- The cursor can be bound. -/
def Bindable (cursor : Option MessageId) : Prop := ∀ id ∈ cursor, BigInteger.Fits id.value

theorem bindCursor_eq_ok {cursor : Option MessageId} (h : Bindable cursor) :
    bindCursor cursor = .ok cursor := by
  cases cursor with
  | none => rfl
  | some id =>
      have hfits : BigInteger.Fits id.value := h id rfl
      simp [bindCursor, BigInteger.bind, hfits, Except.map]

theorem bindCursor_eq_error {value : Int} (h : ¬ BigInteger.Fits value) :
    bindCursor (some ⟨value⟩) = .error (.outOfRange value) := by
  simp [bindCursor, BigInteger.bind, h, Except.map]

/-! ## The loop under the driver -/

section Bound

variable {pageSize : ℕ} {conversationId : ConversationId}

/-- `list_since`, with its cursor bound. -/
def SqlAlchemyMessageRepository.boundSince (conversationId : ConversationId)
    (after : Option MessageId) (limit : ℕ) (rows : List Message) :
    Except DriverError (List Message) := do
  let after ← bindCursor after
  return MessageRepository.listSince conversationId after limit rows

/-- One turn of the loop of `ReplayMessages.execute`, with its cursor bound. -/
def ReplayMessages.boundTurn (pageSize : ℕ) (conversationId : ConversationId) (rows : List Message) :
    Replay → Except DriverError Replay
  | .reading cursor collected => do
      let page ← SqlAlchemyMessageRepository.boundSince conversationId cursor pageSize rows
      match page.getLast? with
      | none => return .finished collected
      | some last =>
          if page.length < pageSize then return .finished (collected ++ page)
          else return .reading (some last.id) (collected ++ page)
  | .finished collected => .ok (.finished collected)

/-- With a cursor that fits, the driver does not raise. -/
theorem boundTurn_of_bindable {cursor : Option MessageId} (h : Bindable cursor) (rows : List Message)
    (collected : List Message) :
    ReplayMessages.boundTurn pageSize conversationId rows (.reading cursor collected) =
      .ok (ReplayMessages.turn pageSize conversationId rows cursor collected) := by
  simp only [ReplayMessages.boundTurn, SqlAlchemyMessageRepository.boundSince, bindCursor_eq_ok h,
    ReplayMessages.turn, bind, Except.bind, pure, Except.pure]
  generalize MessageRepository.listSince conversationId cursor pageSize rows = page
  cases page.getLast? with
  | none => rfl
  | some last => by_cases hshort : page.length < pageSize <;> simp [hshort]

end Bound

end Dizzchat
