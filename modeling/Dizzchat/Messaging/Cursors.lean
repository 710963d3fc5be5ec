import Dizzchat.Messaging.Walks

set_option autoImplicit false

/-! # Cursors beyond the ids

`last_seen_seq` of the auth frame and `before` of the history route are integers of any size, and end
up as parameters of a comparison with a `BigInteger` column. The driver refuses to bind a value that is
not a signed 64-bit integer: the exception closes the socket with 1011, or answers the request with
500. `cursors_answered_iff` is exact: a cursor is answered if and only if it fits the column. -/

namespace Dizzchat

open Transition

/-! ## Replay through the driver -/

section Replay

variable {pageSize : ℕ} {conversationId : ConversationId} {after : Option MessageId}

/-- `_replay_missed`: what it sends, after some turns of the loop. -/
def replayMissed (conversationId : ConversationId) (lastSeenSeq : Option Int) (s : GrowingStore)
    (n : ℕ) : Except DriverError Replay :=
  match lastSeenSeq with
  | none => .ok (.finished [])
  | some value => ReplayMessages.boundExecute replayPageSize conversationId (some ⟨value⟩) s n

/-- With a cursor that does not fit, it raises at the first page. -/
theorem boundExecute_of_not_fits {value : Int} (h : ¬ BigInteger.Fits value) (s : GrowingStore)
    (n : ℕ) :
    ReplayMessages.boundExecute pageSize conversationId (some ⟨value⟩) s (n + 1) =
      .error (.outOfRange value) := by
  induction n with
  | zero =>
      simp only [ReplayMessages.boundExecute, ReplayMessages.boundTurn, bind, Except.bind,
        SqlAlchemyMessageRepository.boundSince, bindCursor_eq_error h]
  | succ n ih =>
      rw [ReplayMessages.boundExecute, ih]
      rfl

/-- The socket gets the messages of the conversation beyond the cursor; all of them and no others if
    nothing is committed meanwhile. -/
def ReplayAnswered (conversationId : ConversationId) (lastSeenSeq : Int) (s : GrowingStore) : Prop :=
  ∃ n result, replayMissed conversationId (some lastSeenSeq) s n = .ok (.finished result) ∧
    ReplayMessages.Complete conversationId (some ⟨lastSeenSeq⟩) s n result ∧
    ((∀ k, (s.seen k).messages = (s.seen 0).messages) →
      result = ((s.seen 0).messages.filter fun m => decide (m.conversationId = conversationId) &&
        decide (lastSeenSeq < m.id.value)).insertionSort fun a b => a.id.value ≤ b.id.value)

theorem replayAnswered_iff (s : GrowingStore) (hids : ∀ k, (s.seen k).IdsFit) (h : s.Bounded)
    (lastSeenSeq : Int) :
    ReplayAnswered conversationId lastSeenSeq s ↔ BigInteger.Fits lastSeenSeq := by
  constructor
  · rintro ⟨n, result, hreturns, -⟩
    by_contra hfits
    have hraises : replayMissed conversationId (some lastSeenSeq) s n ≠ .ok (.finished result) := by
      show ReplayMessages.boundExecute _ _ _ s n ≠ _
      cases n with
      | zero =>
          intro hzero
          cases hzero
      | succ n =>
          rw [boundExecute_of_not_fits hfits]
          intro hsucc
          cases hsucc
    exact hraises hreturns
  · intro hfits
    have hafter : Bindable (some ⟨lastSeenSeq⟩) := by
      intro id hid
      cases hid
      exact hfits
    obtain ⟨n, result, hreturns⟩ := execute_returns s h
    have hcomplete := execute_complete (by decide : 0 < replayPageSize) hreturns
    refine ⟨n, result, ?_, hcomplete, fun hstays => ?_⟩
    · show ReplayMessages.boundExecute _ _ _ s n = _
      rw [boundExecute_of_bindable s hids hafter, hreturns]
    · rw [hcomplete.eq_sorted hstays]
      rfl

end Replay

/-! ## A page through the driver -/

section History

variable {conversationId : ConversationId} {participantId : ParticipantId}

/-- How a request for a page ends without one. -/
inductive PageError
  | history (error : HistoryError)
  | driver (error : DriverError)
deriving DecidableEq

/-- `GetConversationHistory.execute`: the cursor is bound once the reader is let in. -/
def GetConversationHistory.boundExecute (conversationId : ConversationId)
    (participantId : ParticipantId) (before : Option MessageId) (limit : ℕ) (s : Store) :
    Except PageError MessagePage := do
  (GetConversationHistory.ensureMayRead (s.participantsOf conversationId) conversationId participantId
    (s.row conversationId)).mapError fun e => .history (.messaging e)
  let before ← (bindCursor before).mapError .driver
  return GetConversationHistory.page conversationId before limit s.messages

/-- The controller `get_conversation_history`. -/
def boundConversationHistory (conversationId : ConversationId) (participantId : ParticipantId)
    (before : Option Int) (limit : ℕ) (s : Store) : Except PageError MessagePage :=
  if (∀ value ∈ before, 1 ≤ value) ∧ 1 ≤ limit ∧ limit ≤ 100 then
    GetConversationHistory.boundExecute conversationId participantId (before.map MessageId.mk) limit s
  else .error (.history .requestValidation)

/-- The newest messages of the conversation below the cursor, at most `limit` of them. -/
structure NewestBefore (conversationId : ConversationId) (before : Int) (limit : ℕ)
    (rows items : List Message) : Prop where
  descending : items.Pairwise fun a b => b.id.value < a.id.value
  length_le : items.length ≤ limit
  only : ∀ m ∈ items, m ∈ rows ∧ m.conversationId = conversationId ∧ m.id.value < before
  newest : ∀ m ∈ rows, m.conversationId = conversationId → m.id.value < before →
    m ∈ items ∨ items.length = limit ∧ ∀ x ∈ items, m.id.value < x.id.value

def HistoryAnswered (conversationId : ConversationId) (participantId : ParticipantId) (before : Int)
    (limit : ℕ) (s : Store) : Prop :=
  ∃ page, boundConversationHistory conversationId participantId (some before) limit s = .ok page ∧
    NewestBefore conversationId before limit s.messages page.items

theorem page_newest (s : Store) (before : Int) (limit : ℕ) :
    NewestBefore conversationId before limit s.messages
      (GetConversationHistory.page conversationId (some ⟨before⟩) limit s.messages).items := by
  have hitems : (GetConversationHistory.page conversationId (some ⟨before⟩) limit s.messages).items =
      MessageRepository.listHistory conversationId (some ⟨before⟩) limit s.messages :=
    listHistory_take _ _ _
  rw [hitems]
  have hdistinct := s.distinct_descending conversationId
  have hbeyond : ∀ m : Message, Keyset.beyond Message.descending
      (some (MessageId.descending ⟨before⟩)) m = true ↔ m.id.value < before := by
    intro m
    rw [Keyset.beyond_some]
    exact OrderDual.toDual_lt_toDual
  refine ⟨?_, List.length_take_le _ _, fun m hm => ?_, fun m hm hconv hbefore => ?_⟩
  · exact Keyset.page_ascending limit hdistinct
  · obtain ⟨hmem, hafter⟩ := Keyset.mem_of_mem_page hm
    have hfilter := List.mem_filter.1 hmem
    exact ⟨hfilter.1, of_decide_eq_true hfilter.2, (hbeyond m).1 hafter⟩
  · have hmem : m ∈ s.messages.filter fun m => decide (m.conversationId = conversationId) :=
      List.mem_filter.2 ⟨hm, decide_eq_true hconv⟩
    have hinj : ∀ a ∈ s.messages.filter (fun m => decide (m.conversationId = conversationId)),
        ∀ b ∈ s.messages.filter (fun m => decide (m.conversationId = conversationId)),
        a.descending = b.descending → a = b := by
      intro a ha b hb hid
      exact Store.eq_of_id (List.mem_of_mem_filter ha) (List.mem_of_mem_filter hb)
        (congrArg MessageId.mk hid)
    exact Keyset.mem_page_or_lt limit hinj hmem ((hbeyond m).2 hbefore)

theorem historyAnswered_iff {s : Store} (hreadable : s.Readable conversationId participantId)
    {before : Int} (hbefore : 1 ≤ before) {limit : ℕ} (hlimit : 1 ≤ limit ∧ limit ≤ 100) :
    HistoryAnswered conversationId participantId before limit s ↔ BigInteger.Fits before := by
  have hvalid : (∀ value ∈ some before, 1 ≤ value) ∧ 1 ≤ limit ∧ limit ≤ 100 := by
    simpa using ⟨hbefore, hlimit⟩
  have hpage : boundConversationHistory conversationId participantId (some before) limit s =
      (bindCursor (some ⟨before⟩)).mapError .driver >>= fun cursor =>
        .ok (GetConversationHistory.page conversationId cursor limit s.messages) := by
    rw [boundConversationHistory, if_pos hvalid, GetConversationHistory.boundExecute,
      ensureMayRead_of_readable hreadable]
    rfl
  rw [HistoryAnswered, hpage]
  constructor
  · rintro ⟨page, hreturns, -⟩
    by_contra hfits
    rw [bindCursor_eq_error hfits] at hreturns
    cases hreturns
  · intro hfits
    refine ⟨_, ?_, page_newest s before limit⟩
    rw [bindCursor_eq_ok]
    · rfl
    · intro id hid
      cases hid
      exact hfits

end History

/-! ## The result -/

/-- Whatever is committed meanwhile, a replay is answered exactly when its cursor fits the column, and so
    is the request of a participant for a page. -/
theorem cursors_answered_iff (conversationId : ConversationId) (s : GrowingStore)
    (hids : ∀ k, (s.seen k).IdsFit) (hbounded : s.Bounded) :
    (∀ lastSeenSeq : Int,
      ReplayAnswered conversationId lastSeenSeq s ↔ BigInteger.Fits lastSeenSeq) ∧
    ∀ (k : ℕ) (participantId : ParticipantId), (s.seen k).Readable conversationId participantId →
      ∀ before : Int, 1 ≤ before → ∀ limit : ℕ, 1 ≤ limit ∧ limit ≤ 100 →
        (HistoryAnswered conversationId participantId before limit (s.seen k) ↔
          BigInteger.Fits before) :=
  ⟨replayAnswered_iff s hids hbounded, fun _ _ hreadable _ hbefore _ hlimit =>
    historyAnswered_iff hreadable hbefore hlimit⟩

/-! ## The ends of the range -/

theorem growingStore_bounded : growingStore.Bounded := by
  refine ⟨lateStore.messages, fun k => ?_⟩
  rw [growingStore_seen]
  split
  · decide +kernel
  · exact List.Subset.refl _

/-- The last value of the column is a cursor like any other: nothing is beyond it, and everything
    before it. -/
theorem cursors_answered_last :
    ReplayAnswered ⟨1⟩ 9223372036854775807 growingStore ∧
      HistoryAnswered ⟨1⟩ ⟨10⟩ 9223372036854775807 50 (growingStore.seen 0) := by
  have hanswered := cursors_answered_iff ⟨1⟩ growingStore growingStore_idsFit growingStore_bounded
  have hreadable : (growingStore.seen 0).Readable ⟨1⟩ ⟨10⟩ := ⟨_, rfl, rfl, by decide⟩
  exact ⟨(hanswered.1 _).2 (by decide),
    (hanswered.2 0 ⟨10⟩ hreadable _ (by decide) 50 (by decide)).2 (by decide)⟩

/-- With the next integer both raise. -/
theorem cursors_notAnswered :
    (∀ n, replayMissed ⟨1⟩ (some 9223372036854775808) growingStore (n + 1) =
      .error (.outOfRange 9223372036854775808)) ∧
    boundConversationHistory ⟨1⟩ ⟨10⟩ (some 9223372036854775808) 50 (growingStore.seen 0) =
      .error (.driver (.outOfRange 9223372036854775808)) :=
  ⟨boundExecute_of_not_fits (by decide) growingStore, by decide +kernel⟩

end Dizzchat
