import Dizzchat.Messaging.Store
import Mathlib.Order.WellFounded

set_option autoImplicit false

/-! # Walks through a conversation

`ReplayMessages.execute` and the requests of a client that pages through the history read page after
page while others go on posting. Both are keyset walks: what is behind the cursor has been read, in
order, and what was there at the beginning is read or still beyond it. A replay ends because there is
less and less beyond its cursor, a history walk because the ids start at 1. -/

namespace Dizzchat

open Transition

/-! ## The store under a walk -/

/-- The store as one reader comes upon it: when the walk begins, and then at each of its reads.
    Messages are committed meanwhile, in any order of their ids, and none goes away. -/
structure GrowingStore where
  seen : ℕ → Store
  grows : ∀ k, (seen k).messages ⊆ (seen (k + 1)).messages

namespace GrowingStore

theorem first_subset (s : GrowingStore) (k : ℕ) : (s.seen 0).messages ⊆ (s.seen k).messages := by
  induction k with
  | zero => exact List.Subset.refl _
  | succ k ih => exact List.Subset.trans ih (s.grows k)

/-- Only finitely many messages are committed. -/
def Bounded (s : GrowingStore) : Prop :=
  ∃ rows : List Message, ∀ k, (s.seen k).messages ⊆ rows

end GrowingStore

theorem insertParticipants_keeps {new : Finset ConversationParticipantModel} {s s' : Store}
    (h : s.insertParticipants new = some s') :
    s'.messages = s.messages ∧ s'.lastSeq = s.lastSeq := by
  unfold Store.insertParticipants at h
  split at h
  · cases h
    exact ⟨rfl, rfl⟩
  · cases h

/-- A use case writes no messages. -/
theorem write_keeps {s s' : Store} {change : Change} (h : s.write change = some s') :
    s'.messages = s.messages ∧ s'.lastSeq = s.lastSeq := by
  cases change with
  | create model members =>
      obtain ⟨t, hconversation, hmembers⟩ := Option.bind_eq_some_iff.1 h
      unfold Store.insertConversation at hconversation
      split at hconversation
      · cases hconversation
        have hkeeps := insertParticipants_keeps hmembers
        exact hkeeps
      · cases hconversation
  | update conversation =>
      simp only [Store.write] at h
      split at h
      · cases h
        exact ⟨rfl, rfl⟩
      · cases h
        exact ⟨rfl, rfl⟩
  | addParticipant member => exact insertParticipants_keeps h
  | removeParticipant | nothing =>
      cases h
      exact ⟨rfl, rfl⟩

theorem run_keeps {request : UseCaseRequest} {s s' : Store} {response : Response}
    (h : request.run s = .ok (s', response)) :
    s'.messages = s.messages ∧ s'.lastSeq = s.lastSeq := by
  unfold UseCaseRequest.run at h
  simp only at h
  split at h
  · split at h
    · cases h
    · next hwrite =>
        cases h
        exact write_keeps hwrite
  · cases h
  · cases h

/-- No call takes a message away. -/
theorem StoreCall.Leaves.messages_subset {call : StoreCall} {s s' : Store}
    {outcome : Except WriteError Response} (h : StoreCall.Leaves s call s' outcome) :
    s.messages ⊆ s'.messages := by
  cases h with
  | succeeds h => simp [(run_keeps h).1]
  | posts _ _ _ _ hmessages => simp [hmessages]
  | nothing _ h => simp [h.2.2]

theorem messages_subset_after (calls : List (StoreCall × Bool)) (s : Store) :
    s.messages ⊆ (s.after calls).messages := by
  induction calls generalizing s with
  | nil => exact List.Subset.refl _
  | cons e calls ih =>
      obtain ⟨call, commits⟩ := e
      exact List.Subset.trans (attempt_leaves call commits s).messages_subset (ih _)

/-- The sequence of the ids starts at 1. -/
def Store.Serial (s : Store) : Prop :=
  0 ≤ s.lastSeq ∧ ∀ m ∈ s.messages, 1 ≤ m.id.value

/-- The ids of the stored messages are values of their column. -/
def Store.IdsFit (s : Store) : Prop := ∀ m ∈ s.messages, BigInteger.Fits m.id.value

theorem Store.serial_empty : Store.empty.Serial :=
  ⟨le_rfl, fun _ hm => absurd hm List.not_mem_nil⟩

theorem serial_fromUser (request : SendRequest) (now : Datetime) {s : Store} (h : s.Serial) :
    (PostMessage.fromUser request now s).1.Serial := by
  obtain ⟨hseq, hids⟩ := h
  unfold PostMessage.fromUser
  split
  · exact ⟨hseq, hids⟩
  · simp only
    split
    · exact ⟨hseq, hids⟩
    · split
      · exact ⟨by simp only; omega, hids⟩
      · next s' hinsert =>
          unfold Store.insertMessage at hinsert
          split at hinsert
          · cases hinsert
            refine ⟨by simp only; omega, fun m hm => ?_⟩
            rcases List.mem_append.1 hm with hm | hm
            · exact hids m hm
            · rw [List.mem_singleton.1 hm]
              show 1 ≤ s.lastSeq + 1
              omega
          · cases hinsert

theorem serial_run (call : StoreCall) {s : Store} (h : s.Serial) : (call.run s).1.Serial := by
  cases call with
  | fromUser request now => exact serial_fromUser request now h
  | listConversations | listParticipants | getConversationHistory | ensureConversationAccess => exact h
  | useCase request =>
      cases hrun : request.run s with
      | error e =>
          simp only [StoreCall.run, hrun]
          exact h
      | ok result =>
          obtain ⟨hmessages, hseq⟩ := run_keeps hrun
          simp only [StoreCall.run, hrun]
          rw [Store.Serial, hmessages, hseq]
          exact h

theorem serial_after (calls : List (StoreCall × Bool)) {s : Store} (h : s.Serial) :
    (s.after calls).Serial := by
  induction calls generalizing s with
  | nil => exact h
  | cons e calls ih =>
      obtain ⟨call, commits⟩ := e
      refine ih ?_
      have hrun := serial_run call h
      unfold StoreCall.attempt
      split
      · next hcall =>
          rw [hcall] at hrun
          exact ⟨hrun.1, h.2⟩
      · exact hrun

/-- The store between the reads of a walk, while others make their calls. -/
def Store.duringCalls (s : Store) (calls : ℕ → List (StoreCall × Bool)) : ℕ → Store
  | 0 => s
  | k + 1 => (s.duringCalls calls k).after (calls k)

def GrowingStore.ofCalls (s : Store) (calls : ℕ → List (StoreCall × Bool)) : GrowingStore where
  seen := s.duringCalls calls
  grows := fun k => messages_subset_after (calls k) (s.duringCalls calls k)

theorem serial_ofCalls {s : Store} (calls : ℕ → List (StoreCall × Bool)) (h : s.Serial) (k : ℕ) :
    ((GrowingStore.ofCalls s calls).seen k).Serial := by
  induction k with
  | zero => exact h
  | succ k ih => exact serial_after (calls k) ih

/-! ## A growing store -/

/-- A conversation with three messages. -/
def earlyStore : Store :=
  let send : StoreCall := .fromUser { helloRequest with clientMessageId := none } ⟨0, 0⟩
  Store.empty.after [(.useCase ⟨.create "Team", ⟨1⟩, 10, ⟨0, 0⟩⟩, true), (send, true), (send, true),
    (send, true)]

/-- And one more. -/
def lateStore : Store := earlyStore.after [(.fromUser helloRequest ⟨1, 0⟩, true)]

/-- The walks evaluated on concrete inputs: the fourth message is committed after the first read. -/
def growingStore : GrowingStore :=
  .ofCalls earlyStore fun k => if k = 1 then [(.fromUser helloRequest ⟨1, 0⟩, true)] else []

theorem growingStore_seen (k : ℕ) :
    growingStore.seen k = if k < 2 then earlyStore else lateStore := by
  induction k with
  | zero => rfl
  | succ k ih =>
      show (growingStore.seen k).after (if k = 1 then _ else []) = _
      rw [ih]
      by_cases hone : k = 1
      · subst hone
        rfl
      · rw [if_neg hone]
        by_cases hlt : k < 2
        · rw [if_pos hlt, if_pos (by omega)]
          rfl
        · rw [if_neg hlt, if_neg (by omega)]
          rfl

theorem growingStore_idsFit (k : ℕ) : (growingStore.seen k).IdsFit := by
  rw [growingStore_seen]
  split
  · show ∀ m ∈ earlyStore.messages, BigInteger.Fits m.id.value
    decide +kernel
  · show ∀ m ∈ lateStore.messages, BigInteger.Fits m.id.value
    decide +kernel

/-! ## Replay -/

theorem Store.distinct_ids (s : Store) : s.messages.Pairwise fun a b => a.id.value ≠ b.id.value := by
  refine s.distinct.imp ?_
  intro a b hclash hid
  rw [Message.clash_of_id_eq a b (congrArg MessageId.mk hid)] at hclash
  cases hclash

/-- The rows of a conversation stand under different ids as well. -/
theorem Store.distinct_rows (s : Store) (conversationId : ConversationId) :
    (s.messages.filter fun m => decide (m.conversationId = conversationId)).Pairwise
      fun a b => a.id.value ≠ b.id.value :=
  s.distinct_ids.sublist List.filter_sublist

theorem Store.eq_of_id {s : Store} {a b : Message} (ha : a ∈ s.messages) (hb : b ∈ s.messages)
    (hid : a.id = b.id) : a = b :=
  List.inj_on_of_nodup_map (List.pairwise_map.2 s.distinct_ids) ha hb (congrArg MessageId.value hid)

section Replay

variable {pageSize : ℕ} {conversationId : ConversationId} {after : Option MessageId}

/-- A turn of the loop, unless the call has returned. -/
def Replay.next (pageSize : ℕ) (conversationId : ConversationId) (rows : List Message) :
    Replay → Replay
  | .reading cursor collected =>
      ReplayMessages.turn pageSize conversationId rows cursor collected
  | .finished collected => .finished collected

/-- A call of `ReplayMessages.execute` after some turns, each on the rows committed by then, as it goes
    where the driver binds every cursor. -/
def ReplayMessages.execute (pageSize : ℕ) (conversationId : ConversationId)
    (after : Option MessageId) (s : GrowingStore) : ℕ → Replay
  | 0 => .reading after []
  | n + 1 => (ReplayMessages.execute pageSize conversationId after s n).next pageSize conversationId
      (s.seen (n + 1)).messages

/-- The same call under the driver, which may refuse a cursor. For a cursor that can be bound it is the
    call above: `boundExecute_of_bindable`. -/
def ReplayMessages.boundExecute (pageSize : ℕ) (conversationId : ConversationId)
    (after : Option MessageId) (s : GrowingStore) : ℕ → Except DriverError Replay
  | 0 => .ok (.reading after [])
  | n + 1 => do
      let replay ← ReplayMessages.boundExecute pageSize conversationId after s n
      ReplayMessages.boundTurn pageSize conversationId (s.seen (n + 1)).messages replay

/-- What a call has collected is in order and beyond where it began, and stops at its cursor. -/
def Replay.Ordered (after : Option MessageId) : Replay → Prop
  | .reading cursor collected =>
      Keyset.Walked (fun m : Message => m.id.value) (after.map MessageId.value)
        (cursor.map MessageId.value) collected
  | .finished collected =>
      collected.Pairwise (fun a b => a.id.value < b.id.value) ∧
        ∀ m ∈ collected, m.isAfter after = true

/-- What the walk has still to read of the rows. -/
def Replay.remaining (rows : List Message) : Replay → ℕ
  | .reading cursor _ => (rows.filter fun m => m.isAfter cursor).length + 1
  | .finished _ => 0

/-- What a turn does: it ends at a page that is not full, or goes on from the last row of a full one. -/
theorem turn_cases (pageSize : ℕ) (conversationId : ConversationId) (rows : List Message)
    (cursor : Option MessageId) (collected : List Message) :
    let page := MessageRepository.listSince conversationId cursor pageSize rows
    ReplayMessages.turn pageSize conversationId rows cursor collected = .finished (collected ++ page) ∨
      ∃ last, page.getLast? = some last ∧
        ReplayMessages.turn pageSize conversationId rows cursor collected =
          .reading (some last.id) (collected ++ page) := by
  intro page
  unfold ReplayMessages.turn
  simp only
  split
  · next hempty =>
      have hnil : page = [] := List.getLast?_eq_none_iff.1 hempty
      exact .inl (by rw [hnil, List.append_nil])
  · next last hlast =>
      split
      · exact .inl rfl
      · exact .inr ⟨last, hlast, rfl⟩

theorem next_ordered {s : Store} {replay : Replay} (h : replay.Ordered after) :
    (replay.next pageSize conversationId s.messages).Ordered after := by
  cases replay with
  | finished collected => exact h
  | reading cursor collected =>
      have hids := s.distinct_rows conversationId
      show (ReplayMessages.turn pageSize conversationId s.messages cursor collected).Ordered after
      rcases turn_cases pageSize conversationId s.messages cursor collected with
        hturn | ⟨last, hlast, hturn⟩
      · rw [hturn]
        exact Keyset.Walked.append_page h hids
      · rw [hturn]
        exact Keyset.Walked.advance h hids hlast

theorem execute_ordered (s : GrowingStore) (n : ℕ) :
    (ReplayMessages.execute pageSize conversationId after s n).Ordered after := by
  induction n with
  | zero => exact Keyset.Walked.nil _
  | succ n ih => exact next_ordered ih

theorem execute_collected (s : GrowingStore) (n : ℕ) :
    ∀ m ∈ (ReplayMessages.execute pageSize conversationId after s n).messages,
      m.conversationId = conversationId ∧ ∃ k ≤ n, m ∈ (s.seen k).messages := by
  induction n with
  | zero =>
      intro m hm
      exact absurd hm List.not_mem_nil
  | succ n ih =>
      intro m hm
      have hold : m ∈ (ReplayMessages.execute pageSize conversationId after s n).messages →
          m.conversationId = conversationId ∧ ∃ k ≤ n + 1, m ∈ (s.seen k).messages := by
        intro hm
        obtain ⟨hconv, k, hk, hmem⟩ := ih m hm
        exact ⟨hconv, k, by omega, hmem⟩
      rw [ReplayMessages.execute] at hm
      generalize ReplayMessages.execute pageSize conversationId after s n = replay at hm hold
      cases replay with
      | finished collected => exact hold hm
      | reading cursor collected =>
          rcases mem_turn hm with hm | ⟨hmem, hconv⟩
          · exact hold hm
          · exact ⟨hconv, n + 1, le_rfl, hmem⟩

theorem execute_covers (hsize : 0 < pageSize) (s : GrowingStore) {m : Message}
    (hm : m ∈ (s.seen 0).messages) (hconv : m.conversationId = conversationId)
    (hafter : m.isAfter after = true) (n : ℕ) :
    (ReplayMessages.execute pageSize conversationId after s n).Covers m := by
  induction n with
  | zero => exact .inr hafter
  | succ n ih =>
      rw [ReplayMessages.execute]
      generalize ReplayMessages.execute pageSize conversationId after s n = replay at ih
      cases replay with
      | finished collected => exact ih
      | reading cursor collected =>
          refine turn_covers hsize ?_ (s.first_subset (n + 1) hm) hconv ih
          intro a ha b hb hid
          exact Store.eq_of_id ha hb hid

/-- Each turn that does not end the call leaves less to read. -/
theorem next_remaining {s : Store} {rows : List Message} (hrows : s.messages ⊆ rows)
    (replay : Replay) :
    (∃ collected, replay = .finished collected) ∨
      (replay.next pageSize conversationId s.messages).remaining rows < replay.remaining rows := by
  cases replay with
  | finished collected => exact .inl ⟨collected, rfl⟩
  | reading cursor collected =>
      right
      show (ReplayMessages.turn pageSize conversationId s.messages cursor collected).remaining rows <
        (rows.filter fun m => m.isAfter cursor).length + 1
      rcases turn_cases pageSize conversationId s.messages cursor collected with
        hturn | ⟨last, hlast, hturn⟩
      · rw [hturn]
        exact Nat.succ_pos _
      · rw [hturn]
        obtain ⟨hmem, hbeyond⟩ := Keyset.mem_of_mem_page (List.mem_of_getLast? hlast)
        have hlt := Keyset.length_beyond_lt (hrows (List.mem_of_mem_filter hmem)) hbeyond
        exact Nat.succ_lt_succ hlt

theorem execute_returns (s : GrowingStore) (h : s.Bounded) :
    ∃ n result, ReplayMessages.execute pageSize conversationId after s n = .finished result := by
  obtain ⟨rows, hrows⟩ := h
  obtain ⟨n, hn⟩ := WellFounded.not_rel_apply_succ (r := (· < ·)) fun n =>
    (ReplayMessages.execute pageSize conversationId after s n).remaining rows
  refine ⟨n, ?_⟩
  rcases next_remaining (hrows (n + 1))
    (ReplayMessages.execute pageSize conversationId after s n) with hfinished | hlt
  · exact hfinished
  · exact absurd hlt hn

/-- What a call that returns after `n` turns is held to. -/
structure ReplayMessages.Complete (conversationId : ConversationId) (after : Option MessageId)
    (s : GrowingStore) (n : ℕ) (result : List Message) : Prop where
  ascending : result.Pairwise fun a b => a.id.value < b.id.value
  once : result.Nodup
  only : ∀ m ∈ result, (m.conversationId = conversationId ∧ m.isAfter after = true) ∧
    ∃ k ≤ n, m ∈ (s.seen k).messages
  all : ∀ m ∈ (s.seen 0).messages, m.conversationId = conversationId → m.isAfter after = true →
    m ∈ result

theorem execute_complete (hsize : 0 < pageSize) {s : GrowingStore} {n : ℕ} {result : List Message}
    (h : ReplayMessages.execute pageSize conversationId after s n = .finished result) :
    ReplayMessages.Complete conversationId after s n result := by
  have hordered : (ReplayMessages.execute pageSize conversationId after s n).Ordered after :=
    execute_ordered s n
  have hcollected : ∀ m ∈ (ReplayMessages.execute pageSize conversationId after s n).messages,
      m.conversationId = conversationId ∧ ∃ k ≤ n, m ∈ (s.seen k).messages := execute_collected s n
  rw [h] at hordered hcollected
  refine ⟨hordered.1, hordered.1.imp fun hlt heq => ?_, fun m hm => ?_, ?_⟩
  · rw [heq] at hlt
    exact lt_irrefl _ hlt
  · obtain ⟨hconv, hseen⟩ := hcollected m hm
    exact ⟨⟨hconv, hordered.2 m hm⟩, hseen⟩
  · intro m hm hconv hafter
    have hcovers := execute_covers hsize s hm hconv hafter n
    rwa [h] at hcovers

/-- On a store that stays as it is a complete result is all that is beyond the cursor, in order. -/
theorem ReplayMessages.Complete.eq_sorted {s : GrowingStore} {n : ℕ} {result : List Message}
    (h : ReplayMessages.Complete conversationId after s n result)
    (hstays : ∀ k, (s.seen k).messages = (s.seen 0).messages) :
    result = ((s.seen 0).messages.filter fun m => decide (m.conversationId = conversationId) &&
      m.isAfter after).insertionSort fun a b => a.id.value ≤ b.id.value := by
  refine Keyset.eq_of_ascending h.ascending
    (Keyset.sorted_ascending ((s.seen 0).distinct_ids.sublist List.filter_sublist)) fun m => ?_
  simp only [List.mem_insertionSort, List.mem_filter, Bool.and_eq_true, decide_eq_true_iff]
  constructor
  · intro hm
    obtain ⟨hbeyond, k, -, hseen⟩ := h.only m hm
    exact ⟨hstays k ▸ hseen, hbeyond⟩
  · rintro ⟨hm, hconv, hafter⟩
    exact h.all m hm hconv hafter

/-- The cursor of a replay is the one it began with or the id of a row it has read. -/
theorem execute_bindable (s : GrowingStore) (hids : ∀ k, (s.seen k).IdsFit) (hafter : Bindable after)
    (n : ℕ) {cursor : Option MessageId} {collected : List Message}
    (h : ReplayMessages.execute pageSize conversationId after s n = .reading cursor collected) :
    Bindable cursor := by
  induction n generalizing cursor collected with
  | zero =>
      cases h
      exact hafter
  | succ n ih =>
      rw [ReplayMessages.execute] at h
      generalize hreplay : ReplayMessages.execute pageSize conversationId after s n = replay at h
      cases replay with
      | finished read => cases h
      | reading before read =>
          have hturn : ReplayMessages.turn pageSize conversationId (s.seen (n + 1)).messages before
              read = .reading cursor collected := h
          rcases turn_cases pageSize conversationId (s.seen (n + 1)).messages before read with
            hends | ⟨last, hlast, hgoes⟩
          · rw [hends] at hturn
            cases hturn
          · rw [hgoes] at hturn
            cases hturn
            have hmem := (Keyset.mem_of_mem_page (List.mem_of_getLast? hlast)).1
            intro id hid
            cases hid
            exact hids (n + 1) last (List.mem_of_mem_filter hmem)

/-- With a cursor that fits, the driver never raises. -/
theorem boundExecute_of_bindable (s : GrowingStore) (hids : ∀ k, (s.seen k).IdsFit)
    (hafter : Bindable after) (n : ℕ) :
    ReplayMessages.boundExecute pageSize conversationId after s n =
      .ok (ReplayMessages.execute pageSize conversationId after s n) := by
  induction n with
  | zero => rfl
  | succ n ih =>
      rw [ReplayMessages.boundExecute, ih, ReplayMessages.execute]
      show ReplayMessages.boundTurn _ _ _ _ = _
      generalize hreplay : ReplayMessages.execute pageSize conversationId after s n = replay
      cases replay with
      | finished collected => rfl
      | reading cursor collected =>
          exact boundTurn_of_bindable (execute_bindable s hids hafter n hreplay) _ _

/-- A call returns when no more than finitely many messages are committed while it runs. What it
    returns is in order, has every message of the conversation beyond the cursor that was there when
    it began, and nothing but messages of the conversation beyond the cursor; on a store that stays
    as it is, it is all of them. With a cursor that can be bound the driver lets all of it through. -/
theorem replay_complete (hsize : 0 < pageSize) (s : GrowingStore) :
    (s.Bounded → ∃ n result,
      ReplayMessages.execute pageSize conversationId after s n = .finished result) ∧
    (∀ n result, ReplayMessages.execute pageSize conversationId after s n = .finished result →
      ReplayMessages.Complete conversationId after s n result) ∧
    ((∀ k, (s.seen k).messages = (s.seen 0).messages) → ∃ n,
      ReplayMessages.execute pageSize conversationId after s n = .finished
        (((s.seen 0).messages.filter fun m => decide (m.conversationId = conversationId) &&
          m.isAfter after).insertionSort fun a b => a.id.value ≤ b.id.value)) ∧
    (Bindable after → (∀ k, (s.seen k).IdsFit) → ∀ n,
      ReplayMessages.boundExecute pageSize conversationId after s n =
        .ok (ReplayMessages.execute pageSize conversationId after s n)) := by
  refine ⟨execute_returns s, fun n result h => execute_complete hsize h, fun hstays => ?_,
    fun hafter hids => boundExecute_of_bindable s hids hafter⟩
  have hbounded : s.Bounded := by
    refine ⟨(s.seen 0).messages, fun k => ?_⟩
    rw [hstays k]
    exact List.Subset.refl _
  obtain ⟨n, result, hreturns⟩ := execute_returns s hbounded
  have hcomplete := execute_complete hsize hreturns
  exact ⟨n, hreturns.trans (congrArg Replay.finished (hcomplete.eq_sorted hstays))⟩

/-- Pages of two over four messages, the last of them committed while the call runs. -/
theorem replay_complete_growing :
    ReplayMessages.Complete ⟨1⟩ none growingStore 3 lateStore.messages ∧
      ReplayMessages.boundExecute 2 ⟨1⟩ none growingStore 3 = .ok (.finished lateStore.messages) := by
  have hreturns : ReplayMessages.execute 2 ⟨1⟩ none growingStore 3 = .finished lateStore.messages := by
    decide +kernel
  obtain ⟨-, hcomplete, -, hbound⟩ := replay_complete (by decide : 0 < 2) growingStore
  refine ⟨hcomplete 3 _ hreturns, ?_⟩
  rw [hbound (fun _ hid => by cases hid) growingStore_idsFit 3, hreturns]

end Replay

/-! ## The history -/

def GetConversationHistory.execute (conversationId : ConversationId) (participantId : ParticipantId)
    (before : Option MessageId) (limit : ℕ) (s : Store) : Except MessagingError MessagePage := do
  GetConversationHistory.ensureMayRead (s.participantsOf conversationId) conversationId participantId
    (s.row conversationId)
  return GetConversationHistory.page conversationId before limit s.messages

theorem run_getConversationHistory (conversationId : ConversationId) (participantId : ParticipantId)
    (before : Option MessageId) (limit : ℕ) (s : Store) :
    ((StoreCall.getConversationHistory conversationId participantId before limit).run s).2 =
      match GetConversationHistory.execute conversationId participantId before limit s with
      | .error e => .error (.messaging e)
      | .ok page => .ok (.page page) := by
  unfold GetConversationHistory.execute
  simp only [StoreCall.run, StoreCall.reading]
  cases GetConversationHistory.ensureMayRead (s.participantsOf conversationId) conversationId
    participantId (s.row conversationId) with
  | error e => rfl
  | ok u => rfl

/-- How a request for a page can fail: its query is not valid, or the use case raises. -/
inductive HistoryError
  | requestValidation
  | messaging (error : MessagingError)
deriving DecidableEq

/-- The controller `get_conversation_history`, with the bounds of its query: `ge=1`, `le=100`. -/
def getConversationHistory (conversationId : ConversationId) (participantId : ParticipantId)
    (before : Option MessageId) (limit : ℕ) (s : Store) : Except HistoryError MessagePage :=
  if (∀ cursor ∈ before, 1 ≤ cursor.value) ∧ 1 ≤ limit ∧ limit ≤ 100 then
    match GetConversationHistory.execute conversationId participantId before limit s with
    | .error e => .error (.messaging e)
    | .ok page => .ok page
  else .error .requestValidation

/-- A client that walks through the history, between two requests. -/
inductive HistoryWalk
  | walking (before : Option MessageId) (pages : List MessagePage)
  | ended (pages : List MessagePage)
  | failed (error : HistoryError) (pages : List MessagePage)
deriving DecidableEq

section History

variable {conversationId : ConversationId} {participantId : ParticipantId}

/-- A request of the walk, which asks for what comes before the cursor of the last page. -/
def HistoryWalk.next (conversationId : ConversationId) (participantId : ParticipantId) (limit : ℕ)
    (s : Store) : HistoryWalk → HistoryWalk
  | .walking before pages =>
      match getConversationHistory conversationId participantId before limit s with
      | .error e => .failed e pages
      | .ok page =>
          if page.hasMore then .walking page.nextCursor (pages ++ [page]) else .ended (pages ++ [page])
  | walk => walk

/-- The walk after some requests, each with its own limit and on the rows committed by then. -/
def HistoryWalk.after (conversationId : ConversationId) (participantId : ParticipantId)
    (limits : ℕ → ℕ) (s : GrowingStore) : ℕ → HistoryWalk
  | 0 => .walking none []
  | n + 1 => (HistoryWalk.after conversationId participantId limits s n).next conversationId
      participantId (limits n) (s.seen (n + 1))

/-- What a page is: a full one with a cursor, or one that has the rest. -/
inductive GetConversationHistory.Pages (conversationId : ConversationId) (before : Option MessageId)
    (limit : ℕ) (rows : List Message) : MessagePage → Prop
  | more {items : List Message} {last : Message}
      (hitems : items = MessageRepository.listHistory conversationId before limit rows)
      (hfull : items.length = limit) (hlast : items.getLast? = some last) :
      Pages conversationId before limit rows ⟨items, some last.id, true⟩
  | rest {items : List Message}
      (hitems : items = MessageRepository.listHistory conversationId before limit rows)
      (hshort : items.length ≤ limit)
      (hall : items = MessageRepository.listHistory conversationId before (limit + 1) rows) :
      Pages conversationId before limit rows ⟨items, none, false⟩

/-- A page has what `list_history` finds; the one row more is dropped. -/
theorem listHistory_take (before : Option MessageId) (limit : ℕ) (rows : List Message) :
    (MessageRepository.listHistory conversationId before (limit + 1) rows).take limit =
      MessageRepository.listHistory conversationId before limit rows := by
  unfold MessageRepository.listHistory Keyset.page
  rw [List.take_take, Nat.min_eq_left (by omega)]

theorem page_pages {before : Option MessageId} {limit : ℕ} (hlimit : 1 ≤ limit)
    (rows : List Message) :
    GetConversationHistory.Pages conversationId before limit rows
      (GetConversationHistory.page conversationId before limit rows) := by
  have htake : (MessageRepository.listHistory conversationId before (limit + 1) rows).take limit =
      MessageRepository.listHistory conversationId before limit rows := listHistory_take before limit rows
  have hlength := congrArg List.length htake
  rw [List.length_take] at hlength
  unfold GetConversationHistory.page
  by_cases hmore : limit < (MessageRepository.listHistory conversationId before (limit + 1) rows).length
  · simp only [hmore, decide_true, if_true, htake]
    have hfull : (MessageRepository.listHistory conversationId before limit rows).length = limit := by
      omega
    obtain ⟨last, hlast⟩ : ∃ last,
        (MessageRepository.listHistory conversationId before limit rows).getLast? = some last := by
      cases h : (MessageRepository.listHistory conversationId before limit rows).getLast? with
      | some last => exact ⟨last, rfl⟩
      | none =>
          rw [List.getLast?_eq_none_iff] at h
          simp [h] at hfull
          omega
    rw [hlast]
    exact .more rfl hfull hlast
  · simp only [hmore, decide_false, if_false, Bool.false_eq_true, htake]
    refine .rest rfl (by omega) ?_
    rw [← htake, List.take_of_length_le (by omega)]

/-- The order of the history: newest first. -/
abbrev Message.descending (m : Message) : ℤᵒᵈ := OrderDual.toDual m.id.value

abbrev MessageId.descending (id : MessageId) : ℤᵒᵈ := OrderDual.toDual id.value

theorem Store.distinct_descending (s : Store) (conversationId : ConversationId) :
    (s.messages.filter fun m => decide (m.conversationId = conversationId)).Pairwise
      fun a b => a.descending ≠ b.descending :=
  s.distinct_rows conversationId

/-- The reader finds the conversation active and is one of its participants. -/
def Store.Readable (conversationId : ConversationId) (participantId : ParticipantId) (s : Store) :
    Prop :=
  ∃ row, s.row conversationId = some row ∧ row.deletedAt = none ∧
    participantId ∈ s.participantsOf conversationId

theorem ensureMayRead_of_readable {s : Store} (h : s.Readable conversationId participantId) :
    GetConversationHistory.ensureMayRead (s.participantsOf conversationId) conversationId participantId
      (s.row conversationId) = .ok () := by
  obtain ⟨row, hrow, hactive, hmember⟩ := h
  simp [GetConversationHistory.ensureMayRead, hrow, ConversationRepository.get_of_active hactive,
    Conversation.ensureParticipant, Conversation.isParticipant, ConversationModel.toDomain, hmember]

theorem execute_of_readable {s : Store} (h : s.Readable conversationId participantId)
    (before : Option MessageId) (limit : ℕ) :
    GetConversationHistory.execute conversationId participantId before limit s =
      .ok (GetConversationHistory.page conversationId before limit s.messages) := by
  unfold GetConversationHistory.execute
  rw [ensureMayRead_of_readable h]
  rfl

theorem getConversationHistory_of_readable {s : Store}
    (h : s.Readable conversationId participantId) {before : Option MessageId}
    (hbefore : ∀ cursor ∈ before, 1 ≤ cursor.value) {limit : ℕ} (hlimit : 1 ≤ limit ∧ limit ≤ 100) :
    getConversationHistory conversationId participantId before limit s =
      .ok (GetConversationHistory.page conversationId before limit s.messages) := by
  rw [getConversationHistory, if_pos ⟨hbefore, hlimit⟩, execute_of_readable h]

/-- What has been read of the history before a cursor, after `n` requests. -/
structure HistoryWalk.Reached (conversationId : ConversationId) (limits : ℕ → ℕ) (s : GrowingStore)
    (n : ℕ) (before : Option MessageId) (pages : List MessagePage) : Prop where
  walked : Keyset.Walked Message.descending none (before.map MessageId.descending)
    (pages.flatMap MessagePage.items)
  count : pages.length = n
  full : ∀ k page, pages[k]? = some page →
    page.items.length = limits k ∧ page.nextCursor.isSome = true ∧ page.hasMore = true
  only : ∀ m ∈ pages.flatMap MessagePage.items,
    m.conversationId = conversationId ∧ ∃ k ≤ n, m ∈ (s.seen k).messages
  covers : ∀ m ∈ (s.seen 0).messages, m.conversationId = conversationId →
    m ∈ pages.flatMap MessagePage.items ∨
      Keyset.beyond Message.descending (before.map MessageId.descending) m = true
  positive : ∀ cursor ∈ before, 1 ≤ cursor.value

/-- What a walk that ends with its `n`-th request is held to. -/
structure HistoryWalk.Complete (conversationId : ConversationId) (limits : ℕ → ℕ)
    (s : GrowingStore) (n : ℕ) (pages : List MessagePage) : Prop where
  descending : (pages.flatMap MessagePage.items).Pairwise fun a b => b.id.value < a.id.value
  once : (pages.flatMap MessagePage.items).Nodup
  only : ∀ m ∈ pages.flatMap MessagePage.items,
    m.conversationId = conversationId ∧ ∃ k ≤ n, m ∈ (s.seen k).messages
  all : ∀ m ∈ (s.seen 0).messages, m.conversationId = conversationId →
    m ∈ pages.flatMap MessagePage.items
  cursors : ∀ page ∈ pages, page.nextCursor.isSome = page.hasMore
  full : ∀ k page, pages[k]? = some page →
    page.items.length ≤ limits k ∧ (k + 1 < pages.length → page.items.length = limits k)

section Request

variable {limits : ℕ → ℕ} {s : GrowingStore} {n : ℕ} {before : Option MessageId}
  {pages : List MessagePage}

theorem HistoryWalk.Reached.start :
    HistoryWalk.Reached conversationId limits s 0 none [] where
  walked := Keyset.Walked.nil none
  count := rfl
  full := fun k page h => by simp at h
  only := fun m hm => by simp at hm
  covers := fun m hm hconv => .inr rfl
  positive := fun cursor h => by simp at h

theorem HistoryWalk.Reached.only_append
    (h : HistoryWalk.Reached conversationId limits s n before pages) {limit : ℕ} {page : MessagePage}
    (hitems : page.items =
      MessageRepository.listHistory conversationId before limit (s.seen (n + 1)).messages) :
    ∀ m ∈ (pages ++ [page]).flatMap MessagePage.items,
      m.conversationId = conversationId ∧ ∃ k ≤ n + 1, m ∈ (s.seen k).messages := by
  intro m hm
  rw [List.flatMap_append, List.mem_append, List.flatMap_singleton, hitems] at hm
  rcases hm with hm | hm
  · obtain ⟨hconv, k, hk, hseen⟩ := h.only m hm
    exact ⟨hconv, k, by omega, hseen⟩
  · have hfilter := List.mem_filter.1 (Keyset.mem_of_mem_page hm).1
    exact ⟨of_decide_eq_true hfilter.2, n + 1, le_rfl, hfilter.1⟩

/-- The pages with one more: an earlier one, which is full, or the new one. -/
theorem HistoryWalk.Reached.getElem_append
    (h : HistoryWalk.Reached conversationId limits s n before pages) {page page' : MessagePage} {k : ℕ}
    (hk : (pages ++ [page])[k]? = some page') :
    (k < n ∧ page'.items.length = limits k ∧ page'.nextCursor.isSome = true ∧
      page'.hasMore = true) ∨ k = n ∧ page' = page := by
  by_cases hlt : k < pages.length
  · rw [List.getElem?_append_left hlt] at hk
    exact .inl ⟨h.count ▸ hlt, h.full k page' hk⟩
  · rw [List.getElem?_append_right (by omega), List.getElem?_singleton] at hk
    split at hk
    · next hzero =>
        cases hk
        exact .inr ⟨by have := h.count; omega, rfl⟩
    · cases hk

/-- The request for the last page, with what it leaves of the walk. -/
theorem HistoryWalk.Reached.rest (h : HistoryWalk.Reached conversationId limits s n before pages)
    {page : MessagePage}
    (hitems : page.items =
      MessageRepository.listHistory conversationId before (limits n) (s.seen (n + 1)).messages)
    (hshort : page.items.length ≤ limits n)
    (hall : page.items =
      MessageRepository.listHistory conversationId before (limits n + 1) (s.seen (n + 1)).messages)
    (hcursor : page.nextCursor = none) (hmore : page.hasMore = false) :
    HistoryWalk.Complete conversationId limits s (n + 1) (pages ++ [page]) := by
  have hids := (s.seen (n + 1)).distinct_descending conversationId
  have hread : (pages ++ [page]).flatMap MessagePage.items =
      pages.flatMap MessagePage.items ++ page.items := by
    rw [List.flatMap_append, List.flatMap_singleton]
  have hdescending : ((pages ++ [page]).flatMap MessagePage.items).Pairwise
      fun a b => b.id.value < a.id.value := by
    rw [hread, hitems]
    exact (h.walked.append_page hids).1
  refine ⟨hdescending, hdescending.imp fun hlt heq => ?_, h.only_append hitems, ?_, ?_, ?_⟩
  · rw [heq] at hlt
    exact lt_irrefl _ hlt
  · intro m hm hconv
    have hmem : m ∈ (s.seen (n + 1)).messages.filter
        fun m => decide (m.conversationId = conversationId) := by
      simpa [List.mem_filter] using ⟨s.first_subset (n + 1) hm, hconv⟩
    rw [hread, hall]
    -- the request asked for one row more than the page may have, and did not get it
    have hnext : m ∈ pages.flatMap MessagePage.items ++ MessageRepository.listHistory conversationId
        before (limits n + 1) (s.seen (n + 1)).messages ∨ _ :=
      Keyset.mem_append_page_or_lt hids hmem (h.covers m hm hconv)
    rcases hnext with hin | ⟨hfull, -⟩
    · exact hin
    · have hlength := congrArg List.length hall
      rw [MessageRepository.listHistory] at hlength
      omega
  · intro page' hpage'
    rcases List.mem_append.1 hpage' with hold | hnew
    · obtain ⟨k, hk⟩ := List.mem_iff_getElem?.1 hold
      obtain ⟨-, hsome, hmore'⟩ := h.full k page' hk
      rw [hsome, hmore']
    · rw [List.mem_singleton.1 hnew, hcursor, hmore]
      rfl
  · intro k page' hk
    rcases h.getElem_append hk with ⟨-, hfull, -⟩ | ⟨rfl, rfl⟩
    · exact ⟨hfull.le, fun _ => hfull⟩
    · refine ⟨hshort, fun hlt => ?_⟩
      rw [List.length_append, List.length_singleton, h.count] at hlt
      omega

/-- The request for a full page: the walk goes on from its last message. -/
theorem HistoryWalk.Reached.more (h : HistoryWalk.Reached conversationId limits s n before pages)
    (hserial : ∀ m ∈ (s.seen (n + 1)).messages, 1 ≤ m.id.value) {page : MessagePage} {last : Message}
    (hitems : page.items =
      MessageRepository.listHistory conversationId before (limits n) (s.seen (n + 1)).messages)
    (hfull : page.items.length = limits n) (hlast : page.items.getLast? = some last)
    (hcursor : page.nextCursor = some last.id) (hmore : page.hasMore = true) :
    HistoryWalk.Reached conversationId limits s (n + 1) (some last.id) (pages ++ [page]) := by
  have hids := (s.seen (n + 1)).distinct_descending conversationId
  have hread : (pages ++ [page]).flatMap MessagePage.items =
      pages.flatMap MessagePage.items ++ page.items := by
    rw [List.flatMap_append, List.flatMap_singleton]
  refine ⟨?_, ?_, ?_, h.only_append hitems, ?_, ?_⟩
  · rw [hread, hitems]
    rw [hitems] at hlast
    exact h.walked.advance hids hlast
  · rw [List.length_append, List.length_singleton, h.count]
  · intro k page' hk
    rcases h.getElem_append hk with ⟨-, hold⟩ | ⟨rfl, rfl⟩
    · exact hold
    · exact ⟨hfull, by rw [hcursor]; rfl, hmore⟩
  · intro m hm hconv
    have hmem : m ∈ (s.seen (n + 1)).messages.filter
        fun m => decide (m.conversationId = conversationId) := by
      simpa [List.mem_filter] using ⟨s.first_subset (n + 1) hm, hconv⟩
    rw [hread, hitems]
    have hnext : m ∈ pages.flatMap MessagePage.items ++ MessageRepository.listHistory conversationId
        before (limits n) (s.seen (n + 1)).messages ∨ _ :=
      Keyset.mem_append_page_or_lt hids hmem (h.covers m hm hconv)
    rcases hnext with hin | ⟨-, hbeyond⟩
    · exact .inl hin
    · rw [hitems] at hlast
      exact .inr (Keyset.beyond_some.2 (hbeyond last (List.mem_of_getLast? hlast)))
  · intro cursor hcursor'
    obtain rfl := Option.some.inj hcursor'
    have hmem := List.mem_of_getLast? hlast
    rw [hitems] at hmem
    exact hserial last (List.mem_of_mem_filter (Keyset.mem_of_mem_page hmem).1)

/-- One request: it ends the walk, or the next one asks for what is before a lower id. -/
theorem HistoryWalk.Reached.next (h : HistoryWalk.Reached conversationId limits s n before pages)
    (hlimit : 1 ≤ limits n ∧ limits n ≤ 100)
    (hreadable : (s.seen (n + 1)).Readable conversationId participantId)
    (hserial : ∀ m ∈ (s.seen (n + 1)).messages, 1 ≤ m.id.value) :
    let walk := (HistoryWalk.walking before pages).next conversationId participantId (limits n)
      (s.seen (n + 1))
    (∃ pages', walk = .ended pages' ∧
      HistoryWalk.Complete conversationId limits s (n + 1) pages') ∨
    ∃ cursor pages', walk = .walking (some cursor) pages' ∧
      HistoryWalk.Reached conversationId limits s (n + 1) (some cursor) pages' ∧
      ∀ previous ∈ before, cursor.value < previous.value := by
  intro walk
  have hwalk : walk = if (GetConversationHistory.page conversationId before (limits n)
      (s.seen (n + 1)).messages).hasMore then
        .walking (GetConversationHistory.page conversationId before (limits n)
          (s.seen (n + 1)).messages).nextCursor
          (pages ++ [GetConversationHistory.page conversationId before (limits n)
            (s.seen (n + 1)).messages])
      else .ended (pages ++ [GetConversationHistory.page conversationId before (limits n)
        (s.seen (n + 1)).messages]) := by
    simp only [walk, HistoryWalk.next,
      getConversationHistory_of_readable hreadable h.positive hlimit]
  have hpage : GetConversationHistory.Pages conversationId before (limits n)
      (s.seen (n + 1)).messages _ := page_pages hlimit.1 (s.seen (n + 1)).messages
  generalize GetConversationHistory.page conversationId before (limits n)
    (s.seen (n + 1)).messages = page at hwalk hpage
  cases hpage with
  | rest hitems hshort hall =>
      exact .inl ⟨_, hwalk, h.rest hitems hshort hall rfl rfl⟩
  | @more items last hitems hfull hlast =>
      refine .inr ⟨last.id, _, hwalk, h.more hserial hitems hfull hlast rfl rfl, ?_⟩
      intro previous hprevious
      have hmem := List.mem_of_getLast? hlast
      rw [hitems] at hmem
      obtain rfl := Option.mem_def.1 hprevious
      have hbeyond := (Keyset.mem_of_mem_page hmem).2
      exact Keyset.beyond_some.1 hbeyond

/-- From a cursor on, each request lowers it, and no id is below 1. -/
theorem walk_ends (hlimits : ∀ k, 1 ≤ limits k ∧ limits k ≤ 100)
    (hreadable : ∀ k, (s.seen k).Readable conversationId participantId)
    (hserial : ∀ k, ∀ m ∈ (s.seen k).messages, 1 ≤ m.id.value) (bound : ℕ) :
    ∀ n cursor pages,
      HistoryWalk.after conversationId participantId limits s n = .walking (some cursor) pages →
      HistoryWalk.Reached conversationId limits s n (some cursor) pages → cursor.value ≤ bound →
      ∃ n pages, HistoryWalk.after conversationId participantId limits s n = .ended pages ∧
        HistoryWalk.Complete conversationId limits s n pages := by
  induction bound with
  | zero =>
      intro n cursor pages hwalk hreached hbound
      have hpositive := hreached.positive cursor rfl
      omega
  | succ bound ih =>
      intro n cursor pages hwalk hreached hbound
      rcases hreached.next (hlimits n) (hreadable (n + 1)) (hserial (n + 1)) with
        ⟨pages', hended, hcomplete⟩ | ⟨cursor', pages', hnext, hreached', hlower⟩
      · refine ⟨n + 1, pages', ?_, hcomplete⟩
        rw [HistoryWalk.after, hwalk]
        exact hended
      · refine ih (n + 1) cursor' pages' ?_ hreached' ?_
        · rw [HistoryWalk.after, hwalk]
          exact hnext
        · have hlt := hlower cursor rfl
          push_cast at hbound
          omega

/-- A walk through the history of a conversation that stays active, by a user who stays in it, ends,
    whatever the limits are and whatever is committed between the requests. Its pages put together
    descend in id and have every message that was there when it began; a page has a cursor when it
    says that there is more, and only the last one may be shorter than its limit. -/
theorem history_walk_complete (hlimits : ∀ k, 1 ≤ limits k ∧ limits k ≤ 100)
    (hreadable : ∀ k, (s.seen k).Readable conversationId participantId)
    (hserial : ∀ k, ∀ m ∈ (s.seen k).messages, 1 ≤ m.id.value) :
    ∃ n pages, HistoryWalk.after conversationId participantId limits s n = .ended pages ∧
      HistoryWalk.Complete conversationId limits s n pages := by
  have hstart : HistoryWalk.Reached conversationId limits s 0 none [] := .start
  rcases hstart.next (hlimits 0) (hreadable 1) (hserial 1) with
    ⟨pages, hended, hcomplete⟩ | ⟨cursor, pages, hnext, hreached, -⟩
  · exact ⟨1, pages, hended, hcomplete⟩
  · exact walk_ends hlimits hreadable hserial cursor.value.toNat 1 cursor pages hnext hreached
      (Int.self_le_toNat _)

end Request

/-- Pages of two, with a message committed after the first request. -/
theorem history_walk_complete_growing :
    ∃ n pages, HistoryWalk.after ⟨1⟩ ⟨10⟩ (fun _ => 2) growingStore n = .ended pages ∧
      HistoryWalk.Complete ⟨1⟩ (fun _ => 2) growingStore n pages := by
  refine history_walk_complete (fun _ => by decide) (fun k => ?_) fun k => (serial_ofCalls _ ?_ k).2
  · rw [growingStore_seen]
    split
    · exact ⟨_, rfl, rfl, by decide⟩
    · exact ⟨_, rfl, rfl, by decide⟩
  · exact serial_after _ Store.serial_empty

end History

end Dizzchat
