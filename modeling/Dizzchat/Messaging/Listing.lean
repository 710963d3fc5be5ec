import Dizzchat.Messaging.Cursors
import Dizzchat.Messaging.Ownership

set_option autoImplicit false

/-! # What is listed can be opened

`list_for_participant` finds a user's conversations by a join with the memberships and a filter of its
own on `deleted_at`; every other read loads the conversation and asks the aggregate for its members. On
tables whose keys are unique both come to the same (`listed_iff_access`): the join has at most one row for
a conversation, so it is a filter (`joined_eq_filter`). A post under a new key needs one thing more,
that the sequence is past every stored id (`Numbered`), which every call keeps. -/

namespace Dizzchat

open Transition

/-! ## The join -/

section Tables

variable {rows : List ConversationModel} {members : Finset ConversationParticipantModel}

/-- A membership is stored at most once, so the join repeats no conversation. -/
theorem joined_eq_filter (hkeyed : ∀ a ∈ members, ∀ b ∈ members, a.key = b.key → a = b)
    (u : ParticipantId) (rows : List ConversationModel) :
    (rows.flatMap fun row =>
        List.replicate (members.filter fun m => m.key = (row.id, u)).card row) =
      rows.filter fun row => decide (u ∈ participantsOf row.id members) := by
  have hrows : (⟨members, ∅, ∅⟩ : RowSet Unit (ConversationId × ParticipantId)
      ConversationParticipantModel).Keyed ConversationParticipantModel.key :=
    RowSet.keyed_of_rows hkeyed rfl
  induction rows with
  | nil => rfl
  | cons row rows ih =>
      have hcard := hrows.card_filter (row.id, u)
      rw [List.flatMap_cons, ih, hcard]
      by_cases hmember : u ∈ participantsOf row.id members
      · have hhas : RowSet.Has ConversationParticipantModel.key (row.id, u)
            (⟨members, ∅, ∅⟩ : RowSet Unit _ _) := mem_participantsOf.1 hmember
        rw [if_pos hhas, List.filter_cons_of_pos (by simpa using hmember)]
        rfl
      · have hhas : ¬ RowSet.Has ConversationParticipantModel.key (row.id, u)
            (⟨members, ∅, ∅⟩ : RowSet Unit _ _) := mt mem_participantsOf.2 hmember
        rw [if_neg hhas, List.filter_cons_of_neg (by simpa using hmember)]
        rfl

/-- The conversations of the list are the rows of the table, each at most once. -/
theorem listed_nodup (hids : (rows.map ConversationModel.id).Nodup)
    (hkeyed : ∀ a ∈ members, ∀ b ∈ members, a.key = b.key → a = b) (u : ParticipantId) :
    ((ConversationRepository.listForParticipant u members rows).map Conversation.id).Nodup := by
  simp only [ConversationRepository.listForParticipant, joined_eq_filter hkeyed, List.map_map]
  have hsorted := List.perm_insertionSort
    (fun a b : ConversationModel => b.createdAt.instant ≤ a.createdAt.instant)
    ((rows.filter fun row => decide (u ∈ participantsOf row.id members)).filter
      fun row => row.deletedAt.isNone)
  refine ((hsorted.map _).nodup_iff).2 ?_
  exact hids.sublist ((List.filter_sublist.trans List.filter_sublist).map ConversationModel.id)

theorem listed_ordered (u : ParticipantId) :
    (ConversationRepository.listForParticipant u members rows).Pairwise
      fun a b => b.createdAt.instant ≤ a.createdAt.instant := by
  have htotal : Std.Total fun a b : ConversationModel =>
      b.createdAt.instant ≤ a.createdAt.instant := ⟨fun a b => le_total _ _⟩
  have htrans : IsTrans ConversationModel fun a b =>
      b.createdAt.instant ≤ a.createdAt.instant := ⟨fun a b c hab hbc => le_trans hbc hab⟩
  exact List.pairwise_map.2 (List.pairwise_insertionSort _ _)

/-- A conversation is listed for those who are let in to it. -/
theorem listed_iff_access (hids : (rows.map ConversationModel.id).Nodup) {u : ParticipantId}
    {c : ConversationId} :
    c ∈ (ConversationRepository.listForParticipant u members rows).map Conversation.id ↔
      EnsureConversationAccess.execute (participantsOf c members) c u
        (lookup ConversationModel.id c rows) = .ok () := by
  rw [ensureConversationAccess_eq_ok, List.mem_map]
  constructor
  · rintro ⟨conversation, hlisted, hid⟩
    obtain ⟨row, hrow, ⟨hactive, hmember⟩, rfl⟩ := mem_listForParticipant.1 hlisted
    obtain rfl : row.id = c := hid
    exact ⟨⟨row, lookup_of_mem hids hrow, hactive⟩, hmember⟩
  · rintro ⟨⟨row, hrow, hactive⟩, hmember⟩
    obtain rfl := key_of_lookup hrow
    exact ⟨_, mem_listForParticipant.2 ⟨row, mem_of_lookup hrow, ⟨hactive, hmember⟩, rfl⟩, rfl⟩

end Tables

/-! ## The sequence is past the ids -/

namespace Store

/-- Every stored message has drawn its id. -/
def Numbered (s : Store) : Prop := ∀ m ∈ s.messages, m.id.value ≤ s.lastSeq

/-- The messages of `t` are those of `s`, or have drawn their ids since. -/
structure Draws (s t : Store) : Prop where
  lastSeq : s.lastSeq ≤ t.lastSeq
  messages : ∀ m ∈ t.messages, m ∈ s.messages ∨ m.id.value ≤ t.lastSeq

theorem Draws.of_eq {s t : Store} (hmessages : t.messages = s.messages)
    (hlastSeq : t.lastSeq = s.lastSeq) : s.Draws t := by
  refine ⟨hlastSeq.ge, fun m hm => Or.inl ?_⟩
  rwa [hmessages] at hm

theorem Draws.numbered {s t : Store} (h : s.Draws t) (hs : s.Numbered) : t.Numbered := by
  intro m hm
  rcases h.messages m hm with hold | hnew
  · exact (hs m hold).trans h.lastSeq
  · exact hnew

theorem insertParticipants_draws {s t : Store} {new : Finset ConversationParticipantModel}
    (h : s.insertParticipants new = some t) : s.Draws t := by
  unfold insertParticipants at h
  split at h
  · cases h
    exact .of_eq rfl rfl
  · cases h

/-- No use case touches the messages or their sequence. -/
theorem write_draws {s t : Store} {change : Change} (h : s.write change = some t) : s.Draws t := by
  cases change with
  | create model members =>
      obtain ⟨s₁, hinsert, hmembers⟩ := Option.bind_eq_some_iff.1 h
      unfold insertConversation at hinsert
      split at hinsert
      · cases hinsert
        have hdraws := insertParticipants_draws hmembers
        exact ⟨hdraws.lastSeq, hdraws.messages⟩
      · cases hinsert
  | update conversation =>
      simp only [write] at h
      split at h <;> cases h <;> exact .of_eq rfl rfl
  | addParticipant => exact insertParticipants_draws h
  | removeParticipant | nothing =>
      cases h
      exact .of_eq rfl rfl

end Store

theorem fromUser_draws (request : SendRequest) (now : Datetime) (s : Store) :
    s.Draws (PostMessage.fromUser request now s).1 := by
  unfold PostMessage.fromUser
  split
  · exact .of_eq rfl rfl
  · simp only
    split
    · exact .of_eq rfl rfl
    · split
      · exact ⟨by simp, fun m hm => Or.inl hm⟩
      · next t hinsert =>
          unfold Store.insertMessage at hinsert
          split at hinsert
          · cases hinsert
            refine ⟨by simp, fun m hm => ?_⟩
            rcases List.mem_append.1 hm with hold | hnew
            · exact Or.inl hold
            · rw [List.mem_singleton.1 hnew]
              exact Or.inr le_rfl
          · cases hinsert

theorem run_draws (call : StoreCall) (s : Store) : s.Draws (call.run s).1 := by
  cases call with
  | useCase request =>
      cases hrun : request.run s with
      | error e =>
          simp only [StoreCall.run, hrun]
          exact .of_eq rfl rfl
      | ok result =>
          simp only [StoreCall.run, hrun]
          unfold UseCaseRequest.run at hrun
          simp only at hrun
          split at hrun
          · split at hrun
            · cases hrun
            · next hwrite =>
                cases hrun
                exact Store.write_draws hwrite
          · cases hrun
          · cases hrun
  | fromUser request now => exact fromUser_draws request now s
  | listConversations | listParticipants | getConversationHistory | ensureConversationAccess =>
      exact .of_eq rfl rfl

/-- A number once drawn stays drawn, so a call whose commit fails keeps the order too. -/
theorem attempt_draws (call : StoreCall) (commits : Bool) (s : Store) :
    s.Draws (call.attempt commits s).1 := by
  have hrun := run_draws call s
  unfold StoreCall.attempt
  split
  · next houtcome =>
      rw [houtcome] at hrun
      exact ⟨hrun.lastSeq, fun m hm => Or.inl hm⟩
  · exact hrun

theorem numbered_after {s : Store} (hs : s.Numbered) (calls : List (StoreCall × Bool)) :
    (s.after calls).Numbered := by
  induction calls generalizing s with
  | nil => exact hs
  | cons call calls ih => exact ih ((attempt_draws call.1 call.2 s).numbered hs)

/-! ## The calls -/

/-- The call returns. -/
def StoreCall.Succeeds (call : StoreCall) (s : Store) : Prop :=
  ∃ response, (call.run s).2 = .ok response

theorem succeeds_reading {check : Except MessagingError Unit} {response : Response} :
    (∃ answer, StoreCall.reading check response = .ok answer) ↔ check = .ok () := by
  cases check with
  | error e =>
      constructor
      · rintro ⟨answer, hanswer⟩
        cases hanswer
      · intro hcheck
        cases hcheck
  | ok => exact iff_of_true ⟨response, rfl⟩ rfl

/-- What `ListConversations.execute` returns. -/
def Store.listConversations (u : ParticipantId) (s : Store) : List Conversation :=
  ConversationRepository.listForParticipant u s.participants s.conversations

/-- The conversation is in the list of the user. -/
def Store.Lists (u : ParticipantId) (c : ConversationId) (s : Store) : Prop :=
  c ∈ (s.listConversations u).map Conversation.id

/-- No message of the conversation is stored under the key of the request. -/
def SendRequest.NewKey (request : SendRequest) (s : Store) : Prop :=
  ∀ key ∈ request.clientMessageId,
    MessageRepository.findByClientMessageId request.conversationId key s.messages = none

section Calls

variable {s : Store} {u : ParticipantId} {c : ConversationId}

theorem lists_iff : s.Lists u c ↔
    EnsureConversationAccess.execute (s.participantsOf c) c u (s.row c) = .ok () :=
  listed_iff_access s.ids

/-- The page of a cursor that can be bound is read by whoever is let in. -/
theorem boundExecute_eq_ok {before : Option MessageId} (hbefore : Bindable before) {limit : ℕ} :
    (∃ page, GetConversationHistory.boundExecute c u before limit s = .ok page) ↔
      GetConversationHistory.ensureMayRead (s.participantsOf c) c u (s.row c) = .ok () := by
  unfold GetConversationHistory.boundExecute
  rw [bindCursor_eq_ok hbefore]
  cases GetConversationHistory.ensureMayRead (s.participantsOf c) c u (s.row c) with
  | error e =>
      constructor
      · rintro ⟨page, hpage⟩
        cases hpage
      · intro hread
        cases hread
  | ok => exact iff_of_true ⟨_, rfl⟩ rfl

/-- A message with a new key clashes with no stored one: its id is past them all. -/
theorem userMessage_fresh (hs : s.Numbered) {request : SendRequest} (hnew : request.NewKey s)
    (now : Datetime) :
    ∀ m ∈ s.messages, Message.clash m (PostMessage.userMessage request (s.lastSeq + 1) now) =
      false := by
  intro m hm
  have hid : m.id ≠ ⟨s.lastSeq + 1⟩ := by
    intro hid
    have hle := hs m hm
    rw [hid] at hle
    exact absurd hle (by simp)
  have hkey : ∀ key, request.clientMessageId = some key →
      ¬ (m.conversationId = request.conversationId ∧ m.clientMessageId = some key) := by
    intro key hsome hcarries
    have hnone := List.find?_eq_none.1 (hnew key hsome) m hm
    exact hnone (Message.carries_iff.2 hcarries)
  rw [← Bool.not_eq_true]
  intro hclash
  rw [Message.clash, Bool.or_eq_true, Bool.and_eq_true, Bool.and_eq_true] at hclash
  rcases hclash with hsame | ⟨⟨hconversation, hisSome⟩, hsame⟩
  · exact hid (of_decide_eq_true hsame)
  · obtain ⟨key, hsome⟩ := Option.isSome_iff_exists.1 hisSome
    have hkeys := of_decide_eq_true hsame
    exact hkey key (hkeys.symm.trans hsome) ⟨of_decide_eq_true hconversation, hsome⟩

/-- A message with a new key is stored for whoever may post, and for nobody else. -/
theorem fromUser_accepts (hs : s.Numbered) {request : SendRequest} (hnew : request.NewKey s)
    (now : Datetime) :
    (∃ message, ((StoreCall.fromUser request now).run s).2 = .ok (.message message true)) ↔
      PostMessage.ensureMayPost request (s.get request.conversationId) = .ok () := by
  have hmissed : (request.clientMessageId.bind fun key =>
      MessageRepository.findByClientMessageId request.conversationId key s.messages) = none := by
    rw [Option.bind_eq_none_iff]
    exact hnew
  have hfresh := userMessage_fresh hs hnew now
  cases hmay : PostMessage.ensureMayPost request (s.get request.conversationId) with
  | error e =>
      simp only [StoreCall.run, PostMessage.fromUser, hmay]
      simp
  | ok =>
      refine iff_of_true ⟨PostMessage.userMessage request (s.lastSeq + 1) now, ?_⟩ rfl
      simp only [StoreCall.run, PostMessage.fromUser, hmay, hmissed, Store.insertMessage]
      rw [dif_pos hfresh]

theorem mem_listParticipants_ids {members : Finset ConversationParticipantModel} :
    (ConversationRepository.listParticipants c members).image Participant.id =
      participantsOf c members := by
  rw [ConversationRepository.listParticipants, Finset.image_image]
  rfl

end Calls

/-! ## The result -/

/-- What a user's list says about a store: every way to a conversation is open exactly where the list
    has it, which is once, the newest first, and with the members that `list_participants` returns. -/
structure Store.ListingAgrees (u : ParticipantId) (s : Store) : Prop where
  access : ∀ c, s.Lists u c ↔ (StoreCall.ensureConversationAccess c u).Succeeds s
  history : ∀ c before limit, Bindable before → (s.Lists u c ↔
    ∃ page, GetConversationHistory.boundExecute c u before limit s = .ok page)
  participants : ∀ c, s.Lists u c ↔ (StoreCall.listParticipants c u).Succeeds s
  posts : ∀ (request : SendRequest) now, request.senderId.value = u.value → request.NewKey s →
    (s.Lists u request.conversationId ↔
      ∃ message, ((StoreCall.fromUser request now).run s).2 = .ok (.message message true))
  once : ∀ c, s.Lists u c → ((s.listConversations u).map Conversation.id).count c = 1
  ordered : (s.listConversations u).Pairwise fun a b => b.createdAt.instant ≤ a.createdAt.instant
  members : ∀ conversation ∈ s.listConversations u, ∃ list,
    ((StoreCall.listParticipants conversation.id u).run s).2 = .ok (.participants list) ∧
      conversation.participantIds = list.image Participant.id

theorem listingAgrees_of_numbered {s : Store} (hs : s.Numbered) (u : ParticipantId) :
    s.ListingAgrees u where
  access c := lists_iff.trans succeeds_reading.symm
  history c before limit hbefore := lists_iff.trans (boundExecute_eq_ok hbefore).symm
  participants c := lists_iff.trans succeeds_reading.symm
  posts request now hsender hnew := by
    have hu : u = ⟨request.senderId.value⟩ := by
      rw [hsender]
    rw [hu]
    exact lists_iff.trans (fromUser_accepts hs hnew now).symm
  once c hlists := List.count_eq_one_of_mem (listed_nodup s.ids s.keyed u) hlists
  ordered := listed_ordered u
  members conversation hlisted := by
    have hlists : s.Lists u conversation.id := List.mem_map_of_mem hlisted
    have hmay := lists_iff.1 hlists
    obtain ⟨row, hrow, -, rfl⟩ := mem_listForParticipant.1 hlisted
    refine ⟨ConversationRepository.listParticipants row.id s.participants, ?_,
      mem_listParticipants_ids.symm⟩
    show StoreCall.reading (ListParticipants.ensureMayList _ _ _ _) _ = _
    rw [show ListParticipants.ensureMayList _ _ _ _ = .ok () from hmay]
    rfl

/-- After any calls, whatever their commits, what a user is shown is what they can open, read, post to
    and see the members of. -/
theorem listing_agrees (calls : List (StoreCall × Bool)) (u : ParticipantId) :
    (Store.empty.after calls).ListingAgrees u := by
  refine listingAgrees_of_numbered (numbered_after ?_ calls) u
  intro m hm
  exact absurd hm List.not_mem_nil

/-- The same of what is committed while calls run side by side. -/
theorem listing_interleaved {ι : Type*} [DecidableEq ι] {request : ι → Request}
    {rows : List ConversationModel} {members : Finset ConversationParticipantModel}
    {stored : List Message} {lastSeq : Int} (hrows : (rows.map ConversationModel.id).Nodup)
    (hmembers : ∀ a ∈ members, ∀ b ∈ members, a.key = b.key → a = b)
    {es : List (ι × WorkspaceStep)} {w : Workspace ι}
    (h : exec (World.move (Request.step request))
      (Workspace.init request rows members stored lastSeq) es = some w) (u : ParticipantId) :
    let ids := (ConversationRepository.listForParticipant u w.shared.participants.rows
      w.shared.conversations.rows).map Conversation.id
    (∀ c, c ∈ ids ↔ EnsureConversationAccess.execute (w.shared.participantsOf c) c u
      (w.shared.row c) = .ok ()) ∧ ids.Nodup := by
  have hw := workspaceInv_run hrows hmembers h
  exact ⟨fun c => listed_iff_access hw.ids, listed_nodup hw.ids hw.keyed.rows u⟩

end Dizzchat
