import Dizzchat.Messaging.ReplayMessages
import Dizzchat.Messaging.UseCases
import Mathlib.Data.Finset.Card

set_option autoImplicit false

/-! # Calls one after the other

The committed rows of the messaging tables, and the use cases as calls that each run to their end before
the next one begins: one transaction, committed when the call returns and rolled back when it raises.

A `Store` carries what the keys and foreign keys of its tables say, so a statement that would break one
of them has no store to leave and raises instead. `Store.Writes` says once what a write leaves. -/

namespace Dizzchat

open Transition

/-! ## The tables -/

structure Store where
  conversations : List ConversationModel
  participants : Finset ConversationParticipantModel
  messages : List Message
  lastSeq : Int
  ids : (conversations.map ConversationModel.id).Nodup
  keyed : ∀ a ∈ participants, ∀ b ∈ participants, a.key = b.key → a = b
  references : ∀ m ∈ participants,
    lookup ConversationModel.id m.conversationId conversations ≠ none
  distinct : messages.Pairwise fun a b => Message.clash a b = false
deriving DecidableEq

namespace Store

def empty : Store where
  conversations := []
  participants := ∅
  messages := []
  lastSeq := 0
  ids := List.nodup_nil
  keyed := fun a ha => absurd ha (Finset.notMem_empty a)
  references := fun m hm => absurd hm (Finset.notMem_empty m)
  distinct := List.Pairwise.nil

/-! ## Reading -/

def row (c : ConversationId) (s : Store) : Option ConversationModel :=
  lookup ConversationModel.id c s.conversations

def participantsOf (c : ConversationId) (s : Store) : Finset ParticipantId :=
  Dizzchat.participantsOf c s.participants

def get (c : ConversationId) (s : Store) : Option Conversation :=
  ConversationRepository.get (s.participantsOf c) (s.row c)

def getIncludingDeleted (c : ConversationId) (s : Store) : Option Conversation :=
  ConversationRepository.getIncludingDeleted (s.participantsOf c) (s.row c)

end Store

/-- `list_for_participant`: the join has a row once for each membership of the user. -/
def ConversationRepository.listForParticipant (participantId : ParticipantId)
    (members : Finset ConversationParticipantModel) (rows : List ConversationModel) :
    List Conversation :=
  let joined := rows.flatMap fun row =>
    List.replicate (members.filter fun m => m.key = (row.id, participantId)).card row
  let active := joined.filter fun row => row.deletedAt.isNone
  (active.insertionSort fun a b => b.createdAt.instant ≤ a.createdAt.instant).map fun row =>
    row.toDomain (participantsOf row.id members)

theorem mem_listForParticipant {participantId : ParticipantId}
    {members : Finset ConversationParticipantModel} {rows : List ConversationModel}
    {conversation : Conversation} :
    conversation ∈ ConversationRepository.listForParticipant participantId members rows ↔
      ∃ row ∈ rows, (row.deletedAt = none ∧ participantId ∈ participantsOf row.id members) ∧
        conversation = row.toDomain (participantsOf row.id members) := by
  have hjoined : ∀ row : ConversationModel,
      (members.filter fun m => m.key = (row.id, participantId)).card ≠ 0 ↔
        participantId ∈ participantsOf row.id members := by
    intro row
    rw [mem_participantsOf, Finset.card_ne_zero, Finset.filter_nonempty_iff]
  simp only [ConversationRepository.listForParticipant, List.mem_map, List.mem_insertionSort,
    List.mem_filter, List.mem_flatMap, List.mem_replicate, Option.isNone_iff_eq_none]
  constructor
  · rintro ⟨row, ⟨⟨row', hrow', hcard, rfl⟩, hactive⟩, rfl⟩
    exact ⟨row, hrow', ⟨hactive, (hjoined row).1 hcard⟩, rfl⟩
  · rintro ⟨row, hrow, ⟨hactive, hmember⟩, rfl⟩
    exact ⟨row, ⟨⟨row, hrow, (hjoined row).2 hmember, rfl⟩, hactive⟩, rfl⟩

/-- `list_history`, newest first. -/
def MessageRepository.listHistory (conversationId : ConversationId) (before : Option MessageId)
    (limit : ℕ) (rows : List Message) : List Message :=
  Keyset.page (fun m : Message => OrderDual.toDual m.id.value)
    (before.map fun id => OrderDual.toDual id.value) limit
    (rows.filter fun m => decide (m.conversationId = conversationId))

structure MessagePage where
  items : List Message
  nextCursor : Option MessageId
  hasMore : Bool
deriving DecidableEq

/-- What `GetConversationHistory.execute` returns once the reader is let in. -/
def GetConversationHistory.page (conversationId : ConversationId) (before : Option MessageId)
    (limit : ℕ) (rows : List Message) : MessagePage :=
  -- one more than asked for tells whether there is an older page
  let fetched := MessageRepository.listHistory conversationId before (limit + 1) rows
  let hasMore := decide (limit < fetched.length)
  let items := fetched.take limit
  { items
    nextCursor := if hasMore then items.getLast?.map Message.id else none
    hasMore }

/-! ## Writing -/

namespace Store

def insertConversation (model : ConversationModel) (s : Store) : Option Store :=
  if s.row model.id = none then
    some { s with
      conversations := upsert ConversationModel.id model s.conversations
      ids := nodup_upsert s.ids
      references := fun m hm => lookup_upsert_ne_none (s.references m hm) }
  else none

def updateConversation (row : ConversationModel) (s : Store) : Store :=
  { s with
    conversations := upsert ConversationModel.id row s.conversations
    ids := nodup_upsert s.ids
    references := fun m hm => lookup_upsert_ne_none (s.references m hm) }

def insertParticipants (new : Finset ConversationParticipantModel) (s : Store) : Option Store :=
  if h : (∀ m ∈ new, s.row m.conversationId ≠ none) ∧
      (∀ a ∈ new, ∀ b ∈ s.participants, a.key ≠ b.key) ∧
      ∀ a ∈ new, ∀ b ∈ new, a.key = b.key → a = b then
    some { s with
      participants := s.participants ∪ new
      keyed := by
        intro a ha b hb hk
        rcases Finset.mem_union.1 ha with ha | ha <;> rcases Finset.mem_union.1 hb with hb | hb
        · exact s.keyed a ha b hb hk
        · exact absurd hk.symm (h.2.1 b hb a ha)
        · exact absurd hk (h.2.1 a ha b hb)
        · exact h.2.2 a ha b hb hk
      references := fun m hm => (Finset.mem_union.1 hm).elim (s.references m) (h.1 m) }
  else none

def deleteParticipant (key : ConversationId × ParticipantId) (s : Store) : Store :=
  { s with
    participants := s.participants.filter fun m => m.key ≠ key
    keyed := fun a ha b hb => s.keyed a (Finset.mem_of_mem_filter a ha) b (Finset.mem_of_mem_filter b hb)
    references := fun m hm => s.references m (Finset.mem_of_mem_filter m hm) }

def insertMessage (message : Message) (s : Store) : Option Store :=
  if h : ∀ m ∈ s.messages, Message.clash m message = false then
    some { s with
      messages := s.messages ++ [message]
      distinct := List.pairwise_append.2 ⟨s.distinct, List.pairwise_singleton _ _, fun m hm m' hm' => by
        rw [List.mem_singleton.1 hm']
        exact h m hm⟩ }
  else none

/-- What the repository sends for a change; `none` where a constraint does not let it. -/
def write (s : Store) : Change → Option Store
  | .create model members => (s.insertConversation model).bind (insertParticipants members)
  | .update conversation => match s.row conversation.id with
      | none => some s
      | some row => some (s.updateConversation (row.update conversation))
  | .addParticipant member => s.insertParticipants {member}
  | .removeParticipant c participantId => some (s.deleteParticipant (c, participantId))
  | .nothing => some s

/-- What a write leaves, one constructor for each. -/
inductive Writes (s : Store) : Change → Store → Prop
  | create {model : ConversationModel} {members : Finset ConversationParticipantModel} {s' : Store}
      (hfresh : s.row model.id = none)
      (hrow : ∀ c, s'.row c = if model.id = c then some model else s.row c)
      (hmembers : s'.participants = s.participants ∪ members)
      (hmessages : s'.messages = s.messages) : Writes s (.create model members) s'
  | update {conversation : Conversation} {row : ConversationModel} {s' : Store}
      (hfound : s.row conversation.id = some row)
      (hrow : ∀ c, s'.row c =
        if conversation.id = c then some (row.update conversation) else s.row c)
      (hmembers : s'.participants = s.participants) (hmessages : s'.messages = s.messages) :
      Writes s (.update conversation) s'
  | updateNone {conversation : Conversation} (h : s.row conversation.id = none) :
      Writes s (.update conversation) s
  | addParticipant {member : ConversationParticipantModel} {s' : Store}
      (hrow : ∀ c, s'.row c = s.row c) (hmembers : s'.participants = s.participants ∪ {member})
      (hmessages : s'.messages = s.messages) : Writes s (.addParticipant member) s'
  | removeParticipant {c : ConversationId} {participantId : ParticipantId} :
      Writes s (.removeParticipant c participantId) (s.deleteParticipant (c, participantId))
  | nothing : Writes s .nothing s

theorem row_congr {s s' : Store} (h : s'.conversations = s.conversations) (c : ConversationId) :
    s'.row c = s.row c := by
  rw [row, row, h]

theorem participantsOf_congr {s s' : Store} (h : s'.participants = s.participants)
    (c : ConversationId) : s'.participantsOf c = s.participantsOf c := by
  rw [participantsOf, participantsOf, h]

theorem insertParticipants_eq_some {new : Finset ConversationParticipantModel} {s s' : Store}
    (h : s.insertParticipants new = some s') : s'.conversations = s.conversations ∧
      s'.participants = s.participants ∪ new ∧ s'.messages = s.messages := by
  unfold insertParticipants at h
  split at h
  · cases h
    exact ⟨rfl, rfl, rfl⟩
  · cases h

theorem writes_of_write {s s' : Store} {change : Change} (h : s.write change = some s') :
    s.Writes change s' := by
  cases change with
  | create model members =>
      obtain ⟨t, hinsert, hmembers⟩ := Option.bind_eq_some_iff.1 h
      unfold insertConversation at hinsert
      split at hinsert
      · next hfresh =>
          cases hinsert
          obtain ⟨hconversations, hparticipants, hmessages⟩ := insertParticipants_eq_some hmembers
          refine .create hfresh (fun c => ?_) hparticipants hmessages
          rw [row, hconversations]
          exact lookup_upsert _ _ _
      · cases hinsert
  | update conversation =>
      simp only [write] at h
      split at h
      · next hnone => cases h; exact .updateNone hnone
      · next row hfound =>
          cases h
          have hid : row.id = conversation.id := key_of_lookup hfound
          refine .update hfound (fun c => ?_) rfl rfl
          rw [← hid]
          exact lookup_upsert _ _ _
  | addParticipant member =>
      obtain ⟨hconversations, hparticipants, hmessages⟩ := insertParticipants_eq_some h
      exact .addParticipant (row_congr hconversations) hparticipants hmessages
  | removeParticipant => cases h; exact .removeParticipant
  | nothing => cases h; exact .nothing

/-- An `UPDATE` of the row of a conversation that is there. -/
theorem Writes.of_row {s s' : Store} {conversation : Conversation} {model : ConversationModel}
    {c : ConversationId} (hrow : s.row c = some model) (hid : conversation.id = model.id)
    (h : s.Writes (.update conversation) s') :
    (∀ c', s'.row c' = if c = c' then some (model.update conversation) else s.row c') ∧
      s'.participants = s.participants ∧ s'.messages = s.messages := by
  obtain rfl : conversation.id = c := hid.trans (key_of_lookup hrow)
  cases h with
  | updateNone hnone => cases hnone.symm.trans hrow
  | update hfound hrows hmembers hmessages =>
      obtain rfl := Option.some.inj (hfound.symm.trans hrow)
      exact ⟨hrows, hmembers, hmessages⟩

@[simp]
theorem mem_participantsOf {c : ConversationId} {p : ParticipantId} {s : Store} :
    p ∈ s.participantsOf c ↔ ∃ m ∈ s.participants, m.key = (c, p) :=
  Dizzchat.mem_participantsOf

end Store

/-! ## The memberships after a write -/

theorem participantsOf_union (c : ConversationId) (members new : Finset ConversationParticipantModel) :
    participantsOf c (members ∪ new) = participantsOf c members ∪ participantsOf c new := by
  simp [participantsOf, Finset.filter_union, Finset.image_union]

theorem participantsOf_singleton (c : ConversationId) (member : ConversationParticipantModel) :
    participantsOf c {member} = if member.conversationId = c then {member.userId} else ∅ := by
  unfold participantsOf
  rw [Finset.filter_singleton]
  split <;> simp

namespace Store

theorem participantsOf_insert {s s' : Store} {member : ConversationParticipantModel}
    (h : s'.participants = s.participants ∪ {member}) (c : ConversationId) :
    s'.participantsOf c =
      s.participantsOf c ∪ if member.conversationId = c then {member.userId} else ∅ := by
  rw [participantsOf, h, participantsOf_union, participantsOf_singleton]
  rfl

/-- A new conversation has its owner as the one member. -/
theorem participantsOf_create {s s' : Store} {conversationId : ConversationId} {ownerId : OwnerId}
    {title : ConversationTitle} {now : Datetime}
    (h : s.Writes (ConversationRepository.create (Conversation.start conversationId ownerId title now))
      s') (c : ConversationId) :
    s'.participantsOf c =
      s.participantsOf c ∪ if conversationId = c then {⟨ownerId.value⟩} else ∅ := by
  cases h with
  | create _ _ hmembers =>
      have hseed : s'.participants = s.participants ∪ {⟨conversationId, ⟨ownerId.value⟩, now⟩} := by
        simpa [Conversation.start] using hmembers
      exact participantsOf_insert hseed c

/-- A conversation that is not there has no members. -/
theorem participantsOf_eq_empty {s : Store} {c : ConversationId} (h : s.row c = none) :
    s.participantsOf c = ∅ := by
  refine Finset.eq_empty_of_forall_notMem fun p hp => ?_
  obtain ⟨m, hm, hk⟩ := mem_participantsOf.1 hp
  obtain rfl : m.conversationId = c := congrArg Prod.fst hk
  exact s.references m hm h

theorem participantsOf_deleteParticipant (s : Store) (c c' : ConversationId) (p : ParticipantId) :
    (s.deleteParticipant (c, p)).participantsOf c' =
      if c = c' then s.participantsOf c' \ {p} else s.participantsOf c' := by
  ext q
  have hmem : q ∈ (s.deleteParticipant (c, p)).participantsOf c' ↔
      q ∈ s.participantsOf c' ∧ (c', q) ≠ (c, p) := by
    simp only [mem_participantsOf, deleteParticipant, Finset.mem_filter]
    constructor
    · rintro ⟨m, ⟨hm, hne⟩, hk⟩
      exact ⟨⟨m, hm, hk⟩, hk ▸ hne⟩
    · rintro ⟨⟨m, hm, hk⟩, hne⟩
      exact ⟨m, ⟨hm, hk ▸ hne⟩, hk⟩
  rw [hmem]
  by_cases hc : c = c'
  · subst hc
    simp
  · simp [hc, Ne.symm hc]

end Store

/-! ## The calls -/

inductive Response
  | conversation (conversation : Conversation)
  | conversations (list : List Conversation)
  | participant (participantId : ParticipantId)
  | participants (list : Finset Participant)
  | page (page : MessagePage)
  | message (message : Message) (created : Bool)
  | done
deriving DecidableEq

namespace UseCaseRequest

/-- What a call returns that goes through on what it has read. -/
def returns (request : UseCaseRequest) (participants : Finset ParticipantId)
    (row : Option ConversationModel) : Except MessagingError Response :=
  let conversationId := request.conversationId
  match request.useCase with
  | .create title => do
      let conversation ← CreateConversation.execute conversationId ⟨request.actorId⟩ title request.now
      return .conversation conversation
  | .rename newTitle => do
      let conversation ← RenameConversation.execute participants conversationId ⟨request.actorId⟩
        newTitle request.now row
      return .conversation conversation
  | .delete => do
      let _ ← DeleteConversation.execute participants conversationId ⟨request.actorId⟩ request.now row
      return .done
  | .restore => do
      let conversation ← RestoreConversation.execute participants conversationId ⟨request.actorId⟩
        request.now row
      return .conversation conversation
  | .addParticipant email userId => do
      let (participantId, _) ← AddParticipant.execute participants conversationId ⟨request.actorId⟩
        email userId row
      return .participant participantId
  | .removeParticipant participantId => do
      let _ ← RemoveParticipant.execute participants conversationId ⟨request.actorId⟩ participantId row
      return .done

/-- The call on a store nobody else is writing to. -/
def run (request : UseCaseRequest) (s : Store) : Except WriteError (Store × Response) :=
  let participants := s.participantsOf request.conversationId
  let row := s.row request.conversationId
  match request.execute participants row, request.returns participants row with
  | .ok change, .ok response => match s.write change with
      | none => .error .integrityError
      | some s' => .ok (s', response)
  | .error e, _ | _, .error e => .error (.messaging e)

end UseCaseRequest

/-- `SessionScopedMessageWriter.from_user` on a store nobody else is writing to. -/
def PostMessage.fromUser (request : SendRequest) (now : Datetime) (s : Store) :
    Store × Except WriteError Response :=
  match PostMessage.ensureMayPost request (s.get request.conversationId) with
  | .error e => (s, .error (.messaging e))
  | .ok () =>
      let existing := request.clientMessageId.bind fun key =>
        MessageRepository.findByClientMessageId request.conversationId key s.messages
      match existing with
      | some existing => (s, .ok (.message existing false))
      | none =>
          let message := PostMessage.userMessage request (s.lastSeq + 1) now
          let drawn := { s with lastSeq := s.lastSeq + 1 }
          match drawn.insertMessage message with
          | none => (drawn, .error .integrityError)
          | some s' => (s', .ok (.message message true))

inductive StoreCall
  | useCase (request : UseCaseRequest)
  | fromUser (request : SendRequest) (now : Datetime)
  | listConversations (participantId : ParticipantId)
  | listParticipants (conversationId : ConversationId) (participantId : ParticipantId)
  | getConversationHistory (conversationId : ConversationId) (participantId : ParticipantId)
      (before : Option MessageId) (limit : ℕ)
  | ensureConversationAccess (conversationId : ConversationId) (participantId : ParticipantId)
deriving DecidableEq

namespace StoreCall

/-- A call that only reads: what it returns once its check lets it. -/
def reading (check : Except MessagingError Unit) (response : Response) : Except WriteError Response :=
  match check with
  | .error e => .error (.messaging e)
  | .ok () => .ok response

/-- One call, up to where its transaction commits; what it raises has rolled the transaction back. -/
def run (call : StoreCall) (s : Store) : Store × Except WriteError Response :=
  match call with
  | .useCase request => match request.run s with
      | .error e => (s, .error e)
      | .ok (s', response) => (s', .ok response)
  | .fromUser request now => PostMessage.fromUser request now s
  | .listConversations participantId =>
      (s, .ok (.conversations (ConversationRepository.listForParticipant participantId s.participants
        s.conversations)))
  | .listParticipants c participantId =>
      (s, reading (ListParticipants.ensureMayList (s.participantsOf c) c participantId (s.row c))
        (.participants (ConversationRepository.listParticipants c s.participants)))
  | .getConversationHistory c participantId before limit =>
      (s, reading (GetConversationHistory.ensureMayRead (s.participantsOf c) c participantId (s.row c))
        (.page (GetConversationHistory.page c before limit s.messages)))
  | .ensureConversationAccess c participantId =>
      (s, reading (EnsureConversationAccess.execute (s.participantsOf c) c participantId (s.row c))
        .done)

/-- One call with its commit, which may fail as well. A sequence number once drawn stays drawn. -/
def attempt (call : StoreCall) (commits : Bool) (s : Store) : Store × Except WriteError Response :=
  match call.run s, commits with
  | (s', .ok _), false => ({ s with lastSeq := s'.lastSeq }, .error .failed)
  | outcome, _ => outcome

end StoreCall

namespace Store

/-- The store after calls, each with whether its commit goes through. -/
def after (s : Store) : List (StoreCall × Bool) → Store
  | [] => s
  | (call, commits) :: calls => (call.attempt commits s).1.after calls

/-- The calls of the use cases among them that have succeeded. -/
def succeeded (s : Store) : List (StoreCall × Bool) → List UseCaseRequest
  | [] => []
  | (call, commits) :: calls =>
      let (s', outcome) := call.attempt commits s
      match call, outcome with
      | .useCase request, .ok _ => request :: s'.succeeded calls
      | _, _ => s'.succeeded calls

end Store

/-! ## What a call can do -/

section Calls

variable {request : UseCaseRequest} {s s' : Store} {response : Response}

/-- A use case decides and returns, or raises, in one go. -/
theorem Accepts.returns {participants : Finset ParticipantId}
    {row : Option ConversationModel} {change : Change}
    (h : Accepts request participants row change) :
    ∃ response, request.returns participants row = .ok response := by
  have hexecute := h.execute
  unfold UseCaseRequest.returns
  unfold UseCaseRequest.execute at hexecute
  cases huse : request.useCase with
  | create | rename | delete | restore | removeParticipant =>
      simp only [huse] at hexecute ⊢
      obtain ⟨conversation, hconversation, -⟩ := except_map_eq_ok.1 hexecute
      exact ⟨_, except_map_eq_ok.2 ⟨conversation, hconversation, rfl⟩⟩
  | addParticipant =>
      simp only [huse] at hexecute ⊢
      obtain ⟨added, hadded, -⟩ := except_map_eq_ok.1 hexecute
      exact ⟨_, except_map_eq_ok.2 ⟨added, hadded, rfl⟩⟩

theorem run_eq_ok (h : request.run s = .ok (s', response)) :
    ∃ change, Accepts request (s.participantsOf request.conversationId)
        (s.row request.conversationId) change ∧
      request.returns (s.participantsOf request.conversationId) (s.row request.conversationId) =
        .ok response ∧ s.Writes change s' := by
  unfold UseCaseRequest.run at h
  simp only at h
  split at h
  · next change response' hexecute hreturns =>
      split at h
      · cases h
      · next hwrite =>
          cases h
          exact ⟨change, execute_accepts hexecute, hreturns, Store.writes_of_write hwrite⟩
  · cases h
  · cases h

/-- The messages are as they were, and so is everything a use case writes. -/
def Store.Unchanged (s s' : Store) : Prop :=
  s'.conversations = s.conversations ∧ s'.participants = s.participants ∧ s'.messages = s.messages

/-- What a call leaves: a use case has succeeded, a message is posted, or nothing has changed. -/
inductive StoreCall.Leaves (s : Store) : StoreCall → Store → Except WriteError Response → Prop
  | succeeds {request : UseCaseRequest} {s' : Store} {response : Response}
      (h : request.run s = .ok (s', response)) : Leaves s (.useCase request) s' (.ok response)
  | posts {request : SendRequest} {now : Datetime} {s' : Store} {message : Message}
      (hmay : PostMessage.ensureMayPost request (s.get request.conversationId) = .ok ())
      (hconversation : message.conversationId = request.conversationId)
      (hconversations : s'.conversations = s.conversations)
      (hparticipants : s'.participants = s.participants)
      (hmessages : s'.messages = s.messages ++ [message]) :
      Leaves s (.fromUser request now) s' (.ok (.message message true))
  | nothing {call : StoreCall} {s' : Store} {outcome : Except WriteError Response}
      (hcall : ∀ request, call = .useCase request → ∃ e, outcome = .error e)
      (h : s.Unchanged s') : Leaves s call s' outcome

theorem fromUser_leaves (request : SendRequest) (now : Datetime) (s : Store) :
    StoreCall.Leaves s (.fromUser request now) (PostMessage.fromUser request now s).1
      (PostMessage.fromUser request now s).2 := by
  unfold PostMessage.fromUser
  split
  · exact .nothing (fun r hr => by cases hr) ⟨rfl, rfl, rfl⟩
  · next hmay =>
      simp only
      split
      · exact .nothing (fun r hr => by cases hr) ⟨rfl, rfl, rfl⟩
      · split
        · exact .nothing (fun r hr => by cases hr) ⟨rfl, rfl, rfl⟩
        · next s' hinsert =>
            unfold Store.insertMessage at hinsert
            split at hinsert
            · cases hinsert
              exact .posts hmay rfl rfl rfl rfl
            · cases hinsert

theorem run_leaves (call : StoreCall) (s : Store) :
    StoreCall.Leaves s call (call.run s).1 (call.run s).2 := by
  cases call with
  | useCase request =>
      cases h : request.run s with
      | error e =>
          simp only [StoreCall.run, h]
          exact .nothing (fun _ _ => ⟨e, rfl⟩) ⟨rfl, rfl, rfl⟩
      | ok result =>
          simp only [StoreCall.run, h]
          exact .succeeds h
  | fromUser request now => exact fromUser_leaves request now s
  | listConversations | listParticipants | getConversationHistory | ensureConversationAccess =>
      exact .nothing (fun r hr => by cases hr) ⟨rfl, rfl, rfl⟩

theorem attempt_leaves (call : StoreCall) (commits : Bool) (s : Store) :
    StoreCall.Leaves s call (call.attempt commits s).1 (call.attempt commits s).2 := by
  have hrun := run_leaves call s
  unfold StoreCall.attempt
  split
  · exact .nothing (fun _ _ => ⟨_, rfl⟩) ⟨rfl, rfl, rfl⟩
  · exact hrun

/-- A call among others: a use case has succeeded, or the rows a use case writes are as they were. -/
theorem attempt_cases (call : StoreCall) (commits : Bool) (calls : List (StoreCall × Bool))
    (s : Store) :
    (∃ request response, request.run s = .ok ((call.attempt commits s).1, response) ∧
        s.succeeded ((call, commits) :: calls) =
          request :: (call.attempt commits s).1.succeeded calls) ∨
      ((call.attempt commits s).1.conversations = s.conversations ∧
          (call.attempt commits s).1.participants = s.participants) ∧
        s.succeeded ((call, commits) :: calls) = (call.attempt commits s).1.succeeded calls := by
  have hleaves := attempt_leaves call commits s
  rw [Store.succeeded]
  generalize call.attempt commits s = result at hleaves
  obtain ⟨s', outcome⟩ := result
  cases hleaves with
  | @succeeds request _ response h => exact .inl ⟨request, response, h, rfl⟩
  | posts _ _ hconversations hparticipants =>
      exact .inr ⟨⟨hconversations, hparticipants⟩, rfl⟩
  | nothing hcall h =>
      refine .inr ⟨⟨h.1, h.2.1⟩, ?_⟩
      simp only
      split
      · next request response =>
          obtain ⟨e, he⟩ := hcall request rfl
          cases he
      · rfl

end Calls

end Dizzchat
