import Dizzchat.Messaging.PostMessage
import Mathlib.Data.Finset.Image

set_option autoImplicit false

/-! # Membership

The rows of `conversation_participants` and the use cases that read or change them, each as what it
decides on the conversation it has read. The participants of a conversation are loaded with its row;
what the user directory answers to an email is an argument. -/

namespace Dizzchat

/-! ## Rows -/

/-- A row of `conversation_participants`. -/
structure ConversationParticipantModel where
  conversationId : ConversationId
  userId : ParticipantId
  joinedAt : Datetime
deriving DecidableEq

/-- The composite primary key. -/
def ConversationParticipantModel.key (model : ConversationParticipantModel) :
    ConversationId × ParticipantId :=
  (model.conversationId, model.userId)

/-- The participants loaded beside the row of a conversation. -/
def participantsOf (conversationId : ConversationId)
    (members : Finset ConversationParticipantModel) : Finset ParticipantId :=
  (members.filter fun m => m.conversationId = conversationId).image
    ConversationParticipantModel.userId

theorem mem_participantsOf {conversationId : ConversationId} {participantId : ParticipantId}
    {members : Finset ConversationParticipantModel} :
    participantId ∈ participantsOf conversationId members ↔
      ∃ m ∈ members, m.key = (conversationId, participantId) := by
  simp only [participantsOf, Finset.mem_image, Finset.mem_filter, and_assoc,
    ConversationParticipantModel.key, Prod.mk.injEq]

/-- The read-side view of a membership. -/
structure Participant where
  id : ParticipantId
  joinedAt : Datetime
deriving DecidableEq

/-- The rows of `list_participants`; it returns them in the order of `joined_at`. -/
def ConversationRepository.listParticipants (conversationId : ConversationId)
    (members : Finset ConversationParticipantModel) : Finset Participant :=
  (members.filter fun m => m.conversationId = conversationId).image fun m => ⟨m.userId, m.joinedAt⟩

/-! ## The use cases -/

section UseCases

variable (participants : Finset ParticipantId) (conversationId : ConversationId)

def EnsureConversationAccess.execute (participantId : ParticipantId)
    (row : Option ConversationModel) : Except MessagingError Unit :=
  match ConversationRepository.get participants row with
  | none => .error (.conversationNotFound conversationId)
  | some conversation => conversation.ensureParticipant participantId

/-- The check `ListParticipants.execute` makes before it reads the memberships. -/
def ListParticipants.ensureMayList (participantId : ParticipantId)
    (row : Option ConversationModel) : Except MessagingError Unit :=
  match ConversationRepository.get participants row with
  | none => .error (.conversationNotFound conversationId)
  | some conversation => conversation.ensureParticipant participantId

/-- The check `GetConversationHistory.execute` makes before it reads a page. -/
def GetConversationHistory.ensureMayRead (participantId : ParticipantId)
    (row : Option ConversationModel) : Except MessagingError Unit :=
  match ConversationRepository.get participants row with
  | none => .error (.conversationNotFound conversationId)
  | some conversation => conversation.ensureParticipant participantId

/-- The check `AddParticipant.execute` makes before it asks the directory. -/
def AddParticipant.ensureMayInvite (ownerId : OwnerId) (row : Option ConversationModel) :
    Except MessagingError Conversation :=
  match ConversationRepository.get participants row with
  | none => .error (.conversationNotFound conversationId)
  | some conversation => do
      conversation.ensureOwnedBy ownerId
      return conversation

/-- What `AddParticipant.execute` does with the answer of the directory: the participant, and whether
    the membership is new and has to be stored. -/
def AddParticipant.addUser (email : String) (userId : Option UUID) (conversation : Conversation) :
    Except MessagingError (ParticipantId × Bool) :=
  match userId with
  | none => .error (.participantUserNotFound email)
  | some userId => .ok (⟨userId⟩, (conversation.addParticipant ⟨userId⟩).2)

def AddParticipant.execute (ownerId : OwnerId) (email : String) (userId : Option UUID)
    (row : Option ConversationModel) : Except MessagingError (ParticipantId × Bool) := do
  let conversation ← AddParticipant.ensureMayInvite participants conversationId ownerId row
  AddParticipant.addUser email userId conversation

/-- The aggregate after the removal; the row of the membership is deleted in the same transaction. -/
def RemoveParticipant.execute (actorId participantId : ParticipantId)
    (row : Option ConversationModel) : Except MessagingError Conversation :=
  match ConversationRepository.get participants row with
  | none => .error (.conversationNotFound conversationId)
  | some conversation =>
      if conversation.ownerId ≠ ⟨actorId.value⟩ ∧ actorId ≠ participantId then
        .error .notConversationOwner
      else conversation.removeParticipant participantId

end UseCases

/-! ## What a use case decides -/

section Outcomes

variable {participants : Finset ParticipantId} {conversationId : ConversationId}
  {row : Option ConversationModel}

theorem get_eq_some {conversation : Conversation} :
    ConversationRepository.get participants row = some conversation ↔
      ∃ model, row = some model ∧ model.deletedAt = none ∧
        conversation = model.toDomain participants := by
  cases row with
  | none => simp [ConversationRepository.get]
  | some model =>
      cases hdeleted : model.deletedAt with
      | none => simp [ConversationRepository.get_of_active hdeleted, hdeleted, eq_comm]
      | some t => simp [ConversationRepository.get_of_deleted hdeleted, hdeleted]

theorem ensureParticipant_eq_ok {conversation : Conversation} {participantId : ParticipantId} :
    conversation.ensureParticipant participantId = .ok () ↔
      participantId ∈ conversation.participantIds := by
  simp [Conversation.ensureParticipant, Conversation.isParticipant]

theorem ensureConversationAccess_eq_ok {participantId : ParticipantId} :
    EnsureConversationAccess.execute participants conversationId participantId row = .ok () ↔
      (∃ model, row = some model ∧ model.deletedAt = none) ∧ participantId ∈ participants := by
  unfold EnsureConversationAccess.execute
  cases hget : ConversationRepository.get participants row with
  | none =>
      simp only [reduceCtorEq, false_iff]
      rintro ⟨⟨model, hrow, hdeleted⟩, -⟩
      cases hget.symm.trans (get_eq_some.2 ⟨model, hrow, hdeleted, rfl⟩)
  | some conversation =>
      obtain ⟨model, hrow, hdeleted, rfl⟩ := get_eq_some.1 hget
      simp only [ensureParticipant_eq_ok]
      exact ⟨fun h => ⟨⟨model, hrow, hdeleted⟩, h⟩, fun h => h.2⟩

theorem ensureMayInvite_eq_ok {ownerId : OwnerId} {conversation : Conversation} :
    AddParticipant.ensureMayInvite participants conversationId ownerId row = .ok conversation ↔
      ∃ model, row = some model ∧ model.deletedAt = none ∧ model.ownerId = ownerId ∧
        conversation = model.toDomain participants := by
  unfold AddParticipant.ensureMayInvite
  cases hget : ConversationRepository.get participants row with
  | none =>
      simp only [reduceCtorEq, false_iff]
      rintro ⟨model, hrow, hactive, -, -⟩
      cases hget.symm.trans (get_eq_some.2 ⟨model, hrow, hactive, rfl⟩)
  | some conversation₀ =>
      obtain ⟨model, rfl, hactive, rfl⟩ := get_eq_some.1 hget
      by_cases howner : model.ownerId = ownerId
      · simp [Conversation.ensureOwnedBy, ConversationModel.toDomain, howner, hactive, bind,
          Except.bind, pure, Except.pure, eq_comm]
      · simp [Conversation.ensureOwnedBy, ConversationModel.toDomain, howner, bind, Except.bind]

theorem addParticipant_eq_ok {ownerId : OwnerId} {email : String} {userId : Option UUID}
    {participantId : ParticipantId} {isNew : Bool} :
    AddParticipant.execute participants conversationId ownerId email userId row =
        .ok (participantId, isNew) ↔
      ∃ model, row = some model ∧ model.deletedAt = none ∧ model.ownerId = ownerId ∧
        userId = some participantId.value ∧ isNew = decide (participantId ∉ participants) := by
  unfold AddParticipant.execute
  cases hmay : AddParticipant.ensureMayInvite participants conversationId ownerId row with
  | error e =>
      simp only [bind, Except.bind, reduceCtorEq, false_iff]
      rintro ⟨model, hrow, hactive, howner, -⟩
      cases hmay.symm.trans (ensureMayInvite_eq_ok.2 ⟨model, hrow, hactive, howner, rfl⟩)
  | ok conversation =>
      obtain ⟨model, rfl, hactive, howner, rfl⟩ := ensureMayInvite_eq_ok.1 hmay
      cases userId with
      | none => simp [AddParticipant.addUser, bind, Except.bind]
      | some userId =>
          have hnew : ((model.toDomain participants).addParticipant ⟨userId⟩).2 =
              decide ((⟨userId⟩ : ParticipantId) ∉ participants) := by
            by_cases hmember : (⟨userId⟩ : ParticipantId) ∈ participants <;>
              simp [Conversation.addParticipant, Conversation.isParticipant,
                ConversationModel.toDomain, hmember]
          simp only [AddParticipant.addUser, bind, Except.bind, hnew, Except.ok.injEq, Prod.mk.injEq,
            Option.some.injEq]
          constructor
          · rintro ⟨rfl, rfl⟩
            exact ⟨model, rfl, hactive, howner, rfl, rfl⟩
          · rintro ⟨_, _, _, _, rfl, rfl⟩
            exact ⟨rfl, rfl⟩

theorem removeParticipant_eq_ok {actorId participantId : ParticipantId} {conversation : Conversation} :
    RemoveParticipant.execute participants conversationId actorId participantId row =
        .ok conversation ↔
      ∃ model, row = some model ∧ model.deletedAt = none ∧
        (model.ownerId = ⟨actorId.value⟩ ∨ actorId = participantId) ∧
        participantId.value ≠ model.ownerId.value ∧ participantId ∈ participants ∧
        conversation = model.toDomain (participants \ {participantId}) := by
  unfold RemoveParticipant.execute
  cases hget : ConversationRepository.get participants row with
  | none =>
      simp only [reduceCtorEq, false_iff]
      rintro ⟨model, hrow, hactive, -⟩
      cases hget.symm.trans (get_eq_some.2 ⟨model, hrow, hactive, rfl⟩)
  | some conversation₀ =>
      obtain ⟨model, rfl, hactive, rfl⟩ := get_eq_some.1 hget
      by_cases hactor : model.ownerId = ⟨actorId.value⟩ ∨ actorId = participantId
      · have hguard : ¬ ((model.toDomain participants).ownerId ≠ ⟨actorId.value⟩ ∧
            actorId ≠ participantId) := by
          rintro ⟨howner, hself⟩
          exact hactor.elim howner hself
        simp only [if_neg hguard]
        by_cases howner : participantId.value = model.ownerId.value
        · simp [Conversation.removeParticipant, ConversationModel.toDomain, howner]
        · by_cases hmember : participantId ∈ participants <;>
            simp [Conversation.removeParticipant, Conversation.isParticipant,
              ConversationModel.toDomain, howner, hmember, hactive, hactor, eq_comm]
      · have hguard : (model.toDomain participants).ownerId ≠ ⟨actorId.value⟩ ∧
            actorId ≠ participantId := not_or.1 hactor
        simp only [if_pos hguard]
        simp [hactor]

end Outcomes

end Dizzchat
