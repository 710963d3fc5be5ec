import Dizzchat.Messaging.Lifecycle
import Dizzchat.Messaging.Participants

set_option autoImplicit false

/-! # The use cases that change a conversation

`CreateConversation`, `RenameConversation`, `DeleteConversation`, `RestoreConversation`,
`AddParticipant` and `RemoveParticipant` as one kind of call: what a call decides on the row and the
participants it reads, and which write it asks the repository for. A write method takes attributes and
not the aggregate, so a `Change` holds what is passed to it and nothing else.

A call reads its clock once, `CreateConversation` draws one id and `AddParticipant` asks the directory
once; the answers belong to the request. -/

namespace Dizzchat

inductive UseCase
  | create (title : String)
  | rename (newTitle : String)
  | delete
  | restore
  /-- With what the directory answers to the email. -/
  | addParticipant (email : String) (userId : Option UUID)
  | removeParticipant (participantId : ParticipantId)
deriving DecidableEq

/-- One call: what it does to which conversation, who makes it, and what its clock will read. The
    conversation of a `create` is the one `uuid4` will name. -/
structure UseCaseRequest where
  useCase : UseCase
  conversationId : ConversationId
  actorId : UUID
  now : Datetime
deriving DecidableEq

def CreateConversation.execute (conversationId : ConversationId) (ownerId : OwnerId) (title : String)
    (now : Datetime) : Except MessagingError Conversation := do
  let title ← ConversationTitle.ofString title
  return Conversation.start conversationId ownerId title now

/-- The call of a repository method that writes. -/
inductive Change
  /-- `create`, with the rows it adds. -/
  | create (model : ConversationModel) (members : Finset ConversationParticipantModel)
  /-- `update`, with the aggregate its attributes are taken from. -/
  | update (conversation : Conversation)
  | addParticipant (member : ConversationParticipantModel)
  | removeParticipant (conversationId : ConversationId) (participantId : ParticipantId)
  /-- A known participant is admitted: there is nothing to write. -/
  | nothing
deriving DecidableEq

/-- The rows `SqlAlchemyConversationRepository.create` adds. -/
def ConversationRepository.create (conversation : Conversation) : Change :=
  .create
    { id := conversation.id
      ownerId := conversation.ownerId
      title := conversation.title
      createdAt := conversation.createdAt
      updatedAt := conversation.updatedAt
      deletedAt := none }
    (conversation.participantIds.image fun participantId =>
      ⟨conversation.id, participantId, conversation.createdAt⟩)

namespace UseCaseRequest

/-- The call reads the conversation before it writes. -/
def reads (request : UseCaseRequest) : Bool :=
  match request.useCase with
  | .create _ => false
  | .rename _ | .delete | .restore | .addParticipant .. | .removeParticipant _ => true

/-- What a call decides on the row and the participants it has read. -/
def execute (request : UseCaseRequest) (participants : Finset ParticipantId)
    (row : Option ConversationModel) : Except MessagingError Change :=
  let conversationId := request.conversationId
  match request.useCase with
  | .create title => do
      let conversation ← CreateConversation.execute conversationId ⟨request.actorId⟩ title request.now
      return ConversationRepository.create conversation
  | .rename newTitle => do
      let conversation ← RenameConversation.execute participants conversationId ⟨request.actorId⟩
        newTitle request.now row
      return .update conversation
  | .delete => do
      let conversation ← DeleteConversation.execute participants conversationId ⟨request.actorId⟩
        request.now row
      return .update conversation
  | .restore => do
      let conversation ← RestoreConversation.execute participants conversationId ⟨request.actorId⟩
        request.now row
      return .update conversation
  | .addParticipant email userId => do
      let (participantId, isNew) ← AddParticipant.execute participants conversationId
        ⟨request.actorId⟩ email userId row
      return if isNew then .addParticipant ⟨conversationId, participantId, request.now⟩ else .nothing
  | .removeParticipant participantId => do
      let _ ← RemoveParticipant.execute participants conversationId ⟨request.actorId⟩ participantId row
      return .removeParticipant conversationId participantId

end UseCaseRequest

/-! ## What a call decides -/

/-- The calls that go through, one constructor for each: on what they find, and what they write. -/
inductive Accepts (request : UseCaseRequest) (participants : Finset ParticipantId) :
    Option ConversationModel → Change → Prop
  | create {row : Option ConversationModel} {value : String} {title : ConversationTitle}
      (h : request.useCase = .create value) (htitle : ConversationTitle.ofString value = .ok title) :
      Accepts request participants row (ConversationRepository.create
        (Conversation.start request.conversationId ⟨request.actorId⟩ title request.now))
  | rename {model : ConversationModel} {value : String} {title : ConversationTitle}
      (h : request.useCase = .rename value) (hactive : model.deletedAt = none)
      (howner : model.ownerId = ⟨request.actorId⟩)
      (htitle : ConversationTitle.ofString value = .ok title) :
      Accepts request participants (some model)
        (.update ((model.toDomain participants).rename title request.now))
  | delete {model : ConversationModel} (h : request.useCase = .delete)
      (hactive : model.deletedAt = none) (howner : model.ownerId = ⟨request.actorId⟩) :
      Accepts request participants (some model)
        (.update ((model.toDomain participants).delete request.now))
  | restore {model : ConversationModel} (h : request.useCase = .restore)
      (howner : model.ownerId = ⟨request.actorId⟩) :
      Accepts request participants (some model)
        (.update ((model.toDomain participants).restore request.now))
  | add {model : ConversationModel} {email : String} {participantId : ParticipantId}
      (h : request.useCase = .addParticipant email (some participantId.value))
      (hactive : model.deletedAt = none) (howner : model.ownerId = ⟨request.actorId⟩)
      (hnew : participantId ∉ participants) :
      Accepts request participants (some model)
        (.addParticipant ⟨request.conversationId, participantId, request.now⟩)
  | addAgain {model : ConversationModel} {email : String} {participantId : ParticipantId}
      (h : request.useCase = .addParticipant email (some participantId.value))
      (hactive : model.deletedAt = none) (howner : model.ownerId = ⟨request.actorId⟩)
      (hmember : participantId ∈ participants) :
      Accepts request participants (some model) .nothing
  | remove {model : ConversationModel} {participantId : ParticipantId}
      (h : request.useCase = .removeParticipant participantId) (hactive : model.deletedAt = none)
      (hactor : model.ownerId = ⟨request.actorId⟩ ∨ request.actorId = participantId.value)
      (howner : participantId.value ≠ model.ownerId.value) (hmember : participantId ∈ participants) :
      Accepts request participants (some model)
        (.removeParticipant request.conversationId participantId)

section Outcomes

variable {request : UseCaseRequest} {participants : Finset ParticipantId}
  {row : Option ConversationModel} {change : Change}

theorem create_eq_ok {conversationId : ConversationId} {ownerId : OwnerId} {value : String}
    {now : Datetime} {conversation : Conversation} :
    CreateConversation.execute conversationId ownerId value now = .ok conversation ↔
      ∃ title, ConversationTitle.ofString value = .ok title ∧
        conversation = Conversation.start conversationId ownerId title now := by
  unfold CreateConversation.execute
  cases ConversationTitle.ofString value <;>
    simp [bind, Except.bind, pure, Except.pure, eq_comm]

theorem except_map_eq_ok {α β : Type} {x : Except MessagingError α} {f : α → β} {b : β} :
    (do let a ← x; return f a) = Except.ok b ↔ ∃ a, x = .ok a ∧ f a = b := by
  cases x <;> simp [bind, Except.bind, pure, Except.pure]

theorem execute_accepts (h : request.execute participants row = .ok change) :
    Accepts request participants row change := by
  unfold UseCaseRequest.execute at h
  cases huse : request.useCase with
  | create value =>
      simp only [huse] at h
      obtain ⟨_, hcreate, rfl⟩ := except_map_eq_ok.1 h
      obtain ⟨title, htitle, rfl⟩ := create_eq_ok.1 hcreate
      exact .create huse htitle
  | rename value =>
      simp only [huse] at h
      obtain ⟨_, hrename, rfl⟩ := except_map_eq_ok.1 h
      cases row with
      | none => cases hrename
      | some model =>
          obtain ⟨hactive, howner, title, htitle, rfl⟩ := rename_eq_ok.1 hrename
          exact .rename huse hactive howner htitle
  | delete =>
      simp only [huse] at h
      obtain ⟨_, hdelete, rfl⟩ := except_map_eq_ok.1 h
      cases row with
      | none => cases hdelete
      | some model =>
          obtain ⟨hactive, howner, rfl⟩ := delete_eq_ok.1 hdelete
          exact .delete huse hactive howner
  | restore =>
      simp only [huse] at h
      obtain ⟨_, hrestore, rfl⟩ := except_map_eq_ok.1 h
      cases row with
      | none => cases hrestore
      | some model =>
          obtain ⟨howner, rfl⟩ := restore_eq_ok.1 hrestore
          exact .restore huse howner
  | addParticipant email userId =>
      simp only [huse] at h
      obtain ⟨⟨participantId, isNew⟩, hadd, heq⟩ := except_map_eq_ok.1 h
      obtain ⟨model, rfl, hactive, howner, rfl, rfl⟩ := addParticipant_eq_ok.1 hadd
      by_cases hmember : participantId ∈ participants
      · obtain rfl : Change.nothing = change := by simpa [hmember] using heq
        exact .addAgain huse hactive howner hmember
      · obtain rfl : _ = change := by simpa [hmember] using heq
        exact .add huse hactive howner hmember
  | removeParticipant participantId =>
      simp only [huse] at h
      obtain ⟨_, hremove, rfl⟩ := except_map_eq_ok.1 h
      obtain ⟨model, rfl, hactive, hactor, howner, hmember, rfl⟩ := removeParticipant_eq_ok.1 hremove
      refine .remove huse hactive (hactor.imp_right fun hself => ?_) howner hmember
      rw [← hself]

theorem Accepts.execute (h : Accepts request participants row change) :
    request.execute participants row = .ok change := by
  unfold UseCaseRequest.execute
  cases h with
  | create huse htitle =>
      simp only [huse]
      exact except_map_eq_ok.2 ⟨_, create_eq_ok.2 ⟨_, htitle, rfl⟩, rfl⟩
  | rename huse hactive howner htitle =>
      simp only [huse]
      exact except_map_eq_ok.2 ⟨_, rename_eq_ok.2 ⟨hactive, howner, _, htitle, rfl⟩, rfl⟩
  | delete huse hactive howner =>
      simp only [huse]
      exact except_map_eq_ok.2 ⟨_, delete_eq_ok.2 ⟨hactive, howner, rfl⟩, rfl⟩
  | restore huse howner =>
      simp only [huse]
      exact except_map_eq_ok.2 ⟨_, restore_eq_ok.2 ⟨howner, rfl⟩, rfl⟩
  | add huse hactive howner hnew =>
      simp only [huse]
      refine except_map_eq_ok.2
        ⟨(_, true), addParticipant_eq_ok.2 ⟨_, rfl, hactive, howner, rfl, ?_⟩, rfl⟩
      exact (decide_eq_true hnew).symm
  | addAgain huse hactive howner hmember =>
      simp only [huse]
      refine except_map_eq_ok.2
        ⟨(_, false), addParticipant_eq_ok.2 ⟨_, rfl, hactive, howner, rfl, ?_⟩, rfl⟩
      exact (decide_eq_false (not_not_intro hmember)).symm
  | @remove model participantId huse hactive hactor howner hmember =>
      simp only [huse]
      refine except_map_eq_ok.2 ⟨_, removeParticipant_eq_ok.2
        ⟨_, rfl, hactive, hactor.imp_right fun hself => ?_, howner, hmember, rfl⟩, rfl⟩
      rw [hself]

/-- A call goes through exactly on what it accepts. -/
theorem execute_eq_ok :
    request.execute participants row = .ok change ↔ Accepts request participants row change :=
  ⟨execute_accepts, Accepts.execute⟩

end Outcomes

end Dizzchat
