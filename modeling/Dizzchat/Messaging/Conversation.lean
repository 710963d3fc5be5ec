import Dizzchat.Shared.Values
import Mathlib.Data.Finset.SDiff
import Mathlib.Data.Finset.Lattice.Basic

set_option autoImplicit false

/-! # Conversations

The `Conversation` aggregate, its value objects, and the reads of the conversation repository. A
title carries the check of its constructor, so what a use case stores is a title that would be
accepted again. -/

namespace Dizzchat

structure ConversationId where
  value : UUID
deriving DecidableEq, Repr

structure OwnerId where
  value : UUID
deriving DecidableEq, Repr

structure ParticipantId where
  value : UUID
deriving DecidableEq, Repr

/-- The domain errors of the messaging context. -/
inductive MessagingError
  | invalidConversationTitle (value : String)
  | conversationNotFound (conversationId : ConversationId)
  | notConversationOwner
  | notConversationParticipant
  | participantUserNotFound (email : String)
  | cannotRemoveConversationOwner
  | invalidMessageContent
deriving DecidableEq, Repr

/-! ## Titles -/

/-- `_MAX_TITLE_LENGTH` -/
def maxTitleLength : Nat := 200

/-- A conversation title: trimmed, not empty and not too long. -/
structure ConversationTitle where
  value : String
  trimmed : strip value = value
  nonempty : value ≠ ""
  bounded : value.length ≤ maxTitleLength
deriving DecidableEq, Repr

/-- `ConversationTitle(value)` -/
def ConversationTitle.ofString (value : String) : Except MessagingError ConversationTitle :=
  let normalized := strip value
  if h : normalized = "" ∨ maxTitleLength < normalized.length then
    .error (.invalidConversationTitle value)
  else
    .ok { value := normalized
          trimmed := strip_idem value
          nonempty := fun he => h (Or.inl he)
          bounded := Nat.le_of_not_lt fun hl => h (Or.inr hl) }

/-- A stored title is accepted unchanged when its row is turned back into the aggregate. -/
theorem ConversationTitle.ofString_value (title : ConversationTitle) :
    ofString title.value = .ok title := by
  have hvalid : ¬ (title.value = "" ∨ maxTitleLength < title.value.length) := by
    rw [not_or]
    exact ⟨title.nonempty, Nat.not_lt.2 title.bounded⟩
  unfold ofString
  simp only [title.trimmed, dif_neg hvalid]

/-! ## The aggregate -/

structure Conversation where
  id : ConversationId
  ownerId : OwnerId
  title : ConversationTitle
  createdAt : Datetime
  updatedAt : Datetime
  deletedAt : Option Datetime := none
  participantIds : Finset ParticipantId := ∅
deriving DecidableEq

namespace Conversation

/-- Start a conversation owned by `ownerId`, who is also its first participant. -/
def start (conversationId : ConversationId) (ownerId : OwnerId) (title : ConversationTitle)
    (createdAt : Datetime) : Conversation where
  id := conversationId
  ownerId := ownerId
  title := title
  createdAt := createdAt
  updatedAt := createdAt
  participantIds := {⟨ownerId.value⟩}

def rename (conversation : Conversation) (newTitle : ConversationTitle) (now : Datetime) :
    Conversation :=
  { conversation with title := newTitle, updatedAt := now }

/-- Soft-delete; re-deleting keeps the original timestamp. -/
def delete (conversation : Conversation) (now : Datetime) : Conversation :=
  match conversation.deletedAt with
  | none => { conversation with deletedAt := some now, updatedAt := now }
  | some _ => conversation

/-- Undo a soft-delete; restoring an active conversation changes nothing. -/
def restore (conversation : Conversation) (now : Datetime) : Conversation :=
  match conversation.deletedAt with
  | some _ => { conversation with deletedAt := none, updatedAt := now }
  | none => conversation

def ensureOwnedBy (conversation : Conversation) (ownerId : OwnerId) : Except MessagingError Unit :=
  if conversation.ownerId = ownerId then .ok () else .error .notConversationOwner

def isParticipant (conversation : Conversation) (participantId : ParticipantId) : Bool :=
  decide (participantId ∈ conversation.participantIds)

def ensureParticipant (conversation : Conversation) (participantId : ParticipantId) :
    Except MessagingError Unit :=
  if conversation.isParticipant participantId then .ok () else .error .notConversationParticipant

/-- Admit a user; the flag tells whether the membership is new. -/
def addParticipant (conversation : Conversation) (participantId : ParticipantId) :
    Conversation × Bool :=
  if conversation.isParticipant participantId then (conversation, false)
  else ({ conversation with
    participantIds := conversation.participantIds ∪ {participantId} }, true)

/-- Remove a participant, refusing to remove the owner. -/
def removeParticipant (conversation : Conversation) (participantId : ParticipantId) :
    Except MessagingError Conversation :=
  if participantId.value = conversation.ownerId.value then .error .cannotRemoveConversationOwner
  else if conversation.isParticipant participantId then
    .ok { conversation with participantIds := conversation.participantIds \ {participantId} }
  else .error .notConversationParticipant

def isDeleted (conversation : Conversation) : Bool := conversation.deletedAt.isSome

theorem isParticipant_start (conversationId : ConversationId) (ownerId : OwnerId)
    (title : ConversationTitle) (createdAt : Datetime) :
    (start conversationId ownerId title createdAt).isParticipant ⟨ownerId.value⟩ = true := by
  simp [start, isParticipant]

/-- The owner stays a participant whoever is removed. -/
theorem isParticipant_owner_removeParticipant {conversation conversation' : Conversation}
    {participantId : ParticipantId}
    (howner : conversation.isParticipant ⟨conversation.ownerId.value⟩ = true)
    (h : conversation.removeParticipant participantId = .ok conversation') :
    conversation'.isParticipant ⟨conversation'.ownerId.value⟩ = true := by
  unfold removeParticipant at h
  split at h
  · cases h
  · next hne =>
      split at h
      · obtain rfl := Except.ok.inj h
        have hne' : (⟨conversation.ownerId.value⟩ : ParticipantId) ≠ participantId :=
          fun he => hne (he ▸ rfl)
        simpa [isParticipant, hne'] using howner
      · cases h

end Conversation

/-! ## Rows -/

/-- A row of `conversations`. The title is only ever written from a `ConversationTitle`, and is
    kept as one. -/
structure ConversationModel where
  id : ConversationId
  ownerId : OwnerId
  title : ConversationTitle
  createdAt : Datetime
  updatedAt : Datetime
  deletedAt : Option Datetime
deriving DecidableEq

namespace ConversationModel

/-- `_to_domain`: a row together with the participants loaded beside it. -/
def toDomain (model : ConversationModel) (participants : Finset ParticipantId) : Conversation where
  id := model.id
  ownerId := model.ownerId
  title := model.title
  createdAt := model.createdAt
  updatedAt := model.updatedAt
  deletedAt := model.deletedAt
  participantIds := participants

/-- The `SET` clause of `SqlAlchemyConversationRepository.update`. -/
def update (conversation : Conversation) (model : ConversationModel) : ConversationModel :=
  { model with
    title := conversation.title
    updatedAt := conversation.updatedAt
    deletedAt := conversation.deletedAt }

end ConversationModel

namespace ConversationRepository

/-- `get_including_deleted`, on the row found under the id. -/
def getIncludingDeleted (participants : Finset ParticipantId) (row : Option ConversationModel) :
    Option Conversation :=
  row.map fun model => model.toDomain participants

/-- `get`, on the row found under the id: a deleted conversation is not seen. -/
def get (participants : Finset ParticipantId) (row : Option ConversationModel) :
    Option Conversation :=
  (row.filter fun model => model.deletedAt.isNone).map fun model => model.toDomain participants

theorem get_of_active {participants : Finset ParticipantId} {row : ConversationModel}
    (h : row.deletedAt = none) : get participants (some row) = some (row.toDomain participants) := by
  simp [get, Option.filter_some, h]

theorem get_of_deleted {participants : Finset ParticipantId} {row : ConversationModel}
    {t : Datetime} (h : row.deletedAt = some t) : get participants (some row) = none := by
  simp [get, Option.filter_some, h]

end ConversationRepository

end Dizzchat
