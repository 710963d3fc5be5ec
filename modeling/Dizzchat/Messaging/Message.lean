import Dizzchat.Messaging.Conversation

set_option autoImplicit false

/-! # Messages

The `Message` record, its value objects, the unique constraints of its table, and the mock
assistant. A row of `messages` is kept as the `Message` that `_to_domain` rebuilds from it. -/

namespace Dizzchat

/-- The `bigserial` sequence number a message is stored under. -/
structure MessageId where
  value : Int
deriving DecidableEq, Repr

structure SenderId where
  value : UUID
deriving DecidableEq, Repr

structure ClientMessageId where
  value : UUID
deriving DecidableEq, Repr

inductive MessageRole
  | user
  | assistant
deriving DecidableEq, Repr

/-- A message body: not blank. -/
structure MessageContent where
  value : String
  nonblank : strip value ≠ ""
deriving DecidableEq, Repr

/-- `MessageContent(value)` -/
def MessageContent.ofString (value : String) : Except MessagingError MessageContent :=
  if h : strip value = "" then .error .invalidMessageContent else .ok ⟨value, h⟩

structure Message where
  id : MessageId
  conversationId : ConversationId
  senderId : Option SenderId
  role : MessageRole
  content : MessageContent
  createdAt : Datetime
  clientMessageId : Option ClientMessageId := none
deriving DecidableEq, Repr

namespace Message

/-- The message is stored under the pair of a conversation and a client key. -/
def carries (conversationId : ConversationId) (clientMessageId : ClientMessageId)
    (message : Message) : Bool :=
  decide (message.conversationId = conversationId) &&
    decide (message.clientMessageId = some clientMessageId)

/-- Two rows that the primary key, or the unique constraint on the conversation and the client key
    with `NULL`s distinct, does not let stand side by side. -/
def clash (a b : Message) : Bool :=
  decide (a.id = b.id) ||
    (decide (a.conversationId = b.conversationId) && a.clientMessageId.isSome &&
      decide (a.clientMessageId = b.clientMessageId))

theorem carries_iff {conversationId : ConversationId} {clientMessageId : ClientMessageId}
    {message : Message} :
    message.carries conversationId clientMessageId = true ↔
      message.conversationId = conversationId ∧
        message.clientMessageId = some clientMessageId := by
  simp [carries]

theorem clash_of_carries {a b : Message} {conversationId : ConversationId}
    {clientMessageId : ClientMessageId} (ha : a.carries conversationId clientMessageId = true)
    (hb : b.carries conversationId clientMessageId = true) : clash a b = true := by
  obtain ⟨hac, hak⟩ := carries_iff.1 ha
  obtain ⟨hbc, hbk⟩ := carries_iff.1 hb
  simp [clash, hac, hak, hbc, hbk]

theorem clash_of_id_eq (a b : Message) (h : a.id = b.id) : clash a b = true := by
  simp [clash, h]

theorem clash_comm (a b : Message) : clash a b = clash b a := by
  unfold clash
  by_cases hid : a.id = b.id
  · simp [hid]
  · by_cases hkey : a.clientMessageId = b.clientMessageId
    · simp [hid, Ne.symm hid, hkey, eq_comm]
    · simp [hid, Ne.symm hid, hkey, Ne.symm hkey]

end Message

/-- `find_by_client_message_id`, among the committed rows. -/
def MessageRepository.findByClientMessageId (conversationId : ConversationId)
    (clientMessageId : ClientMessageId) (rows : List Message) : Option Message :=
  rows.find? (·.carries conversationId clientMessageId)

/-! ## The assistant -/

/-- `MockAssistantResponder.reply_to` -/
def MockAssistantResponder.replyTo (prompt : MessageContent) : MessageContent where
  value := "You said: " ++ prompt.value
  nonblank := strip_ne_empty (c := 'Y') (by simp) (by decide)

end Dizzchat
