import Dizzchat.Messaging.ReplayMessages

set_option autoImplicit false

/-! # Rows of messages

The columns of the `messages` table, `create`, `_to_domain`, and `list_since` over rows. The rest of the
development keeps a row as the `Message` that `_to_domain` rebuilds from it; `listSince_models` says
that reading the rows and rebuilding is the same. -/

namespace Dizzchat

structure MessageModel where
  id : Int
  conversationId : UUID
  senderId : Option UUID
  role : String
  content : String
  createdAt : Datetime
  clientMessageId : Option UUID
deriving DecidableEq, Repr

def MessageRole.value : MessageRole → String
  | .user => "user"
  | .assistant => "assistant"

/-- `MessageRole(value)` -/
def MessageRole.ofString (value : String) : Option MessageRole :=
  if value = "user" then some .user else if value = "assistant" then some .assistant else none

@[simp]
theorem MessageRole.ofString_value (role : MessageRole) :
    MessageRole.ofString role.value = some role := by
  cases role <;> decide

@[simp]
theorem MessageContent.ofString_value (content : MessageContent) :
    MessageContent.ofString content.value = .ok content :=
  dif_neg content.nonblank

namespace SqlAlchemyMessageRepository

/-- The row `create` adds, with the id the database assigns at the flush. -/
def create (id : Int) (conversationId : ConversationId) (senderId : Option SenderId)
    (role : MessageRole) (content : MessageContent) (createdAt : Datetime)
    (clientMessageId : Option ClientMessageId) : MessageModel where
  id := id
  conversationId := conversationId.value
  senderId := senderId.map SenderId.value
  role := role.value
  content := content.value
  createdAt := createdAt
  clientMessageId := clientMessageId.map ClientMessageId.value

/-- `_to_domain`; `none` where a value object refuses its column. -/
def toDomain (model : MessageModel) : Option Message := do
  let role ← MessageRole.ofString model.role
  let content ← (MessageContent.ofString model.content).toOption
  return {
    id := ⟨model.id⟩
    conversationId := ⟨model.conversationId⟩
    senderId := model.senderId.map SenderId.mk
    role := role
    content := content
    createdAt := model.createdAt
    clientMessageId := model.clientMessageId.map ClientMessageId.mk
  }

/-- `list_since`: the rows of the conversation beyond the cursor, in ascending order, rebuilt. -/
def listSince (conversationId : ConversationId) (after : Option MessageId) (limit : ℕ)
    (rows : List MessageModel) : Option (List Message) :=
  (Transition.Keyset.page MessageModel.id (after.map MessageId.value) limit
    (rows.filter fun row => decide (row.conversationId = conversationId.value))).mapM toDomain

theorem toDomain_create (id : Int) (conversationId : ConversationId) (senderId : Option SenderId)
    (role : MessageRole) (content : MessageContent) (createdAt : Datetime)
    (clientMessageId : Option ClientMessageId) :
    toDomain (create id conversationId senderId role content createdAt clientMessageId) =
      some ⟨⟨id⟩, conversationId, senderId, role, content, createdAt, clientMessageId⟩ := by
  simp [toDomain, create, Except.toOption, Function.comp_def]

end SqlAlchemyMessageRepository

/-- The row a message is stored in. -/
def Message.model (message : Message) : MessageModel :=
  SqlAlchemyMessageRepository.create message.id.value message.conversationId message.senderId
    message.role message.content message.createdAt message.clientMessageId

@[simp]
theorem toDomain_model (message : Message) :
    SqlAlchemyMessageRepository.toDomain message.model = some message :=
  SqlAlchemyMessageRepository.toDomain_create _ _ _ _ _ _ _

/-- `list_since` over the rows rebuilds the page that `list_since` finds among the messages. -/
theorem listSince_models (conversationId : ConversationId) (after : Option MessageId) (limit : ℕ)
    (messages : List Message) :
    SqlAlchemyMessageRepository.listSince conversationId after limit (messages.map Message.model) =
      some (MessageRepository.listSince conversationId after limit messages) := by
  have hrebuild : ∀ page : List Message,
      (page.map Message.model).mapM SqlAlchemyMessageRepository.toDomain = some page := by
    intro page
    induction page with
    | nil => rfl
    | cons m page ih => simp [ih]
  have hconversation : (fun row : MessageModel =>
      decide (row.conversationId = conversationId.value)) ∘ Message.model =
        fun m => decide (m.conversationId = conversationId) := by
    funext m
    rw [Function.comp_apply, decide_eq_decide]
    show m.conversationId.value = conversationId.value ↔ _
    exact ConversationId.mk.injEq _ _ ▸ Iff.rfl
  unfold SqlAlchemyMessageRepository.listSince
  rw [List.filter_map, hconversation, Transition.Keyset.page_map]
  exact hrebuild _

end Dizzchat
