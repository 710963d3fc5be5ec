import Dizzchat.Messaging.MessageModel
import Dizzchat.Shared.Isoformat
import Dizzchat.Shared.Uuid
import Dizzchat.Text.Json

set_option autoImplicit false

/-! # Outbound frames

The frames of the WebSocket protocol and the codec that carries a message between replicas. The two
spell the same seven fields, each in its own place. -/

namespace Dizzchat

open Text

/-- `str(x)` of a value object that may be absent. -/
def uuidJson (u : Option UUID) : Json :=
  match u with
  | some u => .str u.str
  | none => .null

namespace Protocol

def clientMessageId (message : Message) : Json :=
  uuidJson (message.clientMessageId.map ClientMessageId.value)

def messagePayload (message : Message) : Json :=
  .obj [
    ("id", .int message.id.value),
    ("conversation_id", .str message.conversationId.value.str),
    ("sender_id", uuidJson (message.senderId.map SenderId.value)),
    ("role", .str message.role.value),
    ("content", .str message.content.value),
    ("created_at", .str message.createdAt.isoformat),
    ("client_message_id", clientMessageId message)
  ]

def authOk : Json := .obj [("type", .str "auth.ok")]

def messageNew (message : Message) : Json :=
  .obj [("type", .str "message.new"), ("payload", messagePayload message)]

def messageAck (message : Message) : Json :=
  .obj [
    ("type", .str "message.ack"),
    ("payload", .obj [
      ("id", .int message.id.value),
      ("client_message_id", clientMessageId message),
      ("created_at", .str message.createdAt.isoformat)
    ])
  ]

def error (detail : String) : Json := .obj [("type", .str "error"), ("error", .str detail)]

end Protocol

/-! ## The codec -/

namespace MessageCodec

def payload (message : Message) : Json :=
  .obj [
    ("id", .int message.id.value),
    ("conversation_id", .str message.conversationId.value.str),
    ("sender_id", uuidJson (message.senderId.map SenderId.value)),
    ("role", .str message.role.value),
    ("content", .str message.content.value),
    ("created_at", .str message.createdAt.isoformat),
    ("client_message_id", uuidJson (message.clientMessageId.map ClientMessageId.value))
  ]

def encode (message : Message) : ByteArray :=
  (String.ofList (payload message).dumps).toUTF8

/-- `raw[key]` where it is a string. -/
def text (raw : Json) (key : String) : Option String :=
  match raw.get? key with
  | some (.str s) => some s
  | _ => none

def uuid (raw : Json) (key : String) : Option UUID :=
  (text raw key).bind UUID.ofHex

/-- `UUID(x) if x is not None else None` of `raw[key]`. -/
def optionalUuid (raw : Json) (key : String) : Option (Option UUID) :=
  match raw.get? key with
  | some .null => some none
  | some (.str s) => (UUID.ofHex s).map some
  | _ => none

/-- The message that a parsed payload describes; `none` where `decode` raises. -/
def ofPayload (raw : Json) : Option Message := do
  let id ← match raw.get? "id" with
    | some (.int n) => some n
    | _ => none
  let conversationId ← uuid raw "conversation_id"
  let senderId ← optionalUuid raw "sender_id"
  let role ← (text raw "role").bind MessageRole.ofString
  let content ← (text raw "content").bind fun value => (MessageContent.ofString value).toOption
  let createdAt ← (text raw "created_at").bind Datetime.fromisoformat
  let clientMessageId ← optionalUuid raw "client_message_id"
  return {
    id := ⟨id⟩
    conversationId := ⟨conversationId⟩
    senderId := senderId.map SenderId.mk
    role := role
    content := content
    createdAt := createdAt
    clientMessageId := clientMessageId.map ClientMessageId.mk
  }

/-- `decode` of UTF-8 bytes. -/
def decode (data : ByteArray) : Option Message :=
  (String.fromUTF8? data).bind fun text => (Json.loads text.toList).bind ofPayload

/-! ## What is encoded is decoded -/

theorem optionalUuid_uuidJson (raw : Json) (key : String) {u : Option UUID}
    (h : raw.get? key = some (uuidJson u)) : optionalUuid raw key = some u := by
  unfold optionalUuid
  rw [h]
  cases u with
  | none => rfl
  | some u => simp [uuidJson, UUID.ofHex_str]

theorem text_str {raw : Json} {key s : String} (h : raw.get? key = some (.str s)) :
    text raw key = some s := by
  rw [text, h]

theorem ofPayload_payload {message : Message} (hvalid : message.createdAt.Valid) :
    ofPayload (payload message) = some message := by
  have hid : (payload message).get? "id" = some (.int message.id.value) := rfl
  have hconversation : uuid (payload message) "conversation_id" =
      some message.conversationId.value := by
    rw [uuid, text_str rfl, Option.bind_some, UUID.ofHex_str]
  have hsender := optionalUuid_uuidJson (payload message) "sender_id" rfl
  have hrole : text (payload message) "role" = some message.role.value := text_str rfl
  have hcontent : text (payload message) "content" = some message.content.value := text_str rfl
  have hcreated : text (payload message) "created_at" = some message.createdAt.isoformat :=
    text_str rfl
  have hkey := optionalUuid_uuidJson (payload message) "client_message_id" rfl
  unfold ofPayload
  rw [hid]
  simp only [hconversation, hsender, hrole, hcontent, hcreated, hkey, Option.bind_eq_bind,
    Option.bind_some, MessageRole.ofString_value, MessageContent.ofString_value,
    Datetime.fromisoformat_isoformat hvalid, Except.toOption, Option.map_map]
  obtain ⟨id, conversation, sender, role, content, createdAt, key⟩ := message
  cases sender <;> cases key <;> rfl

/-- A message that is published and received is the same message. -/
theorem decode_encode {message : Message} (hvalid : message.createdAt.Valid) :
    decode (encode message) = some message := by
  have hutf8 : ∀ s : String, String.fromUTF8? s.toUTF8 = some s := by
    intro s
    simp only [String.fromUTF8?, String.toUTF8_eq_toByteArray, dif_pos s.isValidUTF8]
    rfl
  rw [decode, encode, hutf8, Option.bind_some, String.toList_ofList, Json.loads_dumps,
    Option.bind_some, ofPayload_payload hvalid]

/-- All seven fields agree; `Message.__eq__` compares the ids only. -/
def SameFields (a b : Message) : Prop :=
  a.id = b.id ∧ a.conversationId = b.conversationId ∧ a.senderId = b.senderId ∧ a.role = b.role ∧
    a.content = b.content ∧ a.createdAt = b.createdAt ∧ a.clientMessageId = b.clientMessageId

theorem sameFields_iff {a b : Message} : SameFields a b ↔ a = b := by
  constructor
  · intro h
    obtain ⟨id, conversation, sender, role, content, createdAt, key⟩ := a
    obtain ⟨hid, hconversation, hsender, hrole, hcontent, hcreated, hkey⟩ := h
    simp only at hid hconversation hsender hrole hcontent hcreated hkey
    rw [hid, hconversation, hsender, hrole, hcontent, hcreated, hkey]
  · intro h
    rw [h]
    exact ⟨rfl, rfl, rfl, rfl, rfl, rfl, rfl⟩

/-- The bytes of a message determine it. -/
theorem encode_injective {a b : Message} (ha : a.createdAt.Valid) (hb : b.createdAt.Valid)
    (h : encode a = encode b) : a = b := by
  have hdecoded : some a = some b := by
    rw [← decode_encode ha, ← decode_encode hb, h]
  exact Option.some.inj hdecoded

/-- The codec loses nothing, of any message whose timestamp is one that `datetime` represents. -/
theorem codec_lossless :
    (∀ m : Message, m.createdAt.Valid → ∃ d, decode (encode m) = some d ∧ SameFields d m) ∧
      (∀ a b : Message, a.createdAt.Valid → b.createdAt.Valid → encode a = encode b →
        SameFields a b) ∧
      ∀ data : ByteArray, (∃ m : Message, m.createdAt.Valid ∧ encode m = data) →
        ∃ d, decode data = some d ∧ encode d = data := by
  refine ⟨?_, ?_, ?_⟩
  · intro m hvalid
    exact ⟨m, decode_encode hvalid, sameFields_iff.2 rfl⟩
  · intro a b ha hb h
    exact sameFields_iff.2 (encode_injective ha hb h)
  · rintro data ⟨m, hvalid, rfl⟩
    exact ⟨m, decode_encode hvalid, rfl⟩

/-- A keyless reply of the assistant, with a quote and a newline, written in another time zone. -/
def quotedReply : Message where
  id := ⟨-7⟩
  conversationId := ⟨1⟩
  senderId := none
  role := .assistant
  content := ⟨"\"ok\"\n", strip_ne_empty (c := 'o') (by decide) (by decide)⟩
  createdAt := ⟨1704067200000001, -12600000000⟩

theorem codec_lossless_quotedReply :
    (∃ d, decode (encode quotedReply) = some d ∧ SameFields d quotedReply) ∧
      (∃ d, decode (encode quotedReply) = some d ∧ encode d = encode quotedReply) ∧
      (encode quotedReply = encode quotedReply → SameFields quotedReply quotedReply) :=
  have hvalid : quotedReply.createdAt.Valid := by decide
  ⟨codec_lossless.1 quotedReply hvalid, codec_lossless.2.2 _ ⟨quotedReply, hvalid, rfl⟩,
    codec_lossless.2.1 _ _ hvalid hvalid⟩

end MessageCodec

end Dizzchat
