import Dizzchat.Identity.Accounts
import Dizzchat.Messaging.ReplayMessages
import Dizzchat.Relational.Script

set_option autoImplicit false

/-! # The revisions of the schema

What the five revisions of `migrations/versions` execute, upwards and downwards, and the tables that the
row models declare. `schemas k` is the schema of a database that the first `k` revisions have made. -/

namespace Dizzchat

/-! ## Columns of PostgreSQL -/

/-- The column types that the revisions use; `string` is `sa.String`, with or without its length. -/
inductive SqlType
  | uuid
  | string (length : Option ℕ)
  | text
  | dateTime
  | bigInteger
deriving DecidableEq

inductive SqlValue
  | null
  | uuid (value : UUID)
  | text (value : String)
  | dateTime (value : Datetime)
  | bigInteger (value : Int)
deriving DecidableEq

def SqlType.takes : SqlType → SqlValue → Bool
  | .uuid, .uuid _ => true
  | .string none, .text value | .text, .text value => Postgres.takesText value
  | .string (some length), .text value => Postgres.takesVarchar length value
  | .dateTime, .dateTime _ => true
  | .bigInteger, .bigInteger value => decide (BigInteger.Fits value)
  | _, _ => false

instance sqlValues : Relational.Values SqlValue SqlType := ⟨.null, SqlType.takes⟩

abbrev SqlTable := Relational.Table String SqlValue SqlType

abbrev SqlSchema := Relational.Schema String SqlValue SqlType

abbrev SqlStatement := Relational.Statement String SqlValue SqlType

abbrev SqlDatabase := Relational.Database String SqlValue SqlType

abbrev SqlRow := Relational.Row String SqlValue

namespace Migrations

/-! ## The revisions -/

structure Revision where
  revision : String
  downRevision : Option String
  upgrade : List SqlStatement
  downgrade : List SqlStatement
deriving DecidableEq

/-- `0001_create_identity_tables.py` -/
def createIdentityTables : Revision where
  revision := "0001_identity"
  downRevision := none
  upgrade := [
    .createTable {
      name := "users"
      columns := [
        ⟨"id", .uuid, false, none⟩,
        ⟨"email", .string (some 320), false, none⟩,
        ⟨"password_hash", .string none, false, none⟩,
        ⟨"created_at", .dateTime, false, none⟩]
      primaryKey := ["id"] },
    .createIndex "users" ⟨"ix_users_email", ["email"], true⟩,
    .createTable {
      name := "refresh_tokens"
      columns := [
        ⟨"jti", .string none, false, none⟩,
        ⟨"user_id", .uuid, false, none⟩,
        ⟨"token_hash", .string none, false, none⟩,
        ⟨"expires_at", .dateTime, false, none⟩,
        ⟨"revoked_at", .dateTime, true, none⟩]
      primaryKey := ["jti"]
      foreignKeys := [⟨["user_id"], "users", ["id"], true⟩] },
    .createIndex "refresh_tokens" ⟨"ix_refresh_tokens_user_id", ["user_id"], false⟩]
  downgrade := [
    .dropIndex "refresh_tokens" "ix_refresh_tokens_user_id",
    .dropTable "refresh_tokens",
    .dropIndex "users" "ix_users_email",
    .dropTable "users"]

/-- `0002_create_conversations_tables.py` -/
def createConversationsTables : Revision where
  revision := "0002_conversations"
  downRevision := some "0001_identity"
  upgrade := [
    .createTable {
      name := "conversations"
      columns := [
        ⟨"id", .uuid, false, none⟩,
        ⟨"owner_id", .uuid, false, none⟩,
        ⟨"title", .string (some 200), false, none⟩,
        ⟨"created_at", .dateTime, false, none⟩,
        ⟨"updated_at", .dateTime, false, none⟩,
        ⟨"deleted_at", .dateTime, true, none⟩]
      primaryKey := ["id"] },
    .createIndex "conversations" ⟨"ix_conversations_owner_id", ["owner_id"], false⟩,
    .createTable {
      name := "messages"
      columns := [
        ⟨"id", .bigInteger, false, none⟩,
        ⟨"conversation_id", .uuid, false, none⟩,
        ⟨"sender_id", .uuid, false, none⟩,
        ⟨"content", .text, false, none⟩,
        ⟨"created_at", .dateTime, false, none⟩]
      primaryKey := ["id"]
      foreignKeys := [⟨["conversation_id"], "conversations", ["id"], false⟩] },
    .createIndex "messages" ⟨"ix_messages_conversation_id_id", ["conversation_id", "id"], false⟩]
  downgrade := [
    .dropIndex "messages" "ix_messages_conversation_id_id",
    .dropTable "messages",
    .dropIndex "conversations" "ix_conversations_owner_id",
    .dropTable "conversations"]

/-- `0003_add_message_role.py`: the default is there for the rows that exist already. -/
def addMessageRole : Revision where
  revision := "0003_message_role"
  downRevision := some "0002_conversations"
  upgrade := [
    .addColumn "messages" ⟨"role", .string (some 16), false, some (.text "user")⟩,
    .setDefault "messages" "role" none,
    .setNullable "messages" "sender_id" true]
  downgrade := [
    .setNullable "messages" "sender_id" false,
    .dropColumn "messages" "role"]

/-- `0004_add_client_message_id.py` -/
def addClientMessageId : Revision where
  revision := "0004_client_message_id"
  downRevision := some "0003_message_role"
  upgrade := [
    .addColumn "messages" ⟨"client_message_id", .uuid, true, none⟩,
    .createUnique "messages" ⟨"uq_messages_conversation_id_client_message_id",
      ["conversation_id", "client_message_id"]⟩]
  downgrade := [
    .dropUnique "messages" "uq_messages_conversation_id_client_message_id",
    .dropColumn "messages" "client_message_id"]

/-- `0005_add_conversation_participants.py`: the `INSERT` has no `WHERE`. -/
def addConversationParticipants : Revision where
  revision := "0005_conversation_participants"
  downRevision := some "0004_client_message_id"
  upgrade := [
    .createTable {
      name := "conversation_participants"
      columns := [
        ⟨"conversation_id", .uuid, false, none⟩,
        ⟨"user_id", .uuid, false, none⟩,
        ⟨"joined_at", .dateTime, false, none⟩]
      primaryKey := ["conversation_id", "user_id"]
      foreignKeys := [⟨["conversation_id"], "conversations", ["id"], false⟩] },
    .createIndex "conversation_participants"
      ⟨"ix_conversation_participants_user_id", ["user_id"], false⟩,
    .insertSelect "conversation_participants" ["conversation_id", "user_id", "joined_at"]
      "conversations" ["id", "owner_id", "created_at"]]
  downgrade := [
    .dropIndex "conversation_participants" "ix_conversation_participants_user_id",
    .dropTable "conversation_participants"]

/-- The chain that the `down_revision`s make, from the base to the head. -/
def history : List Revision :=
  [createIdentityTables, createConversationsTables, addMessageRole, addClientMessageId,
    addConversationParticipants]

/-- A revision follows the one it names, and the first one none. -/
example : history.map Revision.downRevision =
    none :: (history.dropLast.map fun r => some r.revision) := by decide

/-! ## The schemas -/

/-- The schema after the first revisions. -/
def schemas : ℕ → SqlSchema
  | 0 => []
  | k + 1 => match history[k]? with
    | none => schemas k
    | some r => (Relational.editAll r.upgrade (schemas k)).getD []

/-- A revision takes one schema to the next, and its downgrade takes it back. -/
theorem revision_edits : ∀ k < history.length, ∃ r, history[k]? = some r ∧
    Relational.editAll r.upgrade (schemas k) = some (schemas (k + 1)) ∧
    Relational.editAll r.downgrade (schemas (k + 1)) = some (schemas k) := by
  decide +kernel

/-! ## The row models -/

/-- `Base.metadata`: the tables that the row models declare. -/
def metadata : SqlSchema := [
  { name := "users"
    columns := [
      ⟨"id", .uuid, false, none⟩,
      ⟨"email", .string (some 320), false, none⟩,
      ⟨"password_hash", .string none, false, none⟩,
      ⟨"created_at", .dateTime, false, none⟩]
    primaryKey := ["id"]
    indexes := [⟨"ix_users_email", ["email"], true⟩] },
  { name := "refresh_tokens"
    columns := [
      ⟨"jti", .string none, false, none⟩,
      ⟨"user_id", .uuid, false, none⟩,
      ⟨"token_hash", .string none, false, none⟩,
      ⟨"expires_at", .dateTime, false, none⟩,
      ⟨"revoked_at", .dateTime, true, none⟩]
    primaryKey := ["jti"]
    foreignKeys := [⟨["user_id"], "users", ["id"], true⟩]
    indexes := [⟨"ix_refresh_tokens_user_id", ["user_id"], false⟩] },
  { name := "conversations"
    columns := [
      ⟨"id", .uuid, false, none⟩,
      ⟨"owner_id", .uuid, false, none⟩,
      ⟨"title", .string (some 200), false, none⟩,
      ⟨"created_at", .dateTime, false, none⟩,
      ⟨"updated_at", .dateTime, false, none⟩,
      ⟨"deleted_at", .dateTime, true, none⟩]
    primaryKey := ["id"]
    indexes := [⟨"ix_conversations_owner_id", ["owner_id"], false⟩] },
  { name := "messages"
    columns := [
      ⟨"id", .bigInteger, false, none⟩,
      ⟨"conversation_id", .uuid, false, none⟩,
      ⟨"sender_id", .uuid, true, none⟩,
      ⟨"role", .string (some 16), false, none⟩,
      ⟨"content", .text, false, none⟩,
      ⟨"created_at", .dateTime, false, none⟩,
      ⟨"client_message_id", .uuid, true, none⟩]
    primaryKey := ["id"]
    foreignKeys := [⟨["conversation_id"], "conversations", ["id"], false⟩]
    uniques := [⟨"uq_messages_conversation_id_client_message_id",
      ["conversation_id", "client_message_id"]⟩]
    indexes := [⟨"ix_messages_conversation_id_id", ["conversation_id", "id"], false⟩] },
  { name := "conversation_participants"
    columns := [
      ⟨"conversation_id", .uuid, false, none⟩,
      ⟨"user_id", .uuid, false, none⟩,
      ⟨"joined_at", .dateTime, false, none⟩]
    primaryKey := ["conversation_id", "user_id"]
    foreignKeys := [⟨["conversation_id"], "conversations", ["id"], false⟩]
    indexes := [⟨"ix_conversation_participants_user_id", ["user_id"], false⟩] }]

/-- Up to the order of its columns a table is the same one. -/
def SameTable (t u : SqlTable) : Prop :=
  t.columns.Perm u.columns ∧ ({ t with columns := [] } : SqlTable) = { u with columns := [] }

instance decidableSameTable (t u : SqlTable) : Decidable (SameTable t u) :=
  inferInstanceAs (Decidable (_ ∧ _))

/-- The revisions make the tables that the row models declare. -/
theorem head_eq_metadata : List.Forall₂ SameTable (schemas history.length) metadata := by
  decide +kernel

end Migrations

end Dizzchat
