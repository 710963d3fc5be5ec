import Dizzchat.Messaging.Ownership
import Dizzchat.Persistence.Migrations

set_option autoImplicit false

/-! # Memberships after the migrations

The rows of `conversations` and `conversation_participants` as the row models write them. What the last
revision inserts is what the workspace starts from when it has been migrated, with the keys that its
tables are to have. -/

namespace Dizzchat

open Transition

/-! ## Row models as rows -/

def ConversationModel.row (model : ConversationModel) : SqlRow :=
  Relational.rowOf [
    ("id", .uuid model.id.value),
    ("owner_id", .uuid model.ownerId.value),
    ("title", .text model.title.value),
    ("created_at", .dateTime model.createdAt),
    ("updated_at", .dateTime model.updatedAt),
    ("deleted_at", (model.deletedAt.map SqlValue.dateTime).getD .null)]

def ConversationParticipantModel.row (model : ConversationParticipantModel) : SqlRow :=
  Relational.rowOf [
    ("conversation_id", .uuid model.conversationId.value),
    ("user_id", .uuid model.userId.value),
    ("joined_at", .dateTime model.joinedAt)]

namespace Migrations

/-- The membership that a conversation gets for its owner. -/
def ownerMembership (model : ConversationModel) : ConversationParticipantModel :=
  ⟨model.id, ⟨model.ownerId.value⟩, model.createdAt⟩

theorem ownerRow_row (model : ConversationModel) :
    ownerRow model.row = (ownerMembership model).row := rfl

/-- The primary key of the table is the id of the model. -/
theorem ids_nodup {models : List ConversationModel}
    (h : Relational.Distinct ["id"] (models.map ConversationModel.row)) :
    (models.map ConversationModel.id).Nodup := by
  rw [Relational.Distinct, List.pairwise_map] at h
  refine List.pairwise_map.2 (h.imp fun hapart hid => hapart ⟨?_, ?_⟩)
  · intro name hname hnull
    obtain rfl := List.mem_singleton.1 hname
    cases hnull
  · show [SqlValue.uuid _] = [SqlValue.uuid _]
    rw [hid]

theorem conversations_keyed : ∀ k < 5, 2 ≤ k →
    ∃ t ∈ schemas k, t.name = "conversations" ∧ ["id"] ∈ t.keys := by
  decide +kernel

/-- A database that has conversations and no participants yet is migrated to a workspace in which every
    conversation has its owner as a participant, and goes on having, whatever runs. -/
theorem migrated_owned {ι : Type*} [DecidableEq ι] {k : ℕ} (hk : 2 ≤ k ∧ k < 5) {db : SqlDatabase}
    (h : AtRevision k db) {models : List ConversationModel}
    (hmodels : db.rows "conversations" = models.map ConversationModel.row) :
    ∃ members : List ConversationParticipantModel,
      upgraded k db.rows "conversation_participants" = members.map ConversationParticipantModel.row ∧
      ∀ (request : ι → Request) (stored : List Message) (lastSeq : Int) (es : List (ι × WorkspaceStep))
        (w : Workspace ι), exec (World.move (Request.step request))
          (Workspace.init request models members.toFinset stored lastSeq) es = some w →
        w.shared.Owned := by
  have hids : (models.map ConversationModel.id).Nodup := by
    have hdistinct := h.distinct (conversations_keyed k hk.2 hk.1)
    rw [hmodels] at hdistinct
    exact ids_nodup hdistinct
  refine ⟨models.map ownerMembership, ?_, ?_⟩
  · rw [upgraded_participants (by omega), hmodels, List.map_map, List.map_map]
    exact List.map_congr_left fun model _ => ownerRow_row model
  · intro request stored lastSeq es w hrun
    have hinit : WorkspaceInv request (Workspace.init request models
        (models.map ownerMembership).toFinset stored lastSeq) :=
      workspaceInv_init hids (upgrade_keyed hids)
    exact (owned_run hinit owned_upgrade hrun).2

end Migrations

end Dizzchat
