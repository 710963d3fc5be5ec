import Dizzchat.Messaging.Conversation
import Dizzchat.Transition.ReadModifyWrite

set_option autoImplicit false

/-! # Renaming, deleting and restoring a conversation

The three lifecycle use cases read the conversation, call one method of the aggregate and write
back title, `updated_at` and `deleted_at` together, each call in its own transaction. Run one at a
time they do what their names say; overlapping, a call writes back columns from the row it read.

`lifecycle_serializable` says which overlaps are harmless: those in which the row an `UPDATE` finds
still agrees with the row the call read (`LifecycleOperation.agrees`). Two renames may overlap
freely; a delete must not overlap a rename. -/

namespace Dizzchat

open Transition

/-! ## The use cases -/

def RenameConversation.execute (participants : Finset ParticipantId)
    (conversationId : ConversationId) (ownerId : OwnerId) (newTitle : String) (now : Datetime)
    (row : Option ConversationModel) : Except MessagingError Conversation :=
  match ConversationRepository.get participants row with
  | none => .error (.conversationNotFound conversationId)
  | some conversation => do
      conversation.ensureOwnedBy ownerId
      let title ← ConversationTitle.ofString newTitle
      return conversation.rename title now

def DeleteConversation.execute (participants : Finset ParticipantId)
    (conversationId : ConversationId) (ownerId : OwnerId) (now : Datetime)
    (row : Option ConversationModel) : Except MessagingError Conversation :=
  match ConversationRepository.get participants row with
  | none => .error (.conversationNotFound conversationId)
  | some conversation => do
      conversation.ensureOwnedBy ownerId
      return conversation.delete now

/-- The only use case that sees a deleted conversation. -/
def RestoreConversation.execute (participants : Finset ParticipantId)
    (conversationId : ConversationId) (ownerId : OwnerId) (now : Datetime)
    (row : Option ConversationModel) : Except MessagingError Conversation :=
  match ConversationRepository.getIncludingDeleted participants row with
  | none => .error (.conversationNotFound conversationId)
  | some conversation => do
      conversation.ensureOwnedBy ownerId
      return conversation.restore now

inductive LifecycleOperation
  | rename (newTitle : String)
  | delete
  | restore
deriving DecidableEq

/-- One call: what it does to which conversation, who makes it, and what its clock will read. -/
structure LifecycleRequest where
  operation : LifecycleOperation
  conversationId : ConversationId
  ownerId : OwnerId
  now : Datetime
deriving DecidableEq

/-- The aggregate a call hands to `update`, or the error it raises. -/
def LifecycleRequest.execute (request : LifecycleRequest) (participants : Finset ParticipantId)
    (row : Option ConversationModel) : Except MessagingError Conversation :=
  match request.operation with
  | .rename newTitle => RenameConversation.execute participants request.conversationId
      request.ownerId newTitle request.now row
  | .delete => DeleteConversation.execute participants request.conversationId request.ownerId
      request.now row
  | .restore => RestoreConversation.execute participants request.conversationId request.ownerId
      request.now row

/-- Any family of lifecycle calls, over the participants of each conversation, which none of them
    changes. -/
def lifecycleCalls {ι : Type*} (participants : ConversationId → Finset ParticipantId)
    (request : ι → LifecycleRequest) :
    RmwCalls ι ConversationId ConversationModel Conversation MessagingError where
  key := ConversationModel.id
  target i := (request i).conversationId
  decide i row := (request i).execute (participants (request i).conversationId) row
  set := ConversationModel.update

/-! ## What a call decides on a row -/

section Outcomes

variable {participants : Finset ParticipantId} {conversationId : ConversationId}
  {ownerId : OwnerId} {now : Datetime} {row : ConversationModel} {conversation : Conversation}

theorem rename_eq_ok {newTitle : String} :
    RenameConversation.execute participants conversationId ownerId newTitle now (some row) =
        .ok conversation ↔
      row.deletedAt = none ∧ row.ownerId = ownerId ∧
        ∃ title, ConversationTitle.ofString newTitle = .ok title ∧
          conversation = (row.toDomain participants).rename title now := by
  cases hdeleted : row.deletedAt with
  | some t => simp [RenameConversation.execute, ConversationRepository.get_of_deleted hdeleted]
  | none =>
      unfold RenameConversation.execute
      rw [ConversationRepository.get_of_active hdeleted]
      by_cases howner : row.ownerId = ownerId
      · cases htitle : ConversationTitle.ofString newTitle <;>
          simp [Conversation.ensureOwnedBy, ConversationModel.toDomain, howner, bind, Except.bind,
            pure, Except.pure, eq_comm]
      · simp [Conversation.ensureOwnedBy, ConversationModel.toDomain, howner, bind, Except.bind]

theorem delete_eq_ok :
    DeleteConversation.execute participants conversationId ownerId now (some row) =
        .ok conversation ↔
      row.deletedAt = none ∧ row.ownerId = ownerId ∧
        conversation = (row.toDomain participants).delete now := by
  cases hdeleted : row.deletedAt with
  | some t => simp [DeleteConversation.execute, ConversationRepository.get_of_deleted hdeleted]
  | none =>
      unfold DeleteConversation.execute
      rw [ConversationRepository.get_of_active hdeleted]
      by_cases howner : row.ownerId = ownerId <;>
        simp [Conversation.ensureOwnedBy, ConversationModel.toDomain, howner, bind, Except.bind,
          pure, Except.pure, eq_comm]

theorem restore_eq_ok :
    RestoreConversation.execute participants conversationId ownerId now (some row) =
        .ok conversation ↔
      row.ownerId = ownerId ∧ conversation = (row.toDomain participants).restore now := by
  by_cases howner : row.ownerId = ownerId <;>
    simp [RestoreConversation.execute, ConversationRepository.getIncludingDeleted,
      Conversation.ensureOwnedBy, ConversationModel.toDomain, howner, bind, Except.bind, pure,
      Except.pure, eq_comm]

end Outcomes

/-! ## Harmless overlaps -/

/-- The row `row` agrees with the row `read` in all that the operation depends on or writes back. -/
def LifecycleOperation.agrees (read row : ConversationModel) : LifecycleOperation → Prop
  | .rename _ => row.deletedAt = none
  | .delete => row.deletedAt = none ∧ row.title = read.title
  | .restore => row.title = read.title ∧
      if read.deletedAt = none then row.deletedAt = none ∧ row.updatedAt = read.updatedAt
      else row.deletedAt ≠ none

instance (read row : ConversationModel) :
    (operation : LifecycleOperation) → Decidable (operation.agrees read row)
  | .rename _ => inferInstanceAs (Decidable (row.deletedAt = none))
  | .delete => inferInstanceAs (Decidable (row.deletedAt = none ∧ row.title = read.title))
  | .restore => inferInstanceAs (Decidable (row.title = read.title ∧
      if read.deletedAt = none then row.deletedAt = none ∧ row.updatedAt = read.updatedAt
      else row.deletedAt ≠ none))

/-- The columns that no lifecycle call sets. -/
def ConversationModel.fixed (model : ConversationModel) : ConversationId × OwnerId × Datetime :=
  (model.id, model.ownerId, model.createdAt)

/-- Rows that agree make the call decide the same. -/
theorem LifecycleRequest.execute_of_agrees {request : LifecycleRequest}
    {participants : Finset ParticipantId} {read row : ConversationModel}
    {conversation : Conversation}
    (h : request.execute participants (some read) = .ok conversation)
    (hfixed : read.fixed = row.fixed) (hagrees : request.operation.agrees read row) :
    request.execute participants (some row) = .ok conversation := by
  obtain ⟨hid, howner, hcreated⟩ : read.id = row.id ∧ read.ownerId = row.ownerId ∧
      read.createdAt = row.createdAt := by simpa [ConversationModel.fixed] using hfixed
  unfold LifecycleRequest.execute at h ⊢
  cases hoperation : request.operation with
  | rename newTitle =>
      rw [hoperation] at hagrees
      simp only [hoperation] at h ⊢
      obtain ⟨hdeleted, hread, title, htitle, rfl⟩ := rename_eq_ok.1 h
      refine rename_eq_ok.2 ⟨hagrees, howner ▸ hread, title, htitle, ?_⟩
      simp [Conversation.rename, ConversationModel.toDomain, hid, howner, hcreated, hdeleted,
        show row.deletedAt = none from hagrees]
  | delete =>
      rw [hoperation] at hagrees
      simp only [hoperation] at h ⊢
      obtain ⟨hdeleted, hread, rfl⟩ := delete_eq_ok.1 h
      obtain ⟨hactive, htitle⟩ := hagrees
      refine delete_eq_ok.2 ⟨hactive, howner ▸ hread, ?_⟩
      simp [Conversation.delete, ConversationModel.toDomain, hid, howner, hcreated, hdeleted,
        hactive, htitle]
  | restore =>
      rw [hoperation] at hagrees
      simp only [hoperation] at h ⊢
      obtain ⟨hread, rfl⟩ := restore_eq_ok.1 h
      obtain ⟨htitle, hrest⟩ := hagrees
      refine restore_eq_ok.2 ⟨howner ▸ hread, ?_⟩
      cases hdeleted : read.deletedAt with
      | none =>
          obtain ⟨hactive, hupdated⟩ := (if_pos hdeleted).mp hrest
          simp [Conversation.restore, ConversationModel.toDomain, hid, howner, hcreated, hdeleted,
            hactive, htitle, hupdated]
      | some t =>
          rw [hdeleted, if_neg (by simp)] at hrest
          obtain ⟨t', ht'⟩ := Option.ne_none_iff_exists'.1 hrest
          simp [Conversation.restore, ConversationModel.toDomain, hid, howner, hcreated, hdeleted,
            htitle, ht']

variable {ι : Type*} [DecidableEq ι]

/-- An `UPDATE` finds the row in agreement with the row the call read. -/
def StillAsRead (participants : ConversationId → Finset ParticipantId)
    (request : ι → LifecycleRequest)
    (w : World ι (Table ι ConversationModel) (Rmw ConversationModel Conversation MessagingError))
    (e : ι × RmwStep) : Prop :=
  e.2 = .update → ∀ read ∈ (w.proc e.1).decidedOn,
    ∀ row ∈ (lifecycleCalls participants request).row e.1 w.shared.rows,
      (request e.1).operation.agrees read row

instance (participants : ConversationId → Finset ParticipantId) (request : ι → LifecycleRequest)
    (w : World ι (Table ι ConversationModel) (Rmw ConversationModel Conversation MessagingError))
    (e : ι × RmwStep) : Decidable (StillAsRead participants request w e) :=
  inferInstanceAs (Decidable (e.2 = .update → ∀ read ∈ (w.proc e.1).decidedOn,
    ∀ row ∈ (lifecycleCalls participants request).row e.1 w.shared.rows,
      (request e.1).operation.agrees read row))

/-- Lifecycle calls are serializable in every run in which each `UPDATE` finds the row in agreement
    with the row its call read. -/
theorem lifecycle_serializable (participants : ConversationId → Finset ParticipantId)
    (request : ι → LifecycleRequest) (rows : List ConversationModel) (es : List (ι × RmwStep))
    (w : World ι (Table ι ConversationModel) (Rmw ConversationModel Conversation MessagingError))
    (hread : StepsMeet (World.move (lifecycleCalls participants request).program)
      (StillAsRead participants request) (RmwCalls.init rows) es)
    (hrun : exec (World.move (lifecycleCalls participants request).program) (RmwCalls.init rows) es
      = some w) :
    (lifecycleCalls participants request).Serializable rows w := by
  refine RmwCalls.serializable_of_agrees ConversationModel.fixed
    (fun i read row => (request i).operation.agrees read row) (fun _ _ => rfl) (fun _ _ => rfl)
    (fun i a h => ?_) (fun i read row a h hfixed hagrees => ?_) hread hrun
  · unfold lifecycleCalls LifecycleRequest.execute at h
    cases hoperation : (request i).operation <;> simp only [hoperation] at h <;> cases h
  · exact LifecycleRequest.execute_of_agrees h hfixed hagrees

/-! ## Two overlapping calls -/

theorem strip_team : strip "Team" = "Team" := by decide

theorem team_nonempty : "Team" ≠ "" := by decide

theorem team_bounded : "Team".length ≤ maxTitleLength := by decide

def lifecycleRow : ConversationModel where
  id := ⟨1⟩
  ownerId := ⟨10⟩
  title := ⟨"Team", strip_team, team_nonempty, team_bounded⟩
  createdAt := ⟨0, 0⟩
  updatedAt := ⟨0, 0⟩
  deletedAt := none

def lifecycleParticipants (_ : ConversationId) : Finset ParticipantId := {⟨10⟩}

/-- The owner renames, at 10, while another of their calls runs, at 20. -/
def renameBeside (operation : LifecycleOperation) : Bool → LifecycleRequest
  | false => ⟨.rename "Crew", ⟨1⟩, ⟨10⟩, ⟨10, 0⟩⟩
  | true => ⟨operation, ⟨1⟩, ⟨10⟩, ⟨20, 0⟩⟩

/-- Both calls read; the second one commits first. -/
def bothRead : List (Bool × RmwStep) :=
  [(false, .read), (true, .read), (true, .update), (true, .commit), (false, .update),
    (false, .commit)]

/-- Two renames overlap harmlessly. -/
theorem lifecycle_serializable_renames :
    ∃ w, exec (World.move (lifecycleCalls lifecycleParticipants
        (renameBeside (.rename "Squad"))).program) (RmwCalls.init [lifecycleRow]) bothRead = some w ∧
      w.shared.rows.map (fun row => row.title.value) = ["Crew"] ∧
      (lifecycleCalls lifecycleParticipants (renameBeside (.rename "Squad"))).Serializable
        [lifecycleRow] w := by
  obtain ⟨w, hrun, htitle⟩ := exec_reaches (World.move (lifecycleCalls lifecycleParticipants
    (renameBeside (.rename "Squad"))).program) (RmwCalls.init [lifecycleRow]) bothRead
    (fun w => w.shared.rows.map (fun row => row.title.value) = ["Crew"]) (by decide)
  exact ⟨w, hrun, htitle, lifecycle_serializable lifecycleParticipants
    (renameBeside (.rename "Squad")) [lifecycleRow] bothRead w (by decide) hrun⟩

/-- A rename that read the conversation before its deletion writes it back undeleted. -/
theorem lifecycle_renameUndeletes :
    ∃ w, exec (World.move (lifecycleCalls lifecycleParticipants (renameBeside .delete)).program)
        (RmwCalls.init [lifecycleRow]) bothRead = some w ∧
      ¬ (lifecycleCalls lifecycleParticipants (renameBeside .delete)).Serializable
        [lifecycleRow] w := by
  obtain ⟨w, hrun, hrows, hrename, hdelete⟩ := exec_reaches (World.move (lifecycleCalls
    lifecycleParticipants (renameBeside .delete)).program) (RmwCalls.init [lifecycleRow]) bothRead
    (fun w => w.shared.rows.map (fun row => row.deletedAt) = [none] ∧
      (w.proc false).hasEnded = true ∧ (w.proc true).hasEnded = true) (by decide)
  refine ⟨w, hrun, fun ⟨order, hnodup, hrows', hmem⟩ => ?_⟩
  obtain ⟨o, ho⟩ := Rmw.hasEnded_eq_true hrename
  obtain ⟨o', ho'⟩ := Rmw.hasEnded_eq_true hdelete
  have hperm : order.Perm [false, true] := by
    refine (List.perm_ext_iff_of_nodup hnodup (by decide)).2 fun i => ?_
    cases i
    · simpa using RmwCalls.mem_of_mem_serially _ ((hmem false o).1 ho)
    · simpa using RmwCalls.mem_of_mem_serially _ ((hmem true o').1 ho')
  -- In either order the delete goes through and the row stays deleted.
  have hdeleted : ∀ i j : Bool, i ≠ j → (((lifecycleCalls lifecycleParticipants (renameBeside
      .delete)).serially [lifecycleRow] [i, j]).1.map fun row => row.deletedAt) ≠ [none] := by
    decide
  obtain ⟨i, j, rfl⟩ := List.length_eq_two.1 hperm.length_eq
  exact hdeleted i j (by simpa using hnodup) (by rw [hrows', hrows])

end Dizzchat
