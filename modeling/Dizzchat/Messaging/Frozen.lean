import Dizzchat.Messaging.Posting
import Dizzchat.Transition.History

set_option autoImplicit false

/-! # Messages in a deleted conversation

`from_user` looks at the deletion once, before it writes, and `from_assistant` does not look at all, while
a `DeleteConversation` may commit at any time. `FrozenInv` ties the log to the row: after a delete the row
is marked until the next restore, as long as no rename writes a row back that it has read before the
delete, and a send that goes on has found the conversation active, so that it still is or has been
deleted since. A deleted conversation then stays as it is exactly when every message commits to an
active row (`deleted_frozen_iff`). -/

namespace Dizzchat

open Transition

/-! ## Reading the log -/

namespace Commit

/-- A `DeleteConversation` that has marked the row. -/
def deletes (c : ConversationId) : Commit → Prop
  | .useCase request (.updated model) => request.useCase = .delete ∧ model.id = c
  | _ => False

/-- A `RestoreConversation` that has cleared the mark. -/
def restores (c : ConversationId) : Commit → Prop
  | .useCase request (.updated model) => request.useCase = .restore ∧ model.id = c
  | _ => False

/-- A message, whoever it is from. -/
def postsTo (c : ConversationId) : Commit → Prop
  | .posted message => message.conversationId = c
  | .useCase .. => False

instance (c : ConversationId) : DecidablePred (deletes c)
  | .useCase request (.updated model) =>
      inferInstanceAs (Decidable (request.useCase = .delete ∧ model.id = c))
  | .useCase _ (.created ..) | .useCase _ (.admitted _) | .useCase _ (.removed _)
  | .useCase _ .nothing | .posted _ => inferInstanceAs (Decidable False)

instance (c : ConversationId) : DecidablePred (restores c)
  | .useCase request (.updated model) =>
      inferInstanceAs (Decidable (request.useCase = .restore ∧ model.id = c))
  | .useCase _ (.created ..) | .useCase _ (.admitted _) | .useCase _ (.removed _)
  | .useCase _ .nothing | .posted _ => inferInstanceAs (Decidable False)

instance (c : ConversationId) : DecidablePred (postsTo c)
  | .posted message => inferInstanceAs (Decidable (message.conversationId = c))
  | .useCase .. => inferInstanceAs (Decidable False)

end Commit

variable {ι : Type*}

namespace Database

/-- The conversation has been deleted, and not been restored since. -/
def Deleted (c : ConversationId) (D : Database ι) : Prop :=
  Since (Commit.deletes c) (Commit.restores c) D.log

/-- No message has been committed to a conversation between a delete and the next restore. -/
def Frozen (D : Database ι) : Prop :=
  ∀ c, NeverSince (Commit.postsTo c) (Commit.deletes c) (Commit.restores c) D.log

/-- The committed row of the conversation is there and not marked. -/
def Active (c : ConversationId) (D : Database ι) : Prop :=
  ∃ row ∈ D.row c, row.deletedAt = none

instance (c : ConversationId) (D : Database ι) : Decidable (D.Active c) :=
  inferInstanceAs (Decidable (∃ row ∈ D.row c, row.deletedAt = none))

end Database

/-- The message a step of the run commits goes to an active conversation. -/
def PostsToActive (w : Workspace ι) (e : ι × WorkspaceStep) : Prop :=
  ∀ message ∈ (w.proc e.1).posts e.2, w.shared.Active message.conversationId

instance (w : Workspace ι) (e : ι × WorkspaceStep) : Decidable (PostsToActive w e) :=
  inferInstanceAs (Decidable (∀ message ∈ (w.proc e.1).posts e.2,
    w.shared.Active message.conversationId))

def Request.renames : Request → Bool
  | .useCase request => match request.useCase with
      | .rename _ => true
      | .create _ | .delete | .restore | .addParticipant .. | .removeParticipant _ => false
  | .send _ => false

/-- A rename commits its row over an active one. -/
def RenamesActive (request : ι → Request) (w : Workspace ι) (e : ι × WorkspaceStep) : Prop :=
  e.2 = .commit → (request e.1).renames = true → ∀ model ∈ (w.proc e.1).rows,
    w.shared.Active model.id

instance (request : ι → Request) (w : Workspace ι) (e : ι × WorkspaceStep) :
    Decidable (RenamesActive request w e) :=
  inferInstanceAs (Decidable (e.2 = .commit → (request e.1).renames = true →
    ∀ model ∈ (w.proc e.1).rows, w.shared.Active model.id))

/-! ## What an update leaves in `deleted_at` -/

def UseCaseRequest.Marks (request : UseCaseRequest) (deletedAt : Option Datetime) : Prop :=
  match request.useCase with
  | .delete => deletedAt ≠ none
  | .rename _ | .restore => deletedAt = none
  | .create _ | .addParticipant .. | .removeParticipant _ => False

def Change.Marks (request : UseCaseRequest) : Change → Prop
  | .update conversation => request.Marks conversation.deletedAt
  | .create .. | .addParticipant _ | .removeParticipant .. | .nothing => True

def UseCaseCall.Marks (request : UseCaseRequest) : UseCaseCall → Prop
  | .decided change => change.Marks request
  | .written (.updated model) => request.Marks model.deletedAt
  | _ => True

def Call.Marks : Request → Call → Prop
  | .useCase request, .useCase call => call.Marks request
  | _, _ => True

/-- A delete leaves the mark, a rename and a restore leave none. -/
theorem Accepts.marks {request : UseCaseRequest} {participants : Finset ParticipantId}
    {row : Option ConversationModel} {change : Change}
    (h : Accepts request participants row change) : change.Marks request := by
  cases h with
  | rename huse hactive =>
      simp [Change.Marks, UseCaseRequest.Marks, huse, Conversation.rename,
        ConversationModel.toDomain, hactive]
  | delete huse hactive =>
      simp [Change.Marks, UseCaseRequest.Marks, huse, Conversation.delete,
        ConversationModel.toDomain, hactive]
  | @restore model huse =>
      simp only [Change.Marks, UseCaseRequest.Marks, huse, Conversation.restore]
      split
      · rfl
      · next hactive => exact hactive
  | create | add | addAgain | remove => trivial

variable [DecidableEq ι]

theorem UseCaseMove.marks {request : UseCaseRequest} {i : ι} {step : WorkspaceStep}
    {D D' : Database ι} {call call' : UseCaseCall} (h : UseCaseMove request i D step call D' call')
    (hcall : call.Marks request) : call'.Marks request := by
  cases h with
  | creates h | decides h => exact h.marks
  | updates => exact hcall
  | reads | rejects | inserts | seeds | admits | removes | writesNothing | commits | fails => trivial

/-! ## What a commit does to a row -/

section Commit

variable {D : Database ι} {i : ι} {r : UseCaseRequest} {effect : Effect} {c : ConversationId}
  (hrows : D.conversations.own i = effect.rows)
  (hfresh : ∀ model ∈ (Call.useCase (.written effect)).newRows, D.row model.id = none)
  (hmarks : (UseCaseCall.written effect).Marks r)
  (hdeleted : D.Deleted c → ∃ row, D.row c = some row ∧ row.deletedAt ≠ none)

include hrows hfresh hmarks hdeleted

/-- A row is marked after a commit if the log has it deleted. -/
theorem marked_commit
    (hrenames : (Request.useCase r).renames = true → ∀ model ∈ effect.rows, D.Active model.id)
    (h : Since (Commit.deletes c) (Commit.restores c) (D.log ++ [.useCase r effect])) :
    ∃ row, (D.commit i).row c = some row ∧ row.deletedAt ≠ none := by
  rcases Database.commit_row hrows c with ⟨model, heffect, rfl, hrow⟩ | ⟨hother, hrow⟩
  · refine ⟨model, hrow, ?_⟩
    cases effect with
    | created =>
        cases heffect
        rcases since_concat.1 h with hdeletes | ⟨hbefore, -⟩
        · exact hdeletes.elim
        · obtain ⟨row, hrow, -⟩ := hdeleted hbefore
          cases hrow.symm.trans (hfresh model List.mem_cons_self)
    | updated =>
        cases heffect
        unfold UseCaseCall.Marks UseCaseRequest.Marks at hmarks
        cases huse : r.useCase with
        | delete =>
            rw [huse] at hmarks
            exact hmarks
        | rename =>
            -- a rename finds the row active, but the log has it deleted
            rcases since_concat.1 h with ⟨hdeletes, -⟩ | ⟨hbefore, -⟩
            · cases huse.symm.trans hdeletes
            · obtain ⟨row, hrow, hmark⟩ := hdeleted hbefore
              obtain ⟨row', hrow', hactive⟩ :=
                hrenames (by simp [Request.renames, huse]) model List.mem_cons_self
              obtain rfl : row = row' := Option.some.inj (hrow.symm.trans hrow')
              exact absurd hactive hmark
        | restore =>
            rcases since_concat.1 h with ⟨hdeletes, -⟩ | ⟨-, hrestores⟩
            · cases huse.symm.trans hdeletes
            · exact absurd ⟨huse, rfl⟩ hrestores
        | create | addParticipant | removeParticipant =>
            rw [huse] at hmarks
            exact hmarks.elim
    | admitted | removed | nothing => cases heffect
  · rw [hrow]
    rcases since_concat.1 h with hdeletes | ⟨hbefore, -⟩
    · cases effect with
      | updated model => exact absurd hdeletes.2 (hother model List.mem_cons_self)
      | created | admitted | removed | nothing => exact hdeletes.elim
    · exact hdeleted hbefore

/-- A row stays active, or the log has it deleted. -/
theorem active_or_deleted_commit (h : D.Active c ∨ D.Deleted c) :
    (D.commit i).Active c ∨
      Since (Commit.deletes c) (Commit.restores c) (D.log ++ [.useCase r effect]) := by
  rcases Database.commit_row hrows c with ⟨model, heffect, rfl, hrow⟩ | ⟨hother, hrow⟩
  · have hexists : D.row model.id ≠ none := by
      rcases h with ⟨row, hrow, -⟩ | hbefore
      · simp [Option.mem_def.1 hrow]
      · obtain ⟨row, hrow, -⟩ := hdeleted hbefore
        simp [hrow]
    cases effect with
    | created =>
        cases heffect
        exact absurd (hfresh model List.mem_cons_self) hexists
    | updated =>
        cases heffect
        unfold UseCaseCall.Marks UseCaseRequest.Marks at hmarks
        cases huse : r.useCase with
        | delete => exact .inr (since_concat.2 (.inl ⟨huse, rfl⟩))
        | rename | restore =>
            rw [huse] at hmarks
            exact .inl ⟨model, hrow, hmarks⟩
        | create | addParticipant | removeParticipant =>
            rw [huse] at hmarks
            exact hmarks.elim
    | admitted | removed | nothing => cases heffect
  · rcases h with hactive | hbefore
    · left
      rw [Database.Active, hrow]
      exact hactive
    · refine .inr (since_concat.2 (.inr ⟨hbefore, fun hrestores => ?_⟩))
      cases effect with
      | updated model => exact absurd hrestores.2 (hother model List.mem_cons_self)
      | created | admitted | removed | nothing => exact hrestores.elim

end Commit

/-! ## The invariant -/

structure FrozenInv (request : ι → Request) (w : Workspace ι) : Prop where
  workspace : WorkspaceInv request w
  deleted : ∀ c, w.shared.Deleted c → ∃ row, w.shared.row c = some row ∧ row.deletedAt ≠ none
  marks : ∀ i, (w.proc i).Marks (request i)
  writes : ∀ i, (w.proc i).Writes (request i)
  engaged : ∀ i r, request i = .send r → (w.proc i).engaged = true →
    w.shared.Active r.conversationId ∨ w.shared.Deleted r.conversationId

section Step

variable {request : ι → Request} {w : Workspace ι} {i : ι} {step : WorkspaceStep} {D' : Database ι}
  {call' : Call}

/-- Messages leave it as it was what has been deleted. -/
theorem posted_neutral (c : ConversationId) (messages : List Message) :
    ∀ a ∈ messages.map Commit.posted, ¬ Commit.deletes c a ∧ ¬ Commit.restores c a :=
  List.forall_mem_map.2 fun _ _ => ⟨id, id⟩

theorem RequestMove.marks {D : Database ι} {call : Call}
    (h : RequestMove request i D step call D' call') (hcall : call.Marks (request i)) :
    call'.Marks (request i) := by
  cases h with
  | useCase hr h =>
      rw [hr] at hcall ⊢
      exact h.marks hcall
  | send hr h =>
      rw [hr]
      trivial

theorem RequestMove.deleted (hw : FrozenInv request w) (hrenames : RenamesActive request w (i, step))
    (h : RequestMove request i w.shared step (w.proc i) D' call') {c : ConversationId}
    (hdeleted : D'.Deleted c) : ∃ row, D'.row c = some row ∧ row.deletedAt ≠ none := by
  rcases h.visible with ⟨⟨hrow, -⟩, hlog⟩ | ⟨r, effect, hr, ⟨hstep, hcall⟩, rfl⟩
  · rw [Database.Deleted, hlog, since_append_of_not (posted_neutral c _)] at hdeleted
    rw [hrow]
    exact hw.deleted c hdeleted
  · have hrows := hw.workspace.ownRows i
    have hfresh := hw.workspace.fresh i
    have hmarks := hw.marks i
    rw [hcall] at hrows hfresh hmarks
    rw [hr] at hmarks
    refine marked_commit hrows hfresh hmarks (hw.deleted c) (fun hrename model hmodel => ?_) hdeleted
    refine hrenames hstep ?_ model ?_
    · rw [hr]
      exact hrename
    · rw [hcall]
      exact hmodel

theorem RequestMove.active_or_deleted (hw : FrozenInv request w)
    (h : RequestMove request i w.shared step (w.proc i) D' call') {c : ConversationId}
    (hc : w.shared.Active c ∨ w.shared.Deleted c) : D'.Active c ∨ D'.Deleted c := by
  rcases h.visible with ⟨⟨hrow, -⟩, hlog⟩ | ⟨r, effect, hr, ⟨-, hcall⟩, rfl⟩
  · rw [Database.Deleted, hlog, since_append_of_not (posted_neutral c _), Database.Active, hrow]
    exact hc
  · have hrows := hw.workspace.ownRows i
    have hfresh := hw.workspace.fresh i
    have hmarks := hw.marks i
    rw [hcall] at hrows hfresh hmarks
    rw [hr] at hmarks
    exact active_or_deleted_commit hrows hfresh hmarks (hw.deleted c) hc

theorem frozenInv_step (hw : FrozenInv request w) (hrenames : RenamesActive request w (i, step))
    (h : RequestMove request i w.shared step (w.proc i) D' call') :
    FrozenInv request ⟨D', Function.update w.proc i call'⟩ := by
  refine ⟨workspaceInv_step hw.workspace h, fun c hdeleted => h.deleted hw hrenames hdeleted,
    (Function.forall_update_iff w.proc fun j l => l.Marks (request j)).2
      ⟨h.marks (hw.marks i), fun j _ => hw.marks j⟩,
    h.forall_writes hw.writes,
    (Function.forall_update_iff w.proc fun j l => ∀ r, request j = .send r → l.engaged = true →
      D'.Active r.conversationId ∨ D'.Deleted r.conversationId).2 ⟨fun r hr hcall => ?_,
        fun j _ r hr hcall => h.active_or_deleted hw (hw.engaged j r hr hcall)⟩⟩
  refine h.active_or_deleted hw ?_
  rcases h.engaged hr hcall with hengaged | hactive
  · exact hw.engaged i r hr hengaged
  · exact .inl hactive

/-- A step keeps the deleted conversations frozen exactly when it posts to active ones. -/
theorem frozen_step (hw : FrozenInv request w)
    (h : RequestMove request i w.shared step (w.proc i) D' call') :
    D'.Frozen ↔ w.shared.Frozen ∧ PostsToActive w (i, step) := by
  rcases h.visible with ⟨-, hlog⟩ | ⟨r, effect, hr, ⟨-, hcall⟩, rfl⟩
  · simp only [Database.Frozen, hlog, neverSince_append_of_not (posted_neutral _ _), forall_and,
      List.forall_mem_map]
    refine and_congr_right fun _ => ⟨fun hfrozen message hmessage => ?_,
      fun hactive c message hmessage hposts hdeleted => ?_⟩
    · -- the send has found the conversation active
      obtain ⟨r, hr, hconversation, hengaged, -⟩ := h.posts (hw.writes i) hmessage
      rw [hconversation]
      refine (hw.engaged i r hr hengaged).resolve_right fun hdeleted => ?_
      exact hfrozen r.conversationId message hmessage hconversation hdeleted
    · obtain ⟨row, hrow, hmark⟩ := hw.deleted c hdeleted
      obtain ⟨row', hrow', hnone⟩ := hactive message hmessage
      obtain rfl : message.conversationId = c := hposts
      obtain rfl : row = row' := Option.some.inj (hrow.symm.trans hrow')
      exact hmark hnone
  · have hposts : PostsToActive w (i, step) := by
      intro message hmessage
      rw [hcall, posts_useCase] at hmessage
      exact absurd hmessage List.not_mem_nil
    simp only [Database.Frozen, hposts, and_true]
    refine forall_congr' fun c => ?_
    rw [neverSince_concat]
    exact and_iff_left fun hno => hno.elim

end Step

theorem frozenInv_init {request : ι → Request} {rows : List ConversationModel}
    {members : Finset ConversationParticipantModel} {stored : List Message} {lastSeq : Int}
    (hrows : (rows.map ConversationModel.id).Nodup)
    (hmembers : ∀ a ∈ members, ∀ b ∈ members, a.key = b.key → a = b) :
    FrozenInv request (Workspace.init request rows members stored lastSeq) := by
  refine ⟨workspaceInv_init hrows hmembers, fun c hdeleted => hdeleted.elim, fun i => ?_,
    fun i => writes_start (request i), fun i r hr hcall => ?_⟩
  · simp only [Workspace.init]
    cases request i <;> trivial
  · cases (engaged_start (request i)).symm.trans hcall

/-- As long as renames commit over active rows, no message is committed to a deleted conversation, in a
    run of any calls, exactly when every message commits to an active one. -/
theorem deleted_frozen_iff (request : ι → Request) {rows : List ConversationModel}
    (hrows : (rows.map ConversationModel.id).Nodup) {members : Finset ConversationParticipantModel}
    (hmembers : ∀ a ∈ members, ∀ b ∈ members, a.key = b.key → a = b) {stored : List Message}
    {lastSeq : Int} {es : List (ι × WorkspaceStep)} {w : Workspace ι}
    (hrenames : StepsMeet (World.move (Request.step request)) (RenamesActive request)
      (Workspace.init request rows members stored lastSeq) es)
    (h : exec (World.move (Request.step request))
      (Workspace.init request rows members stored lastSeq) es = some w) :
    w.shared.Frozen ↔ StepsMeet (World.move (Request.step request)) PostsToActive
      (Workspace.init request rows members stored lastSeq) es := by
  have hkeeps := exec_keeps_iff_stepsMeet (I := FrozenInv request) (P := fun w => w.shared.Frozen)
    (A := RenamesActive request) (C := PostsToActive)
    (fun w e w' hw hrename he => ?_) (fun w e w' hw _ he => ?_) (frozenInv_init hrows hmembers)
    hrenames h
  · rw [hkeeps]
    exact and_iff_right fun c => neverSince_nil
  · obtain ⟨D', call', hstep, rfl⟩ := World.move_eq_some.1 he
    exact frozenInv_step hw hrename (request_move hstep)
  · obtain ⟨D', call', hstep, rfl⟩ := World.move_eq_some.1 he
    exact frozen_step hw (request_move hstep)

/-! ## A delete beside an exchange -/

/-- The owner, user 10, posts and deletes the conversation. -/
def postBesideDelete : Bool → Request
  | false => .send helloRequest
  | true => .useCase ⟨.delete, ⟨1⟩, 10, ⟨9, 0⟩⟩

/-- An exchange goes on with the reply when its user message is committed. -/
def replySteps : List (Bool × WorkspaceStep) :=
  [(false, .exchange (.publish true)), (false, .exchange (.respond true)),
    (false, .exchange (.assistant (.draw ⟨11, 0⟩))), (false, .exchange (.assistant .flush)),
    (false, .exchange (.assistant .commit))]

/-- A conversation that is deleted after an exchange stays as it is. -/
theorem deleted_frozen_inTurn :
    ∃ w, exec (World.move (Request.step postBesideDelete)) (Workspace.init postBesideDelete
        [lifecycleRow] (addConversationParticipants.upgrade [lifecycleRow]) [] 0)
        (checkSteps ++ postSteps ++ replySteps ++ useCaseSteps true) = some w ∧
      w.shared.log.length = 3 ∧ w.shared.Frozen := by
  obtain ⟨w, h, hlog⟩ := exec_reaches (World.move (Request.step postBesideDelete))
    (Workspace.init postBesideDelete [lifecycleRow] (addConversationParticipants.upgrade [lifecycleRow]) [] 0)
    (checkSteps ++ postSteps ++ replySteps ++ useCaseSteps true)
    (fun w => w.shared.log.length = 3) (by decide)
  exact ⟨w, h, hlog,
    (deleted_frozen_iff postBesideDelete (by decide) (by decide) (by decide) h).2 (by decide)⟩

/-- The delete commits between the check of the send and its commit: the user message and the reply
    are both committed to the deleted conversation. -/
theorem deleted_postsOn :
    ∃ w, exec (World.move (Request.step postBesideDelete)) (Workspace.init postBesideDelete
        [lifecycleRow] (addConversationParticipants.upgrade [lifecycleRow]) [] 0)
        (checkSteps ++ useCaseSteps true ++ postSteps ++ replySteps) = some w ∧
      w.shared.log.length = 3 ∧ ¬ w.shared.Frozen := by
  obtain ⟨w, h, hlog, hposts⟩ := exec_reaches (World.move (Request.step postBesideDelete))
    (Workspace.init postBesideDelete [lifecycleRow] (addConversationParticipants.upgrade [lifecycleRow]) [] 0)
    (checkSteps ++ useCaseSteps true ++ postSteps ++ replySteps)
    (fun w => w.shared.log.length = 3 ∧ ¬ NeverSince (Commit.postsTo ⟨1⟩) (Commit.deletes ⟨1⟩)
      (Commit.restores ⟨1⟩) w.shared.log) (by decide)
  exact ⟨w, h, hlog, fun hfrozen => hposts (hfrozen ⟨1⟩)⟩

end Dizzchat
