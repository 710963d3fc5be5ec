import Dizzchat.Messaging.Posting
import Dizzchat.Transition.History

set_option autoImplicit false

/-! # Revoking a membership

`from_user` checks the membership of the sender in a statement of its own and commits the message later;
nothing keeps the membership from going in between. What the log says of a member is tied to the row of
the membership by `RevocationInv`: after a removal the row is gone until the next admission, and a call
past its check still finds the row unless a removal came after it. So a message is committed by a removed
sender exactly when its commit does not find the membership any more (`revocation_stopsPosts_iff`). -/

namespace Dizzchat

open Transition

/-! ## Reading the log -/

namespace Commit

/-- A `RemoveParticipant` that has removed the membership. -/
def removes (key : ConversationId × ParticipantId) : Commit → Prop
  | .useCase _ (.removed k) => k = key
  | _ => False

/-- An `AddParticipant` that has admitted the user. -/
def admits (key : ConversationId × ParticipantId) : Commit → Prop
  | .useCase _ (.admitted member) => member.key = key
  | _ => False

/-- A user message of the member. -/
def postsAs (key : ConversationId × ParticipantId) : Commit → Prop
  | .posted message => message.role = .user ∧ message.conversationId = key.1 ∧
      message.senderId = some ⟨key.2.value⟩
  | .useCase .. => False

instance (key : ConversationId × ParticipantId) : DecidablePred (removes key)
  | .useCase _ (.removed k) => inferInstanceAs (Decidable (k = key))
  | .useCase _ (.created ..) | .useCase _ (.updated _) | .useCase _ (.admitted _)
  | .useCase _ .nothing | .posted _ => inferInstanceAs (Decidable False)

instance (key : ConversationId × ParticipantId) : DecidablePred (admits key)
  | .useCase _ (.admitted member) => inferInstanceAs (Decidable (member.key = key))
  | .useCase _ (.created ..) | .useCase _ (.updated _) | .useCase _ (.removed _)
  | .useCase _ .nothing | .posted _ => inferInstanceAs (Decidable False)

instance (key : ConversationId × ParticipantId) : DecidablePred (postsAs key)
  | .posted message => inferInstanceAs (Decidable (message.role = .user ∧
      message.conversationId = key.1 ∧ message.senderId = some ⟨key.2.value⟩))
  | .useCase .. => inferInstanceAs (Decidable False)

end Commit

variable {ι : Type*}

/-- The member has been removed, and not been admitted again. -/
def Database.Revoked (key : ConversationId × ParticipantId) (D : Database ι) : Prop :=
  Since (Commit.removes key) (Commit.admits key) D.log

/-- No message of a removed member has been committed before the member was admitted again. -/
def Database.StopsPosts (D : Database ι) : Prop :=
  ∀ key, NeverSince (Commit.postsAs key) (Commit.removes key) (Commit.admits key) D.log

/-- The membership is among the committed rows. -/
def Database.HasMember (key : ConversationId × ParticipantId) (D : Database ι) : Prop :=
  D.participants.Has ConversationParticipantModel.key key

instance (key : ConversationId × ParticipantId) (D : Database ι) : Decidable (D.HasMember key) :=
  inferInstanceAs (Decidable (D.participants.Has ConversationParticipantModel.key key))

/-- The message a step of the run commits has a sender, if any, whose membership is committed. -/
def PostsAsMember (w : Workspace ι) (e : ι × WorkspaceStep) : Prop :=
  ∀ message ∈ (w.proc e.1).posts e.2, ∀ sender ∈ message.senderId,
    w.shared.HasMember (message.conversationId, ⟨sender.value⟩)

instance (w : Workspace ι) (e : ι × WorkspaceStep) : Decidable (PostsAsMember w e) :=
  inferInstanceAs (Decidable (∀ message ∈ (w.proc e.1).posts e.2, ∀ sender ∈ message.senderId,
    w.shared.HasMember (message.conversationId, ⟨sender.value⟩)))

/-! ## The invariant -/

/-- The membership a send is checked for. -/
def SendRequest.memberKey (request : SendRequest) : ConversationId × ParticipantId :=
  (request.conversationId, ⟨request.senderId.value⟩)

structure RevocationInv (request : ι → Request) [DecidableEq ι] (w : Workspace ι) : Prop where
  workspace : WorkspaceInv request w
  /-- A removed member is gone; the conversation is there, so nobody creates it anew. -/
  absent : ∀ key, w.shared.Revoked key →
    ¬ w.shared.HasMember key ∧ ∃ o, w.shared.owner key.1 = some o
  writes : ∀ i, (w.proc i).Writes (request i)
  checked : ∀ i r, request i = .send r → (w.proc i).checked = true →
    w.shared.HasMember r.memberKey ∨ w.shared.Revoked r.memberKey

variable [DecidableEq ι]

section Commit

variable {D : Database ι} {i : ι} {r : UseCaseRequest} {effect : Effect}
  {key : ConversationId × ParticipantId}

/-- A member is gone after a commit only when it was gone before or is removed by it. -/
theorem hasMember_or_revoked_commit
    (hinserts : ∀ m, (i, m) ∈ D.participants.inserts ↔ m ∈ effect.inserts)
    (hdeletes : ∀ k, (i, k) ∈ D.participants.deletes ↔ k ∈ effect.deletes)
    (h : D.HasMember key ∨ D.Revoked key) :
    (D.commit i).HasMember key ∨
      Since (Commit.removes key) (Commit.admits key) (D.log ++ [.useCase r effect]) := by
  have hcommit := Database.commit_has hinserts hdeletes key
  by_cases hdelete : key ∈ effect.deletes
  · -- the commit removes the member
    right
    refine since_concat.2 (.inl ?_)
    cases effect with
    | removed k => exact (Finset.mem_singleton.1 hdelete).symm
    | created | updated | admitted | nothing => exact absurd hdelete (Finset.notMem_empty _)
  · rcases h with hmember | hrevoked
    · exact .inl (hcommit.2 ⟨.inl hmember, hdelete⟩)
    · by_cases hadmits : Commit.admits key (.useCase r effect)
      · left
        refine hcommit.2 ⟨.inr ?_, hdelete⟩
        cases effect with
        | admitted member => exact ⟨member, Finset.mem_singleton_self _, hadmits⟩
        | created | updated | removed | nothing => exact hadmits.elim
      · exact .inr (since_concat.2 (.inr ⟨hrevoked, hadmits⟩))

/-- A member the log has as removed is gone after a commit. -/
theorem not_hasMember_commit
    (hinserts : ∀ m, (i, m) ∈ D.participants.inserts ↔ m ∈ effect.inserts)
    (hdeletes : ∀ k, (i, k) ∈ D.participants.deletes ↔ k ∈ effect.deletes)
    (hfresh : ∀ model ∈ (Call.useCase (.written effect)).newRows, D.row model.id = none)
    (hsound : effect.Sound D.owner)
    (habsent : D.Revoked key → ¬ D.HasMember key ∧ ∃ o, D.owner key.1 = some o)
    (h : Since (Commit.removes key) (Commit.admits key) (D.log ++ [.useCase r effect])) :
    ¬ (D.commit i).HasMember key ∧ ∃ o, D.owner key.1 = some o := by
  have hcommit := Database.commit_has hinserts hdeletes key
  rcases since_concat.1 h with hremoves | ⟨hrevoked, hadmits⟩
  · cases effect with
    | removed k =>
        obtain rfl : k = key := hremoves
        obtain ⟨o, ho, -⟩ := hsound
        exact ⟨fun hmember => (hcommit.1 hmember).2 (Finset.mem_singleton_self _), o, ho⟩
    | created | updated | admitted | nothing => exact hremoves.elim
  · obtain ⟨hgone, o, ho⟩ := habsent hrevoked
    refine ⟨fun hmember => ?_, o, ho⟩
    rcases (hcommit.1 hmember).1 with hmember | ⟨m, hm, rfl⟩
    · exact hgone hmember
    · cases effect with
      | created model members =>
          -- the conversation is there already
          obtain rfl : members = _ := hsound
          obtain rfl := Finset.mem_singleton.1 hm
          have hrow : D.row model.id = none := hfresh model List.mem_cons_self
          simp [Database.owner, ConversationParticipantModel.key, hrow] at ho
      | admitted member =>
          obtain rfl := Finset.mem_singleton.1 hm
          exact hadmits rfl
      | updated | removed | nothing => exact absurd hm (Finset.notMem_empty _)

end Commit

section Step

variable {request : ι → Request} {w : Workspace ι} {i : ι} {step : WorkspaceStep} {D' : Database ι}
  {call' : Call}

/-- Messages leave it as it was who has been removed. -/
theorem posted_irrelevant (key : ConversationId × ParticipantId) (messages : List Message) :
    ∀ a ∈ messages.map Commit.posted, ¬ Commit.removes key a ∧ ¬ Commit.admits key a :=
  List.forall_mem_map.2 fun _ _ => ⟨id, id⟩

theorem RequestMove.absent (hw : RevocationInv request w)
    (h : RequestMove request i w.shared step (w.proc i) D' call')
    {key : ConversationId × ParticipantId} (hrevoked : D'.Revoked key) :
    ¬ D'.HasMember key ∧ ∃ o, D'.owner key.1 = some o := by
  have howner := owner_le_step hw.workspace h
  rcases h.visible with ⟨⟨-, hmembers⟩, hlog⟩ | ⟨r, effect, hr, ⟨-, hcall⟩, rfl⟩
  · rw [Database.Revoked, hlog, since_append_of_not (posted_irrelevant key _)] at hrevoked
    obtain ⟨hgone, o, ho⟩ := hw.absent key hrevoked
    refine ⟨?_, o, howner _ _ ho⟩
    rw [Database.HasMember, RowSet.Has, hmembers]
    exact hgone
  · have hown := hw.workspace.ownMembers i
    have hfresh := hw.workspace.fresh i
    have hsound := hw.workspace.sound i
    rw [hcall] at hown hfresh hsound
    rw [hr] at hsound
    obtain ⟨hgone, o, ho⟩ :=
      not_hasMember_commit hown.1 hown.2 hfresh hsound (hw.absent key) hrevoked
    exact ⟨hgone, o, howner _ _ ho⟩

theorem RequestMove.hasMember_or_revoked (hw : RevocationInv request w)
    (h : RequestMove request i w.shared step (w.proc i) D' call')
    {key : ConversationId × ParticipantId} (hkey : w.shared.HasMember key ∨ w.shared.Revoked key) :
    D'.HasMember key ∨ D'.Revoked key := by
  rcases h.visible with ⟨⟨-, hmembers⟩, hlog⟩ | ⟨r, effect, hr, ⟨-, hcall⟩, rfl⟩
  · rw [Database.Revoked, hlog, since_append_of_not (posted_irrelevant key _), Database.HasMember,
      RowSet.Has, hmembers]
    exact hkey
  · have hown := hw.workspace.ownMembers i
    rw [hcall] at hown
    exact hasMember_or_revoked_commit hown.1 hown.2 hkey

theorem revocationInv_step (hw : RevocationInv request w)
    (h : RequestMove request i w.shared step (w.proc i) D' call') :
    RevocationInv request ⟨D', Function.update w.proc i call'⟩ := by
  refine ⟨workspaceInv_step hw.workspace h, fun key hrevoked => h.absent hw hrevoked,
    h.forall_writes hw.writes,
    (Function.forall_update_iff w.proc fun j l => ∀ r, request j = .send r → l.checked = true →
      D'.HasMember r.memberKey ∨ D'.Revoked r.memberKey).2 ⟨fun r hr hcall => ?_, fun j _ r hr hcall =>
        h.hasMember_or_revoked hw (hw.checked j r hr hcall)⟩⟩
  refine h.hasMember_or_revoked hw ?_
  rcases h.checked hr hcall with hchecked | hmember
  · exact hw.checked i r hr hchecked
  · exact .inl (mem_participantsOf.1 hmember)

/-- Revocation keeps its promise in a step exactly when the step posts as a member. -/
theorem stopsPosts_step (hw : RevocationInv request w)
    (h : RequestMove request i w.shared step (w.proc i) D' call') :
    D'.StopsPosts ↔ w.shared.StopsPosts ∧ PostsAsMember w (i, step) := by
  rcases h.visible with ⟨-, hlog⟩ | ⟨r, effect, hr, ⟨-, hcall⟩, rfl⟩
  · simp only [Database.StopsPosts, hlog, neverSince_append_of_not (posted_irrelevant _ _),
      forall_and, List.forall_mem_map]
    refine and_congr_right fun _ => ⟨fun hstops message hmessage sender hsender => ?_,
      fun hmember key message hmessage hposts hrevoked => ?_⟩
    · -- the sender was a member when it was checked
      obtain ⟨r, hr, hconversation, -, ⟨hrole, hsender', hchecked⟩ | ⟨-, hnone⟩⟩ :=
        h.posts (hw.writes i) hmessage
      · obtain rfl : sender = r.senderId := Option.some.inj (hsender.symm.trans hsender')
        rw [hconversation]
        refine (hw.checked i r hr hchecked).resolve_right fun hrevoked => ?_
        exact hstops r.memberKey message hmessage ⟨hrole, hconversation, hsender'⟩ hrevoked
      · cases hsender.symm.trans hnone
    · obtain ⟨-, hconversation, hsender⟩ := hposts
      refine (hw.absent key hrevoked).1 ?_
      have hkey := hmember message hmessage _ hsender
      rwa [hconversation] at hkey
  · have hposts : PostsAsMember w (i, step) := by
      intro message hmessage
      rw [hcall, posts_useCase] at hmessage
      exact absurd hmessage List.not_mem_nil
    simp only [Database.StopsPosts, hposts, and_true]
    refine forall_congr' fun key => ?_
    rw [neverSince_concat]
    exact and_iff_left fun hno => hno.elim

end Step

theorem revocationInv_init {request : ι → Request} {rows : List ConversationModel}
    {members : Finset ConversationParticipantModel} {stored : List Message} {lastSeq : Int}
    (hrows : (rows.map ConversationModel.id).Nodup)
    (hmembers : ∀ a ∈ members, ∀ b ∈ members, a.key = b.key → a = b) :
    RevocationInv request (Workspace.init request rows members stored lastSeq) := by
  refine ⟨workspaceInv_init hrows hmembers, fun key hrevoked => hrevoked.elim,
    fun i => writes_start (request i), fun i r hr hcall => ?_⟩
  cases (checked_start (request i)).symm.trans hcall

/-- No message of a removed member is committed, in a run of any calls, exactly when every message
    commits while the membership of its sender is still there. -/
theorem revocation_stopsPosts_iff (request : ι → Request) {rows : List ConversationModel}
    (hrows : (rows.map ConversationModel.id).Nodup) {members : Finset ConversationParticipantModel}
    (hmembers : ∀ a ∈ members, ∀ b ∈ members, a.key = b.key → a = b) {stored : List Message}
    {lastSeq : Int} {es : List (ι × WorkspaceStep)} {w : Workspace ι}
    (h : exec (World.move (Request.step request))
      (Workspace.init request rows members stored lastSeq) es = some w) :
    w.shared.StopsPosts ↔ StepsMeet (World.move (Request.step request)) PostsAsMember
      (Workspace.init request rows members stored lastSeq) es := by
  have hkeeps := exec_keeps_iff_stepsMeet (I := RevocationInv request)
    (P := fun w => w.shared.StopsPosts) (A := fun _ _ => True) (C := PostsAsMember)
    (fun w e w' hw _ he => ?_) (fun w e w' hw _ he => ?_) (revocationInv_init hrows hmembers)
    (StepsMeet.of_forall fun _ _ => trivial) h
  · rw [hkeeps]
    exact and_iff_right fun key => neverSince_nil
  · obtain ⟨D', call', hstep, rfl⟩ := World.move_eq_some.1 he
    exact revocationInv_step hw (request_move hstep)
  · obtain ⟨D', call', hstep, rfl⟩ := World.move_eq_some.1 he
    exact stopsPosts_step hw (request_move hstep)

/-! ## A removal beside a message -/

/-- User 20 posts while the owner removes them. -/
def postBesideRemoval : Bool → Request
  | false => .send { helloRequest with senderId := ⟨20⟩ }
  | true => .useCase ⟨.removeParticipant ⟨20⟩, ⟨1⟩, 10, ⟨9, 0⟩⟩

def ownerAndGuest : Finset ConversationParticipantModel :=
  {⟨⟨1⟩, ⟨10⟩, ⟨0, 0⟩⟩, ⟨⟨1⟩, ⟨20⟩, ⟨5, 0⟩⟩}

/-- A user who posts and is removed afterwards has posted as a member. -/
theorem revocation_stopsPosts_inTurn :
    ∃ w, exec (World.move (Request.step postBesideRemoval)) (Workspace.init postBesideRemoval
        [lifecycleRow] ownerAndGuest [] 0) (checkSteps ++ postSteps ++ useCaseSteps true) = some w ∧
      w.shared.log.length = 2 ∧ w.shared.StopsPosts := by
  obtain ⟨w, h, hlog⟩ := exec_reaches (World.move (Request.step postBesideRemoval))
    (Workspace.init postBesideRemoval [lifecycleRow] ownerAndGuest [] 0)
    (checkSteps ++ postSteps ++ useCaseSteps true) (fun w => w.shared.log.length = 2) (by decide)
  exact ⟨w, h, hlog,
    (revocation_stopsPosts_iff postBesideRemoval (by decide) (by decide) h).2 (by decide)⟩

/-- The removal commits between the check of the send and its commit: the message of the removed user
    is committed all the same. -/
theorem revocation_postsAfterRemoval :
    ∃ w, exec (World.move (Request.step postBesideRemoval)) (Workspace.init postBesideRemoval
        [lifecycleRow] ownerAndGuest [] 0) (checkSteps ++ useCaseSteps true ++ postSteps) = some w ∧
      ¬ w.shared.StopsPosts := by
  obtain ⟨w, h, hposts⟩ := exec_reaches (World.move (Request.step postBesideRemoval))
    (Workspace.init postBesideRemoval [lifecycleRow] ownerAndGuest [] 0)
    (checkSteps ++ useCaseSteps true ++ postSteps)
    (fun w => ¬ NeverSince (Commit.postsAs (⟨1⟩, ⟨20⟩)) (Commit.removes (⟨1⟩, ⟨20⟩))
      (Commit.admits (⟨1⟩, ⟨20⟩)) w.shared.log) (by decide)
  exact ⟨w, h, fun hstops => hposts (hstops (⟨1⟩, ⟨20⟩))⟩

end Dizzchat
