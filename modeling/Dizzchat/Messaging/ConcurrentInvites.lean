import Dizzchat.Messaging.Ownership
import Dizzchat.Transition.CheckThenInsert

set_option autoImplicit false

/-! # Concurrent invites of one user

Any number of `AddParticipant.execute` transactions by the owner of an active conversation for one
registered email, where nothing fails but the primary key of `conversation_participants`. An invite
decides on the members it has read; that it adds the user shows when it sends its `INSERT`. An invite
that does not find the user among the members, but comes after another one with its `INSERT`, raises
the integrity error instead of returning the participant.

`invites_idempotent_iff` is exact: every invite returns the participant if and only if no invite reads
the members while another one is adding the user. -/

namespace Dizzchat

open Transition

/-! ## An invite -/

structure InviteRequest where
  conversationId : ConversationId
  ownerId : OwnerId
  email : String
  now : Datetime
deriving DecidableEq

variable (directory : String → Option UUID)

/-- The call of the use case, with what `find_id_by_email` answers. -/
def InviteRequest.useCase (request : InviteRequest) : UseCaseRequest where
  useCase := .addParticipant request.email (directory request.email)
  conversationId := request.conversationId
  actorId := request.ownerId.value
  now := request.now

def InviteRequest.member (request : InviteRequest) (participantId : ParticipantId) :
    ConversationParticipantModel :=
  ⟨request.conversationId, participantId, request.now⟩

/-- A call, with the participant it will return and whether it adds it. -/
structure InviteCall where
  call : UseCaseCall
  decided : Option (ParticipantId × Bool)
deriving DecidableEq

variable {ι : Type*} [DecidableEq ι]

/-- The steps of invite `i`: those of its use case, which decides once it has read the members. -/
def AddParticipant.step (request : ι → InviteRequest) (i : ι) (step : WorkspaceStep)
    (D : Database ι) (invite : InviteCall) : Option (Database ι × InviteCall) :=
  let conversationId := (request i).conversationId
  (((request i).useCase directory).step i step D invite.call).map fun (D', call) =>
    (D', { call
           decided := match step, invite.call with
             | .readParticipants, .rowRead row =>
                 (AddParticipant.execute (D.participantsOf conversationId) conversationId
                   (request i).ownerId (request i).email (directory (request i).email) row).toOption
             | _, _ => invite.decided })

abbrev InviteWorld (ι : Type*) := World ι (Database ι) InviteCall

namespace InviteCall

def hasEnded (invite : InviteCall) : Bool := !invite.call.running

/-- What a call that went through has returned. -/
def result : InviteCall → Option ParticipantId
  | ⟨.returned, some (participantId, _)⟩ => some participantId
  | _ => none

/-- The call has read the members without the user, and not committed. -/
def adding : InviteCall → Bool
  | ⟨.decided (.addParticipant _), _⟩ | ⟨.written (.admitted _), _⟩ => true
  | _ => false

end InviteCall

omit [DecidableEq ι] in
/-- Every invite is about to start on a database nobody is writing to. -/
def InviteWorld.init (rows : List ConversationModel)
    (members : Finset ConversationParticipantModel) : InviteWorld ι where
  shared :=
    { conversations := { rows, writes := [] }
      participants := { rows := members, inserts := ∅, deletes := ∅ }
      chat := ⟨⟨{ rows := [], writes := [] }, 0⟩, [], []⟩
      log := [] }
  proc _ := ⟨.started, none⟩

/-- Nobody reads the members while another invite is adding the user. -/
def InviteWorld.ReadsAlone (w : InviteWorld ι) (e : ι × WorkspaceStep) : Prop :=
  e.2 = .readParticipants → ∀ j, (w.proc j).adding = false

/-- Every invite is by the owner of the active conversation of `model`, for one email, which is
    registered as that of `participantId`. -/
structure SameInvite (request : ι → InviteRequest) (model : ConversationModel)
    (participantId : ParticipantId) (email : String) : Prop where
  active : model.deletedAt = none
  conversationId : ∀ i, (request i).conversationId = model.id
  ownerId : ∀ i, (request i).ownerId = model.ownerId
  sameEmail : ∀ i, (request i).email = email
  registered : directory email = some participantId.value

/-! ## What a step can do -/

section Step

variable {directory} {request : ι → InviteRequest} {model : ConversationModel}
  {participantId : ParticipantId} {email : String} {i : ι} {step : WorkspaceStep}
  {D D' : Database ι} {invite invite' : InviteCall}

/-- How far an invite comes where nothing fails but the primary key. -/
inductive InviteStage (member : ConversationParticipantModel) (model : ConversationModel) :
    InviteCall → Prop
  | started : InviteStage member model ⟨.started, none⟩
  | rowRead : InviteStage member model ⟨.rowRead (some model), none⟩
  | adds : InviteStage member model ⟨.decided (.addParticipant member), some (member.userId, true)⟩
  | knows : InviteStage member model ⟨.decided .nothing, some (member.userId, false)⟩
  | added : InviteStage member model ⟨.written (.admitted member), some (member.userId, true)⟩
  | wroteNothing : InviteStage member model ⟨.written .nothing, some (member.userId, false)⟩
  | returned (isNew : Bool) : InviteStage member model ⟨.returned, some (member.userId, isNew)⟩
  | raised : InviteStage member model ⟨.raised .integrityError, some (member.userId, true)⟩

/-- The steps of an invite, one constructor for each. -/
inductive InviteMove (i : ι) (member : ConversationParticipantModel) (model : ConversationModel)
    (D : Database ι) : WorkspaceStep → InviteCall → Database ι → InviteCall → Prop
  | reads : InviteMove i member model D .start ⟨.started, none⟩ D ⟨.rowRead (some model), none⟩
  | misses (h : ¬ D.participants.Has ConversationParticipantModel.key member.key) :
      InviteMove i member model D .readParticipants ⟨.rowRead (some model), none⟩ D
        ⟨.decided (.addParticipant member), some (member.userId, true)⟩
  | finds (h : D.participants.Has ConversationParticipantModel.key member.key) :
      InviteMove i member model D .readParticipants ⟨.rowRead (some model), none⟩ D
        ⟨.decided .nothing, some (member.userId, false)⟩
  | inserts {participants : RowSet ι (ConversationId × ParticipantId) ConversationParticipantModel}
      (h : D.participants.insert ConversationParticipantModel.key i {member} = .done participants) :
      InviteMove i member model D .write
        ⟨.decided (.addParticipant member), some (member.userId, true)⟩ { D with participants }
        ⟨.written (.admitted member), some (member.userId, true)⟩
  | clashes
      (h : D.participants.insert ConversationParticipantModel.key i {member} = .duplicate) :
      InviteMove i member model D .write
        ⟨.decided (.addParticipant member), some (member.userId, true)⟩ (D.rollback i)
        ⟨.raised .integrityError, some (member.userId, true)⟩
  | writesNothing :
      InviteMove i member model D .write ⟨.decided .nothing, some (member.userId, false)⟩ D
        ⟨.written .nothing, some (member.userId, false)⟩
  | commits {request : UseCaseRequest} :
      InviteMove i member model D .commit ⟨.written (.admitted member), some (member.userId, true)⟩
        { D.commit i with log := D.log ++ [.useCase request (.admitted member)] }
        ⟨.returned, some (member.userId, true)⟩
  | commitsNothing {request : UseCaseRequest} :
      InviteMove i member model D .commit ⟨.written .nothing, some (member.userId, false)⟩
        { D.commit i with log := D.log ++ [.useCase request .nothing] }
        ⟨.returned, some (member.userId, false)⟩

omit [DecidableEq ι] in
/-- What an invite decides on the members it has read. -/
theorem addParticipant_execute (hsame : SameInvite directory request model participantId email)
    (participants : Finset ParticipantId) :
    AddParticipant.execute participants (request i).conversationId (request i).ownerId
      (request i).email (directory (request i).email) (some model) =
        .ok (participantId, decide (participantId ∉ participants)) := by
  refine addParticipant_eq_ok.2 ⟨model, rfl, hsame.active, (hsame.ownerId i).symm, ?_, rfl⟩
  rw [hsame.sameEmail i]
  exact hsame.registered

omit [DecidableEq ι] in
theorem useCase_execute (hsame : SameInvite directory request model participantId email)
    (participants : Finset ParticipantId) :
    ((request i).useCase directory).execute participants (some model) =
      .ok (if participantId ∈ participants then .nothing
        else .addParticipant ((request i).member participantId)) := by
  have hexecute := addParticipant_execute (i := i) hsame participants
  simp only [UseCaseRequest.execute, InviteRequest.useCase]
  rw [hexecute]
  by_cases hmember : participantId ∈ participants <;>
    simp [bind, Except.bind, pure, Except.pure, hmember, InviteRequest.member]

theorem invite_move (hsame : SameInvite directory request model participantId email)
    (hrow : D.row model.id = some model) (hstep : step ≠ .fail)
    (hstage : InviteStage ((request i).member participantId) model invite)
    (h : AddParticipant.step directory request i step D invite = some (D', invite')) :
    InviteMove i ((request i).member participantId) model D step invite D' invite' := by
  obtain ⟨⟨D₁, call₁⟩, hcall, heq⟩ := Option.map_eq_some_iff.1 h
  cases heq
  have hid := hsame.conversationId i
  cases hstage with
  | started =>
      cases step with
      | start =>
          cases hcall
          show InviteMove _ _ _ _ _ _ _ ⟨.rowRead (D.row (request i).conversationId), none⟩
          rw [hid, hrow]
          exact .reads
      | readParticipants | write | commit | exchange => cases hcall
      | fail => exact absurd rfl hstep
  | rowRead =>
      cases step with
      | readParticipants =>
          cases hcall
          have hmember : participantId ∈ D.participantsOf (request i).conversationId ↔
              D.participants.Has ConversationParticipantModel.key
                ((request i).member participantId).key := mem_participantsOf
          show InviteMove i _ model D _ _ D ⟨.afterExecute (((request i).useCase directory).execute
            (D.participantsOf (request i).conversationId) (some model)),
            (AddParticipant.execute (D.participantsOf (request i).conversationId)
              (request i).conversationId (request i).ownerId (request i).email
              (directory (request i).email) (some model)).toOption⟩
          rw [useCase_execute hsame, addParticipant_execute hsame]
          by_cases hhas : participantId ∈ D.participantsOf (request i).conversationId
          · simp only [hhas, if_true, not_true_eq_false, decide_false]
            exact .finds (hmember.1 hhas)
          · simp only [hhas, if_false, not_false_eq_true, decide_true]
            exact .misses fun h => hhas (hmember.2 h)
      | start | write | commit | exchange => cases hcall
      | fail => exact absurd rfl hstep
  | adds =>
      cases step with
      | write =>
          rw [UseCaseRequest.step, Change.write] at hcall
          split at hcall
          · cases hcall
          · next hinsert => cases hcall; exact .clashes hinsert
          · next hinsert => cases hcall; exact .inserts hinsert
      | start | readParticipants | commit | exchange => cases hcall
      | fail => exact absurd rfl hstep
  | knows =>
      cases step with
      | write => cases hcall; exact .writesNothing
      | start | readParticipants | commit | exchange => cases hcall
      | fail => exact absurd rfl hstep
  | added =>
      cases step with
      | commit => cases hcall; exact .commits
      | start | readParticipants | write | exchange => cases hcall
      | fail => exact absurd rfl hstep
  | wroteNothing =>
      cases step with
      | commit => cases hcall; exact .commitsNothing
      | start | readParticipants | write | exchange => cases hcall
      | fail => exact absurd rfl hstep
  | returned | raised =>
      cases step with
      | start | readParticipants | write | commit | exchange => cases hcall
      | fail => exact absurd rfl hstep

end Step

/-! ## What holds in every such run -/

def InviteWorld.forget (w : InviteWorld ι) : Workspace ι :=
  ⟨w.shared, fun i => .useCase (w.proc i).call⟩

structure InviteInv (directory : String → Option UUID) (request : ι → InviteRequest)
    (model : ConversationModel) (participantId : ParticipantId) (w : InviteWorld ι) : Prop where
  workspace : WorkspaceInv (fun i => .useCase ((request i).useCase directory)) w.forget
  row : w.shared.row model.id = some model
  stage : ∀ i, InviteStage ((request i).member participantId) model (w.proc i)

section Invariant

variable {directory} {request : ι → InviteRequest} {model : ConversationModel}
  {participantId : ParticipantId} {email : String} {i : ι} {step : WorkspaceStep}
  {D D' : Database ι} {invite invite' : InviteCall} {w w' : InviteWorld ι}

/-- An invite is one of the use cases. -/
theorem AddParticipant.useCase_move
    (h : AddParticipant.step directory request i step D invite = some (D', invite')) :
    UseCaseMove ((request i).useCase directory) i D step invite.call D' invite'.call := by
  obtain ⟨⟨D₁, call₁⟩, hcall, heq⟩ := Option.map_eq_some_iff.1 h
  cases heq
  exact Dizzchat.useCase_move hcall

theorem InviteWorld.forget_update :
    InviteWorld.forget ⟨D', Function.update w.proc i invite'⟩ =
      ⟨D', Function.update w.forget.proc i (.useCase invite'.call)⟩ := by
  refine congrArg (World.mk D') ?_
  exact Function.comp_update (fun invite : InviteCall => Call.useCase invite.call) w.proc i invite'

theorem InviteMove.stage {member : ConversationParticipantModel}
    (h : InviteMove i member model D step invite D' invite') : InviteStage member model invite' := by
  cases h with
  | reads => exact .rowRead
  | misses => exact .adds
  | finds => exact .knows
  | inserts => exact .added
  | clashes => exact .raised
  | writesNothing => exact .wroteNothing
  | commits | commitsNothing => exact .returned _

theorem inviteInv_step (hsame : SameInvite directory request model participantId email)
    (hw : InviteInv directory request model participantId w) {e : ι × WorkspaceStep}
    (hstep : e.2 ≠ .fail) (h : World.move (AddParticipant.step directory request) w e = some w') :
    InviteInv directory request model participantId w' := by
  obtain ⟨i, step⟩ := e
  obtain ⟨D', invite', hmove, rfl⟩ := World.move_eq_some.1 h
  have huse := AddParticipant.useCase_move hmove
  refine ⟨?_, ?_, ?_⟩
  · rw [InviteWorld.forget_update]
    exact workspaceInv_useCase hw.workspace rfl rfl huse
  · rcases huse.row (hw.workspace.ownRows i) model.id with hrow | ⟨effect, _, hcall, heffect, -⟩
    · exact hrow.trans hw.row
    · -- an invite writes no conversation
      have hstage := hw.stage i
      generalize w.proc i = invite at hcall hstage
      obtain ⟨call, decided⟩ := invite
      subst hcall
      cases hstage <;> cases heffect
  · refine (Function.forall_update_iff w.proc fun j invite =>
      InviteStage ((request j).member participantId) model invite).2 ⟨?_, fun j _ => hw.stage j⟩
    exact (invite_move hsame hw.row hstep (hw.stage i) hmove).stage

theorem inviteInv_init {rows : List ConversationModel}
    {members : Finset ConversationParticipantModel}
    (hids : (rows.map ConversationModel.id).Nodup)
    (hmembers : ∀ a ∈ members, ∀ b ∈ members, a.key = b.key → a = b)
    (hrow : lookup ConversationModel.id model.id rows = some model) :
    InviteInv directory request model participantId (InviteWorld.init rows members) where
  workspace := workspaceInv_init hids hmembers
  row := hrow
  stage _ := .started

end Invariant

/-! ## The race for the row -/

def InviteCall.inserter : InviteCall → Inserter
  | ⟨.started, _⟩ | ⟨.rowRead _, _⟩ => .waiting
  | ⟨.raised _, _⟩ => .refused
  | ⟨.returned, some (_, true)⟩ => .inserted
  | ⟨_, some (_, true)⟩ => .missed
  | _ => .found

/-- The row with the key `k` is committed. -/
def Database.hasKey (k : ConversationId × ParticipantId) (D : Database ι) : Bool :=
  decide (D.participants.Has ConversationParticipantModel.key k)

section Race

variable {directory} {request : ι → InviteRequest} {model : ConversationModel}
  {participantId : ParticipantId} {email : String} {i : ι} {step : WorkspaceStep}
  {D D' : Database ι} {invite invite' : InviteCall}

omit [DecidableEq ι] in
theorem InviteStage.adding_iff {member : ConversationParticipantModel}
    (h : InviteStage member model invite) : invite.adding = true ↔ invite.inserter = .missed := by
  cases h with
  | returned isNew => cases isNew <;> simp [InviteCall.adding, InviteCall.inserter]
  | started | rowRead | adds | knows | added | wroteNothing | raised =>
      simp [InviteCall.adding, InviteCall.inserter]

/-- In the race for the row an invite looks when it reads the members, and inserts when its `INSERT` is
    committed, or fails. -/
theorem InviteMove.race {member : ConversationParticipantModel}
    (h : InviteMove i member model D step invite D' invite')
    (hkeyed : D.participants.Keyed ConversationParticipantModel.key)
    (hinserts : ∀ r, (i, r) ∈ D.participants.inserts ↔ r ∈ (Call.useCase invite.call).inserts)
    (hdeletes : ∀ k, (i, k) ∈ D.participants.deletes ↔ k ∈ (Call.useCase invite.call).deletes) :
    InsertRace.IsMove (step = .readParticipants) (D.hasKey member.key) invite.inserter
      (D'.hasKey member.key) invite'.inserter := by
  unfold Database.hasKey
  cases h with
  | reads | writesNothing => exact .inl ⟨by simp, rfl, rfl⟩
  | misses hmissed =>
      refine .inr ⟨.look, by simp, ?_⟩
      rw [decide_eq_false hmissed]
      exact .misses
  | finds hfound =>
      refine .inr ⟨.look, by simp, ?_⟩
      rw [decide_eq_true hfound]
      exact .finds
  | inserts hinsert =>
      obtain ⟨-, rfl⟩ := RowSet.insert_eq_done hinsert
      exact .inl ⟨by simp, rfl, rfl⟩
  | clashes hinsert =>
      -- the invite has nothing open, so the row is committed
      obtain ⟨r, hr, htaken⟩ := RowSet.insert_eq_duplicate hinsert
      obtain rfl := Finset.mem_singleton.1 hr
      have hhas : D.participants.Has ConversationParticipantModel.key r.key := by
        rcases htaken with hhas | ⟨⟨t, x⟩, hx, rfl, -⟩
        · exact hhas
        · exact absurd ((hinserts x).1 hx) (Finset.notMem_empty x)
      have hhas' : (D.rollback i).participants.Has ConversationParticipantModel.key r.key := hhas
      refine .inr ⟨.insert, by simp, ?_⟩
      rw [decide_eq_true hhas, decide_eq_true hhas']
      exact .isRefused
  | commits =>
      have hopen : (i, member) ∈ D.participants.inserts :=
        (hinserts member).2 (Finset.mem_singleton_self member)
      have hfree : ¬ D.participants.Has ConversationParticipantModel.key member.key :=
        hkeyed.fresh _ hopen
      have hhas : (D.commit i).participants.Has ConversationParticipantModel.key member.key := by
        refine RowSet.has_commit.2 ⟨.inr ⟨member, hopen, rfl⟩, fun hdelete => ?_⟩
        exact Finset.notMem_empty _ ((hdeletes _).1 hdelete)
      refine .inr ⟨.insert, by simp, ?_⟩
      rw [decide_eq_false hfree, decide_eq_true hhas]
      exact .inserts
  | commitsNothing =>
      refine .inl ⟨by simp, decide_eq_decide.2 (RowSet.has_commit.trans ?_), rfl⟩
      simp [hinserts, hdeletes, Call.inserts, Call.deletes, Effect.inserts, Effect.deletes]

/-- The run of the invites as a race for the row. -/
theorem invites_race (hsame : SameInvite directory request model participantId email)
    {w₀ w : InviteWorld ι} (hw₀ : InviteInv directory request model participantId w₀)
    {es : List (ι × WorkspaceStep)} (hfails : ∀ e ∈ es, e.2 ≠ .fail)
    (hrun : exec (World.move (AddParticipant.step directory request)) w₀ es = some w) :
    ∃ es', exec InsertRace.step
        (InsertRace.view (Database.hasKey (model.id, participantId)) InviteCall.inserter w₀) es' =
          some (InsertRace.view (Database.hasKey (model.id, participantId)) InviteCall.inserter w) ∧
      (StepsMeet InsertRace.step InsertRace.LooksAlone
        (InsertRace.view (Database.hasKey (model.id, participantId)) InviteCall.inserter w₀) es' ↔
        StepsMeet (World.move (AddParticipant.step directory request)) InviteWorld.ReadsAlone w₀
          es) := by
  have halone : ∀ (w : InviteWorld ι) (e : ι × WorkspaceStep),
      InviteInv directory request model participantId w →
      (w.ReadsAlone e ↔ (e.2 = .readParticipants → ∀ j, (w.proc j).inserter ≠ .missed)) := by
    intro w e hw
    refine forall_congr' fun _ => forall_congr' fun j => ?_
    rw [← Bool.not_eq_true, (hw.stage j).adding_iff]
  refine InsertRace.simulated (fun step => step = .readParticipants)
    (fun _ _ _ hw he h => inviteInv_step hsame hw he h) halone (fun w i step D' invite' hw hstep h => ?_) hw₀ hfails hrun
  have hmembers := hw.workspace.ownMembers i
  have hkey : ((request i).member participantId).key = (model.id, participantId) :=
    Prod.ext (hsame.conversationId i) rfl
  have hmove := invite_move hsame hw.row hstep (hw.stage i) h
  exact hkey ▸ hmove.race hw.workspace.keyed hmembers.1 hmembers.2

end Race

/-! ## The result -/

section Result

variable {directory} {request : ι → InviteRequest} {model : ConversationModel}
  {participantId : ParticipantId} {email : String} {w : InviteWorld ι}

theorem InviteStage.ended {member : ConversationParticipantModel} {invite : InviteCall}
    (h : InviteStage member model invite) (hended : invite.hasEnded = true) :
    invite.inserter.hasEnded = true ∧
      (invite.result = some member.userId ↔ invite.inserter ≠ .refused) := by
  cases h with
  | returned isNew =>
      cases isNew <;> simp [InviteCall.inserter, InviteCall.result, Inserter.hasEnded]
  | raised => simp [InviteCall.inserter, InviteCall.result, Inserter.hasEnded]
  | started | rowRead | adds | knows | added | wroteNothing => cases hended

/-- Whoever has a membership open can commit it. -/
theorem InviteStage.of_open {member r : ConversationParticipantModel} {invite : InviteCall}
    (h : InviteStage member model invite) (hr : r ∈ (Call.useCase invite.call).inserts) :
    invite.call = .written (.admitted member) := by
  cases h with
  | added => rfl
  | started | rowRead | adds | knows | wroteNothing | returned | raised =>
      exact absurd hr (Finset.notMem_empty r)

theorem InviteStage.deletes {member : ConversationParticipantModel} {invite : InviteCall}
    (h : InviteStage member model invite) : (Call.useCase invite.call).deletes = ∅ := by
  cases h <;> rfl

theorem move_isSome {i : ι} {step : WorkspaceStep}
    (h : (((request i).useCase directory).step i step w.shared (w.proc i).call).isSome = true) :
    (World.move (AddParticipant.step directory request) w (i, step)).isSome = true := by
  simpa only [World.move, AddParticipant.step, Option.isSome_map] using h

/-- An invite that has not ended can go on, or waits for one that can. -/
theorem invite_goesOn (hw : InviteInv directory request model participantId w) {i : ι}
    (hended : (w.proc i).hasEnded = false) :
    ∃ e, e.2 ≠ .fail ∧
      (World.move (AddParticipant.step directory request) w e).isSome = true := by
  have hstage := hw.stage i
  generalize hinvite : w.proc i = invite at hstage hended
  have hgoes : ∀ step, step ≠ .fail →
      (((request i).useCase directory).step i step w.shared invite.call).isSome = true →
      ∃ e, e.2 ≠ .fail ∧
        (World.move (AddParticipant.step directory request) w e).isSome = true := by
    intro step hstep hcall
    exact ⟨(i, step), hstep, move_isSome (hinvite ▸ hcall)⟩
  cases hstage with
  | started => exact hgoes .start (by simp) rfl
  | rowRead => exact hgoes .readParticipants (by simp) rfl
  | knows => exact hgoes .write (by simp) rfl
  | added | wroteNothing => exact hgoes .commit (by simp) rfl
  | returned | raised => cases hended
  | adds =>
      cases hinsert : w.shared.participants.insert ConversationParticipantModel.key i
          {(request i).member participantId} with
      | done | duplicate =>
          refine hgoes .write (by simp) ?_
          simp [UseCaseRequest.step, Change.write, hinsert]
      | blocked =>
          obtain ⟨r, -, ⟨⟨j, x⟩, hx, -⟩ | ⟨⟨j, x⟩, hx, -⟩⟩ := RowSet.insert_eq_blocked hinsert
          · have hcall := (hw.stage j).of_open (((hw.workspace.ownMembers j).1 x).1 hx)
            refine ⟨(j, .commit), by simp, move_isSome ?_⟩
            rw [hcall]
            rfl
          · have hdeletes : x ∈ (Call.useCase (w.proc j).call).deletes :=
              ((hw.workspace.ownMembers j).2 x).1 hx
            rw [(hw.stage j).deletes] at hdeletes
            exact absurd hdeletes (Finset.notMem_empty x)

/-- In a run that nothing but the primary key makes fail, and that goes on as long as it can, every
    invite returns the user, with one membership of it in the end, exactly when no invite reads the
    members while another one is adding the user. -/
theorem invites_idempotent_iff (directory : String → Option UUID) (request : ι → InviteRequest)
    {rows : List ConversationModel} {members : Finset ConversationParticipantModel}
    {model : ConversationModel} {participantId : ParticipantId} {email : String}
    (hids : (rows.map ConversationModel.id).Nodup)
    (hmembers : ∀ a ∈ members, ∀ b ∈ members, a.key = b.key → a = b)
    (hrow : lookup ConversationModel.id model.id rows = some model)
    (hsame : SameInvite directory request model participantId email)
    {es : List (ι × WorkspaceStep)} {w : InviteWorld ι}
    (hrun : exec (World.move (AddParticipant.step directory request))
      (InviteWorld.init rows members) es = some w)
    (hfails : ∀ e ∈ es, e.2 ≠ .fail)
    (hend : ∀ e, e.2 ≠ .fail → World.move (AddParticipant.step directory request) w e = none) :
    (∀ i, (w.proc i).result = some participantId ∧
      (w.shared.participants.rows.filter fun m => m.key = (model.id, participantId)).card = 1) ↔
      StepsMeet (World.move (AddParticipant.step directory request)) InviteWorld.ReadsAlone
        (InviteWorld.init rows members) es := by
  have hinit : InviteInv directory request model participantId (InviteWorld.init rows members) :=
    inviteInv_init hids hmembers hrow
  have hinv : InviteInv directory request model participantId w :=
    exec_invariant_of_stepsMeet (fun _ _ _ hw he h => inviteInv_step hsame hw he h) hinit
      (StepsMeet.of_forall hfails) hrun
  have hended : ∀ i, (w.proc i).hasEnded = true := by
    intro i
    by_contra hrunning
    obtain ⟨e, he, hmove⟩ := invite_goesOn hinv (Bool.not_eq_true _ ▸ hrunning)
    rw [hend e he] at hmove
    cases hmove
  obtain ⟨es', hrace, hmeet⟩ := invites_race hsame hinit hfails hrun
  have hrefused := InsertRace.nobody_refused_iff hrace fun i => ((hinv.stage i).ended (hended i)).1
  refine Iff.trans (forall_congr' fun i => ?_) (hrefused.trans hmeet)
  have hresult := ((hinv.stage i).ended (hended i)).2
  refine ⟨fun h => hresult.1 h.1, fun h => ⟨hresult.2 h, ?_⟩⟩
  have hhas := (InsertRace.insertInv_run hrace).ended i ((hinv.stage i).ended (hended i)).1
  have hkeyed : w.shared.participants.Keyed ConversationParticipantModel.key :=
    hinv.workspace.keyed
  rw [hkeyed.card_filter, if_pos (of_decide_eq_true hhas)]

end Result

/-! ## Two invites of one user -/

/-- User 20 is invited twice by user 10, who owns the conversation. -/
def twoInvites : Bool → InviteRequest
  | false => ⟨⟨1⟩, ⟨10⟩, "ada@example.org", ⟨5, 0⟩⟩
  | true => ⟨⟨1⟩, ⟨10⟩, "ada@example.org", ⟨6, 0⟩⟩

def adaDirectory (email : String) : Option UUID :=
  if email = "ada@example.org" then some 20 else none

theorem twoInvites_same : SameInvite adaDirectory twoInvites lifecycleRow ⟨20⟩ "ada@example.org" where
  active := rfl
  conversationId i := by cases i <;> rfl
  ownerId i := by cases i <;> rfl
  sameEmail i := by cases i <;> rfl
  registered := by decide

theorem move_of_ended {directory : String → Option UUID} {request : ι → InviteRequest}
    {w : InviteWorld ι} (hended : ∀ i, (w.proc i).hasEnded = true) (e : ι × WorkspaceStep) :
    World.move (AddParticipant.step directory request) w e = none := by
  obtain ⟨i, step⟩ := e
  have hi := hended i
  simp only [World.move, AddParticipant.step, Option.map_eq_none_iff]
  generalize w.proc i = invite at hi ⊢
  obtain ⟨call, decided⟩ := invite
  cases call with
  | returned | raised => cases step <;> rfl
  | started | rowRead | decided | inserted | written => cases hi

instance InviteWorld.decidableReadsAlone [Fintype ι] (w : InviteWorld ι) (e : ι × WorkspaceStep) :
    Decidable (w.ReadsAlone e) :=
  inferInstanceAs (Decidable (e.2 = .readParticipants → ∀ j, (w.proc j).adding = false))

/-- The second invite reads the members after the first one has committed. -/
theorem invites_idempotent_inTurn :
    ∃ w, exec (World.move (AddParticipant.step adaDirectory twoInvites))
        (InviteWorld.init [lifecycleRow] {⟨⟨1⟩, ⟨10⟩, ⟨0, 0⟩⟩})
        (useCaseSteps false ++ useCaseSteps true) = some w ∧
      ∀ i, (w.proc i).result = some ⟨20⟩ ∧
        (w.shared.participants.rows.filter fun m => m.key = (⟨1⟩, ⟨20⟩)).card = 1 := by
  obtain ⟨w, hrun, hended⟩ := exec_reaches (World.move (AddParticipant.step adaDirectory twoInvites))
    (InviteWorld.init [lifecycleRow] {⟨⟨1⟩, ⟨10⟩, ⟨0, 0⟩⟩}) (useCaseSteps false ++ useCaseSteps true)
    (fun w => ∀ i, (w.proc i).hasEnded = true) (by decide)
  exact ⟨w, hrun, (invites_idempotent_iff adaDirectory twoInvites (by decide)
    (by decide) (by decide) twoInvites_same hrun (by decide) fun e _ => move_of_ended hended e).2
    (by decide)⟩

/-- Both invites read the members before one of them commits: the other one raises, though the user is
    registered and the conversation active. -/
theorem invites_collide :
    SameInvite adaDirectory twoInvites lifecycleRow ⟨20⟩ "ada@example.org" ∧
    ∃ w, exec (World.move (AddParticipant.step adaDirectory twoInvites))
        (InviteWorld.init [lifecycleRow] {⟨⟨1⟩, ⟨10⟩, ⟨0, 0⟩⟩})
        [(false, .start), (true, .start), (false, .readParticipants), (true, .readParticipants),
          (false, .write), (false, .commit), (true, .write)] = some w ∧
      (w.proc false).result = some ⟨20⟩ ∧ (w.proc true).call = .raised .integrityError := by
  refine ⟨twoInvites_same, ?_⟩
  exact exec_reaches _ _ _ (fun w : InviteWorld Bool => (w.proc false).result = some ⟨20⟩ ∧
    (w.proc true).call = .raised .integrityError) (by decide)

end Dizzchat
