import Dizzchat.Messaging.Workspace

set_option autoImplicit false

/-! # The owner is never locked out

Who owns a conversation is in one table and who takes part in it in another one, written by different
statements. `WorkspaceInv` says what the open transactions have written and what the calls know, in
terms of one view of the committed rows, the owner of each conversation: it only ever grows. -/

namespace Dizzchat

open Transition

/-! ## What a call has open -/

namespace Effect

def rows : Effect → List ConversationModel
  | .created model _ | .updated model => [model]
  | .admitted _ | .removed _ | .nothing => []

def inserts : Effect → Finset ConversationParticipantModel
  | .created _ members => members
  | .admitted member => {member}
  | .updated _ | .removed _ | .nothing => ∅

def deletes : Effect → Finset (ConversationId × ParticipantId)
  | .removed key => {key}
  | .created .. | .updated _ | .admitted _ | .nothing => ∅

end Effect

namespace Call

def rows : Call → List ConversationModel
  | .useCase (.inserted model _) => [model]
  | .useCase (.written effect) => effect.rows
  | _ => []

/-- The row of a conversation that is not committed yet. -/
def newRows : Call → List ConversationModel
  | .useCase (.inserted model _) | .useCase (.written (.created model _)) => [model]
  | _ => []

def inserts : Call → Finset ConversationParticipantModel
  | .useCase (.written effect) => effect.inserts
  | _ => ∅

def deletes : Call → Finset (ConversationId × ParticipantId)
  | .useCase (.written effect) => effect.deletes
  | _ => ∅

end Call

/-! ## What a call knows -/

variable {ι : Type*}

/-- Who owns a conversation, among the committed rows. -/
def Database.owner (D : Database ι) (c : ConversationId) : Option OwnerId :=
  (D.row c).map ConversationModel.ownerId

/-- The memberships of a new conversation are the one of its owner. -/
def ConversationModel.Seeds (model : ConversationModel)
    (members : Finset ConversationParticipantModel) : Prop :=
  members = {⟨model.id, ⟨model.ownerId.value⟩, model.createdAt⟩}

/-- The membership is of an existing conversation and not of its owner. -/
def MayRemove (owner : ConversationId → Option OwnerId) (key : ConversationId × ParticipantId) :
    Prop :=
  ∃ o, owner key.1 = some o ∧ key.2.value ≠ o.value

def Change.Sound (owner : ConversationId → Option OwnerId) : Change → Prop
  | .create model members => model.Seeds members
  | .removeParticipant c participantId => MayRemove owner (c, participantId)
  | .update _ | .addParticipant _ | .nothing => True

def Effect.Sound (owner : ConversationId → Option OwnerId) : Effect → Prop
  | .created model members => model.Seeds members
  | .updated model => owner model.id = some model.ownerId
  | .removed key => MayRemove owner key
  | .admitted _ | .nothing => True

/-- What a call has read of the owner still holds, and it writes accordingly. -/
def UseCaseCall.Sound (request : UseCaseRequest) (owner : ConversationId → Option OwnerId) :
    UseCaseCall → Prop
  | .rowRead (some row) => owner request.conversationId = some row.ownerId
  | .decided change => change.Sound owner
  | .inserted model members => model.Seeds members
  | .written effect => effect.Sound owner
  | .started | .rowRead none | .returned | .raised _ => True

def Call.Sound (owner : ConversationId → Option OwnerId) : Request → Call → Prop
  | .useCase request, .useCase call => call.Sound request owner
  | _, _ => True

section Mono

variable {owner owner' : ConversationId → Option OwnerId}
  (hle : ∀ c o, owner c = some o → owner' c = some o)

include hle

theorem MayRemove.mono {key : ConversationId × ParticipantId} (h : MayRemove owner key) :
    MayRemove owner' key := by
  obtain ⟨o, ho, hne⟩ := h
  exact ⟨o, hle _ _ ho, hne⟩

theorem UseCaseCall.Sound.mono {request : UseCaseRequest} {call : UseCaseCall}
    (h : call.Sound request owner) : call.Sound request owner' := by
  cases call with
  | rowRead row =>
      cases row with
      | none => trivial
      | some row => exact hle _ _ h
  | decided change =>
      cases change with
      | removeParticipant => exact MayRemove.mono hle h
      | create | update | addParticipant | nothing => exact h
  | written effect =>
      cases effect with
      | updated model => exact hle _ _ h
      | removed => exact MayRemove.mono hle h
      | created | admitted | nothing => exact h
  | started | inserted | returned | raised => exact h

theorem Call.Sound.mono {request : Request} {call : Call} (h : call.Sound owner request) :
    call.Sound owner' request := by
  cases request with
  | send => trivial
  | useCase request =>
      cases call with
      | useCase call => exact UseCaseCall.Sound.mono hle h
      | reading | exchange => trivial

end Mono

/-- A call that goes through decides on what it has read. -/
theorem Accepts.sound {request : UseCaseRequest} {participants : Finset ParticipantId}
    {row : Option ConversationModel} {change : Change}
    (h : Accepts request participants row change) {owner : ConversationId → Option OwnerId}
    (hrow : ∀ model, row = some model → owner request.conversationId = some model.ownerId) :
    change.Sound owner := by
  cases h with
  | create =>
      simp [ConversationRepository.create, Conversation.start, Change.Sound,
        ConversationModel.Seeds]
  | remove huse hactive hactor howner hmember => exact ⟨_, hrow _ rfl, howner⟩
  | rename | delete | restore | add | addAgain => trivial

/-! ## What a step does to the tables -/

variable [DecidableEq ι]

section Step

variable {request : UseCaseRequest} {i : ι} {step : WorkspaceStep} {D D' : Database ι}
  {call call' : UseCaseCall}

theorem UseCaseMove.conversations (h : UseCaseMove request i D step call D' call') :
    Table.Touches ConversationModel.id i D.conversations D'.conversations := by
  cases h with
  | reads | creates | decides | rejects | seeds | admits | removes | writesNothing => exact .none
  | inserts h =>
      obtain ⟨-, hfree, rfl⟩ := Table.insert_eq_done.1 h
      refine .write _ fun w hw hid => ?_
      have hclash := hfree w hw
      simp [ConversationModel.clash, hid] at hclash
  | updates hrow h =>
      obtain ⟨hfree, rfl⟩ := Table.update_eq_some.1 h
      exact .write _ hfree
  | commits => exact .commit
  | fails => exact .rollback

theorem UseCaseMove.participants (h : UseCaseMove request i D step call D' call')
    {owner : ConversationId → Option OwnerId} (hcall : call.Sound request owner) :
    RowSet.Touches ConversationParticipantModel.key i D.participants D'.participants := by
  cases h with
  | reads | creates | decides | rejects | inserts | updates | writesNothing => exact .none
  | seeds h =>
      obtain rfl : _ = _ := hcall
      refine .insert (fun a ha b hb _ => ?_) h
      rw [Finset.mem_singleton.1 ha, Finset.mem_singleton.1 hb]
  | admits h =>
      refine .insert (fun a ha b hb _ => ?_) h
      rw [Finset.mem_singleton.1 ha, Finset.mem_singleton.1 hb]
  | removes h => exact .delete h
  | commits => exact .commit
  | fails => exact .rollback

/-- A call knows the images it has open. -/
theorem UseCaseMove.own (h : UseCaseMove request i D step call D' call')
    (hrows : D.conversations.own i = (Call.useCase call).rows) :
    D'.conversations.own i = (Call.useCase call').rows := by
  cases h with
  | reads | creates | decides | seeds | admits | removes | writesNothing => exact hrows
  | rejects hcall => rcases hcall with rfl | ⟨row, rfl⟩ <;> exact hrows
  | inserts h =>
      obtain ⟨-, -, rfl⟩ := Table.insert_eq_done.1 h
      rw [Table.own_write, if_pos rfl, hrows]
      rfl
  | updates hrow h =>
      obtain ⟨-, rfl⟩ := Table.update_eq_some.1 h
      rw [Table.own_write, if_pos rfl, hrows]
      rfl
  | commits => exact Table.own_commit_self i _
  | fails => exact Table.own_rollback_self i _

/-- A call knows the memberships it has open. -/
theorem UseCaseMove.ownMembers (h : UseCaseMove request i D step call D' call')
    (hinserts : ∀ r, (i, r) ∈ D.participants.inserts ↔ r ∈ (Call.useCase call).inserts)
    (hdeletes : ∀ k, (i, k) ∈ D.participants.deletes ↔ k ∈ (Call.useCase call).deletes) :
    (∀ r, (i, r) ∈ D'.participants.inserts ↔ r ∈ (Call.useCase call').inserts) ∧
      ∀ k, (i, k) ∈ D'.participants.deletes ↔ k ∈ (Call.useCase call').deletes := by
  cases h with
  | reads | creates | decides | inserts | updates | writesNothing => exact ⟨hinserts, hdeletes⟩
  | rejects hcall => rcases hcall with rfl | ⟨row, rfl⟩ <;> exact ⟨hinserts, hdeletes⟩
  | seeds h =>
      obtain ⟨-, rfl⟩ := RowSet.insert_eq_done h
      simp only [Call.inserts, Call.deletes, Finset.notMem_empty, iff_false] at hinserts hdeletes
      simp [hinserts, hdeletes, Call.inserts, Call.deletes, Effect.inserts, Effect.deletes]
  | admits h =>
      obtain ⟨-, rfl⟩ := RowSet.insert_eq_done h
      simp only [Call.inserts, Call.deletes, Finset.notMem_empty, iff_false] at hinserts hdeletes
      simp [hinserts, hdeletes, Call.inserts, Call.deletes, Effect.inserts, Effect.deletes]
  | removes h =>
      simp only [Call.inserts, Call.deletes, Finset.notMem_empty, iff_false] at hinserts hdeletes
      rcases RowSet.delete_eq_some h with ⟨-, -, rfl⟩ | ⟨hfound, -⟩
      · simp [hinserts, hdeletes, Call.inserts, Call.deletes, Effect.inserts, Effect.deletes]
      · cases hfound
  | commits | fails => simp [Database.commit, Database.rollback, Call.inserts, Call.deletes]

/-- The rows of the conversations after a commit. -/
theorem Database.commit_row {effect : Effect} (hrows : D.conversations.own i = effect.rows)
    (c : ConversationId) :
    (∃ model, effect.rows = [model] ∧ model.id = c ∧ (D.commit i).row c = some model) ∨
      (∀ model ∈ effect.rows, model.id ≠ c) ∧ (D.commit i).row c = D.row c := by
  have hcommit : (D.commit i).row c =
      lookup ConversationModel.id c (D.conversations.commit ConversationModel.id i).rows := rfl
  rw [hcommit]
  cases heffect : effect.rows with
  | nil =>
      rw [Table.lookup_commit_of_own_nil (hrows.trans heffect)]
      exact .inr ⟨fun model hmodel => absurd hmodel List.not_mem_nil, rfl⟩
  | cons model rest =>
      obtain rfl : rest = [] := by
        cases effect <;> cases heffect <;> rfl
      rw [Table.lookup_commit_of_own (hrows.trans heffect)]
      split
      · next hid => exact .inl ⟨model, rfl, hid, rfl⟩
      · next hid =>
          refine .inr ⟨fun model' hmodel' => ?_, rfl⟩
          rw [List.mem_singleton.1 hmodel']
          exact hid

/-- The memberships after a commit. -/
theorem Database.commit_has {effect : Effect}
    (hinserts : ∀ r, (i, r) ∈ D.participants.inserts ↔ r ∈ effect.inserts)
    (hdeletes : ∀ k, (i, k) ∈ D.participants.deletes ↔ k ∈ effect.deletes)
    (k : ConversationId × ParticipantId) :
    (D.commit i).participants.Has ConversationParticipantModel.key k ↔
      (D.participants.Has ConversationParticipantModel.key k ∨ ∃ r ∈ effect.inserts, r.key = k) ∧
        k ∉ effect.deletes := by
  have hcommit : (D.commit i).participants.Has ConversationParticipantModel.key k ↔
      (D.participants.Has ConversationParticipantModel.key k ∨
        ∃ r, (i, r) ∈ D.participants.inserts ∧ r.key = k) ∧ (i, k) ∉ D.participants.deletes :=
    RowSet.has_commit
  rw [hcommit, hdeletes]
  simp only [hinserts]

/-- What others can see of a step: nothing, or a commit. -/
theorem UseCaseMove.quiet_or_commits (h : UseCaseMove request i D step call D' call') :
    ((∀ c, D'.row c = D.row c) ∧ D'.participants.rows = D.participants.rows ∧ D'.log = D.log) ∨
      ∃ effect, (step = .commit ∧ call = .written effect) ∧
        D' = { D.commit i with log := D.log ++ [.useCase request effect] } := by
  cases h with
  | reads | creates | decides | rejects | writesNothing | fails => exact .inl ⟨fun _ => rfl, rfl, rfl⟩
  | inserts h =>
      obtain ⟨-, -, rfl⟩ := Table.insert_eq_done.1 h
      exact .inl ⟨fun _ => rfl, rfl, rfl⟩
  | updates hrow h =>
      obtain ⟨-, rfl⟩ := Table.update_eq_some.1 h
      exact .inl ⟨fun _ => rfl, rfl, rfl⟩
  | seeds h | admits h =>
      obtain ⟨-, rfl⟩ := RowSet.insert_eq_done h
      exact .inl ⟨fun _ => rfl, rfl, rfl⟩
  | removes h =>
      rcases RowSet.delete_eq_some h with ⟨-, -, rfl⟩ | ⟨-, -, rfl⟩ <;> exact .inl ⟨fun _ => rfl, rfl, rfl⟩
  | commits => exact .inr ⟨_, ⟨rfl, rfl⟩, rfl⟩

/-- Only a commit changes the committed rows, and only those it has written. -/
theorem UseCaseMove.row (h : UseCaseMove request i D step call D' call')
    (hrows : D.conversations.own i = (Call.useCase call).rows) (c : ConversationId) :
    D'.row c = D.row c ∨ ∃ effect model, call = .written effect ∧ effect.rows = [model] ∧
      model.id = c ∧ D'.row c = some model := by
  rcases h.quiet_or_commits with ⟨hrow, -, -⟩ | ⟨effect, ⟨-, rfl⟩, rfl⟩
  · exact .inl (hrow c)
  · rcases Database.commit_row hrows c with ⟨model, heffect, hid, hrow⟩ | ⟨-, hrow⟩
    · exact .inr ⟨effect, model, rfl, heffect, hid, hrow⟩
    · exact .inl hrow

/-- The owner of a conversation never changes, and no conversation loses its owner. -/
theorem UseCaseMove.owner_le (h : UseCaseMove request i D step call D' call')
    (hrows : D.conversations.own i = (Call.useCase call).rows)
    (hfresh : ∀ model ∈ (Call.useCase call).newRows, D.row model.id = none)
    (hcall : call.Sound request D.owner) (c : ConversationId) (o : OwnerId)
    (ho : D.owner c = some o) : D'.owner c = some o := by
  unfold Database.owner
  rcases h.row hrows c with hrow | ⟨effect, model, rfl, heffect, rfl, hrow⟩
  · rw [hrow]
    exact ho
  · rw [hrow]
    cases effect with
    | created =>
        cases heffect
        rw [Database.owner, hfresh model List.mem_cons_self] at ho
        cases ho
    | updated =>
        cases heffect
        exact hcall.symm.trans ho
    | admitted | removed | nothing => cases heffect

theorem UseCaseMove.sound (h : UseCaseMove request i D step call D' call')
    (hcall : call.Sound request D.owner) : call'.Sound request D'.owner := by
  cases h with
  | reads =>
      cases hrow : D.row request.conversationId with
      | none => trivial
      | some row =>
          unfold UseCaseCall.Sound Database.owner
          rw [hrow]
          rfl
  | creates h => exact h.sound fun model hmodel => by cases hmodel
  | decides h =>
      refine h.sound fun model hmodel => ?_
      subst hmodel
      exact hcall
  | updates hrow h =>
      obtain ⟨-, rfl⟩ := Table.update_eq_some.1 h
      unfold UseCaseCall.Sound Effect.Sound Database.owner
      have hid : _ = _ := key_of_lookup hrow
      simp only [ConversationModel.update, hid]
      exact congrArg (Option.map ConversationModel.ownerId) hrow
  | inserts | seeds | removes => exact hcall
  | rejects | admits | writesNothing | commits | fails => trivial

/-- The id of a conversation that is being created is not committed. -/
theorem UseCaseMove.fresh (h : UseCaseMove request i D step call D' call')
    (hfresh : ∀ model ∈ (Call.useCase call).newRows, D.row model.id = none) :
    ∀ model ∈ (Call.useCase call').newRows, D'.row model.id = none := by
  cases h with
  | inserts h =>
      obtain ⟨hrows, -, rfl⟩ := Table.insert_eq_done.1 h
      intro model hmodel
      obtain rfl := List.mem_singleton.1 hmodel
      refine lookup_eq_none.2 fun r hr hid => ?_
      have hclash := hrows r hr
      simp [ConversationModel.clash, hid] at hclash
  | seeds => exact hfresh
  | reads | creates | decides | rejects | updates | admits | removes | writesNothing | commits
  | fails =>
      intro model hmodel
      exact absurd hmodel List.not_mem_nil

end Step

/-! ## The invariant -/

structure WorkspaceInv (request : ι → Request) (w : Workspace ι) : Prop where
  ids : (w.shared.conversations.rows.map ConversationModel.id).Nodup
  exclusive : w.shared.conversations.Exclusive ConversationModel.id
  keyed : w.shared.participants.Keyed ConversationParticipantModel.key
  ownRows : ∀ i, w.shared.conversations.own i = (w.proc i).rows
  ownMembers : ∀ i, (∀ r, (i, r) ∈ w.shared.participants.inserts ↔ r ∈ (w.proc i).inserts) ∧
    ∀ k, (i, k) ∈ w.shared.participants.deletes ↔ k ∈ (w.proc i).deletes
  fresh : ∀ i, ∀ model ∈ (w.proc i).newRows, w.shared.row model.id = none
  sound : ∀ i, (w.proc i).Sound w.shared.owner (request i)

section Invariant

variable {request : ι → Request} {w : Workspace ι} {i : ι} {D' : Database ι} {call' : Call}

omit [DecidableEq ι] in
theorem newRows_subset (call : Call) : call.newRows ⊆ call.rows := by
  cases call with
  | useCase call =>
      cases call with
      | written effect =>
          cases effect with
          | created => exact List.Subset.refl _
          | updated | admitted | removed | nothing => exact List.nil_subset _
      | inserted => exact List.Subset.refl _
      | started | rowRead | decided | returned | raised => exact List.nil_subset _
  | reading | exchange => exact List.nil_subset _

theorem workspaceInv_init {rows : List ConversationModel}
    {members : Finset ConversationParticipantModel} {stored : List Message} {lastSeq : Int}
    (hrows : (rows.map ConversationModel.id).Nodup)
    (hmembers : ∀ a ∈ members, ∀ b ∈ members, a.key = b.key → a = b) :
    WorkspaceInv request (Workspace.init request rows members stored lastSeq) := by
  have hstart : ∀ i, (Call.start (request i)).rows = [] ∧ (Call.start (request i)).newRows = [] ∧
      (Call.start (request i)).inserts = ∅ ∧ (Call.start (request i)).deletes = ∅ := by
    intro i
    cases request i <;> exact ⟨rfl, rfl, rfl, rfl⟩
  refine ⟨hrows, Table.exclusive_of_writes_nil rfl, RowSet.keyed_of_rows hmembers rfl, fun i => ?_,
    fun i => ?_, fun i model hmodel => ?_, fun i => ?_⟩
  · exact (hstart i).1.symm
  · simp [Workspace.init, (hstart i).2.2.1, (hstart i).2.2.2]
  · simp [Workspace.init, (hstart i).2.1] at hmodel
  · simp only [Workspace.init]
    cases request i <;> trivial

theorem workspaceInv_useCase (hw : WorkspaceInv request w) {r : UseCaseRequest}
    (hr : request i = .useCase r) {step : WorkspaceStep} {call call' : UseCaseCall}
    (hcall : w.proc i = .useCase call)
    (h : UseCaseMove r i w.shared step call D' call') :
    WorkspaceInv request ⟨D', Function.update w.proc i (.useCase call')⟩ := by
  have hrows := hw.ownRows i
  have hmembers := hw.ownMembers i
  have hfresh := hw.fresh i
  have hsound := hw.sound i
  rw [hcall] at hrows hmembers hfresh hsound
  rw [hr] at hsound
  have htouches := h.participants hsound
  refine ⟨h.conversations.nodup hw.ids, h.conversations.exclusive hw.exclusive,
    htouches.keyed hw.keyed, ?_, ?_, ?_, ?_⟩
  · refine (Function.forall_update_iff w.proc fun j l => D'.conversations.own j = l.rows).2
      ⟨h.own hrows, fun j hj => ?_⟩
    rw [h.conversations.own_of_ne hj]
    exact hw.ownRows j
  · refine (Function.forall_update_iff w.proc fun j l =>
      (∀ r, (j, r) ∈ D'.participants.inserts ↔ r ∈ l.inserts) ∧
        ∀ k, (j, k) ∈ D'.participants.deletes ↔ k ∈ l.deletes).2
      ⟨h.ownMembers hmembers.1 hmembers.2, fun j hj => ?_⟩
    obtain ⟨hinserts, hdeletes⟩ := htouches.of_ne hj
    exact ⟨fun r => (hinserts r).trans ((hw.ownMembers j).1 r),
      fun k => (hdeletes k).trans ((hw.ownMembers j).2 k)⟩
  · refine (Function.forall_update_iff w.proc fun j l => ∀ model ∈ l.newRows,
      D'.row model.id = none).2 ⟨h.fresh hfresh, fun j hj model hmodel => ?_⟩
    rcases h.row hrows model.id with hrow | ⟨effect, model', rfl, heffect, hid, -⟩
    · rw [hrow]
      exact hw.fresh j model hmodel
    · -- both calls would have the row open
      have hopen : model' ∈ effect.rows := heffect ▸ List.mem_cons_self
      have hi : (i, model') ∈ w.shared.conversations.writes := by
        rw [← Table.mem_own, hrows]
        exact hopen
      have hj' : (j, model) ∈ w.shared.conversations.writes :=
        Table.mem_own.1 ((hw.ownRows j).symm ▸ newRows_subset _ hmodel)
      exact absurd (hw.exclusive _ hj' _ hi hid.symm) hj
  · refine (Function.forall_update_iff w.proc fun j l => l.Sound D'.owner (request j)).2
      ⟨?_, fun j _ => (hw.sound j).mono (h.owner_le hrows hfresh hsound)⟩
    rw [hr]
    exact h.sound hsound

omit [DecidableEq ι] in
theorem Database.owner_congr {D : Database ι} (h : ∀ c, D'.row c = D.row c) :
    D'.owner = D.owner := by
  funext c
  rw [Database.owner, h]
  rfl

theorem SendMove.tables {r : SendRequest} {step : WorkspaceStep} {D : Database ι} {call call' : Call}
    (h : SendMove r i D step call D' call') :
    ((∀ c, D'.row c = D.row c) ∧ D'.conversations = D.conversations ∧
      D'.participants = D.participants) ∧ ∀ c, call ≠ .useCase c ∧ call' ≠ .useCase c := by
  cases h <;> exact ⟨⟨fun _ => rfl, rfl, rfl⟩, fun c => ⟨by simp, by simp⟩⟩

/-- A send leaves the conversations and the memberships alone. -/
theorem workspaceInv_send (hw : WorkspaceInv request w) {r : SendRequest} (hr : request i = .send r)
    {step : WorkspaceStep} (h : SendMove r i w.shared step (w.proc i) D' call') :
    WorkspaceInv request ⟨D', Function.update w.proc i call'⟩ := by
  obtain ⟨⟨hrow, hconversations, hparticipants⟩, hcalls⟩ := h.tables
  have hidle : ∀ {call : Call}, (∀ c, call ≠ .useCase c) → call.rows = [] ∧ call.newRows = [] ∧
      call.inserts = ∅ ∧ call.deletes = ∅ := by
    intro call hcall
    cases call with
    | useCase c => exact absurd rfl (hcall c)
    | reading | exchange => exact ⟨rfl, rfl, rfl, rfl⟩
  have hbefore := hidle fun c => (hcalls c).1
  have hafter := hidle fun c => (hcalls c).2
  have howner : D'.owner = w.shared.owner := Database.owner_congr hrow
  refine ⟨hconversations ▸ hw.ids, hconversations ▸ hw.exclusive, hparticipants ▸ hw.keyed,
    fun j => ?_, fun j => ?_, fun j => ?_, ?_⟩
  · have hview := view_update_eq (f := Call.rows) (hafter.1.trans hbefore.1.symm) j
    rw [hconversations, hview]
    exact hw.ownRows j
  · have hinserts := view_update_eq (f := Call.inserts) (hafter.2.2.1.trans hbefore.2.2.1.symm) j
    have hdeletes := view_update_eq (f := Call.deletes) (hafter.2.2.2.trans hbefore.2.2.2.symm) j
    rw [hparticipants, hinserts, hdeletes]
    exact hw.ownMembers j
  · have hnew := view_update_eq (f := Call.newRows) (hafter.2.1.trans hbefore.2.1.symm) j
    rw [hnew]
    intro model hmodel
    rw [hrow]
    exact hw.fresh j model hmodel
  · rw [howner]
    refine (Function.forall_update_iff w.proc fun j l =>
      l.Sound w.shared.owner (request j)).2 ⟨?_, fun j _ => hw.sound j⟩
    rw [hr]
    trivial

theorem workspaceInv_step (hw : WorkspaceInv request w) {step : WorkspaceStep}
    (h : RequestMove request i w.shared step (w.proc i) D' call') :
    WorkspaceInv request ⟨D', Function.update w.proc i call'⟩ := by
  generalize hproc : w.proc i = call at h
  cases h with
  | useCase hr h => exact workspaceInv_useCase hw hr hproc h
  | send hr h => exact workspaceInv_send hw hr (hproc ▸ h)

/-- What a step keeps under the invariant, a run keeps. -/
theorem workspaceInv_exec {P : Database ι → Prop}
    (hstep : ∀ (w : Workspace ι) i step D' call', WorkspaceInv request w → P w.shared →
      RequestMove request i w.shared step (w.proc i) D' call' → P D')
    {w w' : Workspace ι} (hw : WorkspaceInv request w) (hP : P w.shared)
    {es : List (ι × WorkspaceStep)} (h : exec (World.move (Request.step request)) w es = some w') :
    WorkspaceInv request w' ∧ P w'.shared := by
  refine World.exec_invariant_of_program (I := fun w => WorkspaceInv request w ∧ P w.shared)
    (fun w i step D' call' hw hmove => ?_) ⟨hw, hP⟩ h
  exact ⟨workspaceInv_step hw.1 (request_move hmove),
    hstep w i step D' call' hw.1 hw.2 (request_move hmove)⟩

theorem workspaceInv_run {rows : List ConversationModel}
    {members : Finset ConversationParticipantModel} {stored : List Message} {lastSeq : Int}
    (hrows : (rows.map ConversationModel.id).Nodup)
    (hmembers : ∀ a ∈ members, ∀ b ∈ members, a.key = b.key → a = b) {es : List (ι × WorkspaceStep)}
    (h : exec (World.move (Request.step request))
      (Workspace.init request rows members stored lastSeq) es = some w) :
    WorkspaceInv request w :=
  (workspaceInv_exec (P := fun _ => True) (fun _ _ _ _ _ _ _ _ => trivial)
    (workspaceInv_init hrows hmembers) trivial h).1

end Invariant

/-! ## The owner takes part -/

/-- Every conversation has the membership of its owner. -/
def Database.Owned (D : Database ι) : Prop :=
  ∀ c o, D.owner c = some o → D.participants.Has ConversationParticipantModel.key (c, ⟨o.value⟩)

/-- What `upgrade` of the migration that adds `conversation_participants` inserts. -/
def addConversationParticipants.upgrade (rows : List ConversationModel) :
    Finset ConversationParticipantModel :=
  (rows.map fun row => ⟨row.id, ⟨row.ownerId.value⟩, row.createdAt⟩).toFinset

section Owned

variable {request : ι → Request} {w : Workspace ι} {i : ι} {D' : Database ι} {call' : Call}

theorem owned_step (hw : WorkspaceInv request w) (howned : w.shared.Owned) {step : WorkspaceStep}
    (h : RequestMove request i w.shared step (w.proc i) D' call') : D'.Owned := by
  have hrows := hw.ownRows i
  have hmembers := hw.ownMembers i
  have hsound := hw.sound i
  generalize w.proc i = call at h hrows hmembers hsound
  cases h with
  | send hr h =>
      obtain ⟨⟨hrow, -, hparticipants⟩, -⟩ := h.tables
      intro c o ho
      rw [hparticipants]
      rw [Database.owner_congr hrow] at ho
      exact howned c o ho
  | useCase hr h =>
      rw [hr] at hsound
      rcases h.quiet_or_commits with ⟨hrow, hmembership, -⟩ | ⟨effect, ⟨-, rfl⟩, rfl⟩
      · intro c o ho
        rw [RowSet.Has, hmembership]
        rw [Database.owner_congr hrow] at ho
        exact howned c o ho
      · intro c o ho
        refine (Database.commit_has hmembers.1 hmembers.2 _).2 ?_
        rcases Database.commit_row hrows c with ⟨model, heffect, rfl, hrow⟩ | ⟨-, hrow⟩
        · obtain rfl : model.ownerId = o := by
            rw [Database.owner] at ho
            simpa using (congrArg (Option.map ConversationModel.ownerId) hrow).symm.trans ho
          cases effect with
          | created model' members =>
              -- the membership of the owner is committed with the conversation
              cases heffect
              obtain rfl : members = _ := hsound
              exact ⟨.inr ⟨_, Finset.mem_singleton_self _, rfl⟩, Finset.notMem_empty _⟩
          | updated model' =>
              cases heffect
              exact ⟨.inl (howned _ _ hsound), Finset.notMem_empty _⟩
          | admitted | removed | nothing => cases heffect
        · have hbefore : w.shared.owner c = some o := by
            rw [← ho, Database.owner, Database.owner]
            exact congrArg _ hrow.symm
          refine ⟨.inl (howned c o hbefore), fun hdelete => ?_⟩
          cases effect with
          | removed key =>
              -- the one who is removed is not the owner
              obtain rfl := Finset.mem_singleton.1 hdelete
              obtain ⟨o', ho', hne⟩ := hsound
              obtain rfl : o = o' := Option.some.inj (hbefore.symm.trans ho')
              exact hne rfl
          | created | updated | admitted | nothing => exact Finset.notMem_empty _ hdelete

/-- No step takes a conversation from its owner. -/
theorem owner_le_step (hw : WorkspaceInv request w) {step : WorkspaceStep}
    (h : RequestMove request i w.shared step (w.proc i) D' call') (c : ConversationId) (o : OwnerId)
    (ho : w.shared.owner c = some o) : D'.owner c = some o := by
  have hrows := hw.ownRows i
  have hfresh := hw.fresh i
  have hsound := hw.sound i
  generalize w.proc i = call at h hrows hfresh hsound
  cases h with
  | useCase hr h =>
      rw [hr] at hsound
      exact h.owner_le hrows hfresh hsound c o ho
  | send hr h =>
      rw [Database.owner_congr h.tables.1.1]
      exact ho

theorem owner_le_run {w w' : Workspace ι} (hw : WorkspaceInv request w)
    {es : List (ι × WorkspaceStep)} (h : exec (World.move (Request.step request)) w es = some w')
    {c : ConversationId} {o : OwnerId} (ho : w.shared.owner c = some o) :
    w'.shared.owner c = some o := by
  have hrun := workspaceInv_exec (P := fun D => D.owner c = some o)
    (fun w i step D' call' hw ho hmove => owner_le_step hw hmove c o ho) hw ho h
  exact hrun.2

theorem owned_run {w w' : Workspace ι} (hw : WorkspaceInv request w) (howned : w.shared.Owned)
    {es : List (ι × WorkspaceStep)} (h : exec (World.move (Request.step request)) w es = some w') :
    WorkspaceInv request w' ∧ w'.shared.Owned :=
  workspaceInv_exec (fun _ _ _ _ _ hw howned hmove => owned_step hw howned hmove) hw howned h

/-- The migration inserts one membership for each conversation, deleted or not. -/
theorem mem_upgrade {rows : List ConversationModel} {m : ConversationParticipantModel} :
    m ∈ addConversationParticipants.upgrade rows ↔
      ∃ row ∈ rows, ⟨row.id, ⟨row.ownerId.value⟩, row.createdAt⟩ = m := by
  simp [addConversationParticipants.upgrade]

theorem upgrade_keyed {rows : List ConversationModel}
    (hrows : (rows.map ConversationModel.id).Nodup) :
    ∀ a ∈ addConversationParticipants.upgrade rows,
      ∀ b ∈ addConversationParticipants.upgrade rows, a.key = b.key → a = b := by
  intro a ha b hb hk
  obtain ⟨row, hrow, rfl⟩ := mem_upgrade.1 ha
  obtain ⟨row', hrow', rfl⟩ := mem_upgrade.1 hb
  have hid : row.id = row'.id := congrArg Prod.fst hk
  rw [List.inj_on_of_nodup_map hrows hrow hrow' hid]

omit [DecidableEq ι] in
theorem owned_upgrade {rows : List ConversationModel} {stored : List Message} {lastSeq : Int} :
    (Workspace.init request rows (addConversationParticipants.upgrade rows) stored
      lastSeq).shared.Owned := by
  intro c o ho
  obtain ⟨row, hrow, rfl⟩ := Option.map_eq_some_iff.1 ho
  obtain rfl := key_of_lookup hrow
  exact ⟨_, mem_upgrade.2 ⟨row, mem_of_lookup hrow, rfl⟩, rfl⟩

end Owned

/-- Starting from a database that the migration has just given its memberships, every conversation has
    exactly one membership of its owner and at most one of anybody, whatever runs and however it
    ends. The checks of the reading use cases and of `from_user`, which read the row first and the
    participants at any later time, never turn the owner of an active conversation away. -/
theorem owner_neverLockedOut (request : ι → Request) {rows : List ConversationModel}
    (hrows : (rows.map ConversationModel.id).Nodup) {stored : List Message} {lastSeq : Int}
    {es fs : List (ι × WorkspaceStep)} {w w' : Workspace ι}
    (h : exec (World.move (Request.step request)) (Workspace.init request rows
      (addConversationParticipants.upgrade rows) stored lastSeq) es = some w)
    (h' : exec (World.move (Request.step request)) w fs = some w') :
    (∀ row ∈ w.shared.conversations.rows, (w.shared.participants.rows.filter fun m =>
        m.key = (row.id, ⟨row.ownerId.value⟩)).card = 1) ∧
      (∀ key, (w.shared.participants.rows.filter fun m => m.key = key).card ≤ 1) ∧
      ∀ c row, w.shared.row c = some row → row.deletedAt = none →
        let participants := w'.shared.participantsOf c
        EnsureConversationAccess.execute participants c ⟨row.ownerId.value⟩ (some row) = .ok () ∧
          GetConversationHistory.ensureMayRead participants c ⟨row.ownerId.value⟩ (some row) =
            .ok () ∧
          ListParticipants.ensureMayList participants c ⟨row.ownerId.value⟩ (some row) = .ok () ∧
          ∀ r : SendRequest, r.senderId.value = row.ownerId.value → PostMessage.ensureMayPost r
            (ConversationRepository.get participants (some row)) = .ok () := by
  have hinit : WorkspaceInv request (Workspace.init request rows
      (addConversationParticipants.upgrade rows) stored lastSeq) :=
    workspaceInv_init hrows (upgrade_keyed hrows)
  obtain ⟨hw, howned⟩ := owned_run hinit owned_upgrade h
  obtain ⟨-, howned'⟩ := owned_run hw howned h'
  refine ⟨fun row hrow => ?_, fun key => ?_, fun c row hrow hactive => ?_⟩
  · rw [hw.keyed.card_filter, if_pos]
    refine howned row.id row.ownerId ?_
    rw [Database.owner, Database.row, lookup_of_mem hw.ids hrow]
    rfl
  · rw [hw.keyed.card_filter]
    split <;> omega
  · have howner : w'.shared.owner c = some row.ownerId :=
      owner_le_run hw h' (congrArg (Option.map ConversationModel.ownerId) hrow)
    have hmember : (⟨row.ownerId.value⟩ : ParticipantId) ∈ w'.shared.participantsOf c :=
      mem_participantsOf.2 (howned' c _ howner)
    have haccess : EnsureConversationAccess.execute (w'.shared.participantsOf c) c
        ⟨row.ownerId.value⟩ (some row) = .ok () :=
      ensureConversationAccess_eq_ok.2 ⟨⟨row, rfl, hactive⟩, hmember⟩
    refine ⟨haccess, haccess, haccess, fun r hr => ?_⟩
    rw [ConversationRepository.get_of_active hactive]
    refine ensureParticipant_eq_ok.2 ?_
    rw [hr]
    exact hmember

/-- The owner, user 10, admits user 20, who then leaves. -/
def admitThenLeave : Bool → Request
  | false => .useCase ⟨.addParticipant "ada@example.org" (some 20), ⟨1⟩, 10, ⟨5, 0⟩⟩
  | true => .useCase ⟨.removeParticipant ⟨20⟩, ⟨1⟩, 20, ⟨9, 0⟩⟩

/-- A use case from its first statement to its commit. -/
def useCaseSteps {ι : Type*} (i : ι) : List (ι × WorkspaceStep) :=
  [(i, .start), (i, .readParticipants), (i, .write), (i, .commit)]

/-- An active conversation and a deleted one are migrated; a user comes and goes. -/
theorem owner_neverLockedOut_admitThenLeave :
    let rows := [lifecycleRow, { lifecycleRow with id := ⟨2⟩, deletedAt := some ⟨3, 0⟩ }]
    ∃ w w', exec (World.move (Request.step admitThenLeave)) (Workspace.init admitThenLeave rows
        (addConversationParticipants.upgrade rows) [] 0) (useCaseSteps false) = some w ∧
      exec (World.move (Request.step admitThenLeave)) w (useCaseSteps true) = some w' ∧
      w'.shared.participants.rows.card = 2 ∧ w'.shared.log.length = 2 ∧
      ∀ row ∈ w.shared.conversations.rows, (w.shared.participants.rows.filter fun m =>
        m.key = (row.id, ⟨row.ownerId.value⟩)).card = 1 := by
  intro rows
  obtain ⟨w', hrun, hcard⟩ := exec_reaches (World.move (Request.step admitThenLeave))
    (Workspace.init admitThenLeave rows (addConversationParticipants.upgrade rows) [] 0)
    (useCaseSteps false ++ useCaseSteps true)
    (fun w' => w'.shared.participants.rows.card = 2 ∧ w'.shared.log.length = 2) (by decide)
  obtain ⟨w, h, h'⟩ := exec_append_eq_some.1 hrun
  exact ⟨w, w', h, h', hcard.1, hcard.2,
    (owner_neverLockedOut admitThenLeave (by decide) h h').1⟩

end Dizzchat
