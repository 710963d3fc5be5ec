import Dizzchat.Messaging.Workspace
import Dizzchat.Messaging.Store

set_option autoImplicit false

/-! # Interleaved calls and calls one after the other

`Workspace` runs the use cases statement by statement, `Store` runs each of them at once. A call that
runs alone in the workspace does what it does in the store: whatever it has come to, the tables are those
of the store it found or, once it has committed, those of the store it leaves (`Alone`). Every statement
of it goes through, so it can always be run to its end. -/

namespace Dizzchat

open Transition

variable {ι : Type*}

/-- Nobody is writing, and the rows are those of the store. -/
structure Database.Holds (s : Store) (D : Database ι) : Prop where
  conversations : D.conversations = ⟨s.conversations, []⟩
  participants : D.participants = ⟨s.participants, ∅, ∅⟩

section Reading

variable {s : Store} {D : Database ι}

theorem Database.Holds.row (h : D.Holds s) (c : ConversationId) : D.row c = s.row c := by
  rw [Database.row, h.conversations]
  rfl

theorem Database.Holds.participantsOf (h : D.Holds s) (c : ConversationId) :
    D.participantsOf c = s.participantsOf c := by
  rw [Database.participantsOf, h.participants]
  rfl

theorem Database.Holds.rollback [DecidableEq ι] (h : D.Holds s) (i : ι) : (D.rollback i).Holds s where
  conversations := by
    simp only [Database.rollback, h.conversations]
    exact Table.rollback_idle
  participants := by
    simp only [Database.rollback, h.participants]
    exact RowSet.rollback_idle

theorem Database.Holds.commit [DecidableEq ι] (h : D.Holds s) (i : ι) : (D.commit i).Holds s where
  conversations := by
    simp only [Database.commit, h.conversations]
    exact Table.commit_idle
  participants := by
    simp only [Database.commit, h.participants]
    exact RowSet.commit_idle

end Reading

/-! ## What the store does -/

section Runs

variable {request : UseCaseRequest} {s : Store} {participants : Finset ParticipantId}
  {row : Option ConversationModel} {change : Change}

/-- A call that reads nothing decides the same on everything. -/
theorem execute_of_not_reads (h : request.reads = false) :
    request.execute participants row = request.execute ∅ none := by
  unfold UseCaseRequest.reads at h
  unfold UseCaseRequest.execute
  cases huse : request.useCase <;> simp [huse] at h ⊢

theorem run_of_error {e : MessagingError}
    (h : request.execute (s.participantsOf request.conversationId) (s.row request.conversationId) =
      .error e) : request.run s = .error (.messaging e) := by
  simp only [UseCaseRequest.run, h]

theorem run_of_write_none
    (h : request.execute (s.participantsOf request.conversationId) (s.row request.conversationId) =
      .ok change) (hwrite : s.write change = none) : request.run s = .error .integrityError := by
  obtain ⟨response, hreturns⟩ := (execute_accepts h).returns
  simp only [UseCaseRequest.run, h, hreturns, hwrite]

theorem exists_run_of_write {s' : Store}
    (h : request.execute (s.participantsOf request.conversationId) (s.row request.conversationId) =
      .ok change) (hwrite : s.write change = some s') :
    ∃ response, request.run s = .ok (s', response) := by
  obtain ⟨response, hreturns⟩ := (execute_accepts h).returns
  exact ⟨response, by simp only [UseCaseRequest.run, h, hreturns, hwrite]⟩

theorem insertParticipants_eq {new : Finset ConversationParticipantModel}
    (hrows : ∀ m ∈ new, s.row m.conversationId ≠ none)
    (hfresh : ∀ a ∈ new, ∀ b ∈ s.participants, a.key ≠ b.key)
    (hnew : ∀ a ∈ new, ∀ b ∈ new, a.key = b.key → a = b) :
    ∃ s', s.insertParticipants new = some s' ∧ s'.conversations = s.conversations ∧
      s'.participants = s.participants ∪ new := by
  refine ⟨_, dif_pos ⟨hrows, hfresh, hnew⟩, rfl, rfl⟩

/-- The members a new conversation is given are its own, and are given once. -/
theorem Accepts.members {model : ConversationModel} {members : Finset ConversationParticipantModel}
    (h : Accepts request participants row (.create model members)) :
    (∀ m ∈ members, m.conversationId = model.id) ∧
      ∀ a ∈ members, ∀ b ∈ members, a.key = b.key → a = b := by
  cases h with
  | create =>
      simp [Conversation.start]

theorem Accepts.newMember {member : ConversationParticipantModel}
    (h : Accepts request participants row (.addParticipant member)) :
    row ≠ none ∧ member.conversationId = request.conversationId ∧ member.userId ∉ participants := by
  cases h with
  | add _ _ _ hnew => exact ⟨Option.some_ne_none _, rfl, hnew⟩

theorem Accepts.oldMember {c : ConversationId} {participantId : ParticipantId}
    (h : Accepts request participants row (.removeParticipant c participantId)) :
    c = request.conversationId ∧ participantId ∈ participants := by
  cases h with
  | remove _ _ _ _ hmember => exact ⟨rfl, hmember⟩

end Runs

/-! ## A call that runs alone -/

section Alone

variable [DecidableEq ι] (request : UseCaseRequest) (i : ι) (s : Store)

/-- Call `i` has run alone since the tables were those of `s`. -/
inductive Alone (D : Database ι) : UseCaseCall → Prop
  | started (h : D.Holds s) : Alone D .started
  | rowRead (h : D.Holds s) : Alone D (.rowRead (s.row request.conversationId))
  | decided {change : Change} (h : D.Holds s)
      (hexecute : request.execute (s.participantsOf request.conversationId)
        (s.row request.conversationId) = .ok change) : Alone D (.decided change)
  | inserted {model : ConversationModel} {members : Finset ConversationParticipantModel}
      (hconversations : D.conversations = ⟨s.conversations, [(i, model)]⟩)
      (hparticipants : D.participants = ⟨s.participants, ∅, ∅⟩)
      (hfresh : s.row model.id = none)
      (hexecute : request.execute (s.participantsOf request.conversationId)
        (s.row request.conversationId) = .ok (.create model members)) :
      Alone D (.inserted model members)
  | written {effect : Effect} {s' : Store} {response : Response}
      (hrun : request.run s = .ok (s', response)) (hcommit : (D.commit i).Holds s')
      (hrollback : (D.rollback i).Holds s) : Alone D (.written effect)
  | returned {s' : Store} {response : Response} (hrun : request.run s = .ok (s', response))
      (h : D.Holds s') : Alone D .returned
  | raised {e : WriteError} (h : D.Holds s) (he : e = .failed ∨ request.run s = .error e) :
      Alone D (.raised e)

/-- How many statements are left of a call, at most. -/
def UseCaseCall.remaining : UseCaseCall → ℕ
  | .started => 5
  | .rowRead _ => 4
  | .decided _ => 3
  | .inserted .. => 2
  | .written _ => 1
  | .returned | .raised _ => 0

def Call.remaining : Call → ℕ
  | .useCase call => call.remaining
  | .reading _ | .exchange _ => 0

/-- The statement a call sends next. -/
def UseCaseCall.statement : UseCaseCall → WorkspaceStep
  | .started => .start
  | .rowRead _ => .readParticipants
  | .decided _ | .inserted .. => .write
  | .written _ => .commit
  | .returned | .raised _ => .fail

variable {request i s} {D D' : Database ι} {call call' : UseCaseCall}

/-- A call goes on by its next statement, or it fails. -/
theorem step_eq_statement {step : WorkspaceStep}
    (h : request.step i step D call = some (D', call')) :
    call.running = true ∧ (step = .fail ∨ step = call.statement) := by
  unfold UseCaseRequest.step at h
  split at h
  · exact ⟨rfl, .inr rfl⟩
  · exact ⟨rfl, .inr rfl⟩
  · exact ⟨rfl, .inr rfl⟩
  · exact ⟨rfl, .inr rfl⟩
  · exact ⟨rfl, .inr rfl⟩
  · exact ⟨(Option.ite_none_right_eq_some.1 h).1, .inl rfl⟩
  · cases h

/-- A call that gives up leaves nothing behind. -/
theorem Alone.rollback (h : Alone request i s D call) (hrunning : call.running = true) :
    (D.rollback i).Holds s := by
  cases h with
  | started h | rowRead h | decided h => exact h.rollback i
  | inserted hconversations hparticipants =>
      refine ⟨?_, ?_⟩
      · simp only [Database.rollback, hconversations]
        exact Table.rollback_written
      · simp only [Database.rollback, hparticipants]
        exact RowSet.rollback_idle
  | written _ _ hrollback => exact hrollback
  | returned | raised => cases hrunning

theorem alone_afterExecute (hD : D.Holds s) :
    Alone request i s D (.afterExecute (request.execute (s.participantsOf request.conversationId)
      (s.row request.conversationId))) := by
  cases hexecute : request.execute (s.participantsOf request.conversationId)
      (s.row request.conversationId) with
  | error e => exact .raised hD (.inr (run_of_error hexecute))
  | ok change => exact .decided hD hexecute

/-! ## Every statement of it goes through -/

theorem alone_written {change : Change} {effect : Effect} {s' : Store}
    (hexecute : request.execute (s.participantsOf request.conversationId)
      (s.row request.conversationId) = .ok change)
    (hwrite : s.write change = some s') (hcommit : (D.commit i).Holds s')
    (hrollback : (D.rollback i).Holds s) : Alone request i s D (.written effect) := by
  obtain ⟨response, hrun⟩ := exists_run_of_write hexecute hwrite
  exact .written hrun hcommit hrollback

theorem any_clash {model : ConversationModel} :
    s.conversations.any (ConversationModel.clash · model) = true ↔ s.row model.id ≠ none := by
  rw [Store.row, ne_eq, lookup_eq_none]
  simp [ConversationModel.clash]

theorem create_alone {model : ConversationModel} {members : Finset ConversationParticipantModel}
    (hD : D.Holds s)
    (hexecute : request.execute (s.participantsOf request.conversationId)
      (s.row request.conversationId) = .ok (.create model members)) :
    ∃ D' call', (Change.create model members).write i D = some (D', call') ∧
      Alone request i s D' call' ∧ call'.remaining < 3 := by
  have hinsert : D.conversations.insert ConversationModel.clash i model =
      if s.conversations.any (ConversationModel.clash · model) then .duplicate
      else .done ⟨s.conversations, [(i, model)]⟩ := by
    rw [hD.conversations]
    exact Table.insert_idle
  by_cases hfresh : s.row model.id = none
  · rw [if_neg (fun h => any_clash.1 h hfresh)] at hinsert
    refine ⟨{ D with conversations := ⟨s.conversations, [(i, model)]⟩ }, .inserted model members,
      by simp only [Change.write, hinsert], ?_, by simp [UseCaseCall.remaining]⟩
    exact .inserted rfl hD.participants hfresh hexecute
  · rw [if_pos (any_clash.2 hfresh)] at hinsert
    refine ⟨D.rollback i, .raised .integrityError, by simp only [Change.write, hinsert], ?_,
      by simp [UseCaseCall.remaining]⟩
    have hwrite : s.write (.create model members) = none := by
      simp [Store.write, Store.insertConversation, hfresh]
    exact .raised (hD.rollback i) (.inr (run_of_write_none hexecute hwrite))

/-- Rows with free keys go in. -/
theorem insert_alone {new : Finset ConversationParticipantModel}
    (hparticipants : D.participants = ⟨s.participants, ∅, ∅⟩)
    (hfresh : ∀ a ∈ new, ∀ b ∈ s.participants, a.key ≠ b.key) :
    D.participants.insert ConversationParticipantModel.key i new =
      .done ⟨s.participants, new.image fun m => (i, m), ∅⟩ := by
  rw [hparticipants, RowSet.insert_idle, if_neg]
  rintro ⟨a, ha, b, hb, hk⟩
  exact hfresh a ha b hb hk.symm

/-- The memberships of a new conversation go in: it has none. -/
theorem seed_alone {model : ConversationModel} {members : Finset ConversationParticipantModel}
    (h : Alone request i s D (.inserted model members)) :
    ∃ D' call', request.step i .write D (.inserted model members) = some (D', call') ∧
      Alone request i s D' call' ∧ call'.remaining < 2 := by
  cases h with
  | inserted hconversations hparticipants hfresh hexecute =>
      obtain ⟨hmembers, hnew⟩ := (execute_accepts hexecute).members
      have hkeys : ∀ a ∈ members, ∀ b ∈ s.participants, a.key ≠ b.key := by
        intro a ha b hb hk
        have hb' : b.conversationId = model.id := (congrArg Prod.fst hk).symm.trans (hmembers a ha)
        exact s.references b hb (hb' ▸ hfresh)
      refine ⟨{ D with participants := ⟨s.participants, members.image fun m => (i, m), ∅⟩ },
        .written (.created model members), ?_, ?_, by simp [UseCaseCall.remaining]⟩
      · simp only [UseCaseRequest.step, insert_alone hparticipants hkeys]
      obtain ⟨t, hinsert, htconversations, htparticipants⟩ : ∃ t, s.insertConversation model = some t ∧
          t.conversations = upsert ConversationModel.id model s.conversations ∧
          t.participants = s.participants :=
        ⟨_, if_pos hfresh, rfl, rfl⟩
      have htrow : ∀ m ∈ members, t.row m.conversationId ≠ none := by
        intro m hm
        rw [Store.row, htconversations, lookup_upsert, if_pos (hmembers m hm).symm]
        exact Option.some_ne_none model
      obtain ⟨s', hseed, hsconversations, hsparticipants⟩ :=
        insertParticipants_eq htrow (htparticipants ▸ hkeys) hnew
      have hwrite : s.write (.create model members) = some s' := by
        rw [Store.write, hinsert]
        exact hseed
      refine alone_written hexecute hwrite ⟨?_, ?_⟩ ⟨?_, ?_⟩
      · rw [hsconversations, htconversations]
        simp only [Database.commit, hconversations]
        exact Table.commit_written
      · rw [hsparticipants, htparticipants]
        exact RowSet.commit_inserted
      · simp only [Database.rollback, hconversations]
        exact Table.rollback_written
      · exact RowSet.rollback_inserted

theorem update_alone {conversation : Conversation} (hD : D.Holds s)
    (hexecute : request.execute (s.participantsOf request.conversationId)
      (s.row request.conversationId) = .ok (.update conversation)) :
    ∃ D' call', (Change.update conversation).write i D = some (D', call') ∧
      Alone request i s D' call' ∧ call'.remaining < 3 := by
  cases hrow : s.row conversation.id with
  | none =>
      refine ⟨D, .written .nothing, by simp only [Change.write, hD.row, hrow], ?_,
        by simp [UseCaseCall.remaining]⟩
      exact alone_written hexecute (by simp only [Store.write, hrow]) (hD.commit i) (hD.rollback i)
  | some row =>
      have hupdate : D.conversations.update ConversationModel.id i (row.update conversation) =
          some ⟨s.conversations, [(i, row.update conversation)]⟩ := by
        rw [hD.conversations]
        exact Table.update_idle
      refine ⟨{ D with conversations := ⟨s.conversations, [(i, row.update conversation)]⟩ },
        .written (.updated (row.update conversation)),
        by simp only [Change.write, hD.row, hrow, hupdate, Option.map_some], ?_,
        by simp [UseCaseCall.remaining]⟩
      have hwrite : s.write (.update conversation) =
          some (s.updateConversation (row.update conversation)) := by
        simp only [Store.write, hrow]
      refine alone_written hexecute hwrite ⟨?_, ?_⟩ ⟨?_, ?_⟩
      · exact Table.commit_written
      · exact (hD.commit i).participants
      · exact Table.rollback_written
      · exact (hD.rollback i).participants

theorem addParticipant_alone {member : ConversationParticipantModel} (hD : D.Holds s)
    (hexecute : request.execute (s.participantsOf request.conversationId)
      (s.row request.conversationId) = .ok (.addParticipant member)) :
    ∃ D' call', (Change.addParticipant member).write i D = some (D', call') ∧
      Alone request i s D' call' ∧ call'.remaining < 3 := by
  obtain ⟨hrow, hc, hnew⟩ := (execute_accepts hexecute).newMember
  rw [← hc] at hrow hnew
  have hkeys : ∀ a ∈ ({member} : Finset ConversationParticipantModel), ∀ b ∈ s.participants,
      a.key ≠ b.key := by
    intro a ha b hb hk
    rw [Finset.mem_singleton.1 ha] at hk
    exact hnew (Store.mem_participantsOf.2 ⟨b, hb, hk.symm⟩)
  have hrows : ∀ m ∈ ({member} : Finset ConversationParticipantModel),
      s.row m.conversationId ≠ none := by
    simpa using hrow
  obtain ⟨s', hwrite, hconversations, hparticipants⟩ := insertParticipants_eq hrows hkeys
    fun a ha b hb _ => (Finset.mem_singleton.1 ha).trans (Finset.mem_singleton.1 hb).symm
  refine ⟨{ D with participants :=
        ⟨s.participants, ({member} : Finset ConversationParticipantModel).image fun m => (i, m), ∅⟩ },
    .written (.admitted member), by simp only [Change.write, insert_alone hD.participants hkeys], ?_,
    by simp [UseCaseCall.remaining]⟩
  refine alone_written hexecute hwrite ⟨?_, ?_⟩ ⟨?_, ?_⟩
  · rw [hconversations]
    exact (hD.commit i).conversations
  · rw [hparticipants]
    exact RowSet.commit_inserted
  · exact (hD.rollback i).conversations
  · exact RowSet.rollback_inserted

theorem removeParticipant_alone {c : ConversationId} {participantId : ParticipantId}
    (hD : D.Holds s)
    (hexecute : request.execute (s.participantsOf request.conversationId)
      (s.row request.conversationId) = .ok (.removeParticipant c participantId)) :
    ∃ D' call', (Change.removeParticipant c participantId).write i D = some (D', call') ∧
      Alone request i s D' call' ∧ call'.remaining < 3 := by
  obtain ⟨rfl, hmember⟩ := (execute_accepts hexecute).oldMember
  have hfound := Store.mem_participantsOf.1 hmember
  have hdelete : D.participants.delete ConversationParticipantModel.key i
      (request.conversationId, participantId) =
        some (⟨s.participants, ∅, {(i, (request.conversationId, participantId))}⟩, true) := by
    rw [hD.participants, RowSet.delete_idle, if_pos hfound]
  refine ⟨{ D with participants :=
        ⟨s.participants, ∅, {(i, (request.conversationId, participantId))}⟩ },
    .written (.removed (request.conversationId, participantId)),
    by simp only [Change.write, hdelete, Option.map_some, if_true], ?_,
    by simp [UseCaseCall.remaining]⟩
  refine alone_written hexecute rfl ⟨?_, ?_⟩ ⟨?_, ?_⟩
  · exact (hD.commit i).conversations
  · exact RowSet.commit_deleted
  · exact (hD.rollback i).conversations
  · exact RowSet.rollback_deleted

/-- What a call has decided alone, it can write. -/
theorem write_alone {change : Change} (h : Alone request i s D (.decided change)) :
    ∃ D' call', request.step i .write D (.decided change) = some (D', call') ∧
      Alone request i s D' call' ∧ call'.remaining < 3 := by
  cases h with
  | decided hD hexecute =>
      cases change with
      | create => exact create_alone hD hexecute
      | update => exact update_alone hD hexecute
      | addParticipant => exact addParticipant_alone hD hexecute
      | removeParticipant => exact removeParticipant_alone hD hexecute
      | nothing =>
          refine ⟨D, .written .nothing, rfl, ?_, by simp [UseCaseCall.remaining]⟩
          exact alone_written hexecute rfl (hD.commit i) (hD.rollback i)

/-- A call that has not ended has a statement to send, and it is one less after it. -/
theorem Alone.next (h : Alone request i s D call) (hrunning : call.running = true) :
    ∃ step D' call', step ≠ .fail ∧ request.step i step D call = some (D', call') ∧
      Alone request i s D' call' ∧ call'.remaining < call.remaining := by
  have hended : ∀ result, (UseCaseCall.afterExecute result).remaining ≤ 3 := by
    intro result
    cases result <;> simp [UseCaseCall.afterExecute, UseCaseCall.remaining]
  cases h with
  | started hD =>
      by_cases hreads : request.reads = true
      · refine ⟨.start, D, .rowRead (D.row request.conversationId), by simp,
          by simp [UseCaseRequest.step, hreads], ?_, by simp [UseCaseCall.remaining]⟩
        rw [hD.row]
        exact .rowRead hD
      · refine ⟨.start, D, .afterExecute (request.execute ∅ none), by simp,
          by simp [UseCaseRequest.step, hreads], ?_, Nat.lt_of_le_of_lt (hended _) ?_⟩
        · rw [← execute_of_not_reads (by simpa using hreads)]
          exact alone_afterExecute hD
        · simp [UseCaseCall.remaining]
  | rowRead hD =>
      refine ⟨.readParticipants, D, _, by simp, rfl, ?_, Nat.lt_of_le_of_lt (hended _) ?_⟩
      · rw [hD.participantsOf]
        exact alone_afterExecute hD
      · simp [UseCaseCall.remaining]
  | decided hD hexecute =>
      obtain ⟨D', call', hstep, hcall', hlt⟩ := write_alone (.decided hD hexecute)
      exact ⟨.write, D', call', by simp, hstep, hcall', hlt⟩
  | inserted hconversations hparticipants hfresh hexecute =>
      obtain ⟨D', call', hstep, hcall', hlt⟩ :=
        seed_alone (.inserted hconversations hparticipants hfresh hexecute)
      exact ⟨.write, D', call', by simp, hstep, hcall', hlt⟩
  | written hrun hcommit _ =>
      refine ⟨.commit, _, .returned, by simp, rfl, .returned hrun ?_, by simp [UseCaseCall.remaining]⟩
      exact ⟨hcommit.conversations, hcommit.participants⟩
  | returned | raised => cases hrunning

/-- Whatever a call does alone, it does what the store says. -/
theorem Alone.step {step : WorkspaceStep} (h : Alone request i s D call)
    (hstep : request.step i step D call = some (D', call')) : Alone request i s D' call' := by
  obtain ⟨hrunning, heq⟩ := step_eq_statement hstep
  by_cases hfail : step = .fail
  · subst hfail
    simp only [UseCaseRequest.step, hrunning, if_true, Option.some.injEq, Prod.mk.injEq] at hstep
    obtain ⟨rfl, rfl⟩ := hstep
    exact .raised (h.rollback hrunning) (.inl rfl)
  · obtain ⟨step', D₁, call₁, hne, hstep', hcall₁, -⟩ := h.next hrunning
    obtain rfl : step = step' :=
      (heq.resolve_left hfail).trans ((step_eq_statement hstep').2.resolve_left hne).symm
    obtain ⟨rfl, rfl⟩ := Prod.mk.inj (Option.some.inj (hstep.symm.trans hstep'))
    exact hcall₁

/-! ## The calls of a workspace -/

theorem attempt_of_run {s' : Store} {response : Response} (h : request.run s = .ok (s', response)) :
    (StoreCall.useCase request).attempt true s = (s', .ok response) := by
  simp [StoreCall.attempt, StoreCall.run, h]

theorem attempt_of_error {e : WriteError} (h : request.run s = .error e) (commits : Bool) :
    (StoreCall.useCase request).attempt commits s = (s, .error e) := by
  simp [StoreCall.attempt, StoreCall.run, h]

/-- A call whose commit fails leaves the tables as they were. -/
theorem attempt_fails (request : UseCaseRequest) (s : Store) :
    ∃ e lastSeq, (StoreCall.useCase request).attempt false s = ({ s with lastSeq }, .error e) := by
  cases h : request.run s with
  | error e => exact ⟨e, s.lastSeq, attempt_of_error h false⟩
  | ok result =>
      refine ⟨.failed, result.1.lastSeq, ?_⟩
      simp [StoreCall.attempt, StoreCall.run, h]

/-- A call that has ended alone has done what it does in the store. -/
theorem Alone.attempt (h : Alone request i s D call) (hended : call.running = false) :
    D.Holds ((StoreCall.useCase request).attempt (decide (call ≠ .raised .failed)) s).1 ∧
      (call = .returned ↔ ∃ response,
        ((StoreCall.useCase request).attempt (decide (call ≠ .raised .failed)) s).2 =
          .ok response) := by
  cases h with
  | started | rowRead | decided | inserted | written => cases hended
  | returned hrun hD =>
      rw [decide_eq_true (by simp), attempt_of_run hrun]
      exact ⟨hD, by simp⟩
  | raised hD he =>
      rcases he with rfl | hrun
      · obtain ⟨e, lastSeq, hattempt⟩ := attempt_fails request s
        rw [decide_eq_false (by simp), hattempt]
        exact ⟨⟨hD.conversations, hD.participants⟩, by simp⟩
      · rw [attempt_of_error hrun]
        exact ⟨hD, by simp⟩

theorem write_not_failed {change : Change} (h : change.write i D = some (D', call)) :
    call ≠ .raised .failed := by
  cases change with
  | create | addParticipant =>
      simp only [Change.write] at h
      split at h <;> cases h <;> simp
  | update =>
      simp only [Change.write] at h
      split at h
      · cases h
        simp
      · obtain ⟨_, -, heq⟩ := Option.map_eq_some_iff.1 h
        cases heq
        simp
  | removeParticipant =>
      obtain ⟨_, -, heq⟩ := Option.map_eq_some_iff.1 h
      cases heq
      simp
  | nothing =>
      cases h
      simp

/-- A call fails only where it is made to. -/
theorem step_not_failed {step : WorkspaceStep} (hstep : step ≠ .fail)
    (h : request.step i step D call = some (D', call')) : call' ≠ .raised .failed := by
  have hdecides : ∀ result, UseCaseCall.afterExecute result ≠ .raised .failed := by
    intro result
    cases result <;> simp [UseCaseCall.afterExecute]
  unfold UseCaseRequest.step at h
  split at h
  · split at h <;> cases h
    · simp
    · exact hdecides _
  · cases h
    exact hdecides _
  · exact write_not_failed h
  · split at h <;> cases h <;> simp
  · cases h
    simp
  · exact absurd rfl hstep
  · cases h

section Serial

variable {requests : ι → Request} {w w' : Workspace ι}

theorem request_step {step : WorkspaceStep} (hi : requests i = .useCase request) :
    Request.step requests i step D (.useCase call) =
      (request.step i step D call).map fun (D, call) => (D, .useCase call) := by
  simp only [Request.step, hi]

/-- What a run of one call leads to that began on the tables of a store. -/
theorem alone_refines (hi : requests i = .useCase request) (hshared : w.shared.Holds s)
    (hproc : w.proc i = .useCase .started) {steps : List WorkspaceStep}
    (h : exec (World.move (Request.step requests)) w (steps.map fun step => (i, step)) = some w') :
    ∃ call, w'.proc i = .useCase call ∧ Alone request i s w'.shared call := by
  have hstep : ∀ step D call D' call',
      (∃ c, call = .useCase c ∧ Alone request i s D c) →
      Request.step requests i step D call = some (D', call') →
      ∃ c, call' = .useCase c ∧ Alone request i s D' c := by
    rintro step D _ D' call' ⟨c, rfl, hc⟩ hmove
    rw [request_step hi] at hmove
    obtain ⟨⟨D₁, c₁⟩, hcall, heq⟩ := Option.map_eq_some_iff.1 hmove
    obtain ⟨rfl, rfl⟩ := Prod.mk.inj heq
    exact ⟨c₁, rfl, hc.step hcall⟩
  exact World.alone_invariant hstep ⟨.started, hproc, .started hshared⟩ h

/-- A call can always be run to its end alone. -/
theorem alone_ends (hi : requests i = .useCase request) (hshared : w.shared.Holds s)
    (hproc : w.proc i = .useCase .started) :
    ∃ (steps : List WorkspaceStep) (w' : Workspace ι) (call : UseCaseCall),
      exec (World.move (Request.step requests)) w (steps.map fun step => (i, step)) = some w' ∧
      w'.proc i = .useCase call ∧ Alone request i s w'.shared call ∧ call.running = false ∧
      call ≠ .raised .failed := by
  have hnext : ∀ D call,
      (∃ c, call = .useCase c ∧ Alone request i s D c ∧ c ≠ .raised .failed) →
      ¬ (∃ c, call = .useCase c ∧ c.running = false) →
      ∃ step D' call', step ≠ .fail ∧ Request.step requests i step D call = some (D', call') ∧
        (∃ c, call' = .useCase c ∧ Alone request i s D' c ∧ c ≠ .raised .failed) ∧
        call'.remaining < call.remaining := by
    rintro D _ ⟨c, rfl, hc, -⟩ hrunning
    obtain ⟨step, D', c', hne, hstep, hc', hlt⟩ := hc.next (by simpa using hrunning)
    refine ⟨step, D', .useCase c', hne, ?_, ⟨c', rfl, hc', step_not_failed hne hstep⟩, hlt⟩
    rw [request_step hi, hstep]
    rfl
  obtain ⟨steps, w', -, hrun, ⟨call, hcall, halone, hne⟩, ⟨_, hcall', hended⟩⟩ :=
    World.exists_alone Call.remaining hnext (w := w)
      ⟨.started, hproc, .started hshared, by simp⟩
  obtain rfl := Call.useCase.inj (hcall.symm.trans hcall')
  exact ⟨steps, w', call, hrun, hcall, halone, hended, hne⟩

/-- One call alone, with its commit or without. -/
theorem call_serial (hi : requests i = .useCase request) (hshared : w.shared.Holds s)
    (hproc : w.proc i = .useCase .started) (commits : Bool) :
    ∃ (steps : List WorkspaceStep) (w' : Workspace ι),
      exec (World.move (Request.step requests)) w (steps.map fun step => (i, step)) = some w' ∧
      w'.shared.Holds ((StoreCall.useCase request).attempt commits s).1 := by
  cases commits with
  | true =>
      obtain ⟨steps, w', call, hrun, -, halone, hended, hne⟩ := alone_ends hi hshared hproc
      have hholds := (halone.attempt hended).1
      rw [decide_eq_true hne] at hholds
      exact ⟨steps, w', hrun, hholds⟩
  | false =>
      obtain ⟨e, lastSeq, hattempt⟩ := attempt_fails request s
      refine ⟨[.fail], ⟨w.shared.rollback i, Function.update w.proc i (.useCase (.raised .failed))⟩,
        ?_, ?_⟩
      · refine exec_cons_eq_some.2 ⟨_, World.move_eq_some.2 ⟨_, _, ?_, rfl⟩, rfl⟩
        rw [hproc, request_step hi]
        rfl
      · rw [hattempt]
        exact ⟨(hshared.rollback i).conversations, (hshared.rollback i).participants⟩

/-- Calls that run one after the other in the workspace leave the tables of the store. -/
theorem calls_serial {request : ι → UseCaseRequest} {calls : List (ι × Bool)}
    (hdistinct : (calls.map Prod.fst).Nodup)
    (hcalls : ∀ x ∈ calls, requests x.1 = .useCase (request x.1) ∧ w.proc x.1 = .useCase .started)
    (hshared : w.shared.Holds s) :
    ∃ (es : List (ι × WorkspaceStep)) (w' : Workspace ι),
      exec (World.move (Request.step requests)) w es = some w' ∧
      w'.shared.Holds (s.after (calls.map fun x => (.useCase (request x.1), x.2))) := by
  induction calls generalizing w s with
  | nil => exact ⟨[], w, rfl, hshared⟩
  | cons x calls ih =>
      rw [List.map_cons, List.nodup_cons] at hdistinct
      rw [List.forall_mem_cons] at hcalls
      obtain ⟨hi, hproc⟩ := hcalls.1
      obtain ⟨steps, t, hrun, ht⟩ := call_serial hi hshared hproc x.2
      have hstarted : ∀ y ∈ calls,
          requests y.1 = .useCase (request y.1) ∧ t.proc y.1 = .useCase .started := by
        intro y hy
        obtain ⟨hj, hstart⟩ := hcalls.2 y hy
        refine ⟨hj, ?_⟩
        rw [World.proc_of_not_mem hrun, hstart]
        intro e he
        obtain ⟨step, -, rfl⟩ := List.mem_map.1 he
        -- the calls are different ones
        exact fun h => hdistinct.1 (h ▸ List.mem_map_of_mem hy)
      obtain ⟨es, w', hrest, hw'⟩ := ih hdistinct.2 hstarted ht
      exact ⟨_, w', exec_append_eq_some.2 ⟨t, hrun, hrest⟩, hw'⟩

end Serial

end Alone

end Dizzchat
