import Dizzchat.Messaging.Store

set_option autoImplicit false

/-! # Deleting and restoring

Between a delete and the restore that undoes it the rows of a conversation rest: every other call looks at
the conversation through a filter that a deleted row does not pass, so it raises or is about another
conversation (`writes_elsewhere`). `Rests` is that state; it goes on until the owner restores. -/

namespace Dizzchat

open Transition

namespace Store

/-- The membership rows of a conversation. -/
def membersOf (c : ConversationId) (s : Store) : Finset ConversationParticipantModel :=
  s.participants.filter fun m => m.conversationId = c

def messagesOf (c : ConversationId) (s : Store) : List Message :=
  s.messages.filter fun m => m.conversationId = c

/-- The rows of a conversation are those of another store. -/
structure Agrees (c : ConversationId) (s t : Store) : Prop where
  row : t.row c = s.row c
  members : t.membersOf c = s.membersOf c
  messages : t.messagesOf c = s.messagesOf c

/-- The row of the conversation is marked as deleted. -/
def IsDeleted (c : ConversationId) (s : Store) : Prop :=
  ∃ row ∈ s.row c, row.deletedAt ≠ none

end Store

namespace StoreCall

/-- The conversation a call is about. -/
def conversation : StoreCall → Option ConversationId
  | .useCase request => some request.conversationId
  | .fromUser request _ => some request.conversationId
  | .listParticipants c _ | .getConversationHistory c _ _ _ | .ensureConversationAccess c _ => some c
  | .listConversations _ => none

/-- A restore of the conversation by its owner. -/
def RestoresAs (ownerId : OwnerId) : StoreCall → Prop
  | .useCase request => request.useCase = .restore ∧ ownerId = ⟨request.actorId⟩
  | _ => False

end StoreCall

section Frame

variable {request : UseCaseRequest} {s t : Store} {change : Change} {c : ConversationId}

theorem membersOf_congr (h : t.participants = s.participants) : t.membersOf c = s.membersOf c := by
  rw [Store.membersOf, Store.membersOf, h]

theorem messagesOf_congr (h : t.messages = s.messages) : t.messagesOf c = s.messagesOf c := by
  rw [Store.messagesOf, Store.messagesOf, h]

/-- Members of other conversations make no difference. -/
theorem membersOf_union {new : Finset ConversationParticipantModel}
    (hnew : ∀ m ∈ new, m.conversationId ≠ c) (h : t.participants = s.participants ∪ new) :
    t.membersOf c = s.membersOf c := by
  rw [Store.membersOf, Store.membersOf, h, Finset.filter_union, Finset.filter_false_of_mem hnew,
    Finset.union_empty]

/-- A call leaves the rows of every other conversation alone. -/
theorem writes_elsewhere (h : Accepts request (s.participantsOf request.conversationId)
      (s.row request.conversationId) change) (hwrites : s.Writes change t)
    (hc : request.conversationId ≠ c) : s.Agrees c t := by
  have hfound : ∀ model, s.row request.conversationId = some model →
      model.id = request.conversationId := fun model hmodel => key_of_lookup hmodel
  generalize s.row request.conversationId = row at h hfound
  -- the id an update names is the one the call has read
  have hupdate : ∀ conversation : Conversation, conversation.id = request.conversationId →
      s.Writes (.update conversation) t → s.Agrees c t := by
    intro conversation hid hwrites
    cases hwrites with
    | updateNone => exact ⟨rfl, rfl, rfl⟩
    | update hfound hrows hmembers hmessages =>
        exact ⟨(hrows c).trans (if_neg (hid ▸ hc)), membersOf_congr hmembers,
          messagesOf_congr hmessages⟩
  cases h with
  | create huse htitle =>
      cases hwrites with
      | create hfresh hrows hmembers hmessages =>
          refine ⟨(hrows c).trans (if_neg hc), membersOf_union ?_ hmembers,
            messagesOf_congr hmessages⟩
          intro m hm
          obtain ⟨p, -, rfl⟩ := Finset.mem_image.1 hm
          exact hc
  | rename => exact hupdate _ (hfound _ rfl) hwrites
  | delete huse hactive =>
      refine hupdate _ ?_ hwrites
      rw [← hfound _ rfl]
      simp [Conversation.delete, ConversationModel.toDomain, hactive]
  | restore =>
      refine hupdate _ ?_ hwrites
      rw [← hfound _ rfl]
      unfold Conversation.restore
      split <;> rfl
  | add =>
      cases hwrites with
      | addParticipant hrows hmembers hmessages =>
          refine ⟨hrows c, membersOf_union ?_ hmembers, messagesOf_congr hmessages⟩
          intro m hm
          rw [Finset.mem_singleton.1 hm]
          exact hc
  | addAgain =>
      cases hwrites with
      | nothing => exact ⟨rfl, rfl, rfl⟩
  | @remove model p =>
      cases hwrites with
      | removeParticipant =>
          refine ⟨rfl, ?_, rfl⟩
          rw [Store.membersOf, Store.membersOf, Store.deleteParticipant, Finset.filter_filter]
          refine Finset.filter_congr fun m _ => and_iff_right_of_imp fun hm hk => ?_
          exact hc ((congrArg Prod.fst hk).symm.trans hm)

end Frame

/-! ## A deleted conversation rests -/

section Rest

variable {s t u : Store} {c : ConversationId}

theorem Store.Agrees.trans (h : s.Agrees c t) (h' : t.Agrees c u) : s.Agrees c u :=
  ⟨h'.row.trans h.row, h'.members.trans h.members, h'.messages.trans h.messages⟩

theorem Store.Agrees.isDeleted (h : s.Agrees c t) (hdeleted : s.IsDeleted c) : t.IsDeleted c := by
  rw [Store.IsDeleted, h.row]
  exact hdeleted

/-- A row that is marked is not active. -/
theorem Store.IsDeleted.not_active (hdeleted : s.IsDeleted c) {model : ConversationModel}
    (hrow : s.row c = some model) (hactive : model.deletedAt = none) : False := by
  obtain ⟨row, hrow', hmark⟩ := hdeleted
  obtain rfl : row = model := Option.some.inj ((Option.mem_def.1 hrow').symm.trans hrow)
  exact hmark hactive

/-- The one use case that succeeds on a deleted conversation is a restore by its owner. -/
theorem run_of_deleted {request : UseCaseRequest} (hdeleted : s.IsDeleted request.conversationId)
    {response : Response} (h : request.run s = .ok (t, response)) :
    request.useCase = .restore ∧
      ∃ row ∈ s.row request.conversationId, row.ownerId = ⟨request.actorId⟩ := by
  obtain ⟨change, haccepts, -, hwrites⟩ := run_eq_ok h
  generalize hrow : s.row request.conversationId = row at haccepts
  cases haccepts with
  | restore huse howner => exact ⟨huse, _, rfl, howner⟩
  | create =>
      cases hwrites with
      | create hfresh =>
          obtain ⟨row', hrow', -⟩ := hdeleted
          cases (Option.mem_def.1 hrow').symm.trans hfresh
  | rename _ hactive | delete _ hactive | add _ hactive | addAgain _ hactive | remove _ hactive =>
      exact (hdeleted.not_active hrow hactive).elim

/-- Nobody is let in to a deleted conversation. -/
theorem ensureConversationAccess_of_deleted (hdeleted : s.IsDeleted c) (p : ParticipantId) :
    ∃ e, EnsureConversationAccess.execute (s.participantsOf c) c p (s.row c) = .error e := by
  cases haccess : EnsureConversationAccess.execute (s.participantsOf c) c p (s.row c) with
  | error e => exact ⟨e, rfl⟩
  | ok =>
      obtain ⟨⟨model, hrow, hactive⟩, -⟩ := ensureConversationAccess_eq_ok.1 haccess
      exact (hdeleted.not_active hrow hactive).elim

/-- Every call about a deleted conversation raises, but a restore by its owner. -/
theorem raises_of_deleted (hdeleted : s.IsDeleted c) {call : StoreCall}
    (hcall : call.conversation = some c)
    (hrestore : ∀ row ∈ s.row c, ¬ call.RestoresAs row.ownerId) : ∃ e, (call.run s).2 = .error e := by
  cases call with
  | useCase request =>
      obtain rfl : request.conversationId = c := Option.some.inj hcall
      cases hrun : request.run s with
      | error e => exact ⟨e, by simp only [StoreCall.run, hrun]⟩
      | ok result =>
          obtain ⟨huse, row, hrow, howner⟩ := run_of_deleted hdeleted hrun
          exact absurd ⟨huse, howner⟩ (hrestore row hrow)
  | fromUser request now =>
      obtain rfl : request.conversationId = c := Option.some.inj hcall
      obtain ⟨e, he⟩ := ensureConversationAccess_of_deleted hdeleted ⟨request.senderId.value⟩
      have hmay : PostMessage.ensureMayPost request (s.get request.conversationId) = .error e := he
      exact ⟨.messaging e, by simp only [StoreCall.run, PostMessage.fromUser, hmay]⟩
  | listParticipants c' p | getConversationHistory c' p | ensureConversationAccess c' p =>
      obtain rfl : c' = c := Option.some.inj hcall
      obtain ⟨e, he⟩ := ensureConversationAccess_of_deleted hdeleted p
      exact ⟨.messaging e, by
        show StoreCall.reading (EnsureConversationAccess.execute _ _ _ _) _ = _
        rw [he]
        rfl⟩
  | listConversations => cases hcall

/-- A deleted conversation is in nobody's list. -/
theorem not_listed_of_deleted (hdeleted : s.IsDeleted c) (p : ParticipantId) :
    ∀ conversation ∈ ConversationRepository.listForParticipant p s.participants s.conversations,
      conversation.id ≠ c := by
  intro conversation hconversation hid
  obtain ⟨row, hrow, ⟨hactive, -⟩, rfl⟩ := mem_listForParticipant.1 hconversation
  obtain rfl : row.id = c := hid
  exact hdeleted.not_active (lookup_of_mem s.ids hrow) hactive

/-- A call that is not a successful restore leaves the rows of a deleted conversation alone. -/
theorem agrees_of_leaves (hdeleted : s.IsDeleted c) {call : StoreCall}
    {outcome : Except WriteError Response} (h : StoreCall.Leaves s call t outcome)
    (hrestore : ∀ request response, call = .useCase request → outcome = .ok response →
      ¬ (request.useCase = .restore ∧ request.conversationId = c)) : s.Agrees c t := by
  cases h with
  | @succeeds request _ response hrun =>
      have hc : request.conversationId ≠ c := by
        rintro rfl
        exact hrestore request response rfl rfl ⟨(run_of_deleted hdeleted hrun).1, rfl⟩
      obtain ⟨change, haccepts, -, hwrites⟩ := run_eq_ok hrun
      exact writes_elsewhere haccepts hwrites hc
  | @posts request now _ message hmay hconversation hconversations hparticipants hmessages =>
      have hc : request.conversationId ≠ c := by
        rintro rfl
        obtain ⟨⟨model, hrow, hactive⟩, -⟩ := ensureConversationAccess_eq_ok.1 hmay
        exact hdeleted.not_active hrow hactive
      refine ⟨Store.row_congr hconversations c, membersOf_congr hparticipants, ?_⟩
      simp [Store.messagesOf, hmessages, hconversation, hc]
  | nothing _ h =>
      obtain ⟨hconversations, hparticipants, hmessages⟩ := h
      exact ⟨Store.row_congr hconversations c, membersOf_congr hparticipants,
        messagesOf_congr hmessages⟩

/-- No successful restore of the conversation is among the calls. -/
def NoRestore (c : ConversationId) (requests : List UseCaseRequest) : Prop :=
  ∀ request ∈ requests, ¬ (request.useCase = .restore ∧ request.conversationId = c)

instance (c : ConversationId) (requests : List UseCaseRequest) : Decidable (NoRestore c requests) :=
  inferInstanceAs (Decidable (∀ request ∈ requests,
    ¬ (request.useCase = .restore ∧ request.conversationId = c)))

theorem succeeded_cons {call : StoreCall} {commits : Bool} {calls : List (StoreCall × Bool)}
    {request : UseCaseRequest} {response : Response} (hcall : call = .useCase request)
    (h : (call.attempt commits s).2 = .ok response) :
    s.succeeded ((call, commits) :: calls) =
      request :: (call.attempt commits s).1.succeeded calls := by
  subst hcall
  rw [Store.succeeded]
  generalize StoreCall.attempt (.useCase request) commits s = result at h
  obtain ⟨s', outcome⟩ := result
  obtain rfl : outcome = .ok response := h
  rfl

theorem succeeded_subset (call : StoreCall) (commits : Bool) (calls : List (StoreCall × Bool)) :
    (call.attempt commits s).1.succeeded calls ⊆ s.succeeded ((call, commits) :: calls) := by
  rw [Store.succeeded]
  generalize call.attempt commits s = result
  obtain ⟨s', outcome⟩ := result
  simp only
  split
  · exact List.subset_cons_self _ _
  · exact List.Subset.refl _

/-- The rows of a deleted conversation rest for as long as it is not restored. -/
theorem agrees_after (hdeleted : s.IsDeleted c) (before : List (StoreCall × Bool))
    {calls : List (StoreCall × Bool)} (hno : NoRestore c (s.succeeded (before ++ calls))) :
    s.Agrees c (s.after before) := by
  induction before generalizing s with
  | nil => exact ⟨rfl, rfl, rfl⟩
  | cons e before ih =>
      obtain ⟨call, commits⟩ := e
      rw [List.cons_append] at hno
      have hstep : s.Agrees c (call.attempt commits s).1 := by
        refine agrees_of_leaves hdeleted (attempt_leaves call commits s) ?_
        intro request response hcall houtcome hrestores
        refine hno request ?_ hrestores
        rw [succeeded_cons hcall houtcome]
        exact List.mem_cons_self
      rw [Store.after]
      refine hstep.trans (ih (hstep.isDeleted hdeleted) fun request hrequest => ?_)
      exact hno request (succeeded_subset call commits _ hrequest)

end Rest

/-! ## The way there and back -/

section ThereAndBack

variable {s t : Store} {request : UseCaseRequest} {response : Response}

theorem writes_update {model : ConversationModel} {conversation : Conversation} {c : ConversationId}
    (hrow : s.row c = some model) (hid : conversation.id = model.id)
    (h : s.Writes (.update conversation) t) :
    t.row c = some (model.update conversation) ∧ t.membersOf c = s.membersOf c ∧
      t.messagesOf c = s.messagesOf c := by
  obtain ⟨hrows, hmembers, hmessages⟩ := h.of_row hrow hid
  exact ⟨(hrows c).trans (if_pos rfl), membersOf_congr hmembers, messagesOf_congr hmessages⟩

/-- A delete that succeeds finds the conversation active and marks it. -/
theorem run_delete (huse : request.useCase = .delete) (h : request.run s = .ok (t, response)) :
    ∃ model, (s.row request.conversationId = some model ∧ model.deletedAt = none) ∧
      t.row request.conversationId =
        some { model with updatedAt := request.now, deletedAt := some request.now } ∧
      t.membersOf request.conversationId = s.membersOf request.conversationId ∧
      t.messagesOf request.conversationId = s.messagesOf request.conversationId := by
  obtain ⟨change, haccepts, -, hwrites⟩ := run_eq_ok h
  generalize hrow : s.row request.conversationId = row at haccepts
  cases haccepts with
  | @delete model _ hactive =>
      have hdelete : (model.toDomain (s.participantsOf request.conversationId)).delete request.now =
          { model.toDomain (s.participantsOf request.conversationId) with
            deletedAt := some request.now, updatedAt := request.now } := by
        simp [Conversation.delete, ConversationModel.toDomain, hactive]
      rw [hdelete] at hwrites
      exact ⟨model, ⟨rfl, hactive⟩, writes_update hrow rfl hwrites⟩
  | create hother | rename hother | restore hother | add hother | addAgain hother | remove hother =>
      cases huse.symm.trans hother

/-- A restore that succeeds takes the mark away. -/
theorem run_restore (huse : request.useCase = .restore) (h : request.run s = .ok (t, response))
    {model : ConversationModel} (hrow : s.row request.conversationId = some model)
    (hmark : model.deletedAt ≠ none) :
    t.row request.conversationId = some { model with updatedAt := request.now, deletedAt := none } ∧
      t.membersOf request.conversationId = s.membersOf request.conversationId ∧
      t.messagesOf request.conversationId = s.messagesOf request.conversationId := by
  obtain ⟨change, haccepts, -, hwrites⟩ := run_eq_ok h
  rw [hrow] at haccepts
  cases haccepts with
  | restore =>
      have hrestore : (model.toDomain (s.participantsOf request.conversationId)).restore request.now =
          { model.toDomain (s.participantsOf request.conversationId) with
            deletedAt := none, updatedAt := request.now } := by
        unfold Conversation.restore
        split
        · rfl
        · next hnone => exact absurd hnone hmark
      rw [hrestore] at hwrites
      exact writes_update hrow rfl hwrites
  | create hother | rename hother | delete hother | add hother | addAgain hother | remove hother =>
      cases huse.symm.trans hother

end ThereAndBack

/-- From a delete that succeeds to the first restore that does, whatever calls come between: the row of
    the conversation, its memberships and its messages are in the end what they were before the delete,
    but for `updated_at`; and all the time between, every call about the conversation raises, except a
    restore by its owner, and the conversation is in nobody's list. -/
theorem deleteRestore_losesNothing {s s₁ s₂ : Store} {delete restore : UseCaseRequest}
    {response response' : Response} {calls : List (StoreCall × Bool)}
    (hdelete : delete.useCase = .delete) (hdeleted : delete.run s = .ok (s₁, response))
    (hbetween : NoRestore delete.conversationId (s₁.succeeded calls))
    (hrestore : restore.useCase = .restore) (hsame : restore.conversationId = delete.conversationId)
    (hrestored : restore.run (s₁.after calls) = .ok (s₂, response')) :
    let c := delete.conversationId
    (∃ model, (s.row c = some model ∧ model.deletedAt = none) ∧
      s₂.row c = some { model with updatedAt := restore.now }) ∧
      s₂.membersOf c = s.membersOf c ∧ s₂.messagesOf c = s.messagesOf c ∧
      ∀ before rest, calls = before ++ rest →
        (∀ call : StoreCall, call.conversation = some c →
          (∀ row ∈ s.row c, ¬ call.RestoresAs row.ownerId) →
            ∃ e, (call.run (s₁.after before)).2 = .error e) ∧
          ∀ p, ∀ conversation ∈ ConversationRepository.listForParticipant p
            (s₁.after before).participants (s₁.after before).conversations, conversation.id ≠ c := by
  intro c
  obtain ⟨model, ⟨hrow, hactive⟩, hrow₁, hmembers₁, hmessages₁⟩ := run_delete hdelete hdeleted
  have hmarked : s₁.IsDeleted c := ⟨_, hrow₁, by simp⟩
  have hrest : s₁.Agrees c (s₁.after calls) := by
    have hno : NoRestore c (s₁.succeeded (calls ++ [])) := by
      rw [List.append_nil]
      exact hbetween
    exact agrees_after hmarked calls hno
  have hrow₂ : (s₁.after calls).row restore.conversationId =
      some { model with updatedAt := delete.now, deletedAt := some delete.now } := by
    rw [hsame]
    exact hrest.row.trans hrow₁
  obtain ⟨hrow₃, hmembers₃, hmessages₃⟩ := run_restore hrestore hrestored hrow₂ (by simp)
  rw [hsame] at hrow₃ hmembers₃ hmessages₃
  refine ⟨⟨model, ⟨hrow, hactive⟩, ?_⟩, ?_, ?_, ?_⟩
  · rw [hrow₃, ← hactive]
  · exact hmembers₃.trans (hrest.members.trans hmembers₁)
  · exact hmessages₃.trans (hrest.messages.trans hmessages₁)
  · rintro before rest rfl
    have hbefore := agrees_after hmarked before hbetween
    have hstill := hbefore.isDeleted hmarked
    refine ⟨fun call hcall hnot => raises_of_deleted hstill hcall fun row hrow' => ?_,
      not_listed_of_deleted hstill⟩
    -- the row still names the owner it named before the delete
    obtain rfl : _ = row :=
      Option.some.inj ((hbefore.row.trans hrow₁).symm.trans (Option.mem_def.1 hrow'))
    exact hnot model hrow

/-- A conversation of two, with one message. -/
def sharedTeam : Store :=
  Store.empty.after [(.useCase ⟨.create "Team", ⟨1⟩, 10, ⟨0, 0⟩⟩, true),
    (.useCase ⟨.addParticipant "ada@example.org" (some 20), ⟨1⟩, 10, ⟨2, 0⟩⟩, true),
    (.fromUser helloRequest ⟨3, 0⟩, true)]

def deleteTeam : UseCaseRequest := ⟨.delete, ⟨1⟩, 10, ⟨5, 0⟩⟩

def restoreTeam : UseCaseRequest := ⟨.restore, ⟨1⟩, 10, ⟨9, 0⟩⟩

/-- A rename and a message that raise, a restore by the guest that raises, and a new conversation. -/
def whileDeleted : List (StoreCall × Bool) :=
  [(.useCase ⟨.rename "Crew", ⟨1⟩, 10, ⟨6, 0⟩⟩, true), (.fromUser helloRequest ⟨7, 0⟩, true),
    (.useCase ⟨.restore, ⟨1⟩, 20, ⟨7, 0⟩⟩, true), (.useCase ⟨.create "Other", ⟨2⟩, 20, ⟨8, 0⟩⟩, true)]

def deletedTeam : Store := (StoreCall.run (.useCase deleteTeam) sharedTeam).1

def restoredTeam : Store :=
  (StoreCall.run (.useCase restoreTeam) (deletedTeam.after whileDeleted)).1

theorem deleteRestore_losesNothing_whileDeleted :
    (deletedTeam.succeeded whileDeleted).length = 1 ∧ (sharedTeam.membersOf ⟨1⟩).card = 2 ∧
      restoredTeam.membersOf ⟨1⟩ = sharedTeam.membersOf ⟨1⟩ ∧
      restoredTeam.messagesOf ⟨1⟩ = sharedTeam.messagesOf ⟨1⟩ := by
  have hdeleted : deleteTeam.run sharedTeam = .ok (deletedTeam, .done) := by decide
  have hrestored : restoreTeam.run (deletedTeam.after whileDeleted) = .ok (restoredTeam,
      .conversation { helloConversation with
        updatedAt := ⟨9, 0⟩, participantIds := {⟨10⟩, ⟨20⟩} }) := by decide
  have hbetween : NoRestore deleteTeam.conversationId (deletedTeam.succeeded whileDeleted) := by
    decide
  have hsame : restoreTeam.conversationId = deleteTeam.conversationId := rfl
  obtain ⟨-, hmembers, hmessages, -⟩ :=
    deleteRestore_losesNothing rfl hdeleted hbetween rfl hsame hrestored
  exact ⟨by decide, by decide, hmembers, hmessages⟩

end Dizzchat
