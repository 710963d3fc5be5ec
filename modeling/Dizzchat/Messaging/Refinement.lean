import Dizzchat.Messaging.Store

set_option autoImplicit false

/-! # The rows refine the aggregate

What a conversation is can be said without tables: `Conversation.start`, and after it one method for each
call that has succeeded. The rows hold exactly that. A write passes on attributes and no aggregate, so
the proof is about what each call leaves out: an `UPDATE` keeps the columns the aggregate never changes
(`toDomain_update`), and a membership is written where the aggregate has changed its participants. -/

namespace Dizzchat

open Transition

/-! ## The aggregates in memory -/

abbrev Aggregates := ConversationId → Option Conversation

namespace UseCaseRequest

/-- What a call that succeeds does to its conversation in memory. -/
def applyTo (request : UseCaseRequest) (conversation : Option Conversation) : Option Conversation :=
  match request.useCase with
  | .create value => match ConversationTitle.ofString value with
      | .ok title =>
          some (Conversation.start request.conversationId ⟨request.actorId⟩ title request.now)
      | .error _ => conversation
  | .rename value => match ConversationTitle.ofString value with
      | .ok title => conversation.map fun conversation => conversation.rename title request.now
      | .error _ => conversation
  | .delete => conversation.map fun conversation => conversation.delete request.now
  | .restore => conversation.map fun conversation => conversation.restore request.now
  | .addParticipant _ userId => match userId with
      | some userId => conversation.map fun conversation => (conversation.addParticipant ⟨userId⟩).1
      | none => conversation
  | .removeParticipant participantId => conversation.map fun conversation =>
      match conversation.removeParticipant participantId with
      | .ok removed => removed
      | .error _ => conversation

def apply (request : UseCaseRequest) (aggregates : Aggregates) : Aggregates :=
  Function.update aggregates request.conversationId
    (request.applyTo (aggregates request.conversationId))

end UseCaseRequest

/-- The aggregates a store holds. -/
def Store.aggregates (s : Store) : Aggregates := fun c => s.getIncludingDeleted c

/-! ## What the columns keep -/

/-- The part of an aggregate that an `UPDATE` of its row leaves alone. -/
def Conversation.fixed (conversation : Conversation) :
    ConversationId × OwnerId × Datetime × Finset ParticipantId :=
  (conversation.id, conversation.ownerId, conversation.createdAt, conversation.participantIds)

theorem toDomain_update {model : ConversationModel} {participants : Finset ParticipantId}
    {conversation : Conversation}
    (h : conversation.fixed = (model.toDomain participants).fixed) :
    (model.update conversation).toDomain participants = conversation := by
  obtain ⟨hid, howner, hcreated, hparticipants⟩ : conversation.id = model.id ∧
      conversation.ownerId = model.ownerId ∧ conversation.createdAt = model.createdAt ∧
      conversation.participantIds = participants := by
    simpa [Conversation.fixed, ConversationModel.toDomain] using h
  cases conversation
  simp only at hid howner hcreated hparticipants
  simp [ConversationModel.toDomain, ConversationModel.update, hid, howner, hcreated, hparticipants]

theorem fixed_rename (conversation : Conversation) (title : ConversationTitle) (now : Datetime) :
    (conversation.rename title now).fixed = conversation.fixed := rfl

theorem fixed_delete (conversation : Conversation) (now : Datetime) :
    (conversation.delete now).fixed = conversation.fixed := by
  unfold Conversation.delete
  split <;> rfl

theorem fixed_restore (conversation : Conversation) (now : Datetime) :
    (conversation.restore now).fixed = conversation.fixed := by
  unfold Conversation.restore
  split <;> rfl

namespace Store

/-- An `UPDATE` of the row of a conversation brings the whole aggregate back. -/
theorem aggregates_update {s s' : Store} {conversation : Conversation} {model : ConversationModel}
    (hrow : s.row model.id = some model)
    (hfixed : conversation.fixed = (model.toDomain (s.participantsOf model.id)).fixed)
    (h : s.Writes (.update conversation) s') :
    s'.aggregates = Function.update s.aggregates model.id (some conversation) := by
  have hid : conversation.id = model.id := congrArg Prod.fst hfixed
  obtain ⟨hrows, hmembers, -⟩ := h.of_row hrow hid
  funext c
  unfold aggregates getIncludingDeleted
  rw [participantsOf_congr hmembers, hrows]
  by_cases hc : model.id = c
  · subst hc
    simp [ConversationRepository.getIncludingDeleted, toDomain_update hfixed]
  · simp [hc, Ne.symm hc]

end Store

/-! ## What a call does -/

section Calls

variable {request : UseCaseRequest} {participants : Finset ParticipantId}
  {row : Option ConversationModel} {change : Change}

/-- The conversation a call returns is the one it has written. -/
theorem Accepts.returns_conversation (h : Accepts request participants row change)
    {conversation : Conversation}
    (hreturns : request.returns participants row = .ok (.conversation conversation)) :
    request.applyTo (ConversationRepository.getIncludingDeleted participants row) =
      some conversation := by
  unfold UseCaseRequest.returns at hreturns
  unfold UseCaseRequest.applyTo
  cases h with
  | create huse htitle =>
      simp only [huse, htitle] at hreturns ⊢
      obtain ⟨_, hcreate, heq⟩ := except_map_eq_ok.1 hreturns
      obtain ⟨_, htitle', rfl⟩ := create_eq_ok.1 hcreate
      cases heq
      cases htitle.symm.trans htitle'
      rfl
  | rename huse hactive howner htitle =>
      simp only [huse, htitle] at hreturns ⊢
      obtain ⟨_, hrename, heq⟩ := except_map_eq_ok.1 hreturns
      obtain ⟨-, -, _, htitle', rfl⟩ := rename_eq_ok.1 hrename
      cases heq
      cases htitle.symm.trans htitle'
      rfl
  | restore huse howner =>
      simp only [huse] at hreturns ⊢
      obtain ⟨_, hrestore, heq⟩ := except_map_eq_ok.1 hreturns
      obtain ⟨-, rfl⟩ := restore_eq_ok.1 hrestore
      cases heq
      rfl
  | delete huse | remove huse =>
      simp only [huse] at hreturns
      obtain ⟨_, -, heq⟩ := except_map_eq_ok.1 hreturns
      cases heq
  | add huse | addAgain huse =>
      simp only [huse] at hreturns
      obtain ⟨⟨_, _⟩, -, heq⟩ := except_map_eq_ok.1 hreturns
      cases heq

/-- A call that goes through does to the rows what it does to the aggregate. -/
theorem Accepts.refines {s s' : Store}
    (h : Accepts request (s.participantsOf request.conversationId) (s.row request.conversationId)
      change) (hwrites : s.Writes change s') : s'.aggregates = request.apply s.aggregates := by
  have hfound : ∀ model, s.row request.conversationId = some model →
      model.id = request.conversationId := fun model hmodel => key_of_lookup hmodel
  have haggregate : s.aggregates request.conversationId = (s.row request.conversationId).map
      fun model => model.toDomain (s.participantsOf request.conversationId) := rfl
  unfold UseCaseRequest.apply UseCaseRequest.applyTo
  rw [haggregate]
  generalize hrow : s.row request.conversationId = row at h hfound
  cases h with
  | create huse htitle =>
      simp only [huse, htitle]
      have hparticipants := Store.participantsOf_create hwrites
      cases hwrites with
      | create hfresh hrows =>
          funext c
          unfold Store.aggregates Store.getIncludingDeleted
          rw [hparticipants, hrows]
          by_cases hc : request.conversationId = c
          · subst hc
            -- nobody takes part in a conversation that is not there yet
            have hempty := Store.participantsOf_eq_empty hfresh
            simp only [Conversation.start] at hempty
            simp [ConversationRepository.getIncludingDeleted, ConversationModel.toDomain,
              Conversation.start, hempty]
          · simp [Conversation.start, hc, Ne.symm hc]
  | rename huse hactive howner htitle =>
      simp only [huse, htitle]
      rw [← hfound _ rfl] at hrow hwrites ⊢
      exact Store.aggregates_update hrow (fixed_rename _ _ _) hwrites
  | delete huse hactive howner =>
      simp only [huse]
      rw [← hfound _ rfl] at hrow hwrites ⊢
      exact Store.aggregates_update hrow (fixed_delete _ _) hwrites
  | restore huse howner =>
      simp only [huse]
      rw [← hfound _ rfl] at hrow hwrites ⊢
      exact Store.aggregates_update hrow (fixed_restore _ _) hwrites
  | @add model email p huse hactive howner hnew =>
      simp only [huse]
      cases hwrites with
      | addParticipant hrows hmembers =>
          funext c
          unfold Store.aggregates Store.getIncludingDeleted
          rw [Store.participantsOf_insert hmembers, hrows]
          by_cases hc : request.conversationId = c
          · subst hc
            simp [ConversationRepository.getIncludingDeleted, ConversationModel.toDomain, hrow,
              Conversation.addParticipant, Conversation.isParticipant, hnew]
          · simp [hc, Ne.symm hc]
  | addAgain huse hactive howner hmember =>
      simp only [huse]
      cases hwrites with
      | nothing =>
          -- the aggregate knows the participant already
          refine (Function.update_eq_self_iff.2 ?_).symm
          rw [haggregate, hrow]
          simp [Conversation.addParticipant, Conversation.isParticipant, ConversationModel.toDomain,
            hmember]
  | @remove model p huse hactive hactor howner hmember =>
      simp only [huse]
      cases hwrites with
      | removeParticipant =>
          funext c
          unfold Store.aggregates Store.getIncludingDeleted
          rw [Store.participantsOf_deleteParticipant]
          have hrows : (s.deleteParticipant (request.conversationId, p)).row c = s.row c := rfl
          rw [hrows]
          by_cases hc : request.conversationId = c
          · subst hc
            simp [ConversationRepository.getIncludingDeleted, ConversationModel.toDomain, hrow,
              Conversation.removeParticipant, Conversation.isParticipant, hmember, howner]
          · simp [hc, Ne.symm hc]

end Calls

/-! ## Sequences of calls -/

theorem run_refines {request : UseCaseRequest} {s s' : Store} {response : Response}
    (h : request.run s = .ok (s', response)) : s'.aggregates = request.apply s.aggregates ∧
      ∀ conversation, response = .conversation conversation →
        s'.aggregates request.conversationId = some conversation := by
  obtain ⟨change, haccepts, hreturns, hwrites⟩ := run_eq_ok h
  have hrefines := haccepts.refines hwrites
  refine ⟨hrefines, fun conversation hresponse => ?_⟩
  subst hresponse
  rw [hrefines, UseCaseRequest.apply, Function.update_self]
  exact haccepts.returns_conversation hreturns

/-- Nothing but a use case that succeeds touches an aggregate. -/
theorem Store.aggregates_congr {s s' : Store}
    (hconversations : s'.conversations = s.conversations)
    (hparticipants : s'.participants = s.participants) : s'.aggregates = s.aggregates := by
  funext c
  unfold Store.aggregates Store.getIncludingDeleted
  rw [Store.participantsOf_congr hparticipants, Store.row_congr hconversations]

/-- The calls that have succeeded, and no others, make the aggregates what they are. -/
theorem after_refines (s : Store) (calls : List (StoreCall × Bool)) :
    (s.after calls).aggregates =
      (s.succeeded calls).foldl (fun aggregates request => request.apply aggregates)
        s.aggregates := by
  induction calls generalizing s with
  | nil => rfl
  | cons e calls ih =>
      obtain ⟨call, commits⟩ := e
      rw [Store.after, ih]
      rcases attempt_cases call commits calls s with
        ⟨request, response, hrun, hsucceeded⟩ | ⟨⟨hconversations, hparticipants⟩, hsucceeded⟩
      · rw [hsucceeded, List.foldl_cons, (run_refines hrun).1]
      · rw [hsucceeded, Store.aggregates_congr hconversations hparticipants]

/-- After any calls, by anybody and however they end, the conversations read from the rows are the
    aggregates in memory to which exactly the calls that succeeded were applied; `get` returns those
    that are not deleted; and a conversation that a call returns is the one in memory. -/
theorem rows_refine_aggregates (calls : List (StoreCall × Bool)) :
    let s := Store.empty.after calls
    let aggregates : Aggregates := (Store.empty.succeeded calls).foldl
      (fun aggregates request => request.apply aggregates) fun _ => none
    (∀ c, s.getIncludingDeleted c = aggregates c) ∧
      (∀ c, s.get c = (aggregates c).filter fun conversation => !conversation.isDeleted) ∧
      ∀ (request : UseCaseRequest) (s' : Store) (conversation : Conversation),
        request.run s = .ok (s', .conversation conversation) →
          request.apply aggregates request.conversationId = some conversation := by
  intro s aggregates
  have hrefines : s.aggregates = aggregates := after_refines Store.empty calls
  refine ⟨fun c => congrFun hrefines c, fun c => ?_, fun request s' conversation h => ?_⟩
  · rw [← hrefines]
    unfold Store.aggregates Store.getIncludingDeleted Store.get
    cases hrow : s.row c with
    | none => rfl
    | some model =>
        cases hdeleted : model.deletedAt <;>
          simp [ConversationRepository.get, ConversationRepository.getIncludingDeleted,
            Option.filter_some, ConversationModel.toDomain, Conversation.isDeleted, hdeleted]
  · obtain ⟨happly, hreturned⟩ := run_refines h
    rw [← hrefines, ← happly]
    exact hreturned conversation rfl

end Dizzchat
