import Dizzchat.Api.Histories

set_option autoImplicit false

/-! # What responses show

Whom the API shows something of a conversation: the user the request comes from, who owns it or takes part
in it. -/

namespace Dizzchat

open Transition

variable {services : ApiServices} {request : ApiRequest} {past : List ServerCall}

/-- The body says something about the conversation: what it is, who takes part in it, or what has been
    written in it. -/
def ResponseBody.Shows (operation : Operation) (c : UUID) : ResponseBody → Prop
  | .conversation shown => shown.id = c
  | .conversations list => ∃ shown ∈ list, shown.id = c
  | .participants _ => operation = .listParticipants c
  | .page shown => (∃ before limit, operation = .getConversationHistory c before limit) ∨
      ∃ message ∈ shown.items, message.conversationId = c
  | .user _ | .token _ | .currentUser _ | .empty | .detail _ | .unspecified => False

/-- The user owns the conversation or takes part in it. -/
def Store.KnownTo (s : Store) (c : ConversationId) (userId : UserId) : Prop :=
  ∃ row, s.row c = some row ∧
    (row.ownerId = ⟨userId.value⟩ ∨ ⟨userId.value⟩ ∈ s.participantsOf c)

section Shows

variable {s s' : Store} {r : UseCaseRequest} {conversation : Conversation} {c : ConversationId}
  {userId : UserId}

/-- A conversation that is returned is the one of the call, and the caller owns it. -/
theorem run_conversation (h : r.run s = .ok (s', .conversation conversation)) :
    conversation.id = r.conversationId ∧
      ∃ row, s'.row r.conversationId = some row ∧ row.ownerId = ⟨r.actorId⟩ := by
  obtain ⟨change, haccepts, hreturns, hwrites⟩ := run_eq_ok h
  have hattributed := haccepts.attributed hwrites
  have hkept : ∀ model, s.row r.conversationId = some model → model.ownerId = ⟨r.actorId⟩ →
      ∃ row, s'.row r.conversationId = some row ∧ row.ownerId = ⟨r.actorId⟩ := by
    intro model hmodel howner
    obtain ⟨row, hrow, hsame, -⟩ := hattributed.rows _ model hmodel
    exact ⟨row, hrow, hsame.trans howner⟩
  have hid : ∀ model, s.row r.conversationId = some model → model.id = r.conversationId :=
    fun model hmodel => key_of_lookup hmodel
  unfold UseCaseRequest.returns at hreturns
  generalize s.row r.conversationId = read at haccepts hreturns hkept hid
  cases haccepts with
  | create huse htitle =>
      simp only [huse] at hreturns
      obtain ⟨created, hcreate, hconversation⟩ := except_map_eq_ok.1 hreturns
      obtain ⟨_, -, rfl⟩ := create_eq_ok.1 hcreate
      obtain rfl := Response.conversation.inj hconversation
      cases hwrites with
      | create _ hrows => exact ⟨rfl, _, (hrows _).trans (if_pos rfl), rfl⟩
  | @rename model value title huse hactive howner htitle =>
      simp only [huse] at hreturns
      obtain ⟨renamed, hrename, hconversation⟩ := except_map_eq_ok.1 hreturns
      obtain ⟨-, -, _, -, rfl⟩ := rename_eq_ok.1 hrename
      obtain rfl := Response.conversation.inj hconversation
      exact ⟨hid model rfl, hkept model rfl howner⟩
  | @restore model huse howner =>
      simp only [huse] at hreturns
      obtain ⟨restored, hrestore, hconversation⟩ := except_map_eq_ok.1 hreturns
      obtain ⟨-, rfl⟩ := restore_eq_ok.1 hrestore
      obtain rfl := Response.conversation.inj hconversation
      refine ⟨?_, hkept model rfl howner⟩
      rw [← hid model rfl]
      unfold Conversation.restore
      split <;> rfl
  | delete huse | remove huse | add huse | addAgain huse =>
      simp only [huse] at hreturns
      obtain ⟨_, -, hother⟩ := except_map_eq_ok.1 hreturns
      cases hother

/-- A use case returns a conversation, or nothing that is shown. -/
theorem run_response {response : Response} (h : r.run s = .ok (s', response)) :
    (∃ conversation, response = .conversation conversation) ∨ response.body = .empty := by
  obtain ⟨_, -, hreturns, -⟩ := run_eq_ok h
  unfold UseCaseRequest.returns at hreturns
  cases huse : r.useCase with
  | create | rename | restore =>
      simp only [huse] at hreturns
      obtain ⟨conversation, -, rfl⟩ := except_map_eq_ok.1 hreturns
      exact .inl ⟨conversation, rfl⟩
  | delete | addParticipant | removeParticipant =>
      simp only [huse] at hreturns
      obtain ⟨_, -, rfl⟩ := except_map_eq_ok.1 hreturns
      exact .inr rfl

theorem knownTo_of_activeFor (h : s.ActiveFor c ⟨userId.value⟩) : s.KnownTo c userId := by
  obtain ⟨⟨row, hrow, -⟩, hmember⟩ := h
  exact ⟨row, hrow, .inr hmember⟩

theorem run_of_attempt_ok {call : StoreCall} {commits : Bool} {response : Response}
    (h : call.attempt commits s = (s', .ok response)) : call.run s = (s', .ok response) := by
  unfold StoreCall.attempt at h
  split at h
  · cases h
  · exact h

theorem reading_eq_ok {check : Except MessagingError Unit} {response response' : Response} :
    StoreCall.reading check response = .ok response' ↔ check = .ok () ∧ response' = response := by
  cases check with
  | error e => simp [StoreCall.reading]
  | ok => simp [StoreCall.reading, eq_comm]

/-- Every message of a page is one of the conversation. -/
theorem mem_page {before : Option MessageId} {limit : ℕ} {rows : List Message} {message : Message}
    (h : message ∈ (GetConversationHistory.page c before limit rows).items) :
    message.conversationId = c := by
  have hfetched : message ∈ MessageRepository.listHistory c before (limit + 1) rows :=
    List.mem_of_mem_take h
  have hmatches := (Keyset.mem_of_mem_page hfetched).1
  exact of_decide_eq_true (List.mem_filter.1 hmatches).2

theorem storeCall_shows {found : Option UUID} {call : StoreCall} {response : Response} {shown : UUID}
    (hcall : request.storeCall userId found = some call)
    (hattempt : call.attempt request.stored s = (s', .ok response))
    (hshows : response.body.Shows request.operation shown) : s'.KnownTo ⟨shown⟩ userId := by
  have hrun := run_of_attempt_ok hattempt
  -- of what a use case returns only a conversation shows one
  have huseCase : ∀ {r : UseCaseRequest}, call = .useCase r → s'.KnownTo ⟨shown⟩ userId := by
    rintro r rfl
    have hactor : r.actorId = userId.value := useCase_actor hcall
    cases hr : r.run s with
    | error e => simp [StoreCall.run, hr] at hrun
    | ok result =>
        simp only [StoreCall.run, hr, Prod.mk.injEq, Except.ok.injEq] at hrun
        obtain ⟨t, response'⟩ := result
        obtain ⟨rfl, rfl⟩ := hrun
        rcases run_response hr with ⟨conversation, rfl⟩ | hempty
        · obtain ⟨hid, row, hrow, howner⟩ := run_conversation hr
          obtain rfl : conversation.id.value = shown := hshows
          rw [hactor] at howner
          exact ⟨row, hid ▸ hrow, .inl howner⟩
        · rw [hempty] at hshows
          cases hshows
  unfold ApiRequest.storeCall at hcall
  cases hoperation : request.operation with
  | signup | login | refresh | currentUser => simp [hoperation] at hcall
  | createConversation | renameConversation | deleteConversation | restoreConversation | addParticipant
  | removeParticipant =>
      simp only [hoperation, Option.some.injEq] at hcall
      exact huseCase hcall.symm
  | listConversations =>
      simp only [hoperation, Option.some.injEq] at hcall
      subst hcall
      obtain ⟨rfl, hresponse⟩ := Prod.mk.inj hrun
      obtain rfl := Except.ok.inj hresponse
      obtain ⟨answered, hanswered, rfl⟩ := hshows
      obtain ⟨conversation, hlisted, rfl⟩ := List.mem_map.1 hanswered
      obtain ⟨row, hrow, ⟨-, hmember⟩, rfl⟩ := mem_listForParticipant.1 hlisted
      exact ⟨row, lookup_of_mem s.ids hrow, .inr hmember⟩
  | listParticipants c =>
      simp only [hoperation, Option.some.injEq] at hcall
      subst hcall
      obtain ⟨rfl, hreading⟩ := Prod.mk.inj hrun
      obtain ⟨hmay, rfl⟩ := reading_eq_ok.1 hreading
      rw [hoperation] at hshows
      obtain rfl := Operation.listParticipants.inj hshows
      exact knownTo_of_activeFor (ensureConversationAccess_eq_ok.1 hmay)
  | getConversationHistory c before limit =>
      simp only [hoperation, Option.some.injEq] at hcall
      subst hcall
      obtain ⟨rfl, hreading⟩ := Prod.mk.inj hrun
      obtain ⟨hmay, rfl⟩ := reading_eq_ok.1 hreading
      have hsame : c = shown := by
        rw [hoperation] at hshows
        rcases hshows with ⟨_, _, hoperation'⟩ | ⟨answered, hanswered, rfl⟩
        · exact (Operation.getConversationHistory.inj hoperation').1
        · obtain ⟨message, hmessage, rfl⟩ := List.mem_map.1 hanswered
          exact (congrArg ConversationId.value (mem_page hmessage)).symm
      subst hsame
      exact knownTo_of_activeFor (ensureConversationAccess_eq_ok.1 hmay)

end Shows

/-! ## Errors show nothing -/

section Errors

variable {operation : Operation} {c : UUID}

theorem AccountError.not_shows (repr : String → String) (e : AccountError) :
    ¬ (e.response repr).body.Shows operation c := by
  cases e with
  | user e =>
      cases e with
      | user | emptyPasswordHash | multipleResultsFound | integrityError | failed => exact id
  | token e =>
      cases e with
      | identity e => cases e; exact id
      | invalidCredentials | integrityError | rolledBack => exact id

theorem WriteError.not_shows (repr : String → String) (e : WriteError) :
    ¬ (e.response repr).body.Shows operation c := by
  cases e with
  | messaging | integrityError | failed => exact id

theorem unauthorized_not_shows {response : ApiResponse}
    (h : request.getCurrentUser services = .error response) : ¬ response.body.Shows operation c := by
  unfold ApiRequest.getCurrentUser at h
  split at h
  · rw [← Except.error.inj h]
    exact id
  · split at h
    · cases h
    · rw [← Except.error.inj h]
      exact id
    · rw [← Except.error.inj h]
      exact id

end Errors

/-- Whatever a response says about a conversation, the request has come from a user who owns the
    conversation or takes part in it when the response is given. -/
theorem shown_to_members (h : Trusted services (.http request :: past)) {c : UUID}
    (hshows : (request.handle services (ServerCall.after services past)).2.body.Shows request.operation
      c) :
    ∃ userId, request.From services past userId ∧
      (ServerCall.after services (.http request :: past)).store.KnownTo ⟨c⟩ userId := by
  show ∃ userId, request.From services past userId ∧
    (request.handle services (ServerCall.after services past)).1.store.KnownTo ⟨c⟩ userId
  have hhandled := handle_handled services request (ServerCall.after services past)
  generalize request.handle services (ServerCall.after services past) = result at hhandled hshows ⊢
  obtain ⟨server', response⟩ := result
  simp only at hhandled hshows ⊢
  cases hhandled with
  | @account call accounts answer => cases answer <;> cases hshows
  | @accountFails call e => exact absurd hshows (e.not_shows services.repr)
  | @refused userId e => exact absurd hshows (e.not_shows services.repr)
  | invalid | currentUser => cases hshows
  | unauthorized haccount huser => exact absurd hshows (unauthorized_not_shows huser)
  | @store userId found call outcome store haccount huser hvalid houtside hcall hattempt =>
      cases outcome with
      | error e => exact absurd hshows (e.not_shows services.repr)
      | ok response => exact ⟨userId, (getCurrentUser_iff h).1 huser, storeCall_shows hcall hattempt hshows⟩

theorem shown_to_members_created :
    ∃ userId, adaCreates.From plainApi adaHistory userId ∧
      (ServerCall.after plainApi (.http adaCreates :: adaHistory)).store.KnownTo ⟨7⟩ userId := by
  have hbody : (adaCreates.handle plainApi (ServerCall.after plainApi adaHistory)).2.body =
      .conversation ⟨7, 1, "Team", ⟨7000000, 0⟩, ⟨7000000, 0⟩⟩ := by
    decide +kernel
  refine shown_to_members (ada_trusted rfl rfl) ?_
  rw [hbody]
  rfl

end Dizzchat
