import Dizzchat.Messaging.Ownership

set_option autoImplicit false

/-! # What a send has checked and what it commits

A send reads its conversation once, at its start, and everything it commits rests on that read: the user
message on the check of `from_user`, the reply on the user message. `Call.checked` and `Call.engaged`
say for how long, `RequestMove.posts` that nothing is committed outside, and `RequestMove.visible` what
others can see of a step. -/

namespace Dizzchat

open Transition

/-! ## Calls that rely on a read -/

/-- The sender may post, and `from_user` has not ended. -/
def FromUserCall.checked : FromUserCall → Bool
  | .admitted | .missed | .found _ | .drawn _ | .flushed _ => true
  | .started | .returned .. | .raised _ => false

namespace Call

def checked : Call → Bool
  | .exchange (.writing call) => call.checked
  | _ => false

/-- The send has found its conversation active, and may still write a message. -/
def engaged : Call → Bool
  | .reading (some row) => row.deletedAt.isNone
  | .exchange (.writing call) => call.checked
  | .exchange (.publishing _) | .exchange (.responding _) | .exchange (.replying ..) => true
  | _ => false

/-- The message a step commits. -/
def posts (step : WorkspaceStep) (call : Call) : List Message :=
  match step, call with
  | .exchange step, .exchange call => call.commits step
  | _, _ => []

end Call

/-- A message that is being written: of the sender, or of the assistant. -/
def ExchangeCall.Writes (request : SendRequest) : ExchangeCall → Prop
  | .writing (.drawn message) | .writing (.flushed message) =>
      message.role = .user ∧ message.conversationId = request.conversationId ∧
        message.senderId = some request.senderId
  | .replying _ (.drawn reply) | .replying _ (.flushed reply) =>
      reply.role = .assistant ∧ reply.conversationId = request.conversationId ∧
        reply.senderId = none
  | _ => True

def Call.Writes : Request → Call → Prop
  | .send request, .exchange call => call.Writes request
  | _, _ => True

theorem posts_useCase (step : WorkspaceStep) (call : UseCaseCall) :
    (Call.useCase call).posts step = [] := by
  cases step <;> rfl

theorem writes_start (request : Request) : (Call.start request).Writes request := by
  cases request <;> trivial

theorem checked_start (request : Request) : (Call.start request).checked = false := by
  cases request <;> rfl

theorem engaged_start (request : Request) : (Call.start request).engaged = false := by
  cases request <;> rfl

variable {ι : Type*} [DecidableEq ι]

/-! ## What a step of a send does -/

section Send

variable {request : ι → SendRequest} {i : ι}

theorem FromUserMove.checked {step : FromUserStep} {s s' : MessageStore ι} {call call' : FromUserCall}
    (h : FromUserMove request i s step call s' call') (hcall : call'.checked = true) :
    call.checked = true ∨ ∃ conversation, step = .readConversation conversation ∧
      PostMessage.ensureMayPost (request i) conversation = .ok () := by
  cases h with
  | admitted hpost => exact .inr ⟨_, rfl, hpost⟩
  | keyless | found | missed | drawn | flushed => exact .inl rfl
  | rejected | duplicate | returnedExisting | returnedCreated | failed => cases hcall

theorem checked_afterUser {call : FromUserCall}
    (h : (Call.exchange (.afterUser call)).checked = true) : call.checked = true := by
  cases call with
  | returned message created => cases created <;> cases h
  | raised => cases h
  | started | admitted | missed | found | drawn | flushed => exact h

theorem ExchangeCase.checked {step : ExchangeStep} {s s' : Chat ι} {call call' : ExchangeCall}
    (h : ExchangeCase request i s step call s' call') (hcall : (Call.exchange call').checked = true) :
    (Call.exchange call).checked = true ∨ ∃ conversation,
      step = .user (.readConversation conversation) ∧
        PostMessage.ensureMayPost (request i) conversation = .ok () := by
  cases h with
  | user h =>
      refine (h.checked (checked_afterUser hcall)).imp_right ?_
      rintro ⟨conversation, rfl, hpost⟩
      exact ⟨conversation, rfl, hpost⟩
  | assistant h => cases h <;> cases hcall
  | @publish succeeds | @respond succeeds | @publishReply succeeds =>
      cases succeeds <;> cases hcall
  | cancelPublish | cancelRespond | cancelReply => cases hcall

theorem ExchangeCase.engaged {step : ExchangeStep} {s s' : Chat ι} {call call' : ExchangeCall}
    (h : ExchangeCase request i s step call s' call') (hcall : (Call.exchange call').engaged = true) :
    (Call.exchange call).engaged = true ∨ ∃ conversation,
      step = .user (.readConversation conversation) ∧
        PostMessage.ensureMayPost (request i) conversation = .ok () := by
  cases h with
  | @user step call call' _ h =>
      cases call' with
      | returned message created =>
          cases h with
          | returnedCreated => exact .inl rfl
          | returnedExisting => exact .inl rfl
      | raised => cases hcall
      | started | admitted | missed | found | drawn | flushed =>
          refine (h.checked hcall).imp_right ?_
          rintro ⟨conversation, rfl, hpost⟩
          exact ⟨conversation, rfl, hpost⟩
  | assistant h => exact .inl rfl
  | publish | respond => exact .inl rfl
  | @publishReply succeeds => cases succeeds <;> cases hcall
  | cancelPublish | cancelRespond | cancelReply => cases hcall

theorem ExchangeCase.writes {step : ExchangeStep} {s s' : Chat ι} {call call' : ExchangeCall}
    (h : ExchangeCase request i s step call s' call') (hcall : call.Writes (request i)) :
    call'.Writes (request i) := by
  cases h with
  | user h =>
      cases h with
      | drawn => exact ⟨rfl, rfl, rfl⟩
      | flushed => exact hcall
      | rejected | admitted | keyless | found | missed | duplicate | returnedExisting
      | returnedCreated | failed => trivial
  | assistant h =>
      cases h with
      | drawn => exact ⟨rfl, rfl, rfl⟩
      | flushed => exact hcall
      | duplicate | returned | failed => trivial
  | @publish succeeds | @respond succeeds | @publishReply succeeds => cases succeeds <;> trivial
  | cancelPublish | cancelRespond | cancelReply => trivial

end Send

section Step

variable {D D' : Database ι} {i : ι} {step : WorkspaceStep} {call call' : Call}

theorem SendMove.writes {request : SendRequest} (h : SendMove request i D step call D' call')
    (hcall : call.Writes (.send request)) : call'.Writes (.send request) := by
  cases h with
  | reads => trivial
  | checks h | gives h => exact h.writes trivial
  | exchanges _ h => exact h.writes hcall

/-- Whoever gets past the check is a participant in the committed rows. -/
theorem SendMove.checked {request : SendRequest} (h : SendMove request i D step call D' call')
    (hcall : call'.checked = true) : call.checked = true ∨
      (⟨request.senderId.value⟩ : ParticipantId) ∈ D.participantsOf request.conversationId := by
  cases h with
  | reads => cases hcall
  | checks h =>
      rcases h.checked hcall with hcall | ⟨conversation, heq, hpost⟩
      · cases hcall
      · cases heq
        exact .inr (ensureConversationAccess_eq_ok.1 hpost).2
  | gives h =>
      rcases h.checked hcall with hcall | ⟨conversation, heq, -⟩
      · cases hcall
      · cases heq
  | exchanges hstep h =>
      rcases h.checked hcall with hcall | ⟨conversation, heq, -⟩
      · exact .inl hcall
      · exact absurd heq (hstep conversation)

/-- A send goes on only when it has read an active conversation. -/
theorem SendMove.engaged {request : SendRequest} (h : SendMove request i D step call D' call')
    (hcall : call'.engaged = true) : call.engaged = true ∨
      ∃ row, D.row request.conversationId = some row ∧ row.deletedAt = none := by
  cases h with
  | reads =>
      cases hrow : D.row request.conversationId with
      | none =>
          rw [hrow] at hcall
          cases hcall
      | some row =>
          rw [hrow] at hcall
          exact .inr ⟨row, rfl, Option.isNone_iff_eq_none.1 hcall⟩
  | checks h =>
      rcases h.engaged hcall with hcall | ⟨conversation, heq, hpost⟩
      · cases hcall
      · cases heq
        obtain ⟨⟨row, rfl, hactive⟩, -⟩ := ensureConversationAccess_eq_ok.1 hpost
        exact .inl (Option.isNone_iff_eq_none.2 hactive)
  | gives h =>
      rcases h.engaged hcall with hcall | ⟨conversation, heq, -⟩
      · cases hcall
      · cases heq
  | exchanges hstep h =>
      rcases h.engaged hcall with hcall | ⟨conversation, heq, -⟩
      · exact .inl hcall
      · exact absurd heq (hstep conversation)

variable {request : ι → Request}

theorem RequestMove.checked {r : SendRequest} (h : RequestMove request i D step call D' call')
    (hr : request i = .send r) (hcall : call'.checked = true) : call.checked = true ∨
      (⟨r.senderId.value⟩ : ParticipantId) ∈ D.participantsOf r.conversationId := by
  cases h with
  | useCase => cases hcall
  | send hr' h =>
      obtain rfl : _ = r := Request.send.inj (hr'.symm.trans hr)
      exact h.checked hcall

theorem RequestMove.engaged {r : SendRequest} (h : RequestMove request i D step call D' call')
    (hr : request i = .send r) (hcall : call'.engaged = true) : call.engaged = true ∨
      ∃ row, D.row r.conversationId = some row ∧ row.deletedAt = none := by
  cases h with
  | useCase => cases hcall
  | send hr' h =>
      obtain rfl : _ = r := Request.send.inj (hr'.symm.trans hr)
      exact h.engaged hcall

theorem RequestMove.writes (h : RequestMove request i D step call D' call')
    (hcall : call.Writes (request i)) : call'.Writes (request i) := by
  cases h with
  | useCase hr h =>
      rw [hr]
      trivial
  | send hr h =>
      rw [hr] at hcall ⊢
      exact h.writes hcall

/-- Whoever makes the step, what the calls are writing stays their own. -/
theorem RequestMove.forall_writes {proc : ι → Call}
    (h : RequestMove request i D step (proc i) D' call')
    (hproc : ∀ j, (proc j).Writes (request j)) (j : ι) :
    (Function.update proc i call' j).Writes (request j) :=
  (Function.forall_update_iff proc fun j l => l.Writes (request j)).2
    ⟨h.writes (hproc i), fun j _ => hproc j⟩ j

/-- Only a send past its check commits a message, to its conversation: a user message of its sender, or
    the reply. -/
theorem RequestMove.posts (h : RequestMove request i D step call D' call')
    (hcall : call.Writes (request i)) {message : Message} (hmessage : message ∈ call.posts step) :
    ∃ r, request i = .send r ∧ message.conversationId = r.conversationId ∧ call.engaged = true ∧
      (message.role = .user ∧ message.senderId = some r.senderId ∧ call.checked = true ∨
        message.role = .assistant ∧ message.senderId = none) := by
  cases h with
  | useCase hr h =>
      rw [posts_useCase] at hmessage
      exact absurd hmessage List.not_mem_nil
  | @send r call _ _ hr h =>
      refine ⟨r, hr, ?_⟩
      rw [hr] at hcall
      unfold Call.posts at hmessage
      split at hmessage
      · unfold ExchangeCall.commits at hmessage
        split at hmessage
        · obtain rfl := List.mem_singleton.1 hmessage
          obtain ⟨hrole, hconversation, hsender⟩ := hcall
          exact ⟨hconversation, rfl, .inl ⟨hrole, hsender, rfl⟩⟩
        · obtain rfl := List.mem_singleton.1 hmessage
          obtain ⟨hrole, hconversation, hsender⟩ := hcall
          exact ⟨hconversation, rfl, .inr ⟨hrole, hsender⟩⟩
        · exact absurd hmessage List.not_mem_nil
      · exact absurd hmessage List.not_mem_nil

/-- What others can see of a step: the commit of a use case, or at most a message. -/
theorem RequestMove.visible (h : RequestMove request i D step call D' call') :
    (((∀ c, D'.row c = D.row c) ∧ D'.participants.rows = D.participants.rows) ∧
        D'.log = D.log ++ (call.posts step).map Commit.posted) ∨
      ∃ r effect, request i = .useCase r ∧ (step = .commit ∧ call = .useCase (.written effect)) ∧
        D' = { D.commit i with log := D.log ++ [.useCase r effect] } := by
  cases h with
  | @useCase r _ _ _ hr h =>
      rcases h.quiet_or_commits with ⟨hrow, hmembers, hlog⟩ | ⟨effect, ⟨rfl, rfl⟩, rfl⟩
      · refine .inl ⟨⟨hrow, hmembers⟩, ?_⟩
        simp [hlog, posts_useCase]
      · exact .inr ⟨r, effect, hr, ⟨rfl, rfl⟩, rfl⟩
  | send hr h =>
      left
      cases h with
      | reads => exact ⟨⟨fun _ => rfl, rfl⟩, by simp [Call.posts]⟩
      | checks h => exact ⟨⟨fun _ => rfl, rfl⟩, by simp [Call.posts]⟩
      | gives h => exact ⟨⟨fun _ => rfl, rfl⟩, by simp [Call.posts]⟩
      | exchanges _ h => exact ⟨⟨fun _ => rfl, rfl⟩, rfl⟩

end Step

/-! ## The steps of a send -/

/-- The check of a send. -/
def checkSteps : List (Bool × WorkspaceStep) := [(false, .start), (false, .readParticipants)]

/-- What the send does with the message once it is checked. -/
def postSteps : List (Bool × WorkspaceStep) :=
  [(false, .exchange (.user .findExisting)), (false, .exchange (.user (.draw ⟨10, 0⟩))),
    (false, .exchange (.user .flush)), (false, .exchange (.user .commit))]

end Dizzchat
