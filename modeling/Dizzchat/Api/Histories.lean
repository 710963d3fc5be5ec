import Dizzchat.Api.Requests
import Dizzchat.Identity.Authentication
import Dizzchat.Messaging.Authorization

set_option autoImplicit false

/-! # Histories of requests

Requests of the API one after the other, with what the sockets have the writer store in between. The two
contexts go their own ways: on the accounts a history does what its account calls do, on the
conversations what the store calls do that its users make (`server_refines`), so that what is known about
either of them holds here. What is new is what joins them: who has made a call, and that the ids which
the conversations keep of their users are ids of users. -/

namespace Dizzchat

/-! ## What a request does -/

section Handle

variable {services : ApiServices} {request : ApiRequest} {server server' : Server}
  {response : ApiResponse}

/-- The ways a request goes, one constructor for each: a call on the accounts, a call on the
    conversations by the user the token is taken for, the one route without a use case, or a refusal
    before anything is called. -/
inductive ApiRequest.Handled (services : ApiServices) (request : ApiRequest) (server : Server) :
    Server → ApiResponse → Prop
  | account {call : AccountCall} {accounts : Accounts} {answer : AccountAnswer}
      (haccount : request.accountCall = some call) (hvalid : request.operation.valid = true)
      (hattempt : call.attempt services.toIdentityServices server.accounts = .ok (accounts, answer)) :
      Handled services request server { server with accounts }
        ⟨request.operation.status, answer.body, []⟩
  | accountFails {call : AccountCall} {e : AccountError}
      (haccount : request.accountCall = some call) (hvalid : request.operation.valid = true)
      (hattempt : call.attempt services.toIdentityServices server.accounts = .error e) :
      Handled services request server server (e.response services.repr)
  | store {userId : UserId} {found : Option UUID} {call : StoreCall}
      {outcome : Except WriteError Response} {store : Store} (haccount : request.accountCall = none)
      (huser : request.getCurrentUser services = .ok userId) (hvalid : request.operation.valid = true)
      (houtside : request.outside services userId server = .ok found)
      (hcall : request.storeCall userId found = some call)
      (hattempt : call.attempt request.stored server.store = (store, outcome)) :
      Handled services request server { server with store } (request.answer services outcome)
  | currentUser {userId : UserId} (haccount : request.accountCall = none)
      (huser : request.getCurrentUser services = .ok userId)
      (hoperation : request.operation = .currentUser) :
      Handled services request server server ⟨200, .currentUser userId.value, []⟩
  | invalid (hvalid : request.operation.valid = false) :
      Handled services request server server .validationError
  | unauthorized {response : ApiResponse} (haccount : request.accountCall = none)
      (huser : request.getCurrentUser services = .error response) :
      Handled services request server server response
  | refused {userId : UserId} {e : WriteError} (haccount : request.accountCall = none)
      (huser : request.getCurrentUser services = .ok userId) (hvalid : request.operation.valid = true)
      (houtside : request.outside services userId server = .error e) :
      Handled services request server server (e.response services.repr)

theorem storeCall_eq_none {userId : UserId} {found : Option UUID}
    (haccount : request.accountCall = none) (hcall : request.storeCall userId found = none) :
    request.operation = .currentUser := by
  unfold ApiRequest.accountCall at haccount
  unfold ApiRequest.storeCall at hcall
  cases hoperation : request.operation <;>
    simp [hoperation, Operation.accountAction] at haccount hcall ⊢

theorem handle_handled (services : ApiServices) (request : ApiRequest) (server : Server) :
    request.Handled services server (request.handle services server).1
      (request.handle services server).2 := by
  unfold ApiRequest.handle
  cases haccount : request.accountCall with
  | some call =>
      simp only
      cases hvalid : request.operation.valid with
      | false => exact .invalid hvalid
      | true =>
          simp only [if_true]
          cases hattempt : call.attempt services.toIdentityServices server.accounts with
          | error e => exact .accountFails haccount hvalid hattempt
          | ok outcome => exact .account haccount hvalid hattempt
  | none =>
      simp only
      cases huser : request.getCurrentUser services with
      | error response => exact .unauthorized haccount huser
      | ok userId =>
          cases hvalid : request.operation.valid with
          | false => exact .invalid hvalid
          | true =>
              simp only [if_true, ApiRequest.handleAs]
              cases houtside : request.outside services userId server with
              | error e => exact .refused haccount huser hvalid houtside
              | ok found =>
                  simp only
                  cases hcall : request.storeCall userId found with
                  | none =>
                      have hoperation := storeCall_eq_none haccount hcall
                      rw [hoperation]
                      exact .currentUser haccount huser hoperation
                  | some call => exact .store haccount huser hvalid houtside hcall rfl

/-! ## All or nothing -/

theorem AccountError.status_mem (repr : String → String) (e : AccountError) :
    (e.response repr).status ∈ [401, 409, 422, 500] := by
  cases e with
  | user e =>
      cases e with
      | user e =>
          cases e <;> simp [AccountError.response, ApiResponse.ofIdentityError, UserError.statusByError]
      | emptyPasswordHash | multipleResultsFound | integrityError | failed =>
          simp [AccountError.response, ApiResponse.serverError]
  | token e =>
      cases e with
      | identity e => cases e; simp [AccountError.response, ApiResponse.ofIdentityError]
      | invalidCredentials | integrityError | rolledBack =>
          simp [AccountError.response, ApiResponse.serverError, ApiResponse.ofIdentityError,
            UserError.statusByError]

theorem WriteError.status_mem (repr : String → String) (e : WriteError) :
    (e.response repr).status ∈ [403, 404, 409, 422, 500] := by
  cases e with
  | messaging e =>
      cases e <;> simp [WriteError.response, ApiResponse.ofMessagingError, MessagingError.statusByError]
  | integrityError | failed => simp [WriteError.response, ApiResponse.serverError]

theorem getCurrentUser_status (h : request.getCurrentUser services = .error response) :
    response.status ∈ [401, 500] := by
  unfold ApiRequest.getCurrentUser at h
  cases hbearer : request.bearer with
  | none =>
      rw [hbearer] at h
      rw [← Except.error.inj h]
      simp [ApiResponse.ofIdentityError]
  | some token =>
      simp only [hbearer] at h
      split at h
      · cases h
      · rw [← Except.error.inj h]
        simp [ApiResponse.ofIdentityError]
      · rw [← Except.error.inj h]
        simp [ApiResponse.serverError]

theorem lastSeq_of_write {s s' : Store} {change : Change} (h : s.write change = some s') :
    s'.lastSeq = s.lastSeq := by
  have hinsert : ∀ {new : Finset ConversationParticipantModel} {s s' : Store},
      s.insertParticipants new = some s' → s'.lastSeq = s.lastSeq := by
    intro new s s' h
    unfold Store.insertParticipants at h
    split at h
    · rw [← Option.some.inj h]
    · cases h
  cases change with
  | create model members =>
      obtain ⟨t, hconversation, hmembers⟩ := Option.bind_eq_some_iff.1 h
      rw [hinsert hmembers]
      unfold Store.insertConversation at hconversation
      split at hconversation
      · rw [← Option.some.inj hconversation]
      · cases hconversation
  | update conversation =>
      simp only [Store.write] at h
      split at h
      · rw [← Option.some.inj h]
      · exact (Option.some.inj h) ▸ rfl
  | addParticipant member => exact hinsert h
  | removeParticipant | nothing => exact (Option.some.inj h) ▸ rfl

theorem lastSeq_of_run {request : UseCaseRequest} {s s' : Store} {response : Response}
    (h : request.run s = .ok (s', response)) : s'.lastSeq = s.lastSeq := by
  unfold UseCaseRequest.run at h
  simp only at h
  split at h
  · split at h
    · cases h
    · next hwrite =>
        cases h
        exact lastSeq_of_write hwrite
  · cases h
  · cases h

/-- The store calls of the API are no sends. -/
theorem storeCall_ne_send {userId : UserId} {found : Option UUID} {call : StoreCall}
    (hcall : request.storeCall userId found = some call) (send : SendRequest) (now : Datetime) :
    call ≠ .fromUser send now := by
  rintro rfl
  unfold ApiRequest.storeCall at hcall
  cases hoperation : request.operation <;> simp [hoperation] at hcall

/-- A call that fails leaves the store as it was, unless it is a send, which draws a number. -/
theorem attempt_eq_of_fails {call : StoreCall} {commits : Bool} {s s' : Store} {e : WriteError}
    (hcall : ∀ send now, call ≠ .fromUser send now) (h : call.attempt commits s = (s', .error e)) :
    s' = s := by
  have hreading : ∀ outcome : Except WriteError Response, call.run s = (s, outcome) → s' = s := by
    intro outcome hrun
    simp only [StoreCall.attempt, hrun] at h
    split at h
    · next hsame =>
        cases hsame
        cases h
        rfl
    · cases h
      rfl
  cases call with
  | fromUser send now => exact absurd rfl (hcall send now)
  | listConversations | listParticipants | getConversationHistory | ensureConversationAccess =>
      exact hreading _ rfl
  | useCase request =>
      cases hrun : request.run s with
      | error e' =>
          refine hreading (.error e') ?_
          simp only [StoreCall.run, hrun]
      | ok result =>
          obtain ⟨t, response⟩ := result
          simp only [StoreCall.attempt, StoreCall.run, hrun] at h
          cases commits with
          | true => cases h
          | false =>
              simp only [Prod.mk.injEq] at h
              rw [← h.1, lastSeq_of_run hrun]

theorem commits_of_attempt {call : StoreCall} {commits : Bool} {s s' : Store} {response : Response}
    (h : call.attempt commits s = (s', .ok response)) : commits = true := by
  unfold StoreCall.attempt at h
  split at h
  · cases h
  · next hcommits => exact Bool.eq_true_of_not_eq_false fun hfalse => hcommits s' response h hfalse

/-- The routes that only read. -/
def Operation.reads : Operation → Bool
  | .currentUser | .listConversations | .getConversationHistory .. | .listParticipants _ => true
  | .signup .. | .login .. | .refresh _ | .createConversation _ | .renameConversation ..
  | .deleteConversation _ | .restoreConversation _ | .addParticipant .. | .removeParticipant .. => false

theorem commits_of_accountCall {call : AccountCall} (h : request.accountCall = some call) :
    call.commits = request.commits := by
  obtain ⟨action, -, rfl⟩ := Option.map_eq_some_iff.1 h
  rfl

theorem not_reads_of_accountCall {call : AccountCall} (h : request.accountCall = some call) :
    request.operation.reads = false := by
  obtain ⟨action, haction, -⟩ := Option.map_eq_some_iff.1 h
  cases hoperation : request.operation <;> simp [hoperation, Operation.accountAction] at haction
  all_goals rfl

/-- The store is as it was after a call of a route that only reads. -/
theorem attempt_of_reads {userId : UserId} {found : Option UUID} {call : StoreCall} {commits : Bool}
    {s s' : Store} {outcome : Except WriteError Response} (hreads : request.operation.reads = true)
    (hcall : request.storeCall userId found = some call)
    (h : call.attempt commits s = (s', outcome)) : s' = s := by
  have hrun : ∃ outcome, call.run s = (s, outcome) := by
    unfold ApiRequest.storeCall at hcall
    cases hoperation : request.operation <;>
      simp only [hoperation, Operation.reads, Bool.false_eq_true, reduceCtorEq,
        Option.some.injEq] at hreads hcall
    all_goals
      subst hcall
      exact ⟨_, rfl⟩
  obtain ⟨outcome', hrun⟩ := hrun
  unfold StoreCall.attempt at h
  rw [hrun] at h
  split at h
  · next heq =>
      cases heq
      cases h
      rfl
  · cases h
    rfl

/-- A request is answered with the status of its route, and then its parameters are valid and its
    transaction is committed, or with one of six others, and then everything is as it was. -/
theorem handle_atomic (services : ApiServices) (request : ApiRequest) (server : Server) :
    let (server', response) := request.handle services server
    (response.status = request.operation.status ∧
        (request.operation = .currentUser ∨
          request.operation.valid = true ∧ request.commits = true) ∧
        (request.operation.reads = true → server' = server)) ∨
      (response.status ∈ [401, 403, 404, 409, 422, 500] ∧ server' = server) := by
  have hhandled := handle_handled services request server
  generalize request.handle services server = result at hhandled
  obtain ⟨server', response⟩ := result
  simp only at hhandled ⊢
  cases hhandled with
  | @account call accounts answer haccount hvalid hattempt =>
      refine .inl ⟨rfl, .inr ⟨hvalid, ?_⟩, fun hreads => ?_⟩
      · rw [← commits_of_accountCall haccount]
        exact (attempt_eq_ok.1 hattempt).2
      · rw [not_reads_of_accountCall haccount] at hreads
        cases hreads
  | @accountFails call e =>
      have hsubset : [401, 409, 422, 500] ⊆ [401, 403, 404, 409, 422, 500] := by decide
      exact .inr ⟨hsubset (e.status_mem services.repr), rfl⟩
  | @store userId found call outcome store haccount huser hvalid houtside hcall hattempt =>
      cases outcome with
      | ok response =>
          have hstored : request.stored = true := commits_of_attempt hattempt
          have hcommits : request.commits = true := (Bool.and_eq_true_iff.1 hstored).2
          refine .inl ⟨rfl, .inr ⟨hvalid, hcommits⟩, fun hreads => ?_⟩
          rw [attempt_of_reads hreads hcall hattempt]
      | error e =>
          refine .inr ⟨List.mem_cons_of_mem _ (e.status_mem services.repr), ?_⟩
          rw [attempt_eq_of_fails (storeCall_ne_send hcall) hattempt]
  | currentUser _ _ hoperation =>
      rw [hoperation]
      exact .inl ⟨rfl, .inl rfl, fun _ => rfl⟩
  | invalid => exact .inr ⟨by decide, rfl⟩
  | unauthorized _ huser =>
      have hsubset : [401, 500] ⊆ [401, 403, 404, 409, 422, 500] := by decide
      exact .inr ⟨hsubset (getCurrentUser_status huser), rfl⟩
  | @refused userId e => exact .inr ⟨List.mem_cons_of_mem _ (e.status_mem services.repr), rfl⟩

end Handle

/-! ## Histories -/

/-- A request, or what an open socket has the writer store. -/
inductive ServerCall
  | http (request : ApiRequest)
  | send (request : SendRequest) (now : Datetime) (commits : Bool)
deriving DecidableEq

/-- The call on the conversations that a request comes to, if it comes so far. -/
def ApiRequest.reaches (services : ApiServices) (request : ApiRequest) (server : Server) :
    Option StoreCall :=
  match request.accountCall, request.getCurrentUser services with
  | none, .ok userId =>
      if request.operation.valid then
        match request.outside services userId server with
        | .ok found => request.storeCall userId found
        | .error _ => none
      else none
  | _, _ => none

namespace ServerCall

variable (services : ApiServices)

def run (server : Server) : ServerCall → Server
  | .http request => (request.handle services server).1
  | .send request now commits =>
      { server with store := ((StoreCall.fromUser request now).attempt commits server.store).1 }

/-- The tables after some calls, the last one first. -/
def after : List ServerCall → Server
  | [] => ⟨⟨[], []⟩, Store.empty⟩
  | call :: past => call.run services (after past)

/-- The calls on the accounts among them. -/
def accountCalls : List ServerCall → List AccountCall
  | [] => []
  | .http request :: past =>
      if request.operation.valid then request.accountCall.toList ++ accountCalls past
      else accountCalls past
  | .send .. :: past => accountCalls past

/-- The calls on the conversations that they come to, with whether what they write is stored. -/
def storeCalls : List ServerCall → List (StoreCall × Bool)
  | [] => []
  | .http request :: past =>
      ((request.reaches services (after services past)).map fun call =>
        (call, request.stored)).toList ++ storeCalls past
  | .send request now commits :: past => (.fromUser request now, commits) :: storeCalls past

end ServerCall

section Histories

variable {services : ApiServices} {request : ApiRequest} {server : Server} {calls past : List ServerCall}

/-- On the accounts a request does what its account call does. -/
theorem handle_accounts (services : ApiServices) (request : ApiRequest) (past : List ServerCall)
    (h : server.accounts = AccountCall.accounts services.toIdentityServices
      (ServerCall.accountCalls past)) :
    (request.handle services server).1.accounts = AccountCall.accounts services.toIdentityServices
      (ServerCall.accountCalls (.http request :: past)) := by
  rw [ServerCall.accountCalls]
  have hhandled := handle_handled services request server
  generalize request.handle services server = result at hhandled ⊢
  obtain ⟨server', response⟩ := result
  simp only at hhandled ⊢
  cases hhandled with
  | @account call accounts answer haccount hvalid hattempt =>
      rw [h] at hattempt
      simp [hvalid, haccount, AccountCall.accounts, hattempt]
  | @accountFails call e haccount hvalid hattempt =>
      rw [h] at hattempt
      simp [hvalid, haccount, AccountCall.accounts, hattempt, h]
  | invalid hvalid => simp [hvalid, h]
  | store haccount | currentUser haccount | unauthorized haccount | refused haccount =>
      simp [haccount, h]

/-- On the conversations a request does what the store call does that it comes to. -/
theorem handle_store (services : ApiServices) (request : ApiRequest) (server : Server) :
    (request.handle services server).1.store = match request.reaches services server with
      | none => server.store
      | some call => (call.attempt request.stored server.store).1 := by
  have hhandled := handle_handled services request server
  unfold ApiRequest.reaches
  generalize request.handle services server = result at hhandled ⊢
  obtain ⟨server', response⟩ := result
  simp only at hhandled ⊢
  cases hhandled with
  | account haccount | accountFails haccount => simp [haccount]
  | store haccount huser hvalid houtside hcall hattempt =>
      simp [haccount, huser, hvalid, houtside, hcall, hattempt]
  | @currentUser userId haccount huser hoperation =>
      have houtside : request.outside services userId server = .ok none := by
        rw [ApiRequest.outside, hoperation]
      have hcall : request.storeCall userId none = none := by
        rw [ApiRequest.storeCall, hoperation]
      cases hvalid : request.operation.valid <;> simp [haccount, huser, houtside, hcall]
  | invalid hvalid =>
      cases request.accountCall <;> cases request.getCurrentUser services <;> simp [hvalid]
  | unauthorized haccount huser => simp [haccount, huser]
  | refused haccount huser hvalid houtside => simp [haccount, huser, hvalid, houtside]

theorem after_append (s : Store) (calls calls' : List (StoreCall × Bool)) :
    s.after (calls ++ calls') = (s.after calls).after calls' := by
  induction calls generalizing s with
  | nil => rfl
  | cons e calls ih => exact ih _

theorem after_accounts (services : ApiServices) (calls : List ServerCall) :
    (ServerCall.after services calls).accounts = AccountCall.accounts services.toIdentityServices
      (ServerCall.accountCalls calls) := by
  induction calls with
  | nil => rfl
  | cons call past ih =>
      cases call with
      | http request => exact handle_accounts services request past ih
      | send => exact ih

theorem after_store (services : ApiServices) (calls : List ServerCall) :
    (ServerCall.after services calls).store =
      Store.empty.after (ServerCall.storeCalls services calls).reverse := by
  induction calls with
  | nil => rfl
  | cons call past ih =>
      cases call with
      | http request =>
          show (request.handle services (ServerCall.after services past)).1.store = _
          rw [handle_store, ServerCall.storeCalls]
          cases request.reaches services (ServerCall.after services past) with
          | none => exact ih
          | some call =>
              rw [Option.map_some, Option.toList_some, List.cons_append, List.nil_append,
                List.reverse_cons, after_append, ← ih]
              rfl
      | send request now commits =>
          rw [ServerCall.storeCalls, List.reverse_cons, after_append, ← ih]
          rfl

/-- The accounts are as the account calls leave them, and the conversations as the store calls do. -/
theorem server_refines (services : ApiServices) (calls : List ServerCall) :
    (ServerCall.after services calls).accounts = AccountCall.accounts services.toIdentityServices
        (ServerCall.accountCalls calls) ∧
      (ServerCall.after services calls).store =
        Store.empty.after (ServerCall.storeCalls services calls).reverse :=
  ⟨after_accounts services calls, after_store services calls⟩

/-! ## Who has made a call -/

/-- The token that comes with the request is alive, and the user has been handed it. -/
def ApiRequest.From (services : ApiServices) (past : List ServerCall) (request : ApiRequest)
    (userId : UserId) : Prop :=
  ∃ pair issued, HandedTo services.toIdentityServices (ServerCall.accountCalls past) userId pair issued ∧
    request.bearer = some pair.accessToken ∧
    services.tokenService.Live issued request.decodedAt

/-- Nobody presents a token that they have forged: one that verifies has been handed out. -/
def Unforged (services : ApiServices) : List ServerCall → Prop
  | [] => True
  | .http request :: past =>
      (∀ token, request.bearer = some token → ∀ payload,
        services.tokenService.jwt.decode request.decodedAt token services.tokenService.secretKey =
          some payload →
        token ∈ AccountCall.accessTokens services.toIdentityServices (ServerCall.accountCalls past)) ∧
      Unforged services past
  | .send .. :: past => Unforged services past

/-- What is relied on outside of the service: PyJWT reads its tokens back, hashes do not
    collide, and tokens are not forged. -/
structure Trusted (services : ApiServices) (calls : List ServerCall) : Prop where
  normalizes : services.Normalizes
  readsBack : services.tokenService.jwt.ReadsBack services.tokenService.secretKey
  apart : NoCollision services.toIdentityServices (ServerCall.accountCalls calls)
  unforged : Unforged services calls

theorem NoCollision.of_append {services : IdentityServices} {later past : List AccountCall}
    (h : NoCollision services (later ++ past)) : NoCollision services past := by
  induction later with
  | nil => exact h
  | cons call later ih => exact ih h.of_cons

theorem accountCalls_cons (call : ServerCall) (past : List ServerCall) :
    ∃ new, ServerCall.accountCalls (call :: past) = new ++ ServerCall.accountCalls past := by
  cases call with
  | http request =>
      rw [ServerCall.accountCalls]
      split
      · exact ⟨_, rfl⟩
      · exact ⟨[], rfl⟩
  | send => exact ⟨[], rfl⟩

theorem accountCalls_of_none {request : ApiRequest} (h : request.accountCall = none)
    (past : List ServerCall) :
    ServerCall.accountCalls (.http request :: past) = ServerCall.accountCalls past := by
  rw [ServerCall.accountCalls, h, Option.toList_none, List.nil_append, ite_self]

theorem Trusted.of_cons {call : ServerCall} (h : Trusted services (call :: past)) :
    Trusted services past where
  normalizes := h.normalizes
  readsBack := h.readsBack
  apart := by
    obtain ⟨new, hnew⟩ := accountCalls_cons call past
    have happart := h.apart
    rw [hnew] at happart
    exact happart.of_append
  unforged := by
    cases call with
    | http => exact h.unforged.2
    | send => exact h.unforged

theorem Trusted.of_append {later : List ServerCall} (h : Trusted services (later ++ past)) :
    Trusted services past := by
  induction later with
  | nil => exact h
  | cons call later ih => exact ih h.of_cons

/-- A request is let in as the request of a user exactly if it comes from the user. -/
theorem getCurrentUser_iff (h : Trusted services (.http request :: past)) {userId : UserId} :
    request.getCurrentUser services = .ok userId ↔ request.From services past userId := by
  have hjwt := h.readsBack
  have happart := h.of_cons.apart
  unfold ApiRequest.getCurrentUser ApiRequest.From
  cases hbearer : request.bearer with
  | none => simp
  | some token =>
      constructor
      · intro hcurrent
        simp only at hcurrent
        split at hcurrent
        · next user huser =>
            obtain rfl := Except.ok.inj hcurrent
            obtain ⟨pair, issued, hhanded, rfl, hlive⟩ :=
              handed_of_decodeAccess h.normalizes hjwt happart (h.unforged.1 token hbearer) huser
            exact ⟨pair, issued, hhanded, rfl, hlive⟩
        · cases hcurrent
        · cases hcurrent
      · rintro ⟨pair, issued, hhanded, htoken, hlive⟩
        obtain rfl := Option.some.inj htoken
        simp only [hhanded.decodeAccess h.normalizes hjwt happart hlive]

theorem reaches_eq_some {call : StoreCall} (h : request.reaches services server = some call) :
    ∃ userId found, request.accountCall = none ∧ request.getCurrentUser services = .ok userId ∧
      request.operation.valid = true ∧ request.outside services userId server = .ok found ∧
      request.storeCall userId found = some call := by
  unfold ApiRequest.reaches at h
  split at h
  · next userId haccount huser =>
      split at h
      · next hvalid =>
          split at h
          · next found houtside => exact ⟨userId, found, haccount, huser, hvalid, houtside, h⟩
          · cases h
      · cases h
  · cases h

/-- The calls on the conversations that come after some calls are sends, or requests come to them. -/
theorem storeCalls_append (services : ApiServices) (later past : List ServerCall) :
    ∃ new, ServerCall.storeCalls services (later ++ past) = new ++ ServerCall.storeCalls services past ∧
      ∀ call commits, (call, commits) ∈ new →
        (∃ after request before, later = after ++ .http request :: before ∧
          request.reaches services (ServerCall.after services (before ++ past)) = some call) ∨
        ∃ send now, call = .fromUser send now := by
  induction later with
  | nil => exact ⟨[], rfl, fun _ _ h => by cases h⟩
  | cons first later ih =>
      obtain ⟨new, hnew, hmem⟩ := ih
      have holder : ∀ call commits, (call, commits) ∈ new →
          (∃ after request before, first :: later = after ++ .http request :: before ∧
            request.reaches services (ServerCall.after services (before ++ past)) = some call) ∨
          ∃ send now, call = .fromUser send now := by
        intro call commits h
        rcases hmem call commits h with ⟨after, request, before, rfl, hreaches⟩ | hsend
        · exact .inl ⟨first :: after, request, before, rfl, hreaches⟩
        · exact .inr hsend
      cases first with
      | http request =>
          refine ⟨((request.reaches services (ServerCall.after services (later ++ past))).map
            fun call => (call, request.stored)).toList ++ new, ?_, fun call commits h => ?_⟩
          · rw [List.cons_append, ServerCall.storeCalls, hnew, List.append_assoc]
          · rcases List.mem_append.1 h with h | h
            · obtain ⟨reached, hreaches, heq⟩ := Option.map_eq_some_iff.1 (Option.mem_toList.1 h)
              obtain ⟨rfl, rfl⟩ := Prod.mk.inj heq
              exact .inl ⟨[], request, later, rfl, hreaches⟩
            · exact holder call commits h
      | send request now commits' =>
          refine ⟨(.fromUser request now, commits') :: new, ?_, fun call commits h => ?_⟩
          · rw [List.cons_append, ServerCall.storeCalls, hnew]
            rfl
          · rcases List.mem_cons.1 h with heq | h
            · exact .inr ⟨request, now, (Prod.mk.inj heq).1⟩
            · exact holder call commits h

theorem mem_of_succeeded {s : Store} {calls : List (StoreCall × Bool)} {r : UseCaseRequest}
    (h : r ∈ s.succeeded calls) : ∃ commits, (.useCase r, commits) ∈ calls := by
  induction calls generalizing s with
  | nil => cases h
  | cons e calls ih =>
      obtain ⟨call, commits⟩ := e
      have holder : ∀ {s : Store}, r ∈ s.succeeded calls →
          ∃ commits', (.useCase r, commits') ∈ (call, commits) :: calls := by
        intro s hmem
        obtain ⟨commits', hcommits'⟩ := ih hmem
        exact ⟨commits', List.mem_cons_of_mem _ hcommits'⟩
      simp only [Store.succeeded] at h
      split at h
      · rcases List.mem_cons.1 h with rfl | hmem
        · exact ⟨commits, List.mem_cons_self⟩
        · exact holder hmem
      · exact holder h

/-- A use case is called for the user the request comes from. -/
theorem useCase_actor {userId : UserId} {found : Option UUID} {r : UseCaseRequest}
    (h : request.storeCall userId found = some (.useCase r)) : r.actorId = userId.value := by
  unfold ApiRequest.storeCall at h
  cases hoperation : request.operation <;>
    simp only [hoperation, reduceCtorEq, Option.some.injEq, StoreCall.useCase.injEq] at h
  all_goals
    rw [← h]

def plainApi : ApiServices := { plainServices with repr := fun value => "'" ++ value ++ "'" }

def adaToken : String := plainServices.tokenService.issueAccess ⟨1⟩ ⟨6000000, 0⟩

/-- A request at a moment, which may draw an id and a jti. -/
def someRequest (operation : Operation) (bearer : Option String) (instant : ℤ) (drawnId : UUID)
    (newJti : String) : ApiRequest :=
  ⟨operation, bearer, ⟨instant, 0⟩, ⟨instant, 0⟩, ⟨instant, 0⟩, drawnId, "salt", newJti, "s", true⟩

/-- Ada signs up and logs in. -/
def adaHistory : List ServerCall :=
  [.http (someRequest (.login "ada@example.org" "hunter2") none 6000000 0 "j"),
    .http (someRequest (.signup "ada@example.org" "hunter2") none 5000000 1 "")]

def adaCreates : ApiRequest := someRequest (.createConversation "Team") (some adaToken) 7000000 7 ""

theorem ada_trusted {request : ApiRequest} (hpublic : request.accountCall = none)
    (hbearer : request.bearer = some adaToken) :
    Trusted plainApi (.http request :: adaHistory) where
  normalizes := plainServices_normalizes
  readsBack := plainJwt_readsBack _
  apart := by
    have hcalls := accountCalls_of_none hpublic adaHistory
    rw [hcalls]
    exact plain_noCollision (by decide +kernel)
  unforged := by
    refine ⟨fun token htoken _ _ => ?_, fun token htoken => ?_, fun token htoken => ?_, trivial⟩
    · obtain rfl := Option.some.inj (hbearer.symm.trans htoken)
      decide +kernel
    · cases htoken
    · cases htoken

theorem adaCreates_trusted : Trusted plainApi ([.http adaCreates] ++ adaHistory) :=
  ada_trusted rfl rfl

/-- Between any two moments of a history, what changes about the conversations is the doing of requests
    that come from a user who may change it: from the owner, or, where a member leaves, from the member. -/
theorem changes_attributed {later past : List ServerCall} (h : Trusted services (later ++ past)) :
    ∃ requests, Attributed (ServerCall.after services past).store
        (ServerCall.after services (later ++ past)).store requests ∧
      ∀ r ∈ requests, ∃ after request before userId, later = after ++ .http request :: before ∧
        request.From services (before ++ past) userId ∧ r.actorId = userId.value ∧
        request.reaches services (ServerCall.after services (before ++ past)) =
          some (.useCase r) := by
  obtain ⟨new, hnew, hmem⟩ := storeCalls_append services later past
  have hstore : (ServerCall.after services (later ++ past)).store =
      (ServerCall.after services past).store.after new.reverse := by
    rw [after_store services, after_store services past, hnew, List.reverse_append,
      after_append]
  refine ⟨_, hstore ▸ attributed_after _ new.reverse, fun r hr => ?_⟩
  obtain ⟨commits, hcall⟩ := mem_of_succeeded hr
  rcases hmem _ commits (List.mem_reverse.1 hcall) with
    ⟨after, request, before, rfl, hreaches⟩ | ⟨send, now, hsend⟩
  · obtain ⟨userId, found, -, huser, -, -, hstoreCall⟩ := reaches_eq_some hreaches
    have htrusted : Trusted services (.http request :: (before ++ past)) := by
      rw [List.append_assoc, List.cons_append] at h
      exact h.of_append
    exact ⟨after, request, before, userId, rfl, (getCurrentUser_iff htrusted).1 huser,
      useCase_actor hstoreCall, hreaches⟩
  · cases hsend

theorem changes_attributed_created :
    ∃ requests, Attributed (ServerCall.after plainApi adaHistory).store
        (ServerCall.after plainApi ([.http adaCreates] ++ adaHistory)).store requests ∧
      ∀ r ∈ requests, ∃ after request before userId,
        [ServerCall.http adaCreates] = after ++ .http request :: before ∧
        request.From plainApi (before ++ adaHistory) userId ∧ r.actorId = userId.value ∧
        request.reaches plainApi (ServerCall.after plainApi (before ++ adaHistory)) =
          some (.useCase r) :=
  changes_attributed adaCreates_trusted

/-! ## The users of the conversations -/

/-- Every id that the conversations keep of a user is the id of a user: an owner, a participant, the
    sender of a message. No foreign key says so. -/
structure Server.UsersExist (server : Server) : Prop where
  owners : ∀ c row, server.store.row c = some row →
    ∃ user ∈ server.accounts.users, user.id = row.ownerId.value
  members : ∀ c p, p ∈ server.store.participantsOf c →
    ∃ user ∈ server.accounts.users, user.id = p.value
  senders : ∀ message ∈ server.store.messages, ∀ senderId, message.senderId = some senderId →
    ∃ user ∈ server.accounts.users, user.id = senderId.value

/-- A user who has been handed a token has signed up. -/
theorem HandedTo.signedUp {services : IdentityServices} {calls : List AccountCall} {userId : UserId}
    {pair : TokenPair} {issued : Datetime} (h : HandedTo services calls userId pair issued) :
    ∃ signedUp ∈ AccountCall.signUps services calls, userId = ⟨signedUp.userId⟩ := by
  induction h with
  | login _ hsignedUp => exact ⟨_, signUps_mem_cons hsignedUp, rfl⟩
  | refresh _ _ _ ih | older _ ih =>
      obtain ⟨signedUp, hmem, huser⟩ := ih
      exact ⟨signedUp, signUps_mem_cons hmem, huser⟩

theorem ApiRequest.From.user {userId : UserId} (h : Trusted services past)
    (hfrom : request.From services past userId) :
    ∃ user ∈ (ServerCall.after services past).accounts.users, user.id = userId.value := by
  obtain ⟨pair, issued, hhanded, -, -⟩ := hfrom
  obtain ⟨signedUp, hmem, rfl⟩ := hhanded.signedUp
  rw [after_accounts services past]
  exact ⟨_, (accounts_inv h.normalizes _).mem hmem, rfl⟩

theorem select_row {lower : String → String} {address : Email} {users : List UserModel} {user : User}
    (h : UserRepository.select lower address users = .ok (some user)) :
    ∃ row ∈ users, row.id = user.id.value := by
  unfold UserRepository.select at h
  split at h
  case isFalse => cases h
  unfold UserRepository.getByEmail at h
  split at h
  · cases h
  · next model hmatching =>
      have hmodel : model ∈ users :=
        List.mem_of_mem_filter (hmatching ▸ List.mem_singleton_self model)
      obtain ⟨stored, hdomain, hstored⟩ := bind_eq_ok.1 h
      obtain rfl := Option.some.inj (Except.ok.inj hstored)
      obtain ⟨email, -, hrest⟩ := bind_eq_ok.1 hdomain
      split at hrest
      · cases hrest
      · obtain rfl := pure_eq_ok.1 hrest
        exact ⟨model, hmodel, rfl⟩
  · cases h

/-- The directory answers with the id of a user. -/
theorem directory_user {email : String} {users : List UserModel} {lower : String → String} {found : UUID}
    (h : IdentityUserDirectory.findIdByEmail lower email users = .ok (some found)) :
    ∃ user ∈ users, user.id = found := by
  unfold IdentityUserDirectory.findIdByEmail at h
  split at h
  · cases h
  · next address haddress =>
      split at h
      · cases h
      · next user huser =>
          obtain ⟨stored, rfl, rfl⟩ := Option.map_eq_some_iff.1 (Except.ok.inj h)
          exact select_row huser

theorem users_mono {services : IdentityServices} {call : AccountCall} {tables tables' : Accounts}
    {answer : AccountAnswer} (h : call.attempt services tables = .ok (tables', answer)) {user : UserModel}
    (huser : user ∈ tables.users) : user ∈ tables'.users := by
  rcases tokenCall_of_attempt h with ⟨email, password, haction⟩ | ⟨tokenCall, hcall⟩
  · obtain ⟨users, stored, hregister, rfl, -⟩ := (run_signUp haction).1 (attempt_eq_ok.1 h).1
    obtain ⟨_, -, -, -, -, rfl⟩ := register_eq_ok.1 hregister
    exact List.mem_append_left _ huser
  · rw [(tokenCall_users hcall h).1]
    exact huser

/-- A send leaves the conversations and their participants alone, and adds a message of its sender if the
    sender may post. -/
theorem attempt_send (send : SendRequest) (now : Datetime) (commits : Bool) {s s' : Store}
    {outcome : Except WriteError Response}
    (h : (StoreCall.fromUser send now).attempt commits s = (s', outcome)) :
    (∀ c, s'.row c = s.row c) ∧ (∀ c, s'.participantsOf c = s.participantsOf c) ∧
      ∀ message ∈ s'.messages, message ∈ s.messages ∨ message.senderId = some send.senderId ∧
        PostMessage.ensureMayPost send (s.get send.conversationId) = .ok () := by
  unfold StoreCall.attempt at h
  split at h
  · obtain ⟨rfl, -⟩ := Prod.mk.inj h
    exact ⟨fun _ => rfl, fun _ => rfl, fun _ hmessage => .inl hmessage⟩
  · replace h : PostMessage.fromUser send now s = (s', outcome) := h
    unfold PostMessage.fromUser at h
    split at h
    · obtain ⟨rfl, -⟩ := Prod.mk.inj h
      exact ⟨fun _ => rfl, fun _ => rfl, fun _ hmessage => .inl hmessage⟩
    · next hmay =>
        simp only at h
        split at h
        · obtain ⟨rfl, -⟩ := Prod.mk.inj h
          exact ⟨fun _ => rfl, fun _ => rfl, fun _ hmessage => .inl hmessage⟩
        · split at h
          · obtain ⟨rfl, -⟩ := Prod.mk.inj h
            exact ⟨fun _ => rfl, fun _ => rfl, fun _ hmessage => .inl hmessage⟩
          · next hinsert =>
              obtain ⟨rfl, -⟩ := Prod.mk.inj h
              unfold Store.insertMessage at hinsert
              split at hinsert
              · obtain rfl := Option.some.inj hinsert
                refine ⟨fun _ => rfl, fun _ => rfl, fun message hmessage => ?_⟩
                rcases List.mem_append.1 hmessage with hmessage | hmessage
                · exact .inl hmessage
                · rw [List.mem_singleton.1 hmessage]
                  exact .inr ⟨rfl, hmay⟩
              · cases hinsert

/-- What a use case leaves of the owners, the participants and the messages. -/
theorem useCase_users {r : UseCaseRequest} {s s' : Store} {response : Response}
    (h : r.run s = .ok (s', response)) :
    (∀ c row, s'.row c = some row →
      (∃ old, s.row c = some old ∧ old.ownerId = row.ownerId) ∨ row.ownerId.value = r.actorId) ∧
    (∀ c p, p ∈ s'.participantsOf c → p ∈ s.participantsOf c ∨ p.value = r.actorId ∨
      ∃ email, r.useCase = .addParticipant email (some p.value)) ∧ s'.messages = s.messages := by
  obtain ⟨change, haccepts, -, hwrites⟩ := run_eq_ok h
  refine ⟨fun c row hrow => ?_, fun c p hp => ?_, ?_⟩
  · have hsame : s'.row c = s.row c →
        (∃ old, s.row c = some old ∧ old.ownerId = row.ownerId) ∨ row.ownerId.value = r.actorId :=
      fun heq => .inl ⟨row, heq ▸ hrow, rfl⟩
    have hupdate : ∀ {conversation : Conversation}, s.Writes (.update conversation) s' →
        (∃ old, s.row c = some old ∧ old.ownerId = row.ownerId) ∨ row.ownerId.value = r.actorId := by
      intro conversation hwrites
      cases hwrites with
      | updateNone => exact hsame rfl
      | @update _ old _ hfound hrows =>
          rw [hrows] at hrow
          split at hrow
          · next hc => exact .inl ⟨old, hc ▸ hfound, by rw [← Option.some.inj hrow]; rfl⟩
          · exact .inl ⟨row, hrow, rfl⟩
    generalize s.row r.conversationId = read at haccepts
    cases haccepts with
    | create huse htitle =>
        cases hwrites with
        | create _ hrows =>
            rw [hrows] at hrow
            split at hrow
            · exact .inr (by rw [← Option.some.inj hrow]; rfl)
            · exact .inl ⟨row, hrow, rfl⟩
    | rename | delete | restore => exact hupdate hwrites
    | add =>
        cases hwrites with
        | addParticipant hrows => exact hsame (hrows c)
    | addAgain =>
        cases hwrites with
        | nothing => exact hsame rfl
    | remove =>
        cases hwrites with
        | removeParticipant => exact hsame rfl
  · by_cases hold : p ∈ s.participantsOf c
    · exact .inl hold
    · obtain ⟨_, -, r', hr', -, hadmits⟩ := (haccepts.attributed hwrites).admitted c p hold hp
      obtain rfl := List.mem_singleton.1 hr'
      right
      unfold UseCaseRequest.Admits at hadmits
      cases huse : r'.useCase with
      | create => exact .inl (by simpa [huse] using hadmits)
      | addParticipant email userId =>
          simp only [huse] at hadmits
          exact .inr ⟨email, by rw [hadmits]⟩
      | rename | delete | restore | removeParticipant => simp [huse] at hadmits
  · cases hwrites with
    | create _ _ _ hmessages | update _ _ _ hmessages | addParticipant _ _ hmessages => exact hmessages
    | updateNone | removeParticipant | nothing => rfl

/-- The users of a server whose store has changed stay users, if the new ids are ids of users. -/
theorem Server.UsersExist.store {s' : Store} (h : server.UsersExist)
    (hrows : ∀ c row, s'.row c = some row →
      (∃ old, server.store.row c = some old ∧ old.ownerId = row.ownerId) ∨
        ∃ user ∈ server.accounts.users, user.id = row.ownerId.value)
    (hmembers : ∀ c p, p ∈ s'.participantsOf c → p ∈ server.store.participantsOf c ∨
      ∃ user ∈ server.accounts.users, user.id = p.value)
    (hmessages : ∀ message ∈ s'.messages, message ∈ server.store.messages ∨
      ∀ senderId, message.senderId = some senderId →
        ∃ user ∈ server.accounts.users, user.id = senderId.value) :
    Server.UsersExist { server with store := s' } where
  owners c row hrow := by
    rcases hrows c row hrow with ⟨old, hold, howner⟩ | huser
    · rw [← howner]
      exact h.owners c old hold
    · exact huser
  members c p hp := (hmembers c p hp).elim (h.members c p) id
  senders message hmessage senderId hsender := by
    rcases hmessages message hmessage with hold | hnew
    · exact h.senders message hold senderId hsender
    · exact hnew senderId hsender

theorem Server.UsersExist.accounts {accounts : Accounts} (h : server.UsersExist)
    (husers : ∀ user ∈ server.accounts.users, user ∈ accounts.users) :
    Server.UsersExist { server with accounts } where
  owners c row hrow := (h.owners c row hrow).imp fun user huser => ⟨husers user huser.1, huser.2⟩
  members c p hp := (h.members c p hp).imp fun user huser => ⟨husers user huser.1, huser.2⟩
  senders message hmessage senderId hsender :=
    (h.senders message hmessage senderId hsender).imp fun user huser => ⟨husers user huser.1, huser.2⟩

/-- Who is invited is a user. -/
theorem invited_user {userId : UserId} {found : Option UUID} {r : UseCaseRequest} {email : String}
    {p : UUID} (houtside : request.outside services userId server = .ok found)
    (hcall : request.storeCall userId found = some (.useCase r))
    (huse : r.useCase = .addParticipant email (some p)) :
    ∃ user ∈ server.accounts.users, user.id = p := by
  unfold ApiRequest.storeCall at hcall
  cases hoperation : request.operation <;>
    simp only [hoperation, reduceCtorEq, Option.some.injEq, StoreCall.useCase.injEq] at hcall
  all_goals
    subst hcall
    cases huse
  unfold ApiRequest.outside at houtside
  simp only [hoperation] at houtside
  split at houtside
  · cases houtside
  · exact directory_user (mapError_eq_ok.1 houtside)

/-- After every history the ids of users in the tables of the conversations are ids of users. -/
theorem users_exist (h : Trusted services calls) : (ServerCall.after services calls).UsersExist := by
  induction calls with
  | nil =>
      refine ⟨fun c row hrow => ?_, fun c p hp => ?_, fun message hmessage => ?_⟩
      · cases hrow
      · simp [ServerCall.after, Store.empty] at hp
      · cases hmessage
  | cons call past ih =>
      have hpast := ih h.of_cons
      cases call with
      | http request =>
          show (request.handle services (ServerCall.after services past)).1.UsersExist
          have hhandled := handle_handled services request (ServerCall.after services past)
          generalize request.handle services (ServerCall.after services past) = result at hhandled ⊢
          obtain ⟨server', response⟩ := result
          simp only at hhandled ⊢
          cases hhandled with
          | account _ _ hattempt => exact hpast.accounts fun user huser => users_mono hattempt huser
          | accountFails | currentUser | invalid | unauthorized | refused => exact hpast
          | @store userId found call outcome store haccount huser hvalid houtside hcall hattempt =>
              have hcaller := ((getCurrentUser_iff h).1 huser).user h.of_cons
              have hleaves := attempt_leaves call request.stored (ServerCall.after services past).store
              rw [hattempt] at hleaves
              cases hleaves with
              | posts => exact absurd rfl (storeCall_ne_send hcall _ _)
              | nothing _ hsame =>
                  obtain ⟨hconversations, hparticipants, hmessages⟩ := hsame
                  refine hpast.store (fun c row hrow => ?_) (fun c p hp => ?_) fun message hmessage => ?_
                  · exact .inl ⟨row, Store.row_congr hconversations c ▸ hrow, rfl⟩
                  · exact .inl (Store.participantsOf_congr hparticipants c ▸ hp)
                  · exact .inl (hmessages ▸ hmessage)
              | @succeeds r _ response hrun =>
                  obtain ⟨hrows, hmembers, hmessages⟩ := useCase_users hrun
                  rw [useCase_actor hcall] at hrows hmembers
                  refine hpast.store (fun c row hrow => ?_) (fun c p hp => ?_) fun message hmessage => ?_
                  · exact (hrows c row hrow).imp id fun howner => by rw [howner]; exact hcaller
                  · rcases hmembers c p hp with hold | hself | ⟨email, huse⟩
                    · exact .inl hold
                    · exact .inr (hself ▸ hcaller)
                    · exact .inr (invited_user houtside hcall huse)
                  · exact .inl (hmessages ▸ hmessage)
      | send request now commits =>
          obtain ⟨hrows, hmembers, hmessages⟩ := attempt_send request now commits
            (Prod.mk.eta (p := (StoreCall.fromUser request now).attempt commits
              (ServerCall.after services past).store)).symm
          refine hpast.store (fun c row hrow => ?_) (fun c p hp => ?_) fun message hmessage => ?_
          · exact .inl ⟨row, hrows c ▸ hrow, rfl⟩
          · exact .inl (hmembers c ▸ hp)
          · refine (hmessages message hmessage).imp id fun hsent senderId hsender => ?_
            obtain rfl := Option.some.inj (hsent.1.symm.trans hsender)
            have hmember : (⟨request.senderId.value⟩ : ParticipantId) ∈
                (ServerCall.after services past).store.participantsOf request.conversationId :=
              (ensureConversationAccess_eq_ok.1 hsent.2).2
            exact hpast.members _ _ hmember

theorem users_exist_created :
    ∃ user ∈ (ServerCall.after plainApi ([.http adaCreates] ++ adaHistory)).accounts.users,
      user.id = 1 :=
  (users_exist adaCreates_trusted).members ⟨7⟩ ⟨1⟩ (by decide +kernel)

end Histories

end Dizzchat
