import Dizzchat.Api.Histories

set_option autoImplicit false

/-! # Server errors

Which requests are answered with 500 although their transaction can be committed and what they draw at
random is new: those that come so far as to have PostgreSQL look for or store what it does not take, an
address or a jti or a title with a NUL, an address too long for its column, a cursor out of range. Every
constraint of the tables is looked after by a check that comes before the write. -/

namespace Dizzchat

open Transition

variable {services : ApiServices} {request : ApiRequest} {past : List ServerCall} {server : Server}

/-! ## Writes that the constraints let through -/

section Writes

variable {s : Store} {r : UseCaseRequest}

theorem insertParticipants_ne_none {member : ConversationParticipantModel}
    (hrow : s.row member.conversationId ≠ none)
    (hnew : member.userId ∉ s.participantsOf member.conversationId) :
    s.insertParticipants {member} ≠ none := by
  unfold Store.insertParticipants
  rw [dif_pos]
  · simp
  · refine ⟨?_, ?_, ?_⟩
    · intro m hm
      rw [Finset.mem_singleton.1 hm]
      exact hrow
    · intro a ha b hb hkey
      rw [Finset.mem_singleton.1 ha] at hkey
      exact hnew (Store.mem_participantsOf.2 ⟨b, hb, hkey.symm⟩)
    · intro a ha b hb _
      rw [Finset.mem_singleton.1 ha, Finset.mem_singleton.1 hb]

/-- A conversation with a new id can be stored, with its owner as the one member. -/
theorem create_ne_none {conversationId : ConversationId} {ownerId : OwnerId} {title : ConversationTitle}
    {now : Datetime} (hfresh : s.row conversationId = none) :
    s.write (ConversationRepository.create (Conversation.start conversationId ownerId title now)) ≠
      none := by
  have hmembers : (Conversation.start conversationId ownerId title now).participantIds.image
      (fun p => (⟨conversationId, p, now⟩ : ConversationParticipantModel)) =
        {⟨conversationId, ⟨ownerId.value⟩, now⟩} := by
    simp [Conversation.start]
  unfold ConversationRepository.create Store.write
  simp only [Store.insertConversation]
  have hrow : s.row (Conversation.start conversationId ownerId title now).id = none := hfresh
  rw [if_pos hrow, Option.bind_some]
  show Store.insertParticipants ((Conversation.start conversationId ownerId title now).participantIds.image
    fun p => (⟨conversationId, p, now⟩ : ConversationParticipantModel)) _ ≠ none
  rw [hmembers]
  refine insertParticipants_ne_none ?_ ?_
  · show lookup ConversationModel.id conversationId (upsert ConversationModel.id _ s.conversations) ≠ none
    rw [lookup_upsert]
    split
    · simp
    · next hne => exact absurd rfl hne
  · show _ ∉ s.participantsOf conversationId
    rw [Store.participantsOf_eq_empty hfresh]
    simp

/-- A user who is no member can be stored as one. -/
theorem addParticipant_ne_none {c : ConversationId} {participantId : ParticipantId} {now : Datetime}
    (hrow : s.row c ≠ none) (hnew : participantId ∉ s.participantsOf c) :
    s.write (.addParticipant ⟨c, participantId, now⟩) ≠ none := by
  rw [Store.write]
  exact insertParticipants_ne_none hrow hnew

theorem update_ne_none (conversation : Conversation) : s.write (.update conversation) ≠ none := by
  simp only [Store.write]
  split <;> simp

/-- What a use case accepts can be stored, where the id of a new conversation is new. -/
theorem write_ne_none {change : Change}
    (haccepts : Accepts r (s.participantsOf r.conversationId) (s.row r.conversationId) change)
    (hfresh : ∀ title, r.useCase = .create title → s.row r.conversationId = none) :
    s.write change ≠ none := by
  generalize hread : s.row r.conversationId = read at haccepts
  cases haccepts with
  | @create _ value title huse htitle => exact create_ne_none (hfresh value huse)
  | rename | delete | restore => exact update_ne_none _
  | addAgain | remove => exact Option.some_ne_none _
  | add huse hactive howner hnew =>
      have hrow : s.row r.conversationId ≠ none := by
        rw [hread]
        simp
      exact addParticipant_ne_none hrow hnew

theorem run_ne_integrityError
    (hfresh : ∀ title, r.useCase = .create title → s.row r.conversationId = none) {e : WriteError}
    (h : r.run s = .error e) : ∃ error, e = .messaging error := by
  unfold UseCaseRequest.run at h
  simp only at h
  split at h
  · next change response hexecute hreturns =>
      split at h
      · next hwrite => exact absurd hwrite (write_ne_none (execute_accepts hexecute) hfresh)
      · cases h
  · exact ⟨_, (Except.error.inj h).symm⟩
  · exact ⟨_, (Except.error.inj h).symm⟩

/-- A use case that is accepted fails where its writes are not stored. -/
theorem attempt_of_accepts {change : Change}
    (haccepts : Accepts r (s.participantsOf r.conversationId) (s.row r.conversationId) change)
    (hfresh : ∀ title, r.useCase = .create title → s.row r.conversationId = none) :
    ((StoreCall.useCase r).attempt false s).2 = .error .failed := by
  obtain ⟨response, hreturns⟩ := haccepts.returns
  have hrun : ∃ s', r.run s = .ok (s', response) := by
    unfold UseCaseRequest.run
    simp only [haccepts.execute, hreturns]
    cases hwrite : s.write change with
    | none => exact absurd hwrite (write_ne_none haccepts hfresh)
    | some s' => exact ⟨s', rfl⟩
  obtain ⟨s', hrun⟩ := hrun
  simp only [StoreCall.attempt, StoreCall.run, hrun]

end Writes

/-! ## What a call on the accounts raises -/

section Accounts

variable {accountServices : IdentityServices} {call : AccountCall} {calls : List AccountCall}
  {tables : Accounts} {e : AccountError}

theorem attempt_eq_error (hcommits : call.commits = true) :
    call.attempt accountServices tables = .error e ↔ (call.run accountServices tables).2 = .error e := by
  unfold AccountCall.attempt
  cases (call.run accountServices tables).2 with
  | error e' => simp
  | ok result => simp [hcommits]

/-- A rotation with a new jti raises nothing but the error of its token. -/
theorem rotation_error {tokens : TokenService} {ttl : Timedelta} {tokenCall : TokenCall}
    {rows : List RefreshToken} {presented : String} (haction : tokenCall.action = .refresh presented)
    (hfresh : lookup RefreshToken.jti tokenCall.newJti rows = none) {e : TokenError}
    (h : tokenCall.run tokens ttl rows = .error e) : ∃ error, e = .identity error := by
  have hrun := h
  unfold TokenCall.run at h
  simp only [haction] at h
  split at h
  · exact ⟨_, (Except.error.inj h).symm⟩
  · next jti secret hparse =>
      split at h
      · exact ⟨_, (Except.error.inj h).symm⟩
      · next stored rotated pair hexecute =>
          obtain ⟨row, hrow, hactive, hverify, -, -⟩ := RefreshAccessToken.executeOn_eq_ok hexecute
          obtain ⟨outcome, hok⟩ := run_refresh haction (parseRefresh_eq_ok.1 hparse) hrow
            ⟨verifyRefresh_iff.1 hverify, isActive_iff.1 hactive⟩ hfresh
          rw [hrun] at hok
          cases hok

/-- What a call comes so far as to have PostgreSQL look for or store, and PostgreSQL does not take. -/
inductive AccountCall.Exceeds (accountServices : IdentityServices) (signUps : List SignedUp)
    (call : AccountCall) : Prop
  | address {email password : String} {address : Email}
      (haction : call.action = .signUp email password ∨ call.action = .login email password)
      (haddress : Email.ofString accountServices.lower email = .ok address)
      (htext : Postgres.takesText address.value = false) : Exceeds accountServices signUps call
  | column {email password : String} {address : Email} (haction : call.action = .signUp email password)
      (haddress : Email.ofString accountServices.lower email = .ok address)
      (hfree : ∀ signedUp ∈ signUps, signedUp.address ≠ address)
      (hlong : 320 < address.value.length) : Exceeds accountServices signUps call
  | jti {presented : String} (haction : call.action = .refresh presented)
      (htext : TokenService.sendsText presented = false) : Exceeds accountServices signUps call

theorem AccountCall.Exceeds.attempt (hlower : accountServices.Normalizes)
    (h : call.Exceeds accountServices (AccountCall.signUps accountServices calls)) :
    call.attempt accountServices (AccountCall.accounts accountServices calls) =
      .error (.user .failed) := by
  have hrun : (call.run accountServices (AccountCall.accounts accountServices calls)).2 =
      .error (.user .failed) := by
    have hinv := accounts_inv hlower calls
    have hselect : ∀ {email : String} {address : Email},
        Email.ofString accountServices.lower email = .ok address →
        Postgres.takesText address.value = false →
        RegisterUser.select accountServices.lower email (AccountCall.accounts accountServices calls).users =
          .error .failed := by
      intro email address haddress htext
      simp only [RegisterUser.select, haddress, htext, Except.mapError, bind, Except.bind,
        Bool.false_eq_true, if_false]
      rfl
    unfold AccountCall.run
    cases h with
    | address haction haddress htext =>
        rcases haction with haction | haction
        · simp only [haction, RegisterUser.execute, hselect haddress htext, Except.mapError, Except.map]
        · simp only [haction, AuthenticateUser.execute, haddress, UserRepository.select, htext,
            Bool.false_eq_true, if_false]
          rfl
    | @column email password address haction haddress hfree hlong =>
        simp only [haction, RegisterUser.execute]
        cases htext : Postgres.takesText address.value with
        | false => simp only [hselect haddress htext, Except.mapError, Except.map]
        | true =>
            have hfits : Postgres.takesVarchar 320 address.value = false := by
              rw [Postgres.takesVarchar, htext, Bool.true_and, decide_eq_false_iff_not]
              omega
            rw [hinv.select.2 ⟨haddress, htext, hfree⟩]
            simp only [UserRepository.add, User.register, hfits, Bool.false_eq_true, if_false,
              Except.mapError, Except.map]
    | jti haction htext => simp only [haction, htext, Bool.false_eq_true, if_false]
  unfold AccountCall.attempt
  rw [hrun]

/-- Where what a call draws is new, and its transaction is committed, an error without a status of its own
    is about what PostgreSQL does not take. -/
theorem exceeds_of_error (hlower : accountServices.Normalizes)
    (hapart : NoCollision accountServices (call :: calls)) (hcommits : call.commits = true)
    (hid : ∀ user ∈ (AccountCall.accounts accountServices calls).users, user.id ≠ call.userId)
    (hjti : lookup RefreshToken.jti call.newJti
      (AccountCall.accounts accountServices calls).refreshTokens = none)
    (h : call.attempt accountServices (AccountCall.accounts accountServices calls) = .error e)
    {repr : String → String} (hstatus : (e.response repr).status = 500) :
    call.Exceeds accountServices (AccountCall.signUps accountServices calls) := by
  rw [attempt_eq_error hcommits] at h
  have hinv := accounts_inv hlower calls
  unfold AccountCall.run at h
  cases haction : call.action with
  | signUp email password =>
      simp only [haction, map_eq_error, mapError_eq_error] at h
      obtain ⟨e', he, rfl⟩ := h
      obtain ⟨work, hexecute⟩ : ∃ work, RegisterUser.execute accountServices email password
          call.userId call.salt call.now (AccountCall.accounts accountServices calls).users =
            (work, .error e') := ⟨_, Prod.ext rfl he⟩
      clear he
      have hrefused := signUp_eq_error hlower calls hexecute
      clear hexecute
      cases hrefused with
      | invalid | taken =>
          simp [AccountError.response, ApiResponse.ofIdentityError, UserError.statusByError] at hstatus
      | text haddress htext => exact .address (.inl haction) haddress htext
      | long haddress hfree hlong => exact .column haction haddress hfree hlong
      | sameId _ _ _ hmem hsame => exact absurd hsame (hid _ (hinv.mem hmem))
  | login email password =>
      have htells : ∀ signedUp ∈ AccountCall.signUps accountServices calls,
          accountServices.hasher.Tells password signedUp := fun signedUp hmem =>
        hapart.passwords call List.mem_cons_self email password haction signedUp (signUps_mem_cons hmem)
      simp only [haction, bind_eq_error] at h
      obtain ⟨-, ⟨hrefused, -⟩ | ⟨signedUp, -, -, -, hok⟩ | ⟨hfailed, hpattern, htext⟩⟩ :=
        login_cases hlower calls htells (Prod.mk.eta (p := AuthenticateUser.execute accountServices email
          password call.now call.accessNow
          (accountServices.tokens.generateRefresh call.newJti call.newSecret)
          (AccountCall.accounts accountServices calls).users)).symm
      · rw [hrefused] at h
        rcases h with herror | ⟨_, hcases, -⟩
        · rw [← Except.error.inj herror] at hstatus
          simp [AccountError.response, ApiResponse.ofIdentityError, UserError.statusByError] at hstatus
        · cases hcases
      · rw [hok] at h
        rcases h with herror | ⟨_, hsame, hadd | ⟨_, -, hpure⟩⟩
        · cases herror
        · obtain rfl := Except.ok.inj hsame
          obtain ⟨e', hadd, -⟩ := mapError_eq_error.1 hadd
          rw [add_eq_ok.2 ⟨hjti, rfl⟩] at hadd
          cases hadd
        · cases hpure
      · have haddress : Email.ofString accountServices.lower email =
            .ok ⟨accountServices.lower (strip email), hpattern⟩ := ofString_eq_ok.2 rfl
        exact .address (.inr haction) haddress htext
  | refresh presented =>
      simp only [haction] at h
      split at h
      · simp only [map_eq_error, mapError_eq_error] at h
        obtain ⟨e', he, rfl⟩ := h
        obtain ⟨error, rfl⟩ := rotation_error rfl hjti he
        cases error
        simp [AccountError.response, ApiResponse.ofIdentityError] at hstatus
      · next htext => exact .jti haction (Bool.eq_false_of_not_eq_true htext)

end Accounts

/-! ## What a request ends with -/

/-- The directory always has an answer to a text that PostgreSQL takes. -/
theorem findIdByEmail_error {accountServices : IdentityServices} {users : List UserModel}
    {signUps : List SignedUp} (h : AccountsInv accountServices users signUps) {email : String}
    {e : SignUpError} (herror : IdentityUserDirectory.findIdByEmail accountServices.lower email users =
      .error e) :
    ∃ address, Email.ofString accountServices.lower email = .ok address ∧
      Postgres.takesText address.value = false := by
  unfold IdentityUserDirectory.findIdByEmail at herror
  split at herror
  · cases herror
  · next address haddress =>
      cases htext : Postgres.takesText address.value with
      | false => exact ⟨address, haddress, htext⟩
      | true =>
          by_cases htaken : ∃ signedUp ∈ signUps, signedUp.address = address
          · obtain ⟨signedUp, hmem, rfl⟩ := htaken
            rw [h.found hmem] at herror
            cases herror
          · rw [h.missing htext fun signedUp hmem heq => htaken ⟨signedUp, hmem, heq⟩] at herror
            cases herror

theorem activeFor_iff {s : Store} {c : ConversationId} {p : ParticipantId} :
    GetConversationHistory.ensureMayRead (s.participantsOf c) c p (s.row c) = .ok () ↔
      s.ActiveFor c p := by
  refine ensureConversationAccess_eq_ok.trans ?_
  simp [Store.ActiveFor]

theorem activeOwnedBy_iff {s : Store} {c : ConversationId} {ownerId : OwnerId} :
    (∃ conversation, AddParticipant.ensureMayInvite (s.participantsOf c) c ownerId (s.row c) =
      .ok conversation) ↔ s.ActiveOwnedBy c ownerId := by
  simp [ensureMayInvite_eq_ok, Store.ActiveOwnedBy]

/-- What a request comes so far as to have PostgreSQL look for or store, and PostgreSQL does not take. -/
inductive ApiRequest.Exceeds (services : ApiServices) (past : List ServerCall) (request : ApiRequest) :
    Prop
  | account {call : AccountCall} (haccount : request.accountCall = some call)
      (h : call.Exceeds services.toIdentityServices
        (AccountCall.signUps services.toIdentityServices (ServerCall.accountCalls past))) :
      Exceeds services past request
  | created {userId : UserId} {value : String} {title : ConversationTitle}
      (hfrom : request.From services past userId)
      (hoperation : request.operation = .createConversation value)
      (htitle : ConversationTitle.ofString value = .ok title)
      (htext : Postgres.takesText value = false) : Exceeds services past request
  | renamed {userId : UserId} {c : UUID} {value : String} {title : ConversationTitle}
      (hfrom : request.From services past userId)
      (hoperation : request.operation = .renameConversation c value)
      (howner : (ServerCall.after services past).store.ActiveOwnedBy ⟨c⟩ ⟨userId.value⟩)
      (htitle : ConversationTitle.ofString value = .ok title)
      (htext : Postgres.takesText value = false) : Exceeds services past request
  | invited {userId : UserId} {c : UUID} {email : String} {address : Email}
      (hfrom : request.From services past userId)
      (hoperation : request.operation = .addParticipant c email)
      (howner : (ServerCall.after services past).store.ActiveOwnedBy ⟨c⟩ ⟨userId.value⟩)
      (haddress : Email.ofString services.lower email = .ok address)
      (htext : Postgres.takesText address.value = false) : Exceeds services past request
  | cursor {userId : UserId} {c : UUID} {before : ℤ} {limit : Option ℤ}
      (hfrom : request.From services past userId)
      (hoperation : request.operation = .getConversationHistory c (some before) limit)
      (hmay : (ServerCall.after services past).store.ActiveFor ⟨c⟩ ⟨userId.value⟩)
      (hfits : ¬ BigInteger.Fits before) : Exceeds services past request

/-- What is asked outside fails for an address or a cursor only. -/
theorem outside_error (h : Trusted services past) {userId : UserId} {e : WriteError}
    (hfrom : request.From services past userId)
    (houtside : request.outside services userId (ServerCall.after services past) = .error e) :
    (∃ error, e = .messaging error) ∨ request.Exceeds services past := by
  unfold ApiRequest.outside at houtside
  split at houtside
  · next c email hoperation =>
      split at houtside
      · exact .inl ⟨_, (Except.error.inj houtside).symm⟩
      · next conversation hmay =>
          have hinv := accounts_inv h.normalizes (ServerCall.accountCalls past)
          rw [← after_accounts services past] at hinv
          obtain ⟨_, herror, -⟩ := mapError_eq_error.1 houtside
          obtain ⟨address, haddress, htext⟩ := findIdByEmail_error hinv herror
          exact .inr (.invited hfrom hoperation (activeOwnedBy_iff.1 ⟨conversation, hmay⟩) haddress htext)
  · next c before limit hoperation =>
      split at houtside
      · exact .inl ⟨_, (Except.error.inj houtside).symm⟩
      · next hmay =>
          split at houtside
          · next hbind =>
              right
              cases before with
              | none => cases hbind
              | some before =>
                  refine .cursor hfrom hoperation (activeFor_iff.1 hmay) fun hfits => ?_
                  have hbindable : Bindable (some ⟨before⟩) := by
                    intro id hid
                    obtain rfl := Option.some.inj hid
                    exact hfits
                  rw [Option.map_some, bindCursor_eq_ok hbindable] at hbind
                  cases hbind
          · cases houtside
  · cases houtside

/-- The claim `sub` of a token that has been handed out is a string. -/
theorem decodeAccess_ne_attributeError (h : Trusted services (.http request :: past)) (token : String)
    (hbearer : request.bearer = some token) :
    services.tokenService.decodeAccess request.decodedAt token ≠ .error .attributeError := by
  intro hdecode
  have hverifies : ∃ payload, services.tokenService.jwt.decode request.decodedAt token
      services.tokenService.secretKey = some payload := by
    rw [JwtTokenService.decodeAccess] at hdecode
    split at hdecode
    · cases hdecode
    · next payload hpayload => exact ⟨payload, hpayload⟩
  obtain ⟨payload, hpayload⟩ := hverifies
  have happart := h.of_cons.apart
  obtain ⟨userId, pair, issued, hhanded, rfl⟩ := accessTokens_handed h.normalizes happart
    (h.unforged.1 token hbearer payload hpayload)
  rw [(hhanded.kept h.normalizes happart).1,
    JwtTokenService.decodeAccess_issueAccess h.readsBack] at hdecode
  split at hdecode <;> cases hdecode

theorem getCurrentUser_error (h : Trusted services (.http request :: past)) {response : ApiResponse}
    (huser : request.getCurrentUser services = .error response) : response.status = 401 := by
  unfold ApiRequest.getCurrentUser at huser
  split at huser
  · rw [← Except.error.inj huser]
    rfl
  · next token hbearer =>
      split at huser
      · cases huser
      · rw [← Except.error.inj huser]
        rfl
      · next hdecode => exact absurd hdecode (decodeAccess_ne_attributeError h token hbearer)

theorem messaging_status_ne (error : MessagingError) (repr : String → String) :
    ((WriteError.messaging error).response repr).status ≠ 500 := by
  cases error <;>
    simp [WriteError.response, ApiResponse.ofMessagingError, MessagingError.statusByError]

/-- A call that only reads raises a domain error. -/
theorem reading_error {call : StoreCall} {s s' : Store} {e : WriteError}
    (check : Except MessagingError Unit) {response : Response}
    (h : call.attempt true s = (s', .error e))
    (hrun : call.run s = (s, StoreCall.reading check response)) : ∃ error, e = .messaging error := by
  unfold StoreCall.attempt at h
  rw [hrun] at h
  split at h
  · next hfalse => cases hfalse
  · have houtcome := (Prod.mk.inj h).2
    unfold StoreCall.reading at houtcome
    split at houtcome
    · exact ⟨_, (Except.error.inj houtcome).symm⟩
    · cases houtcome

/-- A call on the conversations raises a domain error, or the title that it stores is not taken. -/
theorem store_error (hcommits : request.commits = true)
    (hfresh : (ServerCall.after services past).store.row ⟨request.drawnId⟩ = none) {userId : UserId}
    {found : Option UUID} {call : StoreCall} {store : Store} {e : WriteError}
    (hfrom : request.From services past userId) (hcall : request.storeCall userId found = some call)
    (h : call.attempt request.stored (ServerCall.after services past).store = (store, .error e)) :
    (∃ error, e = .messaging error) ∨ request.Exceeds services past := by
  have hreading : (∀ r, call ≠ .useCase r) → call.attempt true (ServerCall.after services past).store =
      (store, .error e) := by
    intro hother
    have hstored : request.stored = true := by
      unfold ApiRequest.storeCall at hcall
      unfold ApiRequest.stored
      cases hoperation : request.operation <;>
        simp only [hoperation, Option.some.injEq, reduceCtorEq] at hcall
      all_goals
        first
          | exact absurd hcall.symm (hother _)
          | rw [hcommits]
            rfl
    exact hstored ▸ h
  cases call with
  | fromUser send now => exact absurd rfl (storeCall_ne_send hcall send now)
  | listConversations => exact .inl (reading_error (.ok ()) (hreading fun _ hne => by cases hne) rfl)
  | listParticipants | getConversationHistory | ensureConversationAccess =>
      exact .inl (reading_error _ (hreading fun _ hne => by cases hne) rfl)
  | useCase r =>
      have hnew : ∀ title, r.useCase = .create title →
          (ServerCall.after services past).store.row r.conversationId = none := by
        intro title huse
        unfold ApiRequest.storeCall at hcall
        cases hoperation : request.operation <;>
          simp only [hoperation, reduceCtorEq, Option.some.injEq, StoreCall.useCase.injEq] at hcall
        case createConversation => exact hcall ▸ hfresh
        all_goals
          rw [← hcall] at huse
          cases huse
      cases hr : r.run (ServerCall.after services past).store with
      | error e' =>
          simp only [StoreCall.attempt, StoreCall.run, hr, Prod.mk.injEq, Except.error.injEq] at h
          obtain ⟨-, rfl⟩ := h
          exact .inl (run_ne_integrityError hnew hr)
      | ok result =>
          right
          obtain ⟨s', response⟩ := result
          obtain ⟨change, haccepts, -, -⟩ := run_eq_ok hr
          have htext : request.operation.writesText = false := by
            cases hwrites : request.operation.writesText with
            | false => rfl
            | true =>
                have hstored : request.stored = true := by
                  rw [ApiRequest.stored, hwrites, hcommits]
                  rfl
                simp [StoreCall.attempt, StoreCall.run, hr, hstored] at h
          unfold ApiRequest.storeCall at hcall
          cases hoperation : request.operation <;>
            simp only [hoperation, Operation.writesText, Bool.true_eq_false] at htext
          · simp only [hoperation, Option.some.injEq, StoreCall.useCase.injEq] at hcall
            subst hcall
            generalize (ServerCall.after services past).store.row _ = read at haccepts
            cases haccepts with
            | create huse htitle =>
                obtain rfl := UseCase.create.inj huse
                exact .created hfrom hoperation htitle htext
            | rename huse | delete huse | restore huse | add huse | addAgain huse | remove huse => cases huse
          · simp only [hoperation, Option.some.injEq, StoreCall.useCase.injEq] at hcall
            subst hcall
            generalize hread : (ServerCall.after services past).store.row _ = read at haccepts
            cases haccepts with
            | rename huse hactive howner htitle =>
                obtain rfl := UseCase.rename.inj huse
                exact .renamed hfrom hoperation ⟨_, hread, hactive, howner⟩ htitle htext
            | create huse | delete huse | restore huse | add huse | addAgain huse | remove huse => cases huse

theorem handle_of_outside_error {userId : UserId} (haccount : request.accountCall = none)
    (huser : request.getCurrentUser services = .ok userId) (hvalid : request.operation.valid = true)
    {e : WriteError} (houtside : request.outside services userId server = .error e) :
    (request.handle services server).2 = e.response services.repr := by
  unfold ApiRequest.handle ApiRequest.handleAs
  simp only [haccount, huser, hvalid, if_true, houtside]

theorem handle_of_storeCall {userId : UserId} (haccount : request.accountCall = none)
    (huser : request.getCurrentUser services = .ok userId) (hvalid : request.operation.valid = true)
    {found : Option UUID} {call : StoreCall}
    (houtside : request.outside services userId server = .ok found)
    (hcall : request.storeCall userId found = some call) :
    (request.handle services server).2 =
      request.answer services (call.attempt request.stored server.store).2 := by
  unfold ApiRequest.handle ApiRequest.handleAs
  simp only [haccount, huser, hvalid, if_true, houtside, hcall]

theorem ApiRequest.Exceeds.serverError (h : Trusted services (.http request :: past))
    (hfresh : (ServerCall.after services past).store.row ⟨request.drawnId⟩ = none)
    (hvalid : request.operation.valid = true) (hexceeds : request.Exceeds services past) :
    (request.handle services (ServerCall.after services past)).2 = .serverError := by
  have hpublic : request.operation.accountAction = none → request.accountCall = none := by
    intro haction
    rw [ApiRequest.accountCall, haction]
    rfl
  cases hexceeds with
  | @account call haccount hcall =>
      have hfails := hcall.attempt h.normalizes
      rw [← after_accounts services past] at hfails
      unfold ApiRequest.handle
      simp only [haccount, hvalid, if_true, hfails]
      rfl
  | @created userId value title hfrom hoperation htitle htext =>
      have haccount := hpublic (by rw [hoperation]; rfl)
      have huser := (getCurrentUser_iff h).2 hfrom
      have houtside : request.outside services userId (ServerCall.after services past) = .ok none := by
        rw [ApiRequest.outside, hoperation]
      have hcall : request.storeCall userId none =
          some (.useCase ⟨.create value, ⟨request.drawnId⟩, userId.value, request.now⟩) := by
        rw [ApiRequest.storeCall, hoperation]
      have hstored : request.stored = false := by
        rw [ApiRequest.stored, hoperation, Operation.writesText, htext]
        rfl
      rw [handle_of_storeCall haccount huser hvalid houtside hcall, hstored,
        attempt_of_accepts (.create rfl htitle) fun _ _ => hfresh]
      rfl
  | @renamed userId c value title hfrom hoperation howner htitle htext =>
      have haccount := hpublic (by rw [hoperation]; rfl)
      have huser := (getCurrentUser_iff h).2 hfrom
      have houtside : request.outside services userId (ServerCall.after services past) = .ok none := by
        rw [ApiRequest.outside, hoperation]
      have hcall : request.storeCall userId none =
          some (.useCase ⟨.rename value, ⟨c⟩, userId.value, request.now⟩) := by
        rw [ApiRequest.storeCall, hoperation]
      have hstored : request.stored = false := by
        rw [ApiRequest.stored, hoperation, Operation.writesText, htext]
        rfl
      obtain ⟨model, hrow, hactive, howner⟩ := howner
      rw [Option.mem_def] at hrow
      have haccepts : Accepts ⟨.rename value, ⟨c⟩, userId.value, request.now⟩
          ((ServerCall.after services past).store.participantsOf ⟨c⟩) (some model) _ :=
        .rename rfl hactive howner htitle
      rw [← hrow] at haccepts
      rw [handle_of_storeCall haccount huser hvalid houtside hcall, hstored,
        attempt_of_accepts haccepts fun _ huse => by cases huse]
      rfl
  | @invited userId c email address hfrom hoperation howner haddress htext =>
      have haccount := hpublic (by rw [hoperation]; rfl)
      have huser := (getCurrentUser_iff h).2 hfrom
      obtain ⟨conversation, hmay⟩ := activeOwnedBy_iff.2 howner
      have houtside : request.outside services userId (ServerCall.after services past) =
          .error .failed := by
        unfold ApiRequest.outside IdentityUserDirectory.findIdByEmail UserRepository.select
        simp only [hoperation, hmay, haddress, htext, Bool.false_eq_true, if_false, Except.mapError]
      rw [handle_of_outside_error haccount huser hvalid houtside]
      rfl
  | @cursor userId c before limit hfrom hoperation hmay hfits =>
      have haccount := hpublic (by rw [hoperation]; rfl)
      have huser := (getCurrentUser_iff h).2 hfrom
      have houtside : request.outside services userId (ServerCall.after services past) =
          .error .failed := by
        unfold ApiRequest.outside
        simp only [hoperation, activeFor_iff.2 hmay, Option.map_some, bindCursor_eq_error hfits]
      rw [handle_of_outside_error haccount huser hvalid houtside]
      rfl

/-- Of the requests whose transaction can be committed, with a new id and a new jti to draw, exactly those
    are answered with 500 that come so far as to have PostgreSQL look for or store what it does not
    take. -/
theorem server_error_iff (h : Trusted services (.http request :: past))
    (hcommits : request.commits = true)
    (hid : ∀ user ∈ (ServerCall.after services past).accounts.users, user.id ≠ request.drawnId)
    (hconversation : (ServerCall.after services past).store.row ⟨request.drawnId⟩ = none)
    (hjti : lookup RefreshToken.jti request.newJti
      (ServerCall.after services past).accounts.refreshTokens = none) :
    (request.handle services (ServerCall.after services past)).2.status = 500 ↔
      request.operation.valid = true ∧ request.Exceeds services past := by
  constructor
  · intro hstatus
    have hhandled := handle_handled services request (ServerCall.after services past)
    generalize request.handle services (ServerCall.after services past) = result at hhandled hstatus
    obtain ⟨server', response⟩ := result
    simp only at hhandled hstatus
    cases hhandled with
    | account => cases hoperation : request.operation <;> simp [hoperation, Operation.status] at hstatus
    | @accountFails call e haccount hvalid hattempt =>
        have hcall := haccount
        obtain ⟨action, haction, rfl⟩ := Option.map_eq_some_iff.1 haccount
        have happart := h.apart
        rw [ServerCall.accountCalls, if_pos hvalid, haccount] at happart
        rw [after_accounts services past] at hid hjti hattempt
        exact ⟨hvalid, .account hcall
          (exceeds_of_error h.normalizes happart hcommits hid hjti hattempt hstatus)⟩
    | @store userId found call outcome store haccount huser hvalid houtside hcall hattempt =>
        cases outcome with
        | ok response =>
            exact absurd hstatus (by cases hoperation : request.operation <;>
              simp [ApiRequest.answer, hoperation, Operation.status])
        | error e =>
            have hfrom := (getCurrentUser_iff h).1 huser
            rcases store_error hcommits hconversation hfrom hcall hattempt with ⟨error, rfl⟩ | hexceeds
            · exact absurd hstatus (messaging_status_ne error services.repr)
            · exact ⟨hvalid, hexceeds⟩
    | currentUser => simp at hstatus
    | invalid => simp [ApiResponse.validationError] at hstatus
    | unauthorized haccount huser =>
        rw [getCurrentUser_error h huser] at hstatus
        cases hstatus
    | @refused userId e haccount huser hvalid houtside =>
        have hfrom := (getCurrentUser_iff h).1 huser
        rcases outside_error h.of_cons hfrom houtside with ⟨error, rfl⟩ | hexceeds
        · exact absurd hstatus (messaging_status_ne error services.repr)
        · exact ⟨hvalid, hexceeds⟩
  · rintro ⟨hvalid, hexceeds⟩
    rw [hexceeds.serverError h hconversation hvalid]
    rfl

/-- Ada asks for what is older than 2^63. -/
def adaOverflows : ApiRequest :=
  someRequest (.getConversationHistory 7 (some 9223372036854775808) none) (some adaToken) 8000000 8 "k"

theorem adaOverflows_trusted : Trusted plainApi (.http adaOverflows :: .http adaCreates :: adaHistory) where
  normalizes := plainServices_normalizes
  readsBack := plainJwt_readsBack _
  apart := by
    have hcreates : Trusted plainApi (.http adaCreates :: adaHistory) := ada_trusted rfl rfl
    rw [accountCalls_of_none rfl]
    exact hcreates.apart
  unforged := by
    refine ⟨fun token htoken _ _ => ?_, (ada_trusted rfl rfl).unforged⟩
    obtain rfl := Option.some.inj htoken
    decide +kernel

theorem server_error_iff_overflow :
    adaOverflows.Exceeds plainApi (.http adaCreates :: adaHistory) :=
  ((server_error_iff adaOverflows_trusted rfl (by decide +kernel) (by decide +kernel)
    (by decide +kernel)).1 (by decide +kernel)).2

end Dizzchat
