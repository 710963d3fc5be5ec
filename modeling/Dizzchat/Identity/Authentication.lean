import Dizzchat.Identity.Accounts

set_option autoImplicit false

/-! # Authentication

Whom an access token speaks for. Every pair that is handed out goes back, refresh token by refresh token,
to a login with the address and the password of a sign-up (`HandedTo`), and as long as nobody forges a
token the service takes exactly these access tokens, for their users and while they live
(`decodeAccess_iff_handed`). -/

namespace Dizzchat

open Transition

variable {services : IdentityServices}

/-- The pair has been handed to the user, with an access token that was issued at `issued`: for the
    password of their sign-up, or in return for the refresh token of a pair handed to them before. -/
inductive HandedTo (services : IdentityServices) :
    List AccountCall → UserId → TokenPair → Datetime → Prop
  | login {call : AccountCall} {past : List AccountCall} {tables : Accounts} {pair : TokenPair}
      {email : String} {signedUp : SignedUp}
      (haction : call.action = .login email signedUp.password)
      (hsignedUp : signedUp ∈ AccountCall.signUps services past)
      (hemail : Email.ofString services.lower email = .ok signedUp.address)
      (hanswer : call.attempt services (AccountCall.accounts services past) = .ok (tables, .pair pair)) :
      HandedTo services (call :: past) ⟨signedUp.userId⟩ pair call.accessNow
  | refresh {call : AccountCall} {past : List AccountCall} {tables : Accounts} {pair old : TokenPair}
      {userId : UserId} {issued : Datetime} (haction : call.action = .refresh old.refreshToken)
      (hold : HandedTo services past userId old issued)
      (hanswer : call.attempt services (AccountCall.accounts services past) = .ok (tables, .pair pair)) :
      HandedTo services (call :: past) userId pair call.accessNow
  | older {call : AccountCall} {past : List AccountCall} {pair : TokenPair} {userId : UserId}
      {issued : Datetime} (hold : HandedTo services past userId pair issued) :
      HandedTo services (call :: past) userId pair issued

/-- The access tokens that have been handed out. -/
def AccountCall.accessTokens (services : IdentityServices) : List AccountCall → List String
  | [] => []
  | call :: past =>
      match call.attempt services (accounts services past) with
      | .ok (_, .pair pair) => pair.accessToken :: accessTokens services past
      | _ => accessTokens services past

/-- What is drawn at random, and hashed, does not collide: no login comes with a password that the hasher
    mistakes for another one, no refresh with a secret that has the hash of another one, and a jti, in
    hexadecimal, has no dot that would make it end early. -/
structure NoCollision (services : IdentityServices) (calls : List AccountCall) : Prop where
  passwords : ∀ call ∈ calls, ∀ email password, call.action = .login email password →
    ∀ signedUp ∈ AccountCall.signUps services calls, services.hasher.Tells password signedUp
  secrets : ∀ call ∈ calls, ∀ presented jti secret, call.action = .refresh presented →
    TokenService.Presents presented jti secret → ∀ minted ∈ calls,
      services.tokens.hashSecret secret = services.tokens.hashSecret minted.newSecret →
      secret = minted.newSecret
  jtis : ∀ call ∈ calls, '.' ∉ call.newJti.toList

/-! ## Pairs -/

section Pairs

variable {tokens : TokenService} {ttl : Timedelta} {rows rows' : List RefreshToken}
  {tokenCall : TokenCall} {call : AccountCall} {tables tables' : Accounts} {pair : TokenPair}

/-- Whom a call on the refresh tokens is for, by what it has found and leaves. -/
theorem run_pair (hrun : tokenCall.run tokens ttl rows = .ok (rows', pair)) :
    ∃ userId token, token = RefreshToken.issue tokenCall.newJti userId
        (tokens.hashSecret tokenCall.newSecret) tokenCall.now ttl ∧
      pair = ⟨tokens.issueAccess userId tokenCall.accessNow,
        tokenCall.newJti ++ "." ++ tokenCall.newSecret⟩ ∧
      (tokenCall.action = .login (some userId) true ∧ rows' = rows ++ [token] ∨
        ∃ presented jti secret row, tokenCall.action = .refresh presented ∧
          TokenService.Presents presented jti secret ∧ lookup RefreshToken.jti jti rows = some row ∧
          row.Usable tokens secret tokenCall.now ∧ row.userId = userId ∧
          rows' = upsert RefreshToken.jti (row.revoke tokenCall.now) rows ++ [token]) := by
  cases run_succeeds hrun with
  | @login userId haction hfresh =>
      refine ⟨userId, _, rfl, ?_, .inl ⟨haction, rfl⟩⟩
      simp only [TokenCall.run, haction, AuthenticateUser.executeOn, if_true, bind_eq_ok, pure_eq_ok,
        Except.ok.injEq, Prod.exists, Prod.mk.injEq] at hrun
      obtain ⟨_, _, ⟨rfl, rfl⟩, _, -, -, rfl⟩ := hrun
      rfl
  | @refresh presented jti secret row haction hpresents hrow husable hfresh =>
      refine ⟨row.userId, _, rfl, ?_, .inr ⟨presented, jti, secret, row, haction, hpresents, hrow,
        husable, rfl, rfl⟩⟩
      simp only [TokenCall.run, haction, parseRefresh_eq_ok.2 hpresents, hrow, executeOn_usable husable,
        bind_eq_ok, pure_eq_ok, Prod.mk.injEq] at hrun
      obtain ⟨_, -, -, rfl⟩ := hrun
      rfl

/-- What a call has found and leaves that hands out a pair: a user with their password, or a row that is
    usable with the secret that is presented. -/
inductive AccountCall.HandsOut (services : IdentityServices) (call : AccountCall) (tables : Accounts)
    (userId : UserId) (token : RefreshToken) : List RefreshToken → Prop
  | login {email password : String} (haction : call.action = .login email password)
      (hfinds : AccountCall.finds services email password tables.users = (some userId, true)) :
      HandsOut services call tables userId token (tables.refreshTokens ++ [token])
  | refresh {presented jti secret : String} {row : RefreshToken}
      (haction : call.action = .refresh presented)
      (hpresents : TokenService.Presents presented jti secret)
      (hrow : lookup RefreshToken.jti jti tables.refreshTokens = some row)
      (husable : row.Usable services.tokens secret call.now) (huser : row.userId = userId) :
      HandsOut services call tables userId token
        (upsert RefreshToken.jti (row.revoke call.now) tables.refreshTokens ++ [token])

theorem attempt_pair (h : call.attempt services tables = .ok (tables', .pair pair)) :
    tables'.users = tables.users ∧ ∃ userId token,
      token = RefreshToken.issue call.newJti userId (services.tokens.hashSecret call.newSecret) call.now
        services.refreshTtl ∧
      pair = ⟨services.tokenService.issueAccess userId call.accessNow,
        call.newJti ++ "." ++ call.newSecret⟩ ∧
      call.HandsOut services tables userId token tables'.refreshTokens := by
  cases haction : call.action with
  | signUp email password =>
      obtain ⟨_, user, -, -, hanswer⟩ := (run_signUp haction).1 (attempt_eq_ok.1 h).1
      cases hanswer
  | login email password =>
      have hcall : call.tokenCall services tables.users = some
          ⟨.login (AccountCall.finds services email password tables.users).1
            (AccountCall.finds services email password tables.users).2,
          call.now, call.accessNow, call.newJti, call.newSecret, call.commits⟩ := by
        rw [AccountCall.tokenCall, haction]
      obtain ⟨rows', _, hattempt, rfl, hpair⟩ := (attempt_tokenCall hcall).1 h
      obtain rfl := AccountAnswer.pair.inj hpair
      obtain ⟨userId, token, htoken, hpair, hlogin | hrefresh⟩ := run_pair (run_of_attempt hattempt)
      · obtain ⟨hfound, rfl⟩ := hlogin
        obtain ⟨hid, hverified⟩ := TokenAction.login.inj hfound
        exact ⟨rfl, userId, token, htoken, hpair, .login haction (Prod.ext hid hverified)⟩
      · obtain ⟨_, _, _, _, hrefresh, -⟩ := hrefresh
        cases hrefresh
  | refresh presented =>
      have hcall : call.tokenCall services tables.users = some (call.rotation presented) := by
        rw [AccountCall.tokenCall, haction]
        exact if_pos (sendsText_of_attempt haction h)
      obtain ⟨rows', _, hattempt, rfl, hpair⟩ := (attempt_tokenCall hcall).1 h
      obtain rfl := AccountAnswer.pair.inj hpair
      obtain ⟨userId, token, htoken, hpair, hlogin | hrefresh⟩ := run_pair (run_of_attempt hattempt)
      · obtain ⟨hlogin, -⟩ := hlogin
        cases hlogin
      · obtain ⟨_, jti, secret, row, hrefresh, hpresents, hrow, husable, huser, rfl⟩ := hrefresh
        obtain rfl := TokenAction.refresh.inj hrefresh
        exact ⟨rfl, userId, token, htoken, hpair, .refresh haction hpresents hrow husable huser⟩

/-- A call that hands out no pair leaves the refresh tokens alone. -/
theorem attempt_user {user : User} (h : call.attempt services tables = .ok (tables', .user user)) :
    tables'.refreshTokens = tables.refreshTokens := by
  rcases tokenCall_of_attempt h with ⟨email, password, haction⟩ | ⟨tokenCall, hcall⟩
  · obtain ⟨_, _, -, rfl, -⟩ := (run_signUp haction).1 (attempt_eq_ok.1 h).1
    rfl
  · obtain ⟨-, _, hanswer⟩ := tokenCall_users hcall h
    cases hanswer

end Pairs

/-! ## Histories -/

section Histories

variable {calls past : List AccountCall} {call : AccountCall} {userId : UserId} {pair : TokenPair}
  {issued : Datetime}

/-- A user whom a login finds with their password has signed up with both. -/
theorem AccountsInv.finds {users : List UserModel} {signUps : List SignedUp}
    (h : AccountsInv services users signUps) {email password : String}
    (htells : ∀ signedUp ∈ signUps, services.hasher.Tells password signedUp)
    (hfinds : AccountCall.finds services email password users = (some userId, true)) :
    ∃ signedUp ∈ signUps, Email.ofString services.lower email = .ok signedUp.address ∧
      signedUp.password = password ∧ userId = ⟨signedUp.userId⟩ := by
  unfold AccountCall.finds at hfinds
  cases hemail : Email.ofString services.lower email with
  | error e => simp [hemail] at hfinds
  | ok address =>
      by_cases htaken : ∃ signedUp ∈ signUps, signedUp.address = address
      · obtain ⟨signedUp, hmem, rfl⟩ := htaken
        simp only [hemail, h.found hmem, Prod.mk.injEq, Option.some.injEq] at hfinds
        obtain ⟨rfl, hverify⟩ := hfinds
        have hpassword : decide (password = signedUp.password) = true :=
          (htells signedUp hmem).symm.trans hverify
        exact ⟨signedUp, hmem, rfl, (of_decide_eq_true hpassword).symm, rfl⟩
      · cases htext : Postgres.takesText address.value with
        | false => simp [hemail, UserRepository.select, htext] at hfinds
        | true =>
            have hmissing := h.missing htext fun signedUp hmem heq => htaken ⟨signedUp, hmem, heq⟩
            simp [hemail, hmissing] at hfinds

theorem signUps_mem_cons {signedUp : SignedUp} (h : signedUp ∈ AccountCall.signUps services past) :
    signedUp ∈ AccountCall.signUps services (call :: past) := by
  rw [AccountCall.signUps]
  split
  · exact List.mem_cons_of_mem _ h
  · exact h

theorem NoCollision.of_cons (h : NoCollision services (call :: past)) : NoCollision services past where
  passwords other hother email password haction signedUp hmem :=
    h.passwords other (List.mem_cons_of_mem _ hother) email password haction signedUp
      (signUps_mem_cons hmem)
  secrets other hother presented jti secret haction hpresents minted hminted :=
    h.secrets other (List.mem_cons_of_mem _ hother) presented jti secret haction hpresents minted
      (List.mem_cons_of_mem _ hminted)
  jtis other hother := h.jtis other (List.mem_cons_of_mem _ hother)

/-- Behind the row stands a pair that its user has been handed. -/
def Backed (services : IdentityServices) (calls : List AccountCall) (row : RefreshToken) : Prop :=
  ∃ pair issued, HandedTo services calls row.userId pair issued ∧
    ∃ minted ∈ calls, pair.refreshToken = row.jti ++ "." ++ minted.newSecret ∧
      row.tokenHash = services.tokens.hashSecret minted.newSecret

theorem Backed.older {row : RefreshToken} (h : Backed services past row) :
    Backed services (call :: past) row := by
  obtain ⟨pair, issued, hold, minted, hminted, htoken, hhash⟩ := h
  exact ⟨pair, issued, .older hold, minted, List.mem_cons_of_mem _ hminted, htoken, hhash⟩

theorem Backed.revoke {row : RefreshToken} (h : Backed services past row) (now : Datetime) :
    Backed services past (row.revoke now) := by
  unfold RefreshToken.revoke
  split
  · exact h
  · exact h

/-- Whom a login or a refresh is for that succeeds. -/
theorem attempt_handed (hlower : services.Normalizes)
    (hapart : NoCollision services (call :: past))
    (hrows : ∀ row ∈ (AccountCall.accounts services past).refreshTokens, Backed services past row)
    {tables : Accounts}
    (h : call.attempt services (AccountCall.accounts services past) = .ok (tables, .pair pair)) :
    ∃ userId, HandedTo services (call :: past) userId pair call.accessNow ∧
      pair = ⟨services.tokenService.issueAccess userId call.accessNow,
        call.newJti ++ "." ++ call.newSecret⟩ ∧
      ∀ row ∈ tables.refreshTokens, Backed services (call :: past) row := by
  obtain ⟨-, userId, token, rfl, hpair, hhands⟩ := attempt_pair h
  -- a new row is backed by the pair that goes with it
  have hminted : HandedTo services (call :: past) userId pair call.accessNow →
      Backed services (call :: past) (RefreshToken.issue call.newJti userId
        (services.tokens.hashSecret call.newSecret) call.now services.refreshTtl) := by
    intro hhanded
    exact ⟨pair, call.accessNow, hhanded, call, List.mem_cons_self,
      congrArg TokenPair.refreshToken hpair, rfl⟩
  generalize tables.refreshTokens = rows' at hhands
  cases hhands with
  | @login email password haction hfinds =>
      obtain ⟨signedUp, hmem, hemail, rfl, rfl⟩ := (accounts_inv hlower past).finds
        (fun signedUp hmem => hapart.passwords call List.mem_cons_self email password haction signedUp
          (signUps_mem_cons hmem)) hfinds
      have hhanded := HandedTo.login haction hmem hemail h
      refine ⟨_, hhanded, hpair, fun row hrow => ?_⟩
      rcases List.mem_append.1 hrow with hrow | hrow
      · exact (hrows row hrow).older
      · rw [List.mem_singleton.1 hrow]
        exact hminted hhanded
  | @refresh presented jti secret row haction hpresents hrow husable huser =>
      subst huser
      -- the presented token is the one of the pair behind its row
      obtain ⟨old, issued, hold, minted, hmem, htoken, hhash⟩ := hrows row (mem_of_lookup hrow)
      have hsecret : secret = minted.newSecret :=
        hapart.secrets call List.mem_cons_self presented jti secret haction hpresents minted
          (List.mem_cons_of_mem _ hmem) (husable.1.trans hhash)
      have hpresented : presented = old.refreshToken := by
        rw [htoken, key_of_lookup hrow, ← hsecret, ← String.toList_inj, hpresents.1]
        simp
      have hhanded := HandedTo.refresh (hpresented ▸ haction) hold h
      refine ⟨_, hhanded, hpair, fun row' hrow' => ?_⟩
      rcases List.mem_append.1 hrow' with hrow' | hrow'
      · rcases mem_upsert hrow' with rfl | hrow'
        · exact ((hrows row (mem_of_lookup hrow)).revoke call.now).older
        · exact (hrows row' hrow').older
      · rw [List.mem_singleton.1 hrow']
        exact hminted hhanded

theorem refreshTokens_backed (hlower : services.Normalizes) (hapart : NoCollision services calls) :
    ∀ row ∈ (AccountCall.accounts services calls).refreshTokens, Backed services calls row := by
  induction calls with
  | nil => simp [AccountCall.accounts]
  | cons call past ih =>
      have hrows := ih hapart.of_cons
      cases hattempt : call.attempt services (AccountCall.accounts services past) with
      | error e =>
          simp only [AccountCall.accounts, hattempt]
          exact fun row hrow => (hrows row hrow).older
      | ok outcome =>
          obtain ⟨tables, answer⟩ := outcome
          simp only [AccountCall.accounts, hattempt]
          cases answer with
          | pair pair =>
              obtain ⟨_, -, -, hbacked⟩ := attempt_handed hlower hapart hrows hattempt
              exact hbacked
          | user user =>
              rw [attempt_user hattempt]
              exact fun row hrow => (hrows row hrow).older

/-- An access token that has been handed out speaks for the user it has been handed to. -/
theorem accessTokens_handed (hlower : services.Normalizes) (hapart : NoCollision services calls)
    {token : String} (htoken : token ∈ AccountCall.accessTokens services calls) :
    ∃ userId pair issued, HandedTo services calls userId pair issued ∧ pair.accessToken = token := by
  induction calls with
  | nil => cases htoken
  | cons call past ih =>
      have hbefore : token ∈ AccountCall.accessTokens services past → ∃ userId pair issued,
          HandedTo services (call :: past) userId pair issued ∧ pair.accessToken = token := by
        intro htoken
        obtain ⟨userId, pair, issued, hold, hpair⟩ := ih hapart.of_cons htoken
        exact ⟨userId, pair, issued, .older hold, hpair⟩
      rw [AccountCall.accessTokens] at htoken
      split at htoken
      · next tables pair hattempt =>
          rcases List.mem_cons.1 htoken with rfl | htoken
          · obtain ⟨userId, hhanded, -, -⟩ := attempt_handed hlower hapart
              (refreshTokens_backed hlower hapart.of_cons) hattempt
            exact ⟨userId, pair, call.accessNow, hhanded, rfl⟩
          · exact hbefore htoken
      · exact hbefore htoken

/-- Of two ways to split a token at its first dot there is one. -/
theorem split_unique {jti jti' secret secret' : List Char}
    (h : jti ++ '.' :: secret = jti' ++ '.' :: secret') (hjti : '.' ∉ jti) (hjti' : '.' ∉ jti') :
    jti = jti' := by
  have htake : ∀ {jti secret : List Char}, '.' ∉ jti →
      (jti ++ '.' :: secret).takeWhile (fun c => decide (c ≠ '.')) = jti := by
    intro jti secret hjti
    rw [List.takeWhile_append_of_pos]
    · simp
    · intro c hc
      simpa using fun heq : c = '.' => hjti (heq ▸ hc)
  calc jti = _ := (htake hjti).symm
    _ = _ := congrArg _ h
    _ = jti' := htake hjti'

/-- The row of a pair is there, under the user it has been handed to. -/
def TokenPair.Kept (pair : TokenPair) (userId : UserId) (rows : List RefreshToken) : Prop :=
  ∃ row ∈ rows, row.userId = userId ∧ '.' ∉ row.jti.toList ∧
    ∃ secret, pair.refreshToken = row.jti ++ "." ++ secret

theorem TokenPair.Kept.append {rows : List RefreshToken} (h : pair.Kept userId rows)
    (token : RefreshToken) : pair.Kept userId (rows ++ [token]) := by
  obtain ⟨row, hrow, hkept⟩ := h
  exact ⟨row, List.mem_append_left _ hrow, hkept⟩

theorem TokenPair.Kept.upsert {rows : List RefreshToken} (h : pair.Kept userId rows)
    (hjtis : (rows.map RefreshToken.jti).Nodup) {old : RefreshToken} (hold : old ∈ rows)
    (now : Datetime) : pair.Kept userId (upsert RefreshToken.jti (old.revoke now) rows) := by
  obtain ⟨row, hrow, huser, hdot, secret, hpair⟩ := h
  obtain ⟨before, after, hsplit, hupsert⟩ := upsert_split hjtis hold (RefreshToken.revoke_jti old now)
  rw [hupsert]
  rw [hsplit] at hrow
  rcases List.mem_append.1 hrow with hrow | hrow
  · exact ⟨row, List.mem_append_left _ hrow, huser, hdot, secret, hpair⟩
  · rcases List.mem_cons.1 hrow with rfl | hrow
    · refine ⟨row.revoke now, by simp, ?_⟩
      rw [RefreshToken.revoke_userId, RefreshToken.revoke_jti]
      exact ⟨huser, hdot, secret, hpair⟩
    · exact ⟨row, List.mem_append_right _ (List.mem_cons_of_mem _ hrow), huser, hdot, secret, hpair⟩

theorem refreshTokens_jtis (calls : List AccountCall) :
    ((AccountCall.accounts services calls).refreshTokens.map RefreshToken.jti).Nodup := by
  rw [refreshTokens_eq_rows]
  exact (chains_inv _).2

theorem AccountCall.HandsOut.kept {token : RefreshToken} {rows' : List RefreshToken} {owner : UserId}
    (hhands : call.HandsOut services (AccountCall.accounts services past) owner token rows')
    (h : pair.Kept userId (AccountCall.accounts services past).refreshTokens) :
    pair.Kept userId rows' := by
  cases hhands with
  | login => exact h.append token
  | refresh _ _ hrow => exact (h.upsert (refreshTokens_jtis past) (mem_of_lookup hrow) _).append token

theorem AccountCall.HandsOut.minted {token : RefreshToken} {rows' : List RefreshToken}
    (hhands : call.HandsOut services (AccountCall.accounts services past) userId token rows') :
    token ∈ rows' := by
  cases hhands with
  | login | refresh => exact List.mem_append_right _ List.mem_cons_self

/-- A pair that a user has been handed has their access token, and its row is there. -/
theorem HandedTo.kept (hlower : services.Normalizes) (hapart : NoCollision services calls)
    (h : HandedTo services calls userId pair issued) :
    pair.accessToken = services.tokenService.issueAccess userId issued ∧
      pair.Kept userId (AccountCall.accounts services calls).refreshTokens := by
  induction h with
  | @login call past tables pair email signedUp haction hsignedUp hemail hanswer =>
      obtain ⟨-, userId, token, rfl, rfl, hhands⟩ := attempt_pair hanswer
      have huser : userId = ⟨signedUp.userId⟩ := by
        generalize tables.refreshTokens = rows' at hhands
        cases hhands with
        | @login email' password haction' hfinds =>
            obtain ⟨rfl, rfl⟩ := AccountAction.login.inj (haction.symm.trans haction')
            have hinv := accounts_inv hlower past
            obtain ⟨other, hother, hemail', -, rfl⟩ := hinv.finds
              (fun other hother => hapart.passwords call List.mem_cons_self email signedUp.password
                haction other (signUps_mem_cons hother)) hfinds
            have haddress := Except.ok.inj (hemail'.symm.trans hemail)
            rw [hinv.unique hother hsignedUp haddress]
        | refresh haction' => cases haction.symm.trans haction'
      subst huser
      refine ⟨rfl, ?_⟩
      simp only [AccountCall.accounts, hanswer]
      exact ⟨_, hhands.minted, rfl, hapart.jtis call List.mem_cons_self, call.newSecret, rfl⟩
  | @refresh call past tables pair old userId issued haction hold hanswer ih =>
      obtain ⟨-, owner, token, rfl, rfl, hhands⟩ := attempt_pair hanswer
      have huser : owner = userId := by
        obtain ⟨-, kept, hkept, rfl, hdot, secret', htoken⟩ := ih hapart.of_cons
        generalize tables.refreshTokens = rows' at hhands
        cases hhands with
        | login haction' => cases haction.symm.trans haction'
        | @refresh presented jti secret row haction' hpresents hrow husable huser =>
            obtain rfl := AccountAction.refresh.inj (haction.symm.trans haction')
            have hsplit : jti.toList ++ '.' :: secret.toList = kept.jti.toList ++ '.' :: secret'.toList := by
              rw [← hpresents.1, htoken]
              simp
            have hjti : jti = kept.jti := String.toList_inj.1 (split_unique hsplit hpresents.2.1 hdot)
            rw [hjti, lookup_of_mem (refreshTokens_jtis past) hkept] at hrow
            obtain rfl := Option.some.inj hrow
            exact huser.symm
      subst huser
      refine ⟨rfl, ?_⟩
      simp only [AccountCall.accounts, hanswer]
      exact ⟨_, hhands.minted, rfl, hapart.jtis call List.mem_cons_self, call.newSecret, rfl⟩
  | @older call past pair userId issued hold ih =>
      obtain ⟨haccess, hkept⟩ := ih hapart.of_cons
      refine ⟨haccess, ?_⟩
      cases hattempt : call.attempt services (AccountCall.accounts services past) with
      | error e =>
          simp only [AccountCall.accounts, hattempt]
          exact hkept
      | ok outcome =>
          obtain ⟨tables, answer⟩ := outcome
          simp only [AccountCall.accounts, hattempt]
          cases answer with
          | user user =>
              rw [attempt_user hattempt]
              exact hkept
          | pair pair =>
              obtain ⟨-, _, _, -, -, hhands⟩ := attempt_pair hattempt
              exact hhands.kept hkept

theorem handed_of_decodeAccess (hlower : services.Normalizes)
    (hjwt : services.tokenService.jwt.ReadsBack services.tokenService.secretKey)
    {calls : List AccountCall} (hapart : NoCollision services calls) {now : Datetime} {token : String}
    (hunforged : ∀ payload,
      services.tokenService.jwt.decode now token services.tokenService.secretKey = some payload →
      token ∈ AccountCall.accessTokens services calls) {userId : UserId}
    (hdecode : services.tokenService.decodeAccess now token = .ok userId) :
    ∃ pair issued, HandedTo services calls userId pair issued ∧ pair.accessToken = token ∧
      services.tokenService.Live issued now := by
  have hverifies : ∃ payload,
      services.tokenService.jwt.decode now token services.tokenService.secretKey = some payload := by
    rw [JwtTokenService.decodeAccess] at hdecode
    split at hdecode
    · cases hdecode
    · next payload hpayload => exact ⟨payload, hpayload⟩
  obtain ⟨payload, hpayload⟩ := hverifies
  obtain ⟨owner, pair, issued, hhanded, rfl⟩ :=
    accessTokens_handed hlower hapart (hunforged payload hpayload)
  have htoken := (hhanded.kept hlower hapart).1
  rw [htoken, JwtTokenService.decodeAccess_issueAccess hjwt] at hdecode
  split at hdecode
  · next hlive =>
      obtain rfl := Except.ok.inj hdecode
      exact ⟨pair, issued, hhanded, rfl, hlive⟩
  · cases hdecode

theorem HandedTo.decodeAccess (hlower : services.Normalizes)
    (hjwt : services.tokenService.jwt.ReadsBack services.tokenService.secretKey)
    {calls : List AccountCall} (hapart : NoCollision services calls) {now issued : Datetime}
    {userId : UserId} {pair : TokenPair} (hhanded : HandedTo services calls userId pair issued)
    (hlive : services.tokenService.Live issued now) :
    services.tokenService.decodeAccess now pair.accessToken = .ok userId := by
  rw [(hhanded.kept hlower hapart).1, JwtTokenService.decodeAccess_issueAccess hjwt, if_pos hlive]

/-- A string is taken as an access token of a user at some moment exactly if it is alive and the user has
    been handed it, for their password or in return for a refresh token that goes back to it. The tables
    are not asked: a token lives on when the refresh token that came with it has been revoked. -/
theorem decodeAccess_iff_handed (hlower : services.Normalizes)
    (hjwt : services.tokenService.jwt.ReadsBack services.tokenService.secretKey)
    {calls : List AccountCall} (hapart : NoCollision services calls) {now : Datetime} {token : String}
    (hunforged : ∀ payload,
      services.tokenService.jwt.decode now token services.tokenService.secretKey = some payload →
      token ∈ AccountCall.accessTokens services calls) (userId : UserId) :
    services.tokenService.decodeAccess now token = .ok userId ↔
      ∃ pair issued, HandedTo services calls userId pair issued ∧ pair.accessToken = token ∧
        services.tokenService.Live issued now := by
  constructor
  · exact handed_of_decodeAccess hlower hjwt hapart hunforged
  · rintro ⟨pair, issued, hhanded, rfl, hlive⟩
    exact hhanded.decodeAccess hlower hjwt hapart hlive

/-- Ada logs in at 6 s, with token "j". -/
def adaLogsIn : AccountCall :=
  ⟨.login "ada@example.org" "hunter2", ⟨6000000, 0⟩, ⟨6000000, 0⟩, 0, "", "j", "s", true⟩

/-- A quarter of an hour later she rotates it. -/
def adaRefreshes : AccountCall :=
  ⟨.refresh "j.s", ⟨906000000, 0⟩, ⟨906000000, 0⟩, 0, "", "k", "t", true⟩

theorem plain_noCollision {calls : List AccountCall}
    (hjtis : ∀ call ∈ calls, '.' ∉ call.newJti.toList) : NoCollision plainServices calls where
  passwords _ _ _ password _ signedUp _ := plainHasher_tells password signedUp
  secrets := by
    intro _ _ _ _ secret _ _ minted _ hhash
    exact (String.append_right_inj "#").1 hhash
  jtis := hjtis

theorem ada_noCollision : NoCollision plainServices [adaRefreshes, adaLogsIn, adaSignsUp] :=
  plain_noCollision (by decide +kernel)

theorem decodeAccess_iff_handed_ada :
    plainServices.Normalizes ∧
    plainServices.tokenService.jwt.ReadsBack plainServices.tokenService.secretKey ∧
    NoCollision plainServices [adaRefreshes, adaLogsIn, adaSignsUp] ∧
    ∃ pair issued, HandedTo plainServices [adaRefreshes, adaLogsIn, adaSignsUp] ⟨1⟩ pair issued ∧
      pair.accessToken = plainServices.tokenService.issueAccess ⟨1⟩ ⟨906000000, 0⟩ ∧
      plainServices.tokenService.Live issued ⟨907000000, 0⟩ := by
  refine ⟨plainServices_normalizes, plainJwt_readsBack _, ada_noCollision, ?_⟩
  refine (decodeAccess_iff_handed plainServices_normalizes (plainJwt_readsBack _)
    ada_noCollision (fun _ _ => ?_) ⟨1⟩).1 ?_
  · decide +kernel
  · decide +kernel

end Histories

end Dizzchat
