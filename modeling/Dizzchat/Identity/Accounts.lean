import Dizzchat.Identity.AccessToken
import Dizzchat.Identity.RefreshChains
import Dizzchat.Identity.SignUps

set_option autoImplicit false

/-! # Accounts

`RegisterUser.execute`, `AuthenticateUser.execute` and `RefreshAccessToken.execute` one after the other on
the tables `users` and `refresh_tokens`, each committed or rolled back before the next. The password
hasher is a parameter: what a login relies on is that it accepts the password that was hashed, and not
one that was not (`PasswordHasher.Tells`).

The refresh tokens are those of `RefreshChains`, with the user a login finds and whether the password is
theirs read from the table of users (`refreshTokens_eq_rows`). -/

namespace Dizzchat

open Transition

/-! ## Passwords -/

/-- `hash` draws a salt; `verify` answers `False` where the hasher raises. -/
structure PasswordHasher where
  hash : String → String → PasswordHash
  verify : String → PasswordHash → Bool

/-- What a call has the hasher do. -/
inductive HasherCall
  | hash (password : String)
  | verify (candidate : String) (passwordHash : PasswordHash)
deriving DecidableEq

def User.verifyPassword (hasher : PasswordHasher) (candidate : String) (user : User) : Bool :=
  hasher.verify candidate user.passwordHash

/-! ## What PostgreSQL takes -/

/-- A text with a NUL in it is refused, in whatever statement it comes. -/
def Postgres.takesText (value : String) : Bool := decide (Char.ofNat 0 ∉ value.toList)

/-- The value of a column `String(maxLength)`. -/
def Postgres.takesVarchar (maxLength : ℕ) (value : String) : Bool :=
  takesText value && decide (value.length ≤ maxLength)

/-- `get_by_email`, the statement being taken. -/
def UserRepository.select (lower : String → String) (address : Email) (users : List UserModel) :
    Except SignUpError (Option User) :=
  if Postgres.takesText address.value then UserRepository.getByEmail lower address users
  else .error .failed

/-- `RegisterUser.lookUp`, the statement being taken. -/
def RegisterUser.select (lower : String → String) (email : String) (users : List UserModel) :
    Except SignUpError Email := do
  let address ← (Email.ofString lower email).mapError .user
  if Postgres.takesText address.value then RegisterUser.lookUp lower email users else throw .failed

/-- `get_by_jti` is asked for no jti that is refused. -/
def TokenService.sendsText (presented : String) : Bool :=
  match TokenService.parseRefresh presented with
  | .error _ => true
  | .ok (jti, _) => Postgres.takesText jti

/-! ## Calls -/

/-- What the use cases are wired with: `str.lower`, the hasher, the token service, and
    `refresh_token_ttl_seconds`. -/
structure IdentityServices where
  lower : String → String
  hasher : PasswordHasher
  tokenService : JwtTokenService
  refreshTtl : Timedelta

/-- The refresh half of the token service. -/
abbrev IdentityServices.tokens (services : IdentityServices) : TokenService :=
  services.tokenService.tokens

/-- What a call raises. -/
inductive AccountError
  | user (error : SignUpError)
  | token (error : TokenError)
deriving DecidableEq

structure Accounts where
  users : List UserModel
  refreshTokens : List RefreshToken
deriving DecidableEq

inductive AccountAction
  | signUp (email password : String)
  | login (email password : String)
  | refresh (presented : String)
deriving DecidableEq

inductive AccountAnswer
  | user (user : User)
  | pair (pair : TokenPair)
deriving DecidableEq

/-- One call: the readings of the clock, what it draws, and whether its transaction is committed in the
    end. -/
structure AccountCall where
  action : AccountAction
  now : Datetime
  accessNow : Datetime
  userId : UUID
  salt : String
  newJti : String
  newSecret : String
  commits : Bool
deriving DecidableEq

/-- `AuthenticateUser.execute` up to its `add`, with what it has the hasher do. -/
def AuthenticateUser.execute (services : IdentityServices) (email password : String)
    (now accessNow : Datetime) (generated : GeneratedRefreshToken) (users : List UserModel) :
    List HasherCall × Except AccountError (RefreshToken × TokenPair) :=
  match Email.ofString services.lower email with
  | .error _ => ([], .error (.token .invalidCredentials))
  | .ok address =>
      match UserRepository.select services.lower address users with
      | .error e => ([], .error (.user e))
      -- the hash is for nothing but the time it takes
      | .ok none => ([.hash password], .error (.token .invalidCredentials))
      | .ok (some user) =>
          ([.verify password user.passwordHash],
            (AuthenticateUser.executeOn services.tokens services.refreshTtl
              (user.verifyPassword services.hasher password) now accessNow generated
              (some user.id)).mapError .token)

/-- `add`, with the constraints of the table and the bound of its column `email`. -/
def UserRepository.add (user : User) (users : List UserModel) : Except SignUpError (List UserModel) :=
  if Postgres.takesVarchar 320 user.email.value then
    if users.any (UserModel.clash user.toModel) then .error .integrityError
    else .ok (users ++ [user.toModel])
  else .error .failed

/-- `RegisterUser.execute`, with what it has the hasher do. -/
def RegisterUser.execute (services : IdentityServices) (email password : String) (userId : UUID)
    (salt : String) (now : Datetime) (users : List UserModel) :
    List HasherCall × Except SignUpError (List UserModel × User) :=
  match RegisterUser.select services.lower email users with
  | .error e => ([], .error e)
  | .ok address =>
      let user := User.register ⟨userId⟩ address password (services.hasher.hash salt) now
      ([.hash password], (UserRepository.add user users).map fun users => (users, user))

namespace AccountCall

variable (services : IdentityServices)

/-- The rotation that a refresh asks for. -/
def rotation (presented : String) (call : AccountCall) : TokenCall :=
  ⟨.refresh presented, call.now, call.accessNow, call.newJti, call.newSecret, call.commits⟩

/-- The call up to its commit. -/
def run (call : AccountCall) (accounts : Accounts) :
    List HasherCall × Except AccountError (Accounts × AccountAnswer) :=
  match call.action with
  | .signUp email password =>
      let (work, outcome) := RegisterUser.execute services email password call.userId call.salt call.now
        accounts.users
      (work, (outcome.mapError .user).map fun (users, user) =>
        ({ accounts with users }, .user user))
  | .login email password =>
      let (work, outcome) := AuthenticateUser.execute services email password call.now call.accessNow
        (services.tokens.generateRefresh call.newJti call.newSecret) accounts.users
      (work, do
        let (token, pair) ← outcome
        let refreshTokens ← (RefreshTokenRepository.add token accounts.refreshTokens).mapError .token
        return ({ accounts with refreshTokens }, .pair pair))
  | .refresh presented =>
      if TokenService.sendsText presented then
        ([], (((call.rotation presented).run services.tokens services.refreshTtl
            accounts.refreshTokens).mapError .token).map fun (refreshTokens, pair) =>
          ({ accounts with refreshTokens }, .pair pair))
      else ([], .error (.user .failed))

def attempt (call : AccountCall) (accounts : Accounts) :
    Except AccountError (Accounts × AccountAnswer) :=
  match (call.run services accounts).2 with
  | .error e => .error e
  | .ok outcome => if call.commits then .ok outcome else .error (.token .rolledBack)

/-- The tables after some calls, the last one first. -/
def accounts : List AccountCall → Accounts
  | [] => ⟨[], []⟩
  | call :: past =>
      match call.attempt services (accounts past) with
      | .ok (accounts, _) => accounts
      | .error _ => accounts past

end AccountCall

/-- A sign-up that has succeeded. -/
structure SignedUp where
  address : Email
  password : String
  salt : String
  userId : UUID
  createdAt : Datetime
deriving DecidableEq

/-- The user it has stored. -/
def SignedUp.user (hasher : PasswordHasher) (signedUp : SignedUp) : User :=
  User.register ⟨signedUp.userId⟩ signedUp.address signedUp.password (hasher.hash signedUp.salt)
    signedUp.createdAt

/-- The hasher tells whether the candidate is the password of the sign-up. -/
def PasswordHasher.Tells (hasher : PasswordHasher) (candidate : String) (signedUp : SignedUp) : Prop :=
  hasher.verify candidate (hasher.hash signedUp.salt signedUp.password) =
    decide (candidate = signedUp.password)

namespace AccountCall

variable (services : IdentityServices)

/-- The sign-ups that have succeeded, the last one first. -/
def signUps : List AccountCall → List SignedUp
  | [] => []
  | call :: past =>
      match call.attempt services (accounts services past), call.action with
      | .ok (_, .user user), .signUp _ password =>
          ⟨user.email, password, call.salt, call.userId, call.now⟩ :: signUps past
      | _, _ => signUps past

/-- What a login finds under the email: a user, and whether the password is theirs. -/
def finds (email password : String) (users : List UserModel) : Option UserId × Bool :=
  match Email.ofString services.lower email with
  | .error _ => (none, false)
  | .ok address =>
      match UserRepository.select services.lower address users with
      | .ok (some user) => (some user.id, user.verifyPassword services.hasher password)
      | .ok none | .error _ => (none, false)

/-- The call on the refresh tokens alone, if it comes so far. -/
def tokenCall (call : AccountCall) (users : List UserModel) : Option TokenCall :=
  match call.action with
  | .signUp _ _ => none
  | .login email password =>
      let (user, verified) := finds services email password users
      some ⟨.login user verified, call.now, call.accessNow, call.newJti, call.newSecret, call.commits⟩
  | .refresh presented =>
      if TokenService.sendsText presented then some (call.rotation presented) else none

def tokenCalls : List AccountCall → List TokenCall
  | [] => []
  | call :: past => (call.tokenCall services (accounts services past).users).toList ++ tokenCalls past

end AccountCall

/-! ## The refresh tokens of the accounts -/

section Outcomes

variable {ε ε' α β : Type} {x : Except ε α}

theorem mapError_eq_ok {f : ε → ε'} {a : α} : x.mapError f = .ok a ↔ x = .ok a := by
  cases x <;> simp [Except.mapError]

theorem map_eq_ok {f : α → β} {b : β} : x.map f = .ok b ↔ ∃ a, x = .ok a ∧ b = f a := by
  cases x <;> simp [Except.map, eq_comm]

theorem bind_eq_ok {f : α → Except ε β} {b : β} :
    (x >>= f) = .ok b ↔ ∃ a, x = .ok a ∧ f a = .ok b := by
  cases x <;> simp [bind, Except.bind]

theorem mapError_eq_error {f : ε → ε'} {e : ε'} :
    x.mapError f = .error e ↔ ∃ e', x = .error e' ∧ f e' = e := by
  cases x <;> simp [Except.mapError]

theorem map_eq_error {f : α → β} {e : ε} : x.map f = .error e ↔ x = .error e := by
  cases x <;> simp [Except.map]

theorem bind_eq_error {f : α → Except ε β} {e : ε} :
    (x >>= f) = .error e ↔ x = .error e ∨ ∃ a, x = .ok a ∧ f a = .error e := by
  cases x <;> simp [bind, Except.bind]

theorem pure_eq_ok {a b : α} : (pure a : Except ε α) = .ok b ↔ b = a := by
  simp [pure, Except.pure, eq_comm]

end Outcomes

section Calls

variable {services : IdentityServices} {call : AccountCall} {tables tables' : Accounts}
  {answer : AccountAnswer}

theorem authenticate_eq_ok {email password : String} {now accessNow : Datetime}
    {generated : GeneratedRefreshToken} {users : List UserModel} {result : RefreshToken × TokenPair} :
    (AuthenticateUser.execute services email password now accessNow generated users).2 = .ok result ↔
      AuthenticateUser.executeOn services.tokens services.refreshTtl
        (AccountCall.finds services email password users).2 now accessNow generated
        (AccountCall.finds services email password users).1 = .ok result := by
  unfold AuthenticateUser.execute AccountCall.finds
  cases Email.ofString services.lower email with
  | error e => simp [AuthenticateUser.executeOn]
  | ok address =>
      simp only
      cases UserRepository.select services.lower address users with
      | error e => simp [AuthenticateUser.executeOn]
      | ok found =>
          cases found with
          | none => simp [AuthenticateUser.executeOn]
          | some user => exact mapError_eq_ok

/-- A login or a refresh does to the refresh tokens what its `TokenCall` does, and nothing else. -/
theorem run_tokenCall {tokenCall : TokenCall}
    (h : call.tokenCall services tables.users = some tokenCall) :
    (call.run services tables).2 = .ok (tables', answer) ↔
      ∃ refreshTokens pair,
        tokenCall.run services.tokens services.refreshTtl tables.refreshTokens =
          .ok (refreshTokens, pair) ∧
        tables' = { tables with refreshTokens } ∧ answer = .pair pair := by
  unfold AccountCall.tokenCall at h
  cases haction : call.action with
  | signUp email password =>
      rw [haction] at h
      cases h
  | login email password =>
      rw [haction] at h
      obtain rfl := Option.some.inj h
      simp only [AccountCall.run, haction, TokenCall.run, bind_eq_ok, pure_eq_ok, mapError_eq_ok,
        authenticate_eq_ok, Prod.exists, Prod.mk.injEq]
      constructor
      · rintro ⟨token, pair, hlogin, refreshTokens, hadd, rfl, rfl⟩
        exact ⟨refreshTokens, pair, ⟨token, pair, hlogin, refreshTokens, hadd, rfl, rfl⟩, rfl, rfl⟩
      · rintro ⟨refreshTokens, pair, ⟨token, _, hlogin, _, hadd, rfl, rfl⟩, rfl, rfl⟩
        exact ⟨token, _, hlogin, _, hadd, rfl, rfl⟩
  | refresh presented =>
      simp only [haction] at h
      split at h
      · next hsends =>
          obtain rfl := Option.some.inj h
          simp only [AccountCall.run, haction, hsends, if_true, map_eq_ok, mapError_eq_ok, Prod.exists,
            Prod.mk.injEq]
      · cases h

theorem userAdd_eq_ok {user : User} {users users' : List UserModel} :
    UserRepository.add user users = .ok users' ↔
      Postgres.takesVarchar 320 user.email.value = true ∧
        users.any (UserModel.clash user.toModel) = false ∧ users' = users ++ [user.toModel] := by
  unfold UserRepository.add
  split
  · next hfits =>
      split
      · next hclash => simp [hclash]
      · next hclash => simp [hfits, hclash, eq_comm]
  · next hlong => simp [hlong]

theorem register_eq_ok {email password : String} {userId : UUID} {salt : String} {now : Datetime}
    {users users' : List UserModel} {user : User} :
    (RegisterUser.execute services email password userId salt now users).2 = .ok (users', user) ↔
      ∃ address, RegisterUser.select services.lower email users = .ok address ∧
        user = User.register ⟨userId⟩ address password (services.hasher.hash salt) now ∧
        Postgres.takesVarchar 320 address.value = true ∧
        users.any (UserModel.clash user.toModel) = false ∧ users' = users ++ [user.toModel] := by
  unfold RegisterUser.execute
  cases RegisterUser.select services.lower email users with
  | error e => simp
  | ok address =>
      simp only [map_eq_ok, userAdd_eq_ok, Prod.mk.injEq, Except.ok.injEq, exists_eq_left']
      constructor
      · rintro ⟨_, ⟨hfits, hclash, rfl⟩, rfl, rfl⟩
        exact ⟨rfl, hfits, hclash, rfl⟩
      · rintro ⟨rfl, hfits, hclash, rfl⟩
        exact ⟨_, ⟨hfits, hclash, rfl⟩, rfl, rfl⟩

/-- A sign-up adds its user, and touches nothing else. -/
theorem run_signUp {email password : String} (haction : call.action = .signUp email password) :
    (call.run services tables).2 = .ok (tables', answer) ↔
      ∃ users user,
        (RegisterUser.execute services email password call.userId call.salt call.now tables.users).2 =
          .ok (users, user) ∧
        tables' = { tables with users } ∧ answer = .user user := by
  simp only [AccountCall.run, haction, map_eq_ok, mapError_eq_ok, Prod.exists, Prod.mk.injEq]

theorem attempt_eq_ok {outcome : Accounts × AccountAnswer} :
    call.attempt services tables = .ok outcome ↔
      (call.run services tables).2 = .ok outcome ∧ call.commits = true := by
  unfold AccountCall.attempt
  cases (call.run services tables).2 with
  | error e => simp
  | ok result => cases call.commits <;> simp

/-- `run_tokenCall` for calls that are committed. -/
theorem attempt_tokenCall {tokenCall : TokenCall}
    (h : call.tokenCall services tables.users = some tokenCall) :
    call.attempt services tables = .ok (tables', answer) ↔
      ∃ refreshTokens pair,
        tokenCall.attempt services.tokens services.refreshTtl tables.refreshTokens =
          .ok (refreshTokens, pair) ∧
        tables' = { tables with refreshTokens } ∧ answer = .pair pair := by
  have hcommits : tokenCall.commits = call.commits := by
    unfold AccountCall.tokenCall at h
    split at h
    · cases h
    · exact (Option.some.inj h) ▸ rfl
    · split at h
      · exact (Option.some.inj h) ▸ rfl
      · cases h
  have hattempt : ∀ outcome,
      tokenCall.attempt services.tokens services.refreshTtl tables.refreshTokens = .ok outcome ↔
        tokenCall.run services.tokens services.refreshTtl tables.refreshTokens = .ok outcome ∧
          call.commits = true := by
    intro outcome
    unfold TokenCall.attempt
    rw [hcommits]
    cases tokenCall.run services.tokens services.refreshTtl tables.refreshTokens with
    | error e => simp
    | ok result => cases call.commits <;> simp
  rw [attempt_eq_ok, run_tokenCall h]
  simp only [hattempt]
  constructor
  · rintro ⟨⟨refreshTokens, pair, hrun, htables, hanswer⟩, hcommit⟩
    exact ⟨refreshTokens, pair, ⟨hrun, hcommit⟩, htables, hanswer⟩
  · rintro ⟨refreshTokens, pair, ⟨hrun, hcommit⟩, htables, hanswer⟩
    exact ⟨⟨refreshTokens, pair, hrun, htables, hanswer⟩, hcommit⟩

theorem sendsText_of_attempt {presented : String} (haction : call.action = .refresh presented)
    (h : call.attempt services tables = .ok (tables', answer)) :
    TokenService.sendsText presented = true := by
  have hrun := (attempt_eq_ok.1 h).1
  simp only [AccountCall.run, haction] at hrun
  split at hrun
  · next hsends => exact hsends
  · cases hrun

/-- A call that is answered is a sign-up, or it comes as far as the refresh tokens. -/
theorem tokenCall_of_attempt (h : call.attempt services tables = .ok (tables', answer)) :
    (∃ email password, call.action = .signUp email password) ∨
      ∃ tokenCall, call.tokenCall services tables.users = some tokenCall := by
  unfold AccountCall.tokenCall
  cases haction : call.action with
  | signUp email password => exact .inl ⟨email, password, rfl⟩
  | login email password => exact .inr ⟨_, rfl⟩
  | refresh presented => exact .inr ⟨_, if_pos (sendsText_of_attempt haction h)⟩

end Calls

/-! ## Histories -/

section Histories

variable {services : IdentityServices}

/-- The refresh tokens are those of the logins and the rotations. -/
theorem refreshTokens_eq_rows (calls : List AccountCall) :
    (AccountCall.accounts services calls).refreshTokens =
      TokenCall.rows services.tokens services.refreshTtl (AccountCall.tokenCalls services calls) := by
  induction calls with
  | nil => rfl
  | cons call past ih =>
      rw [AccountCall.accounts, AccountCall.tokenCalls]
      cases hcall : call.tokenCall services (AccountCall.accounts services past).users with
      | none =>
          show _ = TokenCall.rows _ _ (AccountCall.tokenCalls services past)
          rw [← ih]
          cases hattempt : call.attempt services (AccountCall.accounts services past) with
          | error e => rfl
          | ok outcome =>
              obtain ⟨tables', answer⟩ := outcome
              rcases tokenCall_of_attempt hattempt with ⟨email, password, haction⟩ | ⟨tokenCall, hsome⟩
              · obtain ⟨users, user, -, rfl, -⟩ := (run_signUp haction).1 (attempt_eq_ok.1 hattempt).1
                rfl
              · rw [hcall] at hsome
                cases hsome
      | some tokenCall =>
          show _ = TokenCall.rows _ _ (tokenCall :: AccountCall.tokenCalls services past)
          rw [TokenCall.rows, ← ih]
          have hattempt : ∀ tables' answer,
              call.attempt services (AccountCall.accounts services past) = .ok (tables', answer) ↔ _ :=
            fun tables' answer => attempt_tokenCall hcall
          cases htoken : tokenCall.attempt services.tokens services.refreshTtl
              (AccountCall.accounts services past).refreshTokens with
          | error e =>
              simp only [htoken, reduceCtorEq, false_and, exists_false, iff_false] at hattempt
              cases hfails : call.attempt services (AccountCall.accounts services past) with
              | error e => rfl
              | ok outcome => exact absurd hfails (hattempt outcome.1 outcome.2)
          | ok outcome =>
              rw [(hattempt _ _).2 ⟨outcome.1, outcome.2, htoken, rfl, rfl⟩]

/-- An address that has been normalised stays as it is. -/
def IdentityServices.Normalizes (services : IdentityServices) : Prop :=
  ∀ value, services.lower (strip (services.lower (strip value))) = services.lower (strip value)

/-- The users are those of the sign-ups, and no two of them have an address or an id in common. -/
structure AccountsInv (services : IdentityServices) (users : List UserModel)
    (signUps : List SignedUp) : Prop where
  stored : users = signUps.reverse.map fun signedUp => (signedUp.user services.hasher).toModel
  distinct : users.Pairwise fun a b => UserModel.clash a b = false
  normal : ∀ signedUp ∈ signUps,
    services.lower (strip signedUp.address.value) = signedUp.address.value
  texts : ∀ signedUp ∈ signUps, Postgres.takesText signedUp.address.value = true

theorem Email.eq_of_value {a b : Email} (h : a.value = b.value) : a = b := by
  obtain ⟨value, hvalid⟩ := a
  obtain ⟨value', hvalid'⟩ := b
  obtain rfl : value = value' := h
  rfl

theorem ofString_eq_ok {lower : String → String} {value : String} {address : Email} :
    Email.ofString lower value = .ok address ↔ lower (strip value) = address.value := by
  unfold Email.ofString
  simp only
  split
  · next hvalid =>
      constructor
      · intro h
        exact Except.ok.inj h ▸ rfl
      · intro h
        exact congrArg Except.ok (Email.eq_of_value h)
  · next hvalid =>
      constructor
      · intro h
        cases h
      · intro h
        exact absurd (h ▸ address.valid) hvalid

theorem ofString_eq_error {lower : String → String} {value : String} {e : UserError} :
    Email.ofString lower value = .error e ↔
      emailPattern (lower (strip value)) = false ∧ e = .invalidEmail value := by
  unfold Email.ofString
  simp only
  split
  · next hvalid => simp [hvalid]
  · next hvalid => simp [hvalid, eq_comm]

section Inv

variable {users : List UserModel} {signUps : List SignedUp}

theorem AccountsInv.mem (h : AccountsInv services users signUps) {signedUp : SignedUp}
    (hmem : signedUp ∈ signUps) : (signedUp.user services.hasher).toModel ∈ users := by
  rw [h.stored]
  exact List.mem_map.2 ⟨signedUp, List.mem_reverse.2 hmem, rfl⟩

/-- A user is found under the address they have signed up with. -/
theorem AccountsInv.found (h : AccountsInv services users signUps) {signedUp : SignedUp}
    (hmem : signedUp ∈ signUps) :
    UserRepository.select services.lower signedUp.address users =
      .ok (some (signedUp.user services.hasher)) := by
  rw [UserRepository.select, if_pos (h.texts signedUp hmem)]
  have hrow : (signedUp.user services.hasher).toModel ∈
      users.filter fun row => row.email = signedUp.address.value :=
    List.mem_filter.2 ⟨h.mem hmem, decide_eq_true rfl⟩
  have hone := filter_email_length_le signedUp.address.value h.distinct
  have hdomain : (signedUp.user services.hasher).toModel.toDomain services.lower =
      .ok (signedUp.user services.hasher) :=
    User.toDomain_toModel services.lower (h.normal signedUp hmem)
  unfold UserRepository.getByEmail
  generalize users.filter (fun row => decide (row.email = signedUp.address.value)) = matching
    at hrow hone
  rcases matching with _ | ⟨row, _ | ⟨other, rest⟩⟩
  · cases hrow
  · obtain rfl := List.mem_singleton.1 hrow
    simp only [hdomain]
    rfl
  · simp at hone

/-- Under an address nobody has signed up with, nobody is found. -/
theorem AccountsInv.missing (h : AccountsInv services users signUps) {address : Email}
    (htext : Postgres.takesText address.value = true)
    (hnone : ∀ signedUp ∈ signUps, signedUp.address ≠ address) :
    UserRepository.select services.lower address users = .ok none := by
  rw [UserRepository.select, if_pos htext]
  have hempty : users.filter (fun row => decide (row.email = address.value)) = [] := by
    refine List.filter_eq_nil_iff.2 fun row hrow => ?_
    rw [h.stored] at hrow
    obtain ⟨signedUp, hmem, rfl⟩ := List.mem_map.1 hrow
    have hne := hnone signedUp (List.mem_reverse.1 hmem)
    intro heq
    have hvalue : signedUp.address.value = address.value := of_decide_eq_true heq
    exact hne (Email.eq_of_value hvalue)
  unfold UserRepository.getByEmail
  rw [hempty]
  rfl

/-- An address has been signed up with once at most. -/
theorem AccountsInv.unique (h : AccountsInv services users signUps) {signedUp other : SignedUp}
    (hmem : signedUp ∈ signUps) (hother : other ∈ signUps)
    (haddress : signedUp.address = other.address) : signedUp = other := by
  have hpairwise := h.distinct
  rw [h.stored, List.pairwise_map] at hpairwise
  by_contra hne
  have : Std.Symm fun a b : SignedUp =>
      UserModel.clash (a.user services.hasher).toModel (b.user services.hasher).toModel = false :=
    ⟨fun a b hab => (UserModel.clash_comm _ _).trans hab⟩
  have hclash := hpairwise.forall (List.mem_reverse.2 hmem) (List.mem_reverse.2 hother) hne
  rw [UserModel.clash_of_email (congrArg Email.value haddress)] at hclash
  cases hclash

/-- A sign-up is turned away for its address exactly when somebody has signed up with it, or it is not
    one, or no text for a statement. -/
theorem AccountsInv.select (h : AccountsInv services users signUps) {email : String} {address : Email} :
    RegisterUser.select services.lower email users = .ok address ↔
      Email.ofString services.lower email = .ok address ∧ Postgres.takesText address.value = true ∧
        ∀ signedUp ∈ signUps, signedUp.address ≠ address := by
  unfold RegisterUser.select RegisterUser.lookUp
  cases hemail : Email.ofString services.lower email with
  | error e => simp [Except.mapError, bind, Except.bind]
  | ok address' =>
      simp only [Except.mapError, bind_eq_ok, Except.ok.injEq, exists_eq_left']
      split
      · next htext =>
          have hselect : UserRepository.select services.lower address' users =
              UserRepository.getByEmail services.lower address' users := if_pos htext
          by_cases htaken : ∃ signedUp ∈ signUps, signedUp.address = address'
          · obtain ⟨signedUp, hmem, rfl⟩ := htaken
            simp only [← hselect, h.found hmem, Except.bind, bind]
            constructor
            · intro hthrow
              cases hthrow
            · rintro ⟨rfl, -, hnone⟩
              exact absurd rfl (hnone signedUp hmem)
          · have hnone : ∀ signedUp ∈ signUps, signedUp.address ≠ address' := by
              intro signedUp hmem heq
              exact htaken ⟨signedUp, hmem, heq⟩
            simp only [← hselect, h.missing htext hnone, Except.bind, bind, pure_eq_ok]
            constructor
            · rintro rfl
              exact ⟨rfl, htext, hnone⟩
            · rintro ⟨rfl, -⟩
              rfl
      · next htext =>
          constructor
          · intro hthrow
            cases hthrow
          · rintro ⟨rfl, htext', -⟩
            exact absurd htext' htext

theorem AccountsInv.select_taken (h : AccountsInv services users signUps) {email : String}
    {signedUp : SignedUp} (hmem : signedUp ∈ signUps)
    (hemail : Email.ofString services.lower email = .ok signedUp.address) :
    RegisterUser.select services.lower email users =
      .error (.user (.emailAlreadyRegistered signedUp.address.value)) := by
  have htext := h.texts signedUp hmem
  have hfound := h.found hmem
  rw [UserRepository.select, if_pos htext] at hfound
  unfold RegisterUser.select RegisterUser.lookUp
  rw [hemail]
  show (if Postgres.takesText signedUp.address.value then
    (UserRepository.getByEmail services.lower signedUp.address users >>= _) else _) = _
  rw [if_pos htext, hfound]
  rfl

/-- The constraints of the table let a user through whose id and address are new. -/
theorem AccountsInv.clash (h : AccountsInv services users signUps) (user : User) :
    users.any (UserModel.clash user.toModel) = false ↔
      ∀ signedUp ∈ signUps, signedUp.address ≠ user.email ∧ signedUp.userId ≠ user.id.value := by
  have hrow : ∀ signedUp : SignedUp,
      UserModel.clash user.toModel (signedUp.user services.hasher).toModel = false ↔
        signedUp.address ≠ user.email ∧ signedUp.userId ≠ user.id.value := by
    intro signedUp
    simp only [UserModel.clash, Bool.or_eq_false_iff, decide_eq_false_iff_not]
    constructor
    · rintro ⟨hid, hemail⟩
      exact ⟨fun heq => hemail (congrArg Email.value heq.symm), fun heq => hid heq.symm⟩
    · rintro ⟨hemail, hid⟩
      exact ⟨fun heq => hid heq.symm, fun heq => hemail (Email.eq_of_value heq).symm⟩
  rw [h.stored]
  simp only [List.any_map, List.any_reverse, List.any_eq_false, Function.comp_apply,
    Bool.not_eq_true, hrow]

/-- A sign-up adds its user. -/
theorem AccountsInv.signUp (h : AccountsInv services users signUps) (hlower : services.Normalizes)
    (signedUp : SignedUp) {email : String}
    (hemail : services.lower (strip email) = signedUp.address.value)
    (htext : Postgres.takesText signedUp.address.value = true)
    (hfresh : users.any (UserModel.clash (signedUp.user services.hasher).toModel) = false) :
    AccountsInv services (users ++ [(signedUp.user services.hasher).toModel])
      (signedUp :: signUps) where
  stored := by
    rw [List.reverse_cons, List.map_append, ← h.stored]
    rfl
  distinct := by
    refine List.pairwise_append.2 ⟨h.distinct, List.pairwise_singleton _ _, ?_⟩
    intro row hrow other hother
    rw [List.mem_singleton.1 hother, UserModel.clash_comm]
    simpa using List.any_eq_false.1 hfresh row hrow
  normal := by
    intro other hother
    rcases List.mem_cons.1 hother with rfl | hother
    · rw [← hemail]
      exact hlower email
    · exact h.normal other hother
  texts := by
    intro other hother
    rcases List.mem_cons.1 hother with rfl | hother
    · exact htext
    · exact h.texts other hother

end Inv

/-- A call that is not a sign-up leaves the users alone. -/
theorem tokenCall_users {call : AccountCall} {tokenCall : TokenCall} {tables tables' : Accounts}
    {answer : AccountAnswer} (hcall : call.tokenCall services tables.users = some tokenCall)
    (h : call.attempt services tables = .ok (tables', answer)) :
    tables'.users = tables.users ∧ ∃ pair, answer = .pair pair := by
  obtain ⟨_, pair, -, rfl, rfl⟩ := (attempt_tokenCall hcall).1 h
  exact ⟨rfl, pair, rfl⟩

theorem accounts_inv (hlower : services.Normalizes) (calls : List AccountCall) :
    AccountsInv services (AccountCall.accounts services calls).users
      (AccountCall.signUps services calls) := by
  induction calls with
  | nil => exact ⟨rfl, .nil, by simp [AccountCall.signUps], by simp [AccountCall.signUps]⟩
  | cons call past ih =>
      cases hattempt : call.attempt services (AccountCall.accounts services past) with
      | error e =>
          simp only [AccountCall.accounts, AccountCall.signUps, hattempt]
          exact ih
      | ok outcome =>
          obtain ⟨tables', answer⟩ := outcome
          cases hcall : call.tokenCall services (AccountCall.accounts services past).users with
          | some tokenCall =>
              obtain ⟨husers, pair, rfl⟩ := tokenCall_users hcall hattempt
              simp only [AccountCall.accounts, AccountCall.signUps, hattempt, husers]
              exact ih
          | none =>
              rcases tokenCall_of_attempt hattempt with ⟨email, password, haction⟩ | ⟨tokenCall, hsome⟩
              · obtain ⟨_, user, hregister, rfl, rfl⟩ :=
                  (run_signUp haction).1 (attempt_eq_ok.1 hattempt).1
                obtain ⟨address, hselect, rfl, -, hfresh, rfl⟩ := register_eq_ok.1 hregister
                obtain ⟨hemail, htext, -⟩ := ih.select.1 hselect
                simp only [AccountCall.accounts, AccountCall.signUps, hattempt, haction]
                exact ih.signUp hlower ⟨address, password, call.salt, call.userId, call.now⟩
                  (ofString_eq_ok.1 hemail) htext hfresh
              · rw [hcall] at hsome
                cases hsome

/-! ## Ada -/

/-- A hasher that keeps the password. -/
def plainHasher : PasswordHasher where
  hash _ password := ⟨"$" ++ password, by simp⟩
  verify candidate passwordHash := decide (passwordHash.value = "$" ++ candidate)

/-- On addresses that are in lower case already. -/
def plainServices : IdentityServices where
  lower := id
  hasher := plainHasher
  tokenService := { jwt := plainJwt, secretKey := "k", accessTtl := ⟨900 * 1000000⟩, hashSecret := ("#" ++ ·) }
  refreshTtl := ⟨604800 * 1000000⟩

theorem plainServices_normalizes : plainServices.Normalizes := by
  intro value
  show strip (strip value) = strip value
  exact strip_idem value

theorem plainHasher_tells (candidate : String) (signedUp : SignedUp) :
    plainHasher.Tells candidate signedUp := by
  show decide (_ = _) = decide (_ = _)
  simp [eq_comm, plainHasher]

/-- Ada signs up at 5 s, as user 1. -/
def adaSignsUp : AccountCall :=
  ⟨.signUp " ada@example.org" "hunter2", ⟨5000000, 0⟩, ⟨5000000, 0⟩, 1, "salt", "", "", true⟩

/-! ## Logins -/

section Logins

variable {email password : String} {now accessNow : Datetime} {generated : GeneratedRefreshToken}
  {users : List UserModel} {signUps : List SignedUp}

/-- What a login answers on the users of the sign-ups. -/
theorem AccountsInv.login (h : AccountsInv services users signUps) {signedUp : SignedUp}
    (hmem : signedUp ∈ signUps)
    (hemail : Email.ofString services.lower email = .ok signedUp.address) :
    AuthenticateUser.execute services email password now accessNow generated users =
      ([.verify password (services.hasher.hash signedUp.salt signedUp.password)],
        (AuthenticateUser.executeOn services.tokens services.refreshTtl
          (services.hasher.verify password (services.hasher.hash signedUp.salt signedUp.password))
          now accessNow generated (some ⟨signedUp.userId⟩)).mapError .token) := by
  unfold AuthenticateUser.execute
  rw [hemail]
  simp only [h.found hmem]
  rfl

theorem AccountsInv.login_missing (h : AccountsInv services users signUps) {address : Email}
    (hemail : Email.ofString services.lower email = .ok address)
    (htext : Postgres.takesText address.value = true)
    (hnone : ∀ signedUp ∈ signUps, signedUp.address ≠ address) :
    AuthenticateUser.execute services email password now accessNow generated users =
      ([.hash password], .error (.token .invalidCredentials)) := by
  unfold AuthenticateUser.execute
  rw [hemail]
  simp only [h.missing htext hnone]

/-- The email is an address, and a text for a statement. -/
def IdentityServices.asksFor (services : IdentityServices) (email : String) : Bool :=
  emailPattern (services.lower (strip email)) && Postgres.takesText (services.lower (strip email))

/-- The ways a login goes after some sign-ups: it is refused, with no sign-up under that address and that
    password, or it is let in by one, or its statement is not taken. The hasher has the same to do in
    both of the first two, unless the email is no address. -/
theorem login_cases (hlower : services.Normalizes) (past : List AccountCall)
    (htells : ∀ signedUp ∈ AccountCall.signUps services past, services.hasher.Tells password signedUp)
    {work : List HasherCall} {outcome : Except AccountError (RefreshToken × TokenPair)}
    (h : AuthenticateUser.execute services email password now accessNow generated
      (AccountCall.accounts services past).users = (work, outcome)) :
    work.length = (if services.asksFor email then 1 else 0) ∧
    ((outcome = .error (.token .invalidCredentials) ∧
        (emailPattern (services.lower (strip email)) → services.asksFor email) ∧
        ∀ signedUp ∈ AccountCall.signUps services past,
          Email.ofString services.lower email = .ok signedUp.address → signedUp.password ≠ password) ∨
      (∃ signedUp ∈ AccountCall.signUps services past,
        Email.ofString services.lower email = .ok signedUp.address ∧ signedUp.password = password ∧
        outcome = .ok (RefreshToken.issue generated.jti ⟨signedUp.userId⟩ generated.tokenHash now
          services.refreshTtl,
          ⟨services.tokenService.issueAccess ⟨signedUp.userId⟩ accessNow, generated.token⟩)) ∨
      outcome = .error (.user .failed) ∧ emailPattern (services.lower (strip email)) ∧
        Postgres.takesText (services.lower (strip email)) = false) := by
  have hinv := accounts_inv hlower past
  unfold IdentityServices.asksFor
  cases hemail : Email.ofString services.lower email with
  | error e =>
      have hrefused : AuthenticateUser.execute services email password now accessNow generated
          (AccountCall.accounts services past).users = ([], .error (.token .invalidCredentials)) := by
        unfold AuthenticateUser.execute
        rw [hemail]
      have hpattern : emailPattern (services.lower (strip email)) = false :=
        (ofString_eq_error.1 hemail).1
      obtain ⟨rfl, rfl⟩ := Prod.mk.inj (h.symm.trans hrefused)
      simp [hpattern]
  | ok address =>
      have hpattern : emailPattern (services.lower (strip email)) = true :=
        (ofString_eq_ok.1 hemail) ▸ address.valid
      have haddress : services.lower (strip email) = address.value := ofString_eq_ok.1 hemail
      rw [hpattern, haddress, Bool.true_and]
      cases htext : Postgres.takesText address.value with
      | false =>
          have hrefused : AuthenticateUser.execute services email password now accessNow generated
              (AccountCall.accounts services past).users = ([], .error (.user .failed)) := by
            unfold AuthenticateUser.execute
            simp only [hemail, UserRepository.select, htext, Bool.false_eq_true, if_false]
          obtain ⟨rfl, rfl⟩ := Prod.mk.inj (h.symm.trans hrefused)
          exact ⟨rfl, .inr (.inr ⟨rfl, rfl, rfl⟩)⟩
      | true =>
          rw [if_pos rfl]
          by_cases htaken : ∃ signedUp ∈ AccountCall.signUps services past, signedUp.address = address
          · obtain ⟨signedUp, hmem, rfl⟩ := htaken
            obtain ⟨rfl, rfl⟩ := Prod.mk.inj (h.symm.trans (hinv.login hmem hemail))
            refine ⟨rfl, ?_⟩
            rw [htells signedUp hmem]
            by_cases hpassword : password = signedUp.password
            · rw [decide_eq_true hpassword]
              exact .inr (.inl ⟨signedUp, hmem, rfl, hpassword.symm, rfl⟩)
            · rw [decide_eq_false hpassword]
              refine .inl ⟨rfl, fun _ => rfl, fun other hother hsame hsecret => hpassword ?_⟩
              rw [← hsecret, hinv.unique hother hmem (Except.ok.inj hsame).symm]
          · have hnone : ∀ signedUp ∈ AccountCall.signUps services past, signedUp.address ≠ address := by
              intro signedUp hmem heq
              exact htaken ⟨signedUp, hmem, heq⟩
            obtain ⟨rfl, rfl⟩ := Prod.mk.inj (h.symm.trans (hinv.login_missing hemail htext hnone))
            refine ⟨rfl, .inl ⟨rfl, fun _ => rfl, fun signedUp hmem hsame => ?_⟩⟩
            exact absurd (Except.ok.inj hsame).symm (hnone signedUp hmem)

/-- A login after any history is accepted exactly with the address and the password of a sign-up. Every
    other one is answered alike, and has had the hasher do as much, unless the email is not an address or
    its statement is not taken, for a NUL. -/
theorem login_answers (hlower : services.Normalizes) (past : List AccountCall)
    (email password : String) (now accessNow : Datetime) (generated : GeneratedRefreshToken)
    (htells : ∀ signedUp ∈ AccountCall.signUps services past, services.hasher.Tells password signedUp)
    {work : List HasherCall}
    {outcome : Except AccountError (RefreshToken × TokenPair)}
    (h : AuthenticateUser.execute services email password now accessNow generated
      (AccountCall.accounts services past).users = (work, outcome)) :
    (∀ token pair, outcome = .ok (token, pair) ↔
      ∃ signedUp ∈ AccountCall.signUps services past,
        Email.ofString services.lower email = .ok signedUp.address ∧ signedUp.password = password ∧
        token = RefreshToken.issue generated.jti ⟨signedUp.userId⟩ generated.tokenHash now
          services.refreshTtl ∧
        pair = ⟨services.tokenService.issueAccess ⟨signedUp.userId⟩ accessNow, generated.token⟩) ∧
    (∀ e, outcome = .error e →
      e = if emailPattern (services.lower (strip email)) && !services.asksFor email then .user .failed
        else .token .invalidCredentials) ∧
    work.length = if services.asksFor email then 1 else 0 := by
  obtain ⟨hwork, hcases⟩ := login_cases hlower past htells h
  refine ⟨fun token pair => ?_, fun e he => ?_, hwork⟩
  · constructor
    · rintro rfl
      rcases hcases with ⟨hrefused, -⟩ | ⟨signedUp, hmem, haddress, hpassword, hok⟩ | ⟨hfailed, -⟩
      · cases hrefused
      · obtain ⟨rfl, rfl⟩ := Prod.mk.inj (Except.ok.inj hok)
        exact ⟨signedUp, hmem, haddress, hpassword, rfl, rfl⟩
      · cases hfailed
    · rintro ⟨signedUp, hmem, haddress, hpassword, rfl, rfl⟩
      rcases hcases with ⟨-, -, hnone⟩ | ⟨other, hother, haddress', -, rfl⟩ | ⟨-, -, htext⟩
      · exact absurd hpassword (hnone signedUp hmem haddress)
      · have hsame : signedUp.address = other.address := Except.ok.inj (haddress.symm.trans haddress')
        obtain rfl := (accounts_inv hlower past).unique hmem hother hsame
        rfl
      · rw [ofString_eq_ok.1 haddress, (accounts_inv hlower past).texts signedUp hmem] at htext
        cases htext
  · rcases hcases with ⟨hrefused, hasks, -⟩ | ⟨signedUp, -, -, -, hok⟩ | ⟨hfailed, hpattern, htext⟩
    · obtain rfl := Except.error.inj (he.symm.trans hrefused)
      rw [if_neg]
      simpa using hasks
    · rw [he] at hok
      cases hok
    · obtain rfl := Except.error.inj (he.symm.trans hfailed)
      rw [if_pos]
      simp [IdentityServices.asksFor, hpattern, htext]

theorem login_answers_ada :
    plainServices.Normalizes ∧
      (AuthenticateUser.execute plainServices "ada@example.org " "hunter2" ⟨9, 0⟩ ⟨9, 0⟩ ⟨"j", "j.s", "#s"⟩
        (AccountCall.accounts plainServices [adaSignsUp]).users).2 =
        .ok (RefreshToken.issue "j" ⟨1⟩ "#s" ⟨9, 0⟩ plainServices.refreshTtl,
          ⟨plainServices.tokenService.issueAccess ⟨1⟩ ⟨9, 0⟩, "j.s"⟩) := by
  refine ⟨plainServices_normalizes, ((login_answers plainServices_normalizes [adaSignsUp]
    "ada@example.org " "hunter2" ⟨9, 0⟩ ⟨9, 0⟩ ⟨"j", "j.s", "#s"⟩
    (fun signedUp _ => plainHasher_tells "hunter2" signedUp) rfl).1 _ _).2 ?_⟩
  exact ⟨⟨adaEmail, "hunter2", "salt", 1, ⟨5000000, 0⟩⟩, by decide +kernel, by decide +kernel, rfl, rfl, rfl⟩

theorem signUp_eq_ok (hlower : services.Normalizes) (past : List AccountCall)
    {userId : UUID} {salt : String} {work : List HasherCall}
    {outcome : Except SignUpError (List UserModel × User)}
    (h : RegisterUser.execute services email password userId salt now
      (AccountCall.accounts services past).users = (work, outcome)) {rows : List UserModel} {user : User} :
    outcome = .ok (rows, user) ↔
      ∃ address, Email.ofString services.lower email = .ok address ∧
        Postgres.takesVarchar 320 address.value = true ∧
        (∀ signedUp ∈ AccountCall.signUps services past,
          signedUp.address ≠ address ∧ signedUp.userId ≠ userId) ∧
        user = ⟨⟨userId⟩, address, services.hasher.hash salt password, now⟩ ∧
        rows = (AccountCall.accounts services past).users ++ [user.toModel] := by
  have hinv := accounts_inv hlower past
  have hok : outcome = .ok (rows, user) ↔ (RegisterUser.execute services email password userId salt
      now (AccountCall.accounts services past).users).2 = .ok (rows, user) := by
    rw [h]
  rw [hok, register_eq_ok]
  constructor
  · rintro ⟨address, hselect, rfl, hfits, hclash, rfl⟩
    exact ⟨address, (hinv.select.1 hselect).1, hfits, (hinv.clash _).1 hclash, rfl, rfl⟩
  · rintro ⟨address, hemail, hfits, hfree, rfl, rfl⟩
    have htext : Postgres.takesText address.value = true := (Bool.and_eq_true_iff.1 hfits).1
    exact ⟨address, hinv.select.2 ⟨hemail, htext, fun signedUp hmem => (hfree signedUp hmem).1⟩, rfl,
      hfits, (hinv.clash _).2 hfree, rfl⟩

/-- Why a sign-up is refused, and whether the password has been hashed by then. -/
inductive SignUpRefused (services : IdentityServices) (signUps : List SignedUp)
    (email password : String) (userId : UUID) : List HasherCall → SignUpError → Prop
  | invalid (hpattern : emailPattern (services.lower (strip email)) = false) :
      SignUpRefused services signUps email password userId [] (.user (.invalidEmail email))
  | text {address : Email} (haddress : Email.ofString services.lower email = .ok address)
      (htext : Postgres.takesText address.value = false) :
      SignUpRefused services signUps email password userId [] .failed
  | taken {signedUp : SignedUp} (hmem : signedUp ∈ signUps)
      (haddress : Email.ofString services.lower email = .ok signedUp.address) :
      SignUpRefused services signUps email password userId []
        (.user (.emailAlreadyRegistered signedUp.address.value))
  | long {address : Email} (haddress : Email.ofString services.lower email = .ok address)
      (hfree : ∀ signedUp ∈ signUps, signedUp.address ≠ address)
      (hlong : 320 < address.value.length) :
      SignUpRefused services signUps email password userId [.hash password] .failed
  | sameId {address : Email} {signedUp : SignedUp}
      (haddress : Email.ofString services.lower email = .ok address)
      (hfits : Postgres.takesVarchar 320 address.value = true)
      (hfree : ∀ signedUp ∈ signUps, signedUp.address ≠ address) (hmem : signedUp ∈ signUps)
      (hid : signedUp.userId = userId) :
      SignUpRefused services signUps email password userId [.hash password] .integrityError

theorem signUp_eq_error (hlower : services.Normalizes) (past : List AccountCall)
    {userId : UUID} {salt : String} {work : List HasherCall} {e : SignUpError}
    (h : RegisterUser.execute services email password userId salt now
      (AccountCall.accounts services past).users = (work, .error e)) :
    SignUpRefused services (AccountCall.signUps services past) email password userId work e := by
  have hinv := accounts_inv hlower past
  unfold RegisterUser.execute at h
  cases hselect : RegisterUser.select services.lower email (AccountCall.accounts services past).users with
  | ok address =>
      obtain ⟨hemail, htext, hfree⟩ := hinv.select.1 hselect
      simp only [hselect, Prod.mk.injEq, map_eq_error] at h
      obtain ⟨rfl, h⟩ := h
      unfold UserRepository.add at h
      split at h
      · next hfits =>
          split at h
          · next hclash =>
              obtain ⟨signedUp, hmem, hsame⟩ : ∃ signedUp ∈ AccountCall.signUps services past,
                  signedUp.userId = userId := by
                by_contra hnone
                rw [(hinv.clash _).2] at hclash
                · cases hclash
                · intro signedUp hmem
                  exact ⟨hfree signedUp hmem, fun heq => hnone ⟨signedUp, hmem, heq⟩⟩
              obtain rfl := Except.error.inj h
              exact .sameId hemail hfits hfree hmem hsame
          · cases h
      · next hlong =>
          obtain rfl := Except.error.inj h
          refine .long hemail hfree ?_
          have hfits : Postgres.takesVarchar 320 address.value = decide (address.value.length ≤ 320) := by
            rw [Postgres.takesVarchar, htext, Bool.true_and]
          have hlong' : ¬ address.value.length ≤ 320 := by
            intro hle
            exact hlong (hfits.trans (decide_eq_true hle))
          omega
  | error e' =>
      simp only [hselect, Prod.mk.injEq, Except.error.injEq] at h
      obtain ⟨rfl, rfl⟩ := h
      cases hemail : Email.ofString services.lower email with
      | error invalid =>
          obtain ⟨hpattern, rfl⟩ := ofString_eq_error.1 hemail
          simp only [RegisterUser.select, hemail, Except.mapError, bind, Except.bind,
            Except.error.injEq] at hselect
          exact hselect ▸ .invalid hpattern
      | ok address =>
          cases htext : Postgres.takesText address.value with
          | false =>
              simp only [RegisterUser.select, hemail, htext, Except.mapError, bind, Except.bind,
                Bool.false_eq_true, if_false] at hselect
              exact Except.error.inj hselect ▸ .text hemail htext
          | true =>
              obtain ⟨signedUp, hmem, rfl⟩ : ∃ signedUp ∈ AccountCall.signUps services past,
                  signedUp.address = address := by
                by_contra hnone
                have hfree := hinv.select.2
                  ⟨hemail, htext, fun signedUp hmem heq => hnone ⟨signedUp, hmem, heq⟩⟩
                rw [hselect] at hfree
                cases hfree
              rw [hinv.select_taken hmem hemail] at hselect
              exact Except.error.inj hselect ▸ .taken hmem hemail

/-- A sign-up after any history is accepted exactly with an address that nobody has signed up with and
    that the column takes, under an id that is new. The one check that comes before the hash tells who
    asks whether an address is taken. -/
theorem signUp_answers (hlower : services.Normalizes) (past : List AccountCall)
    (email password : String) (userId : UUID) (salt : String) (now : Datetime) {work : List HasherCall}
    {outcome : Except SignUpError (List UserModel × User)}
    (h : RegisterUser.execute services email password userId salt now
      (AccountCall.accounts services past).users = (work, outcome)) :
    (∀ users user, outcome = .ok (users, user) ↔
      ∃ address, Email.ofString services.lower email = .ok address ∧
        Postgres.takesVarchar 320 address.value = true ∧
        (∀ signedUp ∈ AccountCall.signUps services past,
          signedUp.address ≠ address ∧ signedUp.userId ≠ userId) ∧
        user = ⟨⟨userId⟩, address, services.hasher.hash salt password, now⟩ ∧
        users = (AccountCall.accounts services past).users ++ [user.toModel]) ∧
    (∀ e, outcome = .error e →
      SignUpRefused services (AccountCall.signUps services past) email password userId work e) :=
  ⟨fun _ _ => signUp_eq_ok hlower past h, fun _ he => signUp_eq_error hlower past (he ▸ h)⟩

def bob : User :=
  ⟨⟨2⟩, ⟨"bob@example.org", by decide⟩, plainHasher.hash "salt" "hunter2", ⟨9, 0⟩⟩

theorem signUp_answers_bob :
    plainServices.Normalizes ∧
      (RegisterUser.execute plainServices "bob@example.org" "hunter2" 2 "salt" ⟨9, 0⟩
        (AccountCall.accounts plainServices [adaSignsUp]).users).2 =
        .ok ((AccountCall.accounts plainServices [adaSignsUp]).users ++ [bob.toModel], bob) := by
  refine ⟨plainServices_normalizes, ((signUp_answers plainServices_normalizes [adaSignsUp]
    "bob@example.org" "hunter2" 2 "salt" ⟨9, 0⟩ rfl).1 _ bob).2 ?_⟩
  exact ⟨bob.email, by decide +kernel, by decide +kernel, by decide +kernel, rfl, rfl⟩

end Logins

end Histories

end Dizzchat
