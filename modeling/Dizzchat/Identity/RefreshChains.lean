import Dizzchat.Identity.RefreshToken
import Dizzchat.Transition.Table
import Mathlib.Data.List.Chain
import Mathlib.Data.List.Forall2
import Mathlib.Data.List.Nodup

set_option autoImplicit false

/-! # Chains of refresh tokens

Logins and rotations one after the other, each committed or rolled back before the next. A successful
login starts a chain of rows and every successful rotation adds one to the end of a chain: the row it
was given is the last of its chain, since that is the only one that is not revoked. `ChainsInv` says so
of the rows, and everything else is read off it. -/

namespace Dizzchat

open Transition

/-! ## Presented tokens -/

/-- The string is a jti and a secret, neither of them empty, with its first dot between them. -/
def TokenService.Presents (token jti secret : String) : Prop :=
  token.toList = jti.toList ++ '.' :: secret.toList ∧ '.' ∉ jti.toList ∧ jti ≠ "" ∧ secret ≠ ""

theorem parseRefresh_eq_ok {token jti secret : String} :
    TokenService.parseRefresh token = .ok (jti, secret) ↔
      TokenService.Presents token jti secret := by
  have hempty : ∀ cs : List Char, String.ofList cs = "" ↔ cs = [] := by
    intro cs
    rw [← String.toList_inj, String.toList_ofList]
    rfl
  unfold TokenService.parseRefresh TokenService.Presents
  constructor
  · intro h
    simp only at h
    split at h
    · cases h
    · next c cs hdrop =>
        split at h
        · cases h
        · next hne =>
            rw [not_or] at hne
            cases h
            have hdot : c = '.' := by
              have hstop := List.head?_dropWhile_not (fun c => decide (c ≠ '.')) token.toList
              rw [hdrop] at hstop
              simpa using hstop
            have hsplit := List.takeWhile_append_dropWhile (p := fun c => decide (c ≠ '.'))
              (l := token.toList)
            rw [hdrop, hdot] at hsplit
            refine ⟨by simpa using hsplit.symm, ?_, ?_, ?_⟩
            · intro hmem
              rw [String.toList_ofList] at hmem
              simpa using List.mem_takeWhile_imp hmem
            · rw [Ne, hempty]
              exact hne.1
            · rw [Ne, hempty]
              exact hne.2
  · rintro ⟨htoken, hjti, hne, hsecret⟩
    have hall : ∀ c ∈ jti.toList, decide (c ≠ '.') = true := by
      intro c hc
      have hdot : c ≠ '.' := fun heq => hjti (heq ▸ hc)
      simpa using hdot
    have htake : token.toList.takeWhile (fun c => decide (c ≠ '.')) = jti.toList := by
      rw [htoken, List.takeWhile_append_of_pos hall]
      simp
    have hdrop : token.toList.dropWhile (fun c => decide (c ≠ '.')) = '.' :: secret.toList := by
      rw [htoken, List.dropWhile_append_of_pos hall]
      simp
    have hboth : ¬ (jti.toList = [] ∨ secret.toList = []) := by
      rw [not_or, ← hempty, ← hempty, String.ofList_toList, String.ofList_toList]
      exact ⟨hne, hsecret⟩
    simp only [htake, hdrop, if_neg hboth, String.ofList_toList]

/-! ## Calls -/

/-- What ends a call: a login or a token that is not accepted, a primary key that is there already, or
    a transaction that is rolled back. -/
inductive TokenError
  | invalidCredentials
  | identity (error : IdentityError)
  | integrityError
  | rolledBack
deriving DecidableEq

/-- `AuthenticateUser.execute` from the user it has found under the email, and whether the password is
    theirs, to the row it adds and what it returns. -/
def AuthenticateUser.executeOn (tokens : TokenService) (ttl : Timedelta) (verified : Bool)
    (now accessNow : Datetime) (generated : GeneratedRefreshToken) :
    Option UserId → Except TokenError (RefreshToken × TokenPair)
  | none => .error .invalidCredentials
  | some userId =>
      if verified then
        .ok (RefreshToken.issue generated.jti userId generated.tokenHash now ttl,
          { accessToken := tokens.issueAccess userId accessNow, refreshToken := generated.token })
      else .error .invalidCredentials

inductive TokenAction
  | login (user : Option UserId) (verified : Bool)
  | refresh (presented : String)
deriving DecidableEq

/-- One call: the readings of the clock, the random parts of the new token, and whether its
    transaction is committed in the end. -/
structure TokenCall where
  action : TokenAction
  now : Datetime
  accessNow : Datetime
  newJti : String
  newSecret : String
  commits : Bool
deriving DecidableEq

/-- `add`, with the primary key of the table. -/
def RefreshTokenRepository.add (token : RefreshToken) (rows : List RefreshToken) :
    Except TokenError (List RefreshToken) :=
  match lookup RefreshToken.jti token.jti rows with
  | some _ => .error .integrityError
  | none => .ok (rows ++ [token])

namespace TokenCall

variable (tokens : TokenService) (ttl : Timedelta)

/-- The call on the rows committed so far, up to its commit. -/
def run (call : TokenCall) (rows : List RefreshToken) :
    Except TokenError (List RefreshToken × TokenPair) :=
  let generated := tokens.generateRefresh call.newJti call.newSecret
  match call.action with
  | .login user verified => do
      let (token, pair) ← AuthenticateUser.executeOn tokens ttl verified call.now call.accessNow
        generated user
      let rows ← RefreshTokenRepository.add token rows
      return (rows, pair)
  | .refresh presented =>
      match TokenService.parseRefresh presented with
      | .error e => .error (.identity e)
      | .ok (jti, secret) =>
          match RefreshAccessToken.executeOn tokens ttl secret call.now call.accessNow generated
              (lookup RefreshToken.jti jti rows) with
          | .error e => .error (.identity e)
          | .ok (stored, rotated, pair) => do
              let rows ← RefreshTokenRepository.add rotated (upsert RefreshToken.jti stored rows)
              return (rows, pair)

def attempt (call : TokenCall) (rows : List RefreshToken) :
    Except TokenError (List RefreshToken × TokenPair) :=
  match call.run tokens ttl rows with
  | .error e => .error e
  | .ok outcome => if call.commits then .ok outcome else .error .rolledBack

/-- The rows after some calls, the last one first. -/
def rows : List TokenCall → List RefreshToken
  | [] => []
  | call :: past =>
      match call.attempt tokens ttl (rows past) with
      | .ok (rows, _) => rows
      | .error _ => rows past

/-- The users whose login has succeeded, once for each of these logins, with the jti it has given. -/
def logins : List TokenCall → List (UserId × String)
  | [] => []
  | call :: past =>
      match call.attempt tokens ttl (rows tokens ttl past) with
      | .error _ => logins past
      | .ok _ =>
          match call.action with
          | .login (some userId) _ => (userId, call.newJti) :: logins past
          | _ => logins past

/-- The rotations that have succeeded: the jti that was presented and the one that was given. -/
def rotations : List TokenCall → List (String × String)
  | [] => []
  | call :: past =>
      match call.attempt tokens ttl (rows tokens ttl past) with
      | .error _ => rotations past
      | .ok _ =>
          match call.action with
          | .login _ _ => rotations past
          | .refresh presented =>
              match TokenService.parseRefresh presented with
              | .ok (jti, _) => (jti, call.newJti) :: rotations past
              | .error _ => rotations past

end TokenCall

/-! ## What a call does -/

/-- The row can be rotated by whoever presents the secret. -/
def RefreshToken.Usable (tokens : TokenService) (secret : String) (now : Datetime)
    (row : RefreshToken) : Prop :=
  tokens.hashSecret secret = row.tokenHash ∧ row.revokedAt = none ∧ now < row.expiresAt

/-- What a call that succeeds has found and leaves. -/
inductive TokenCall.Succeeds (tokens : TokenService) (ttl : Timedelta) (rows : List RefreshToken)
    (call : TokenCall) : List RefreshToken → Prop
  | login {userId : UserId} (haction : call.action = .login (some userId) true)
      (hfresh : lookup RefreshToken.jti call.newJti rows = none) :
      Succeeds tokens ttl rows call
        (rows ++ [RefreshToken.issue call.newJti userId (tokens.hashSecret call.newSecret) call.now ttl])
  | refresh {presented jti secret : String} {row : RefreshToken}
      (haction : call.action = .refresh presented)
      (hpresents : TokenService.Presents presented jti secret)
      (hrow : lookup RefreshToken.jti jti rows = some row)
      (husable : row.Usable tokens secret call.now)
      (hfresh : lookup RefreshToken.jti call.newJti (upsert RefreshToken.jti (row.revoke call.now) rows) =
        none) :
      Succeeds tokens ttl rows call
        (upsert RefreshToken.jti (row.revoke call.now) rows ++
          [RefreshToken.issue call.newJti row.userId (tokens.hashSecret call.newSecret) call.now ttl])

section Calls

variable {tokens : TokenService} {ttl : Timedelta} {rows rows' : List RefreshToken} {call : TokenCall}
  {pair : TokenPair}

theorem add_eq_ok {token : RefreshToken} :
    RefreshTokenRepository.add token rows = .ok rows' ↔
      lookup RefreshToken.jti token.jti rows = none ∧ rows' = rows ++ [token] := by
  unfold RefreshTokenRepository.add
  cases lookup RefreshToken.jti token.jti rows with
  | none => simp [eq_comm]
  | some r => simp

theorem RefreshToken.revoke_userId (token : RefreshToken) (now : Datetime) :
    (token.revoke now).userId = token.userId := by
  unfold RefreshToken.revoke
  split <;> rfl

theorem isActive_iff {token : RefreshToken} {now : Datetime} :
    token.isActive now = true ↔ token.revokedAt = none ∧ now < token.expiresAt := by
  simp [RefreshToken.isActive, Option.isNone_iff_eq_none]

theorem verifyRefresh_iff {secret tokenHash : String} :
    tokens.verifyRefresh secret tokenHash = true ↔ tokens.hashSecret secret = tokenHash := by
  simp [TokenService.verifyRefresh]

/-- `executeOn` goes through exactly on a row that is usable. -/
theorem executeOn_usable {secret : String} {now accessNow : Datetime}
    {generated : GeneratedRefreshToken} {row : RefreshToken}
    (h : row.Usable tokens secret now) :
    RefreshAccessToken.executeOn tokens ttl secret now accessNow generated (some row) =
      .ok (row.revoke now, RefreshToken.issue generated.jti row.userId generated.tokenHash now ttl,
        { accessToken := tokens.issueAccess row.userId accessNow,
          refreshToken := generated.token }) := by
  have hverify : tokens.verifyRefresh secret row.tokenHash = true := verifyRefresh_iff.2 h.1
  have hactive : row.isActive now = true := isActive_iff.2 h.2
  simp only [RefreshAccessToken.executeOn, hverify, if_true, RefreshToken.rotate, hactive]
  simp [bind, Except.bind, pure, Except.pure, RefreshToken.revoke, h.2.1]

theorem run_succeeds (hrun : call.run tokens ttl rows = .ok (rows', pair)) :
    call.Succeeds tokens ttl rows rows' := by
  unfold TokenCall.run at hrun
  simp only at hrun
  split at hrun
  · next user verified haction =>
      cases user with
      | none => simp [AuthenticateUser.executeOn, bind, Except.bind] at hrun
      | some userId =>
          cases verified with
          | false => simp [AuthenticateUser.executeOn, bind, Except.bind] at hrun
          | true =>
              simp only [AuthenticateUser.executeOn, if_true, bind, Except.bind] at hrun
              split at hrun
              · cases hrun
              · next added hadd =>
                  obtain ⟨hfresh, rfl⟩ := add_eq_ok.1 hadd
                  cases hrun
                  exact .login haction hfresh
  · next presented haction =>
      split at hrun
      · cases hrun
      · next jti secret hparse =>
          split at hrun
          · cases hrun
          · next stored rotated pair' hexecute =>
              obtain ⟨row, hrow, hactive, hverify, -, -⟩ :=
                RefreshAccessToken.executeOn_eq_ok hexecute
              have husable : row.Usable tokens secret call.now :=
                ⟨verifyRefresh_iff.1 hverify, isActive_iff.1 hactive⟩
              rw [hrow, executeOn_usable husable] at hexecute
              cases hexecute
              simp only [bind, Except.bind] at hrun
              split at hrun
              · cases hrun
              · next added hadd =>
                  obtain ⟨hfresh, rfl⟩ := add_eq_ok.1 hadd
                  cases hrun
                  exact .refresh haction (parseRefresh_eq_ok.1 hparse) hrow husable hfresh

/-- A call on a usable row goes through, unless its new jti is taken. -/
theorem run_refresh {presented jti secret : String} {row : RefreshToken}
    (haction : call.action = .refresh presented)
    (hpresents : TokenService.Presents presented jti secret)
    (hrow : lookup RefreshToken.jti jti rows = some row) (husable : row.Usable tokens secret call.now)
    (hfresh : lookup RefreshToken.jti call.newJti rows = none) :
    ∃ outcome, call.run tokens ttl rows = .ok outcome := by
  have hne : (row.revoke call.now).jti ≠ call.newJti := by
    intro heq
    rw [RefreshToken.revoke_jti] at heq
    exact lookup_eq_none.1 hfresh row (mem_of_lookup hrow) heq
  have hfree : lookup RefreshToken.jti call.newJti
      (upsert RefreshToken.jti (row.revoke call.now) rows) = none := by
    rw [lookup_upsert, if_neg hne, hfresh]
  unfold TokenCall.run
  simp only [haction, parseRefresh_eq_ok.2 hpresents, hrow, executeOn_usable husable]
  rw [add_eq_ok.2 ⟨hfree, rfl⟩]
  exact ⟨_, rfl⟩

theorem run_of_attempt (h : call.attempt tokens ttl rows = .ok (rows', pair)) :
    call.run tokens ttl rows = .ok (rows', pair) := by
  unfold TokenCall.attempt at h
  split at h
  · cases h
  · next outcome hrun =>
      split at h
      · cases h
        exact hrun
      · cases h

end Calls

/-! ## Chains -/

/-- The rows as chains, one for each login that has succeeded: a chain begins with the row its login
    has added, goes from row to row by the rotations that have succeeded, and has its last row as the
    only one that is not revoked. -/
structure ChainsInv (rows : List RefreshToken) (logins : List (UserId × String))
    (rotations : List (String × String)) (chains : List (List RefreshToken)) : Prop where
  rows : rows.Perm chains.flatten
  begins : List.Forall₂ (fun login chain => ∃ first rest, chain.map RefreshToken.jti = first :: rest ∧
    first = login.2 ∧ ∀ row ∈ chain, row.userId = login.1) logins chains
  linked : ∀ chain ∈ chains, (chain.map RefreshToken.jti).IsChain fun a b => (a, b) ∈ rotations
  rotated : ∀ p ∈ rotations, ∃ chain ∈ chains, [p.1, p.2] <:+: chain.map RefreshToken.jti
  last : ∀ chain ∈ chains, ∃ init last, chain = init ++ [last] ∧ last.revokedAt = none ∧
    ∀ row ∈ init, row.revokedAt.isSome = true

/-- A row is replaced where it stands. -/
theorem upsert_split {rows : List RefreshToken} (hjtis : (rows.map RefreshToken.jti).Nodup)
    {row row' : RefreshToken} (hrow : row ∈ rows) (hjti : row'.jti = row.jti) :
    ∃ before after, rows = before ++ row :: after ∧
      upsert RefreshToken.jti row' rows = before ++ row' :: after := by
  induction rows with
  | nil => exact absurd hrow List.not_mem_nil
  | cons x xs ih =>
      rw [List.map_cons, List.nodup_cons] at hjtis
      rcases List.mem_cons.1 hrow with rfl | hmem
      · refine ⟨[], xs, rfl, ?_⟩
        rw [upsert, if_pos hjti.symm]
        rfl
      · obtain ⟨before, after, hsplit, hupsert⟩ := ih hjtis.2 hmem
        have hne : x.jti ≠ row'.jti := fun heq =>
          hjtis.1 (heq.trans hjti ▸ List.mem_map_of_mem hmem)
        refine ⟨x :: before, after, by rw [hsplit]; rfl, ?_⟩
        rw [upsert, if_neg hne, hupsert]
        rfl

theorem forall₂_replace {α β : Type*} {R : α → β → Prop} {xs : List α} {before after : List β}
    {c c' : β} (h : List.Forall₂ R xs (before ++ c :: after)) (hc : ∀ x, R x c → R x c') :
    List.Forall₂ R xs (before ++ c' :: after) := by
  induction before generalizing xs with
  | nil =>
      cases h with
      | cons hhead htail => exact .cons (hc _ hhead) htail
  | cons b before ih =>
      cases h with
      | cons hhead htail => exact .cons hhead (ih htail)

section Steps

variable {rows : List RefreshToken} {logins : List (UserId × String)}
  {rotations : List (String × String)} {chains : List (List RefreshToken)}

/-- A login begins a chain. -/
theorem ChainsInv.login (h : ChainsInv rows logins rotations chains) {token : RefreshToken}
    (hactive : token.revokedAt = none) :
    ChainsInv (rows ++ [token]) ((token.userId, token.jti) :: logins) rotations ([token] :: chains) where
  rows := by
    rw [List.flatten_cons]
    exact (List.perm_append_comm).trans (h.rows.cons token)
  begins := by
    refine .cons ⟨token.jti, [], rfl, rfl, ?_⟩ h.begins
    intro row hrow
    rw [List.mem_singleton.1 hrow]
  linked := by
    intro chain hchain
    rcases List.mem_cons.1 hchain with rfl | hchain
    · exact List.isChain_singleton _
    · exact h.linked chain hchain
  rotated := by
    intro p hp
    obtain ⟨chain, hchain, hinfix⟩ := h.rotated p hp
    exact ⟨chain, List.mem_cons_of_mem _ hchain, hinfix⟩
  last := by
    intro chain hchain
    rcases List.mem_cons.1 hchain with rfl | hchain
    · exact ⟨[], token, rfl, hactive, fun row hrow => absurd hrow List.not_mem_nil⟩
    · exact h.last chain hchain

/-- A row that is not revoked is the last of its chain. -/
theorem ChainsInv.split (h : ChainsInv rows logins rotations chains) {row : RefreshToken}
    (hrow : row ∈ rows) (hactive : row.revokedAt = none) :
    ∃ before init after, chains = before ++ (init ++ [row]) :: after ∧
      ∀ r ∈ init, r.revokedAt.isSome = true := by
  obtain ⟨chain, hchain, hmem⟩ := List.mem_flatten.1 (h.rows.mem_iff.1 hrow)
  obtain ⟨init, last, rfl, -, hinit⟩ := h.last chain hchain
  obtain ⟨before, after, hsplit⟩ := List.append_of_mem hchain
  rcases List.mem_append.1 hmem with hmem | hmem
  · have hrevoked := hinit row hmem
    rw [hactive] at hrevoked
    cases hrevoked
  · obtain rfl := List.mem_singleton.1 hmem
    exact ⟨before, init, after, hsplit, hinit⟩

/-- A row at the end of its list gives way to two others. -/
theorem perm_replace {α : Type*} {front back init : List α} {before after : List (List α)} {a b c : α}
    (h : (front ++ a :: back).Perm (before ++ (init ++ [a]) :: after).flatten) :
    (front ++ b :: back ++ [c]).Perm (before ++ (init ++ [b, c]) :: after).flatten := by
  have hflat : ∀ rest : List α, (before ++ (init ++ rest) :: after).flatten =
      (before.flatten ++ init) ++ rest ++ after.flatten := by
    intro rest
    simp
  have hold : (front ++ back).Perm (before.flatten ++ init ++ after.flatten) := by
    rw [hflat, List.append_assoc] at h
    exact ((List.perm_middle.symm.trans h).trans List.perm_middle).cons_inv
  rw [hflat, List.append_assoc (before.flatten ++ init)]
  have hleft : (front ++ b :: back ++ [c]).Perm (c :: b :: (front ++ back)) :=
    List.perm_append_comm.trans (List.perm_middle.cons c)
  have hright : (before.flatten ++ init ++ ([b, c] ++ after.flatten)).Perm
      (b :: c :: (before.flatten ++ init ++ after.flatten)) :=
    List.perm_middle.trans (List.perm_middle.cons b)
  refine hleft.trans (List.Perm.trans ?_ hright.symm)
  exact (List.Perm.swap b c _).trans ((hold.cons c).cons b)

/-- A rotation revokes the last row of a chain and adds one behind it. -/
theorem ChainsInv.rotate (h : ChainsInv rows logins rotations chains)
    (hjtis : (rows.map RefreshToken.jti).Nodup) {row row' token : RefreshToken} (hrow : row ∈ rows)
    (hactive : row.revokedAt = none) (hjti : row'.jti = row.jti) (huser : row'.userId = row.userId)
    (hrevoked : row'.revokedAt.isSome = true) (htoken : token.revokedAt = none)
    (howner : token.userId = row.userId) :
    ∃ chains', ChainsInv (upsert RefreshToken.jti row' rows ++ [token]) logins
      ((row.jti, token.jti) :: rotations) chains' := by
  obtain ⟨before, init, after, rfl, hinit⟩ := h.split hrow hactive
  obtain ⟨front, back, rfl, hupsert⟩ := upsert_split hjtis hrow hjti
  -- the jtis of the chain that grows
  have hgrown : (init ++ [row', token]).map RefreshToken.jti =
      init.map RefreshToken.jti ++ row.jti :: token.jti :: [] := by
    simp [hjti]
  have hprefix : (init ++ [row]).map RefreshToken.jti <+: (init ++ [row', token]).map RefreshToken.jti := by
    rw [hgrown, List.map_append]
    exact ⟨[token.jti], by simp⟩
  have hmem : ∀ chain ∈ before ++ (init ++ [row', token]) :: after,
      chain = init ++ [row', token] ∨ chain ∈ before ++ (init ++ [row]) :: after := by
    intro chain hchain
    simp only [List.mem_append, List.mem_cons] at hchain ⊢
    tauto
  refine ⟨before ++ (init ++ [row', token]) :: after, ?_, ?_, ?_, ?_, ?_⟩
  · rw [hupsert]
    exact perm_replace h.rows
  · refine forall₂_replace h.begins ?_
    rintro login ⟨first, rest, hfirst, hlogin, howned⟩
    obtain ⟨more, hmore⟩ := hprefix
    refine ⟨first, rest ++ more, by rw [← hmore, hfirst]; rfl, hlogin, ?_⟩
    intro r hr
    have hlast := howned row (List.mem_append_right _ List.mem_cons_self)
    simp only [List.mem_append, List.mem_cons, List.not_mem_nil, or_false] at hr
    rcases hr with hr | rfl | rfl
    · exact howned r (List.mem_append_left _ hr)
    · rw [huser, hlast]
    · rw [howner, hlast]
  · intro chain hchain
    rcases hmem chain hchain with rfl | hold
    · rw [hgrown, List.isChain_append_cons_cons]
      have hlinked := h.linked (init ++ [row]) (by simp)
      rw [List.map_append] at hlinked
      exact ⟨hlinked.imp fun a b hab => List.mem_cons_of_mem _ hab, List.mem_cons_self,
        List.isChain_singleton _⟩
    · exact (h.linked chain hold).imp fun a b hab => List.mem_cons_of_mem _ hab
  · intro p hp
    rcases List.mem_cons.1 hp with rfl | hp
    · refine ⟨init ++ [row', token], by simp, ?_⟩
      rw [hgrown]
      exact (List.suffix_append _ _).isInfix
    · obtain ⟨chain, hchain, hinfix⟩ := h.rotated p hp
      simp only [List.mem_append, List.mem_cons] at hchain
      rcases hchain with hchain | rfl | hchain
      · exact ⟨chain, by simp [hchain], hinfix⟩
      · exact ⟨init ++ [row', token], by simp, hinfix.trans hprefix.isInfix⟩
      · exact ⟨chain, by simp [hchain], hinfix⟩
  · intro chain hchain
    rcases hmem chain hchain with rfl | hold
    · refine ⟨init ++ [row'], token, by simp, htoken, ?_⟩
      intro r hr
      rcases List.mem_append.1 hr with hr | hr
      · exact hinit r hr
      · rw [List.mem_singleton.1 hr]
        exact hrevoked
    · exact h.last chain hold

/-- Every chain has one row that is not revoked, so a user has as many of them as chains. -/
theorem ChainsInv.active (h : ChainsInv rows logins rotations chains) (userId : UserId) :
    rows.countP (fun row => decide (row.userId = userId) && row.revokedAt.isNone) =
      logins.countP fun login => decide (login.1 = userId) := by
  have hlast := h.last
  rw [h.rows.countP_eq, List.countP_flatten]
  have hbegins := h.begins
  clear h
  induction hbegins with
  | nil => rfl
  | @cons login chain logins chains hbegin _ ih =>
      obtain ⟨init, last, rfl, hactive, hinit⟩ := hlast chain List.mem_cons_self
      obtain ⟨first, rest, -, -, howned⟩ := hbegin
      have htail := ih fun chain hchain => hlast chain (List.mem_cons_of_mem _ hchain)
      have hnone : init.countP (fun row => decide (row.userId = userId) && row.revokedAt.isNone) = 0 := by
        rw [List.countP_eq_zero]
        intro row hrow
        have hrevoked := hinit row hrow
        cases hat : row.revokedAt with
        | none => simp [hat] at hrevoked
        | some now => simp
      have howner := howned last (List.mem_append_right _ List.mem_cons_self)
      rw [List.map_cons, List.sum_cons, htail, List.countP_append, hnone, List.countP_cons]
      simp [hactive, howner, List.countP_cons, Nat.add_comm]

end Steps

/-! ## Histories -/

section Histories

variable {tokens : TokenService} {ttl : Timedelta}

theorem nodup_append {rows : List RefreshToken} {token : RefreshToken}
    (h : (rows.map RefreshToken.jti).Nodup) (hfresh : lookup RefreshToken.jti token.jti rows = none) :
    ((rows ++ [token]).map RefreshToken.jti).Nodup := by
  rw [List.map_append, List.map_singleton, List.nodup_append]
  refine ⟨h, List.nodup_singleton _, ?_⟩
  intro a ha b hb
  obtain ⟨row, hrow, rfl⟩ := List.mem_map.1 ha
  rw [List.mem_singleton.1 hb]
  exact lookup_eq_none.1 hfresh row hrow

theorem chains_inv (calls : List TokenCall) :
    (∃ chains, ChainsInv (TokenCall.rows tokens ttl calls) (TokenCall.logins tokens ttl calls)
      (TokenCall.rotations tokens ttl calls) chains) ∧
    ((TokenCall.rows tokens ttl calls).map RefreshToken.jti).Nodup := by
  induction calls with
  | nil => exact ⟨⟨[], .refl _, .nil, by simp, by simp [TokenCall.rotations], by simp⟩, List.nodup_nil⟩
  | cons call past ih =>
      obtain ⟨⟨chains, hchains⟩, hjtis⟩ := ih
      cases hattempt : call.attempt tokens ttl (TokenCall.rows tokens ttl past) with
      | error e =>
          simp only [TokenCall.rows, TokenCall.logins, TokenCall.rotations, hattempt]
          exact ⟨⟨chains, hchains⟩, hjtis⟩
      | ok outcome =>
          obtain ⟨rows', pair⟩ := outcome
          have hsucceeds := run_succeeds (run_of_attempt hattempt)
          cases hsucceeds with
          | @login userId haction hfresh =>
              simp only [TokenCall.rows, TokenCall.logins, TokenCall.rotations, hattempt, haction]
              exact ⟨⟨_, hchains.login rfl⟩, nodup_append hjtis hfresh⟩
          | @refresh presented jti secret row haction hpresents hrow husable hfresh =>
              simp only [TokenCall.rows, TokenCall.logins, TokenCall.rotations, hattempt, haction,
                parseRefresh_eq_ok.2 hpresents]
              refine ⟨?_, nodup_append (nodup_upsert hjtis) hfresh⟩
              obtain rfl := key_of_lookup hrow
              exact hchains.rotate hjtis (mem_of_lookup hrow) husable.2.1
                (RefreshToken.revoke_jti _ _) (RefreshToken.revoke_userId _ _)
                (RefreshToken.revoke_revokedAt_isSome _ _) rfl rfl

/-- The jti of a row is one that a call has minted. -/
theorem rows_minted (calls : List TokenCall) :
    ∀ row ∈ TokenCall.rows tokens ttl calls, row.jti ∈ calls.map TokenCall.newJti := by
  induction calls with
  | nil => simp [TokenCall.rows]
  | cons call past ih =>
      intro row hrow
      rw [List.map_cons, List.mem_cons]
      cases hattempt : call.attempt tokens ttl (TokenCall.rows tokens ttl past) with
      | error e =>
          simp only [TokenCall.rows, hattempt] at hrow
          exact .inr (ih row hrow)
      | ok outcome =>
          obtain ⟨rows', pair⟩ := outcome
          simp only [TokenCall.rows, hattempt] at hrow
          cases run_succeeds (run_of_attempt hattempt) with
          | login =>
              rcases List.mem_append.1 hrow with hrow | hrow
              · exact .inr (ih row hrow)
              · left
                rw [List.mem_singleton.1 hrow]
                rfl
          | @refresh _ _ _ old _ _ hold =>
              rcases List.mem_append.1 hrow with hrow | hrow
              · rcases mem_upsert hrow with rfl | hrow
                · rw [RefreshToken.revoke_jti]
                  exact .inr (ih old (mem_of_lookup hold))
                · exact .inr (ih row hrow)
              · left
                rw [List.mem_singleton.1 hrow]
                rfl

/-- A row that is revoked stays as it is. -/
theorem revoked_stays (later past : List TokenCall) {row : RefreshToken}
    (hrow : row ∈ TokenCall.rows tokens ttl past) (hrevoked : row.revokedAt.isSome = true) :
    row ∈ TokenCall.rows tokens ttl (later ++ past) := by
  induction later with
  | nil => exact hrow
  | cons call later ih =>
      rw [List.cons_append]
      cases hattempt : call.attempt tokens ttl (TokenCall.rows tokens ttl (later ++ past)) with
      | error e =>
          simp only [TokenCall.rows, hattempt]
          exact ih
      | ok outcome =>
          obtain ⟨rows', pair⟩ := outcome
          simp only [TokenCall.rows, hattempt]
          cases run_succeeds (run_of_attempt hattempt) with
          | login => exact List.mem_append_left _ ih
          | @refresh _ _ _ old _ _ hold husable =>
              refine List.mem_append_left _ ?_
              obtain ⟨front, back, hsplit, hupsert⟩ := upsert_split (chains_inv _).2
                (mem_of_lookup hold) (RefreshToken.revoke_jti old call.now)
              have hne : row ≠ old := by
                rintro rfl
                rw [husable.2.1] at hrevoked
                cases hrevoked
              rw [hsplit] at ih
              rw [hupsert]
              simp only [List.mem_append, List.mem_cons] at ih ⊢
              tauto

/-- What a call presents is accepted if and only if a row stands under its jti that is usable with its
    secret. -/
theorem run_refresh_iff {call : TokenCall} {past : List TokenCall}
    (hminted : ((call :: past).map TokenCall.newJti).Nodup) {presented : String}
    (haction : call.action = .refresh presented) :
    (∃ outcome, call.run tokens ttl (TokenCall.rows tokens ttl past) = .ok outcome) ↔
      ∃ jti secret, TokenService.Presents presented jti secret ∧
        ∃ row ∈ TokenCall.rows tokens ttl past, row.jti = jti ∧ row.Usable tokens secret call.now := by
  constructor
  · rintro ⟨⟨rows', pair⟩, hrun⟩
    cases run_succeeds hrun with
    | login hlogin =>
        rw [haction] at hlogin
        cases hlogin
    | @refresh presented' jti secret row haction' hpresents hrow husable =>
        rw [haction] at haction'
        cases haction'
        exact ⟨jti, secret, hpresents, row, mem_of_lookup hrow, key_of_lookup hrow, husable⟩
  · rintro ⟨jti, secret, hpresents, row, hrow, rfl, husable⟩
    refine run_refresh haction hpresents (lookup_of_mem (chains_inv past).2 hrow) husable ?_
    rw [lookup_eq_none]
    intro other hother heq
    rw [List.map_cons, List.nodup_cons] at hminted
    exact hminted.1 (heq ▸ rows_minted past other hother)

/-- Rotation over histories of logins and rotations, by anybody, each committed or rolled back before
    the next, the last call first. A call is accepted exactly on a usable row; one that fails changes
    nothing; a row that is revoked stays revoked, and nobody who presents it is accepted again; a user
    has as many rows that are not revoked as they have logged in; and every chain of rotations has
    exactly one such row, its last. -/
theorem refresh_chains {calls : List TokenCall} (hminted : (calls.map TokenCall.newJti).Nodup) :
    (∀ later call past, calls = later ++ call :: past → ∀ presented, call.action = .refresh presented →
      ((∃ outcome, call.run tokens ttl (TokenCall.rows tokens ttl past) = .ok outcome) ↔
        ∃ jti secret, TokenService.Presents presented jti secret ∧
          ∃ row ∈ TokenCall.rows tokens ttl past, row.jti = jti ∧
            row.Usable tokens secret call.now)) ∧
    (∀ later call past, calls = later ++ call :: past →
      (∀ outcome, call.attempt tokens ttl (TokenCall.rows tokens ttl past) ≠ .ok outcome) →
      TokenCall.rows tokens ttl (call :: past) = TokenCall.rows tokens ttl past) ∧
    (∀ later call since past, calls = later ++ call :: (since ++ past) →
      ∀ row ∈ TokenCall.rows tokens ttl past, row.revokedAt.isSome = true →
        row ∈ TokenCall.rows tokens ttl (since ++ past) ∧
        ∀ presented secret, call.action = .refresh presented →
          TokenService.Presents presented row.jti secret →
          ∀ outcome, call.run tokens ttl (TokenCall.rows tokens ttl (since ++ past)) ≠ .ok outcome) ∧
    (∀ userId, (TokenCall.rows tokens ttl calls).countP
        (fun row => decide (row.userId = userId) && row.revokedAt.isNone) =
      (TokenCall.logins tokens ttl calls).countP fun login => decide (login.1 = userId)) ∧
    ∃ chains, ChainsInv (TokenCall.rows tokens ttl calls) (TokenCall.logins tokens ttl calls)
      (TokenCall.rotations tokens ttl calls) chains := by
  have hsuffix : ∀ {later past : List TokenCall}, calls = later ++ past →
      (past.map TokenCall.newJti).Nodup := by
    intro later past hcalls
    rw [hcalls, List.map_append, List.nodup_append] at hminted
    exact hminted.2.1
  refine ⟨?_, ?_, ?_, ?_, (chains_inv calls).1⟩
  · intro later call past hcalls presented haction
    exact run_refresh_iff (hsuffix hcalls) haction
  · intro later call past hcalls hfails
    rw [TokenCall.rows]
    cases hattempt : call.attempt tokens ttl (TokenCall.rows tokens ttl past) with
    | error e => rfl
    | ok outcome => exact absurd hattempt (hfails outcome)
  · intro later call since past hcalls row hrow hrevoked
    have hstays := revoked_stays since past hrow hrevoked
    refine ⟨hstays, fun presented secret haction hpresents outcome hrun => ?_⟩
    obtain ⟨jti, secret', hpresents', other, hother, hjti, husable⟩ :=
      (run_refresh_iff (hsuffix hcalls) haction).1 ⟨outcome, hrun⟩
    have hsame := (parseRefresh_eq_ok.2 hpresents).symm.trans (parseRefresh_eq_ok.2 hpresents')
    have hlookup := lookup_of_mem (chains_inv (since ++ past)).2 hstays
    have hlookup' := lookup_of_mem (chains_inv (since ++ past)).2 hother
    simp only [Except.ok.injEq, Prod.mk.injEq] at hsame
    rw [hjti, ← hsame.1, hlookup] at hlookup'
    obtain rfl := Option.some.inj hlookup'
    rw [husable.2.1] at hrevoked
    cases hrevoked
  · intro userId
    obtain ⟨chains, hchains⟩ := (chains_inv calls).1
    exact hchains.active userId

end Histories

/-- A login, a rotation, and the token of the login once more: the user has logged in once, and has
    one row that is not revoked. -/
theorem refresh_chains_replayed :
    let call (action : TokenAction) (newJti : String) (instant : ℤ) : TokenCall :=
      ⟨action, ⟨instant, 0⟩, ⟨instant, 0⟩, newJti, "s", true⟩
    (TokenCall.rows ⟨fun secret => "#" ++ secret, fun _ _ => "access"⟩ ⟨100⟩
      [call (.refresh "a.s") "c" 3, call (.refresh "a.s") "b" 2,
        call (.login (some ⟨7⟩) true) "a" 1]).countP
      (fun row => decide (row.userId = ⟨7⟩) && row.revokedAt.isNone) = 1 := by
  intro call
  rw [(refresh_chains (by decide)).2.2.2.1 ⟨7⟩]
  decide +kernel

end Dizzchat
