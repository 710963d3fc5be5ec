import Dizzchat.Shared.Values

set_option autoImplicit false

/-! # Refresh tokens

The `RefreshToken` aggregate, the refresh half of the token service, and the rotation use case
`RefreshAccessToken.execute` between the row it reads and the two rows it writes. The aggregate is
a detached copy of its row: `rotate` decides on that copy. -/

namespace Dizzchat

structure UserId where
  value : UUID
deriving DecidableEq, Repr

inductive IdentityError
  /-- "invalid or expired refresh token" -/
  | invalidRefreshToken
deriving DecidableEq, Repr

/-! ## The aggregate -/

/-- A persisted refresh token: identified by `jti`, holding the hash of its secret only. -/
structure RefreshToken where
  jti : String
  userId : UserId
  tokenHash : String
  expiresAt : Datetime
  revokedAt : Option Datetime := none
deriving DecidableEq, Repr

namespace RefreshToken

/-- Issue a fresh token that expires `ttl` after `issuedAt`. -/
def issue (jti : String) (userId : UserId) (tokenHash : String) (issuedAt : Datetime)
    (ttl : Timedelta) : RefreshToken :=
  { jti, userId, tokenHash, expiresAt := issuedAt + ttl }

/-- Neither revoked nor expired at `now`. -/
def isActive (token : RefreshToken) (now : Datetime) : Bool :=
  token.revokedAt.isNone && decide (now < token.expiresAt)

/-- Mark the token revoked; re-revoking keeps the original timestamp. -/
def revoke (token : RefreshToken) (now : Datetime) : RefreshToken :=
  match token.revokedAt with
  | none => { token with revokedAt := some now }
  | some _ => token

/-- Revoke this token and issue its successor; an inactive token cannot be rotated. Returns the
    revoked token and the successor. -/
def rotate (token : RefreshToken) (now : Datetime) (newJti newTokenHash : String)
    (ttl : Timedelta) : Except IdentityError (RefreshToken × RefreshToken) :=
  if token.isActive now then
    .ok (token.revoke now, issue newJti token.userId newTokenHash now ttl)
  else .error .invalidRefreshToken

@[simp]
theorem revoke_jti (token : RefreshToken) (now : Datetime) : (token.revoke now).jti = token.jti := by
  unfold revoke
  split <;> rfl

theorem revoke_revokedAt_isSome (token : RefreshToken) (now : Datetime) :
    (token.revoke now).revokedAt.isSome = true := by
  unfold revoke
  split
  · rfl
  · next h => simp [h]

end RefreshToken

/-! ## The token service -/

/-- A freshly minted refresh token: the row's `jti` and hash, and the string for the client. -/
structure GeneratedRefreshToken where
  jti : String
  token : String
  tokenHash : String
deriving DecidableEq, Repr

structure TokenPair where
  accessToken : String
  refreshToken : String
deriving DecidableEq, Repr

/-- `JwtTokenService`, over the SHA-256 hash of a secret and the JWT encoding of an access token
    issued to a user at a moment. -/
structure TokenService where
  hashSecret : String → String
  issueAccess : UserId → Datetime → String

namespace TokenService

/-- Mint a refresh token from the random `jti` and `secret`. -/
def generateRefresh (tokens : TokenService) (jti secret : String) : GeneratedRefreshToken where
  jti := jti
  token := jti ++ "." ++ secret
  tokenHash := tokens.hashSecret secret

/-- Split a presented token at its first dot; both parts have to be non-empty. -/
def parseRefresh (token : String) : Except IdentityError (String × String) :=
  let jti := token.toList.takeWhile (· ≠ '.')
  match token.toList.dropWhile (· ≠ '.') with
  | [] => .error .invalidRefreshToken
  | _ :: secret =>
      if jti = [] ∨ secret = [] then .error .invalidRefreshToken
      else .ok (String.ofList jti, String.ofList secret)

def verifyRefresh (tokens : TokenService) (secret tokenHash : String) : Bool :=
  tokens.hashSecret secret == tokenHash

end TokenService

/-! ## The rotation use case -/

/-- `RefreshAccessToken.execute` from the row it read to what it hands to `save`, to `add` and to
    the caller. -/
def RefreshAccessToken.executeOn (tokens : TokenService) (ttl : Timedelta) (secret : String)
    (now accessNow : Datetime) (generated : GeneratedRefreshToken) :
    Option RefreshToken → Except IdentityError (RefreshToken × RefreshToken × TokenPair)
  | none => .error .invalidRefreshToken
  | some stored =>
      if tokens.verifyRefresh secret stored.tokenHash then do
        let (stored, rotated) ← stored.rotate now generated.jti generated.tokenHash ttl
        return (stored, rotated,
          { accessToken := tokens.issueAccess stored.userId accessNow,
            refreshToken := generated.token })
      else .error .invalidRefreshToken

/-- A rotation goes through exactly on an active row with the hash of the presented secret, and
    then writes the row back revoked. -/
theorem RefreshAccessToken.executeOn_eq_ok {tokens : TokenService} {ttl : Timedelta}
    {secret : String} {now accessNow : Datetime} {generated : GeneratedRefreshToken}
    {row : Option RefreshToken} {stored rotated : RefreshToken} {pair : TokenPair}
    (h : executeOn tokens ttl secret now accessNow generated row = .ok (stored, rotated, pair)) :
    ∃ r, row = some r ∧ r.isActive now = true ∧
      tokens.verifyRefresh secret r.tokenHash = true ∧ stored = r.revoke now ∧
      rotated.jti = generated.jti := by
  cases row with
  | none => simp [executeOn] at h
  | some r =>
      simp only [executeOn] at h
      split at h
      · next hv =>
          rw [RefreshToken.rotate] at h
          split at h
          · next ha =>
              simp only [bind, Except.bind, pure, Except.pure, Except.ok.injEq, Prod.mk.injEq] at h
              exact ⟨r, rfl, ha, hv, h.1.symm, h.2.1 ▸ rfl⟩
          · simp [bind, Except.bind] at h
      · cases h

end Dizzchat
