import Dizzchat.Identity.RefreshToken
import Dizzchat.Shared.Uuid
import Dizzchat.Text.Json

set_option autoImplicit false

/-! # Access tokens

`JwtTokenService.issue_access` and `decode_access`. PyJWT is a parameter, of which the service relies on
one thing: a token with its three claims is read back under its key from `iat` on and before `exp`
(`PyJwt.ReadsBack`). An access token is then accepted for as long as its time to live, in whole seconds
(`decodeAccess_issueAccess`). -/

namespace Dizzchat

open Text

/-- The payload of `issue_access`. -/
def accessPayload (sub : String) (iat exp : ℤ) : Json :=
  .obj [("sub", .str sub), ("iat", .int iat), ("exp", .int exp)]

/-- `jwt.encode(payload, key)`, and `jwt.decode(token, key)` at a reading of its clock, with the
    algorithm of the service; `none` is a `PyJWTError`. -/
structure PyJwt where
  encode : Json → String → String
  decode : Datetime → String → String → Option Json

/-- PyJWT refuses a token whose `iat` is still to come or whose `exp` has been reached. -/
def PyJwt.ReadsBack (jwt : PyJwt) (key : String) : Prop :=
  ∀ (now : Datetime) (sub : String) (iat exp : ℤ),
    jwt.decode now (jwt.encode (accessPayload sub iat exp) key) key =
      if iat * 1000000 ≤ now.instant ∧ now.instant < exp * 1000000 then
        some (accessPayload sub iat exp)
      else none

inductive AccessTokenError
  /-- "invalid or expired access token" -/
  | invalidAccessToken
  /-- `UUID` of something that is not a string. -/
  | attributeError
deriving DecidableEq, Repr

/-- The settings of the service, with PyJWT and the hex digest of SHA-256. -/
structure JwtTokenService where
  jwt : PyJwt
  secretKey : String
  accessTtl : Timedelta
  hashSecret : String → String

namespace JwtTokenService

def issueAccess (service : JwtTokenService) (userId : UserId) (now : Datetime) : String :=
  service.jwt.encode
    (accessPayload userId.value.str now.seconds (now + service.accessTtl).seconds) service.secretKey

def decodeAccess (service : JwtTokenService) (now : Datetime) (token : String) :
    Except AccessTokenError UserId :=
  match service.jwt.decode now token service.secretKey with
  | none => .error .invalidAccessToken
  | some payload =>
      match payload.get? "sub" with
      | none => .error .invalidAccessToken
      | some (.str sub) =>
          match UUID.ofHex sub with
          | none => .error .invalidAccessToken
          | some userId => .ok ⟨userId⟩
      | some _ => .error .attributeError

/-- The refresh half of the service, and its access tokens. -/
def tokens (service : JwtTokenService) : TokenService where
  hashSecret := service.hashSecret
  issueAccess := service.issueAccess

/-- At `now` an access token that was issued at `issued` is valid. -/
def Live (service : JwtTokenService) (issued now : Datetime) : Prop :=
  issued.seconds * 1000000 ≤ now.instant ∧
    now.instant < (issued + service.accessTtl).seconds * 1000000

instance decidableLive (service : JwtTokenService) (issued now : Datetime) :
    Decidable (service.Live issued now) :=
  inferInstanceAs (Decidable (_ ∧ _))

variable {service : JwtTokenService}

theorem decodeAccess_issueAccess (hjwt : service.jwt.ReadsBack service.secretKey) (userId : UserId)
    (issued now : Datetime) :
    service.decodeAccess now (service.issueAccess userId issued) =
      if service.Live issued now then .ok userId else .error .invalidAccessToken := by
  have hdecode : service.jwt.decode now (service.issueAccess userId issued) service.secretKey =
      if service.Live issued now then
        some (accessPayload userId.value.str issued.seconds (issued + service.accessTtl).seconds)
      else none :=
    hjwt now userId.value.str issued.seconds (issued + service.accessTtl).seconds
  unfold decodeAccess
  rw [hdecode]
  by_cases hlive : service.Live issued now
  · rw [if_pos hlive, if_pos hlive]
    have hsub : (accessPayload userId.value.str issued.seconds
        (issued + service.accessTtl).seconds).get? "sub" = some (.str userId.value.str) := rfl
    simp only [hsub, UUID.ofHex_str]
  · rw [if_neg hlive, if_neg hlive]

/-- A token that is issued after the epoch and expires before 2514, with a time to live of whole seconds,
    lives for exactly that long, from the beginning of the second it is issued in. -/
theorem live_iff {issued now : Datetime} (hepoch : 0 ≤ issued.instant) {ttl : ℕ}
    (httl : service.accessTtl = ⟨ttl * 1000000⟩)
    (hearly : issued.instant + ttl * 1000000 < 2 ^ 34 * 1000000) :
    service.Live issued now ↔
      issued.instant / 1000000 * 1000000 ≤ now.instant ∧
        now.instant < issued.instant / 1000000 * 1000000 + ttl * 1000000 := by
  have hissued : issued.seconds = issued.instant / 1000000 :=
    Datetime.seconds_exact hepoch (by omega)
  have hexpires : (issued + service.accessTtl).seconds = issued.instant / 1000000 + ttl := by
    have hinstant : (issued + service.accessTtl).instant = issued.instant + ttl * 1000000 := by
      rw [httl]
      rfl
    rw [Datetime.seconds_exact (by omega) (by omega), hinstant]
    omega
  unfold Live
  rw [hissued, hexpires, add_mul]

/-- Such a token is valid when it is issued, unless it lives for less than a second, and never as long as
    its time to live after that. -/
theorem live_bounds {issued now : Datetime} (hepoch : 0 ≤ issued.instant) {ttl : ℕ}
    (httl : service.accessTtl = ⟨ttl * 1000000⟩)
    (hearly : issued.instant + ttl * 1000000 < 2 ^ 34 * 1000000) :
    (issued.instant ≤ now.instant → now.instant + 1000000 ≤ issued.instant + ttl * 1000000 →
        service.Live issued now) ∧
      (service.Live issued now → now.instant < issued.instant + ttl * 1000000) := by
  rw [live_iff hepoch httl hearly]
  omega

end JwtTokenService

/-- A token with its payload in the clear, behind the key. -/
def plainJwt : PyJwt where
  encode payload key := String.ofList (key.toList ++ '.' :: payload.dumps)
  decode now token key :=
    match Json.loads (token.toList.drop (key.toList.length + 1)) with
    | none => none
    | some payload =>
        match payload.get? "iat", payload.get? "exp" with
        | some (.int iat), some (.int exp) =>
            if token = String.ofList (key.toList ++ '.' :: payload.dumps) ∧
                iat * 1000000 ≤ now.instant ∧ now.instant < exp * 1000000 then some payload
            else none
        | _, _ => none

theorem plainJwt_readsBack (key : String) : plainJwt.ReadsBack key := by
  intro now sub iat exp
  have hpayload : (plainJwt.encode (accessPayload sub iat exp) key).toList.drop (key.toList.length + 1) =
      (accessPayload sub iat exp).dumps := by
    simp [plainJwt]
  have hiat : (accessPayload sub iat exp).get? "iat" = some (.int iat) := rfl
  have hexp : (accessPayload sub iat exp).get? "exp" = some (.int exp) := rfl
  show (match Json.loads ((plainJwt.encode (accessPayload sub iat exp) key).toList.drop
    (key.toList.length + 1)) with | none => none | some payload => _) = _
  rw [hpayload, Json.loads_dumps]
  simp only [hiat, hexp, plainJwt, true_and]

end Dizzchat
