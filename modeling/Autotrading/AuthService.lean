import Autotrading.DistributedLock
import Autotrading.OrderTable

/-!
# The access token

`app/services/kis/auth_service.py`: the token of the broker, cached in Redis and issued again
under a lock. What the service reads of the cache, of the broker and of the clock are calls.
-/
namespace Autotrading

open Prog

/-- A payload of the cache: the texts of its token and of its expiry where Python takes them
for true, and its fingerprint where it is a text. -/
structure TokenPayload where
  accessToken : Option String
  fingerprint : Option String
  accessTokenTokenExpired : Option String
  deriving DecidableEq

/-- What the cache holds: text that is no JSON, text that reading it further fails on, or an
object. -/
inductive TokenText
  | malformed
  | unreadable (e : PyExc)
  | object (payload : TokenPayload)
  deriving DecidableEq

structure TokenResponse where
  accessToken : String
  accessTokenTokenExpired : Option String
  deriving DecidableEq

/-- The calls of the service apart from the lock. -/
inductive TokenOp
  | get
  | delete
  | set (payload : TokenPayload) (ex : ℤ)
  | getAccessToken
  | now
  | sleep (seconds : ℕ)

abbrev TokenAns : TokenOp → Type
  | .get => Option TokenText
  | .getAccessToken => TokenResponse
  | .now => Instant
  | _ => Unit

abbrev TokenProgram : Type → Type := LockProgram TokenAns

def TokenOp.perform (o : TokenOp) : TokenProgram (TokenAns o) := Prog.perform (LockOp.other o)

/-- An `AuthService` with the credentials of its broker. `sha256` is the hex digest of a text,
`strptime` reads a time of the form `%Y-%m-%d %H:%M:%S` in Seoul; without a value it is a
`ValueError`. -/
structure AuthService where
  appkey : String
  appsecret : String
  sha256 : String → String
  strptime : String → Option Instant

namespace AuthService

def tokenLockKey : String := "kis:access_token:lock"

def expiryBufferSeconds : ℤ := 300

def lockTtlSeconds : ℕ := 55

def lockWaitSeconds : ℕ := 1

def lockRetryCount : ℕ := 5

variable (s : AuthService)

/-- `_credential_fingerprint` of the current credentials. -/
def credentialFingerprint : String := ((s.sha256 s!"{s.appkey}:{s.appsecret}").take 16).toString

/-- `_get_cached_token_payload`. -/
def getCachedTokenPayload : TokenProgram (Option TokenPayload) := do
  match ← TokenOp.perform .get with
  | none => pure none
  | some .malformed => do
    TokenOp.perform .delete
    pure none
  | some (.unreadable e) => raise e
  | some (.object payload) => pure (if payload.accessToken.isSome then some payload else none)

/-- `_validate_fingerprint`. -/
def validateFingerprint (payload : TokenPayload) : Bool :=
  payload.fingerprint = some s.credentialFingerprint

/-- `datetime.min` in Seoul. -/
def datetimeMin : Instant := -62135629200000000

/-- The time from which a token that expires then counts as expired. -/
def threshold (expiredAt : Instant) : Instant := expiredAt - expiryBufferSeconds * 1000000

/-- `_is_expired_or_expiring`. -/
def isExpiredOrExpiring (payload : TokenPayload) : TokenProgram Bool :=
  match payload.accessTokenTokenExpired.map s.strptime with
  | none => pure true
  | some none => pure true
  | some (some expiredAt) => do
    if threshold expiredAt < datetimeMin then
      raise (.other "OverflowError" "date value out of range")
    let now ← TokenOp.perform .now
    pure (threshold expiredAt ≤ now)

/-- A token of the cache that is valid. -/
def validCachedToken : TokenProgram (Option String) := do
  match ← getCachedTokenPayload with
  | none => pure none
  | some cached =>
    if s.validateFingerprint cached then do
      let expired ← s.isExpiredOrExpiring cached
      pure (if expired then none else cached.accessToken)
    else pure none

/-- The look that `get_valid_access_token` makes twice, unless a refresh is forced. -/
def usableCachedToken (forceRefresh : Bool) : TokenProgram (Option String) :=
  if forceRefresh then pure none else s.validCachedToken

/-- The payload of an issued token. -/
def payloadOf (response : TokenResponse) : TokenPayload where
  accessToken := if response.accessToken = "" then none else some response.accessToken
  fingerprint := some s.credentialFingerprint
  accessTokenTokenExpired := response.accessTokenTokenExpired

/-- `_save_token_payload`: at least a second. -/
def saveTokenPayload (payload : TokenPayload) : TokenProgram Unit := do
  match payload.accessTokenTokenExpired.map s.strptime with
  | none => raise (.other "TypeError" "strptime() argument 1 must be str, not None")
  | some none => raise (.other "ValueError" "time data does not match format '%Y-%m-%d %H:%M:%S'")
  | some (some expiresAt) => do
    let now ← TokenOp.perform .now
    TokenOp.perform (.set payload (max ((expiresAt - now).tdiv 1000000) 1))

/-- What the service does once it has the lock. -/
def refreshUnderLock (forceRefresh : Bool) : TokenProgram String := do
  match ← s.usableCachedToken forceRefresh with
  | some token => pure token
  | none => do
    let tokenResponse ← TokenOp.perform .getAccessToken
    s.saveTokenPayload (s.payloadOf tokenResponse)
    pure tokenResponse.accessToken

def tokenRefreshTimeout : PyExc :=
  .kisAuth ⟨some "토큰 갱신 대기 후에도 유효한 access token을 확보하지 못했습니다.", some 500,
    some "TOKEN_REFRESH_TIMEOUT", none, none, none, none⟩

/-- The rounds of `_wait_for_refreshed_token`. The first test returns the token of a payload
whose fingerprint is not the current one. -/
def waitRounds : ℕ → TokenProgram String
  | 0 => raise tokenRefreshTimeout
  | n + 1 => do
    TokenOp.perform (.sleep lockWaitSeconds)
    match ← getCachedTokenPayload with
    | none => waitRounds n
    | some cached =>
      if !s.validateFingerprint cached then pure (Python.str cached.accessToken)
      else do
        let expired ← s.isExpiredOrExpiring cached
        if expired then waitRounds n else pure (Python.str cached.accessToken)

/-- `_wait_for_refreshed_token`. -/
def waitForRefreshedToken : TokenProgram String := s.waitRounds lockRetryCount

def isLockAcquisitionError : PyExc → Bool
  | .other type _ => type = "LockAcquisitionError"
  | _ => false

/-- `get_valid_access_token`. -/
def getValidAccessToken (forceRefresh : Bool) : TokenProgram String := do
  match ← s.usableCachedToken forceRefresh with
  | some token => pure token
  | none =>
    tryExcept (distributedLock tokenLockKey lockTtlSeconds (s.refreshUnderLock forceRefresh)) fun e =>
      if isLockAcquisitionError e then s.waitForRefreshedToken else raise e

end AuthService

/-! ## Redis and the broker -/

/-- The entry of the cache with the time it expires at, and what the broker has issued. -/
structure TokenStore where
  cache : Option (TokenText × Option ℕ)
  issued : List TokenResponse

/-- What is in the cache at a time. -/
def TokenStore.cached (r : TokenStore) (now : ℕ) : Option TokenText :=
  match r.cache with
  | none => none
  | some (text, none) => some text
  | some (text, some expiry) => if now < expiry then some text else none

/-- The calls of the service on the store; its clock reads `epoch` when that of Redis reads 0. -/
def TokenStore.effect (epoch : Instant) (broker : ℕ → List TokenResponse → TokenResponse) :
    (o : TokenOp) → ℕ → TokenStore → Except PyExc (TokenAns o) × TokenStore
  | .get, now, r => (.ok (r.cached now), r)
  | .delete, _, r => (.ok (), { r with cache := none })
  | .set payload ex, now, r =>
    if ex ≤ 0 then (.error (.other "ResponseError" "invalid expire time in 'set' command"), r)
    else (.ok (), { r with cache := some (.object payload, some (now + ex.toNat * 1000000)) })
  | .getAccessToken, now, r =>
    (.ok (broker now r.issued), { r with issued := r.issued ++ [broker now r.issued] })
  | .now, now, r => (.ok (epoch + now), r)
  | .sleep _, _, r => (.ok (), r)

/-- Redis and a broker that do not fail. -/
def tokenEnv (epoch : Instant) (broker : ℕ → List TokenResponse → TokenResponse) :
    LockEnv TokenAns TokenStore where
  fault _ _ := none
  other := TokenStore.effect epoch broker

end Autotrading
