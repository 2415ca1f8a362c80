import AgencyOS.Accounts.Model

/-!
Sessions of users: login, rotation of refresh tokens, and the operations that revoke them.

Every operation runs in one session and changes the user it has loaded there; the unit of work
writes the changes before the next bulk `UPDATE`, or at the commit.  A bulk `UPDATE` picks its rows
from what was committed when it began and then updates one row after the other.

* `AccessToken`, `getCurrentUser`: the claims of an access token, and the request guard;
* `RefreshTokenRepository`: the guarded `UPDATE`s and the bulk revocations;
* `AuthService`, `AccountSecurityService`, `MfaService`: the operations;
* `Request`: the requests of clients, each in a session of its own.
-/

namespace Accounts

open Txn Automation

/-- What the services are configured with and call: the life of a refresh token in days, whether
two-factor authentication is deployed and how many codes may be missed, and the checks of passwords
and codes. -/
structure Security where
  refreshTokenExpireDays : ℕ
  mfaEnabled : Bool
  mfaMaxAttempts : ℕ
  hashPassword : String → String
  verifyPassword : String → String → Bool
  decryptMfaSecret : String → Option String
  verifyCode : String → String → Bool

/-- One day, in microseconds. -/
def day : ℕ := 86400 * second

/-! ### Access tokens -/

/-- The claims of a valid access token that the request guard reads. -/
structure AccessToken where
  sub : ℕ
  tv : ℕ
  scope : Option String
  deriving DecidableEq, Repr

/-- `create_access_token` for a session of the user. -/
def createAccessToken (userId : ℕ) (user : User) : AccessToken := ⟨userId, user.tokenVersion, none⟩

def invalidToken : Exn := .app ⟨"auth.invalid_token", "Invalid or expired token", 401⟩ false

def tokenRevoked : Exn := .app ⟨"auth.token_revoked", "Session is no longer valid", 401⟩ false

/-- `get_current_user` once the user of the token has been looked up. -/
def checkUser (payload : AccessToken) : Option User → Tx User
  | none => raise "auth.user_unavailable" "Account not found or disabled" 401
  | some user =>
      if user.isActive = false then
        raise "auth.user_unavailable" "Account not found or disabled" 401
      else if user.unverified then
        raise "auth.email_verification_required" "Confirm your email address before continuing" 403
      else if payload.tv ≠ user.tokenVersion then
        throw tokenRevoked
      else
        return user

/-- `get_current_user`, for a token whose signature and expiry have been checked. -/
def getCurrentUser (payload : AccessToken) : Tx User :=
  if payload.scope = some "mfa" then
    throw invalidToken
  else do
    let user ← getUser payload.sub
    checkUser payload user

/-! ### Refresh tokens -/

namespace RefreshTokenRepository

/-- `get_any`: by the digest, here by the raw token. -/
def getAny (rawToken : ℕ) : Tx (Option RefreshToken) :=
  Tx.select (S := accounts) Table.refreshTokens rawToken

/-- `mark_replaced`: whether the token was active. -/
def markReplaced (tokenId replacedBy : ℕ) (now : Time) : Tx Bool := do
  let row ← Tx.update (S := accounts) (.markReplaced replacedBy now) tokenId
  return row.isSome

def revoke (tokenId : ℕ) (now : Time) : Tx Unit := do
  let _ ← Tx.update (S := accounts) (.revoke now) tokenId
  return

/-- One row of a bulk `UPDATE`, counted when it still meets the condition. -/
def revokeRow (u : Update) (tokenId : ℕ) : Tx ℕ := do
  let row ← Tx.update (S := accounts) u tokenId
  return row.isSome.toNat

/-- `revoke_family`. -/
def revokeFamily (familyId : ℕ) (now : Time) : Tx ℕ := do
  let rows ← Tx.scan (S := accounts) (.family familyId)
  Prog.tally (rows.filter fun row => row.2.family row.1 = familyId) fun row =>
    revokeRow (.revoke now) row.1

/-- `revoke_all_for_user`. -/
def revokeAllForUser (userId : ℕ) (now : Time) : Tx ℕ := do
  let rows ← Tx.scan (S := accounts) (.outstanding userId now)
  Prog.tally rows fun row => revokeRow (.revokeOutstanding userId now) row.1

end RefreshTokenRepository

/-- What a session of a user is answered with: an access token and a refresh token. -/
structure AuthResponse where
  accessToken : AccessToken
  refreshToken : ℕ
  deriving DecidableEq, Repr

/-- The user with its access tokens revoked. -/
def User.bumped (u : User) : User := { u with tokenVersion := u.tokenVersion + 1 }

/-! ### Sessions -/

namespace AuthService

variable (cfg : Security)

def invalidCredentials : Exn :=
  .app ⟨"auth.invalid_credentials", "Invalid email or password", 401⟩ false

def invalidRefresh : Exn :=
  .app ⟨"auth.invalid_refresh_token", "Invalid or expired refresh token", 401⟩ false

def emailVerificationRequired : Exn :=
  .app ⟨"auth.email_verification_required", "Confirm your email address before signing in", 403⟩
    false

def refreshTokenReuse : Exn :=
  .app ⟨"auth.refresh_token_reuse", "Refresh token reuse detected; all sessions were revoked", 401⟩
    false

/-- The lock after too many failed attempts, in seconds. -/
def lockSeconds (excess : ℕ) : ℕ := min (30 * 2 ^ min excess 10) 900

/-- `_register_failed_attempt`. -/
def registerFailedAttempt (user : User) (now : Time) : User :=
  let attempts := user.failedLoginAttempts + 1
  { user with
    failedLoginAttempts := attempts
    lockedUntil :=
      if 5 ≤ attempts then some (now + lockSeconds (attempts - 5) * second) else user.lockedUntil }

/-- `_issue_tokens` for a user loaded as `known` and standing as `user`: its flush writes the user
and then the token, whose family is new unless one is given. -/
def issueTokens (userId : ℕ) (known user : User) (familyId : Option ℕ) : Tx AuthResponse := do
  let now ← Tx.now
  flush userId known user
  let token ← Tx.insert (S := accounts)
    ⟨userId, user.organizationId, familyId, now + cfg.refreshTokenExpireDays * day⟩
  return ⟨createAccessToken userId user, token⟩

/-- The commit of a session, and `_auth_response`, which reads the user again. -/
def respond (userId : ℕ) (response : AuthResponse) : Tx AuthResponse := do
  Tx.commit
  let _ ← getUser userId
  return response

/-- `login` of a user found by its email. -/
def loginUser (password : String) (userId : ℕ) (user : User) (passwordHash : String) :
    Tx AuthResponse := do
  let now ← Tx.now
  if cfg.verifyPassword password passwordHash = false then
    if user.lockedUntil.any (now < ·) then
      raise "auth.too_many_attempts" "Too many failed login attempts. Try again later." 429
    else do
      flush userId user (registerFailedAttempt user now)
      Tx.commit
      throw invalidCredentials
  else if user.unverified then
    throw emailVerificationRequired
  else if user.mfaEnabled then
    raise "auth.mfa_required" "A second authentication factor is required" 401
  else do
    let response ← issueTokens cfg userId user
      { user with failedLoginAttempts := 0, lockedUntil := none, lastLoginAt := some now } none
    respond userId response

/-- `login`: the email is normalised. -/
def login (email password : String) : Tx AuthResponse := do
  let rows ← Tx.scan (S := accounts) (.activeByEmail email)
  match rows.head? with
  | none => throw invalidCredentials
  | some (userId, user) =>
      match user.passwordHash with
      | none => throw invalidCredentials
      | some passwordHash => loginUser cfg password userId user passwordHash

/-- `_on_reuse_detected`, once the user is loaded. -/
def revokeReused {α : Type} (rawToken : ℕ) (record : RefreshToken) (now : Time)
    (user : Option User) : Tx α := do
  let _ ← RefreshTokenRepository.revokeFamily (record.family rawToken) now
  match user with
  | some user => flush record.userId user user.bumped
  | none => pure ()
  Tx.commit
  throw refreshTokenReuse

/-- `_on_reuse_detected`: a user already loaded in the session is not read again. -/
def onReuseDetected {α : Type} (loaded : Option User) (rawToken : ℕ) (record : RefreshToken)
    (now : Time) : Tx α :=
  match loaded with
  | some user => revokeReused rawToken record now (some user)
  | none => do
      let user ← getUser record.userId
      revokeReused rawToken record now user

/-- `refresh` of a valid token: the successor is inserted, then the token claimed for it. -/
def rotate (rawToken : ℕ) (record : RefreshToken) (now : Time) (user : User) : Tx AuthResponse := do
  let response ← issueTokens cfg record.userId user user (some (record.family rawToken))
  let claimed ← RefreshTokenRepository.markReplaced rawToken response.refreshToken now
  if claimed then
    respond record.userId response
  else do
    RefreshTokenRepository.revoke response.refreshToken now
    onReuseDetected (some user) rawToken record now

/-- `refresh`. -/
def refresh (rawToken : ℕ) : Tx AuthResponse := do
  let now ← Tx.now
  match ← RefreshTokenRepository.getAny rawToken with
  | none => throw invalidRefresh
  | some record =>
      if record.revokedAt.isSome then
        onReuseDetected none rawToken record now
      else if record.expiresAt ≤ now then
        throw invalidRefresh
      else do
        match (← getUser record.userId).filter (·.isActive) with
        | none => raise "auth.inactive_user" "Account is disabled" 403
        | some user =>
            if user.unverified then
              throw emailVerificationRequired
            else
              rotate cfg rawToken record now user

/-- The end of the operations that revoke every session of a user: the flush of the changed user,
the bulk revocation and the commit. -/
def revokeSessions (userId : ℕ) (known user : User) (now : Time) : Tx Unit := do
  flush userId known user.bumped
  let _ ← RefreshTokenRepository.revokeAllForUser userId now
  Tx.commit

def logout (userId : ℕ) (user : User) : Tx Unit := do
  let now ← Tx.now
  revokeSessions userId user user now

def changePassword (userId : ℕ) (user : User) (current newPassword : String) : Tx Unit :=
  if user.passwordHash.any (cfg.verifyPassword current) = false then
    raise "auth.wrong_password" "Current password is incorrect" 400
  else do
    let now ← Tx.now
    revokeSessions userId user { user with passwordHash := some (cfg.hashPassword newPassword) } now

/-- `session_for_user`. -/
def sessionForUser (userId : ℕ) (user : User) : Tx AuthResponse := do
  let response ← issueTokens cfg userId user user none
  respond userId response

end AuthService

/-! ### Password reset -/

namespace AccountSecurityService

variable (cfg : Security)

def invalidReset : Exn :=
  .app ⟨"auth.invalid_reset_token", "Invalid or expired password reset link", 400⟩ false

/-- `reset_password`. -/
def resetPassword (rawToken : ℕ) (newPassword : String) : Tx Unit := do
  let now ← Tx.now
  match ← Tx.select (S := accounts) Table.authTokens rawToken with
  | none => throw invalidReset
  | some record =>
      if record.purpose ≠ .passwordReset then
        throw invalidReset
      else if record.expiresAt ≤ now then
        throw invalidReset
      else do
        match (← getUser record.userId).filter (·.isActive) with
        | none => throw invalidReset
        | some user => do
            match ← Tx.update (S := accounts) (.claim .passwordReset now) rawToken with
            | none => throw invalidReset
            | some _ =>
                AuthService.revokeSessions record.userId user
                  { user with
                    passwordHash := some (cfg.hashPassword newPassword)
                    failedLoginAttempts := 0
                    lockedUntil := none } now

end AccountSecurityService

/-! ### Two-factor authentication -/

namespace MfaService

variable (cfg : Security)

def unavailable : Exn :=
  .app ⟨"auth.mfa_unavailable", "Two-factor authentication is not enabled for this deployment", 404⟩
    false

def invalidCode : Exn := .app ⟨"auth.invalid_mfa_code", "Invalid authentication code", 401⟩ false

def invalidChallenge : Exn :=
  .app ⟨"auth.invalid_mfa_token", "Invalid or expired MFA challenge", 401⟩ false

/-- `_pending_secret`. -/
def pendingSecret (user : User) : Option String := user.mfaSecretEnc.bind cfg.decryptMfaSecret

/-- `activate`: the change is written by the deletion of the recovery codes, before the sessions are
revoked. -/
def activate (userId : ℕ) (user : User) (code : String) : Tx Unit :=
  if cfg.mfaEnabled = false then
    throw unavailable
  else if user.mfaEnabled then
    raise "auth.mfa_already_enabled" "Two-factor authentication is already enabled" 409
  else
    match pendingSecret cfg user with
    | none =>
        raise "auth.mfa_not_enrolled"
          "Start enrollment before activating two-factor authentication" 409
    | some secret =>
        if cfg.verifyCode secret code = false then
          throw invalidCode
        else do
          let enabled :=
            { user with mfaEnabled := true, mfaFailedAttempts := 0, mfaLockedUntil := none }
          flush userId user enabled
          let now ← Tx.now
          AuthService.revokeSessions userId enabled enabled now

/-- `_verify_factor`: `recovered` is the answer of `_consume_recovery_code`. -/
def verifyFactor (user : User) (code : String) (recovered : Bool) : Bool :=
  (pendingSecret cfg user).any (cfg.verifyCode · code) || recovered

/-- `disable`. -/
def disable (userId : ℕ) (user : User) (code : String) (recovered : Bool) : Tx Unit :=
  if cfg.mfaEnabled = false then
    throw unavailable
  else if user.mfaEnabled = false then
    raise "auth.mfa_not_enabled" "Two-factor authentication is not enabled" 409
  else if verifyFactor cfg user code recovered = false then
    throw invalidCode
  else do
    let disabled :=
      { user with
        mfaEnabled := false
        mfaSecretEnc := none
        mfaFailedAttempts := 0
        mfaLockedUntil := none }
    flush userId user disabled
    let now ← Tx.now
    AuthService.revokeSessions userId disabled disabled now

/-- `_register_failed_attempt`. -/
def registerFailedAttempt (user : User) (now : Time) : User :=
  let attempts := user.mfaFailedAttempts + 1
  { user with
    mfaFailedAttempts := attempts
    mfaLockedUntil :=
      if cfg.mfaMaxAttempts ≤ attempts then
        some (now + AuthService.lockSeconds (attempts - cfg.mfaMaxAttempts) * second)
      else
        user.mfaLockedUntil }

/-- `verify_challenge` of a user that has been loaded. -/
def verifyLoaded (userId : ℕ) (user : User) (code : String) (recovered : Bool) : Tx User := do
  let now ← Tx.now
  if user.mfaLockedUntil.any (now < ·) then
    raise "auth.mfa_locked" "Too many incorrect codes. Try again later." 429
  else if verifyFactor cfg user code recovered = false then do
    flush userId user (registerFailedAttempt cfg user now)
    Tx.commit
    throw invalidCode
  else do
    let verified := { user with mfaFailedAttempts := 0, mfaLockedUntil := none }
    flush userId user verified
    Tx.commit
    return verified

/-- `verify_challenge`, for a challenge whose signature and expiry have been checked. -/
def verifyChallenge (challenge : AccessToken) (code : String) (recovered : Bool) : Tx User :=
  if cfg.mfaEnabled = false then
    throw unavailable
  else if challenge.scope ≠ some "mfa" then
    throw invalidChallenge
  else do
    match (← getUser challenge.sub).filter fun user => user.isActive && user.mfaEnabled with
    | none => throw invalidChallenge
    | some user => verifyLoaded cfg challenge.sub user code recovered

end MfaService

/-! ### Requests -/

/-- A request of a client. -/
inductive Request where
  | login (email password : String)
  | verifyMfa (challenge : AccessToken) (code : String) (recovered : Bool)
  | refresh (rawToken : ℕ)
  | logout (token : AccessToken)
  | changePassword (token : AccessToken) (current newPassword : String)
  | resetPassword (rawToken : ℕ) (newPassword : String)
  | activateMfa (token : AccessToken) (code : String)
  | disableMfa (token : AccessToken) (code : String) (recovered : Bool)
  deriving DecidableEq, Repr

/-- An authenticated request: the guard loads the user in the session of the request. -/
def authenticated (token : AccessToken) (p : ℕ → User → Tx Unit) : Tx (Option AuthResponse) := do
  let user ← getCurrentUser token
  p token.sub user
  return none

/-- A request that answers with a session. -/
def answered (p : Tx AuthResponse) : Tx (Option AuthResponse) := do
  let response ← p
  return some response

/-- What a request runs. -/
def Request.body (cfg : Security) : Request → Tx (Option AuthResponse)
  | login email password => answered (AuthService.login cfg email password)
  | verifyMfa challenge code recovered => answered do
      let user ← MfaService.verifyChallenge cfg challenge code recovered
      AuthService.sessionForUser cfg challenge.sub user
  | refresh rawToken => answered (AuthService.refresh cfg rawToken)
  | logout token => authenticated token AuthService.logout
  | changePassword token current newPassword => authenticated token fun userId user =>
      AuthService.changePassword cfg userId user current newPassword
  | resetPassword rawToken newPassword => do
      AccountSecurityService.resetPassword cfg rawToken newPassword
      return none
  | activateMfa token code => authenticated token fun userId user =>
      MfaService.activate cfg userId user code
  | disableMfa token code recovered => authenticated token fun userId user =>
      MfaService.disable cfg userId user code recovered

/-- The request in a session of its own. -/
def Request.run (cfg : Security) (r : Request) : Tx (Option AuthResponse) :=
  Txn.Tx.withSession (r.body cfg)

/-! ### The statements of the parts -/

section Issues

variable {φ : Sql accounts → Prop}

lemma issues_revokeRow {u : Update} {tokenId : ℕ} (hφ : φ (.update u tokenId)) :
    (RefreshTokenRepository.revokeRow u tokenId).Issues φ := ⟨hφ, fun _ => trivial⟩

lemma issues_revokeFamily {familyId : ℕ} {now : Time} (hscan : φ (.scan (.family familyId)))
    (hrow : ∀ n, φ (.update (.revoke now) n)) :
    (RefreshTokenRepository.revokeFamily familyId now).Issues φ := by
  refine Prog.issues_bind ⟨hscan, fun _ => trivial⟩ fun rows => ?_
  exact Prog.issues_tally (fun row => issues_revokeRow (hrow _)) _

lemma issues_revokeAllForUser {userId : ℕ} {now : Time} (hscan : φ (.scan (.outstanding userId now)))
    (hrow : ∀ n, φ (.update (.revokeOutstanding userId now) n)) :
    (RefreshTokenRepository.revokeAllForUser userId now).Issues φ := by
  refine Prog.issues_bind ⟨hscan, fun _ => trivial⟩ fun rows => ?_
  exact Prog.issues_tally (fun row => issues_revokeRow (hrow _)) _

lemma issues_respond {userId : ℕ} {response : AuthResponse} (hcommit : φ .commit)
    (hselect : φ (.select .users userId)) : (AuthService.respond userId response).Issues φ :=
  ⟨hcommit, fun _ => ⟨hselect, fun _ => trivial⟩⟩

end Issues

end Accounts
