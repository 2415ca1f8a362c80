import AgencyOS.Accounts.AuthService

/-!
Single-use account tokens: issue, verification and password reset.

Issuing a token marks the outstanding ones of the user and the purpose as used and inserts a new
one.  The operations run beside the requests of the sessions of users, which are programs on the
account tables alone.

* `AuthToken.invalidate`, `accountSecurity`: the further statements, and the schema with them;
* `embed`: a program on the account tables, on the schema with the further statements;
* `invalidateOutstanding`, `issue`: the two halves of issuing a token;
* `verifyEmail`, `resendVerification`, `resendVerificationByEmail`, `requestPasswordReset`: the
  operations;
* `SecurityRequest`: the requests of clients, each in a session of its own.
-/

namespace Accounts

open Txn Automation

/-! ### The schema -/

/-- What `invalidate_outstanding` does to a row. -/
def AuthToken.invalidate (userId : ℕ) (purpose : Purpose) (now : Time) :
    GuardedUpdate AuthToken where
  guard := fun r => r.userId = userId && r.purpose = purpose && r.usedAt.isNone
  set := fun r => { r with usedAt := some now }

/-- An account token about to be inserted. -/
structure NewAuthToken where
  userId : ℕ
  purpose : Purpose
  expiresAt : Time
  deriving DecidableEq, Repr

def NewAuthToken.row (x : NewAuthToken) : AuthToken where
  userId := x.userId
  purpose := x.purpose
  expiresAt := x.expiresAt
  usedAt := none

inductive SecurityUpdate where
  | account (u : Update)
  | invalidate (userId : ℕ) (purpose : Purpose) (now : Time)
  deriving DecidableEq, Repr

@[reducible] def SecurityUpdate.target : SecurityUpdate → Table
  | account u => u.target
  | invalidate .. => .authTokens

def SecurityUpdate.act : (u : SecurityUpdate) → GuardedUpdate (Row u.target)
  | account u => u.act
  | invalidate userId purpose now => AuthToken.invalidate userId purpose now

inductive SecurityInsert where
  | refreshToken (x : NewToken)
  | authToken (x : NewAuthToken)
  deriving DecidableEq, Repr

@[reducible] def SecurityInsert.into : SecurityInsert → Table
  | refreshToken _ => .refreshTokens
  | authToken _ => .authTokens

def SecurityInsert.new : (x : SecurityInsert) → Row x.into
  | refreshToken x => x.row
  | authToken x => x.row

inductive SecurityQuery where
  | account (q : Query)
  | unused (userId : ℕ) (purpose : Purpose)
  deriving DecidableEq, Repr

@[reducible] def SecurityQuery.source : SecurityQuery → Table
  | account q => q.source
  | unused .. => .authTokens

def SecurityQuery.matching : (q : SecurityQuery) → Row q.source → Bool
  | account q => q.matching
  | unused userId purpose => fun r : AuthToken =>
      r.userId = userId && r.purpose = purpose && r.usedAt.isNone

/-- The account tables, with the statements that issue account tokens. -/
@[reducible] def accountSecurity : Schema where
  Table := Table
  Row := Row
  Update := SecurityUpdate
  target := SecurityUpdate.target
  act := SecurityUpdate.act
  Insert := SecurityInsert
  into := SecurityInsert.into
  new := SecurityInsert.new
  Query := SecurityQuery
  source := SecurityQuery.source
  matching := SecurityQuery.matching

abbrev SecurityTx (α : Type) : Type := Txn.Tx accountSecurity Exn α

abbrev SecurityDb (ι : Type) : Type := Db accountSecurity ι

abbrev SecurityEvent (ι : Type) : Type := Event (sql accountSecurity) ι (SecurityDb ι)

abbrev SecurityPool (ι α : Type) : Type :=
  Pool (sql accountSecurity) ι (SecurityDb ι) Exn α

abbrev securityServer (ι : Type) [DecidableEq ι] :
    Server (sql accountSecurity) ι (SecurityDb ι) :=
  server accountSecurity ι

/-! ### Programs on the account tables -/

/-- A statement on the account tables. -/
def embedStmt : Sql accounts → Sql accountSecurity
  | .select t n => .select t n
  | .scan q => .scan (.account q)
  | .update u n => .update (.account u) n
  | .insert x => .insert (.refreshToken x)
  | .now => .now
  | .commit => .commit
  | .rollback => .rollback

/-- A program on the account tables. -/
def embed {α : Type} : Tx α → SecurityTx α
  | .ret a => .ret a
  | .raise e => .raise e
  | .call (.select t n) k => .call (.select t n) fun r => embed (k r)
  | .call (.scan q) k => .call (.scan (.account q)) fun r => embed (k r)
  | .call (.update u n) k => .call (.update (.account u) n) fun r => embed (k r)
  | .call (.insert x) k => .call (.insert (.refreshToken x)) fun r => embed (k r)
  | .call .now k => .call .now fun r => embed (k r)
  | .call .commit k => .call .commit fun r => embed (k r)
  | .call .rollback k => .call .rollback fun r => embed (k r)

/-- A program on the account tables issues statements on them alone. -/
lemma issues_embed {α : Type} {φ : Sql accountSecurity → Prop} (hφ : ∀ q, φ (embedStmt q))
    (p : Tx α) : (embed p).Issues φ := by
  induction p with
  | ret a => trivial
  | raise e => trivial
  | call q k ih =>
      cases q with
      | select t n => exact ⟨hφ (.select t n), ih⟩
      | scan q => exact ⟨hφ (.scan q), ih⟩
      | update u n => exact ⟨hφ (.update u n), ih⟩
      | insert x => exact ⟨hφ (.insert x), ih⟩
      | now => exact ⟨hφ .now, ih⟩
      | commit => exact ⟨hφ .commit, ih⟩
      | rollback => exact ⟨hφ .rollback, ih⟩

/-! ### The repository -/

namespace AuthTokenRepository

/-- One row of `invalidate_outstanding`, counted when it is still unused. -/
def invalidateRow (userId : ℕ) (purpose : Purpose) (now : Time) (tokenId : ℕ) :
    SecurityTx ℕ := do
  let row ← Tx.update (S := accountSecurity) (.invalidate userId purpose now) tokenId
  return row.isSome.toNat

/-- `invalidate_outstanding`. -/
def invalidateOutstanding (userId : ℕ) (purpose : Purpose) (now : Time) : SecurityTx ℕ := do
  let rows ← Tx.scan (S := accountSecurity) (.unused userId purpose)
  Prog.tally rows fun row => invalidateRow userId purpose now row.1

end AuthTokenRepository

/-! ### The operations -/

/-- The lives of account tokens in minutes, and whether the raw token of a link is handed to the
caller. -/
structure TokenSettings where
  emailVerificationTokenTtlMinutes : ℕ
  passwordResetTokenTtlMinutes : ℕ
  isLocalEnvironment : Bool

/-- One minute. -/
def minute : ℕ := 60 * second

namespace AccountSecurityService

variable (settings : TokenSettings)

def ttlMinutes : Purpose → ℕ
  | .emailVerification => settings.emailVerificationTokenTtlMinutes
  | .passwordReset => settings.passwordResetTokenTtlMinutes

/-- `_create_token`: the new row is written by the commit that follows. -/
def createToken (userId : ℕ) (purpose : Purpose) : SecurityTx ℕ := do
  let now ← Tx.now
  Tx.insert (S := accountSecurity)
    (.authToken ⟨userId, purpose, now + ttlMinutes settings purpose * minute⟩)

/-- `_dev_url`, for the raw token of the link. -/
def devUrl (rawToken : ℕ) : Option ℕ := if settings.isLocalEnvironment then some rawToken else none

/-- The end of the operations that issue a token. -/
def issue (userId : ℕ) (purpose : Purpose) (now : Time) : SecurityTx (Option ℕ) := do
  let _ ← AuthTokenRepository.invalidateOutstanding userId purpose now
  let rawToken ← createToken settings userId purpose
  Tx.commit
  return devUrl settings rawToken

/-- `resend_verification` of a user loaded in the session; `allowed` is the answer of the cooldown
store. -/
def resendVerification (userId : ℕ) (allowed : Bool) : SecurityTx (Option ℕ) :=
  if allowed = false then
    return none
  else do
    let now ← Tx.now
    issue settings userId .emailVerification now

/-- `resend_verification_by_email`: the email is normalised. -/
def resendVerificationByEmail (email : String) (allowed : Bool) : SecurityTx (Option ℕ) :=
  if allowed = false then
    return none
  else do
    let now ← Tx.now
    let rows ← Tx.scan (S := accountSecurity) (.account (.activeByEmail email))
    match rows.head? with
    | none => return none
    | some (userId, user) =>
        if user.emailVerifiedAt.isSome || user.isActive = false then
          return none
        else
          issue settings userId .emailVerification now

/-- `request_password_reset`: the email is normalised. -/
def requestPasswordReset (email : String) : SecurityTx (Option ℕ) := do
  let now ← Tx.now
  let rows ← Tx.scan (S := accountSecurity) (.account (.activeByEmail email))
  match rows.head? with
  | none => return none
  | some (userId, user) =>
      if user.passwordHash = none then
        return none
      else
        issue settings userId .passwordReset now

def invalidVerification : Exn :=
  .app ⟨"auth.invalid_verification_token", "Invalid or expired verification link", 400⟩ false

/-- `_usable`. -/
def usable (record : Option AuthToken) (purpose : Purpose) (now : Time) : Option AuthToken :=
  record.filter fun r => r.purpose = purpose && r.usedAt.isNone && decide (now < r.expiresAt)

/-- `verify_email`. -/
def verifyEmail (rawToken : ℕ) : Tx Unit := do
  let now ← Tx.now
  let record ← Tx.select (S := accounts) Table.authTokens rawToken
  match usable record .emailVerification now with
  | none => throw invalidVerification
  | some record => do
      match (← getUser record.userId).filter (·.isActive) with
      | none => throw invalidVerification
      | some user => do
          match ← Tx.update (S := accounts) (.claim .emailVerification now) rawToken with
          | none => throw invalidVerification
          | some _ => do
              flush record.userId user
                { user with emailVerifiedAt := some now, emailVerificationRequired := false }
              Tx.commit

end AccountSecurityService

/-! ### Requests -/

/-- A request of a client; the guard of an authenticated resend has loaded the user. -/
inductive SecurityRequest where
  | account (r : Request)
  | verifyEmail (rawToken : ℕ)
  | resendVerification (userId : ℕ) (allowed : Bool)
  | resendVerificationByEmail (email : String) (allowed : Bool)
  | requestPasswordReset (email : String)
  deriving DecidableEq, Repr

/-- What a request runs. -/
def SecurityRequest.body (cfg : Security) (settings : TokenSettings) :
    SecurityRequest → SecurityTx (Option ℕ)
  | account r => do
      let _ ← embed (r.body cfg)
      return none
  | verifyEmail rawToken => do
      let _ ← embed (AccountSecurityService.verifyEmail rawToken)
      return none
  | resendVerification userId allowed =>
      AccountSecurityService.resendVerification settings userId allowed
  | resendVerificationByEmail email allowed =>
      AccountSecurityService.resendVerificationByEmail settings email allowed
  | requestPasswordReset email => AccountSecurityService.requestPasswordReset settings email

/-- The request in a session of its own. -/
def SecurityRequest.run (cfg : Security) (settings : TokenSettings) (r : SecurityRequest) :
    SecurityTx (Option ℕ) :=
  Txn.Tx.withSession (r.body cfg settings)

end Accounts
