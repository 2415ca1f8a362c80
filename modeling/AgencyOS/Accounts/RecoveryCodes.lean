import AgencyOS.Accounts.AuthService
import AgencyOS.Txn.Extend

/-!
Two-factor authentication with its recovery codes.

The account tables are extended by the table of recovery codes, and the operations of `MfaService` are
those of the account sessions with the statements on it.  A deleted row stays, marked as such, and no
statement meets it any more.  The codes of one enrolment are created at one time, so their order is
that of their ids.

* `RecoveryCode`, `recoveryCodes`, `twoFactor`: the table, the extension and the schema;
* `UserRecoveryCodeRepository`: the statements on the table;
* `Mfa.activate`, `Mfa.disable`, `Mfa.verifyChallenge`: the operations;
* `MfaRequest`: the requests of clients, each in a session of its own.
-/

namespace Accounts

open Txn Automation

/-! ### The schema -/

structure RecoveryCode where
  userId : ℕ
  codeHash : String
  usedAt : Option Time
  deleted : Bool
  deriving DecidableEq, Repr

namespace RecoveryCode

/-- A code of the user that can be claimed: the condition of `list_unused`. -/
def isUnused (userId : ℕ) (r : RecoveryCode) : Bool :=
  r.userId = userId && r.usedAt.isNone && !r.deleted

/-- `mark_used`. -/
def markUsed (now : Time) : GuardedUpdate RecoveryCode where
  guard := fun r => r.usedAt.isNone && !r.deleted
  set := fun r => { r with usedAt := some now }

/-- What `delete_all_for_user` does to a row. -/
def delete (userId : ℕ) : GuardedUpdate RecoveryCode where
  guard := fun r => r.userId = userId && !r.deleted
  set := fun r => { r with deleted := true }

end RecoveryCode

inductive CodeTable where
  | userRecoveryCodes
  deriving DecidableEq, Repr

inductive CodeUpdate where
  | markUsed (now : Time)
  | delete (userId : ℕ)
  deriving DecidableEq, Repr

def CodeUpdate.act : CodeUpdate → GuardedUpdate RecoveryCode
  | markUsed now => RecoveryCode.markUsed now
  | delete userId => RecoveryCode.delete userId

/-- A recovery code about to be inserted. -/
structure NewCode where
  userId : ℕ
  codeHash : String
  deriving DecidableEq, Repr

def NewCode.row (x : NewCode) : RecoveryCode := ⟨x.userId, x.codeHash, none, false⟩

inductive CodeQuery where
  | unused (userId : ℕ)
  | ofUser (userId : ℕ)
  deriving DecidableEq, Repr

def CodeQuery.matching : CodeQuery → RecoveryCode → Bool
  | unused userId, r => r.isUnused userId
  | ofUser userId, r => r.userId = userId && !r.deleted

/-- The table of recovery codes. -/
@[reducible] def recoveryCodes : Extension accounts where
  Table := CodeTable
  Row := fun _ => RecoveryCode
  Update := CodeUpdate
  target := fun _ => .inr .userRecoveryCodes
  act := CodeUpdate.act
  Insert := NewCode
  into := fun _ => .inr .userRecoveryCodes
  new := NewCode.row
  Query := CodeQuery
  source := fun _ => .inr .userRecoveryCodes
  matching := CodeQuery.matching

/-- The account tables with the recovery codes. -/
@[reducible] def twoFactor : Schema := accounts.extend recoveryCodes

abbrev MfaTx (α : Type) : Type := Txn.Tx twoFactor Exn α

abbrev MfaStore (ι : Type) : Type := Db twoFactor ι

/-- The table of users, and that of recovery codes. -/
abbrev usersTable : twoFactor.Table := .inl .users

abbrev codesTable : twoFactor.Table := .inr .userRecoveryCodes

/-! ### Repository -/

namespace UserRecoveryCodeRepository

/-- `list_unused`. -/
def listUnused (userId : ℕ) : MfaTx (List (ℕ × RecoveryCode)) :=
  Tx.scan (S := twoFactor) (.inr (.unused userId))

/-- `mark_used`: whether this request has claimed the code. -/
def markUsed (codeId : ℕ) (now : Time) : MfaTx Bool := do
  let row ← Tx.update (S := twoFactor) (.inr (.markUsed now)) codeId
  return row.isSome

/-- `delete_all_for_user`: the rows that match when the statement begins, one after the other. -/
def deleteAllForUser (userId : ℕ) : MfaTx ℕ := do
  let rows ← Tx.scan (S := twoFactor) (.inr (.ofUser userId))
  Prog.tally rows fun row => do
    let deleted ← Tx.update (S := twoFactor) (.inr (.delete userId)) row.1
    return deleted.isSome.toNat

/-- The flush of the codes that were added. -/
def addAll (userId : ℕ) (hashes : List String) : MfaTx ℕ :=
  Prog.tally hashes fun codeHash => do
    let _ ← Tx.insert (S := twoFactor) (.inr ⟨userId, codeHash⟩)
    return 1

end UserRecoveryCodeRepository

/-! ### Service -/

namespace Mfa

open UserRecoveryCodeRepository MfaService

/-- What the service calls besides: `code.strip().upper()`. -/
structure Settings extends Security where
  clean : String → String

variable (cfg : Settings)

/-- The loop of `_consume_recovery_code`. -/
def claimFirst (cleaned : String) : List (ℕ × RecoveryCode) → MfaTx Bool
  | [] => return false
  | record :: records =>
      if cfg.verifyPassword cleaned record.2.codeHash then do
        let now ← Tx.now
        if ← markUsed record.1 now then
          return true
        else
          claimFirst cleaned records
      else
        claimFirst cleaned records

/-- `_consume_recovery_code`. -/
def consumeRecoveryCode (userId : ℕ) (code : String) : MfaTx Bool :=
  if cfg.clean code = "" then
    return false
  else do
    let records ← listUnused userId
    claimFirst cfg (cfg.clean code) records

/-- A valid code of the authenticator. -/
def verifiesTotp (user : User) (code : String) : Bool :=
  (pendingSecret cfg.toSecurity user).any (cfg.verifyCode · code)

/-- `_verify_factor`. -/
def verifyFactor (userId : ℕ) (user : User) (code : String) : MfaTx Bool :=
  if verifiesTotp cfg user code then
    return true
  else
    consumeRecoveryCode cfg userId code

/-- The end of `activate` and `disable`: the change is written before the codes are deleted, the new
token version before the tokens are revoked, and the new codes at the commit. -/
def replaceCodes (userId : ℕ) (known user : User) (hashes : List String) : MfaTx Unit := do
  Tx.lift recoveryCodes (flush userId known user)
  let _ ← deleteAllForUser userId
  let now ← Tx.now
  Tx.lift recoveryCodes (flush userId user user.bumped)
  let _ ← Tx.lift recoveryCodes (RefreshTokenRepository.revokeAllForUser userId now)
  let _ ← addAll userId hashes
  Tx.commit

/-- `activate`, with the recovery codes that are drawn. -/
def activate (codes : List String) (userId : ℕ) (user : User) (code : String) :
    MfaTx (List String) :=
  if cfg.mfaEnabled = false then
    throw unavailable
  else if user.mfaEnabled then
    throw (.app ⟨"auth.mfa_already_enabled", "Two-factor authentication is already enabled", 409⟩
      false)
  else
    match pendingSecret cfg.toSecurity user with
    | none =>
        throw (.app ⟨"auth.mfa_not_enrolled",
          "Start enrollment before activating two-factor authentication", 409⟩ false)
    | some secret =>
        if cfg.verifyCode secret code = false then
          throw invalidCode
        else do
          replaceCodes userId user
            { user with mfaEnabled := true, mfaFailedAttempts := 0, mfaLockedUntil := none }
            (codes.map cfg.hashPassword)
          return codes

/-- `disable`. -/
def disable (userId : ℕ) (user : User) (code : String) : MfaTx Unit :=
  if cfg.mfaEnabled = false then
    throw unavailable
  else if user.mfaEnabled = false then
    throw (.app ⟨"auth.mfa_not_enabled", "Two-factor authentication is not enabled", 409⟩ false)
  else do
    if ← verifyFactor cfg userId user code then
      replaceCodes userId user
        { user with
          mfaEnabled := false
          mfaSecretEnc := none
          mfaFailedAttempts := 0
          mfaLockedUntil := none } []
    else
      throw invalidCode

/-- The end of `verify_challenge`: the flush of the counters and the commit. -/
def register (userId : ℕ) (known user : User) : MfaTx Unit := do
  Tx.lift recoveryCodes (flush userId known user)
  Tx.commit

/-- `verify_challenge` of a user that has been loaded. -/
def verifyLoaded (userId : ℕ) (user : User) (code : String) : MfaTx User := do
  let now ← Tx.now
  if user.mfaLockedUntil.any (now < ·) then
    throw (.app ⟨"auth.mfa_locked", "Too many incorrect codes. Try again later.", 429⟩ false)
  else if ← verifyFactor cfg userId user code then
    let verified := { user with mfaFailedAttempts := 0, mfaLockedUntil := none }
    register userId user verified
    return verified
  else
    register userId user (registerFailedAttempt cfg.toSecurity user now)
    throw invalidCode

/-- `verify_challenge`, for a challenge whose signature and expiry have been checked. -/
def verifyChallenge (challenge : AccessToken) (code : String) : MfaTx User :=
  if cfg.mfaEnabled = false then
    throw unavailable
  else if challenge.scope ≠ some "mfa" then
    throw invalidChallenge
  else do
    let found ← Tx.lift recoveryCodes (getUser challenge.sub)
    match found.filter fun user => user.isActive && user.mfaEnabled with
    | none => throw invalidChallenge
    | some user => verifyLoaded cfg challenge.sub user code

end Mfa

/-! ### Requests -/

/-- What a request answers with. -/
inductive MfaAnswer where
  | activated (recoveryCodes : List String)
  | disabled
  | verified (user : User)
  deriving DecidableEq, Repr

/-- A request of a client; `activate` with the recovery codes that will be drawn. -/
inductive MfaRequest where
  | activate (token : AccessToken) (code : String) (codes : List String)
  | disable (token : AccessToken) (code : String)
  | verify (challenge : AccessToken) (code : String)
  deriving DecidableEq, Repr

/-- The user a request is about. -/
def MfaRequest.userId : MfaRequest → ℕ
  | activate token _ _ => token.sub
  | disable token _ => token.sub
  | verify challenge _ => challenge.sub

/-- What a request runs: the guard loads the user in the session of the request. -/
def MfaRequest.body (cfg : Mfa.Settings) : MfaRequest → MfaTx MfaAnswer
  | activate token code codes => do
      let user ← Tx.lift recoveryCodes (getCurrentUser token)
      return .activated (← Mfa.activate cfg codes token.sub user code)
  | disable token code => do
      let user ← Tx.lift recoveryCodes (getCurrentUser token)
      Mfa.disable cfg token.sub user code
      return .disabled
  | verify challenge code => do return .verified (← Mfa.verifyChallenge cfg challenge code)

/-- The request in a session of its own. -/
def MfaRequest.run (cfg : Mfa.Settings) (r : MfaRequest) : MfaTx MfaAnswer :=
  Txn.Tx.withSession (r.body cfg)

end Accounts
