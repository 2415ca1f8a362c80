import AgencyOS.Automation.Model

/-!
The rows of the account tables: users, refresh tokens and single-use account tokens.

A raw token is the id of its row: the digest that the services look rows up by is injective on the
tokens in use.  The family of a refresh token is named after the login token that started it.

* `UserRole`, `UserRole.canManage`: the roles and `role_can_manage`;
* `User`, `RefreshToken`, `AuthToken`: the rows;
* `User.flush`: the `UPDATE` by which the unit of work writes a changed user;
* `RefreshToken.revoke`, `RefreshToken.markReplaced`, ..: the guarded `UPDATE`s of tokens;
* `accounts`: the schema.
-/

namespace Accounts

open Txn Automation

/-! ### Roles -/

inductive UserRole where
  | owner | admin | manager | salesAgent | member | viewer
  deriving DecidableEq, Repr

/-- `ROLE_LEVELS`. -/
def UserRole.level : UserRole → ℕ
  | viewer => 0
  | member => 1
  | salesAgent => 1
  | manager => 2
  | admin => 3
  | owner => 4

/-- `role_can_manage`. -/
def UserRole.canManage (actor target : UserRole) : Bool :=
  if actor = .owner then true else decide (target.level < actor.level)

/-! ### Users -/

/-- A full name that the check constraint of the column admits: not blank. -/
abbrev FullName : Type := {s : String // s.toList.any (· ≠ ' ') = true}

structure User where
  organizationId : ℕ
  email : String
  fullName : FullName
  role : UserRole
  isActive : Bool
  passwordHash : Option String
  lastLoginAt : Option Time
  tokenVersion : ℕ
  failedLoginAttempts : ℕ
  lockedUntil : Option Time
  emailVerifiedAt : Option Time
  emailVerificationRequired : Bool
  mfaEnabled : Bool
  mfaSecretEnc : Option String
  mfaFailedAttempts : ℕ
  mfaLockedUntil : Option Time
  deriving DecidableEq, Repr

/-- A column as the unit of work writes it: set when it has changed since it was loaded. -/
def column {α : Type} [DecidableEq α] (loaded new row : α) : α := if new = loaded then row else new

@[simp] lemma column_self {α : Type} [DecidableEq α] (loaded row : α) :
    column loaded loaded row = row := if_pos rfl

/-- The flush of a user that was loaded as `loaded` and is now `new`: an `UPDATE` by key alone, of
the changed columns. -/
def User.flush (loaded new : User) : GuardedUpdate User where
  guard := fun _ => true
  set := fun r =>
    { organizationId := column loaded.organizationId new.organizationId r.organizationId
      email := column loaded.email new.email r.email
      fullName := column loaded.fullName new.fullName r.fullName
      role := column loaded.role new.role r.role
      isActive := column loaded.isActive new.isActive r.isActive
      passwordHash := column loaded.passwordHash new.passwordHash r.passwordHash
      lastLoginAt := column loaded.lastLoginAt new.lastLoginAt r.lastLoginAt
      tokenVersion := column loaded.tokenVersion new.tokenVersion r.tokenVersion
      failedLoginAttempts :=
        column loaded.failedLoginAttempts new.failedLoginAttempts r.failedLoginAttempts
      lockedUntil := column loaded.lockedUntil new.lockedUntil r.lockedUntil
      emailVerifiedAt := column loaded.emailVerifiedAt new.emailVerifiedAt r.emailVerifiedAt
      emailVerificationRequired := column loaded.emailVerificationRequired
        new.emailVerificationRequired r.emailVerificationRequired
      mfaEnabled := column loaded.mfaEnabled new.mfaEnabled r.mfaEnabled
      mfaSecretEnc := column loaded.mfaSecretEnc new.mfaSecretEnc r.mfaSecretEnc
      mfaFailedAttempts := column loaded.mfaFailedAttempts new.mfaFailedAttempts r.mfaFailedAttempts
      mfaLockedUntil := column loaded.mfaLockedUntil new.mfaLockedUntil r.mfaLockedUntil }

/-- A row still as it was loaded becomes the changed object. -/
lemma User.flush_set_self (loaded new : User) : (User.flush loaded new).set loaded = new := by
  have hcolumn : ∀ {α : Type} [DecidableEq α] (l n : α), column l n l = n := by
    intro α _ l n
    rw [column]
    split_ifs with h
    · exact h.symm
    · rfl
  simp only [flush, hcolumn]

/-- The email gate of login, refresh and the request guard. -/
def User.unverified (u : User) : Bool :=
  u.emailVerificationRequired && u.emailVerifiedAt.isNone

/-! ### Refresh tokens -/

/-- A refresh token; a login token starts a family of its own. -/
structure RefreshToken where
  userId : ℕ
  organizationId : ℕ
  familyId : Option ℕ
  expiresAt : Time
  revokedAt : Option Time
  replacedBy : Option ℕ
  deriving DecidableEq, Repr

namespace RefreshToken

/-- The family of token `n`. -/
def family (n : ℕ) (r : RefreshToken) : ℕ := r.familyId.getD n

/-- `mark_replaced`. -/
def markReplaced (replacedBy : ℕ) (now : Time) : GuardedUpdate RefreshToken where
  guard := fun r => r.revokedAt.isNone
  set := fun r => { r with revokedAt := some now, replacedBy := some replacedBy }

/-- `revoke`; also what `revoke_family` does to a row, whose family never changes. -/
def revoke (now : Time) : GuardedUpdate RefreshToken where
  guard := fun r => r.revokedAt.isNone
  set := fun r => { r with revokedAt := some now }

/-- The condition of `revoke_all_for_user`. -/
def outstanding (userId : ℕ) (now : Time) (r : RefreshToken) : Bool :=
  r.userId = userId && r.revokedAt.isNone && decide (now < r.expiresAt)

/-- What `revoke_all_for_user` does to a row. -/
def revokeOutstanding (userId : ℕ) (now : Time) : GuardedUpdate RefreshToken where
  guard := outstanding userId now
  set := fun r => { r with revokedAt := some now }

end RefreshToken

/-! ### Account tokens -/

inductive Purpose where
  | emailVerification | passwordReset
  deriving DecidableEq, Repr

/-- A single-use token delivered by email. -/
structure AuthToken where
  userId : ℕ
  purpose : Purpose
  expiresAt : Time
  usedAt : Option Time
  deriving DecidableEq, Repr

/-- `claim`. -/
def AuthToken.claim (purpose : Purpose) (now : Time) : GuardedUpdate AuthToken where
  guard := fun r => r.purpose = purpose && r.usedAt.isNone && decide (now < r.expiresAt)
  set := fun r => { r with usedAt := some now }

/-! ### The schema -/

inductive Table where
  | users | refreshTokens | authTokens
  deriving DecidableEq, Repr

@[reducible] def Row : Table → Type
  | .users => User
  | .refreshTokens => RefreshToken
  | .authTokens => AuthToken

inductive Update where
  | flush (loaded new : User)
  | markReplaced (replacedBy : ℕ) (now : Time)
  | revoke (now : Time)
  | revokeOutstanding (userId : ℕ) (now : Time)
  | claim (purpose : Purpose) (now : Time)
  deriving DecidableEq, Repr

@[reducible] def Update.target : Update → Table
  | flush .. => .users
  | markReplaced .. | revoke .. | revokeOutstanding .. => .refreshTokens
  | claim .. => .authTokens

def Update.act : (u : Update) → GuardedUpdate (Row u.target)
  | flush loaded new => User.flush loaded new
  | markReplaced replacedBy now => RefreshToken.markReplaced replacedBy now
  | revoke now => RefreshToken.revoke now
  | revokeOutstanding userId now => RefreshToken.revokeOutstanding userId now
  | claim purpose now => AuthToken.claim purpose now

/-- A refresh token about to be inserted. -/
structure NewToken where
  userId : ℕ
  organizationId : ℕ
  familyId : Option ℕ
  expiresAt : Time
  deriving DecidableEq, Repr

def NewToken.row (x : NewToken) : RefreshToken where
  userId := x.userId
  organizationId := x.organizationId
  familyId := x.familyId
  expiresAt := x.expiresAt
  revokedAt := none
  replacedBy := none

inductive Query where
  | activeRole (organizationId : ℕ) (role : UserRole)
  | activeByEmail (email : String)
  | outstanding (userId : ℕ) (now : Time)
  | family (familyId : ℕ)
  deriving DecidableEq, Repr

@[reducible] def Query.source : Query → Table
  | activeRole .. | activeByEmail _ => .users
  | outstanding .. | family _ => .refreshTokens

/-- The conditions of the bulk reads; that a login token is of the family is told by its id. -/
def Query.matching : (q : Query) → Row q.source → Bool
  | activeRole organizationId role => fun r : User =>
      r.organizationId = organizationId && r.role = role && r.isActive
  | activeByEmail email => fun r : User => r.email = email && r.isActive
  | outstanding userId now => RefreshToken.outstanding userId now
  | family familyId => fun r : RefreshToken =>
      r.revokedAt.isNone && (r.familyId.isNone || r.familyId = some familyId)

/-- The account tables. -/
@[reducible] def accounts : Schema where
  Table := Table
  Row := Row
  Update := Update
  target := Update.target
  act := Update.act
  Insert := NewToken
  into := fun _ => .refreshTokens
  new := NewToken.row
  Query := Query
  source := Query.source
  matching := Query.matching

/-- A program on the account tables. -/
abbrev Tx (α : Type) : Type := Txn.Tx accounts Exn α

abbrev Database (ι : Type) : Type := Db accounts ι

abbrev Happened (ι : Type) : Type := Event (sql accounts) ι (Database ι)

abbrev Sessions (ι α : Type) : Type := Pool (sql accounts) ι (Database ι) Exn α

abbrev postgres (ι : Type) [DecidableEq ι] : Server (sql accounts) ι (Database ι) :=
  server accounts ι

def raise {α : Type} (code message : String) (statusCode : ℕ) : Tx α :=
  throw (.app ⟨code, message, statusCode⟩ false)

/-! ### Users in a session -/

/-- `session.get(User, id)` of a user not loaded before. -/
def getUser (userId : ℕ) : Tx (Option User) := Tx.select (S := accounts) Table.users userId

/-- The flush of a user: nothing is emitted for an unchanged one, and an `UPDATE` that meets no row
raises. -/
def flush (userId : ℕ) (loaded new : User) : Tx Unit :=
  if new = loaded then
    return
  else do
    match ← Tx.update (S := accounts) (.flush loaded new) userId with
    | none => throw (.other "StaleDataError")
    | some _ => return

/-- A flush issues one `UPDATE` at most, and none for an unchanged user. -/
lemma issues_flush {φ : Sql accounts → Prop} {userId : ℕ} {known user : User}
    (hφ : user ≠ known → φ (.update (.flush known user) userId)) :
    (flush userId known user).Issues φ := by
  unfold flush
  split_ifs with h
  · trivial
  · refine ⟨hφ h, fun r => ?_⟩
    cases r <;> trivial

end Accounts
