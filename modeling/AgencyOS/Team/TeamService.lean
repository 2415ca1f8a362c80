import AgencyOS.Accounts.Model
import AgencyOS.Txn.UniqueIndex

/-!
The invites of a team, and the service that creates, revokes, expires and accepts them.

An invite is delivered as a raw token, of which the table holds the digest.  What a call changes of an
invite it has loaded is flushed by an `UPDATE` by key alone.

* `TeamInvite`, `TeamInvite.flush`: the rows, and the `UPDATE` of a changed one;
* `team`, `teamKey`, `postgres`: the tables of users and invites, their unique indexes and the server;
* `createInvite`, `listInvites`, `revokeInvite`, `lookupInvite`, `acceptInvite`: the service.
-/

namespace Team

open Txn Accounts

abbrev Time : Type := Automation.Time

/-! ### Rows -/

inductive InviteStatus where
  | pending | accepted | revoked | expired
  deriving DecidableEq, Repr

structure TeamInvite where
  organizationId : ℕ
  email : String
  fullName : Option String
  role : UserRole
  tokenHash : String
  invitedByUserId : Option ℕ
  status : InviteStatus
  expiresAt : Time
  acceptedAt : Option Time
  acceptedUserId : Option ℕ
  revokedAt : Option Time
  deriving DecidableEq, Repr

/-- The flush of an invite that was loaded as `loaded` and is now `new`. -/
def TeamInvite.flush (loaded new : TeamInvite) : GuardedUpdate TeamInvite where
  guard := fun _ => true
  set := fun r =>
    { organizationId := column loaded.organizationId new.organizationId r.organizationId
      email := column loaded.email new.email r.email
      fullName := column loaded.fullName new.fullName r.fullName
      role := column loaded.role new.role r.role
      tokenHash := column loaded.tokenHash new.tokenHash r.tokenHash
      invitedByUserId := column loaded.invitedByUserId new.invitedByUserId r.invitedByUserId
      status := column loaded.status new.status r.status
      expiresAt := column loaded.expiresAt new.expiresAt r.expiresAt
      acceptedAt := column loaded.acceptedAt new.acceptedAt r.acceptedAt
      acceptedUserId := column loaded.acceptedUserId new.acceptedUserId r.acceptedUserId
      revokedAt := column loaded.revokedAt new.revokedAt r.revokedAt }

/-- An invite about to be inserted. -/
structure NewInvite where
  organizationId : ℕ
  email : String
  fullName : Option String
  role : UserRole
  tokenHash : String
  invitedByUserId : ℕ
  expiresAt : Time
  deriving DecidableEq, Repr

def NewInvite.row (x : NewInvite) : TeamInvite where
  organizationId := x.organizationId
  email := x.email
  fullName := x.fullName
  role := x.role
  tokenHash := x.tokenHash
  invitedByUserId := some x.invitedByUserId
  status := .pending
  expiresAt := x.expiresAt
  acceptedAt := none
  acceptedUserId := none
  revokedAt := none

/-- A user about to be inserted. -/
structure NewUser where
  organizationId : ℕ
  email : String
  fullName : FullName
  role : UserRole
  passwordHash : String
  deriving DecidableEq, Repr

/-- The row of a new user, with the defaults of the columns that are not given. -/
def NewUser.row (x : NewUser) : User where
  organizationId := x.organizationId
  email := x.email
  fullName := x.fullName
  role := x.role
  isActive := true
  passwordHash := some x.passwordHash
  lastLoginAt := none
  tokenVersion := 0
  failedLoginAttempts := 0
  lockedUntil := none
  emailVerifiedAt := none
  emailVerificationRequired := false
  mfaEnabled := false
  mfaSecretEnc := none
  mfaFailedAttempts := 0
  mfaLockedUntil := none

/-! ### The schema -/

inductive Table where
  | users | teamInvites
  deriving DecidableEq, Repr

@[reducible] def Row : Table → Type
  | .users => User
  | .teamInvites => TeamInvite

/-- `UPDATE`s: no call of the service changes a user. -/
inductive Update where
  | flush (loaded new : TeamInvite)
  deriving DecidableEq, Repr

inductive Insert where
  | user (x : NewUser)
  | invite (x : NewInvite)
  deriving DecidableEq, Repr

@[reducible] def Insert.into : Insert → Table
  | user _ => .users
  | invite _ => .teamInvites

def Insert.new : (x : Insert) → Row x.into
  | user x => x.row
  | invite x => x.row

inductive Query where
  | userByEmail (email : String)
  | byTokenHash (tokenHash : String)
  | pendingByEmail (organizationId : ℕ) (email : String)
  | stale (organizationId : ℕ) (now : Time)
  | ofOrganization (organizationId : ℕ)
  deriving DecidableEq, Repr

@[reducible] def Query.source : Query → Table
  | userByEmail _ => .users
  | _ => .teamInvites

/-- The conditions of the bulk reads. -/
def Query.matching : (q : Query) → Row q.source → Bool
  | userByEmail email => fun r : User => r.email = email
  | byTokenHash tokenHash => fun r : TeamInvite => r.tokenHash = tokenHash
  | pendingByEmail organizationId email => fun r : TeamInvite =>
      r.organizationId = organizationId && r.email = email && r.status = .pending
  | stale organizationId now => fun r : TeamInvite =>
      r.organizationId = organizationId && r.status = .pending && decide (r.expiresAt ≤ now)
  | ofOrganization organizationId => fun r : TeamInvite => r.organizationId = organizationId

/-- The tables of users and invites. -/
@[reducible] def team : Schema where
  Table := Table
  Row := Row
  Update := Update
  target := fun _ => .teamInvites
  act := fun | .flush loaded new => TeamInvite.flush loaded new
  Insert := Insert
  into := Insert.into
  new := Insert.new
  Query := Query
  source := Query.source
  matching := Query.matching

/-- `uq_users_email` and the unique digests of tokens. -/
def teamKey : Index team String
  | .users, r => some (User.email r)
  | .teamInvites, r => some (TeamInvite.tokenHash r)

abbrev Database (ι : Type) : Type := Db team ι

abbrev postgres (ι : Type) [DecidableEq ι] : Server (indexedSql team) ι (Database ι) :=
  indexedServer teamKey ι

/-! ### Statements -/

inductive TeamError where
  | app (error : Automation.AppError)
  | integrityError
  | multipleResultsFound
  | staleDataError
  deriving DecidableEq, Repr

/-- A program on the team tables. -/
abbrev TeamTx (α : Type) : Type := Prog (indexedSql team) TeamError α

abbrev Happened (ι : Type) : Type := Event (indexedSql team) ι (Database ι)

abbrev Sessions (ι α : Type) : Type := Pool (indexedSql team) ι (Database ι) TeamError α

/-- One statement; a refused one raises `IntegrityError`. -/
def execute (q : Sql team) : TeamTx q.Resp := executeOr .integrityError q

def raise {α : Type} (code message : String) (statusCode : ℕ) : TeamTx α :=
  .raise (.app ⟨code, message, statusCode⟩)

def utcnow : TeamTx Time := execute .now

def commitWithRetry : TeamTx Unit := execute .commit

/-- The flush of an invite: nothing is emitted for an unchanged one, and an `UPDATE` that meets no row
raises. -/
def flush (inviteId : ℕ) (loaded new : TeamInvite) : TeamTx Unit :=
  if new = loaded then
    return
  else do
    match ← execute (.update (Update.flush loaded new) inviteId) with
    | none => .raise .staleDataError
    | some _ => return

/-- `scalar_one_or_none`. -/
def scalarOneOrNone {ρ : Type} : List (ℕ × ρ) → TeamTx (Option (ℕ × ρ))
  | [] => return none
  | [row] => return some row
  | _ => .raise .multipleResultsFound

/-! ### Repositories -/

/-- What the service takes from elsewhere: how Python and the database spell a string, the digest of
a token and the hash of a password. -/
structure Env where
  strip : String → String
  lower : String → String
  normalized : String → String
  sha256 : String → String
  hashPassword : String → String

section Repositories

variable (env : Env)

/-- `get_by_email`; `normalized` is what `app_get_user_by_email` makes of its argument. -/
def getByEmail (email : String) : TeamTx (Option (ℕ × User)) := do
  scalarOneOrNone (← execute (.scan (.userByEmail (env.normalized (env.lower email)))))

/-- `get_by_org`. -/
def getByOrg (organizationId inviteId : ℕ) : TeamTx (Option TeamInvite) := do
  let invite ← execute (.select Table.teamInvites inviteId)
  return Option.filter (fun r : TeamInvite => r.organizationId = organizationId) invite

/-- `get_by_token_hash`. -/
def getByTokenHash (tokenHash : String) : TeamTx (Option (ℕ × TeamInvite)) := do
  scalarOneOrNone (← execute (.scan (.byTokenHash tokenHash)))

/-- `get_pending_by_email`. -/
def getPendingByEmail (organizationId : ℕ) (email : String) :
    TeamTx (Option (ℕ × TeamInvite)) := do
  scalarOneOrNone (← execute (.scan (.pendingByEmail organizationId email)))

/-- `expire_stale`, with the flush of what it has changed. -/
def expireStale (organizationId : ℕ) (now : Time) : TeamTx ℕ := do
  let invites ← execute (.scan (.stale organizationId now))
  Prog.tally invites fun (inviteId, invite) => do
    flush inviteId invite { invite with status := .expired }
    return 1

/-- The insertion of a user: the check of the full name comes before the index. -/
def addUser (organizationId : ℕ) (email fullName : String) (role : UserRole)
    (passwordHash : String) : TeamTx ℕ :=
  if h : fullName.toList.any (· ≠ ' ') = true then
    execute (.insert (Insert.user ⟨organizationId, email, ⟨fullName, h⟩, role, passwordHash⟩))
  else .raise .integrityError

/-! ### The service -/

def inviteTtlDays : ℕ := 7

/-- `role_can_invite`. -/
def roleCanInvite (actor role : UserRole) : Bool := decide (role ≠ .owner) && actor.canManage role

/-- `create_invite`, with the raw token that it draws. -/
def createInvite (organizationId actorId : ℕ) (actorRole : UserRole) (email : String)
    (fullName : Option String) (role : UserRole) (rawToken : String) : TeamTx (ℕ × String) := do
  let email := env.lower (env.strip email)
  if roleCanInvite actorRole role = false then
    raise "team.invite_role_denied" "You cannot invite a member with that role" 403
  else match ← getByEmail env email with
  | some _ => raise "team.user_exists" "A user with that email already exists" 409
  | none =>
      match ← getPendingByEmail organizationId email with
      | some _ => raise "team.invite_exists" "A pending invite for that email already exists" 409
      | none =>
          let now ← utcnow
          let insertion : TeamTx ℕ := do
            let inviteId ← execute (.insert (Insert.invite
              { organizationId := organizationId
                email := email
                fullName := fullName
                role := role
                tokenHash := env.sha256 rawToken
                invitedByUserId := actorId
                expiresAt := now + inviteTtlDays * (86400 * Automation.second) }))
            commitWithRetry
            return inviteId
          let inviteId ← insertion.tryCatch fun
            | .integrityError => do
                execute .rollback
                raise "team.invite_failed" "Could not create the invite" 409
            | e => .raise e
          return (inviteId, rawToken)

/-- `list_invites`; the rows are not put into an order and cut into pages. -/
def listInvites (organizationId : ℕ) : TeamTx (List (ℕ × TeamInvite)) := do
  let now ← utcnow
  let _ ← expireStale organizationId now
  commitWithRetry
  execute (.scan (.ofOrganization organizationId))

/-- `revoke_invite`. -/
def revokeInvite (organizationId inviteId : ℕ) : TeamTx TeamInvite := do
  match ← getByOrg organizationId inviteId with
  | none => raise "team.invite_not_found" "Invite not found" 404
  | some invite =>
      if invite.status ≠ .pending then
        raise "team.invite_not_pending" "Only pending invites can be revoked" 400
      else
        let now ← utcnow
        let revoked := { invite with status := .revoked, revokedAt := some now }
        flush inviteId invite revoked
        commitWithRetry
        return revoked

/-- `lookup_invite`. -/
def lookupInvite (token : String) : TeamTx (ℕ × TeamInvite) := do
  match ← getByTokenHash (env.sha256 token) with
  | none => raise "team.invite_invalid" "Invite not found" 404
  | some (inviteId, invite) =>
      if invite.status ≠ .pending then
        raise "team.invite_invalid" "This invite has already been used or revoked" 404
      else
        let now ← utcnow
        if invite.expiresAt ≤ now then
          flush inviteId invite { invite with status := .expired }
          commitWithRetry
          raise "team.invite_expired" "This invite has expired" 404
        else return (inviteId, invite)

/-- The answer of `accept_invite` when the email of the invite is taken. -/
def userExists {α : Type} : TeamTx α :=
  raise "team.user_exists" "A user with that email already exists" 409

/-- `accept_invite`. -/
def acceptInvite (token fullName password : String) : TeamTx TeamInvite := do
  let (inviteId, invite) ← lookupInvite env token
  match ← getByEmail env invite.email with
  | some _ =>
      flush inviteId invite { invite with status := .revoked }
      commitWithRetry
      userExists
  | none =>
      let insertion := addUser invite.organizationId invite.email fullName invite.role
        (env.hashPassword password)
      let userId ← insertion.tryCatch fun
        | .integrityError => do
            execute .rollback
            userExists
        | e => .raise e
      let now ← utcnow
      let accepted :=
        { invite with status := .accepted, acceptedAt := some now, acceptedUserId := some userId }
      flush inviteId invite accepted
      commitWithRetry
      return accepted

end Repositories

/-! ### Calls -/

/-- A call in a session of its own: what is left uncommitted when it ends is rolled back. -/
def inSession {α : Type} (p : TeamTx α) : TeamTx α :=
  (p.bind fun a => (execute .rollback).bind fun _ => .ret a).tryCatch fun e =>
    (execute .rollback).bind fun _ => .raise e

/-- The calls of the service that read or write invites. -/
inductive Call where
  | create (organizationId actorId : ℕ) (actorRole : UserRole) (email : String)
      (fullName : Option String) (role : UserRole) (rawToken : String)
  | list (organizationId : ℕ)
  | revoke (organizationId inviteId : ℕ)
  | lookup (token : String)
  | accept (token fullName password : String)
  deriving DecidableEq, Repr

/-- A call, whatever it answers with. -/
def Call.run (env : Env) : Call → TeamTx Unit
  | create organizationId actorId actorRole email fullName role rawToken =>
      inSession ((createInvite env organizationId actorId actorRole email fullName role rawToken).bind
        fun _ => .ret ())
  | list organizationId => inSession ((listInvites organizationId).bind fun _ => .ret ())
  | revoke organizationId inviteId =>
      inSession ((revokeInvite organizationId inviteId).bind fun _ => .ret ())
  | lookup token => inSession ((lookupInvite env token).bind fun _ => .ret ())
  | accept token fullName password =>
      inSession ((acceptInvite env token fullName password).bind fun _ => .ret ())

end Team
