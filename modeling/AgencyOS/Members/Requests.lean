import AgencyOS.Accounts.AccountSecurity
import AgencyOS.Accounts.UserService
import AgencyOS.Brain.Model
import AgencyOS.Team.TeamService
import AgencyOS.Txn.Charter

/-!
The members of organizations: who comes in, with which role, and who may change it.

The tables of accounts are extended by organizations and invites.  Every request is a session of its own
on all of them: registrations, the management of users, invites, and the requests of account sessions.

* `permissionMatrix`, `hasPermission`: who may do what;
* `memberTables`, `members`, `memberKey`: the further tables, the schema and its unique indexes;
* `ofAccounts`, `ofSecurity`, `ofTeam`: programs on a part of the tables, on all of them;
* `register`, `createUser`, `updateUser`, `inviteMember`, ..: the endpoints that bring in members or
  change them;
* `Request`: the requests of clients, each in a session of its own.
-/

namespace Members

open Txn Accounts
open Brain (Permission)

abbrev Exn : Type := Automation.Exn

/-! ### Permissions -/

/-- `_ADMIN_ONLY`, `_MANAGE`, `_WRITE` and `_READ`. -/
def adminOnly : List UserRole := [.owner, .admin]
def manage : List UserRole := [.owner, .admin, .manager]
def write : List UserRole := [.owner, .admin, .manager, .member, .salesAgent]
def read : List UserRole := [.owner, .admin, .manager, .member, .salesAgent, .viewer]

/-- `PERMISSION_MATRIX`. -/
def permissionMatrix : Permission → List UserRole
  | .leadRead | .taskRead | .noteRead | .search | .workflowRead | .executionRead | .automationRead
  | .credentialRead | .memoryRead | .approvalRead | .notificationRead | .agentRead | .deliveryRead
  | .founderRead | .intelligenceRead => read
  | .leadWrite | .taskWrite | .noteWrite | .workflowWrite | .executionWrite | .automationWrite
  | .credentialWrite | .notificationWrite | .deliveryWrite | .aiRun => write
  | .leadDelete | .leadAssign | .aiManage | .taskManage | .«export» | .analyticsRead | .workflowManage
  | .memoryWrite | .approvalManage | .growthRead | .founderManage => manage
  | .pipelineManage | .teamManage | .inviteManage | .auditRead | .executionManage | .automationManage
  | .automationControl | .credentialManage | .credentialDelete | .growthManage | .agentManage
  | .deliveryManage => adminOnly

/-- `has_permission`. -/
def hasPermission (role : UserRole) (permission : Permission) : Bool := role ∈ permissionMatrix permission

/-! ### The schema -/

structure Organization where
  name : String
  slug : String
  deriving DecidableEq, Repr

inductive MemberTable where
  | organizations | teamInvites
  deriving DecidableEq, Repr

@[reducible] def MemberRow : MemberTable → Type
  | .organizations => Organization
  | .teamInvites => Team.TeamInvite

inductive MemberInsert where
  | organization (x : Organization)
  | user (x : User)
  | invite (x : Team.NewInvite)
  deriving DecidableEq, Repr

@[reducible] def MemberInsert.into : MemberInsert → Table ⊕ MemberTable
  | organization _ => .inr .organizations
  | user _ => .inl .users
  | invite _ => .inr .teamInvites

def MemberInsert.new : (x : MemberInsert) → Sum.elim Row MemberRow x.into
  | organization x => x
  | user x => x
  | invite x => x.row

inductive MemberQuery where
  | userByEmail (email : String)
  | byTokenHash (tokenHash : String)
  | pendingByEmail (organizationId : ℕ) (email : String)
  | stale (organizationId : ℕ) (now : Team.Time)
  | ofOrganization (organizationId : ℕ)
  | bySlug (slug : String)
  deriving DecidableEq, Repr

@[reducible] def MemberQuery.source : MemberQuery → Table ⊕ MemberTable
  | userByEmail _ => .inl .users
  | byTokenHash _ | pendingByEmail .. | stale .. | ofOrganization _ => .inr .teamInvites
  | bySlug _ => .inr .organizations

/-- The conditions of the bulk reads. -/
def MemberQuery.matching : (q : MemberQuery) → Sum.elim Row MemberRow q.source → Bool
  | userByEmail email => (Team.Query.userByEmail email).matching
  | byTokenHash tokenHash => (Team.Query.byTokenHash tokenHash).matching
  | pendingByEmail organizationId email => (Team.Query.pendingByEmail organizationId email).matching
  | stale organizationId now => (Team.Query.stale organizationId now).matching
  | ofOrganization organizationId => (Team.Query.ofOrganization organizationId).matching
  | bySlug slug => fun r : Organization => r.slug = slug

/-- Organizations and invites, and the statements that bring in users. -/
def memberTables : Extension accountSecurity where
  Table := MemberTable
  Row := MemberRow
  Update := Team.Update
  target := fun _ => .inr .teamInvites
  act := fun | .flush loaded new => Team.TeamInvite.flush loaded new
  Insert := MemberInsert
  into := MemberInsert.into
  new := MemberInsert.new
  Query := MemberQuery
  source := MemberQuery.source
  matching := MemberQuery.matching

/-- All tables. -/
@[reducible] def members : Schema := accountSecurity.extend memberTables

abbrev users : members.Table := .inl .users

abbrev organizations : members.Table := .inr .organizations

abbrev teamInvites : members.Table := .inr .teamInvites

instance : DecidableEq members.Table :=
  inferInstanceAs (DecidableEq (Accounts.Table ⊕ MemberTable))

/-- `uq_users_email`, `uq_organizations_slug` and the unique digests of invite tokens. -/
def memberKey : Index members String
  | .inl .users, r => some (User.email r)
  | .inr .organizations, r => some (Organization.slug r)
  | .inr .teamInvites, r => some (Team.TeamInvite.tokenHash r)
  | _, _ => none

abbrev Database (ι : Type) : Type := Db members ι

abbrev postgres (ι : Type) [DecidableEq ι] : Server (indexedSql members) ι (Database ι) :=
  indexedServer memberKey ι

/-! ### Programs on a part of the tables -/

/-- A program on all tables. -/
abbrev MembersTx (α : Type) : Type := Prog (indexedSql members) Exn α

def integrityError : Exn := .other "IntegrityError"

/-- One statement; a refused one raises `IntegrityError`. -/
def execute (q : Sql members) : MembersTx q.Resp := executeOr integrityError q

def raise {α : Type} (code message : String) (statusCode : ℕ) : MembersTx α :=
  .raise (.app ⟨code, message, statusCode⟩ false)

def ofSecurity {α : Type} (p : SecurityTx α) : MembersTx α :=
  Tx.raising integrityError (Tx.lift memberTables p)

def ofAccounts {α : Type} (p : Accounts.Tx α) : MembersTx α := ofSecurity (embed p)

/-- A statement on the team tables. -/
def teamStmt : Sql Team.team → Sql members
  | .select .users n => .select users n
  | .select .teamInvites n => .select teamInvites n
  | .scan (.userByEmail email) => .scan (.inr (.userByEmail email))
  | .scan (.byTokenHash tokenHash) => .scan (.inr (.byTokenHash tokenHash))
  | .scan (.pendingByEmail organizationId email) => .scan (.inr (.pendingByEmail organizationId email))
  | .scan (.stale organizationId now) => .scan (.inr (.stale organizationId now))
  | .scan (.ofOrganization organizationId) => .scan (.inr (.ofOrganization organizationId))
  | .update u n => .update (.inr u) n
  | .insert (.user x) => .insert (.inr (.user x.row))
  | .insert (.invite x) => .insert (.inr (.invite x))
  | .now => .now
  | .commit => .commit
  | .rollback => .rollback

/-- The answer to a statement on the team tables. -/
def teamAnswer : (q : Sql Team.team) → Except Violation (teamStmt q).Resp → Except Violation q.Resp
  | .select .users _, a => a
  | .select .teamInvites _, a => a
  | .scan (.userByEmail _), a => a
  | .scan (.byTokenHash _), a => a
  | .scan (.pendingByEmail ..), a => a
  | .scan (.stale ..), a => a
  | .scan (.ofOrganization _), a => a
  | .update _ _, a => a
  | .insert (.user _), a => a
  | .insert (.invite _), a => a
  | .now, a => a
  | .commit, a => a
  | .rollback, a => a

def teamError : Team.TeamError → Exn
  | .app error => .app error false
  | .integrityError => integrityError
  | .multipleResultsFound => .other "MultipleResultsFound"
  | .staleDataError => .other "StaleDataError"

def ofTeam {α : Type} (p : Team.TeamTx α) : MembersTx α :=
  (@Prog.translate (indexedSql Team.team) (indexedSql members) _ _ teamStmt teamAnswer p).mapError
    teamError

/-! ### Endpoints -/

/-- What the services are configured with and call. -/
structure Deployment where
  security : Security
  tokens : TokenSettings
  env : Team.Env
  emailVerificationEnabled : Bool

section Endpoints

variable (d : Deployment)

/-- `get_by_email`. -/
def getByEmail (email : String) : MembersTx (Option (ℕ × User)) :=
  ofTeam (Team.getByEmail d.env email)

/-- `get_by_slug`; the index leaves one organization at most. -/
def getBySlug (slug : String) : MembersTx (Option (ℕ × Organization)) := do
  let rows ← execute (.scan (.inr (.bySlug slug)))
  match (rows : List (ℕ × Organization)) with
  | [] => return none
  | [row] => return some row
  | _ => .raise (.other "MultipleResultsFound")

/-- A new row of `users`, with the defaults of the columns that are not given. -/
def newUser (organizationId : ℕ) (email : String) (fullName : FullName) (role : UserRole)
    (isActive : Bool) (passwordHash : Option String) : User where
  organizationId := organizationId
  email := email
  fullName := fullName
  role := role
  isActive := isActive
  passwordHash := passwordHash
  lastLoginAt := none
  tokenVersion := 0
  failedLoginAttempts := 0
  lockedUntil := none
  emailVerifiedAt := none
  emailVerificationRequired := false
  mfaEnabled := false
  mfaSecretEnc := none
  mfaFailedAttempts := 0
  mfaLockedUntil := none

/-- The insertion of a user: the check of the full name comes before the index. -/
def addUser (organizationId : ℕ) (email fullName : String) (role : UserRole) (isActive : Bool)
    (passwordHash : Option String) : MembersTx (ℕ × User) :=
  if h : fullName.toList.any (· ≠ ' ') = true then do
    let user := newUser organizationId email ⟨fullName, h⟩ role isActive passwordHash
    let userId ← execute (.insert (.inr (.user user)))
    return (userId, user)
  else .raise integrityError

/-- The insertion of an organization: the check of the name comes before the index. -/
def addOrganization (x : Organization) : MembersTx ℕ :=
  if x.name.toList.any (· ≠ ' ') = true then execute (.insert (.inr (.organization x)))
  else .raise integrityError

/-- `except IntegrityError`: the session is rolled back before the handler goes on. -/
def orRollback {α : Type} (p : MembersTx α) (handler : MembersTx α) : MembersTx α :=
  p.tryCatch fun e =>
    if e = integrityError then (execute .rollback).bind fun _ => handler else .raise e

def emailTaken {α : Type} : MembersTx α :=
  raise "user.email_taken" "A user with that email already exists" 409

def slugTaken {α : Type} : MembersTx α :=
  raise "organization.slug_taken" "An organization with that slug already exists" 409

/-- `_resolve_register_conflict`. -/
def resolveRegisterConflict {α : Type} (email slug : String) : MembersTx α := do
  match ← getByEmail d email with
  | some _ => emailTaken
  | none =>
      match ← getBySlug slug with
      | some _ => slugTaken
      | none => raise "auth.register_failed" "Could not create the account" 409

structure RegisterRequest where
  email : String
  password : String
  fullName : String
  organizationName : String
  organizationSlug : String
  deriving DecidableEq, Repr

/-- The tokens of a new account, in the transaction that creates it. -/
def finishRegistration (userId : ℕ) (user : User) : SecurityTx Unit := do
  let required := { user with emailVerificationRequired := d.emailVerificationEnabled }
  embed (flush userId user required)
  if d.emailVerificationEnabled then
    let _ ← AccountSecurityService.createToken d.tokens userId .emailVerification
  let response ← embed (AuthService.issueTokens d.security userId required required none)
  let _ ← embed (AuthService.respond userId response)
  return

/-- `AuthService.register`. -/
def register (payload : RegisterRequest) : MembersTx Unit := do
  let email := d.env.lower (d.env.strip payload.email)
  match ← getBySlug payload.organizationSlug with
  | some _ => slugTaken
  | none =>
      let organizationId ← addOrganization ⟨payload.organizationName, payload.organizationSlug⟩
      let (userId, user) ← orRollback
        (addUser organizationId email payload.fullName .owner true
          (some (d.env.hashPassword payload.password)))
        (resolveRegisterConflict d email payload.organizationSlug)
      ofSecurity (finishRegistration d userId user)

/-- `require_permission`. -/
def requirePermission (permission : Permission) (user : User) : MembersTx Unit :=
  if hasPermission user.role permission then return else .raise (.other "HTTPException")

/-- The guards of an endpoint: the user of the token, who must have the permission. -/
def currentUser (permission : Permission) (token : AccessToken) : MembersTx User := do
  let user ← ofAccounts (getCurrentUser token)
  requirePermission permission user
  return user

/-- What a user is created with; the endpoint sends neither a status nor a password. -/
structure UserCreate where
  email : String
  fullName : String
  role : Option UserRole
  isActive : Option Bool
  password : Option String
  deriving DecidableEq, Repr

/-- `UserService.create`. -/
def UserService.create (organizationId : ℕ) (actor : User) (data : UserCreate) : MembersTx Unit := do
  let email := d.env.lower (d.env.strip data.email)
  match ← getByEmail d email with
  | some _ => emailTaken
  | none =>
      let role := data.role.getD .member
      if actor.role.canManage role = false then
        raise "user.role_denied" "You cannot create a member with that role" 403
      else
        let passwordHash := (data.password.filter (· ≠ "")).map d.env.hashPassword
        let _ ← orRollback
          (addUser organizationId email data.fullName role (data.isActive.getD true) passwordHash)
          emailTaken
        execute .commit

def createUser (token : AccessToken) (data : UserCreate) : MembersTx Unit := do
  let actor ← currentUser .teamManage token
  UserService.create d actor.organizationId actor data

def updateUser (token : AccessToken) (userId : ℕ) (data : UserUpdate) : MembersTx Unit := do
  let actor ← currentUser .teamManage token
  let _ ← ofAccounts (Accounts.UserService.update actor.organizationId token.sub actor userId data)
  return

def inviteMember (token : AccessToken) (email : String) (fullName : Option String) (role : UserRole)
    (rawToken : String) : MembersTx Unit := do
  let actor ← currentUser .inviteManage token
  let _ ← ofTeam (Team.createInvite d.env actor.organizationId token.sub actor.role email fullName role
    rawToken)
  return

def listInvites (token : AccessToken) : MembersTx Unit := do
  let actor ← currentUser .inviteManage token
  let _ ← ofTeam (Team.listInvites actor.organizationId)
  return

def revokeInvite (token : AccessToken) (inviteId : ℕ) : MembersTx Unit := do
  let actor ← currentUser .inviteManage token
  let _ ← ofTeam (Team.revokeInvite actor.organizationId inviteId)
  return

/-- `lookup_invite`, with `organization_name`. -/
def lookupInvite (rawToken : String) : MembersTx (Option String) := do
  let (_, invite) ← ofTeam (Team.lookupInvite d.env rawToken)
  let organization ← execute (.select organizations invite.organizationId)
  return Option.map Organization.name organization

end Endpoints

/-! ### Requests -/

/-- A request of a client. -/
inductive Request where
  | account (r : SecurityRequest)
  | register (payload : RegisterRequest)
  | createUser (token : AccessToken) (data : UserCreate)
  | updateUser (token : AccessToken) (userId : ℕ) (data : UserUpdate)
  | inviteMember (token : AccessToken) (email : String) (fullName : Option String) (role : UserRole)
      (rawToken : String)
  | listInvites (token : AccessToken)
  | revokeInvite (token : AccessToken) (inviteId : ℕ)
  | lookupInvite (rawToken : String)
  | acceptInvite (rawToken fullName password : String)
  deriving DecidableEq, Repr

/-- The user who manages members by a request. -/
def Request.actor : Request → Option ℕ
  | createUser token _ | updateUser token .. | inviteMember token .. => some token.sub
  | _ => none

/-- What a request runs. -/
def Request.body (d : Deployment) : Request → MembersTx Unit
  | account r => (ofSecurity (r.body d.security d.tokens)).bind fun _ => .ret ()
  | register payload => Members.register d payload
  | createUser token data => Members.createUser d token data
  | updateUser token userId data => Members.updateUser token userId data
  | inviteMember token email fullName role rawToken =>
      Members.inviteMember d token email fullName role rawToken
  | listInvites token => Members.listInvites token
  | revokeInvite token inviteId => Members.revokeInvite token inviteId
  | lookupInvite rawToken => (Members.lookupInvite d rawToken).bind fun _ => .ret ()
  | acceptInvite rawToken fullName password =>
      (ofTeam (Team.acceptInvite d.env rawToken fullName password)).bind fun _ => .ret ()

/-- A session: what is left uncommitted when its body ends is rolled back. -/
def inSession {α : Type} (p : MembersTx α) : MembersTx α :=
  (p.bind fun a => (execute .rollback).bind fun _ => .ret a).tryCatch fun e =>
    (execute .rollback).bind fun _ => .raise e

/-- The request in a session of its own. -/
def Request.run (d : Deployment) (r : Request) : MembersTx Unit := inSession (r.body d)

end Members
