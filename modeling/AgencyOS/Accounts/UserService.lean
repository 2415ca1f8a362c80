import AgencyOS.Accounts.Model

/-!
The user service: role changes, deactivations and the owner check.

`UserService.update` changes the loaded user in the session.  The unit of work writes what has
changed at the commit, or before the owner check counts the owners, so `changeStatus` returns the
user as the unit of work last wrote it together with the user as it now stands.

* `UserUpdate`: the keys of a partial update;
* `validateActor`, `ensureOwnerSafety`: the guards;
* `UserService.update`, `UpdateCall`: the operation, and a call with its arguments.
-/

namespace Accounts

open Txn Automation

/-- The keys of a partial update.  A JSON null given for the role or the status is kept apart from a
missing key; `passwordHash` is the hash of a new password. -/
structure UserUpdate where
  role : Option (Option UserRole)
  fullName : Option FullName
  isActive : Option (Option Bool)
  passwordHash : Option String
  deriving DecidableEq, Repr

/-- The role that a validated update asks for. -/
def UserUpdate.newRole (data : UserUpdate) : Option UserRole := data.role.join

/-- The status that an update asks for; `bool(None)` is false. -/
def UserUpdate.newStatus (data : UserUpdate) : Option Bool := data.isActive.map (·.getD false)

/-- `count_active_role`. -/
def countActiveRole (organizationId : ℕ) (role : UserRole) : Tx ℕ := do
  let rows ← Tx.scan (S := accounts) (.activeRole organizationId role)
  return rows.length

/-- `get_or_404`; the actor is loaded in the session already. -/
def getOr404 (organizationId actorId : ℕ) (actor : User) (userId : ℕ) : Tx User := do
  let found ← if userId = actorId then pure (some actor) else getUser userId
  match found.filter (·.organizationId = organizationId) with
  | none => raise "user.not_found" "User not found" 404
  | some user => return user

namespace UserService

def appError (code message : String) (statusCode : ℕ) : Exn := .app ⟨code, message, statusCode⟩ false

def manageDenied : Exn :=
  appError "user.manage_denied" "You cannot manage members with an equal or higher role" 403

def lastOwner : Exn :=
  appError "user.last_owner" "The last active owner cannot be demoted or deactivated" 400

/-- `_validate_actor`, the part on the role; `UserRole(None)` raises. -/
def validateRole (isSelf : Bool) (actor target : UserRole) :
    Option (Option UserRole) → Except Exn Unit
  | none => .ok ()
  | some none => .error (.other "ValueError")
  | some (some newRole) =>
      if isSelf then
        .error (appError "user.self_role_change" "You cannot change your own role" 400)
      else if actor.canManage newRole = false then
        .error (appError "user.role_denied" "You cannot assign a role at or above your own" 403)
      else if actor.canManage target = false then
        .error manageDenied
      else
        .ok ()

/-- `_validate_actor`, the part on the status. -/
def validateStatus (isSelf : Bool) (actor target : UserRole) :
    Option (Option Bool) → Except Exn Unit
  | none => .ok ()
  | some _ =>
      if isSelf then
        .error (appError "user.self_status_change" "You cannot change your own account status" 400)
      else if actor.canManage target = false then
        .error manageDenied
      else
        .ok ()

/-- `_validate_actor`. -/
def validateActor (isSelf : Bool) (actor target : UserRole) (data : UserUpdate) :
    Except Exn Unit := do
  validateRole isSelf actor target data.role
  validateStatus isSelf actor target data.isActive

/-- `_ensure_owner_safety` of a user that the unit of work knows as `known` and that now stands as
`user`: what has changed is written before the owners are counted. -/
def ensureOwnerSafety (organizationId userId : ℕ) (known user : User) (newRole : Option UserRole)
    (activating : Option Bool) : Tx User :=
  if user.role ≠ .owner then
    return known
  else if (newRole.any (· ≠ .owner) || activating = some false) = false then
    return known
  else do
    flush userId known user
    let activeOwners ← countActiveRole organizationId .owner
    if activeOwners < 2 then
      throw lastOwner
    return user

/-- The role change of `update`. -/
def changeRole (organizationId userId : ℕ) (user : User) : Option UserRole → Tx User
  | none => return user
  | some newRole =>
      if newRole = user.role then
        return user
      else do
        let _ ← ensureOwnerSafety organizationId userId user user (some newRole) none
        return { user with role := newRole }

/-- The status change of `update`: the user as the unit of work knows it, and as it stands. -/
def changeStatus (organizationId userId : ℕ) (known user : User) : Option Bool → Tx (User × User)
  | none => return (known, user)
  | some isActive =>
      if isActive = user.isActive then
        return (known, user)
      else do
        let known ← ensureOwnerSafety organizationId userId known user none (some isActive)
        return (known, { user with isActive := isActive })

/-- The new password and the commit. -/
def finish (userId : ℕ) (data : UserUpdate) (known user : User) : Tx User := do
  let user := { user with passwordHash := data.passwordHash.or user.passwordHash }
  flush userId known user
  Tx.commit
  return user

/-- `update`. -/
def update (organizationId actorId : ℕ) (actor : User) (userId : ℕ) (data : UserUpdate) :
    Tx User := do
  let loaded ← getOr404 organizationId actorId actor userId
  match validateActor (userId = actorId) actor.role loaded.role data with
  | .error e => throw e
  | .ok () =>
      let user ← changeRole organizationId userId loaded data.newRole
      let user := { user with fullName := data.fullName.getD user.fullName }
      let state ← changeStatus organizationId userId loaded user data.newStatus
      finish userId data state.1 state.2

end UserService

/-- A call of `update`. -/
structure UpdateCall where
  organizationId : ℕ
  actorId : ℕ
  actor : User
  userId : ℕ
  data : UserUpdate

/-- The call in a session of its own. -/
def UpdateCall.run (x : UpdateCall) : Tx User :=
  Txn.Tx.withSession
    (UserService.update x.organizationId x.actorId x.actor x.userId x.data)

end Accounts
