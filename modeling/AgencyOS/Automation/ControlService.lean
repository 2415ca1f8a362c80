import AgencyOS.Automation.Model

/-!
The operator's controls: pausing and resuming automation.

The switch and the three settings that describe a pause are rows of `system_settings` under unique
keys.  A call works on them through a unit of work: an object that has been loaded is not refreshed by
a second read, and what has been changed is written by the next query or by the commit.  Each call
commits its settings in one transaction and its audit record in another.

* `Key`, `SystemSetting`, `ActivityLog`, `control`: the tables and their statements;
* `Session`, `get`, `setValue`, `delete`: the repository over the unit of work;
* `getStatus`, `pause`, `resume`: the service;
* `Operation`: a call in a session of its own.
-/

namespace Automation.Control

open Txn

/-! ### Tables -/

/-- The keys of the settings. -/
inductive Key where
  | enabled | pausedBy | pausedAt | pausedReason
  deriving DecidableEq, Repr

/-- The place of a key in the unique index. -/
def Key.slot : Key → ℕ
  | enabled => 0
  | pausedBy => 1
  | pausedAt => 2
  | pausedReason => 3

/-- The entries of a JSON object `value` that the service reads. -/
structure Value where
  enabled : Option Bool := none
  userId : Option ℕ := none
  timestamp : Option Time := none
  reason : Option String := none
  deriving DecidableEq, Repr

/-- A row of `system_settings`, under its key. -/
structure SystemSetting where
  id : ℕ
  value : Value
  updatedByUserId : Option ℕ
  deriving DecidableEq, Repr

inductive ActivityEventType where
  | automationPaused | automationResumed
  deriving DecidableEq, Repr

/-- The metadata of an audit record. -/
structure Metadata where
  before : Bool
  after : Bool
  reason : Option String
  deriving DecidableEq, Repr

/-- A row of `activity_logs`. -/
structure ActivityLog where
  organizationId : ℕ
  userId : ℕ
  eventType : ActivityEventType
  entityType : String
  entityId : Option ℕ
  description : String
  metadata : Metadata
  deriving DecidableEq, Repr

inductive Table where
  | systemSetting | activityLog
  deriving DecidableEq, Repr

/-- Under a key of `system_settings` there is a row or none. -/
@[reducible] def Row : Table → Type
  | .systemSetting => Option SystemSetting
  | .activityLog => ActivityLog

/-- The statements that write under a key: an `INSERT`, and an `UPDATE` and a `DELETE` by id. -/
inductive Write where
  | insert (x : SystemSetting)
  | update (x : SystemSetting)
  | delete (id : ℕ)
  deriving DecidableEq, Repr

/-- The row that the statement leaves. -/
def Write.result : Write → Option SystemSetting
  | insert x => some x
  | update x => some x
  | delete _ => none

/-- The row that the statement finds: none by the unique index, or the one with the id. -/
def Write.finds : Write → Option SystemSetting → Bool
  | insert _, row => row.isNone
  | update x, row => row.any fun r => r.id = x.id
  | delete id, row => row.any fun r => r.id = id

/-- What the unit of work raises when the statement finds no such row; a `DELETE` only warns. -/
def Write.unmatched : Write → Option Exn
  | insert _ => some (.other "IntegrityError")
  | update _ => some (.other "StaleDataError")
  | delete _ => none

/-- The settings and the audit trail. -/
@[reducible] def control : Schema where
  Table := Table
  Row := Row
  Update := Write
  target := fun _ => .systemSetting
  act := fun w => ⟨w.finds, fun _ => w.result⟩
  Insert := ActivityLog
  into := fun _ => .activityLog
  new := fun x => x
  Query := Empty
  source := Empty.elim
  matching := fun q => q.elim

abbrev ControlTx (α : Type) : Type := Txn.Tx control Exn α

abbrev ControlStore (ι : Type) : Type := Db control ι

/-! ### Repository -/

/-- The unit of work: the objects loaded, as the call has left them, and the change that is not written
yet.  Every change follows a query, so there is never more than one. -/
structure Session where
  objects : Key → Option SystemSetting
  unflushed : Option (Key × Write)

namespace Session

def empty : Session := ⟨fun _ => none, none⟩

/-- The unit of work once its change is written. -/
def flushed (session : Session) : Session :=
  match session.unflushed with
  | some (key, .delete _) => ⟨Function.update session.objects key none, none⟩
  | _ => ⟨session.objects, none⟩

/-- The object for a row that was read: the one already loaded, if it is of that row. -/
def load (session : Session) (key : Key) (row : Option SystemSetting) :
    Option SystemSetting × Session :=
  match row with
  | none => (none, session)
  | some r =>
      let setting := ((session.objects key).filter fun x => x.id = r.id).getD r
      (some setting, { session with objects := Function.update session.objects key (some setting) })

/-- A new object. -/
def add (session : Session) (key : Key) (setting : SystemSetting) : Session where
  objects := Function.update session.objects key (some setting)
  unflushed := some (key, .insert setting)

/-- New values for an object that has just been loaded; without a net change nothing is written. -/
def assign (session : Session) (key : Key) (setting : SystemSetting) (value : Value)
    (updatedByUserId : Option ℕ) : Session where
  objects := Function.update session.objects key (some { setting with value, updatedByUserId })
  unflushed :=
    if { setting with value, updatedByUserId } = setting then session.unflushed
    else some (key, .update { setting with value, updatedByUserId })

/-- An object to be deleted. -/
def remove (session : Session) (key : Key) (setting : SystemSetting) : Session :=
  { session with unflushed := some (key, .delete setting.id) }

end Session

/-- The flush before a query. -/
def flush (session : Session) : ControlTx Session :=
  match session.unflushed with
  | none => return session.flushed
  | some (key, write) => do
      let row ← Tx.update (S := control) write key.slot
      if row.isNone then
        match write.unmatched with
        | some e => throw e
        | none => return session.flushed
      else
        return session.flushed

/-- `get`. -/
def get (session : Session) (key : Key) : ControlTx (Option SystemSetting × Session) := do
  let session ← flush session
  let row ← Tx.select (S := control) .systemSetting key.slot
  return session.load key row.join

variable (uuid4 : Key → ℕ)

/-- `set_value`; a new row takes the id that is drawn for it. -/
def setValue (session : Session) (key : Key) (value : Value) (updatedByUserId : Option ℕ) :
    ControlTx (SystemSetting × Session) := do
  let found ← get session key
  match found.1 with
  | none => return (⟨uuid4 key, value, updatedByUserId⟩,
      found.2.add key ⟨uuid4 key, value, updatedByUserId⟩)
  | some setting => return ({ setting with value, updatedByUserId },
      found.2.assign key setting value updatedByUserId)

/-- `delete`. -/
def delete (session : Session) (key : Key) : ControlTx Session := do
  let found ← get session key
  match found.1 with
  | none => return found.2
  | some setting => return found.2.remove key setting

/-- `get(..) or set_value(..)`. -/
def getOrSet (session : Session) (key : Key) (value : Value) (updatedByUserId : Option ℕ) :
    ControlTx (SystemSetting × Session) := do
  let found ← get session key
  match found.1 with
  | none => setValue uuid4 found.2 key value updatedByUserId
  | some setting => return (setting, found.2)

/-- `commit_with_retry`: the flush and the commit; the objects do not expire. -/
def commit (session : Session) : ControlTx Session := do
  let session ← flush session
  Tx.commit
  return session

/-! ### Service -/

/-- `SystemSettingStatusResponse`. -/
structure Status where
  enabled : Bool
  pausedBy : Option ℕ
  pausedAt : Option Time
  pausedReason : Option String
  deriving DecidableEq, Repr

/-- `get_status`. -/
def getStatus (session : Session) : ControlTx Status := do
  let enabled ← getOrSet uuid4 session .enabled { enabled := some true } none
  let pausedBy ← get enabled.2 .pausedBy
  let pausedAt ← get pausedBy.2 .pausedAt
  let pausedReason ← get pausedAt.2 .pausedReason
  return {
    enabled := enabled.1.value.enabled.getD true
    pausedBy := pausedBy.1.bind (·.value.userId)
    pausedAt := pausedAt.1.bind (·.value.timestamp)
    pausedReason := pausedReason.1.bind (·.value.reason) }

/-- The audit record, in a transaction of its own. -/
def audit (log : ActivityLog) : ControlTx Unit := do
  let _ ← Tx.insert (S := control) log
  Tx.commit

/-- The record of a pause; an empty reason is no description. -/
def pausedLog (userId : ℕ) (reason : String) (organizationId : ℕ) : ActivityLog where
  organizationId := organizationId
  userId := userId
  eventType := .automationPaused
  entityType := "system_settings"
  entityId := none
  description := if reason = "" then "Automation paused by operator" else reason
  metadata := ⟨true, false, some reason⟩

def resumedLog (userId organizationId : ℕ) : ActivityLog where
  organizationId := organizationId
  userId := userId
  eventType := .automationResumed
  entityType := "system_settings"
  entityId := none
  description := "Automation resumed by operator"
  metadata := ⟨false, true, none⟩

/-- `pause`. -/
def pause (userId : ℕ) (reason : String) (organizationId : ℕ) : ControlTx Status := do
  let enabled ← getOrSet uuid4 .empty .enabled { enabled := some true } (some userId)
  if enabled.1.value.enabled.getD true = false then
    throw (.app ⟨"automation.already_paused", "Automation is already paused", 409⟩ false)
  let enabled ← setValue uuid4 enabled.2 .enabled { enabled := some false } (some userId)
  let pausedBy ← setValue uuid4 enabled.2 .pausedBy { userId := some userId } (some userId)
  let now ← Tx.now
  let pausedAt ← setValue uuid4 pausedBy.2 .pausedAt { timestamp := some now } (some userId)
  let pausedReason ← setValue uuid4 pausedAt.2 .pausedReason { reason := some reason } (some userId)
  let session ← commit pausedReason.2
  audit (pausedLog userId reason organizationId)
  getStatus uuid4 session

/-- `resume`: here a missing setting counts as paused. -/
def resume (userId : ℕ) (organizationId : ℕ) : ControlTx Status := do
  let enabled ← getOrSet uuid4 .empty .enabled { enabled := some false } (some userId)
  if enabled.1.value.enabled.getD false = true then
    throw (.app ⟨"automation.already_resumed", "Automation is already resumed", 409⟩ false)
  let enabled ← setValue uuid4 enabled.2 .enabled { enabled := some true } (some userId)
  let session ← delete enabled.2 .pausedBy
  let session ← delete session .pausedAt
  let session ← delete session .pausedReason
  let session ← commit session
  audit (resumedLog userId organizationId)
  getStatus uuid4 session

/-- A call of the service, with the ids that it would draw. -/
inductive Operation where
  | getStatus (uuid4 : Key → ℕ)
  | pause (uuid4 : Key → ℕ) (userId : ℕ) (reason : String) (organizationId : ℕ)
  | resume (uuid4 : Key → ℕ) (userId : ℕ) (organizationId : ℕ)

def Operation.body : Operation → ControlTx Status
  | .getStatus uuid4 => Control.getStatus uuid4 .empty
  | .pause uuid4 userId reason organizationId => Control.pause uuid4 userId reason organizationId
  | .resume uuid4 userId organizationId => Control.resume uuid4 userId organizationId

/-- The call in a session of its own. -/
def Operation.program (op : Operation) : ControlTx Status := Txn.Tx.withSession op.body

end Automation.Control
