import AgencyOS.Automation.Transitions

/-!
The statements that the repositories of the automation database issue.

Approval decisions and proposal transitions are written by ORM flushes, whose `UPDATE` has no
condition beyond the key; expiry and the gate stamp are guarded.

* `ApprovalRequest.decided`, `Proposal.flush`, ..: the `UPDATE`s beside the transitions of
  executions;
* `Update`, `Insert`, `Query`: all `UPDATE`s, `INSERT`s and bulk reads;
* `automation`: the schema; `Tx`, `Database`, `Sessions`: programs, stores and pools over it.
-/

namespace Automation

open Txn

/-! ### Approval requests -/

/-- What the caller of `create_request` chooses about a new request. -/
structure NewRequest where
  organizationId : ℕ
  requestedByUserId : ℕ
  workflowId : Option ℕ
  workflowExecutionId : Option ℕ
  approverUserId : Option ℕ
  title : String
  details : Option Payload
  expiresAt : Option Time
  deriving DecidableEq, Repr

/-- The row that `create_request` inserts; the database default expires it in 24 hours. -/
def NewRequest.row (d : NewRequest) (now : Time) : ApprovalRequest where
  organizationId := d.organizationId
  workflowId := d.workflowId
  workflowExecutionId := d.workflowExecutionId
  requestedByUserId := some d.requestedByUserId
  approverUserId := d.approverUserId
  title := d.title
  details := d.details
  status := .pending
  expiresAt := d.expiresAt.getD (now + 24 * 60 * 60 * second)
  decidedByUserId := none
  decidedAt := none
  decisionNote := none
  gateHandledAt := none

namespace ApprovalRequest

/-- The columns an ORM flush after a decision writes; a column that did not change since the row
was loaded is not written, so an absent note leaves the stored one. -/
def decided (approve : Bool) (actorId : ℕ) (decidedAt : Time) (note : Option String) :
    GuardedUpdate ApprovalRequest where
  guard _ := true
  set r :=
    { r with
      status := if approve then .approved else .denied
      decidedByUserId := some actorId
      decidedAt := some decidedAt
      decisionNote := note.or r.decisionNote }

/-- PENDING -> EXPIRED. -/
def markExpired (organizationId : ℕ) (now : Time) : GuardedUpdate ApprovalRequest where
  guard r := r.organizationId = organizationId && r.status = .pending
  set r := { r with status := .expired, decidedAt := some now }

/-- Stamp `gate_handled_at` once. -/
def claimGate (handledAt : Time) : GuardedUpdate ApprovalRequest where
  guard r := r.gateHandledAt.isNone
  set r := { r with gateHandledAt := some handledAt }

/-- The condition of `exists_pending_gate`. -/
def isPendingGate (organizationId executionId : ℕ) (r : ApprovalRequest) : Bool :=
  r.organizationId = organizationId && r.workflowExecutionId = some executionId
    && r.status = .pending

/-- The condition of `list_unhandled_gates`. -/
def isUnhandledGate (r : ApprovalRequest) : Bool :=
  r.gateHandledAt.isNone && r.workflowExecutionId.isSome
    && (r.status = .approved || r.status = .denied || r.status = .expired
      || r.status = .cancelled)

end ApprovalRequest

/-! ### Founder proposals -/

/-- What `propose` records about a new proposal. -/
structure NewProposal where
  organizationId : ℕ
  conversationId : Option ℕ
  approvalRequestId : ℕ
  actionType : FounderActionType
  title : String
  payload : JsonObject
  justification : Option String
  expiresAt : Time
  actorUserId : ℕ
  deriving DecidableEq, Repr

/-- The row that `propose` inserts. -/
def NewProposal.row (d : NewProposal) : Proposal where
  organizationId := d.organizationId
  conversationId := d.conversationId
  approvalRequestId := some d.approvalRequestId
  status := .proposed
  actionType := d.actionType
  title := d.title
  payload := d.payload
  justification := d.justification
  expiresAt := some d.expiresAt
  decidedAt := none
  decidedByUserId := none
  actorUserId := d.actorUserId
  executionReference := none

/-- What a flush makes of a stored column: the new value, if it differs from the one loaded. -/
def flushed {α : Type} [DecidableEq α] (loaded new stored : α) : α :=
  if new = loaded then stored else new

namespace Proposal

/-- The `UPDATE` that a flush of the proposal issues: by key, the changed columns only. -/
def flush (loaded new : Proposal) : GuardedUpdate Proposal where
  guard _ := true
  set r :=
    { r with
      status := flushed loaded.status new.status r.status
      decidedAt := flushed loaded.decidedAt new.decidedAt r.decidedAt
      decidedByUserId := flushed loaded.decidedByUserId new.decidedByUserId r.decidedByUserId
      executionReference :=
        flushed loaded.executionReference new.executionReference r.executionReference }

/-- PROPOSED -> EXPIRED. -/
def markExpired (organizationId : ℕ) (now : Time) : GuardedUpdate Proposal where
  guard r := r.organizationId = organizationId && r.status = .proposed
  set r := { r with status := .expired, decidedAt := some now }

/-- The condition of `list_pending_expired_all`. -/
def isPastExpiry (now : Time) (r : Proposal) : Bool :=
  r.status = .proposed && r.expiresAt.any (· < now)

end Proposal

/-! ### The schema -/

/-- The `UPDATE`s of the repositories, with their arguments. -/
inductive Update where
  | transition (t : Transition)
  | decideRequest (approve : Bool) (actorId : ℕ) (decidedAt : Time) (note : Option String)
  | expireRequest (organizationId : ℕ) (now : Time)
  | claimGate (handledAt : Time)
  | flushProposal (loaded new : Proposal)
  | expireProposal (organizationId : ℕ) (now : Time)
  deriving DecidableEq, Repr

@[reducible] def Update.target : Update → Table
  | transition _ => .execution
  | decideRequest .. | expireRequest .. | claimGate _ => .approvalRequest
  | flushProposal .. | expireProposal .. => .proposal

def Update.act : (u : Update) → GuardedUpdate (Row u.target)
  | transition t => t.update
  | decideRequest approve actorId decidedAt note =>
      ApprovalRequest.decided approve actorId decidedAt note
  | expireRequest org now => ApprovalRequest.markExpired org now
  | claimGate handledAt => ApprovalRequest.claimGate handledAt
  | flushProposal loaded new => Proposal.flush loaded new
  | expireProposal org now => Proposal.markExpired org now

/-- The `INSERT`s of the repositories, with their rows. -/
inductive Insert where
  | execution (d : NewExecution)
  | approvalRequest (d : NewRequest) (now : Time)
  | approvalLog (r : ApprovalLog)
  | proposal (d : NewProposal)
  | task (r : Task)
  deriving DecidableEq, Repr

@[reducible] def Insert.into : Insert → Table
  | execution _ => .execution
  | approvalRequest .. => .approvalRequest
  | approvalLog _ => .approvalLog
  | proposal _ => .proposal
  | task _ => .task

def Insert.new : (x : Insert) → Row x.into
  | execution d => d.row
  | approvalRequest d now => d.row now
  | approvalLog r => r
  | proposal d => d.row
  | task r => r

/-- The bulk reads of the repositories, with their arguments. -/
inductive Query where
  | countPending (organizationId : ℕ)
  | getQueuedOrgs
  | getQueuedForOrg (organizationId : ℕ)
  | getQueuedForRetry (before : Time)
  | getStuckRunning (timeoutSeconds : ℕ) (now : Time)
  | getWorkflows
  | existsPendingGate (organizationId executionId : ℕ)
  | listUnhandledGates
  | listPendingExpired (organizationId : ℕ) (now : Time)
  | listPendingExpiredAll (now : Time)
  deriving DecidableEq, Repr

@[reducible] def Query.source : Query → Table
  | countPending _ | getQueuedOrgs | getQueuedForOrg _ | getQueuedForRetry _
  | getStuckRunning .. => .execution
  | getWorkflows => .workflow
  | existsPendingGate .. | listUnhandledGates => .approvalRequest
  | listPendingExpired .. | listPendingExpiredAll _ => .proposal

/-- The conditions of the bulk reads; the cutoff of `get_stuck_running` is
`now - EXECUTION_TIMEOUT_SECONDS`. -/
def Query.matching : (q : Query) → Row q.source → Bool
  | countPending org, r =>
      r.organizationId = org && (r.status = .queued || r.status = .retrying)
  | getQueuedOrgs, r => r.status = .queued
  | getQueuedForOrg org, r => r.organizationId = org && r.status = .queued
  | getQueuedForRetry before, r => r.status = .retrying && r.nextRetryAt.any (· ≤ before)
  | getStuckRunning timeoutSeconds now, r =>
      r.status = .running && r.startedAt.any fun t => t + timeoutSeconds * second < now
  | getWorkflows, _ => true
  | existsPendingGate org executionId, r => r.isPendingGate org executionId
  | listUnhandledGates, r => r.isUnhandledGate
  | listPendingExpired org now, r => r.organizationId = org && r.isPastExpiry now
  | listPendingExpiredAll now, r => r.isPastExpiry now

/-- The automation database. -/
@[reducible] def automation : Schema where
  Table := Table
  Row := Row
  Update := Update
  target := Update.target
  act := Update.act
  Insert := Insert
  into := Insert.into
  new := Insert.new
  Query := Query
  source := Query.source
  matching := Query.matching

/-! ### Programs -/

/-- A program on the automation database. -/
abbrev Tx (α : Type) : Type := Txn.Tx automation Exn α

/-- Raise an `AppError` with the session as it is. -/
def raise {α : Type} (code message : String) (statusCode : ℕ) : Tx α :=
  throw (.app ⟨code, message, statusCode⟩ false)

/-- `await session.rollback()`, then raise an `AppError`. -/
def rollbackAndRaise {α : Type} (code message : String) (statusCode : ℕ) : Tx α := do
  Tx.rollback
  throw (.app ⟨code, message, statusCode⟩ true)

/-- `utcnow()`. -/
def utcnow : Tx Time := Tx.now

/-- `commit_with_retry(session)`; a commit that fails for good loses the session. -/
def commitWithRetry : Tx Unit := Tx.commit

/-- One service call in a session of its own, its response ignored. -/
def client {α : Type} (p : Tx α) : Tx Unit := (Txn.Tx.withSession p).bind fun _ => .ret ()

lemma issues_client {α : Type} {φ : Sql automation → Prop} {p : Tx α} (hp : p.Issues φ)
    (hroll : φ .rollback) : (client p).Issues φ :=
  Prog.issues_bind (Txn.Tx.issues_withSession hp hroll) fun _ => trivial

/-- The automation database as its sessions `ι` see it. -/
abbrev Database (ι : Type) : Type := Db automation ι

/-- One executed statement. -/
abbrev Happened (ι : Type) : Type := Event (sql automation) ι (Database ι)

/-- The sessions on the database. -/
abbrev Sessions (ι α : Type) : Type := Pool (sql automation) ι (Database ι) Exn α

/-- The database server. -/
abbrev postgres (ι : Type) [DecidableEq ι] : Server (sql automation) ι (Database ι) :=
  server automation ι

end Automation
