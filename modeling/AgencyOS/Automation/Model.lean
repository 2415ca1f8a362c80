import AgencyOS.Txn.Store

/-!
The rows of the automation database: workflow executions, the approval requests that gate them,
and the founder proposals linked to approval requests.

Ids are numbers, times are microseconds, and a JSON document that the services pass through is
its compact text.

* `Execution`, `ApprovalRequest`, `ApprovalLog`, `Proposal`, ..: the rows;
* `Table`, `Row`: the tables of the database;
* `Settings`: the configuration the services read;
* `Exn`: what a service raises.
-/

namespace Automation

open Txn

/-! ### Enumerations -/

inductive WorkflowStatus where
  | draft | active | paused | archived
  deriving DecidableEq, Repr

inductive ExecutionStatus where
  | queued | running | succeeded | failed | retrying | cancelled | timedOut
  deriving DecidableEq, Repr

/-- The states an execution rests in once it is settled. -/
def ExecutionStatus.isTerminal : ExecutionStatus → Bool
  | succeeded | failed | cancelled | timedOut => true
  | queued | running | retrying => false

inductive RetryBackoff where
  | constant | exponential
  deriving DecidableEq, Repr

inductive ApprovalStatus where
  | pending | approved | denied | expired | cancelled
  deriving DecidableEq, Repr

inductive ApprovalLogAction where
  | requested | notified | approved | denied | expired | cancelled
  deriving DecidableEq, Repr

inductive ProposalStatus where
  | proposed | approved | denied | expired | cancelled | executing | succeeded | failed
  deriving DecidableEq, Repr

inductive FounderActionType where
  | createTask | draftEmail | sendEmail | runWorkflow | export | general
  deriving DecidableEq, Repr

inductive TaskStatus where
  | todo | inProgress | completed | cancelled
  deriving DecidableEq, Repr

inductive TaskPriority where
  | low | medium | high | urgent
  deriving DecidableEq, Repr

/-! ### Rows -/

/-- Times in microseconds. -/
abbrev Time : Type := ℕ

/-- One second. -/
def second : Time := 1000000

/-- A JSON document as its compact text. -/
abbrev Payload : Type := String

structure Workflow where
  organizationId : ℕ
  name : String
  status : WorkflowStatus
  deriving DecidableEq, Repr

/-- A row of `workflow_executions`. -/
structure Execution where
  organizationId : ℕ
  workflowId : ℕ
  triggerId : Option ℕ
  status : ExecutionStatus
  input : Payload
  output : Option Payload
  error : Option Payload
  startedAt : Option Time
  finishedAt : Option Time
  attempts : ℕ
  maxAttempts : ℕ
  retryDelaySeconds : ℕ
  retryBackoff : RetryBackoff
  nextRetryAt : Option Time
  requestedByUserId : Option ℕ
  traceId : Option ℕ
  cancelRequestedAt : Option Time
  cancelledByUserId : Option ℕ
  idempotencyKey : Option String
  createdAt : Time
  deriving DecidableEq, Repr

/-- A row of `approval_requests`. -/
structure ApprovalRequest where
  organizationId : ℕ
  workflowId : Option ℕ
  workflowExecutionId : Option ℕ
  requestedByUserId : Option ℕ
  approverUserId : Option ℕ
  title : String
  details : Option Payload
  status : ApprovalStatus
  expiresAt : Time
  decidedByUserId : Option ℕ
  decidedAt : Option Time
  decisionNote : Option String
  gateHandledAt : Option Time
  deriving DecidableEq, Repr

/-- A row of `approval_logs`. -/
structure ApprovalLog where
  organizationId : ℕ
  approvalRequestId : ℕ
  actorUserId : Option ℕ
  action : ApprovalLogAction
  note : Option String
  deriving DecidableEq, Repr

/-- A value of a JSON object: a string, or anything else with its `str()` and its truth. -/
inductive JsonValue where
  | str (s : String)
  | other (text : String) (truthy : Bool)
  deriving DecidableEq, Repr

/-- A JSON object as the list of its entries. -/
abbrev JsonObject : Type := List (String × JsonValue)

/-- A row of `founder_action_proposals`. -/
structure Proposal where
  organizationId : ℕ
  conversationId : Option ℕ
  approvalRequestId : Option ℕ
  status : ProposalStatus
  actionType : FounderActionType
  title : String
  payload : JsonObject
  justification : Option String
  expiresAt : Option Time
  decidedAt : Option Time
  decidedByUserId : Option ℕ
  actorUserId : ℕ
  executionReference : Option JsonObject
  deriving DecidableEq, Repr

/-- A row of `tasks`. -/
structure Task where
  organizationId : ℕ
  title : String
  description : Option String
  status : TaskStatus
  priority : TaskPriority
  dueAt : Option Time
  assigneeUserId : Option ℕ
  createdByUserId : Option ℕ
  deriving DecidableEq, Repr

/-- An operator setting: the flag of `automation.enabled`, the text of `paused_reason`. -/
structure SystemSetting where
  enabled : Bool
  reason : Option String
  deriving DecidableEq, Repr

/-- What `organizations.settings` says about AI: malformed settings, or the kill switch. -/
structure Organization where
  settingsWellFormed : Bool
  aiKillSwitch : Bool
  deriving DecidableEq, Repr

/-- Only the existence of a user is read. -/
structure User where
  deriving DecidableEq, Repr

/-! ### Tables -/

inductive Table where
  | workflow | execution | approvalRequest | approvalLog | proposal | task | systemSetting
  | organization | user
  deriving DecidableEq, Repr

/-- The rows of each table. -/
@[reducible] def Row : Table → Type
  | .workflow => Workflow
  | .execution => Execution
  | .approvalRequest => ApprovalRequest
  | .approvalLog => ApprovalLog
  | .proposal => Proposal
  | .task => Task
  | .systemSetting => SystemSetting
  | .organization => Organization
  | .user => User

/-- The ids of the two operator settings read. -/
def keyEnabled : ℕ := 0
def keyPausedReason : ℕ := 1

/-- The configuration the services read. -/
structure Settings where
  executionTimeoutSeconds : ℕ
  executionMaxPendingPerOrg : ℕ
  executionOrgsPerSweep : ℕ
  builtinMaxResultSizeBytes : ℕ
  founderApprovalTtlSeconds : ℕ

/-- `AppError`: what the API answers with. -/
structure AppError where
  code : String
  message : String
  statusCode : ℕ
  deriving DecidableEq, Repr

/-- What a service raises: an `AppError`, `rolledBack` when the session was rolled back on the
way, so that every row loaded in it is expired; the error of touching an expired row; any other
exception, by its class. -/
inductive Exn where
  | app (e : AppError) (rolledBack : Bool)
  | missingGreenlet
  | other (name : String)
  deriving DecidableEq, Repr

end Automation
