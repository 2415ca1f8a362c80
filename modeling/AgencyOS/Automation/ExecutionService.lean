import AgencyOS.Automation.Statements

/-!
The execution service: queueing, and the lifecycle operations on one execution.

Every operation reads the row, checks its status, issues one guarded `UPDATE` (some with a
fallback) and commits.  A row that the session has loaded before is not refreshed by a second
read, so every operation takes the row already loaded in its session, if any.  Audit records
and the best-effort timeline are left out.

* `WorkflowExecutionRepository`: the reads and the guarded `UPDATE`s as statements;
* `AutomationControlService`: the kill switch;
* `WorkflowExecutionService`: `queue`, `start`, `complete`, `fail`, `failQueued`, `retry`,
  `requeueDue`, `cancel`, `timeout`.
-/

namespace Automation

open Txn

/-! ### Repository -/

namespace WorkflowExecutionRepository

/-- `get`: a row already loaded in the session is returned as it was loaded. -/
def get (loaded : Option Execution) (organizationId executionId : ℕ) : Tx (Option Execution) := do
  let row ← Tx.select (S := automation) Table.execution executionId
  return (row.filter (·.organizationId = organizationId)).map fun r => loaded.getD r

def getOr404 (loaded : Option Execution) (organizationId executionId : ℕ) : Tx Execution := do
  match ← get loaded organizationId executionId with
  | none => raise "workflow_execution.not_found" "Workflow execution not found" 404
  | some execution => return execution

/-- A guarded `UPDATE .. RETURNING` of one execution. -/
def transition (executionId : ℕ) (t : Transition) : Tx (Option Execution) :=
  Tx.update (S := automation) (.transition t) executionId

/-- The started row takes its `started_at` from the time of the transaction. -/
def markStarted (organizationId executionId : ℕ) (now : Time) : Tx (Option Execution) :=
  transition executionId (.markStarted organizationId now)

def markSucceeded (organizationId executionId : ℕ) (output : Payload) (finishedAt : Time) :
    Tx (Option Execution) :=
  transition executionId (.markSucceeded organizationId output finishedAt)

def markFailed (organizationId executionId : ℕ) (error : Payload) (toStatus : FailureStatus)
    (nextRetryAt finishedAt : Option Time) : Tx (Option Execution) :=
  transition executionId (.markFailed organizationId error toStatus nextRetryAt finishedAt)

def markFailedIfQueued (organizationId executionId : ℕ) (error : Payload) (finishedAt : Time) :
    Tx (Option Execution) :=
  transition executionId (.markFailedIfQueued organizationId error finishedAt)

def markCancelledAfterRun (organizationId executionId : ℕ) (finishedAt : Time) :
    Tx (Option Execution) :=
  transition executionId (.markCancelledAfterRun organizationId finishedAt)

def markCancelledIfPending (organizationId executionId : ℕ) (cancelRequestedAt : Time)
    (cancelledByUserId : Option ℕ) (finishedAt : Time) : Tx (Option Execution) :=
  transition executionId
    (.markCancelledIfPending organizationId cancelRequestedAt cancelledByUserId finishedAt)

def markCancelRequested (organizationId executionId : ℕ) (cancelRequestedAt : Time)
    (cancelledByUserId : Option ℕ) : Tx (Option Execution) :=
  transition executionId (.markCancelRequested organizationId cancelRequestedAt cancelledByUserId)

def markTimedOut (organizationId executionId : ℕ) (error : Payload) (finishedAt : Time) :
    Tx (Option Execution) :=
  transition executionId (.markTimedOut organizationId error finishedAt)

def markRequeued (organizationId executionId : ℕ) : Tx (Option Execution) :=
  transition executionId (.markRequeued organizationId)

def markRequeuedDue (organizationId executionId : ℕ) (dueBefore : Time) : Tx (Option Execution) :=
  transition executionId (.markRequeuedDue organizationId dueBefore)

/-- `count_pending`: the executions of an organization that wait to be drained. -/
def countPending (organizationId : ℕ) : Tx ℕ := do
  let rows ← Tx.scan (S := automation) (.countPending organizationId)
  return rows.length

end WorkflowExecutionRepository

/-! ### Kill switch -/

namespace AutomationControlService

/-- `is_enabled`: a missing setting means enabled. -/
def isEnabled : Tx Bool := do
  let setting ← Tx.select (S := automation) Table.systemSetting keyEnabled
  return setting.all (·.enabled)

def pausedReason : Tx (Option String) := do
  let setting ← Tx.select (S := automation) Table.systemSetting keyPausedReason
  return (setting.bind (·.reason)).filter (· ≠ "")

def withReason (message : String) (reason : Option String) : String :=
  match reason with
  | some reason => message ++ " Reason: " ++ reason
  | none => message

def blockIfPaused (code message : String) : Tx Unit := do
  if ← isEnabled then
    return
  let reason ← pausedReason
  raise code (withReason message reason) 409

def blockExecutionIfPaused : Tx Unit :=
  blockIfPaused "automation.paused"
    "Automation is currently paused. Operations are blocked until resumed."

def blockQueueIfPaused : Tx Unit :=
  blockIfPaused "automation.paused.queue_blocked"
    "Automation is currently paused. New executions cannot be queued."

end AutomationControlService

/-! ### Service -/

namespace WorkflowExecutionService

open WorkflowExecutionRepository AutomationControlService

variable (settings : Settings) (loaded : Option Execution)

/-- `_assert_payload_size`: the UTF-8 bytes of the compact text are bounded. -/
def assertPayloadSize (payload : Payload) (field : String) : Tx Unit :=
  if payload.utf8ByteSize > settings.builtinMaxResultSizeBytes then
    raise "execution.payload_too_large"
      (field ++ " payload exceeds the maximum size ("
        ++ toString settings.builtinMaxResultSizeBytes ++ " bytes)") 413
  else
    return

/-- `_retry_delay_seconds`. -/
def retryDelaySeconds (execution : Execution) : ℕ :=
  match execution.retryBackoff with
  | .exponential => execution.retryDelaySeconds * 2 ^ (execution.attempts - 1)
  | .constant => execution.retryDelaySeconds

/-- `queue`; `refused` when a constraint refuses the row, as the unique index on idempotency
keys does. -/
def queue (data : NewExecution) (bypassPendingCap refused : Bool) : Tx ℕ := do
  blockQueueIfPaused
  let workflow ← Tx.select (S := automation) Table.workflow data.workflowId
  match workflow.filter (·.organizationId = data.organizationId) with
  | none => raise "workflow.not_found" "Workflow not found" 404
  | some workflow =>
      if workflow.status ≠ .active then
        raise "workflow.not_active" "Only active workflows can be queued" 400
      let pending ← countPending data.organizationId
      if !bypassPendingCap && settings.executionMaxPendingPerOrg ≤ pending then
        raise "execution.pending_cap_exceeded"
          ("Organization has too many pending executions ("
            ++ toString settings.executionMaxPendingPerOrg ++ " max)") 409
      if refused then
        if data.idempotencyKey.any (· ≠ "") then
          rollbackAndRaise "execution.duplicate_idempotency_key"
            "An execution with this idempotency key already exists" 409
        else
          rollbackAndRaise "execution.create_failed" "Could not create workflow execution" 409
      let executionId ← Tx.insert (S := automation) (.execution data)
      commitWithRetry
      return executionId

def start (organizationId executionId : ℕ) : Tx Execution := do
  let now ← Tx.now
  let execution ← getOr404 loaded organizationId executionId
  if execution.status ≠ .queued then
    raise "execution.invalid_state" "Only queued executions can be started" 409
  match ← markStarted organizationId executionId now with
  | none =>
      rollbackAndRaise "execution.invalid_state"
        "Execution was cancelled or claimed by another worker" 409
  | some updated =>
      commitWithRetry
      return updated

/-- The outcome of a run: `primary`, or `mark_cancelled_after_run` when a concurrent cancel
flagged the run. -/
def land (organizationId executionId : ℕ) (primary : Tx (Option Execution))
    (finishedAt : Tx Time) : Tx Execution := do
  match ← primary with
  | some updated =>
      commitWithRetry
      return updated
  | none =>
      let finishedAt ← finishedAt
      match ← markCancelledAfterRun organizationId executionId finishedAt with
      | none =>
          rollbackAndRaise "execution.invalid_state" "Execution state changed concurrently" 409
      | some updated =>
          commitWithRetry
          return updated

def complete (organizationId executionId : ℕ) (output : Payload) : Tx Execution := do
  assertPayloadSize settings output "output"
  let execution ← getOr404 loaded organizationId executionId
  if execution.status ≠ .running then
    raise "execution.invalid_state" "Only running executions can be completed" 409
  let finishedAt ← utcnow
  land organizationId executionId
    (markSucceeded organizationId executionId output finishedAt) (pure finishedAt)

def fail (organizationId executionId : ℕ) (error : Payload) (scheduleRetry : Bool) :
    Tx Execution := do
  assertPayloadSize settings error "error"
  let execution ← getOr404 loaded organizationId executionId
  if execution.status ≠ .running then
    raise "execution.invalid_state" "Only running executions can be failed" 409
  let finishedAt ← utcnow
  if execution.cancelRequestedAt.isSome then
    match ← markCancelledAfterRun organizationId executionId finishedAt with
    | none =>
        rollbackAndRaise "execution.invalid_state" "Execution state changed concurrently" 409
    | some updated =>
        commitWithRetry
        return updated
  else if scheduleRetry && execution.attempts < execution.maxAttempts then
    let now ← utcnow
    let nextRetryAt := now + retryDelaySeconds execution * second
    land organizationId executionId
      (markFailed organizationId executionId error ⟨.retrying, isFailure_retrying⟩ (some nextRetryAt) none)
      (pure finishedAt)
  else
    land organizationId executionId
      (markFailed organizationId executionId error ⟨.failed, isFailure_failed⟩ none (some finishedAt))
      (pure finishedAt)

def failQueued (organizationId executionId : ℕ) (error : Payload) : Tx Execution := do
  assertPayloadSize settings error "error"
  let execution ← getOr404 loaded organizationId executionId
  if execution.status ≠ .queued then
    raise "execution.invalid_state" "Only queued executions can be failed before dispatch" 409
  let finishedAt ← utcnow
  match ← markFailedIfQueued organizationId executionId error finishedAt with
  | none => rollbackAndRaise "execution.invalid_state" "Execution state changed concurrently" 409
  | some updated =>
      commitWithRetry
      return updated

def retry (organizationId executionId : ℕ) : Tx Execution := do
  blockExecutionIfPaused
  let execution ← getOr404 loaded organizationId executionId
  if ¬ (execution.status = .failed ∨ execution.status = .cancelled
      ∨ execution.status = .timedOut) then
    raise "execution.invalid_state"
      "Only failed, cancelled, or timed-out executions can be retried" 409
  match ← markRequeued organizationId executionId with
  | none => rollbackAndRaise "execution.invalid_state" "Execution state changed concurrently" 409
  | some updated =>
      commitWithRetry
      return updated

/-- `requeue_due`: `None` when the row is no longer RETRYING and due. -/
def requeueDue (organizationId executionId : ℕ) : Tx (Option Execution) := do
  let dueBefore ← utcnow
  match ← markRequeuedDue organizationId executionId dueBefore with
  | none => return none
  | some updated =>
      commitWithRetry
      return some updated

/-- The `UPDATE`s of `cancel`, chosen by the status it has read: the fallback to
`mark_cancel_requested` stands in the first branch only. -/
def cancelOrFlag (execution : Execution) (organizationId executionId : ℕ)
    (cancelledByUserId : Option ℕ) (finishedAt : Time) : Tx (Option Execution) :=
  if execution.status = .queued ∨ execution.status = .retrying then do
    match ← markCancelledIfPending organizationId executionId finishedAt cancelledByUserId
        finishedAt with
    | some updated => return some updated
    | none => markCancelRequested organizationId executionId finishedAt cancelledByUserId
  else
    markCancelRequested organizationId executionId finishedAt cancelledByUserId

/-- `cancel`: a pending row is cancelled at once, a running one only flagged. -/
def cancel (organizationId executionId : ℕ) (cancelledByUserId : Option ℕ) : Tx Execution := do
  let execution ← getOr404 loaded organizationId executionId
  if execution.status = .cancelled then
    return execution
  if ¬ (execution.status = .queued ∨ execution.status = .running
      ∨ execution.status = .retrying) then
    raise "execution.invalid_state" "This execution cannot be cancelled" 409
  let finishedAt ← utcnow
  match ← cancelOrFlag execution organizationId executionId cancelledByUserId finishedAt with
  | some updated =>
      commitWithRetry
      return updated
  | none =>
      match ← get (some execution) organizationId executionId with
      | none => raise "execution.not_found" "Workflow execution not found" 404
      | some updated =>
          commitWithRetry
          return updated

def timeout (organizationId executionId : ℕ) : Tx Execution := do
  let execution ← getOr404 loaded organizationId executionId
  if execution.status ≠ .running then
    raise "execution.invalid_state" "Only running executions can be timed out" 409
  let finishedAt ← utcnow
  land organizationId executionId
    (markTimedOut organizationId executionId "\x7b\"error\":\"execution timed out\"\x7d" finishedAt)
    utcnow

end WorkflowExecutionService

/-! ### A small database -/

def smallSettings : Settings where
  executionTimeoutSeconds := 600
  executionMaxPendingPerOrg := 100
  executionOrgsPerSweep := 10
  builtinMaxResultSizeBytes := 1024
  founderApprovalTtlSeconds := 3600

/-- An execution of organization 1, just queued. -/
def smallExecution : Execution :=
  NewExecution.row
    { organizationId := 1
      workflowId := 1
      triggerId := none
      input := ""
      maxAttempts := 3
      retryDelaySeconds := 60
      retryBackoff := .exponential
      requestedByUserId := none
      traceId := none
      idempotencyKey := none
      createdAt := 0 }

/-- An active workflow of organization 1. -/
def smallWorkflow : Workflow where
  organizationId := 1
  name := ""
  status := .active

/-- The database with one execution, under id 0, of a workflow under id 1. -/
def smallDatabase {ι : Type} (execution : Execution) (clock : Clock) : Database ι :=
  Db.init (fun t n => match t, n with
    | .execution, 0 => some execution
    | .workflow, 1 => some smallWorkflow
    | _, _ => none) 2 clock fun t n hn => by
      match n with
      | 0 => omega
      | 1 => omega
      | n + 2 => cases t <;> rfl

end Automation
