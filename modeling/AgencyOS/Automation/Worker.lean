import AgencyOS.Automation.ExecutionService

/-!
The execution worker: the phases that sweep the global execution queue.

A phase runs in one session.  It lists executions and then calls the service for each of them;
the rows listed are not refreshed by the reads of the service.  The adapter that runs a
workflow is external: `AdapterOutcome` is what it answers with.

* `processRetries`, `processQueued`, `timeoutStuck`: the phases;
* `sweep`: one full pass, each phase in its own session.
-/

namespace Automation

open Txn

/-- How the run of an adapter ends. -/
inductive AdapterOutcome where
  | returned (output : Payload)
  | raised (error : Payload)
  | timedOut
  deriving DecidableEq, Repr

/-- What the adapter does with each execution it is given. -/
abbrev Adapter : Type := ℕ → Execution → AdapterOutcome

/-- Order by a nullable key, ascending, nulls last. -/
def nullsLast (a b : Option ℕ) : Bool :=
  match a, b with
  | some a, some b => a ≤ b
  | _, none => true
  | none, some _ => false

/-- `ORDER BY` a nullable key. -/
def orderBy {ρ : Type} (key : ρ → Option ℕ) (rows : List (ℕ × ρ)) : List (ℕ × ρ) :=
  rows.insertionSort fun a b => nullsLast (key a.2) (key b.2) = true

lemma mem_orderBy {ρ : Type} {key : ρ → Option ℕ} {rows : List (ℕ × ρ)} {x : ℕ × ρ} :
    x ∈ orderBy key rows ↔ x ∈ rows := List.mem_insertionSort _

namespace WorkflowExecutionRepository

/-- `get_queued_orgs`: the organizations with queued work, oldest work first. -/
def getQueuedOrgs (limit : ℕ) : Tx (List ℕ) := do
  let rows ← Tx.scan (S := automation) .getQueuedOrgs
  let oldestFirst := orderBy (fun r => some r.createdAt) rows
  return ((oldestFirst.map fun row => row.2.organizationId).eraseDups).take limit

/-- `get_queued_for_org`. -/
def getQueuedForOrg (organizationId limit : ℕ) : Tx (List (ℕ × Execution)) := do
  let rows ← Tx.scan (S := automation) (.getQueuedForOrg organizationId)
  return (orderBy (fun r => some r.createdAt) rows).take limit

/-- `get_queued_for_retry`. -/
def getQueuedForRetry (before : Time) : Tx (List (ℕ × Execution)) := do
  let rows ← Tx.scan (S := automation) (.getQueuedForRetry before)
  return orderBy (·.nextRetryAt) rows

/-- `get_stuck_running`. -/
def getStuckRunning (settings : Settings) : Tx (List (ℕ × Execution)) := do
  let now ← utcnow
  Tx.scan (S := automation) (.getStuckRunning settings.executionTimeoutSeconds now)

end WorkflowExecutionRepository

namespace ExecutionWorker

open WorkflowExecutionRepository WorkflowExecutionService

variable (settings : Settings)

/-- `try: .. except AppError: log`; the log line reads the row, which raises when the service
has rolled the session back. -/
def attempt {α : Type} (p : Tx α) : Tx (Option α) :=
  tryCatch (do return some (← p)) fun
    | .app _ false => return none
    | .app _ true => throw .missingGreenlet
    | e => throw e

/-- `process_retries`: requeue executions whose retry window has elapsed. -/
def processRetries : Tx ℕ := do
  let before ← utcnow
  let executions ← getQueuedForRetry before
  let requeued ← Prog.tally executions fun row => do
    let updated ← requeueDue row.2.organizationId row.1
    return updated.isSome.toNat
  commitWithRetry
  return requeued

/-- The landing of a started execution. -/
def settle (adapter : Adapter) (executionId : ℕ) (started : Execution) : Tx (Option Execution) :=
  match adapter executionId started with
  | .timedOut => attempt (timeout (some started) started.organizationId executionId)
  | .raised error =>
      attempt (fail settings (some started) started.organizationId executionId error true)
  | .returned output =>
      attempt (complete settings (some started) started.organizationId executionId output)

/-- The body of the drain loop: 1 when the execution counts as processed. -/
def drain (adapter : Adapter) (workflows : List (ℕ × Workflow)) (executionId : ℕ)
    (execution : Execution) : Tx ℕ := do
  if (workflows.lookup execution.workflowId).any (·.status = .active) then
    match ← attempt (start (some execution) execution.organizationId executionId) with
    | none => return 0
    | some started =>
        let _ ← settle settings adapter executionId started
        return 1
  else
    let _ ← attempt (failQueued settings (some execution) execution.organizationId executionId
      "\x7b\"error\":\"workflow_unavailable\",\"message\":\"Workflow is not active or not found\"\x7d")
    return 1

/-- The workflows of a batch of executions. -/
def getWorkflows (ids : List ℕ) : Tx (List (ℕ × Workflow)) := do
  let rows ← Tx.scan (S := automation) .getWorkflows
  return rows.filter (·.1 ∈ ids)

/-- `process_queued`: run queued executions through the adapter. -/
def processQueued (adapter : Adapter) (batchSize : ℕ) : Tx ℕ := do
  let orgs ← getQueuedOrgs settings.executionOrgsPerSweep
  Prog.tally orgs fun org => do
    let executions ← getQueuedForOrg org batchSize
    if executions.isEmpty then
      return 0
    let workflows ← getWorkflows (executions.map (·.2.workflowId))
    let processed ← Prog.tally executions fun row =>
      drain settings adapter workflows row.1 row.2
    commitWithRetry
    return processed

/-- `timeout_stuck`: mark running executions that exceeded the timeout as timed out. -/
def timeoutStuck : Tx ℕ := do
  let executions ← getStuckRunning settings
  let transitioned ← Prog.tally executions fun row => do
    let updated ← attempt (timeout (some row.2) row.2.organizationId row.1)
    return updated.isSome.toNat
  commitWithRetry
  return transitioned

/-- `_safe_phase`: a failure of a phase is recorded, and the pass goes on. -/
def safePhase (phase : Tx ℕ) : Tx (ℕ × Bool) :=
  tryCatch (do return (← Txn.Tx.withSession phase, true)) fun _ => return (0, false)

/-- `_automation_enabled`: a failed check is treated as paused. -/
def automationEnabled : Tx Bool :=
  tryCatch (Txn.Tx.withSession AutomationControlService.isEnabled) fun _ => return false

/-- `sweep`: one full pass; while automation is paused only the timeout phase runs. -/
def sweep (adapter : Adapter) (batchSize : ℕ) : Tx (ℕ × ℕ × ℕ) := do
  if ← automationEnabled then
    let retried ← safePhase processRetries
    let processed ← safePhase (processQueued settings adapter batchSize)
    let timedOut ← safePhase (timeoutStuck settings)
    if retried.2 && processed.2 && timedOut.2 then
      return (retried.1, processed.1, timedOut.1)
    throw (.other "RuntimeError")
  else
    let timedOut ← safePhase (timeoutStuck settings)
    return (0, 0, timedOut.1)

end ExecutionWorker

end Automation
