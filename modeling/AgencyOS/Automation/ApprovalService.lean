import AgencyOS.Automation.Worker

/-!
Approval requests: the decision service, the expiry, and the gate worker.

`decide` reads the request, checks its status in memory and writes the ORM row: the `UPDATE`
that the flush issues has no condition beyond the key.  Expiry and the gate stamp are guarded
`UPDATE`s.

* `ApprovalRequestRepository`: `markExpired`, `existsPendingGate`, `listUnhandledGates`,
  `claimGate`;
* `ApprovalService`: `createRequest`, `decide`;
* `ApprovalGateService`: `gateAction`, `processGate`, `sweep`.
-/

namespace Automation

open Txn

/-! ### Repository -/

namespace ApprovalRequestRepository

def get (organizationId requestId : ℕ) : Tx (Option ApprovalRequest) := do
  let row ← Tx.select (S := automation) Table.approvalRequest requestId
  return row.filter (·.organizationId = organizationId)

def getOr404 (organizationId requestId : ℕ) : Tx ApprovalRequest := do
  match ← get organizationId requestId with
  | none => raise "approval_requests.not_found" "ApprovalRequest not found" 404
  | some request => return request

/-- `mark_expired`: false when the request is already decided. -/
def markExpired (organizationId requestId : ℕ) (now : Time) : Tx Bool := do
  let updated ← Tx.update (S := automation) (.expireRequest organizationId now) requestId
  return updated.isSome

/-- `exists_pending_gate`: whether an execution waits on a pending approval gate. -/
def existsPendingGate (organizationId executionId : ℕ) : Tx Bool := do
  let rows ← Tx.scan (S := automation) (.existsPendingGate organizationId executionId)
  return !rows.isEmpty

/-- `list_unhandled_gates`: decided requests linked to an execution, gate not stamped. -/
def listUnhandledGates (limit : ℕ) : Tx (List (ℕ × ApprovalRequest)) := do
  let rows ← Tx.scan (S := automation) .listUnhandledGates
  return (orderBy (·.decidedAt) rows).take (min limit 500)

/-- `claim_gate`: false when already handled. -/
def claimGate (requestId : ℕ) (handledAt : Time) : Tx Bool := do
  let updated ← Tx.update (S := automation) (.claimGate handledAt) requestId
  return updated.isSome

end ApprovalRequestRepository

/-! ### Decisions -/

namespace ApprovalService

open ApprovalRequestRepository

/-- The foreign key on `workflow_execution_id`. -/
def checkExecution : Option ℕ → Tx Unit
  | none => return
  | some executionId => do
      let execution ← Tx.select (S := automation) Table.execution executionId
      if execution.isNone then
        throw (.other "IntegrityError")

def createRequest (data : NewRequest) : Tx ℕ := do
  let now ← Tx.now
  checkExecution data.workflowExecutionId
  let requestId ← Tx.insert (S := automation) (.approvalRequest data now)
  let _ ← Tx.insert (S := automation) (.approvalLog
    { organizationId := data.organizationId
      approvalRequestId := requestId
      actorUserId := some data.requestedByUserId
      action := .requested
      note := none })
  commitWithRetry
  return requestId

/-- `decide`; the flush of the decided row and its log record precede the commit. -/
def decide (organizationId actorId requestId : ℕ) (approve : Bool)
    (decisionNote : Option String) : Tx Unit := do
  let request ← getOr404 organizationId requestId
  if request.status ≠ .pending then
    raise "approval.not_pending" "Approval request is not pending" 409
  let now ← utcnow
  if request.expiresAt < now then
    let _ ← markExpired organizationId requestId now
    commitWithRetry
    raise "approval.expired" "Approval request has expired and can no longer be decided" 409
  let decidedAt ← utcnow
  match ← Tx.update (S := automation) (.decideRequest approve actorId decidedAt decisionNote)
      requestId with
  | none => throw (.other "StaleDataError")
  | some _ =>
      let _ ← Tx.insert (S := automation) (.approvalLog
        { organizationId := organizationId
          approvalRequestId := requestId
          actorUserId := some actorId
          action := if approve then .approved else .denied
          note := decisionNote })
      commitWithRetry

end ApprovalService

/-! ### Gates -/

inductive GateAction where
  | retry | cancel
  deriving DecidableEq, Repr

namespace ApprovalGateService

open ApprovalRequestRepository

/-- `_gate_action`: `none` when the decision is moot. -/
def gateAction (status : ApprovalStatus) (execution : Option Execution) : Option GateAction :=
  match execution with
  | none => none
  | some execution =>
      if status = .approved then
        if execution.status = .failed ∨ execution.status = .cancelled
            ∨ execution.status = .timedOut then
          some .retry
        else
          none
      else if execution.status = .queued ∨ execution.status = .running
          ∨ execution.status = .retrying then
        some .cancel
      else
        none

/-- The execution operation of a gate, on the row that the gate has read. -/
def takeAction (action : Option GateAction) (execution : Option Execution)
    (organizationId executionId : ℕ) (decidedByUserId : Option ℕ) : Tx Unit := do
  match action with
  | some .retry =>
      let _ ← WorkflowExecutionService.retry execution organizationId executionId
  | some .cancel =>
      let _ ← WorkflowExecutionService.cancel execution organizationId executionId decidedByUserId
  | none => return

/-- `_process_gate`: true if `gate_handled_at` was stamped. -/
def processGate (requestId : ℕ) (req : ApprovalRequest) : Tx Bool := do
  match req.workflowExecutionId with
  | none =>
      let handledAt ← utcnow
      let claimed ← claimGate requestId handledAt
      if claimed then
        commitWithRetry
      return claimed
  | some executionId =>
      let execution ← WorkflowExecutionRepository.get none req.organizationId executionId
      let action := gateAction req.status execution
      let handledAt ← utcnow
      let claimed ← claimGate requestId handledAt
      if claimed then
        tryCatch
          (do
            takeAction action execution req.organizationId executionId req.decidedByUserId
            commitWithRetry
            return true)
          fun e => match e with
            -- the log line of the handler reads the request, expired by a rollback
            | .app _ true => throw .missingGreenlet
            | e => do
                Tx.rollback
                throw e
      else
        return false

/-- `sweep`: process up to `limit` unhandled gates. -/
def sweep (limit : ℕ) : Tx ℕ := do
  let requests ← listUnhandledGates limit
  Prog.tally requests fun row => do
    let stamped ← processGate row.1 row.2
    return stamped.toNat

end ApprovalGateService

end Automation
