import AgencyOS.Automation.ApprovalService

/-!
Founder proposals: every assistant action is gated by an approval request.

`propose` opens a request and a proposal linked to it, each in its own transaction.
`decide_proposal` checks the proposal it has read, lets the approval service decide the linked
request in a transaction of its own, and then moves the proposal along and executes the action.
The proposal is written by ORM flushes, which have no condition beyond the key; only expiry is
a guarded `UPDATE`.

* `allowedTransitions`, `applyTransition`: the guarded lifecycle, checked in memory;
* `FounderActionProposalRepository`: reads, the flush, `markExpired`;
* `FounderActionService`: `propose`, `decideProposal`, `expireDue`, `expireDueAll`.
-/

namespace Automation

open Txn

/-! ### The guarded lifecycle -/

/-- `_PROPOSAL_TRANSITIONS`; the statuses without an edge are terminal. -/
def allowedTransitions : ProposalStatus → List ProposalStatus
  | .proposed => [.approved, .denied, .expired, .cancelled]
  | .approved => [.executing]
  | .executing => [.succeeded, .failed]
  | .denied | .expired | .cancelled | .succeeded | .failed => []

/-- The statuses that stamp `decided_at`. -/
def stampsDecision : ProposalStatus → Bool
  | .approved | .denied | .expired | .cancelled | .succeeded | .failed => true
  | .proposed | .executing => false

/-- `ProposalStatus.value`. -/
def ProposalStatus.value : ProposalStatus → String
  | .proposed => "proposed"
  | .approved => "approved"
  | .denied => "denied"
  | .expired => "expired"
  | .cancelled => "cancelled"
  | .executing => "executing"
  | .succeeded => "succeeded"
  | .failed => "failed"

/-- `apply_transition`: the proposal in memory, moved along a legal edge, or an error. -/
def applyTransition (proposalId : ℕ) (proposal : Proposal) (newStatus : ProposalStatus) (now : Time)
    (decidedByUserId : Option ℕ) : Tx Proposal :=
  if proposal.status = newStatus then
    return proposal
  else if newStatus ∉ allowedTransitions proposal.status then
    raise "founder_proposal.invalid_transition"
      ("cannot transition proposal " ++ toString proposalId ++ " from " ++ proposal.status.value
        ++ " to " ++ newStatus.value) 409
  else if stampsDecision newStatus then
    return { proposal with
      status := newStatus
      decidedAt := some now
      decidedByUserId := decidedByUserId.or proposal.decidedByUserId }
  else
    return { proposal with status := newStatus }

/-! ### Repository -/

namespace FounderActionProposalRepository

def get (organizationId proposalId : ℕ) : Tx (Option Proposal) := do
  let row ← Tx.select (S := automation) Table.proposal proposalId
  return row.filter (·.organizationId = organizationId)

/-- The commit of a changed proposal: the flush, then the commit. -/
def save (proposalId : ℕ) (loaded new : Proposal) : Tx Unit := do
  match ← Tx.update (S := automation) (.flushProposal loaded new) proposalId with
  | none => throw (.other "StaleDataError")
  | some _ => commitWithRetry

/-- `mark_expired`: false when the proposal is not PROPOSED. -/
def markExpired (organizationId proposalId : ℕ) (now : Time) : Tx Bool := do
  let updated ← Tx.update (S := automation) (.expireProposal organizationId now) proposalId
  return updated.isSome

/-- `list_pending_expired`: the open proposals of an organization whose expiry is past. -/
def listPendingExpired (organizationId : ℕ) (now : Time) (limit : ℕ) :
    Tx (List (ℕ × Proposal)) := do
  let rows ← Tx.scan (S := automation) (.listPendingExpired organizationId now)
  return (orderBy (·.expiresAt) rows).take (min limit 500)

/-- `list_pending_expired_all`: the same for every organization. -/
def listPendingExpiredAll (now : Time) (limit : ℕ) : Tx (List (ℕ × Proposal)) := do
  let rows ← Tx.scan (S := automation) (.listPendingExpiredAll now)
  return (orderBy (·.expiresAt) rows).take (min limit 1000)

end FounderActionProposalRepository

/-! ### Service -/

/-- How a text is no time: `ValueError`, or an `OverflowError` when it is converted to UTC. -/
inductive DateError where
  | value
  | overflow
  deriving DecidableEq, Repr

/-- How the texts of a payload are read: `datetime.fromisoformat` with the conversion to UTC, and
`uuid.UUID`, on the abstract times and ids; and which times the driver can write. -/
structure Readers where
  fromisoformat : String → Except DateError Time
  uuid : String → Option ℕ
  writable : Time → Bool

namespace JsonValue

/-- `str(value)`. -/
def text : JsonValue → String
  | str s => s
  | other text _ => text

/-- `bool(value)`. -/
def truthy : JsonValue → Bool
  | str s => s ≠ ""
  | other _ truthy => truthy

end JsonValue

/-- The name of an exception that leaves the session to be rolled back: a failed flush. -/
def flushFailed : Exn := .other "DBAPIError"

namespace FounderActionService

open FounderActionProposalRepository

variable (settings : Settings) (readers : Readers)

def getProposal (organizationId proposalId : ℕ) : Tx Proposal := do
  match ← get organizationId proposalId with
  | none => raise "founder_proposal.not_found" "Founder proposal not found" 404
  | some proposal => return proposal

def loadActor (actorUserId : Option ℕ) : Tx ℕ := do
  match actorUserId with
  | none => raise "founder_proposal.no_actor" "a founder user is required to act" 400
  | some actorId =>
      let user ← Tx.select (S := automation) Table.user actorId
      if user.isNone then
        raise "founder_proposal.actor_unknown" "actor user not found" 404
      return actorId

/-- `AIService.is_ai_enabled`: a missing organization or malformed settings deny. -/
def isAiEnabled (organizationId : ℕ) : Tx Bool := do
  let org ← Tx.select (S := automation) Table.organization organizationId
  return org.any fun org => org.settingsWellFormed && !org.aiKillSwitch

def assertAiEnabled (organizationId : ℕ) : Tx Unit := do
  let enabled ← isAiEnabled organizationId
  if !enabled then
    raise "ai.disabled" "AI execution is disabled for this organization" 409

/-- `propose`: the request commits before the proposal is inserted. -/
def propose (organizationId : ℕ) (actorUserId conversationId : Option ℕ)
    (actionType : FounderActionType) (title : String) (payload : JsonObject)
    (justification : Option String) (details : Payload) : Tx ℕ := do
  let actorId ← loadActor actorUserId
  let now ← utcnow
  let expiresAt := now + settings.founderApprovalTtlSeconds * second
  let approvalId ← ApprovalService.createRequest
    { organizationId := organizationId
      requestedByUserId := actorId
      workflowId := none
      workflowExecutionId := none
      approverUserId := some actorId
      title := "[Founder] " ++ title
      details := some details
      expiresAt := some expiresAt }
  let proposalId ← Tx.insert (S := automation) (.proposal
    { organizationId := organizationId
      conversationId := conversationId
      approvalRequestId := approvalId
      actionType := actionType
      title := title
      payload := payload
      justification := justification
      expiresAt := expiresAt
      actorUserId := actorId })
  commitWithRetry
  return proposalId

/-- The value of `payload.get(key)`, a JSON null like a missing one. -/
def payloadGet (payload : JsonObject) (key : String) : Option JsonValue :=
  (payload.lookup key).filter (· ≠ .other "None" false)

/-- The priority of the task: `(payload.get("priority") or "medium").lower()`, which has no
`lower` on a value that is no string. -/
def taskPriority (payload : JsonObject) : Tx TaskPriority :=
  match (payloadGet payload "priority").filter (·.truthy) with
  | none => return .medium
  | some (.other _ _) => throw (.other "AttributeError")
  | some (.str raw) =>
      match raw.toLower with
      | "low" => return .low
      | "high" => return .high
      | "urgent" => return .urgent
      | _ => return .medium

/-- When the task is due: a text that is no time is left out, one that overflows is not. -/
def taskDueAt (payload : JsonObject) : Tx (Option Time) :=
  match (payloadGet payload "due_at").filter (·.truthy) with
  | none => return none
  | some raw =>
      match readers.fromisoformat (raw.text.replace "Z" "+00:00") with
      | .ok dueAt => return some dueAt
      | .error .value => return none
      | .error .overflow => throw (.other "OverflowError")

/-- `length(btrim(title)) = 0`. -/
def isBlank (title : String) : Bool := title.toList.all (· = ' ')

/-- A text column: only a string can be bound to it. -/
def textColumn : Option JsonValue → Tx (Option String)
  | none => return none
  | some (.str s) => return some s
  | some (.other _ _) => throw flushFailed

def executeCreateTask (proposal : Proposal) (actorId : ℕ) : Tx JsonObject := do
  let payload := proposal.payload
  let priority ← taskPriority payload
  let dueAt ← taskDueAt readers payload
  let assignee := ((payloadGet payload "assignee_user_id").filter (·.truthy)).bind fun raw =>
    readers.uuid raw.text
  let title ← textColumn
    (((payloadGet payload "title").filter (·.truthy)).or (some (.str proposal.title)))
  let description ← textColumn (payloadGet payload "description")
  -- a time out of the driver's range, and the check on the title
  if dueAt.any (!readers.writable ·) || isBlank (title.getD proposal.title) then
    throw flushFailed
  -- the foreign key on the assignee
  if let some user := assignee then
    let found ← Tx.select (S := automation) Table.user user
    if found.isNone then
      throw flushFailed
  let taskId ← Tx.insert (S := automation) (.task
    { organizationId := proposal.organizationId
      title := title.getD proposal.title
      description := description
      status := .todo
      priority := priority
      dueAt := dueAt
      assigneeUserId := assignee
      createdByUserId := some actorId })
  return [("task_id", .str (toString taskId)), ("title", .str (title.getD proposal.title))]

/-- `FounderActionType.value`. -/
def actionTypeValue : FounderActionType → String
  | .createTask => "create_task"
  | .draftEmail => "draft_email"
  | .sendEmail => "send_email"
  | .runWorkflow => "run_workflow"
  | .export => "export"
  | .general => "general"

/-- `_execute`: an execution reference; only tasks are created here. -/
def execute (proposal : Proposal) (actorId : ℕ) : Tx JsonObject :=
  if proposal.actionType = .createTask then
    executeCreateTask readers proposal actorId
  else
    return [("handled_by", .str "subsystem"),
      ("action_type", .str (actionTypeValue proposal.actionType)),
      ("note", .str "approved; dispatched to the owning subsystem")]

/-- The proposal in memory after the two transitions that record an execution. -/
def recordExecution (proposalId : ℕ) (proposal : Proposal) (outcome : ProposalStatus)
    (actorId : ℕ) (reference : JsonObject) : Tx Proposal := do
  let now ← utcnow
  let executing ← applyTransition proposalId proposal .executing now (some actorId)
  let now ← utcnow
  let recorded ← applyTransition proposalId executing outcome now (some actorId)
  return { recorded with executionReference := some reference }

/-- The approved branch of `decide_proposal`, from the commit of the approval on; after a failed
flush the session refuses the commit that would record the failure. -/
def executeApproved (proposalId : ℕ) (approved : Proposal) (actorId : ℕ) : Tx Unit := do
  let reference ← tryCatch (do return some (← execute readers approved actorId)) fun e =>
    if e = flushFailed then throw (.other "PendingRollbackError") else return none
  match reference with
  | none =>
      let failed ← recordExecution proposalId approved .failed actorId
        [("error", .str "execution failed; see logs")]
      save proposalId approved failed
  | some reference =>
      let succeeded ← recordExecution proposalId approved .succeeded actorId reference
      save proposalId approved succeeded

/-- `decide_proposal`: approve or deny a proposal; on approval, execute the action. -/
def decideProposal (organizationId actorUserId proposalId : ℕ) (approve : Bool)
    (decisionNote : Option String) : Tx Unit := do
  let proposal ← getProposal organizationId proposalId
  assertAiEnabled organizationId
  if proposal.status ≠ .proposed then
    raise "founder_proposal.not_pending"
      ("proposal is " ++ proposal.status.value ++ ", not pending") 409
  let now ← utcnow
  if proposal.expiresAt.any (· < now) then
    let _ ← markExpired organizationId proposalId now
    commitWithRetry
    raise "founder_proposal.expired" "This proposal has expired and can no longer be approved" 409
  match proposal.approvalRequestId with
  | none => raise "founder_proposal.no_approval" "proposal has no linked approval request" 409
  | some approvalId =>
      let actorId ← loadActor (some actorUserId)
      ApprovalService.decide organizationId actorId approvalId approve decisionNote
      let now ← utcnow
      if approve then
        let approved ← applyTransition proposalId proposal .approved now (some actorId)
        save proposalId proposal approved
        executeApproved readers proposalId approved actorId
      else
        let denied ← applyTransition proposalId proposal .denied now (some actorId)
        save proposalId proposal denied

/-- The body of the expiry loops: 1 when the proposal was expired. -/
def expireOne (now : Time) (organizationId proposalId : ℕ) (proposal : Proposal) : Tx ℕ := do
  if ← markExpired organizationId proposalId now then
    if let some approvalId := proposal.approvalRequestId then
      let _ ← ApprovalRequestRepository.markExpired organizationId approvalId now
    return 1
  else
    return 0

/-- `expire_due`: expire open proposals past their expiry, and their approvals. -/
def expireDue (organizationId : ℕ) (now : Option Time) : Tx ℕ := do
  let now ← match now with
    | some now => pure now
    | none => utcnow
  let due ← listPendingExpired organizationId now 200
  if due.isEmpty then
    return 0
  let handled ← Prog.tally due fun row => expireOne now organizationId row.1 row.2
  if 0 < handled then
    commitWithRetry
  return handled

/-- `expire_due_all`: the global sweep, organization by organization. -/
def expireDueAll (now : Option Time) : Tx ℕ := do
  let now ← match now with
    | some now => pure now
    | none => utcnow
  let due ← listPendingExpiredAll now 500
  if due.isEmpty then
    return 0
  let handled ← Prog.tally (due.map (·.2.organizationId)).eraseDups fun org =>
    Prog.tally (due.filter (·.2.organizationId = org)) fun row => expireOne now org row.1 row.2
  if 0 < handled then
    commitWithRetry
  return handled

end FounderActionService

end Automation
