import AgencyOS.Automation.EventFanout
import AgencyOS.Growth.Recommendations
import AgencyOS.Orm.UnitOfWork
import AgencyOS.Outbox.Enqueue
import AgencyOS.Tasks.TaskService
import AgencyOS.Team.TeamService

/-!
New entities, and the rows that are written beside them.

Each of these calls makes its checks, adds an entity with the rows that describe it, and commits.  A row
that names the entity is built before the flush that draws the key of the entity.

* `Row`, `model`: the rows, what they refer to, and what must be given;
* `enqueue`, `queue`, `createTask`, `createInvite`, `runFullAnalysis`: the calls;
* `Call`, `Call.run`: a call on the database that its rows meet.
-/

namespace Services.References

open Automation Orm

/-! ### Rows -/

inductive Kind where
  | organization | user | lead | notification | approvalRequest | workflow | trigger
  | delivery | deliveryEvent | execution | activityLog | task | teamInvite
  | growthAnalysis | growthRecommendation
  deriving DecidableEq, Repr

/-- A value of the metadata: a null, a text, or the text of an id. -/
inductive Entry where
  | null
  | str (text : String)
  | uuid (id : ℕ)
  deriving DecidableEq, Repr

/-- `str(id)`. -/
def pyStr : Option ℕ → Entry
  | some id => .uuid id
  | none => .str "None"

/-- `str(id) if id else None`. -/
def strOrNull : Option ℕ → Entry
  | some id => .uuid id
  | none => .null

@[simp] lemma pyStr_none : pyStr none = .str "None" := rfl

@[simp] lemma uuid_eq_strOrNull {id : ℕ} {value : Option ℕ} :
    Entry.uuid id = strOrNull value ↔ value = some id := by
  cases value <;> simp [strOrNull, eq_comm]

inductive DeliveryEventType where
  | queued
  deriving DecidableEq, Repr

structure DeliveryEvent where
  organizationId : ℕ
  deliveryId : Option ℕ
  eventType : DeliveryEventType
  attempt : ℕ
  metadata : List (String × Entry)
  deriving DecidableEq, Repr

inductive ActivityEventType where
  | executionQueued | taskCreated | userInvited
  deriving DecidableEq, Repr

structure ActivityLog where
  organizationId : ℕ
  userId : Option ℕ
  leadId : Option ℕ
  eventType : ActivityEventType
  entityType : String
  entityId : Option ℕ
  description : String
  metadata : List (String × Entry)
  occurredAt : Time
  deriving DecidableEq, Repr

/-- A task that is added. -/
structure NewTask where
  organizationId : ℕ
  leadId : Option ℕ
  assigneeUserId : Option ℕ
  createdByUserId : ℕ
  title : String
  description : Option String
  status : Tasks.TaskStatus
  priority : Tasks.TaskPriority
  dueAt : Option Python.Datetime
  reminderAt : Option Python.Datetime
  recurrenceFrequency : Option Tasks.RecurrenceFrequency
  recurrenceInterval : Option ℕ
  deriving DecidableEq, Repr

inductive GrowthAnalysisType where
  | health | kpis | pipeline | funnel | conversion | revenue | activity | bottlenecks | opportunities
  | trends
  deriving DecidableEq, Repr

inductive GrowthAnalysisStatus where
  | completed | failed
  deriving DecidableEq, Repr

/-- An analysis; what its engine has found is not read again. -/
structure GrowthAnalysis where
  organizationId : ℕ
  analysisType : GrowthAnalysisType
  status : GrowthAnalysisStatus
  periodStart : Python.Datetime
  periodEnd : Python.Datetime
  healthScore : Option ℚ
  error : Option String
  generatedBy : String
  deriving DecidableEq, Repr

structure GrowthRecommendation where
  organizationId : ℕ
  recommendationType : String
  priority : Growth.RecommendationPriority
  confidence : Growth.RecommendationPriority
  status : Growth.RecommendationStatus
  title : String
  summary : String
  rationale : String
  actionType : String
  metricTarget : String
  sourceAnalysisId : Option ℕ
  deriving DecidableEq, Repr

inductive Row where
  | delivery (r : Outbox.Delivery)
  | deliveryEvent (r : DeliveryEvent)
  | execution (r : Execution)
  | activityLog (r : ActivityLog)
  | task (r : NewTask)
  | teamInvite (r : Team.TeamInvite)
  | growthAnalysis (r : GrowthAnalysis)
  | growthRecommendation (r : GrowthRecommendation)

def Row.kind : Row → Kind
  | delivery _ => .delivery
  | deliveryEvent _ => .deliveryEvent
  | execution _ => .execution
  | activityLog _ => .activityLog
  | task _ => .task
  | teamInvite _ => .teamInvite
  | growthAnalysis _ => .growthAnalysis
  | growthRecommendation _ => .growthRecommendation

/-- A foreign key that may be null. -/
def reference (kind : Kind) (id : Option ℕ) : List (Kind × ℕ) := (id.map fun id => (kind, id)).toList

@[simp] lemma mem_reference {kind kind' : Kind} {id : ℕ} {id' : Option ℕ} :
    (kind, id) ∈ reference kind' id' ↔ kind = kind' ∧ id' = some id := by
  cases id' <;> simp [reference, eq_comm]

/-- The foreign keys. -/
def Row.references : Row → List (Kind × ℕ)
  | delivery r => (.organization, r.organizationId) :: reference .user r.recipientUserId
      ++ reference .notification r.notificationId ++ reference .approvalRequest r.approvalRequestId
  | deliveryEvent r => (.organization, r.organizationId) :: reference .delivery r.deliveryId
  | execution r => (.organization, r.organizationId) :: (.workflow, r.workflowId)
      :: reference .trigger r.triggerId ++ reference .user r.requestedByUserId
  | activityLog r => (.organization, r.organizationId) :: reference .user r.userId
      ++ reference .lead r.leadId
  | task r => (.organization, r.organizationId) :: (.user, r.createdByUserId)
      :: reference .lead r.leadId ++ reference .user r.assigneeUserId
  | teamInvite r => (.organization, r.organizationId) :: reference .user r.invitedByUserId
  | growthAnalysis r => [(.organization, r.organizationId)]
  | growthRecommendation r =>
      (.organization, r.organizationId) :: reference .growthAnalysis r.sourceAnalysisId

/-- No column that must be given is null: the foreign key of an event is one. -/
def Row.complete : Row → Bool
  | deliveryEvent r => r.deliveryId.isSome
  | _ => true

@[reducible] def model : Model Kind Row := ⟨Row.kind, Row.references, Row.complete⟩

/-- How a call ends: its rows are committed, it returns without a commit, or it raises. -/
inductive Outcome where
  | committed (rows : List (ℕ × Row))
  | returned
  | raised (e : Exn)

/-! ### Deliveries -/

/-- A call of `enqueue`, and what it finds: the delivery under its key, how many are pending, and, when
its rows are written, whether a delivery stands under the key. -/
structure EnqueueCall where
  settings : Outbox.EnqueueSettings
  dumps : JsonObject → String
  data : Outbox.NewDelivery
  existing : Option ℕ
  pending : ℕ
  now : Time
  taken : Bool

namespace EnqueueCall

variable (c : EnqueueCall)

/-- The key that is not empty. -/
def key : Option String := c.data.idempotencyKey.filter fun key => key ≠ ""

/-- The checks before the key is looked up. -/
def refusal : Option Exn :=
  if !Outbox.DeliveryService.providerAvailable c.data.channel then
    some (.app ⟨"provider.not_configured", "No provider shipped for channel '"
      ++ Outbox.DeliveryWorker.channelValue c.data.channel ++ "'", 422⟩ false)
  else if Outbox.DeliveryService.payloadTooLarge c.settings c.dumps c.data.payload then
    some (.app ⟨"delivery.payload_too_large", "Delivery payload exceeds the maximum allowed size", 422⟩
      false)
  else none

/-- The pending cap. -/
def overCap : Bool :=
  0 < c.settings.deliveryMaxPendingPerOrg && c.settings.deliveryMaxPendingPerOrg ≤ c.pending

/-- What is reported of a concurrent duplicate. -/
def duplicate : Exn :=
  .app ⟨"delivery.duplicate_idempotency_key", "A delivery with this idempotency key already exists", 409⟩
    true

/-- The initial event. -/
def event (deliveryId : Option ℕ) : DeliveryEvent where
  organizationId := c.data.organizationId
  deliveryId := deliveryId
  eventType := .queued
  attempt := 0
  metadata := c.key.elim [] fun key => [("idempotency_key", .str key)]

variable (db : Database model)

/-- The delivery and its event, added. -/
def added : Session Row :=
  let (delivery, session) :=
    (Session.begin db).add (.delivery (c.data.row c.settings.deliveryMaxAttempts c.now))
  (session.add (.deliveryEvent (c.event (session.idOf delivery)))).2

end EnqueueCall

/-- `enqueue`. -/
def enqueue (c : EnqueueCall) (db : Database model) : Outcome :=
  match c.refusal with
  | some e => .raised e
  | none =>
      if c.key.isSome && c.existing.isSome then .returned
      else if c.overCap then
        .raised (.app ⟨"delivery.pending_cap_exceeded", "Per-org pending cap ("
          ++ toString c.settings.deliveryMaxPendingPerOrg ++ ") exceeded", 429⟩ false)
      else
        match (c.added db).commit db with
        | some rows => .committed rows
        | none => .raised (if c.key.isSome then EnqueueCall.duplicate else .other "IntegrityError")

/-! ### Executions -/

structure ExecutionCreate where
  organizationId : Option ℕ
  workflowId : ℕ
  triggerId : Option ℕ
  input : Payload
  maxAttempts : ℕ
  retryDelaySeconds : ℕ
  retryBackoff : RetryBackoff
  traceId : Option ℕ
  idempotencyKey : Option String
  deriving DecidableEq, Repr

/-- A call of `queue`, and what it finds: the kill switch, the workflow with its name, and how many
executions are pending; `drawnTraceId` is what `uuid4` draws for a trace. -/
structure QueueCall where
  settings : Settings
  killSwitch : WorkflowEventService.KillSwitch
  data : ExecutionCreate
  requestedByUserId : Option ℕ
  bypassPendingCap : Bool
  workflow : Option (String × WorkflowStatus)
  pending : ℕ
  drawnTraceId : ℕ
  now : Time

namespace QueueCall

variable (c : QueueCall)

/-- The checks: an error, or the organization and the name of the workflow. -/
def checked : Except AppError (ℕ × String) :=
  match WorkflowEventService.blockQueueIfPaused c.killSwitch with
  | some e => .error e
  | none =>
      match c.data.organizationId with
      | none => .error ⟨"execution.organization_required", "organization_id is required", 400⟩
      | some organizationId =>
          match c.workflow with
          | none => .error ⟨"workflow.not_found", "Workflow not found", 404⟩
          | some (name, status) =>
              if status ≠ .active then
                .error ⟨"workflow.not_active", "Only active workflows can be queued", 400⟩
              else if !c.bypassPendingCap && c.settings.executionMaxPendingPerOrg ≤ c.pending then
                .error ⟨"execution.pending_cap_exceeded",
                  "Organization has too many pending executions ("
                    ++ toString c.settings.executionMaxPendingPerOrg ++ " max)", 409⟩
              else .ok (organizationId, name)

/-- The execution. -/
def execution (organizationId : ℕ) : Execution :=
  NewExecution.row
    { organizationId := organizationId
      workflowId := c.data.workflowId
      triggerId := c.data.triggerId
      input := c.data.input
      maxAttempts := c.data.maxAttempts
      retryDelaySeconds := c.data.retryDelaySeconds
      retryBackoff := c.data.retryBackoff
      requestedByUserId := c.requestedByUserId
      traceId := some (c.data.traceId.getD c.drawnTraceId)
      idempotencyKey := c.data.idempotencyKey
      createdAt := c.now }

/-- `_audit`, of an execution with the key `executionId`. -/
def log (organizationId : ℕ) (name : String) (executionId : Option ℕ) : ActivityLog where
  organizationId := organizationId
  userId := c.requestedByUserId
  leadId := none
  eventType := .executionQueued
  entityType := "workflow_execution"
  entityId := executionId
  description := "Queued execution for workflow '" ++ name ++ "' (attempt 1)"
  metadata := [("execution_id", pyStr executionId), ("workflow_id", .uuid c.data.workflowId),
    ("trigger_id", strOrNull c.data.triggerId), ("actor", strOrNull c.requestedByUserId),
    ("duration_ms", .null)]
  occurredAt := c.now

/-- The execution and its record, added. -/
def added (db : Database model) (organizationId : ℕ) (name : String) : Session Row :=
  let (execution, session) := (Session.begin db).add (.execution (c.execution organizationId))
  (session.add (.activityLog (c.log organizationId name (session.idOf execution)))).2

/-- What is raised when the database refuses the execution. -/
def refused : AppError :=
  if c.data.idempotencyKey.any fun key => key ≠ "" then
    ⟨"execution.duplicate_idempotency_key", "An execution with this idempotency key already exists", 409⟩
  else ⟨"execution.create_failed", "Could not create workflow execution", 409⟩

end QueueCall

/-- `queue`; the best-effort timeline is left out. -/
def queue (c : QueueCall) (db : Database model) : Outcome :=
  match c.checked with
  | .error e => .raised (.app e false)
  | .ok (organizationId, name) =>
      match (c.added db organizationId name).commit db with
      | some rows => .committed rows
      | none => .raised (.app c.refused true)

/-! ### Tasks -/

/-- A call of `TaskService.create`, and the tables that its checks read. -/
structure TaskCall where
  organizationId : ℕ
  actorId : ℕ
  title : String
  description : Option String
  leadId : Option ℕ
  assigneeUserId : Option ℕ
  dueAt : Option Python.Datetime
  reminderAt : Option Python.Datetime
  priority : Tasks.TaskPriority
  recurrenceFrequency : Option Tasks.RecurrenceFrequency
  recurrenceInterval : Option ℕ
  tables : Tasks.Tables
  isoformat : Python.Datetime → String
  now : Time

namespace TaskCall

variable (c : TaskCall)

/-- `recurrence_interval or 1` where there is a frequency. -/
def interval : Option ℕ :=
  if c.recurrenceFrequency.isSome then some ((c.recurrenceInterval.filter fun n => n ≠ 0).getD 1)
  else c.recurrenceInterval

/-- `_validate_recurrence`. -/
def validateRecurrence : Except Tasks.Exn Unit :=
  if c.recurrenceFrequency.isNone && c.interval.isSome then
    .error (.appError "task.recurrence_requires_frequency"
      "A recurrence interval requires a recurrence frequency" 400)
  else .ok ()

/-- The checks, and the task. -/
def checked : Except Tasks.Exn NewTask := do
  let title ← Tasks.cleanTitle c.title
  c.leadId.elim (.ok ()) fun leadId => Tasks.validateLead c.tables c.organizationId leadId
  c.assigneeUserId.elim (.ok ()) fun userId => Tasks.validateAssignee c.tables c.organizationId userId
  Tasks.validateSchedule c.dueAt c.reminderAt
  c.validateRecurrence
  return {
    organizationId := c.organizationId
    leadId := c.leadId
    assigneeUserId := c.assigneeUserId
    createdByUserId := c.actorId
    title := title
    description := c.description
    status := .todo
    priority := c.priority
    dueAt := c.dueAt
    reminderAt := c.reminderAt
    recurrenceFrequency := c.recurrenceFrequency
    recurrenceInterval := c.interval }

/-- The record of a new task. -/
def log (taskId : Option ℕ) : ActivityLog where
  organizationId := c.organizationId
  userId := some c.actorId
  leadId := c.leadId
  eventType := .taskCreated
  entityType := "task"
  entityId := taskId
  description := "Task created"
  metadata := [("assignee_user_id", strOrNull c.assigneeUserId),
    ("due_at", c.dueAt.elim .null fun dueAt => .str (c.isoformat dueAt))]
  occurredAt := c.now

/-- The task and its record, added. -/
def added (db : Database model) (newTask : NewTask) : Session Row :=
  let (task, session) := (Session.begin db).add (.task newTask)
  (session.add (.activityLog (c.log (session.idOf task)))).2

end TaskCall

/-- `TaskService.create`. -/
def createTask (c : TaskCall) (db : Database model) : Outcome :=
  match c.checked with
  | .error (.appError code message statusCode) => .raised (.app ⟨code, message, statusCode⟩ false)
  | .error _ => .raised (.other "Exception")
  | .ok newTask =>
      match (c.added db newTask).commit db with
      | some rows => .committed rows
      | none => .raised (.other "IntegrityError")

/-! ### Invites -/

/-- `role.value`. -/
def roleValue : Accounts.UserRole → String
  | .owner => "owner"
  | .admin => "admin"
  | .manager => "manager"
  | .salesAgent => "sales_agent"
  | .member => "member"
  | .viewer => "viewer"

/-- A call of `create_invite`, and what it finds: a user, or a pending invite, under the address. -/
structure InviteCall where
  env : Team.Env
  organizationId : ℕ
  actorId : ℕ
  actorRole : Accounts.UserRole
  email : String
  fullName : Option String
  role : Accounts.UserRole
  rawToken : String
  userExists : Bool
  inviteExists : Bool
  now : Time

namespace InviteCall

variable (c : InviteCall)

def address : String := c.env.lower (c.env.strip c.email)

/-- The checks. -/
def refusal : Option AppError :=
  if Team.roleCanInvite c.actorRole c.role = false then
    some ⟨"team.invite_role_denied", "You cannot invite a member with that role", 403⟩
  else if c.userExists then some ⟨"team.user_exists", "A user with that email already exists", 409⟩
  else if c.inviteExists then
    some ⟨"team.invite_exists", "A pending invite for that email already exists", 409⟩
  else none

/-- The invite. -/
def invite : Team.TeamInvite :=
  Team.NewInvite.row
    { organizationId := c.organizationId
      email := c.address
      fullName := c.fullName
      role := c.role
      tokenHash := c.env.sha256 c.rawToken
      invitedByUserId := c.actorId
      expiresAt := c.now + Team.inviteTtlDays * (86400 * second) }

/-- The record of an invitation. -/
def log (inviteId : Option ℕ) : ActivityLog where
  organizationId := c.organizationId
  userId := some c.actorId
  leadId := none
  eventType := .userInvited
  entityType := "team_invite"
  entityId := inviteId
  description := "Invited " ++ c.address ++ " as " ++ roleValue c.role
  metadata := [("email", .str c.address), ("role", .str (roleValue c.role))]
  occurredAt := c.now

/-- The invite and its record, added. -/
def added (db : Database model) : Session Row :=
  let (invite, session) := (Session.begin db).add (.teamInvite c.invite)
  (session.add (.activityLog (c.log (session.idOf invite)))).2

end InviteCall

/-- `create_invite`. -/
def createInvite (c : InviteCall) (db : Database model) : Outcome :=
  match c.refusal with
  | some e => .raised (.app e false)
  | none =>
      match (c.added db).commit db with
      | some rows => .committed rows
      | none => .raised (.app ⟨"team.invite_failed", "Could not create the invite", 409⟩ true)

/-! ### Analyses -/

/-- `_ALL_TYPES`. -/
def allTypes : List GrowthAnalysisType :=
  [.health, .kpis, .pipeline, .funnel, .conversion, .revenue, .activity, .bottlenecks, .opportunities,
    .trends]

/-- A call of `run_full_analysis`, and what it finds: the snapshot of the organization; `failure` is the
error of an engine that raises, and `text` the text of a number. -/
structure AnalysisCall where
  organizationId : ℕ
  periodStart : Python.Datetime
  periodEnd : Python.Datetime
  generatedBy : String
  context : Growth.GrowthContext
  round : ℚ → ℕ → ℚ
  text : ℚ → String
  failure : GrowthAnalysisType → Option String

namespace AnalysisCall

variable (c : AnalysisCall)

/-- A result, unless its engine raises. -/
def result {α : Type} (analysisType : GrowthAnalysisType) (details : α) : Option α :=
  if (c.failure analysisType).isSome then none else some details

/-- The results that the recommendations read. -/
def results : Growth.Results where
  bottlenecks := c.result .bottlenecks (Growth.computeBottlenecks c.round c.context)
  conversion := c.result .conversion (Growth.computeConversion c.round c.context)
  activity := c.result .activity (Growth.computeActivity c.round c.context)
  trends := c.result .trends (Growth.computeTrends c.round c.context)
  revenue := c.result .revenue (Growth.computeRevenue c.round c.context)
  health := c.result .health (Growth.computeHealth c.round c.context)

/-- The analysis of one type. -/
def analysis (analysisType : GrowthAnalysisType) : GrowthAnalysis where
  organizationId := c.organizationId
  analysisType := analysisType
  status := if (c.failure analysisType).isSome then .failed else .completed
  periodStart := c.periodStart
  periodEnd := c.periodEnd
  healthScore := if analysisType = .health then c.results.health.map (·.score) else none
  error := c.failure analysisType
  generatedBy := c.generatedBy

/-- `_persist_analysis` for every type, each with its place in the session. -/
def persistEach : List GrowthAnalysisType → Session Row → List (ℕ × GrowthAnalysis) × Session Row
  | [], session => ([], session)
  | analysisType :: types, session =>
      let (object, session) := session.add (.growthAnalysis (c.analysis analysisType))
      let (analyses, session) := persistEach types session
      ((object, c.analysis analysisType) :: analyses, session)

/-- `_add_recommendation`. -/
def recommendation (anchor : Option ℕ) (item : Growth.Recommendation) : GrowthRecommendation where
  organizationId := c.organizationId
  recommendationType := item.type
  priority := item.priority
  confidence := item.priority
  status := item.status
  title := item.summary
  summary := item.description
  rationale := item.action
  actionType := item.type
  metricTarget := item.metricTarget
  sourceAnalysisId := anchor

def addEach (anchor : Option ℕ) : List Growth.Recommendation → Session Row → Session Row
  | [], session => session
  | item :: items, session =>
      addEach anchor items (session.add (.growthRecommendation (c.recommendation anchor item))).2

/-- The id of the completed analysis of the health. -/
def anchor (analyses : List (ℕ × GrowthAnalysis)) (session : Session Row) : Option ℕ :=
  (analyses.find? fun a => a.2.analysisType = .health && a.2.status = .completed).bind fun a =>
    session.idOf a.1

/-- The analyses and the recommendations, added. -/
def added (db : Database model) : Session Row :=
  let (analyses, session) := c.persistEach allTypes (Session.begin db)
  c.addEach (anchor analyses session) (Growth.generateRecommendations c.round c.text c.results) session

end AnalysisCall

/-- `run_full_analysis`. -/
def runFullAnalysis (c : AnalysisCall) (db : Database model) : Outcome :=
  match (c.added db).commit db with
  | some rows => .committed rows
  | none => .raised (.other "IntegrityError")

/-! ### Calls -/

inductive Call where
  | enqueue (c : EnqueueCall)
  | queue (c : QueueCall)
  | createTask (c : TaskCall)
  | createInvite (c : InviteCall)
  | runFullAnalysis (c : AnalysisCall)

/-- A call on the database that its rows meet. -/
def Call.run (db : Database model) : Call → Outcome
  | enqueue c => References.enqueue c db
  | queue c => References.queue c db
  | createTask c => References.createTask c db
  | createInvite c => References.createInvite c db
  | runFullAnalysis c => References.runFullAnalysis c db

end Services.References
