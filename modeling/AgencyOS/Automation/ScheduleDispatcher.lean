import AgencyOS.Automation.ExecutionService
import AgencyOS.Automation.ScheduleCron
import AgencyOS.Txn.Extend
import AgencyOS.Txn.OrderBy

/-!
The dispatcher of schedule triggers.

A pass selects enabled triggers of active workflows, those that fired longest ago first.  For each that
is due it writes the time of the pass to the trigger, by an `UPDATE` that matches only if the trigger
has not fired since, and queues an execution.  The queueing commits both; one that is refused rolls back to
the savepoint before the `UPDATE`, which is all that is uncommitted then.

* `WorkflowTrigger`, `triggers`, `scheduling`: the table, the extension and the schema;
* `listEnabledSchedules`, `reserveLastFired`: the repository;
* `dispatchTrigger`, `dispatchDue`: one trigger, and a pass;
* `Dispatcher`: a pass with its clock, in a session of its own.
-/

namespace Automation.ScheduleDispatcher

open Txn ScheduleCron

/-! ### The schema -/

inductive WorkflowTriggerType where
  | manual | event | schedule
  deriving DecidableEq, Repr

structure WorkflowTrigger where
  organizationId : ℕ
  workflowId : ℕ
  triggerType : WorkflowTriggerType
  scheduleCron : Option String
  config : Payload
  enabled : Bool
  lastFiredAt : Option Time
  createdAt : Time
  deriving DecidableEq, Repr

/-- `reserve_last_fired`: only if the trigger has never fired, or before the fire time. -/
def WorkflowTrigger.reserve (fireTime now : Time) : GuardedUpdate WorkflowTrigger where
  guard r := r.lastFiredAt.all (· < fireTime)
  set r := { r with lastFiredAt := some now }

/-- Those that never fired first, and then by the time of the last fire. -/
def WorkflowTrigger.rank (r : WorkflowTrigger) : WithBot Time ×ₗ Time :=
  toLex (r.lastFiredAt, r.createdAt)

inductive TriggerTable where
  | workflowTriggers
  deriving DecidableEq, Repr

inductive TriggerUpdate where
  | reserveLastFired (fireTime now : Time)
  deriving DecidableEq, Repr

def TriggerUpdate.act : TriggerUpdate → GuardedUpdate WorkflowTrigger
  | reserveLastFired fireTime now => WorkflowTrigger.reserve fireTime now

/-- The two sides of the join of `list_enabled_schedules`. -/
inductive TriggerQuery where
  | enabledSchedules
  | activeWorkflows
  deriving DecidableEq, Repr

/-- The table of triggers. -/
@[reducible] def triggers : Extension automation where
  Table := TriggerTable
  Row := fun _ => WorkflowTrigger
  Update := TriggerUpdate
  target := fun _ => .inr .workflowTriggers
  act := TriggerUpdate.act
  Insert := Empty
  into := nofun
  new := nofun
  Query := TriggerQuery
  source
    | .enabledSchedules => .inr .workflowTriggers
    | .activeWorkflows => .inl .workflow
  matching
    | .enabledSchedules => fun r : WorkflowTrigger => r.triggerType = .schedule && r.enabled
    | .activeWorkflows => fun r : Workflow => r.status = .active

/-- The automation database with the triggers. -/
@[reducible] def scheduling : Schema := automation.extend triggers

abbrev ScheduleTx (α : Type) : Type := Txn.Tx scheduling Exn α

abbrev ScheduleStore (ι : Type) : Type := Db scheduling ι

/-- The table of executions, and that of triggers. -/
abbrev executionsTable : scheduling.Table := .inl .execution

abbrev triggersTable : scheduling.Table := .inr .workflowTriggers

/-! ### Repository -/

/-- An order in which the database gives the triggers that it has selected. -/
structure Answer where
  order : List (ℕ × WorkflowTrigger) → List (ℕ × WorkflowTrigger)
  ordered : ∀ rows, OrderedBy (fun row => row.2.rank) rows (order rows)

/-- `list_enabled_schedules`. -/
def listEnabledSchedules (answer : Answer) (limit : ℕ) : ScheduleTx (List (ℕ × WorkflowTrigger)) := do
  let rows ← Tx.scan (S := scheduling) (.inr .enabledSchedules)
  let workflows ← Tx.scan (S := scheduling) (.inr .activeWorkflows)
  let joined := rows.filter fun row => (workflows.map (·.1)).contains row.2.workflowId
  return (answer.order joined).take limit

/-- `reserve_last_fired`. -/
def reserveLastFired (triggerId : ℕ) (fireTime now : Time) : ScheduleTx Bool := do
  let row ← Tx.update (S := scheduling) (.inr (.reserveLastFired fireTime now)) triggerId
  return row.isSome

/-! ### Service -/

variable (settings : Settings) (input : Payload → Time → Payload)

/-- The execution of a tick; `input` is the text of the trigger's config with the time of the fire. -/
def tickExecution (row : ℕ × WorkflowTrigger) (fireTime createdAt : Time) : NewExecution where
  organizationId := row.2.organizationId
  workflowId := row.2.workflowId
  triggerId := some row.1
  input := input row.2.config fireTime
  maxAttempts := 3
  retryDelaySeconds := 60
  retryBackoff := .exponential
  requestedByUserId := none
  traceId := none
  idempotencyKey := none
  createdAt := createdAt

/-- How a trigger is counted. -/
inductive Outcome where
  | queued | failed | skipped | conflict
  deriving DecidableEq, Repr

/-- The fire time for which a trigger is due. -/
def dueAt (now : Time) (trigger : WorkflowTrigger) : Except FireError (Option Time) :=
  match trigger.scheduleCron with
  | none => .ok none
  | some cron =>
      match previousFire cron now with
      | .error (.valueError _) => .ok none
      | .error .overflowError => .error .overflowError
      | .ok fireTime => .ok (fireTime.filter fun fireTime => trigger.lastFiredAt.all (· < fireTime))

/-- The reservation and the queueing inside of the savepoint, and what follows a failure: after a
rollback of the session the trigger can no longer be read. -/
def reserveAndQueue (row : ℕ × WorkflowTrigger) (fireTime now createdAt : Time) (refused : Bool) :
    ScheduleTx Outcome :=
  Prog.tryCatch (do
    let reserved ← reserveLastFired row.1 fireTime now
    if reserved then
      let data := tickExecution input row fireTime createdAt
      let _ ← Tx.lift triggers (WorkflowExecutionService.queue settings data false refused)
      return .queued
    else
      return .conflict)
    fun e =>
      match e with
      | .app _ false => do
          Tx.rollback
          return .failed
      | .app _ true => throw .missingGreenlet
      | e => throw e

/-- One trigger of the batch. -/
def dispatchTrigger (now createdAt : Time) (refused : ℕ → Bool) (row : ℕ × WorkflowTrigger) :
    ScheduleTx Outcome :=
  match dueAt now row.2 with
  | .error _ => throw (.other "OverflowError")
  | .ok none => return .skipped
  | .ok (some fireTime) => reserveAndQueue settings input row fireTime now createdAt (refused row.1)

/-- The counts of a pass. -/
structure Stats where
  scanned : ℕ
  queued : ℕ
  failed : ℕ
  skipped : ℕ
  conflicts : ℕ
  deriving DecidableEq, Repr

def Stats.count (stats : Stats) : Outcome → Stats
  | .queued => { stats with queued := stats.queued + 1 }
  | .failed => { stats with failed := stats.failed + 1 }
  | .skipped => { stats with skipped := stats.skipped + 1 }
  | .conflict => { stats with conflicts := stats.conflicts + 1 }

/-- The loop over the batch. -/
def dispatchEach (now createdAt : Time) (refused : ℕ → Bool) :
    List (ℕ × WorkflowTrigger) → Stats → ScheduleTx Stats
  | [], stats => return stats
  | row :: rows, stats => do
      let outcome ← dispatchTrigger settings input now createdAt refused row
      dispatchEach now createdAt refused rows (stats.count outcome)

/-- `dispatch_due`. -/
def dispatchDue (answer : Answer) (limit : ℕ) (now createdAt : Time) (refused : ℕ → Bool) :
    ScheduleTx Stats := do
  if ← Tx.lift triggers AutomationControlService.isEnabled then
    let batch ← listEnabledSchedules answer limit
    dispatchEach settings input now createdAt refused batch ⟨batch.length, 0, 0, 0, 0⟩
  else
    return ⟨0, 0, 0, 0, 0⟩

/-- A pass: the answer and the limit of its selection, the clock of the dispatcher and that of the
database, and which executions a constraint refuses. -/
structure Dispatcher where
  answer : Answer
  limit : ℕ
  now : Time
  createdAt : Time
  refused : ℕ → Bool

/-- The pass in a session of its own. -/
def Dispatcher.program (d : Dispatcher) : ScheduleTx Unit :=
  (Txn.Tx.withSession (dispatchDue settings input d.answer d.limit d.now d.createdAt d.refused)).bind
    fun _ => .ret ()

end Automation.ScheduleDispatcher
