import AgencyOS.Agents.StateMachine

/-!
The agent service and the sweeps of the agent worker as programs.

Every operation reads the run, checks the transition against the table, issues one guarded
`UPDATE` (some with a fallback), writes the duration and commits.  A row that the session has loaded
before is not refreshed by a second read, so every operation takes the row already loaded in its
session, if any.

* `runtime`: the schema of agent runs;
* `AgentRunRepository`: the reads and the guarded `UPDATE`s;
* `AgentService`: `updateRun`, `startRun`, `completeRun`, `failRun`, `failQueuedRun`, `cancelRun`,
  `applyCancel`;
* `AgentRuntime.executeRun`: one run claimed, executed and landed;
* `AgentWorker`: `processCancels`, `reconcileStuck`.
-/

namespace Agents

open Txn Automation

/-! ### The schema -/

inductive Table where
  | agentRun
  deriving DecidableEq, Repr

@[reducible] def Row : Table → Type
  | .agentRun => AgentRun

/-- The `UPDATE`s of `agent_runs`. -/
inductive Update where
  | transition (t : Transition)
  | flush (m : Metadata)
  deriving DecidableEq, Repr

def Update.act : Update → GuardedUpdate AgentRun
  | transition t => t.update
  | flush m => AgentRun.flush m

inductive Query where
  | getCancelRequested
  | getStuckRunning (timeoutSeconds : ℕ) (now : Time)
  deriving DecidableEq, Repr

/-- The conditions of the bulk reads; the cutoff of `get_stuck_running` is
`now - AGENT_RUN_TIMEOUT_SECONDS`. -/
def Query.matching : Query → AgentRun → Bool
  | getCancelRequested, r => r.status = .running && r.cancelRequestedAt.isSome
  | getStuckRunning timeoutSeconds now, r =>
      r.status = .running && r.startedAt.any fun t => t + timeoutSeconds * second < now

/-- The database of the agent runtime. -/
@[reducible] def runtime : Schema where
  Table := Table
  Row := Row
  Update := Update
  target := fun _ => .agentRun
  act := Update.act
  Insert := NewRun
  into := fun _ => .agentRun
  new := NewRun.row
  Query := Query
  source := fun _ => .agentRun
  matching := Query.matching

/-- A program on the database of the agent runtime. -/
abbrev Tx (α : Type) : Type := Txn.Tx runtime Exn α

abbrev Database (ι : Type) : Type := Db runtime ι

abbrev Happened (ι : Type) : Type := Event (sql runtime) ι (Database ι)

abbrev Sessions (ι α : Type) : Type := Pool (sql runtime) ι (Database ι) Exn α

abbrev postgres (ι : Type) [DecidableEq ι] : Server (sql runtime) ι (Database ι) :=
  server runtime ι

def raise {α : Type} (code message : String) (statusCode : ℕ) : Tx α :=
  throw (.app ⟨code, message, statusCode⟩ false)

/-- `await session.rollback()`, then raise an `AppError`. -/
def rollbackAndRaise {α : Type} (code message : String) (statusCode : ℕ) : Tx α := do
  Tx.rollback
  throw (.app ⟨code, message, statusCode⟩ true)

/-- One call in a session of its own, its response ignored. -/
def client {α : Type} (p : Tx α) : Tx Unit := (Txn.Tx.withSession p).bind fun _ => .ret ()

/-! ### Repository -/

namespace AgentRunRepository

/-- `get_or_404`: a row already loaded in the session is returned as it was loaded. -/
def getOr404 (loaded : Option AgentRun) (organizationId runId : ℕ) : Tx AgentRun := do
  let row ← Tx.select (S := runtime) Table.agentRun runId
  match row.filter (·.organizationId = organizationId) with
  | none => raise "agent_runs.not_found" "AgentRun not found" 404
  | some run => return loaded.getD run

/-- A guarded `UPDATE .. RETURNING` of one run. -/
def transition (runId : ℕ) (t : Transition) : Tx (Option AgentRun) :=
  Tx.update (S := runtime) (.transition t) runId

def getCancelRequested (limit : ℕ) : Tx (List (ℕ × AgentRun)) := do
  let rows ← Tx.scan (S := runtime) .getCancelRequested
  return (rows.insertionSort fun a b => a.2.cancelRequestedAt.getD 0 ≤ b.2.cancelRequestedAt.getD 0
    ).take limit

def getStuckRunning (timeoutSeconds : ℕ) : Tx (List (ℕ × AgentRun)) := do
  let now ← Tx.now
  Tx.scan (S := runtime) (.getStuckRunning timeoutSeconds now)

end AgentRunRepository

/-! ### Service -/

namespace AgentService

open AgentRunRepository

/-- `assert_transition`. -/
def assertTransition (fromStatus toStatus : AgentRunStatus) : Tx Unit :=
  if fromStatus.canTransition toStatus then
    return
  else
    raise "agent_run.illegal_transition"
      ("Illegal agent run transition: " ++ fromStatus.value ++ " -> " ++ toStatus.value) 409

/-- The elapsed milliseconds, in the arithmetic of the interpreter. -/
abbrev Stopwatch : Type := Time → Time → ℤ

variable (elapsedMs : Stopwatch) (loaded : Option AgentRun)

/-- `_finalize` and the commit, whose flush writes the duration; a check of the database refuses
a negative one. -/
def finalizeAndCommit (runId : ℕ) (run : AgentRun) (finishedAt : Time) : Tx AgentRun := do
  match run.startedAt with
  | none =>
      Tx.commit
      return run
  | some startedAt =>
      if elapsedMs startedAt finishedAt < 0 then
        throw (.other "IntegrityError")
      let duration := (elapsedMs startedAt finishedAt).toNat
      let _ ← Tx.update (S := runtime) (.flush ⟨none, none, some duration, none, none, none⟩) runId
      Tx.commit
      return { run with durationMs := some duration }

/-- `update_run`: metadata only. -/
def updateRun (organizationId runId : ℕ) (m : Metadata) : Tx AgentRun := do
  let run ← getOr404 loaded organizationId runId
  let _ ← Tx.update (S := runtime) (.flush m) runId
  Tx.commit
  return (AgentRun.flush m).set run

/-- `start_run`; the row takes its `started_at` from the time of the transaction. -/
def startRun (organizationId runId : ℕ) : Tx AgentRun := do
  let now ← Tx.now
  let run ← getOr404 loaded organizationId runId
  assertTransition run.status .running
  match ← transition runId (.markStarted organizationId now) with
  | none =>
      rollbackAndRaise "agent_run.invalid_state"
        "Agent run was cancelled or claimed by another worker" 409
  | some updated =>
      Tx.commit
      return updated

/-- The end of the operations that land a run. -/
def land (runId : ℕ) (finishedAt : Time) : Option AgentRun → Tx AgentRun
  | none => rollbackAndRaise "agent_run.invalid_state" "Agent run state changed concurrently" 409
  | some updated => finalizeAndCommit elapsedMs runId updated finishedAt

/-- `mark_cancelled_after_run` when the first `UPDATE` has matched nothing. -/
def orCancelled (organizationId runId : ℕ) (finishedAt : Time) :
    Option AgentRun → Tx (Option AgentRun)
  | none => transition runId (.markCancelledAfterRun organizationId finishedAt)
  | some updated => return some updated

def completeRun (organizationId runId : ℕ) (output : Payload) (cost : Option ℕ) : Tx AgentRun := do
  let run ← getOr404 loaded organizationId runId
  assertTransition run.status .succeeded
  let finishedAt ← Tx.now
  let updated ← transition runId (.markSucceeded organizationId output cost finishedAt)
  let updated ← orCancelled organizationId runId finishedAt updated
  land elapsedMs runId finishedAt updated

def failRun (organizationId runId : ℕ) (error : String) : Tx AgentRun := do
  let run ← getOr404 loaded organizationId runId
  assertTransition run.status .failed
  let finishedAt ← Tx.now
  let updated ← transition runId
    (if run.cancelRequestedAt.isSome then .markCancelledAfterRun organizationId finishedAt
      else .markFailed organizationId error finishedAt)
  let updated ← orCancelled organizationId runId finishedAt updated
  land elapsedMs runId finishedAt updated

def failQueuedRun (organizationId runId : ℕ) (error : String) : Tx AgentRun := do
  let run ← getOr404 loaded organizationId runId
  assertTransition run.status .failed
  let finishedAt ← Tx.now
  let updated ← transition runId (.markFailedIfQueued organizationId error finishedAt)
  land elapsedMs runId finishedAt updated

/-- The `UPDATE`s of `cancel_run`, chosen by the status it has read. -/
def cancelOrFlag (run : AgentRun) (organizationId runId : ℕ) (cancelledByUserId : Option ℕ)
    (finishedAt : Time) : Tx (Option AgentRun) :=
  if run.status = .queued then do
    match ← transition runId
        (.markCancelledIfPending organizationId finishedAt cancelledByUserId finishedAt) with
    | some updated => return some updated
    | none => transition runId (.markCancelRequested organizationId finishedAt cancelledByUserId)
  else
    transition runId (.markCancelRequested organizationId finishedAt cancelledByUserId)

/-- `cancel_run`: a queued run is cancelled at once, a running one only flagged. -/
def cancelRun (organizationId runId : ℕ) (cancelledByUserId : Option ℕ) : Tx AgentRun := do
  let run ← getOr404 loaded organizationId runId
  if run.status = .cancelled then
    return run
  if run.status.isCancellable = false then
    raise "agent_run.not_cancellable" "This agent run cannot be cancelled" 409
  let finishedAt ← Tx.now
  match ← cancelOrFlag run organizationId runId cancelledByUserId finishedAt with
  | some updated =>
      Tx.commit
      return updated
  | none =>
      let updated ← getOr404 (some run) organizationId runId
      Tx.commit
      return updated

/-- `apply_cancel`: RUNNING with a cancel flag -> CANCELLED. -/
def applyCancel (organizationId runId : ℕ) : Tx AgentRun := do
  let run ← getOr404 loaded organizationId runId
  assertTransition run.status .cancelled
  let finishedAt ← Tx.now
  let updated ← transition runId (.markCancelledAfterRun organizationId finishedAt)
  land elapsedMs runId finishedAt updated

end AgentService

/-! ### Runtime and worker -/

/-- How the executor of an agent ends. -/
inductive ExecutorOutcome where
  | succeeded (output : Payload) (cost : Option ℕ)
  | failed (error : String)
  deriving DecidableEq, Repr

/-- `except AppError: return None`. -/
def orNone {α : Type} (p : Tx α) : Tx (Option α) :=
  tryCatch (do return some (← p)) fun
    | .app _ _ => return none
    | e => throw e

namespace AgentRuntime

open AgentService

variable (elapsedMs : Stopwatch)

/-- `execute_run`: `aiEnabled` and `resolved` are the answers of the kill switch and of the executor
registry; a timeout and an exception of the executor are failures. -/
def executeRun (aiEnabled resolved : Bool) (execute : ℕ → AgentRun → ExecutorOutcome) (runId : ℕ)
    (run : AgentRun) : Tx (Option AgentRun) :=
  if aiEnabled = false then
    orNone (failQueuedRun elapsedMs (some run) run.organizationId runId
      "AI execution disabled for this organization")
  else if resolved = false then
    orNone (failQueuedRun elapsedMs (some run) run.organizationId runId
      ("Agent '" ++ run.agentName ++ "' has no registered executor"))
  else do
    match ← orNone (startRun (some run) run.organizationId runId) with
    | none => return none
    | some started =>
        match execute runId started with
        | .succeeded output cost =>
            orNone (completeRun elapsedMs (some started) started.organizationId runId output cost)
        | .failed error =>
            orNone (failRun elapsedMs (some started) started.organizationId runId error)

end AgentRuntime

namespace AgentWorker

open AgentService AgentRunRepository

variable (elapsedMs : Stopwatch)

/-- `except AppError: log`; the log line reads the row, which raises when the service has rolled
the session back. -/
def attempt {α : Type} (p : Tx α) : Tx ℕ :=
  tryCatch (do let _ ← p; return 1) fun
    | .app _ false => return 0
    | .app _ true => throw .missingGreenlet
    | e => throw e

/-- `process_cancels`. -/
def processCancels (limit : ℕ) : Tx ℕ := do
  let runs ← getCancelRequested limit
  let cancelled ← Prog.tally runs fun row =>
    attempt (applyCancel elapsedMs (some row.2) row.2.organizationId row.1)
  Tx.commit
  return cancelled

/-- `reconcile_stuck`. -/
def reconcileStuck (timeoutSeconds : ℕ) : Tx ℕ := do
  let runs ← getStuckRunning timeoutSeconds
  let transitioned ← Prog.tally runs fun row =>
    attempt (failRun elapsedMs (some row.2) row.2.organizationId row.1
      "Agent run exceeded its time budget")
  Tx.commit
  return transitioned

end AgentWorker

end Agents
