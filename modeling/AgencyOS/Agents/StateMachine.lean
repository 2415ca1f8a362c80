import AgencyOS.Automation.Model

/-!
The state machine of agent runs, declared and as guarded `UPDATE`s.

The transition table of the runtime and the conditions of the `UPDATE`s in `AgentRunRepository`
are two encodings of one machine.

* `allowedTransitions`, `canTransition`: the table;
* `AgentRun`, `NewRun.row`: the row of a run, and what `create_run` inserts;
* `Transition.update`: the guarded `UPDATE`s, with their arguments;
* `AgentRun.flush`: what the unit of work writes of the metadata of a run;
* `Transition.set_spec`: a matched `UPDATE` moves along the table, or only flags the row;
* `AgentRun.WellFlagged`: a cancel flag stands only on a running or a cancelled row.
-/

namespace Agents

open Txn Automation

/-! ### The table -/

inductive AgentRunStatus where
  | queued | running | succeeded | failed | cancelled
  deriving DecidableEq, Repr

inductive AgentRunTrigger where
  | manual | schedule | workflow | event | aiRun
  deriving DecidableEq, Repr

namespace AgentRunStatus

/-- `TERMINAL_STATUSES`. -/
def isTerminal : AgentRunStatus → Bool
  | succeeded | failed | cancelled => true
  | queued | running => false

/-- `_ALLOWED_TRANSITIONS`. -/
def allowedTransitions : AgentRunStatus → List AgentRunStatus
  | queued => [running, failed, cancelled]
  | running => [succeeded, failed, cancelled]
  | succeeded => []
  | failed => []
  | cancelled => []

def canTransition (fromStatus toStatus : AgentRunStatus) : Bool :=
  toStatus ∈ fromStatus.allowedTransitions

def isCancellable (status : AgentRunStatus) : Bool := status = queued || status = running

/-- `AgentRunStatus.value`. -/
def value : AgentRunStatus → String
  | queued => "queued"
  | running => "running"
  | succeeded => "succeeded"
  | failed => "failed"
  | cancelled => "cancelled"

/-- The table leads out of every status but the terminal ones. -/
lemma isTerminal_iff (st : AgentRunStatus) :
    st.isTerminal = true ↔ ∀ st', st.canTransition st' = false := by
  constructor
  · intro h st'
    cases st <;> first | (cases h; done) | rfl
  · intro h
    cases st with
    | queued => exact absurd (h running) (by decide)
    | running => exact absurd (h failed) (by decide)
    | _ => rfl

end AgentRunStatus

/-! ### Rows -/

/-- A row of `agent_runs`; the cost is in millionths. -/
structure AgentRun where
  organizationId : ℕ
  agentName : String
  status : AgentRunStatus
  trigger : AgentRunTrigger
  workflowId : Option ℕ
  input : Payload
  output : Option Payload
  error : Option String
  durationMs : Option ℕ
  cost : ℕ
  startedAt : Option Time
  finishedAt : Option Time
  cancelRequestedAt : Option Time
  cancelledByUserId : Option ℕ
  idempotencyKey : Option String
  traceId : Option ℕ
  createdAt : Time
  deriving DecidableEq, Repr

/-- What the caller of `create_run` chooses. -/
structure NewRun where
  organizationId : ℕ
  agentName : String
  trigger : AgentRunTrigger
  workflowId : Option ℕ
  input : Payload
  idempotencyKey : Option String
  traceId : Option ℕ
  createdAt : Time
  deriving DecidableEq, Repr

/-- The row that `create_run` inserts. -/
def NewRun.row (d : NewRun) : AgentRun where
  organizationId := d.organizationId
  agentName := d.agentName
  status := .queued
  trigger := d.trigger
  workflowId := d.workflowId
  input := d.input
  output := none
  error := none
  durationMs := none
  cost := 0
  startedAt := none
  finishedAt := none
  cancelRequestedAt := none
  cancelledByUserId := none
  idempotencyKey := d.idempotencyKey
  traceId := d.traceId
  createdAt := d.createdAt

/-! ### The guarded updates -/

/-- The changed metadata of a run that a flush writes. -/
structure Metadata where
  output : Option Payload
  error : Option String
  durationMs : Option ℕ
  cost : Option ℕ
  startedAt : Option Time
  finishedAt : Option Time
  deriving DecidableEq, Repr

namespace AgentRun

/-- The condition of the `UPDATE`s that wait for a run in flight that is not flagged. -/
def isRunningUnflagged (organizationId : ℕ) (r : AgentRun) : Bool :=
  r.organizationId = organizationId && r.status = .running && r.cancelRequestedAt.isNone

/-- QUEUED + no cancel flag -> RUNNING. -/
def markStarted (organizationId : ℕ) (now : Time) : GuardedUpdate AgentRun where
  guard r := r.organizationId = organizationId && r.status = .queued && r.cancelRequestedAt.isNone
  set r := { r with status := .running, startedAt := some now }

/-- RUNNING + no cancel flag -> SUCCEEDED. -/
def markSucceeded (organizationId : ℕ) (output : Payload) (cost : Option ℕ) (finishedAt : Time) :
    GuardedUpdate AgentRun where
  guard := isRunningUnflagged organizationId
  set r :=
    { r with
      status := .succeeded
      finishedAt := some finishedAt
      output := some output
      cost := cost.getD r.cost }

/-- RUNNING + no cancel flag -> FAILED. -/
def markFailed (organizationId : ℕ) (error : String) (finishedAt : Time) :
    GuardedUpdate AgentRun where
  guard := isRunningUnflagged organizationId
  set r := { r with status := .failed, error := some error, finishedAt := some finishedAt }

/-- QUEUED -> FAILED; the cancel flag is not tested. -/
def markFailedIfQueued (organizationId : ℕ) (error : String) (finishedAt : Time) :
    GuardedUpdate AgentRun where
  guard r := r.organizationId = organizationId && r.status = .queued
  set r := { r with status := .failed, error := some error, finishedAt := some finishedAt }

/-- RUNNING with a cancel flag -> CANCELLED. -/
def markCancelledAfterRun (organizationId : ℕ) (finishedAt : Time) : GuardedUpdate AgentRun where
  guard r := r.organizationId = organizationId && r.status = .running && r.cancelRequestedAt.isSome
  set r := { r with status := .cancelled, finishedAt := some finishedAt }

/-- QUEUED + no cancel flag -> CANCELLED. -/
def markCancelledIfPending (organizationId : ℕ) (cancelRequestedAt : Time)
    (cancelledByUserId : Option ℕ) (finishedAt : Time) : GuardedUpdate AgentRun where
  guard r := r.organizationId = organizationId && r.status = .queued && r.cancelRequestedAt.isNone
  set r :=
    { r with
      status := .cancelled
      cancelRequestedAt := some cancelRequestedAt
      cancelledByUserId := cancelledByUserId
      finishedAt := some finishedAt }

/-- RUNNING + no cancel flag: flag the row for in-flight cancellation. -/
def markCancelRequested (organizationId : ℕ) (cancelRequestedAt : Time)
    (cancelledByUserId : Option ℕ) : GuardedUpdate AgentRun where
  guard := isRunningUnflagged organizationId
  set r :=
    { r with
      cancelRequestedAt := some cancelRequestedAt
      cancelledByUserId := cancelledByUserId }

/-- The unit of work writes the changed columns by key. -/
def flush (m : Metadata) : GuardedUpdate AgentRun where
  guard _ := true
  set r :=
    { r with
      output := m.output.or r.output
      error := m.error.or r.error
      durationMs := m.durationMs.or r.durationMs
      cost := m.cost.getD r.cost
      startedAt := m.startedAt.or r.startedAt
      finishedAt := m.finishedAt.or r.finishedAt }

end AgentRun

/-- The guarded `UPDATE`s of `agent_runs`, each with its arguments; `now` is the time of the
transaction. -/
inductive Transition where
  | markStarted (organizationId : ℕ) (now : Time)
  | markSucceeded (organizationId : ℕ) (output : Payload) (cost : Option ℕ) (finishedAt : Time)
  | markFailed (organizationId : ℕ) (error : String) (finishedAt : Time)
  | markFailedIfQueued (organizationId : ℕ) (error : String) (finishedAt : Time)
  | markCancelledAfterRun (organizationId : ℕ) (finishedAt : Time)
  | markCancelledIfPending (organizationId : ℕ) (cancelRequestedAt : Time)
      (cancelledByUserId : Option ℕ) (finishedAt : Time)
  | markCancelRequested (organizationId : ℕ) (cancelRequestedAt : Time)
      (cancelledByUserId : Option ℕ)
  deriving DecidableEq, Repr

namespace Transition

/-- The `UPDATE` that a transition issues. -/
def update : Transition → GuardedUpdate AgentRun
  | markStarted org now => AgentRun.markStarted org now
  | markSucceeded org output cost finishedAt => AgentRun.markSucceeded org output cost finishedAt
  | markFailed org error finishedAt => AgentRun.markFailed org error finishedAt
  | markFailedIfQueued org error finishedAt => AgentRun.markFailedIfQueued org error finishedAt
  | markCancelledAfterRun org finishedAt => AgentRun.markCancelledAfterRun org finishedAt
  | markCancelledIfPending org requestedAt user finishedAt =>
      AgentRun.markCancelledIfPending org requestedAt user finishedAt
  | markCancelRequested org requestedAt user => AgentRun.markCancelRequested org requestedAt user

/-- Whether a transition only flags the row. -/
def isFlag : Transition → Bool
  | markCancelRequested .. => true
  | _ => false

end Transition

/-! ### What a transition can do -/

/-- A cancel flag stands only on a running or a cancelled row. -/
def AgentRun.WellFlagged (r : AgentRun) : Prop :=
  r.cancelRequestedAt ≠ none → r.status = .running ∨ r.status = .cancelled

lemma wellFlagged_row (d : NewRun) : d.row.WellFlagged := fun h => absurd rfl h

/-- What the `UPDATE`s do to the status and to the cancel flag. -/
structure Declared (r r' : AgentRun) : Prop where
  status : r'.status = r.status ∨ r.status.canTransition r'.status = true
  flag : r.cancelRequestedAt ≠ none → r'.cancelRequestedAt ≠ none

lemma Declared.refl (r : AgentRun) : Declared r r := ⟨Or.inl rfl, id⟩

/-- **A matched `UPDATE`** moves the status along the table or leaves it, keeps the cancel flag, and
keeps the flags in their place. -/
lemma Transition.set_spec {t : Transition} {r : AgentRun} (hg : t.update.guard r = true) :
    (if t.isFlag then (t.update.set r).status = r.status
      else r.status.canTransition (t.update.set r).status = true)
      ∧ (r.cancelRequestedAt ≠ none → (t.update.set r).cancelRequestedAt ≠ none)
      ∧ (r.WellFlagged → (t.update.set r).WellFlagged) := by
  have hrun : ∀ org, r.isRunningUnflagged org = true →
      r.status = .running ∧ r.cancelRequestedAt = none := by
    intro org h
    simp only [AgentRun.isRunningUnflagged, Bool.and_eq_true, decide_eq_true_eq,
      Option.isNone_iff_eq_none] at h
    exact ⟨h.1.2, h.2⟩
  cases t with
  | markStarted org now =>
      have hg' : (AgentRun.markStarted org now).guard r = true := hg
      simp only [AgentRun.markStarted, Bool.and_eq_true, decide_eq_true_eq] at hg'
      refine ⟨?_, id, fun _ _ => Or.inl rfl⟩
      show r.status.canTransition .running = true
      rw [hg'.1.2]
      rfl
  | markSucceeded org output cost finishedAt =>
      obtain ⟨hst, hnone⟩ := hrun org hg
      refine ⟨?_, id, fun _ h => absurd hnone h⟩
      show r.status.canTransition .succeeded = true
      rw [hst]
      rfl
  | markFailed org error finishedAt =>
      obtain ⟨hst, hnone⟩ := hrun org hg
      refine ⟨?_, id, fun _ h => absurd hnone h⟩
      show r.status.canTransition .failed = true
      rw [hst]
      rfl
  | markFailedIfQueued org error finishedAt =>
      have hg' : (AgentRun.markFailedIfQueued org error finishedAt).guard r = true := hg
      simp only [AgentRun.markFailedIfQueued, Bool.and_eq_true, decide_eq_true_eq] at hg'
      -- a queued row carries no flag
      refine ⟨?_, id, fun hflag h => ?_⟩
      · show r.status.canTransition .failed = true
        rw [hg'.2]
        rfl
      · rcases hflag h with hst | hst <;> rw [hg'.2] at hst <;> cases hst
  | markCancelledAfterRun org finishedAt =>
      have hg' : (AgentRun.markCancelledAfterRun org finishedAt).guard r = true := hg
      simp only [AgentRun.markCancelledAfterRun, Bool.and_eq_true, decide_eq_true_eq] at hg'
      refine ⟨?_, id, fun _ _ => Or.inr rfl⟩
      show r.status.canTransition .cancelled = true
      rw [hg'.1.2]
      rfl
  | markCancelledIfPending org requestedAt user finishedAt =>
      have hg' : (AgentRun.markCancelledIfPending org requestedAt user finishedAt).guard r = true :=
        hg
      simp only [AgentRun.markCancelledIfPending, Bool.and_eq_true, decide_eq_true_eq] at hg'
      refine ⟨?_, fun _ => Option.some_ne_none _, fun _ _ => Or.inr rfl⟩
      show r.status.canTransition .cancelled = true
      rw [hg'.1.2]
      rfl
  | markCancelRequested org requestedAt user =>
      obtain ⟨hst, -⟩ := hrun org hg
      exact ⟨rfl, fun _ => Option.some_ne_none _, fun _ _ => Or.inl hst⟩

/-- A matched `UPDATE` of a row that has the declared status of `rc` stays declared. -/
lemma Declared.set {t : Transition} {rc r : AgentRun} (h : Declared rc r)
    (hg : t.update.guard r = true) (hst : t.isFlag = false → r.status = rc.status) :
    Declared rc (t.update.set r) := by
  obtain ⟨hstatus, hflag, -⟩ := Transition.set_spec hg
  refine ⟨?_, fun hc => hflag (h.flag hc)⟩
  split_ifs at hstatus with ht
  · rw [hstatus]
    exact h.status
  · rw [← hst (by simpa using ht)]
    exact Or.inr hstatus

end Agents
