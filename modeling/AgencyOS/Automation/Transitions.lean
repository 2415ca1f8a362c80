import AgencyOS.Automation.Model

/-!
The life of one execution row under the guarded `UPDATE`s of `WorkflowExecutionRepository`.

* `Transition`: the guarded `UPDATE`s of `workflow_executions`, with their arguments;
* `Transition.update`: the `UPDATE` each transition issues, guard and new values as in the
  repository;
* `Execution.WellFlagged` and `WellFlagged.step`: a cancel flag stands only on a running or a
  cancelled row;
* `Edge`, `Transition.set_spec`: the statuses each transition leads from and to;
* `starts`, `attempts_runTransitions`: the attempts of a row count its starts;
* `lifecycle` (**the life of an execution**): all of this for a row created queued, after any
  sequence of transitions.
-/

namespace Automation

open Txn

/-! ### The transitions -/

/-- Where `mark_failed` may send an execution. -/
abbrev FailureStatus : Type := {s : ExecutionStatus // s = .failed ∨ s = .retrying}

lemma isFailure_failed : ExecutionStatus.failed = .failed ∨ ExecutionStatus.failed = .retrying := .inl rfl

lemma isFailure_retrying : ExecutionStatus.retrying = .failed ∨ ExecutionStatus.retrying = .retrying := .inr rfl

/-- The guarded `UPDATE`s of `workflow_executions`, each with its arguments; `now` is the time
of the transaction. -/
inductive Transition where
  | markStarted (organizationId : ℕ) (now : Time)
  | markSucceeded (organizationId : ℕ) (output : Payload) (finishedAt : Time)
  | markFailed (organizationId : ℕ) (error : Payload) (toStatus : FailureStatus)
      (nextRetryAt finishedAt : Option Time)
  | markFailedIfQueued (organizationId : ℕ) (error : Payload) (finishedAt : Time)
  | markCancelledAfterRun (organizationId : ℕ) (finishedAt : Time)
  | markCancelledIfPending (organizationId : ℕ) (cancelRequestedAt : Time)
      (cancelledByUserId : Option ℕ) (finishedAt : Time)
  | markCancelRequested (organizationId : ℕ) (cancelRequestedAt : Time)
      (cancelledByUserId : Option ℕ)
  | markTimedOut (organizationId : ℕ) (error : Payload) (finishedAt : Time)
  | markRequeued (organizationId : ℕ)
  | markRequeuedDue (organizationId : ℕ) (dueBefore : Time)
  deriving DecidableEq, Repr

/-! ### The guarded updates -/

namespace Execution

/-- The condition shared by the `UPDATE`s of a run that is not being cancelled. -/
def isRunningUnflagged (organizationId : ℕ) (r : Execution) : Bool :=
  r.organizationId = organizationId && r.status = .running && r.cancelRequestedAt.isNone

/-- QUEUED + no cancel flag -> RUNNING, attempts bumped. -/
def markStarted (organizationId : ℕ) (now : Time) : GuardedUpdate Execution where
  guard r := r.organizationId = organizationId && r.status = .queued && r.cancelRequestedAt.isNone
  set r := { r with status := .running, attempts := r.attempts + 1, startedAt := some now }

/-- RUNNING + no cancel flag -> SUCCEEDED. -/
def markSucceeded (organizationId : ℕ) (output : Payload) (finishedAt : Time) :
    GuardedUpdate Execution where
  guard := isRunningUnflagged organizationId
  set r := { r with status := .succeeded, output := some output, finishedAt := some finishedAt }

/-- RUNNING + no cancel flag -> FAILED or RETRYING. -/
def markFailed (organizationId : ℕ) (error : Payload) (toStatus : ExecutionStatus)
    (nextRetryAt finishedAt : Option Time) : GuardedUpdate Execution where
  guard := isRunningUnflagged organizationId
  set r :=
    { r with
      status := toStatus
      error := some error
      nextRetryAt := nextRetryAt
      finishedAt := finishedAt.or r.finishedAt }

/-- QUEUED -> FAILED; the cancel flag is not tested. -/
def markFailedIfQueued (organizationId : ℕ) (error : Payload) (finishedAt : Time) :
    GuardedUpdate Execution where
  guard r := r.organizationId = organizationId && r.status = .queued
  set r :=
    { r with
      status := .failed
      error := some error
      nextRetryAt := none
      finishedAt := some finishedAt }

/-- RUNNING with a cancel flag -> CANCELLED. -/
def markCancelledAfterRun (organizationId : ℕ) (finishedAt : Time) : GuardedUpdate Execution where
  guard r := r.organizationId = organizationId && r.status = .running && r.cancelRequestedAt.isSome
  set r := { r with status := .cancelled, finishedAt := some finishedAt }

/-- QUEUED/RETRYING + no cancel flag -> CANCELLED. -/
def markCancelledIfPending (organizationId : ℕ) (cancelRequestedAt : Time)
    (cancelledByUserId : Option ℕ) (finishedAt : Time) : GuardedUpdate Execution where
  guard r := r.organizationId = organizationId && (r.status = .queued || r.status = .retrying)
    && r.cancelRequestedAt.isNone
  set r :=
    { r with
      status := .cancelled
      cancelRequestedAt := some cancelRequestedAt
      cancelledByUserId := cancelledByUserId
      finishedAt := some finishedAt }

/-- RUNNING + no cancel flag: flag the row for in-flight cancellation. -/
def markCancelRequested (organizationId : ℕ) (cancelRequestedAt : Time)
    (cancelledByUserId : Option ℕ) : GuardedUpdate Execution where
  guard := isRunningUnflagged organizationId
  set r :=
    { r with
      cancelRequestedAt := some cancelRequestedAt
      cancelledByUserId := cancelledByUserId }

/-- RUNNING + no cancel flag -> TIMED_OUT. -/
def markTimedOut (organizationId : ℕ) (error : Payload) (finishedAt : Time) :
    GuardedUpdate Execution where
  guard := isRunningUnflagged organizationId
  set r := { r with status := .timedOut, error := some error, finishedAt := some finishedAt }

/-- FAILED/CANCELLED/TIMED_OUT -> QUEUED, clearing any cancel flag. -/
def markRequeued (organizationId : ℕ) : GuardedUpdate Execution where
  guard r := r.organizationId = organizationId
    && (r.status = .failed || r.status = .cancelled || r.status = .timedOut)
  set r :=
    { r with
      status := .queued
      nextRetryAt := none
      cancelRequestedAt := none
      cancelledByUserId := none }

/-- RETRYING + next_retry_at due -> QUEUED; the cancel flag is not tested. -/
def markRequeuedDue (organizationId : ℕ) (dueBefore : Time) : GuardedUpdate Execution where
  guard r := r.organizationId = organizationId && r.status = .retrying
    && r.nextRetryAt.any (· ≤ dueBefore)
  set r := { r with status := .queued, nextRetryAt := none }

end Execution

namespace Transition

/-- The `UPDATE` that a transition issues. -/
def update : Transition → GuardedUpdate Execution
  | markStarted org now => Execution.markStarted org now
  | markSucceeded org output finishedAt => Execution.markSucceeded org output finishedAt
  | markFailed org error toStatus nextRetryAt finishedAt =>
      Execution.markFailed org error toStatus nextRetryAt finishedAt
  | markFailedIfQueued org error finishedAt => Execution.markFailedIfQueued org error finishedAt
  | markCancelledAfterRun org finishedAt => Execution.markCancelledAfterRun org finishedAt
  | markCancelledIfPending org cancelRequestedAt cancelledByUserId finishedAt =>
      Execution.markCancelledIfPending org cancelRequestedAt cancelledByUserId finishedAt
  | markCancelRequested org cancelRequestedAt cancelledByUserId =>
      Execution.markCancelRequested org cancelRequestedAt cancelledByUserId
  | markTimedOut org error finishedAt => Execution.markTimedOut org error finishedAt
  | markRequeued org => Execution.markRequeued org
  | markRequeuedDue org dueBefore => Execution.markRequeuedDue org dueBefore

/-- The row after a transition was attempted on it, as one atomic step. -/
def step (t : Transition) (r : Execution) : Execution := t.update.step r

/-- Whether a transition is a `mark_requeued`. -/
def isRequeue : Transition → Bool
  | markRequeued _ => true
  | _ => false

/-- Whether a transition is a `mark_started`. -/
def isStart : Transition → Bool
  | markStarted _ _ => true
  | _ => false

end Transition

/-! ### What a transition can do -/

/-- The statuses that each transition requires, and those it leads to. -/
inductive Edge : Transition → ExecutionStatus → ExecutionStatus → Prop
  | started {org now} : Edge (.markStarted org now) .queued .running
  | succeeded {org output f} : Edge (.markSucceeded org output f) .running .succeeded
  | failed {org e n f} {st : FailureStatus} : Edge (.markFailed org e st n f) .running st
  | failedIfQueued {org e f} : Edge (.markFailedIfQueued org e f) .queued .failed
  | cancelledAfterRun {org f} : Edge (.markCancelledAfterRun org f) .running .cancelled
  | cancelledQueued {org c u f} : Edge (.markCancelledIfPending org c u f) .queued .cancelled
  | cancelledRetrying {org c u f} : Edge (.markCancelledIfPending org c u f) .retrying .cancelled
  | cancelRequested {org c u} : Edge (.markCancelRequested org c u) .running .running
  | timedOut {org e f} : Edge (.markTimedOut org e f) .running .timedOut
  | requeuedFailed {org} : Edge (.markRequeued org) .failed .queued
  | requeuedCancelled {org} : Edge (.markRequeued org) .cancelled .queued
  | requeuedTimedOut {org} : Edge (.markRequeued org) .timedOut .queued
  | requeuedDue {org d} : Edge (.markRequeuedDue org d) .retrying .queued

/-- The cancel flag around a transition that matched: tested by all but three, set by the two
cancel transitions, cleared by `mark_requeued`, kept by the others. -/
def FlagStep (t : Transition) (r r' : Execution) : Prop :=
  match t with
  | .markCancelledAfterRun .. => r.cancelRequestedAt ≠ none ∧ r'.cancelRequestedAt ≠ none
  | .markCancelledIfPending .. | .markCancelRequested .. =>
      r.cancelRequestedAt = none ∧ r'.cancelRequestedAt ≠ none
  | .markRequeued _ => r'.cancelRequestedAt = none
  | .markFailedIfQueued .. | .markRequeuedDue .. => r'.cancelRequestedAt = r.cancelRequestedAt
  | .markStarted .. | .markSucceeded .. | .markFailed .. | .markTimedOut .. =>
      r.cancelRequestedAt = none ∧ r'.cancelRequestedAt = none

namespace Transition

variable {t : Transition} {r : Execution}

/-- **What a matched transition does** to the status, the cancel flag and the attempts. -/
lemma set_spec (h : t.update.guard r = true) :
    Edge t r.status (t.update.set r).status ∧ FlagStep t r (t.update.set r)
      ∧ (t.update.set r).attempts = r.attempts + (if t.isStart then 1 else 0)
      ∧ (t.update.set r).organizationId = r.organizationId := by
  cases t with
  | markStarted org now =>
      simp [update, Execution.markStarted] at h
      obtain ⟨⟨-, hst⟩, hfl⟩ := h
      exact ⟨hst ▸ .started, ⟨hfl, hfl⟩, rfl, rfl⟩
  | markSucceeded org output f =>
      simp [update, Execution.markSucceeded, Execution.isRunningUnflagged] at h
      obtain ⟨⟨-, hst⟩, hfl⟩ := h
      exact ⟨hst ▸ .succeeded, ⟨hfl, hfl⟩, rfl, rfl⟩
  | markFailed org e st n f =>
      simp [update, Execution.markFailed, Execution.isRunningUnflagged] at h
      obtain ⟨⟨-, hst⟩, hfl⟩ := h
      exact ⟨hst ▸ .failed, ⟨hfl, hfl⟩, rfl, rfl⟩
  | markFailedIfQueued org e f =>
      simp [update, Execution.markFailedIfQueued] at h
      exact ⟨h.2 ▸ .failedIfQueued, rfl, rfl, rfl⟩
  | markCancelledAfterRun org f =>
      simp [update, Execution.markCancelledAfterRun, Option.isSome_iff_ne_none] at h
      obtain ⟨⟨-, hst⟩, hfl⟩ := h
      exact ⟨hst ▸ .cancelledAfterRun, ⟨hfl, hfl⟩, rfl, rfl⟩
  | markCancelledIfPending org c u f =>
      simp [update, Execution.markCancelledIfPending] at h
      obtain ⟨⟨-, hst⟩, hfl⟩ := h
      refine ⟨?_, ⟨hfl, by simp [update, Execution.markCancelledIfPending]⟩, rfl, rfl⟩
      rcases hst with hst | hst
      · exact hst ▸ .cancelledQueued
      · exact hst ▸ .cancelledRetrying
  | markCancelRequested org c u =>
      simp [update, Execution.markCancelRequested, Execution.isRunningUnflagged] at h
      obtain ⟨⟨-, hst⟩, hfl⟩ := h
      refine ⟨?_, ⟨hfl, by simp [update, Execution.markCancelRequested]⟩, rfl, rfl⟩
      show Edge _ r.status r.status
      rw [hst]
      exact .cancelRequested
  | markTimedOut org e f =>
      simp [update, Execution.markTimedOut, Execution.isRunningUnflagged] at h
      obtain ⟨⟨-, hst⟩, hfl⟩ := h
      exact ⟨hst ▸ .timedOut, ⟨hfl, hfl⟩, rfl, rfl⟩
  | markRequeued org =>
      simp [update, Execution.markRequeued] at h
      refine ⟨?_, rfl, rfl, rfl⟩
      rcases h.2 with (hst | hst) | hst
      · exact hst ▸ .requeuedFailed
      · exact hst ▸ .requeuedCancelled
      · exact hst ▸ .requeuedTimedOut
  | markRequeuedDue org d =>
      simp [update, Execution.markRequeuedDue] at h
      exact ⟨h.1.2 ▸ .requeuedDue, rfl, rfl, rfl⟩

/-- A transition moves the status along one of its edges, or leaves the row as it is. -/
lemma step_cases (t : Transition) (r : Execution) :
    (t.update.guard r = true ∧ Edge t r.status (t.step r).status) ∨ t.step r = r := by
  by_cases h : t.update.guard r = true
  · rw [step, GuardedUpdate.step_of_guard h]
    exact Or.inl ⟨h, (set_spec h).1⟩
  · exact Or.inr (GuardedUpdate.step_of_not_guard (by simpa using h))

end Transition

/-! ### Cancel flags -/

/-- A cancel flag stands only on a row that is running or cancelled. -/
def Execution.WellFlagged (r : Execution) : Prop :=
  r.cancelRequestedAt ≠ none → r.status = .running ∨ r.status = .cancelled

/-- Every matched transition keeps cancel flags where they belong: the transitions that do not
test the flag start from a status on which no flag stands. -/
lemma Execution.WellFlagged.set {t : Transition} {r : Execution} (h : r.WellFlagged)
    (hg : t.update.guard r = true) : (t.update.set r).WellFlagged := by
  obtain ⟨hedge, hflag, -⟩ := Transition.set_spec hg
  intro hne
  rw [Execution.WellFlagged] at h
  generalize (t.update.set r).status = st' at hedge ⊢
  generalize r.status = st at hedge h
  cases hedge with
  | started | succeeded | failed | timedOut => exact absurd hflag.2 hne
  | requeuedFailed | requeuedCancelled | requeuedTimedOut => exact absurd hflag hne
  | cancelledAfterRun | cancelledQueued | cancelledRetrying => exact Or.inr rfl
  | cancelRequested => exact Or.inl rfl
  | failedIfQueued | requeuedDue =>
      -- the flag is not tested, but no flag stands on a queued or retrying row
      rw [hflag] at hne
      rcases h hne with hst | hst <;> cases hst

lemma Execution.WellFlagged.step {r : Execution} (h : r.WellFlagged) (t : Transition) :
    (t.step r).WellFlagged := by
  by_cases hg : t.update.guard r = true
  · rw [Transition.step, GuardedUpdate.step_of_guard hg]
    exact h.set hg
  · rw [Transition.step, GuardedUpdate.step_of_not_guard (by simpa using hg)]
    exact h

/-! ### Runs of transitions -/

/-- The row after a sequence of transitions. -/
def runTransitions (r : Execution) (ts : List Transition) : Execution :=
  ts.foldl (fun r t => t.step r) r

/-- Whether a step took the row from QUEUED to RUNNING. -/
def isStartOf (r r' : Execution) : Bool := r.status = .queued && r'.status = .running

/-- The number of QUEUED -> RUNNING steps that a sequence of transitions makes from `r`. -/
def starts : Execution → List Transition → ℕ
  | _, [] => 0
  | r, t :: ts => (isStartOf r (t.step r)).toNat + starts (t.step r) ts

lemma runTransitions_cons (r : Execution) (t : Transition) (ts : List Transition) :
    runTransitions r (t :: ts) = runTransitions (t.step r) ts := rfl

/-- One step adds an attempt exactly when it starts the row. -/
lemma attempts_step (t : Transition) (r : Execution) :
    (t.step r).attempts = r.attempts + (isStartOf r (t.step r)).toNat := by
  by_cases hg : t.update.guard r = true
  · obtain ⟨hedge, -, hatt, -⟩ := Transition.set_spec hg
    rw [Transition.step, GuardedUpdate.step_of_guard hg, hatt, isStartOf]
    congr 1
    generalize (t.update.set r).status = st' at hedge
    generalize r.status = st at hedge
    cases hedge with
    | @failed _ _ _ _ st =>
        obtain ⟨st, hst⟩ := st
        rcases hst with rfl | rfl <;> rfl
    | _ => rfl
  · rw [Transition.step, GuardedUpdate.step_of_not_guard (by simpa using hg), isStartOf]
    cases r.status <;> rfl

/-- The attempts of a row after a run count the starts of the run. -/
lemma attempts_runTransitions (ts : List Transition) :
    ∀ r, (runTransitions r ts).attempts = r.attempts + starts r ts := by
  induction ts with
  | nil => intro r; rfl
  | cons t ts ih =>
      intro r
      rw [runTransitions_cons, ih, attempts_step, starts, Nat.add_assoc]

lemma Execution.WellFlagged.run {r : Execution} (h : r.WellFlagged) (ts : List Transition) :
    (runTransitions r ts).WellFlagged := by
  induction ts generalizing r with
  | nil => exact h
  | cons t ts ih => exact ih (h.step t)

/-! ### The life of an execution -/

/-- What the caller of `queue` chooses about a new execution. -/
structure NewExecution where
  organizationId : ℕ
  workflowId : ℕ
  triggerId : Option ℕ
  input : Payload
  maxAttempts : ℕ
  retryDelaySeconds : ℕ
  retryBackoff : RetryBackoff
  requestedByUserId : Option ℕ
  traceId : Option ℕ
  idempotencyKey : Option String
  createdAt : Time
  deriving DecidableEq, Repr

/-- The row that `queue` inserts. -/
def NewExecution.row (d : NewExecution) : Execution where
  organizationId := d.organizationId
  workflowId := d.workflowId
  triggerId := d.triggerId
  status := .queued
  input := d.input
  output := none
  error := none
  startedAt := none
  finishedAt := none
  attempts := 0
  maxAttempts := d.maxAttempts
  retryDelaySeconds := d.retryDelaySeconds
  retryBackoff := d.retryBackoff
  nextRetryAt := none
  requestedByUserId := d.requestedByUserId
  traceId := d.traceId
  cancelRequestedAt := none
  cancelledByUserId := none
  idempotencyKey := d.idempotencyKey
  createdAt := d.createdAt

/-- What is queued for the workflow of organization 1, with a number of attempts. -/
def smallNew (maxAttempts : ℕ) : NewExecution where
  organizationId := 1
  workflowId := 1
  triggerId := none
  input := ""
  maxAttempts := maxAttempts
  retryDelaySeconds := 60
  retryBackoff := .constant
  requestedByUserId := none
  traceId := none
  idempotencyKey := none
  createdAt := 0

/-- A new execution carries no cancel flag. -/
lemma wellFlagged_row (d : NewExecution) : d.row.WellFlagged := fun h => absurd rfl h

/-- No transition leaves SUCCEEDED. -/
lemma succeeded_step (t : Transition) {r : Execution} (h : r.status = .succeeded) :
    (t.step r).status = .succeeded := by
  rcases t.step_cases r with ⟨-, hedge⟩ | he
  · rw [h] at hedge
    cases hedge
  · rw [he, h]

/-- Only `mark_requeued` leaves FAILED, CANCELLED and TIMED_OUT. -/
lemma isRequeue_of_leaves (t : Transition) {r : Execution} (h : r.status.isTerminal = true)
    (hne : (t.step r).status ≠ r.status) : t.isRequeue = true := by
  rcases t.step_cases r with ⟨-, hedge⟩ | he
  · generalize (t.step r).status = st' at hedge
    generalize r.status = st at hedge h
    cases hedge <;> first | rfl | cases h
  · exact absurd (by rw [he]) hne

/-- A run flagged for cancellation stays as it is or becomes CANCELLED. -/
lemma flagged_step (t : Transition) {r : Execution} (hst : r.status = .running)
    (hfl : r.cancelRequestedAt ≠ none) :
    (t.step r).status = .running ∨ (t.step r).status = .cancelled := by
  by_cases hg : t.update.guard r = true
  · rw [Transition.step, GuardedUpdate.step_of_guard hg]
    obtain ⟨hedge, hflag, -⟩ := Transition.set_spec hg
    rw [hst] at hedge
    generalize (t.update.set r).status = st' at hedge
    cases hedge with
    | succeeded => exact absurd hflag.1 hfl
    | failed => exact absurd hflag.1 hfl
    | timedOut => exact absurd hflag.1 hfl
    | cancelRequested => exact absurd hflag.1 hfl
    | cancelledAfterRun => exact Or.inr rfl
  · rw [Transition.step, GuardedUpdate.step_of_not_guard (by simpa using hg)]
    exact Or.inl hst

/-- **The life of an execution.**  After any sequence of guarded `UPDATE`s, a row created
queued carries a cancel flag only while it is running or cancelled, and its attempts count its
starts; and whatever `UPDATE` comes next, a flagged run does not land on SUCCEEDED, FAILED,
TIMED_OUT or RETRYING, SUCCEEDED is not left, and FAILED, CANCELLED and TIMED_OUT are left only
by `mark_requeued`. -/
theorem lifecycle (d : NewExecution) (ts : List Transition) (t : Transition) :
    let r := runTransitions d.row ts
    (r.cancelRequestedAt ≠ none → r.status = .running ∨ r.status = .cancelled)
      ∧ r.attempts = starts d.row ts
      ∧ (r.status = .running → r.cancelRequestedAt ≠ none →
          (t.step r).status = .running ∨ (t.step r).status = .cancelled)
      ∧ (r.status = .succeeded → (t.step r).status = .succeeded)
      ∧ (r.status = .failed ∨ r.status = .cancelled ∨ r.status = .timedOut →
          (t.step r).status ≠ r.status → t.isRequeue = true) := by
  intro r
  refine ⟨(wellFlagged_row d).run ts, ?_, flagged_step t, succeeded_step t, fun hst hne => ?_⟩
  · have hatt := attempts_runTransitions ts d.row
    rw [show d.row.attempts = 0 from rfl, Nat.zero_add] at hatt
    exact hatt
  · refine isRequeue_of_leaves t ?_ hne
    rcases hst with h | h | h <;> rw [h] <;> rfl

end Automation
