import AgencyOS.Automation.Statements

/-!
The execution counts of the monitoring pages.

The summary takes the executions that wait to be drained for those that are queued; they may be
retrying too.

* `getOperationalSummary`, `getExecutionStatistics`: the counts, over the rows of the table;
* `sum_countStatus`: the counts of all statuses add up to the number of executions;
* `statistics_total`: **the statistics count each execution once**;
* `countsOnce_iff`: **the summary does so exactly when no execution of the organization is retrying**.
-/

namespace Automation.OperationalMonitoring

variable (executions : List Execution) (organizationId : ℕ)

/-- `count_pending`. -/
def countPending : ℕ := executions.countP (Query.countPending organizationId).matching

/-- `count_status`. -/
def countStatus (status : ExecutionStatus) : ℕ :=
  executions.countP fun e => e.organizationId = organizationId && e.status = status

/-- `count_by_status_and_date`. -/
def countByStatusAndDate (status : ExecutionStatus) (cutoff : Time) : ℕ :=
  executions.countP fun e => (e.organizationId = organizationId && cutoff ≤ e.createdAt) && e.status = status

/-- The `executions` of a summary. -/
structure ExecutionSummary where
  queued : ℕ
  running : ℕ
  completed : ℕ
  failed : ℕ
  timedOut : ℕ
  cancelled : ℕ
  retrying : ℕ
  totalActive : ℕ
  deriving DecidableEq, Repr

/-- `get_operational_summary`, as far as executions go. -/
def getOperationalSummary : ExecutionSummary :=
  let queuedCount := countPending executions organizationId
  let runningCount := countStatus executions organizationId .running
  let retryingCount := countStatus executions organizationId .retrying
  { queued := queuedCount
    running := runningCount
    completed := countStatus executions organizationId .succeeded
    failed := countStatus executions organizationId .failed
    timedOut := countStatus executions organizationId .timedOut
    cancelled := countStatus executions organizationId .cancelled
    retrying := retryingCount
    totalActive := queuedCount + runningCount + retryingCount }

/-- `_EXECUTION_STATUSES`. -/
def executionStatuses : List ExecutionStatus :=
  [.queued, .running, .succeeded, .failed, .retrying, .cancelled, .timedOut]

/-- `counts_by_status` of `get_execution_statistics`. -/
def countsByStatus (cutoff : Time) : List (ExecutionStatus × ℕ) :=
  executionStatuses.map fun status => (status, countByStatusAndDate executions organizationId status cutoff)

/-- `total_executions` of `get_execution_statistics`. -/
def totalExecutions (cutoff : Time) : ℕ :=
  ((countsByStatus executions organizationId cutoff).map Prod.snd).sum

/-! ### Counting by status -/

/-- Counts by a key, over all keys, add up. -/
lemma sum_map_countP {α β : Type} [DecidableEq β] {p : α → Bool} {key : α → β} {keys : List β}
    (hnodup : keys.Nodup) (hall : ∀ b, b ∈ keys) (l : List α) :
    (keys.map fun k => l.countP fun a => p a && key a = k).sum = l.countP p := by
  induction l with
  | nil => simp
  | cons a l ih =>
      have hone : (keys.map fun k => if (p a && decide (key a = k)) = true then 1 else 0).sum
          = if p a = true then 1 else 0 := by
        cases p a with
        | false => simp
        | true =>
            have hcount : keys.count (key a) = 1 := List.count_eq_one_of_mem hnodup (hall _)
            simpa [List.count, List.countP_eq_length_filter, List.sum_map_ite, eq_comm, beq_eq_decide]
              using hcount
      simp only [List.countP_cons]
      rw [List.sum_map_add, ih, hone]

lemma executionStatuses_nodup : executionStatuses.Nodup := by decide

lemma mem_executionStatuses (status : ExecutionStatus) : status ∈ executionStatuses := by
  cases status <;> decide

/-- The executions of an organization are those of its statuses. -/
lemma sum_countStatus : (executionStatuses.map (countStatus executions organizationId)).sum
    = executions.countP fun e => e.organizationId = organizationId :=
  sum_map_countP executionStatuses_nodup mem_executionStatuses executions

/-- Those that wait are those that are queued or retrying. -/
lemma countPending_eq : countPending executions organizationId
    = countStatus executions organizationId .queued + countStatus executions organizationId .retrying := by
  induction executions with
  | nil => rfl
  | cons e rest ih =>
      simp only [countPending, countStatus, List.countP_cons, Query.matching] at ih ⊢
      rw [ih]
      by_cases hqueued : e.status = .queued
      · simp [hqueued]
        omega
      · by_cases hretrying : e.status = .retrying
        · simp [hretrying]
          omega
        · simp [hqueued, hretrying]

/-- Those that are active are queued, running or retrying. -/
lemma countP_active : (executions.countP fun e => e.organizationId = organizationId
      && (e.status = .queued || e.status = .running || e.status = .retrying))
    = countStatus executions organizationId .queued + countStatus executions organizationId .running
      + countStatus executions organizationId .retrying := by
  induction executions with
  | nil => rfl
  | cons e rest ih =>
      simp only [countStatus, List.countP_cons] at ih ⊢
      rw [ih]
      cases hstatus : e.status <;> simp <;> omega

/-! ### Each execution once -/

/-- **The statistics count each execution once**: their total is the number of executions since the
cutoff. -/
theorem statistics_total (cutoff : Time) : totalExecutions executions organizationId cutoff
    = executions.countP fun e => e.organizationId = organizationId && cutoff ≤ e.createdAt := by
  rw [totalExecutions, countsByStatus, List.map_map]
  exact sum_map_countP executionStatuses_nodup mem_executionStatuses executions

/-- What is promised of the summary: its counts partition the executions of the organization, and those
that are active are the queued, the running and the retrying ones. -/
structure CountsOnce : Prop where
  partition :
    let summary := getOperationalSummary executions organizationId
    summary.queued + summary.running + summary.retrying + summary.completed + summary.failed
      + summary.timedOut + summary.cancelled
      = executions.countP fun e => e.organizationId = organizationId
  active : (getOperationalSummary executions organizationId).totalActive
    = executions.countP fun e => e.organizationId = organizationId
      && (e.status = .queued || e.status = .running || e.status = .retrying)

/-- By how much the sum of the counts is beyond the number of executions. -/
lemma summary_sum :
    let summary := getOperationalSummary executions organizationId
    summary.queued + summary.running + summary.retrying + summary.completed + summary.failed
      + summary.timedOut + summary.cancelled
      = (executions.countP fun e => e.organizationId = organizationId)
        + countStatus executions organizationId .retrying := by
  have hsum := sum_countStatus executions organizationId
  simp only [executionStatuses, List.map_cons, List.map_nil, List.sum_cons, List.sum_nil] at hsum
  dsimp only [getOperationalSummary]
  rw [countPending_eq]
  omega

/-- **The summary counts each execution once** exactly when none of the organization is retrying. -/
theorem countsOnce_iff : CountsOnce executions organizationId
    ↔ ∀ e ∈ executions, e.organizationId = organizationId → e.status ≠ .retrying := by
  have hnone : countStatus executions organizationId .retrying = 0
      ↔ ∀ e ∈ executions, e.organizationId = organizationId → e.status ≠ .retrying := by
    simp [countStatus, List.countP_eq_zero]
  have hsum := summary_sum executions organizationId
  rw [← hnone]
  constructor
  · intro h
    have hpartition := h.partition
    dsimp only at hsum hpartition
    omega
  · intro hzero
    constructor
    · dsimp only at hsum ⊢
      omega
    · rw [countP_active]
      dsimp only [getOperationalSummary]
      rw [countPending_eq]
      omega

/-- An execution that waits for its second attempt. -/
def retryingExecution : Execution where
  organizationId := 1
  workflowId := 1
  triggerId := none
  status := .retrying
  input := "{}"
  output := none
  error := none
  startedAt := none
  finishedAt := none
  attempts := 1
  maxAttempts := 3
  retryDelaySeconds := 60
  retryBackoff := .constant
  nextRetryAt := some 60000000
  requestedByUserId := none
  traceId := none
  cancelRequestedAt := none
  cancelledByUserId := none
  idempotencyKey := none
  createdAt := 0

/-- It is counted as queued and as retrying. -/
theorem not_countsOnce_retrying : ¬ CountsOnce [retryingExecution] 1 := by
  intro h
  exact absurd h.partition (by decide)

end Automation.OperationalMonitoring
