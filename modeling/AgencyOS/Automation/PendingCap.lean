import AgencyOS.Automation.Worker
import AgencyOS.Automation.ApprovalService
import AgencyOS.Txn.Quota

/-!
The cap on the pending executions of an organization.

`queue` counts the pending executions and inserts one, in two statements.  A retry by hand and a run
that fails with attempts left make an execution pending again, and neither of them counts.

* `pendingQuota`: QUEUED and RETRYING executions of an organization, and what may add to them;
* `Tidy`, `Closes`: the parts of a service that write at most one execution in a transaction, and
  those that end it;
* `Caller`: the non-bypassing callers of `queue`, the operations of workers and users, and the phases
  of the workers;
* `executions_within_cap_iff`: **the cap bounds the pending executions exactly when every commit finds
  room for the execution that it makes pending**.
-/

namespace Automation

open Txn WorkflowExecutionRepository WorkflowExecutionService ExecutionWorker
  AutomationControlService

/-! ### The quota -/

/-- QUEUED or RETRYING, in the organization: the condition of `count_pending`. -/
def Execution.isPending (organizationId : ℕ) (r : Execution) : Bool :=
  r.organizationId = organizationId && (r.status = .queued || r.status = .retrying)

/-- The transitions that make an execution pending: `mark_requeued`, and `mark_failed` with a retry. -/
def Transition.makesPending : Transition → Bool
  | markRequeued _ => true
  | markFailed _ _ toStatus _ _ => toStatus.1 = .retrying
  | _ => false

/-- Any other transition leads to a pending row only from one. -/
lemma isPending_of_set {org : ℕ} {t : Transition} {r : Execution} (ht : t.makesPending = false)
    (hg : t.update.guard r = true) (h : (t.update.set r).isPending org = true) :
    r.isPending org = true := by
  obtain ⟨hedge, -, -, horg⟩ := Transition.set_spec hg
  simp only [Execution.isPending, Bool.and_eq_true, Bool.or_eq_true, decide_eq_true_eq, horg] at h ⊢
  refine ⟨h.1, ?_⟩
  have hst := h.2
  generalize (t.update.set r).status = st' at hedge hst
  generalize r.status = st at hedge
  cases hedge with
  | requeuedDue => exact Or.inr rfl
  | requeuedFailed | requeuedCancelled | requeuedTimedOut => cases ht
  | @failed _ _ _ _ st =>
      obtain ⟨st, rfl | rfl⟩ := st
      · rcases hst with hst | hst <;> cases hst
      · cases ht
  | _ => rcases hst with hst | hst <;> cases hst

/-- The pending executions of an organization. -/
def pendingQuota (organizationId : ℕ) : Quota automation where
  table := .execution
  counts t r :=
    match t, r with
    | .execution, r => r.isPending organizationId
    | _, _ => false
  query := .countPending organizationId
  source := rfl
  matching _ := rfl
  enters u :=
    match u with
    | .transition t => t.makesPending
    | _ => false
  keeps_out u r ht hg h := by
    cases u with
    | transition t => exact isPending_of_set ht hg h
    | _ => cases h

/-! ### One execution in a transaction -/

section Tidy

variable (organizationId cap : ℕ) {α β : Type}

/-- The program writes at most one execution in a transaction, and creates it after a count below the
cap. -/
abbrev Tidy (p : Tx α) : Prop := (pendingQuota organizationId).Tidy cap p

/-- The program ends its transaction at once. -/
abbrev Closes (p : Tx α) : Prop := (pendingQuota organizationId).Closes cap p

variable {organizationId cap}

lemma tidy_raise (code message : String) (statusCode : ℕ) :
    Tidy organizationId cap (raise code message statusCode : Tx α) := fun _ h => h

lemma tidy_raise_bind (code message : String) (statusCode : ℕ) (f : α → Tx β) :
    Tidy organizationId cap ((raise code message statusCode : Tx α).bind f) := fun _ h => h

lemma closes_rollbackAndRaise (code message : String) (statusCode : ℕ) :
    Closes organizationId cap (rollbackAndRaise code message statusCode : Tx α) :=
  fun _ => ⟨trivial, fun _ => rfl⟩

lemma closes_commit (a : α) :
    Closes organizationId cap (Prog.bind commitWithRetry fun _ => .ret a : Tx α) :=
  Quota.closes_commit a

lemma tidy_now : Tidy organizationId cap (Tx.now : Tx Time) := Quota.tidy_now

/-- A transition: when it matches, the transaction must be ended. -/
lemma tidy_transition (t : Transition) (executionId : ℕ) {k : Option Execution → Tx α}
    (hnone : Tidy organizationId cap (k none))
    (hsome : ∀ r, Closes organizationId cap (k (some r))) :
    Tidy organizationId cap ((transition executionId t).bind k) :=
  Quota.tidy_update _ _ hnone hsome

/-! ### The operations of the services -/

variable {loaded : Option Execution} {org executionId : ℕ}

lemma tidy_get : Tidy organizationId cap (WorkflowExecutionRepository.get loaded org executionId) :=
  Quota.tidy_select _ _ fun _ => rests_ret _

lemma tidy_getOr404 : Tidy organizationId cap (getOr404 loaded org executionId) := by
  simp only [getOr404, Prog.bind_eq]
  refine tidy_get.bind fun row => ?_
  cases row with
  | none => exact tidy_raise _ _ _
  | some r => exact rests_ret _

lemma tidy_assertPayloadSize (settings : Settings) (payload : Payload) (field : String) :
    Tidy organizationId cap (assertPayloadSize settings payload field) := by
  unfold assertPayloadSize
  split_ifs
  · exact tidy_raise _ _ _
  · exact rests_ret _

lemma tidy_isEnabled : Tidy organizationId cap isEnabled :=
  Quota.tidy_select _ _ fun _ => rests_ret _

lemma tidy_pausedReason : Tidy organizationId cap pausedReason :=
  Quota.tidy_select _ _ fun _ => rests_ret _

lemma tidy_blockIfPaused (code message : String) :
    Tidy organizationId cap (blockIfPaused code message) := by
  simp only [blockIfPaused, Prog.bind_eq, Prog.pure_eq]
  refine tidy_isEnabled.bind fun enabled => ?_
  cases enabled with
  | true => exact rests_ret _
  | false => exact tidy_pausedReason.bind fun _ => tidy_raise _ _ _

/-- The insert of `queue`, after a count below the cap. -/
lemma obeys_insert {data : NewExecution} {g : Quota.Ghost} (hg : g.written = none)
    (hcount : data.organizationId = organizationId → ∃ c, g.answer = some c ∧ c < cap) :
    (Prog.bind (Tx.insert (S := automation) (.execution data)) fun executionId =>
      Prog.bind commitWithRetry fun _ => (.ret executionId : Tx ℕ)).Obeys
        ((pendingQuota organizationId).monitor cap) (fun g _ => g.written = none) g := by
  refine ⟨fun _ => ⟨hg, fun hpending => hcount ?_⟩, fun _ => closes_commit _ _⟩
  have hrow : data.row.isPending organizationId = true := hpending
  simp only [Execution.isPending, Bool.and_eq_true, decide_eq_true_eq] at hrow
  exact hrow.1

/-- A count of the organization is the one of its quota. -/
lemma obeys_countPending {org : ℕ} {g : Quota.Ghost} (hg : g.written = none) {k : ℕ → Tx α}
    (hk : ∀ pending g, g.written = none → (org = organizationId → g.answer = some pending) →
      (k pending).Obeys ((pendingQuota organizationId).monitor cap) (fun g _ => g.written = none) g) :
    ((countPending org).bind k).Obeys ((pendingQuota organizationId).monitor cap)
      (fun g _ => g.written = none) g := by
  by_cases horg : org = organizationId
  · subst horg
    exact Quota.obeys_count hg fun rows => hk rows.length _ hg fun _ => rfl
  · refine ⟨fun _ => hg, fun rows => hk rows.length _ ?_ fun h => absurd h horg⟩
    have hstep : ((pendingQuota organizationId).monitor cap).step g
        ⟨.scan (.countPending org), rows⟩ = g := if_neg fun h => horg (Query.countPending.inj h)
    rw [hstep]
    exact hg

/-- **`queue` without the bypass** inserts after a count below the cap. -/
lemma tidy_queue (settings : Settings) (data : NewExecution) (refused : Bool) :
    Tidy organizationId settings.executionMaxPendingPerOrg (queue settings data false refused) := by
  simp only [queue, blockQueueIfPaused, Prog.bind_eq, Prog.pure_eq]
  refine (tidy_blockIfPaused _ _).bind fun _ => Quota.tidy_select _ _ fun workflow => ?_
  simp only [Prog.ret_bind]
  cases Option.filter (fun x => decide (x.organizationId = data.organizationId)) workflow with
  | none => exact tidy_raise _ _ _
  | some workflow =>
      by_cases hactive : workflow.status = .active
      · simp only [hactive, ne_eq, not_true_eq_false, if_false]
        refine fun g hg => obeys_countPending hg fun pending g hg hcount => ?_
        by_cases hcap : settings.executionMaxPendingPerOrg ≤ pending
        · simp only [Bool.not_false, Bool.true_and, decide_eq_true hcap, if_true]
          exact hg
        · simp only [Bool.not_false, Bool.true_and, decide_eq_false hcap, Bool.false_eq_true, if_false]
          cases refused with
          | true =>
              simp only [if_true]
              split_ifs
              · exact ⟨trivial, fun _ => rfl⟩
              · exact ⟨trivial, fun _ => rfl⟩
          | false => exact obeys_insert hg fun horg => ⟨pending, hcount horg, not_le.mp hcap⟩
      · simp only [ne_eq, hactive, not_false_eq_true, if_true]
        exact tidy_raise_bind _ _ _ _

/-! ### The operations on one execution -/

lemma tidy_start : Tidy organizationId cap (start loaded org executionId) := by
  simp only [start, Prog.bind_eq, Prog.pure_eq]
  refine tidy_now.bind fun now => tidy_getOr404.bind fun execution => ?_
  split_ifs
  · exact tidy_raise_bind _ _ _ _
  · exact tidy_transition _ _ (closes_rollbackAndRaise _ _ _).tidy fun r => closes_commit r

lemma tidy_land (t : Transition) {finishedAt : Tx Time} (hf : Tidy organizationId cap finishedAt) :
    Tidy organizationId cap (land org executionId (transition executionId t) finishedAt) := by
  simp only [land, Prog.bind_eq, Prog.pure_eq]
  refine tidy_transition _ _ (hf.bind fun f => ?_) fun r => closes_commit r
  exact tidy_transition _ _ (closes_rollbackAndRaise _ _ _).tidy fun r => closes_commit r

lemma tidy_complete (settings : Settings) (output : Payload) :
    Tidy organizationId cap (complete settings loaded org executionId output) := by
  simp only [complete, Prog.bind_eq, Prog.pure_eq]
  refine (tidy_assertPayloadSize _ _ _).bind fun _ => tidy_getOr404.bind fun execution => ?_
  split_ifs
  · exact tidy_raise_bind _ _ _ _
  · exact tidy_now.bind fun f => tidy_land _ (rests_ret f)

lemma tidy_fail (settings : Settings) (error : Payload) (scheduleRetry : Bool) :
    Tidy organizationId cap (fail settings loaded org executionId error scheduleRetry) := by
  simp only [WorkflowExecutionService.fail, Prog.bind_eq, Prog.pure_eq]
  refine (tidy_assertPayloadSize _ _ _).bind fun _ => tidy_getOr404.bind fun execution => ?_
  by_cases hrun : execution.status = .running
  · rw [if_neg (by simpa using hrun)]
    refine tidy_now.bind fun f => ?_
    split_ifs
    · exact tidy_transition _ _ (closes_rollbackAndRaise _ _ _).tidy fun r => closes_commit r
    · exact tidy_now.bind fun now => tidy_land _ (rests_ret f)
    · exact tidy_land _ (rests_ret f)
  · rw [if_pos (by simpa using hrun)]
    exact tidy_raise_bind _ _ _ _

lemma tidy_failQueued (settings : Settings) (error : Payload) :
    Tidy organizationId cap (failQueued settings loaded org executionId error) := by
  simp only [failQueued, Prog.bind_eq, Prog.pure_eq]
  refine (tidy_assertPayloadSize _ _ _).bind fun _ => tidy_getOr404.bind fun execution => ?_
  split_ifs
  · exact tidy_raise_bind _ _ _ _
  · refine tidy_now.bind fun f => ?_
    exact tidy_transition _ _ (closes_rollbackAndRaise _ _ _).tidy fun r => closes_commit r

lemma tidy_retry : Tidy organizationId cap (retry loaded org executionId) := by
  simp only [retry, blockExecutionIfPaused, Prog.bind_eq, Prog.pure_eq]
  refine (tidy_blockIfPaused _ _).bind fun _ => tidy_getOr404.bind fun execution => ?_
  split_ifs
  · exact tidy_transition _ _ (closes_rollbackAndRaise _ _ _).tidy fun r => closes_commit r
  · exact tidy_raise_bind _ _ _ _

lemma tidy_requeueDue : Tidy organizationId cap (requeueDue org executionId) := by
  simp only [requeueDue, Prog.bind_eq, Prog.pure_eq]
  refine tidy_now.bind fun now => ?_
  exact tidy_transition _ _ (rests_ret none) fun r => closes_commit (some r)

lemma tidy_timeout : Tidy organizationId cap (timeout loaded org executionId) := by
  simp only [timeout, Prog.bind_eq]
  refine tidy_getOr404.bind fun execution => ?_
  split_ifs
  · exact tidy_raise_bind _ _ _ _
  · exact tidy_now.bind fun f => tidy_land _ tidy_now

/-- The second `UPDATE` of `cancel` is tried only when the first has matched nothing. -/
lemma tidy_cancelOrFlag {execution : Execution} {user : Option ℕ} {f : Time}
    {k : Option Execution → Tx α} (hnone : Tidy organizationId cap (k none))
    (hsome : ∀ r, Closes organizationId cap (k (some r))) :
    Tidy organizationId cap ((cancelOrFlag execution org executionId user f).bind k) := by
  unfold cancelOrFlag
  split_ifs
  · exact tidy_transition _ _ (tidy_transition _ _ hnone hsome) hsome
  · exact tidy_transition _ _ hnone hsome

lemma tidy_cancel (user : Option ℕ) :
    Tidy organizationId cap (cancel loaded org executionId user) := by
  simp only [cancel, Prog.bind_eq, Prog.pure_eq]
  refine tidy_getOr404.bind fun execution => ?_
  split_ifs
  · exact rests_ret _
  · refine tidy_now.bind fun f => tidy_cancelOrFlag (tidy_get.bind fun row => ?_)
      fun r => closes_commit r
    cases row with
    | none => exact tidy_raise _ _ _
    | some r => exact (closes_commit r).tidy
  · exact tidy_raise_bind _ _ _ _

/-! ### The phases -/

lemma tidy_attempt {p : Tx α} (hp : Tidy organizationId cap p) :
    Tidy organizationId cap (attempt p) := by
  refine (hp.bind fun a => rests_ret (some a)).tryCatch fun e => ?_
  split
  · exact rests_ret none
  · exact rests_raise _
  · exact rests_raise _

lemma tidy_processRetries : Tidy organizationId cap processRetries := by
  simp only [processRetries, Prog.bind_eq, Prog.pure_eq]
  refine tidy_now.bind fun before => ?_
  refine Rests.bind (Quota.tidy_scan _ fun _ => rests_ret _) fun executions => ?_
  refine (rests_tally (fun row => ?_) executions).bind fun n => (closes_commit n).tidy
  exact tidy_requeueDue.bind fun _ => rests_ret _

lemma tidy_settle (settings : Settings) (adapter : Adapter) (started : Execution) :
    Tidy organizationId cap (settle settings adapter executionId started) := by
  unfold settle
  split
  · exact tidy_attempt tidy_timeout
  · exact tidy_attempt (tidy_fail _ _ _)
  · exact tidy_attempt (tidy_complete _ _)

lemma tidy_drain (settings : Settings) (adapter : Adapter) (workflows : List (ℕ × Workflow))
    (execution : Execution) :
    Tidy organizationId cap (drain settings adapter workflows executionId execution) := by
  simp only [drain, Prog.bind_eq, Prog.pure_eq]
  split_ifs
  · refine (tidy_attempt tidy_start).bind fun started => ?_
    cases started with
    | none => exact rests_ret 0
    | some started => exact (tidy_settle _ _ _).bind fun _ => rests_ret 1
  · exact (tidy_attempt (tidy_failQueued _ _)).bind fun _ => rests_ret 1

lemma tidy_processQueued (settings : Settings) (adapter : Adapter) (batchSize : ℕ) :
    Tidy organizationId cap (processQueued settings adapter batchSize) := by
  simp only [processQueued, Prog.bind_eq, Prog.pure_eq]
  refine Rests.bind (Quota.tidy_scan _ fun _ => rests_ret _) fun orgs => ?_
  refine rests_tally (fun org => ?_) orgs
  refine Rests.bind (Quota.tidy_scan _ fun _ => rests_ret _) fun executions => ?_
  split_ifs
  · exact rests_ret 0
  · refine Rests.bind (Quota.tidy_scan _ fun _ => rests_ret _) fun workflows => ?_
    refine (rests_tally (fun row => tidy_drain _ _ _ _) executions).bind fun n => ?_
    exact (closes_commit n).tidy

lemma tidy_timeoutStuck (settings : Settings) :
    Tidy organizationId cap (timeoutStuck settings) := by
  simp only [timeoutStuck, Prog.bind_eq, Prog.pure_eq]
  refine Rests.bind (tidy_now.bind fun now => Quota.tidy_scan _ rests_ret)
    fun executions => ?_
  refine (rests_tally (fun row => ?_) executions).bind fun n => (closes_commit n).tidy
  exact (tidy_attempt tidy_timeout).bind fun updated => rests_ret _

lemma tidy_claimGate (requestId : ℕ) (handledAt : Time) :
    Tidy organizationId cap (ApprovalRequestRepository.claimGate requestId handledAt) :=
  Quota.tidy_update_other (S := automation) (u := .claimGate handledAt) (fun h => by cases h) requestId
    fun _ => rests_ret _

lemma tidy_takeAction (action : Option GateAction) (user : Option ℕ) :
    Tidy organizationId cap
      (ApprovalGateService.takeAction action loaded org executionId user) := by
  unfold ApprovalGateService.takeAction
  split
  · exact tidy_retry.bind fun _ => rests_ret _
  · exact (tidy_cancel user).bind fun _ => rests_ret _
  · exact rests_ret _

/-- A gate stamps its request, and then retries or cancels one execution. -/
lemma tidy_processGate (requestId : ℕ) (req : ApprovalRequest) :
    Tidy organizationId cap (ApprovalGateService.processGate requestId req) := by
  unfold ApprovalGateService.processGate
  split
  · simp only [Prog.bind_eq, Prog.pure_eq]
    refine tidy_now.bind fun handledAt => (tidy_claimGate _ _).bind fun claimed => ?_
    cases claimed with
    | true => exact (closes_commit _).tidy
    | false => exact rests_ret _
  · simp only [Prog.bind_eq, Prog.pure_eq]
    refine tidy_get.bind fun execution => tidy_now.bind fun handledAt => ?_
    refine (tidy_claimGate _ _).bind fun claimed => ?_
    cases claimed with
    | false => exact rests_ret _
    | true =>
        refine Rests.tryCatch ((tidy_takeAction _ _).bind fun _ => (closes_commit _).tidy) fun e => ?_
        split
        · exact rests_raise _
        · exact fun _ _ => ⟨trivial, fun _ => rfl⟩

lemma tidy_sweep (limit : ℕ) : Tidy organizationId cap (ApprovalGateService.sweep limit) := by
  simp only [ApprovalGateService.sweep, ApprovalRequestRepository.listUnhandledGates, Prog.bind_eq,
    Prog.pure_eq]
  refine Rests.bind (Quota.tidy_scan _ fun _ => rests_ret _) fun requests => ?_
  exact rests_tally (fun row => (tidy_processGate _ _).bind fun _ => rests_ret _) requests

end Tidy

/-! ### Runs -/

/-- Who works on executions: a non-bypassing caller of `queue`, a worker or a user with one of the
operations, or a phase of a worker. -/
inductive Caller where
  | queue (data : NewExecution) (refused : Bool)
  | start (loaded : Option Execution) (organizationId executionId : ℕ)
  | complete (loaded : Option Execution) (organizationId executionId : ℕ) (output : Payload)
  | fail (loaded : Option Execution) (organizationId executionId : ℕ) (error : Payload)
      (scheduleRetry : Bool)
  | failQueued (loaded : Option Execution) (organizationId executionId : ℕ) (error : Payload)
  | retry (loaded : Option Execution) (organizationId executionId : ℕ)
  | requeueDue (organizationId executionId : ℕ)
  | cancel (loaded : Option Execution) (organizationId executionId : ℕ)
      (cancelledByUserId : Option ℕ)
  | timeout (loaded : Option Execution) (organizationId executionId : ℕ)
  | processRetries
  | processQueued (adapter : Adapter) (batchSize : ℕ)
  | timeoutStuck
  | sweepGates (limit : ℕ)

/-- The call, in a session of its own. -/
def Caller.program (settings : Settings) : Caller → Tx Unit
  | queue data refused => client (WorkflowExecutionService.queue settings data false refused)
  | start loaded org executionId => client (WorkflowExecutionService.start loaded org executionId)
  | complete loaded org executionId output =>
      client (WorkflowExecutionService.complete settings loaded org executionId output)
  | fail loaded org executionId error scheduleRetry =>
      client (WorkflowExecutionService.fail settings loaded org executionId error scheduleRetry)
  | failQueued loaded org executionId error =>
      client (WorkflowExecutionService.failQueued settings loaded org executionId error)
  | retry loaded org executionId => client (WorkflowExecutionService.retry loaded org executionId)
  | requeueDue org executionId => client (WorkflowExecutionService.requeueDue org executionId)
  | cancel loaded org executionId user =>
      client (WorkflowExecutionService.cancel loaded org executionId user)
  | timeout loaded org executionId =>
      client (WorkflowExecutionService.timeout loaded org executionId)
  | processRetries => client ExecutionWorker.processRetries
  | processQueued adapter batchSize =>
      client (ExecutionWorker.processQueued settings adapter batchSize)
  | timeoutStuck => client (ExecutionWorker.timeoutStuck settings)
  | sweepGates limit => client (ApprovalGateService.sweep limit)

/-- Every caller makes at most one execution pending in a transaction, and creates it after a count
below the cap. -/
lemma tidy_program (settings : Settings) (organizationId : ℕ) (caller : Caller) :
    Tidy organizationId settings.executionMaxPendingPerOrg (caller.program settings) := by
  have hclient : ∀ {α : Type} {p : Tx α},
      Tidy organizationId settings.executionMaxPendingPerOrg p →
      Tidy organizationId settings.executionMaxPendingPerOrg (client p) := fun hp =>
    (hp.withSession (fun _ _ => trivial) fun _ _ => rfl).bind fun _ => rests_ret ()
  cases caller with
  | queue data refused => exact hclient (tidy_queue settings data refused)
  | start => exact hclient tidy_start
  | complete => exact hclient (tidy_complete _ _)
  | fail => exact hclient (tidy_fail _ _ _)
  | failQueued => exact hclient (tidy_failQueued _ _)
  | retry => exact hclient tidy_retry
  | requeueDue => exact hclient tidy_requeueDue
  | cancel => exact hclient (tidy_cancel _)
  | timeout => exact hclient tidy_timeout
  | processRetries => exact hclient tidy_processRetries
  | processQueued => exact hclient (tidy_processQueued _ _ _)
  | timeoutStuck => exact hclient (tidy_timeoutStuck _)
  | sweepGates limit => exact hclient (tidy_sweep limit)

variable {ι : Type} [DecidableEq ι]

/-- How many executions of the organization are pending, without those that bypassing callers have
created. -/
def pending (organizationId : ℕ) (bypassed : ℕ → Bool) (s : Database ι) : ℕ :=
  (pendingQuota organizationId).load bypassed s

/-- A commit finds room for an execution that it makes pending: one just queued, less than what its
count has left has been taken since; one put back, less than the cap are pending. -/
def FindsRoom (settings : Settings) (organizationId : ℕ) (bypassed : ℕ → Bool)
    (past : List (Happened ι)) (ev : Happened ι) : Prop :=
  (pendingQuota organizationId).Room settings.executionMaxPendingPerOrg bypassed past ev

/-- **The pending cap of executions.**  In a run of non-bypassing callers of `queue`, workers and users,
the pending executions of an organization stay within the cap in every committed state exactly when
every commit finds room for the execution that it makes pending. -/
theorem executions_within_cap_iff (settings : Settings) (callers : ι → Caller) (organizationId : ℕ)
    (bypassed : ℕ → Bool) {s : Database ι} {c : Sessions ι Unit} (hs : s.Settled)
    (hcap : pending organizationId bypassed s ≤ settings.executionMaxPendingPerOrg)
    (h : Pool.Reach (postgres ι) (.start (fun i => (callers i).program settings) s) c) :
    Along (FindsRoom settings organizationId bypassed) c.trace
      ↔ ∀ ev ∈ c.trace,
          pending organizationId bypassed ev.after ≤ settings.executionMaxPendingPerOrg :=
  h.within_iff hs hcap fun i => tidy_program settings organizationId (callers i) _ rfl

/-! ### Two callers at once -/

/-- One execution more may wait beside the one that does. -/
def tightSettings : Settings := { smallSettings with executionMaxPendingPerOrg := 2 }

/-- An execution of the workflow under id 1. -/
def oneMore : NewExecution where
  organizationId := 1
  workflowId := 1
  triggerId := none
  input := ""
  maxAttempts := 3
  retryDelaySeconds := 60
  retryBackoff := .exponential
  requestedByUserId := none
  traceId := none
  idempotencyKey := none
  createdAt := 0

/-- Two callers queue at once. -/
def twoQueues : Fin 2 → Caller := fun _ => .queue oneMore false

/-- Both callers have counted before one of them inserts. -/
lemma twoQueues_overflow : ∃ c, Pool.Reach (postgres (Fin 2))
      (.start (fun i => (twoQueues i).program tightSettings)
        (smallDatabase smallExecution (.still 0))) c
    ∧ ∃ ev ∈ c.trace, tightSettings.executionMaxPendingPerOrg < pending 1 (fun _ => false) ev.after := by
  have hrun : ((Pool.start (fun i => (twoQueues i).program tightSettings)
      (smallDatabase smallExecution (.still 0))).run (postgres (Fin 2))
        (List.replicate 3 (.step 0) ++ List.replicate 3 (.step 1) ++ List.replicate 3 (.step 0)
          ++ List.replicate 3 (.step 1))).any (fun c => c.trace.any fun ev =>
            decide (tightSettings.executionMaxPendingPerOrg < pending 1 (fun _ => false) ev.after))
        = true := by
    decide +kernel
  obtain ⟨c, hc, hover⟩ := Pool.exists_of_run hrun
  obtain ⟨ev, hev, hlt⟩ := List.any_eq_true.mp hover
  exact ⟨c, hc, ev, hev, of_decide_eq_true hlt⟩

/-- One after the other, they stay within the cap. -/
lemma twoQueues_apart : ∃ c, Pool.Reach (postgres (Fin 2))
      (.start (fun i => (twoQueues i).program tightSettings)
        (smallDatabase smallExecution (.still 0))) c
    ∧ (∀ ev ∈ c.trace, pending 1 (fun _ => false) ev.after
        ≤ tightSettings.executionMaxPendingPerOrg)
    ∧ pending 1 (fun _ => false) c.store = tightSettings.executionMaxPendingPerOrg := by
  have hrun : ((Pool.start (fun i => (twoQueues i).program tightSettings)
      (smallDatabase smallExecution (.still 0))).run (postgres (Fin 2))
        (List.replicate 6 (.step 0) ++ List.replicate 4 (.step 1))).any (fun c =>
          (c.trace.all fun ev => decide (pending 1 (fun _ => false) ev.after
            ≤ tightSettings.executionMaxPendingPerOrg))
          && decide (pending 1 (fun _ => false) c.store
            = tightSettings.executionMaxPendingPerOrg)) = true := by
    decide +kernel
  obtain ⟨c, hc, hin⟩ := Pool.exists_of_run hrun
  simp only [Bool.and_eq_true, List.all_eq_true, decide_eq_true_eq] at hin
  exact ⟨c, hc, hin.1, hin.2⟩

end Automation
