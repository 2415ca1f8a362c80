import AgencyOS.Automation.ExecutionService
import AgencyOS.Txn.Machine

/-!
The attempt budget of an execution, over full histories of its row.

`fail` decides between RETRYING and FAILED by comparing the attempts of the copy it has loaded with
`max_attempts`.  The attempts are cumulative: `mark_requeued` keeps them, so a manual retry leaves
only what the earlier runs have not used.

* `failing`, `issues_fail`: the `UPDATE` that `fail` chooses, and that it issues no other failure;
* `History`, `History.step`: the row with its earlier versions, any of which a call may have loaded;
* `FreshBudget`: an execution that keeps failing is started `max_attempts` times;
* `freshBudget_iff`: that is so exactly when no attempt has been used, or one is all there is;
* `attempt_budget` (**the attempt budget**): which manual retries give a fresh budget, and that
  an execution is never started more than `max_attempts` times without one.
-/

namespace Automation

open Txn

/-! ### The decision of `fail` -/

/-- The `UPDATE` that `fail` issues first, chosen by the copy of the row that the call has loaded. -/
def failing (organizationId : ℕ) (copy : Execution) (error : Payload) (scheduleRetry : Bool)
    (now finishedAt : Time) : Transition :=
  if copy.cancelRequestedAt.isSome then
    .markCancelledAfterRun organizationId finishedAt
  else if scheduleRetry && copy.attempts < copy.maxAttempts then
    .markFailed organizationId error ⟨.retrying, isFailure_retrying⟩
      (some (now + WorkflowExecutionService.retryDelaySeconds copy * second)) none
  else
    .markFailed organizationId error ⟨.failed, isFailure_failed⟩ none (some finishedAt)

/-- Whether a transition is a `mark_failed`. -/
def Transition.isFailure : Transition → Bool
  | markFailed .. => true
  | _ => false

/-- If the statement is a transition of an execution, it satisfies `ψ`. -/
def Transits (ψ : Transition → Prop) : Sql automation → Prop
  | .update (.transition t) _ => ψ t
  | _ => True

section Fail

variable (settings : Settings) (organizationId executionId : ℕ)

/-- Landing an outcome issues its own transition and `mark_cancelled_after_run`. -/
lemma issues_land {ψ : Transition → Prop} {t : Transition} {finishedAt : Tx Time} (ht : ψ t)
    (hcancel : ∀ f, ψ (.markCancelledAfterRun organizationId f))
    (hnow : finishedAt.Issues (Transits ψ)) :
    (WorkflowExecutionService.land organizationId executionId
      (WorkflowExecutionRepository.transition executionId t) finishedAt).Issues (Transits ψ) := by
  refine ⟨ht, fun updated => ?_⟩
  cases updated with
  | some updated => exact ⟨trivial, fun _ => trivial⟩
  | none =>
      show (Prog.bind finishedAt _).Issues _
      refine Prog.issues_bind hnow fun f => ⟨hcancel f, fun updated => ?_⟩
      cases updated with
      | some updated => exact ⟨trivial, fun _ => trivial⟩
      | none => exact ⟨trivial, fun _ => trivial⟩

/-- **`fail` issues no `mark_failed`** but the one chosen by its copy. -/
lemma issues_fail (copy : Execution) (error : Payload) (scheduleRetry : Bool) :
    (WorkflowExecutionService.fail settings (some copy) organizationId executionId error
      scheduleRetry).Issues (Transits fun t => t.isFailure = true →
        ∃ now finishedAt, t = failing organizationId copy error scheduleRetry now finishedAt) := by
  unfold WorkflowExecutionService.fail
  refine Prog.issues_bind ?_ fun _ => ?_
  · unfold WorkflowExecutionService.assertPayloadSize
    split_ifs <;> trivial
  simp only [WorkflowExecutionRepository.getOr404, WorkflowExecutionRepository.get, Prog.bind_eq,
    Prog.pure_eq, Tx.select, Prog.call_bind, Prog.ret_bind]
  refine ⟨trivial, fun row => ?_⟩
  cases hrow : Option.filter (·.organizationId = organizationId) row with
  | none =>
      simp only [hrow]
      trivial
  | some r =>
      simp only [hrow, Option.map_some, Option.getD_some, Prog.ret_bind, utcnow, Tx.now,
        Prog.call_bind]
      by_cases hrun : copy.status = .running
      · rw [if_neg (by simpa using hrun)]
        by_cases hflag : copy.cancelRequestedAt.isSome = true
        · -- the copy is flagged: no failure is recorded
          simp only [if_pos hflag]
          refine ⟨trivial, fun finishedAt => ⟨(fun h => by cases h), fun updated => ?_⟩⟩
          cases updated with
          | none => exact ⟨trivial, fun _ => trivial⟩
          | some updated => exact ⟨trivial, fun _ => trivial⟩
        · simp only [if_neg hflag]
          by_cases hretry : (scheduleRetry && decide (copy.attempts < copy.maxAttempts)) = true
          · simp only [if_pos hretry]
            refine ⟨trivial, fun finishedAt => ⟨trivial, fun now => ?_⟩⟩
            refine issues_land organizationId executionId (fun _ => ⟨now, finishedAt, ?_⟩)
              (fun _ h => by cases h) trivial
            rw [failing, if_neg hflag, if_pos hretry]
          · simp only [if_neg hretry]
            refine ⟨trivial, fun finishedAt => ?_⟩
            refine issues_land organizationId executionId (fun _ => ⟨finishedAt, finishedAt, ?_⟩)
              (fun _ h => by cases h) trivial
            rw [failing, if_neg hflag, if_neg hretry]
      · rw [if_pos (by simpa using hrun)]
        trivial

end Fail

/-! ### Histories -/

/-- The row of an execution, and the versions it had before. -/
structure History where
  row : Execution
  past : List Execution
  deriving DecidableEq, Repr

/-- What may happen to the row: a call of `fail` that has loaded its `k`-th last version lands, or
any other guarded `UPDATE` is issued. -/
inductive RowAction where
  | fail (organizationId k : ℕ) (error : Payload) (scheduleRetry : Bool) (now finishedAt : Time)
  | issue (t : {t : Transition // t.isFailure = false})
  deriving DecidableEq, Repr

namespace History

/-- The history of an execution just created. -/
def created (d : NewExecution) : History := ⟨d.row, []⟩

/-- The version that a call of `fail` has loaded. -/
def copy (x : History) (k : ℕ) : Option Execution := (x.row :: x.past)[k]?

/-- The `UPDATE` that an action issues; `fail` refuses a copy that is not running. -/
def issues (x : History) : RowAction → Option Transition
  | .fail org k error scheduleRetry now finishedAt =>
      ((x.copy k).filter (·.status = .running)).map fun copy =>
        failing org copy error scheduleRetry now finishedAt
  | .issue t => some t.1

/-- The row after an action. -/
def rowAfter (x : History) (a : RowAction) : Execution :=
  match x.issues a with
  | some t => t.step x.row
  | none => x.row

/-- The history after an action. -/
def step (x : History) (a : RowAction) : History := ⟨x.rowAfter a, x.row :: x.past⟩

/-- Whether an action is a manual retry of the row. -/
def retries (x : History) (a : RowAction) : Bool :=
  (x.issues a).any fun t => t.isRequeue && t.update.guard x.row

/-- Whether an action starts the row. -/
def isStart (x : History) (a : RowAction) : Bool := isStartOf x.row (x.rowAfter a)

/-- Whether a failure lands on the row while it runs another attempt than the copy it was decided
on. -/
def landsLate (x : History) : RowAction → Bool
  | .fail org k error scheduleRetry now finishedAt =>
      ((x.copy k).filter (·.status = .running)).any fun copy =>
        (failing org copy error scheduleRetry now finishedAt).isFailure
          && (failing org copy error scheduleRetry now finishedAt).update.guard x.row
          && copy.attempts ≠ x.row.attempts
  | .issue _ => false

/-- The starts since the last manual retry, `n` before the actions. -/
def sinceRetry : ℕ → History → List RowAction → ℕ
  | n, _, [] => n
  | n, x, a :: as =>
      sinceRetry (if x.retries a then 0 else n + (x.isStart a).toNat) (x.step a) as

end History

/-- The actions of an execution that keeps failing: it is started, it fails with the current row
loaded and asks for a retry, it is requeued when it is due. -/
def RowAction.keepsFailing : RowAction → Bool
  | .fail _ k _ scheduleRetry _ _ => k = 0 && scheduleRetry
  | .issue t =>
      match t.1 with
      | .markStarted .. | .markRequeuedDue .. => true
      | _ => false

/-- **A fresh budget**: an execution that keeps failing can become FAILED, and does so only after
exactly `max_attempts` starts. -/
def FreshBudget (r : Execution) : Prop :=
  (∃ as, (∀ a ∈ as, a.keepsFailing = true)
      ∧ (Machine.run History.step ⟨r, []⟩ as).row.status = .failed)
    ∧ ∀ as, (∀ a ∈ as, a.keepsFailing = true) →
        (Machine.run History.step ⟨r, []⟩ as).row.status = .failed →
        History.sinceRetry 0 ⟨r, []⟩ as = r.maxAttempts

/-! ### What has been spent -/

/-- No transition changes `max_attempts`. -/
@[simp] lemma maxAttempts_set (t : Transition) (r : Execution) :
    (t.update.set r).maxAttempts = r.maxAttempts := by cases t <;> rfl

/-- A row with `b` attempts when it was last put back by hand, and started `n` times since. -/
structure Spent (b n : ℕ) (r : Execution) : Prop where
  attempts : r.attempts = b + n
  queued : r.status = .queued → n = 0 ∨ b + n < r.maxAttempts
  running : r.status = .running → 0 < n
  retrying : r.status = .retrying → b + n < r.maxAttempts
  within : n ≤ 1 ∨ b + n ≤ r.maxAttempts

/-- The starts since the last manual retry stay within the budget. -/
lemma Spent.le {b n : ℕ} {r : Execution} (h : Spent b n r) (hmax : 0 < r.maxAttempts) :
    n ≤ r.maxAttempts := by
  have hwithin := h.within
  omega

/-- A matched transition, if a retry is scheduled only for a row with attempts left. -/
lemma Spent.set {b n : ℕ} {r : Execution} {t : Transition} (h : Spent b n r)
    (hg : t.update.guard r = true)
    (hretry : (t.update.set r).status = .retrying → r.attempts < r.maxAttempts) :
    Spent (if t.isRequeue then r.attempts else b)
      (if t.isRequeue then 0 else n + t.isStart.toNat) (t.update.set r) := by
  obtain ⟨hedge, -, hatt, -⟩ := Transition.set_spec hg
  obtain ⟨hattempts, hqueued, hrunning, hretrying, hwithin⟩ := h
  have hmax := maxAttempts_set t r
  generalize t.update.set r = r' at hedge hatt hmax hretry ⊢
  constructor
  all_goals
    generalize r'.status = st' at hedge hretry ⊢
    generalize r.status = st at hedge hqueued hrunning hretrying
    cases hedge with
    | started => simp_all [Transition.isRequeue, Transition.isStart] <;> omega
    | @failed _ _ _ _ st =>
        obtain ⟨st, rfl | rfl⟩ := st
        all_goals simp_all [Transition.isRequeue, Transition.isStart]
    | _ => simp_all [Transition.isRequeue, Transition.isStart]

/-! ### Along a history -/

/-- A matched transition is a start of the row exactly when it is `mark_started`. -/
lemma isStartOf_set {t : Transition} {r : Execution} (hg : t.update.guard r = true) :
    isStartOf r (t.update.set r) = t.isStart := by
  have hstep := attempts_step t r
  rw [Transition.step, GuardedUpdate.step_of_guard hg, (Transition.set_spec hg).2.2.1] at hstep
  cases hs : t.isStart <;> cases hi : isStartOf r (t.update.set r) <;> simp [hs, hi] at hstep ⊢

/-- A transition that is no failure does not lead to RETRYING. -/
lemma not_retrying_set {t : Transition} {r : Execution} (hg : t.update.guard r = true)
    (hfail : t.isFailure = false) : (t.update.set r).status ≠ .retrying := by
  have hedge := (Transition.set_spec hg).1
  intro hst
  rw [hst] at hedge
  generalize r.status = st at hedge
  generalize hst' : ExecutionStatus.retrying = st' at hedge
  cases hedge with
  | failed => cases hfail
  | _ => cases hst'

/-- `fail` schedules a retry only on a copy with attempts left. -/
lemma failing_retrying {org : ℕ} {copy r : Execution} {error : Payload} {scheduleRetry : Bool}
    {now finishedAt : Time}
    (h : ((failing org copy error scheduleRetry now finishedAt).update.set r).status = .retrying) :
    (failing org copy error scheduleRetry now finishedAt).isFailure = true
      ∧ copy.attempts < copy.maxAttempts := by
  unfold failing at h ⊢
  split_ifs at h ⊢ with hflag hretry
  · cases h
  · simp only [Bool.and_eq_true, decide_eq_true_eq] at hretry
    exact ⟨rfl, hretry.2⟩
  · cases h

namespace History

variable {x : History} {a : RowAction} {b n : ℕ}

/-- What an action does to the row: nothing, or one `UPDATE` that matched. -/
lemma row_step (x : History) (a : RowAction) :
    ((x.step a).row = x.row ∧ x.retries a = false)
      ∨ ∃ t, x.issues a = some t ∧ t.update.guard x.row = true
          ∧ (x.step a).row = t.update.set x.row := by
  cases hi : x.issues a with
  | none => exact Or.inl ⟨by simp [step, rowAfter, hi], by simp [retries, hi]⟩
  | some t =>
      have hrow : (x.step a).row = t.step x.row := by simp [step, rowAfter, hi]
      by_cases hg : t.update.guard x.row = true
      · exact Or.inr ⟨t, rfl, hg, hrow.trans (GuardedUpdate.step_of_guard hg)⟩
      · refine Or.inl ⟨hrow.trans (GuardedUpdate.step_of_not_guard (by simpa using hg)), ?_⟩
        simp [retries, hi, hg]

/-- All versions of the row have the `max_attempts` it was created with. -/
def OneBudget (x : History) : Prop := ∀ r ∈ x.past, r.maxAttempts = x.row.maxAttempts

lemma maxAttempts_step (x : History) (a : RowAction) :
    (x.step a).row.maxAttempts = x.row.maxAttempts := by
  rcases x.row_step a with ⟨hsame, -⟩ | ⟨t, -, -, hset⟩
  · rw [hsame]
  · rw [hset, maxAttempts_set]

lemma OneBudget.step (h : x.OneBudget) (a : RowAction) : (x.step a).OneBudget := by
  intro r hr
  rw [maxAttempts_step]
  rcases List.mem_cons.mp hr with rfl | hpast
  · rfl
  · exact h r hpast

/-- A loaded copy has the `max_attempts` of the row. -/
lemma OneBudget.copy (h : x.OneBudget) {k : ℕ} {r : Execution} (hr : x.copy k = some r) :
    r.maxAttempts = x.row.maxAttempts := by
  rcases List.mem_cons.mp (List.mem_of_getElem? hr) with rfl | hpast
  · rfl
  · exact h r hpast

/-- A retry is scheduled only for a row with attempts left, unless the failure lands late. -/
lemma retrying_of_issues (h : x.OneBudget) (hlate : x.landsLate a = false) {t : Transition}
    (hi : x.issues a = some t) (hg : t.update.guard x.row = true)
    (hst : (t.update.set x.row).status = .retrying) : x.row.attempts < x.row.maxAttempts := by
  cases a with
  | fail org k error scheduleRetry now finishedAt =>
      obtain ⟨copy, hcopy, rfl⟩ := Option.map_eq_some_iff.mp hi
      obtain ⟨hfail, hleft⟩ := failing_retrying hst
      simp only [landsLate, hcopy, Option.any_some, hfail, hg, Bool.true_and] at hlate
      have hatt : copy.attempts = x.row.attempts := by simpa using hlate
      have hmax := h.copy (Option.filter_eq_some_iff.mp hcopy).1
      omega
  | issue t' =>
      obtain rfl := Option.some.inj hi
      exact absurd hst (not_retrying_set hg t'.2)

/-- **One action**: a matched start spends one attempt of the budget, and a manual retry begins
to count anew from the attempts used so far. -/
lemma spent_step (h : Spent b n x.row) (hone : x.OneBudget) (hlate : x.landsLate a = false) :
    Spent (if x.retries a then x.row.attempts else b)
      (if x.retries a then 0 else n + (x.isStart a).toNat) (x.step a).row := by
  rcases x.row_step a with ⟨hsame, hretries⟩ | ⟨t, hi, hg, hset⟩
  · have hstart : x.isStart a = false := by
      rw [isStart, show x.rowAfter a = x.row from hsame, isStartOf]
      cases x.row.status <;> rfl
    simpa [hretries, hstart, hsame] using h
  · have hretries : x.retries a = t.isRequeue := by simp [retries, hi, hg]
    have hstart : x.isStart a = t.isStart := by
      rw [isStart, show x.rowAfter a = _ from hset, isStartOf_set hg]
    rw [hretries, hstart, hset]
    exact h.set hg (retrying_of_issues hone hlate hi hg)

/-- **Every history**: what has been spent after any actions none of which lands late. -/
lemma spent_run (as : List RowAction) : ∀ {b n : ℕ} {x : History}, Spent b n x.row → x.OneBudget →
    Machine.Every step (fun x a => x.landsLate a = false) x as →
    (∃ b', Spent b' (sinceRetry n x as) (Machine.run step x as).row)
      ∧ (Machine.run step x as).row.maxAttempts = x.row.maxAttempts := by
  induction as with
  | nil => exact fun h _ _ => ⟨⟨_, h⟩, rfl⟩
  | cons a as ih =>
      intro b n x h hone hlate
      obtain ⟨hb, hmax⟩ := ih (spent_step h hone hlate.1) (hone.step a) hlate.2
      exact ⟨hb, hmax.trans (maxAttempts_step x a)⟩

end History

/-! ### Executions that keep failing -/

/-- `fail` gives up only on a copy without attempts left, if it may retry. -/
lemma failing_failed {org : ℕ} {copy r : Execution} {error : Payload} {now finishedAt : Time}
    (h : ((failing org copy error true now finishedAt).update.set r).status = .failed) :
    copy.maxAttempts ≤ copy.attempts := by
  unfold failing at h
  split_ifs at h with hflag hretry
  · cases h
  · cases h
  · simpa using hretry

namespace History

variable {x : History} {a : RowAction} {b n : ℕ}

/-- The `UPDATE`s of an execution that keeps failing. -/
lemma issues_of_keepsFailing (ha : a.keepsFailing = true) {t : Transition}
    (hi : x.issues a = some t) :
    (∃ org now, t = .markStarted org now) ∨ (∃ org due, t = .markRequeuedDue org due)
      ∨ x.row.status = .running ∧ ∃ org error now finishedAt,
          t = failing org x.row error true now finishedAt := by
  cases a with
  | fail org k error scheduleRetry now finishedAt =>
      simp only [RowAction.keepsFailing, Bool.and_eq_true, decide_eq_true_eq] at ha
      obtain ⟨rfl, rfl⟩ := ha
      obtain ⟨copy, hcopy, rfl⟩ := Option.map_eq_some_iff.mp hi
      obtain ⟨hrow, hrun⟩ := Option.filter_eq_some_iff.mp hcopy
      obtain rfl : x.row = copy := Option.some.inj hrow
      exact Or.inr (Or.inr ⟨by simpa using hrun, org, error, now, finishedAt, rfl⟩)
  | issue t' =>
      obtain rfl := Option.some.inj hi
      obtain ⟨t', hno⟩ := t'
      cases t' with
      | markStarted org now => exact Or.inl ⟨org, now, rfl⟩
      | markRequeuedDue org due => exact Or.inr (Or.inl ⟨org, due, rfl⟩)
      | _ => cases ha

/-- A failing execution is not retried by hand. -/
lemma not_retries_of_keepsFailing (ha : a.keepsFailing = true) : x.retries a = false := by
  cases hi : x.issues a with
  | none => simp [retries, hi]
  | some t =>
      rcases issues_of_keepsFailing ha hi with
        ⟨org, now, rfl⟩ | ⟨org, due, rfl⟩ | ⟨-, org, error, now, finishedAt, rfl⟩
      · simp [retries, hi, Transition.isRequeue]
      · simp [retries, hi, Transition.isRequeue]
      · have hno : (failing org x.row error true now finishedAt).isRequeue = false := by
          unfold failing
          split_ifs <;> rfl
        simp [retries, hi, hno]

/-- The failures of an execution that keeps failing do not land late. -/
lemma not_landsLate_of_keepsFailing (ha : a.keepsFailing = true) : x.landsLate a = false := by
  cases a with
  | fail org k error scheduleRetry now finishedAt =>
      simp only [RowAction.keepsFailing, Bool.and_eq_true, decide_eq_true_eq] at ha
      obtain ⟨rfl, rfl⟩ := ha
      have hcopy : x.copy 0 = some x.row := rfl
      by_cases hrun : x.row.status = .running
      · simp [landsLate, hcopy, hrun]
      · simp [landsLate, hcopy, hrun]
  | issue t => rfl

/-- A failed row has been started, and has used up its attempts. -/
def Exhausted (b n : ℕ) (r : Execution) : Prop :=
  r.status = .failed → 0 < n ∧ r.maxAttempts ≤ b + n

lemma exhausted_step (h : Spent b n x.row) (hex : Exhausted b n x.row)
    (ha : a.keepsFailing = true) : Exhausted b (n + (x.isStart a).toNat) (x.step a).row := by
  intro hst
  rw [maxAttempts_step]
  rcases x.row_step a with ⟨hsame, -⟩ | ⟨t, hi, hg, hset⟩
  · obtain ⟨hpos, hle⟩ := hex (hsame ▸ hst)
    omega
  · rw [hset] at hst
    rcases issues_of_keepsFailing ha hi with
      ⟨org, now, rfl⟩ | ⟨org, due, rfl⟩ | ⟨hrun, org, error, now, finishedAt, rfl⟩
    · cases hst
    · cases hst
    · have hleft := failing_failed hst
      have hpos := h.running hrun
      have hatt := h.attempts
      omega

/-- **A failing run**: what has been spent, and that it is exhausted once it is FAILED. -/
lemma exhausted_run (as : List RowAction) : ∀ {n : ℕ} {x : History}, Spent b n x.row →
    x.OneBudget → Exhausted b n x.row → (∀ a ∈ as, a.keepsFailing = true) →
    Spent b (sinceRetry n x as) (Machine.run step x as).row
      ∧ Exhausted b (sinceRetry n x as) (Machine.run step x as).row
      ∧ (Machine.run step x as).row.maxAttempts = x.row.maxAttempts := by
  induction as with
  | nil => exact fun h _ hex _ => ⟨h, hex, rfl⟩
  | cons a as ih =>
      intro n x h hone hex has
      have ha := has a (List.mem_cons_self ..)
      have hno : x.retries a = false := not_retries_of_keepsFailing ha
      have hspent := spent_step h hone (not_landsLate_of_keepsFailing ha)
      rw [hno, if_neg Bool.false_ne_true, if_neg Bool.false_ne_true] at hspent
      obtain ⟨h₁, h₂, h₃⟩ := ih hspent (hone.step a) (exhausted_step h hex ha)
        fun a' ha' => has a' (List.mem_cons_of_mem _ ha')
      rw [sinceRetry, hno, if_neg Bool.false_ne_true]
      exact ⟨h₁, h₂, h₃.trans (maxAttempts_step x a)⟩

/-- One round of an execution that keeps failing. -/
def failOnce (organizationId : ℕ) : List RowAction :=
  [.issue ⟨.markStarted organizationId 0, rfl⟩, .fail organizationId 0 "" true 0 0]

lemma keepsFailing_failOnce (org : ℕ) : ∀ a ∈ failOnce org, a.keepsFailing = true := by
  simp [failOnce, RowAction.keepsFailing]

/-- Started and failed once: the row waits for its retry, or is FAILED. -/
lemma started_failed {x : History} (hst : x.row.status = .queued)
    (hflag : x.row.cancelRequestedAt = none) :
    let y := Machine.run step x (failOnce x.row.organizationId)
    (x.row.attempts + 1 < x.row.maxAttempts → y.row.status = .retrying
        ∧ y.row.nextRetryAt.isSome = true ∧ y.row.cancelRequestedAt = none
        ∧ y.row.attempts = x.row.attempts + 1)
      ∧ (x.row.maxAttempts ≤ x.row.attempts + 1 → y.row.status = .failed) := by
  intro y
  have hg : (Execution.markStarted x.row.organizationId 0).guard x.row = true := by
    simp [Execution.markStarted, hst, hflag]
  have hstart : (x.step (.issue ⟨.markStarted x.row.organizationId 0, rfl⟩)).row
      = (Execution.markStarted x.row.organizationId 0).set x.row := GuardedUpdate.step_of_guard hg
  generalize hz : x.step (.issue ⟨.markStarted x.row.organizationId 0, rfl⟩) = z at hstart
  have hrun : z.row.status = .running := by rw [hstart]; rfl
  have hfl : z.row.cancelRequestedAt = none := by rw [hstart]; exact hflag
  have hatt : z.row.attempts = x.row.attempts + 1 := by rw [hstart]; rfl
  have hmax : z.row.maxAttempts = x.row.maxAttempts := by rw [hstart]; rfl
  have horg : z.row.organizationId = x.row.organizationId := by rw [hstart]; rfl
  have hcopy : (z.copy 0).filter (·.status = .running) = some z.row := by
    show Option.filter _ (some z.row) = _
    simp [hrun]
  have hy : y.row = (failing x.row.organizationId z.row "" true 0 0).step z.row := by
    show ((x.step _).step _).row = _
    rw [hz]
    simp [step, rowAfter, issues, hcopy]
  have hguard : ∀ st n f,
      (Transition.markFailed x.row.organizationId "" st n f).update.guard z.row = true := by
    intro st n f
    simp [Transition.update, Execution.markFailed, Execution.isRunningUnflagged, hrun, hfl, horg]
  rw [hy, failing, if_neg (by simp [hfl])]
  constructor
  · intro hleft
    rw [if_pos (by simpa [hatt, hmax] using hleft), Transition.step,
      GuardedUpdate.step_of_guard (hguard ..)]
    exact ⟨rfl, rfl, hfl, hatt⟩
  · intro hout
    rw [if_neg (by simpa [hatt, hmax] using hout), Transition.step,
      GuardedUpdate.step_of_guard (hguard ..)]
    rfl

/-- **A queued row can always be failed until it is FAILED.** -/
lemma exists_failed (k : ℕ) : ∀ {x : History}, x.row.status = .queued →
    x.row.cancelRequestedAt = none → x.row.maxAttempts ≤ x.row.attempts + k →
    ∃ as, (∀ a ∈ as, a.keepsFailing = true) ∧ (Machine.run step x as).row.status = .failed := by
  induction k with
  | zero =>
      intro x hst hflag hmax
      exact ⟨_, keepsFailing_failOnce _, (started_failed hst hflag).2 (by omega)⟩
  | succ k ih =>
      intro x hst hflag hmax
      obtain ⟨hretry, hfailed⟩ := started_failed hst hflag
      by_cases hleft : x.row.attempts + 1 < x.row.maxAttempts
      · obtain ⟨hst', hnext, hflag', hatt⟩ := hretry hleft
        generalize hy : Machine.run step x (failOnce x.row.organizationId) = y
          at hst' hnext hflag' hatt
        have hymax : y.row.maxAttempts = x.row.maxAttempts := by
          rw [← hy]
          exact (maxAttempts_step ..).trans (maxAttempts_step ..)
        -- the requeue when it is due, and from there by induction
        obtain ⟨due, hdue⟩ := Option.isSome_iff_exists.mp hnext
        let requeue : RowAction := .issue ⟨.markRequeuedDue y.row.organizationId due, rfl⟩
        have hz : (y.step requeue).row
            = (Execution.markRequeuedDue y.row.organizationId due).set y.row := by
          refine GuardedUpdate.step_of_guard ?_
          simp [Transition.update, Execution.markRequeuedDue, hst', hdue]
        obtain ⟨as, has, hend⟩ := ih (x := y.step requeue) (by rw [hz]; rfl)
          (by rw [hz]; exact hflag') (by
            rw [hz]
            show y.row.maxAttempts ≤ y.row.attempts + k
            omega)
        refine ⟨failOnce x.row.organizationId ++ requeue :: as, ?_, ?_⟩
        · intro a ha
          rcases List.mem_append.mp ha with hfirst | hrest
          · exact keepsFailing_failOnce _ a hfirst
          · rcases List.mem_cons.mp hrest with rfl | hrest
            · rfl
            · exact has a hrest
        · rw [← hy] at hend
          rw [Machine.run, List.foldl_append]
          exact hend
      · exact ⟨_, keepsFailing_failOnce _, hfailed (by omega)⟩

end History

/-- **When a queued row has a fresh budget**: it has used none of its attempts, or has only one. -/
theorem freshBudget_iff {r : Execution} (hst : r.status = .queued)
    (hflag : r.cancelRequestedAt = none) (hmax : 0 < r.maxAttempts) :
    FreshBudget r ↔ r.attempts = 0 ∨ r.maxAttempts = 1 := by
  have hspent : Spent r.attempts 0 r :=
    ⟨rfl, fun _ => Or.inl rfl, (fun h => by simp [hst] at h), (fun h => by simp [hst] at h),
      Or.inl (Nat.zero_le 1)⟩
  have hexhausted : History.Exhausted r.attempts 0 r := fun h => by simp [hst] at h
  -- an execution that keeps failing is started once, and then as often as attempts are left
  have hcount : ∀ as, (∀ a ∈ as, a.keepsFailing = true) →
      (Machine.run History.step ⟨r, []⟩ as).row.status = .failed →
      History.sinceRetry 0 ⟨r, []⟩ as = max 1 (r.maxAttempts - r.attempts) := by
    intro as has hend
    have hone : History.OneBudget ⟨r, []⟩ := fun _ h => by cases h
    obtain ⟨h, hex, hsame⟩ := History.exhausted_run (x := ⟨r, []⟩) as hspent hone hexhausted has
    obtain ⟨hpos, hle⟩ := hex hend
    have hwithin := h.within
    rw [hsame] at hle hwithin
    have hrow : (⟨r, []⟩ : History).row.maxAttempts = r.maxAttempts := rfl
    omega
  obtain ⟨as, has, hend⟩ := History.exists_failed r.maxAttempts (x := ⟨r, []⟩) hst hflag
    (Nat.le_add_left ..)
  constructor
  · rintro ⟨-, hfresh⟩
    have := (hcount as has hend).symm.trans (hfresh as has hend)
    omega
  · intro h
    refine ⟨⟨as, has, hend⟩, fun as has hend => ?_⟩
    rw [hcount as has hend]
    omega

/-! ### The attempt budget -/

/-- A manual retry that leaves a fresh budget: of the row's attempts none has been used, or there is
only one. -/
def RetriesFresh (x : History) (a : RowAction) : Prop :=
  x.retries a = true → x.row.attempts = 0 ∨ x.row.maxAttempts = 1

/-- What a manual retry leaves: a queued row with its attempts kept. -/
lemma retried_row {x : History} {a : RowAction} (h : x.retries a = true) :
    (x.step a).row.status = .queued ∧ (x.step a).row.cancelRequestedAt = none
      ∧ (x.step a).row.attempts = x.row.attempts := by
  obtain ⟨t, hi, hmatch⟩ := (Option.any_eq_true _ _).mp h
  obtain ⟨hrequeue, hg⟩ := Bool.and_eq_true_iff.mp hmatch
  have hrow : (x.step a).row = t.update.set x.row := by
    show x.rowAfter a = _
    rw [History.rowAfter, hi]
    exact GuardedUpdate.step_of_guard hg
  rw [hrow]
  cases t with
  | markRequeued org => exact ⟨rfl, rfl, rfl⟩
  | _ => cases hrequeue

/-- **The attempt budget.**  An execution is created, and started, failed, requeued, cancelled, timed
out and retried by hand in any order, each failure decided on any version of the row that was
current once.  At its creation it has a fresh budget; it has one after each manual retry exactly
when every retry meets the row with none of its attempts used, or with one attempt in all; and if no
failure lands on another attempt than it was decided on, the starts since the last manual retry are
never more than `max_attempts`. -/
theorem attempt_budget (d : NewExecution) (hmax : 0 < d.maxAttempts) (as : List RowAction) :
    FreshBudget d.row
      ∧ (Machine.Every History.step
            (fun x a => x.retries a = true → FreshBudget (x.step a).row) (.created d) as
          ↔ Machine.Every History.step RetriesFresh (.created d) as)
      ∧ (Machine.Every History.step (fun x a => x.landsLate a = false) (.created d) as →
          History.sinceRetry 0 (.created d) as ≤ d.maxAttempts) := by
  refine ⟨(freshBudget_iff rfl rfl hmax).mpr (Or.inl rfl), ?_, fun hlate => ?_⟩
  · refine Machine.every_congr (I := fun x => 0 < x.row.maxAttempts) ?_ ?_ hmax
    · intro x a hpos _
      rwa [History.maxAttempts_step]
    · intro x a hpos
      refine forall_congr' fun hretries => ?_
      obtain ⟨hst, hflag, hatt⟩ := retried_row hretries
      rw [freshBudget_iff hst hflag (by rwa [History.maxAttempts_step]), hatt,
        History.maxAttempts_step]
  · have hspent : Spent 0 0 (History.created d).row :=
      ⟨rfl, fun _ => Or.inl rfl, (fun h => by cases h), (fun h => by cases h),
        Or.inl (Nat.zero_le 1)⟩
    have hone : (History.created d).OneBudget := fun _ h => by cases h
    obtain ⟨⟨b, h⟩, hsame⟩ := History.spent_run as hspent hone hlate
    exact (h.le (by rw [hsame]; exact hmax)).trans_eq hsame

/-- Started and failed twice, with two attempts. -/
def failedTwice : List RowAction :=
  History.failOnce 1 ++ .issue ⟨.markRequeuedDue 1 (60 * second), rfl⟩ :: History.failOnce 1

/-- Two attempts, both failed: exactly two starts, and no manual retry yet. -/
theorem attempt_budget_two :
    History.sinceRetry 0 (.created (smallNew 2)) failedTwice = 2
      ∧ History.sinceRetry 0 (.created (smallNew 2)) failedTwice ≤ 2
      ∧ Machine.Every History.step RetriesFresh (.created (smallNew 2)) failedTwice := by
  obtain ⟨-, hretries, hbound⟩ := attempt_budget (smallNew 2) (by decide) failedTwice
  refine ⟨by decide, hbound (by decide), hretries.mp ?_⟩
  have hno : Machine.Every History.step (fun x a => x.retries a = false) (.created (smallNew 2))
      failedTwice := by decide
  exact hno.mono fun x a h h' => by
    rw [h] at h'
    cases h'

/-- After the manual retry of an execution that has failed twice, one more start fails it for good:
it has no fresh budget. -/
theorem stale_budget :
    let x := Machine.run History.step (.created (smallNew 2)) failedTwice
    let retry : RowAction := .issue ⟨.markRequeued 1, rfl⟩
    x.row.status = .failed ∧ x.retries retry = true ∧ ¬ FreshBudget (x.step retry).row
      ∧ History.sinceRetry 0 (.created (smallNew 2))
          (failedTwice ++ retry :: History.failOnce 1) = 1
      ∧ (Machine.run History.step (.created (smallNew 2))
          (failedTwice ++ retry :: History.failOnce 1)).row.status = .failed := by
  refine ⟨by decide, by decide, fun h => ?_, by decide, by decide⟩
  have hone := h.2 (History.failOnce 1) (by decide) (by decide)
  revert hone
  decide

end Automation
