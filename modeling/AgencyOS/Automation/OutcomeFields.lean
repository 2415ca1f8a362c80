import AgencyOS.Automation.Transitions
import AgencyOS.Txn.Machine

/-!
The outcome fields of an execution: `finished_at`, `next_retry_at` and `error` against the status.

Each transition writes its own subset of the columns.  A column that one of them does not clear
stays behind: `mark_requeued` keeps `finished_at` and `error`, `mark_cancelled_if_pending` keeps
`next_retry_at`, `mark_succeeded` keeps `error`.

* `Execution.Described`: the outcome fields describe the status;
* `Transition.clears`: what a transition would have to find for the row to stay described;
* `described_set`: a matched transition leaves a described row described exactly then;
* `outcome_fields` (**outcome fields**): the same for every sequence of transitions.
-/

namespace Automation

open Txn

/-- The outcome fields describe the status of the row. -/
structure Execution.Described (r : Execution) : Prop where
  finished : r.finishedAt ≠ none ↔ r.status.isTerminal = true
  retry : r.nextRetryAt ≠ none ↔ r.status = .retrying
  clean : r.status = .succeeded → r.error = none
  ordered : r.status.isTerminal = true → ∀ s f, r.startedAt = some s → r.finishedAt = some f → s ≤ f

/-- The row was not started after `f`. -/
def Execution.startedBy (r : Execution) (f : Time) : Bool := r.startedAt.all (· ≤ f)

/-- What a transition would have to find for the row to stay described.  A run that succeeds, that
it has no error of an earlier run; a cancelled row, that it is not waiting for a retry; a row put
back by hand, that it is not finished, which it always is; and wherever a run is finished, that its
start is not later.  A failure is recorded with the time of the next try or with its own. -/
def Transition.clears (t : Transition) (r : Execution) : Bool :=
  match t with
  | markSucceeded _ _ finishedAt => r.error.isNone && r.startedBy finishedAt
  | markFailed _ _ toStatus nextRetryAt finishedAt =>
      if toStatus.1 = .retrying then nextRetryAt.isSome && finishedAt.isNone
      else nextRetryAt.isNone && finishedAt.any r.startedBy
  | markFailedIfQueued _ _ finishedAt | markCancelledAfterRun _ finishedAt
  | markTimedOut _ _ finishedAt => r.startedBy finishedAt
  | markCancelledIfPending _ _ _ finishedAt =>
      r.status ≠ .retrying && r.startedBy finishedAt
  | markRequeued _ => false
  | markStarted .. | markCancelRequested .. | markRequeuedDue .. => true

/-- A new execution is described by its fields. -/
lemma described_row (d : NewExecution) : d.row.Described := by
  constructor <;> simp [NewExecution.row, ExecutionStatus.isTerminal]

namespace Execution.Described

variable {r : Execution}

/-- A row on its way carries no finish time. -/
lemma unfinished (h : r.Described) (hst : r.status.isTerminal = false) : r.finishedAt = none := by
  by_contra hne
  rw [h.finished.mp hne] at hst
  cases hst

/-- A row that does not wait for a retry carries no time for one. -/
lemma unplanned (h : r.Described) (hst : r.status ≠ .retrying) : r.nextRetryAt = none := by
  by_contra hne
  exact hst (h.retry.mp hne)

end Execution.Described

/-- A start is not after `f`, as a statement about the two times. -/
lemma startedBy_iff {r : Execution} {f : Time} :
    r.startedBy f = true ↔ ∀ s, r.startedAt = some s → s ≤ f := by
  cases hs : r.startedAt with
  | none => simp [Execution.startedBy, hs]
  | some s => simp [Execution.startedBy, hs]

/-- A row that is finished now, with its time and nothing planned. -/
lemma described_finished {r : Execution} {f : Time} (hst : r.status.isTerminal = true)
    (hf : r.finishedAt = some f) (hn : r.nextRetryAt = none) :
    r.Described ↔ (r.status = .succeeded → r.error = none) ∧ r.startedBy f = true := by
  rw [startedBy_iff]
  constructor
  · intro h
    exact ⟨h.clean, fun s hs => h.ordered hst s f hs hf⟩
  · rintro ⟨hclean, hle⟩
    refine ⟨by simp [hf, hst], ?_, hclean, fun _ s f' hs hf' => ?_⟩
    · simp only [hn, ne_eq, not_true_eq_false, false_iff]
      intro hretry
      rw [hretry] at hst
      cases hst
    · obtain rfl := Option.some.inj (hf.symm.trans hf')
      exact hle s hs

/-- A row on its way, without a finish time, and with a time for a retry if it waits for one. -/
lemma described_unfinished {r : Execution} (hst : r.status.isTerminal = false)
    (hf : r.finishedAt = none) (hn : r.nextRetryAt ≠ none ↔ r.status = .retrying) :
    r.Described := by
  refine ⟨by simp [hf, hst], hn, fun h => ?_, fun h => ?_⟩
  · rw [h] at hst
    cases hst
  · rw [hst] at h
    cases h

/-- What `mark_failed` leaves of an unfinished row: it is described if the failure is recorded with
its own time, or the retry with the time of the next try, and not with the other one. -/
lemma described_failed {org : ℕ} {e : Payload} {st : FailureStatus} {n f : Option Time}
    {r : Execution} (hf : r.finishedAt = none) :
    ((Transition.markFailed org e st n f).update.set r).Described
      ↔ (Transition.markFailed org e st n f).clears r = true := by
  have hfinished : ((Transition.markFailed org e st n f).update.set r).finishedAt = f := by
    simp [Transition.update, Execution.markFailed, hf]
  have hnext : ((Transition.markFailed org e st n f).update.set r).nextRetryAt = n := rfl
  obtain ⟨st, rfl | rfl⟩ := st
  · cases n with
    | some n =>
        refine iff_of_false (fun hd => ?_) (by simp [Transition.clears])
        cases hd.retry.mp (by simp [hnext])
    | none =>
        cases f with
        | none =>
            refine iff_of_false (fun hd => ?_) (by simp [Transition.clears])
            exact hd.finished.mpr rfl hfinished
        | some f =>
            refine Iff.trans (described_finished (f := f) rfl hfinished rfl) ?_
            simp [Transition.clears, Transition.update, Execution.markFailed, Execution.startedBy]
  · cases f with
    | some f =>
        refine iff_of_false (fun hd => ?_) (by simp [Transition.clears])
        cases hd.finished.mp (by simp [hfinished])
    | none =>
        cases n with
        | none =>
            refine iff_of_false (fun hd => ?_) (by simp [Transition.clears])
            exact hd.retry.mpr rfl rfl
        | some n =>
            refine iff_of_true (described_unfinished rfl hfinished ?_) rfl
            simp [Transition.update, Execution.markFailed]

/-- **What each matched transition leaves**: a described row stays described exactly when the
transition finds what it does not clear. -/
lemma described_set {t : Transition} {r : Execution} (h : r.Described)
    (hg : t.update.guard r = true) : (t.update.set r).Described ↔ t.clears r = true := by
  cases t with
  | markStarted org now =>
      simp [Transition.update, Execution.markStarted] at hg
      have hst : r.status = .queued := hg.1.2
      have hf : r.finishedAt = none := h.unfinished (by rw [hst]; rfl)
      have hn : r.nextRetryAt = none := h.unplanned (by simp [hst])
      exact iff_of_true (described_unfinished rfl hf (by simp [Transition.update,
        Execution.markStarted, hn])) rfl
  | markSucceeded org output f =>
      simp [Transition.update, Execution.markSucceeded, Execution.isRunningUnflagged] at hg
      have hn : r.nextRetryAt = none := h.unplanned (by simp [hg.1.2])
      refine Iff.trans (described_finished (f := f) rfl rfl hn) ?_
      simp [Transition.clears, Transition.update, Execution.markSucceeded, Execution.startedBy]
  | markFailed org e st n f =>
      simp [Transition.update, Execution.markFailed, Execution.isRunningUnflagged] at hg
      have hf : r.finishedAt = none := h.unfinished (by rw [hg.1.2]; rfl)
      exact described_failed hf
  | markFailedIfQueued org e f =>
      refine Iff.trans (described_finished (f := f) rfl rfl rfl) ?_
      simp [Transition.clears, Transition.update, Execution.markFailedIfQueued, Execution.startedBy]
  | markCancelledAfterRun org f =>
      simp [Transition.update, Execution.markCancelledAfterRun] at hg
      have hn : r.nextRetryAt = none := h.unplanned (by simp [hg.1.2])
      refine Iff.trans (described_finished (f := f) rfl rfl hn) ?_
      simp [Transition.clears, Transition.update, Execution.markCancelledAfterRun,
        Execution.startedBy]
  | markCancelledIfPending org c u f =>
      simp [Transition.update, Execution.markCancelledIfPending] at hg
      rcases hg.1.2 with hst | hst
      · have hn : r.nextRetryAt = none := h.unplanned (by simp [hst])
        refine Iff.trans (described_finished (f := f) rfl rfl hn) ?_
        simp [Transition.clears, Transition.update, Execution.markCancelledIfPending,
          Execution.startedBy, hst]
      · -- the time of the retry stays on the cancelled row
        refine iff_of_false (fun hd => ?_) (by simp [Transition.clears, hst])
        have hn : r.nextRetryAt ≠ none := h.retry.mpr hst
        cases hd.retry.mp hn
  | markCancelRequested org c u =>
      simp [Transition.update, Execution.markCancelRequested, Execution.isRunningUnflagged] at hg
      exact iff_of_true ⟨h.finished, h.retry, h.clean, h.ordered⟩ rfl
  | markTimedOut org e f =>
      simp [Transition.update, Execution.markTimedOut, Execution.isRunningUnflagged] at hg
      have hn : r.nextRetryAt = none := h.unplanned (by simp [hg.1.2])
      refine Iff.trans (described_finished (f := f) rfl rfl hn) ?_
      simp [Transition.clears, Transition.update, Execution.markTimedOut, Execution.startedBy]
  | markRequeued org =>
      simp [Transition.update, Execution.markRequeued] at hg
      -- the finish time of the earlier run stays on the queued row
      refine iff_of_false (fun hd => ?_) (by simp [Transition.clears])
      have hf : r.finishedAt ≠ none := by
        rw [h.finished]
        rcases hg.2 with (hst | hst) | hst <;> rw [hst] <;> rfl
      cases hd.finished.mp hf
  | markRequeuedDue org d =>
      simp [Transition.update, Execution.markRequeuedDue] at hg
      have hf : r.finishedAt = none := h.unfinished (by rw [hg.1.2]; rfl)
      exact iff_of_true (described_unfinished rfl hf (by simp [Transition.update,
        Execution.markRequeuedDue])) rfl

/-- A transition that matches finds what it does not clear. -/
def Transition.FindsClear (r : Execution) (t : Transition) : Prop :=
  t.update.guard r = true → t.clears r = true

/-- Every transition, matched or not. -/
lemma described_step {r : Execution} (h : r.Described) (t : Transition) :
    (t.step r).Described ↔ t.FindsClear r := by
  by_cases hg : t.update.guard r = true
  · rw [Transition.step, GuardedUpdate.step_of_guard hg, described_set h hg]
    exact ⟨fun hc _ => hc, fun hc => hc hg⟩
  · rw [Transition.step, GuardedUpdate.step_of_not_guard (by simpa using hg)]
    exact iff_of_true h fun hg' => absurd hg' hg

/-- **Outcome fields.**  A new execution is described by its outcome fields, and after every one of any
sequence of guarded `UPDATE`s it still is, if and only if every `UPDATE` that matches finds what it
does not clear. -/
theorem outcome_fields (d : NewExecution) (ts : List Transition) :
    d.row.Described
      ∧ (Machine.Every (fun r t => t.step r) (fun r t => (t.step r).Described) d.row ts
          ↔ Machine.Every (fun r t => t.step r) Transition.FindsClear d.row ts) := by
  refine ⟨described_row d, ?_⟩
  refine Machine.every_congr (I := Execution.Described) (fun r t _ hstep => hstep) ?_
    (described_row d)
  exact fun r t h => described_step h t

/-- An execution that fails, is requeued when it is due, and succeeds: it keeps its error. -/
def failedThenSucceeded : List Transition :=
  [.markStarted 1 5, .markFailed 1 "boom" ⟨.retrying, isFailure_retrying⟩ (some 70) none,
    .markRequeuedDue 1 70, .markStarted 1 75, .markSucceeded 1 "done" 80]

/-- An execution that fails for good and is retried by hand: queued, with a finish time. -/
def failedThenRetried : List Transition :=
  [.markStarted 1 5, .markFailed 1 "boom" ⟨.failed, isFailure_failed⟩ none (some 10), .markRequeued 1]

/-- An execution that is cancelled while it waits for its retry: the time of the retry stays. -/
def cancelledWaiting : List Transition :=
  [.markStarted 1 5, .markFailed 1 "boom" ⟨.retrying, isFailure_retrying⟩ (some 70) none,
    .markCancelledIfPending 1 20 none 20]

/-- Three rows that their outcome fields do not describe. -/
theorem outcome_left_behind :
    (runTransitions (smallNew 2).row failedThenSucceeded).status = .succeeded
      ∧ (runTransitions (smallNew 2).row failedThenSucceeded).error = some "boom"
      ∧ (runTransitions (smallNew 2).row failedThenRetried).status = .queued
      ∧ (runTransitions (smallNew 2).row failedThenRetried).finishedAt = some 10
      ∧ (runTransitions (smallNew 2).row cancelledWaiting).status = .cancelled
      ∧ (runTransitions (smallNew 2).row cancelledWaiting).nextRetryAt = some 70
      ∧ ¬ Machine.Every (fun r t => t.step r) (fun r t => (t.step r).Described) (smallNew 2).row
          failedThenRetried := by
  refine ⟨by decide, by decide, by decide, by decide, by decide, by decide, fun h => ?_⟩
  have hqueued := h.2.2.1
  cases hqueued.finished.mp (by decide)

end Automation
