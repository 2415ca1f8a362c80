import AgencyOS.Automation.ExecutionService

/-!
Cancelling an execution amid any interference.

`cancel` chooses its `UPDATE` by a status it has read earlier.  When the row has moved from
RUNNING back to RETRYING in between, its `mark_cancel_requested` matches nothing and the request
is lost, although `cancel` returns.

* `Honoured`: after the last `UPDATE` of a cancel the row is terminal or flagged;
* `StrikesPending`: a `mark_cancel_requested` that meets a row still to be cancelled as pending;
* `meets_cancel`: the `UPDATE`s a returning cancel has executed, whatever the others do;
* `cancel_honoured_iff` (**when a cancel is honoured**): exactly when it strikes no pending row;
* `cancel_lost`: a run in which a cancel returns and the row is retried all the same.
-/

namespace Automation

open Txn WorkflowExecutionRepository WorkflowExecutionService

variable {ι : Type} [DecidableEq ι]

/-! ### The updates of a session on one execution -/

/-- Whether an event is a transition of execution `executionId`. -/
def isTransitionOn (executionId : ℕ) (ev : Happened ι) : Bool :=
  match ev.stmt with
  | .update (.transition _) n => n = executionId
  | _ => false

/-- The transitions of execution `executionId` among some events. -/
def transitionsOn (executionId : ℕ) (h : List (Happened ι)) : List (Happened ι) :=
  h.filter (isTransitionOn executionId)

/-- The row of execution `executionId` that session `i` sees. -/
def rowSeen (i : ι) (executionId : ℕ) (s : Database ι) : Option Execution :=
  s.view i .execution executionId

/-- The row is settled, or flagged for cancellation. -/
def Execution.Stopped (r : Execution) : Prop :=
  r.status.isTerminal = true ∨ r.cancelRequestedAt ≠ none

/-- After the last `UPDATE` of the row among `h`, the row is terminal or flagged. -/
def Honoured (i : ι) (organizationId executionId : ℕ) (h : List (Happened ι)) : Prop :=
  ∀ ev ∈ (transitionsOn executionId h).getLast?, ∀ r ∈ rowSeen i executionId ev.after,
    r.organizationId = organizationId → r.Stopped

instance (r : Execution) : Decidable r.Stopped := inferInstanceAs (Decidable (_ ∨ _))

instance (i : ι) (org n : ℕ) (h : List (Happened ι)) : Decidable (Honoured i org n h) :=
  inferInstanceAs (Decidable (∀ _ ∈ _, _))

/-- A `mark_cancel_requested` that meets a row which `mark_cancelled_if_pending` would cancel. -/
def StrikesPending (i : ι) (executionId : ℕ) (ev : Happened ι) : Prop :=
  match ev.stmt with
  | .update (.transition (.markCancelRequested org at' user)) n =>
      n = executionId ∧ ∃ r, rowSeen i executionId ev.before = some r
        ∧ (Execution.markCancelledIfPending org at' user at').guard r = true
  | _ => False

/-! ### What each statement leaves in the history -/

/-- The contract that allows any interference. -/
abbrev anything (ι : Type) : Contract (sql automation) ι (Database ι) := .free

/-- A program that issues no transition of the execution leaves the transitions as they
were. -/
lemma meets_noTransition {α : Type} {i : ι} {n : ℕ} {p : Tx α}
    (hp : p.Issues fun q => ∀ s s' : Database ι, isTransitionOn n ⟨i, q, s, s'⟩ = false)
    (h : List (Happened ι)) (s : Database ι) :
    Meets (anything ι) (postgres ι) i (fun h' _ _ => transitionsOn n h' = transitionsOn n h) p h s := by
  refine meets_of_issues (J := fun h' _ => transitionsOn n h' = transitionsOn n h) hp
    (fun _ _ _ hJ _ => hJ) (fun tr q h' s' _ hq _ hJ _ _ => ⟨trivial, trivial, ?_⟩) rfl
  rw [← hJ, transitionsOn, List.filter_append, transitionsOn, List.filter_singleton, hq s']
  exact List.append_nil _

/-- An executed transition, the row it left, and its answer. -/
structure Executed (i : ι) (n : ℕ) (t : Transition) (ev : Happened ι) (answer : Option Execution) :
    Prop where
  stmt : ev.stmt = .update (.transition t) n
  row : rowSeen i n ev.after = (rowSeen i n ev.before).map t.step
  matched : ∀ updated, answer = some updated → rowSeen i n ev.after = some updated
    ∧ ∃ r₀, rowSeen i n ev.before = some r₀ ∧ t.update.guard r₀ = true ∧ updated = t.update.set r₀

/-- A transition leaves one event. -/
lemma meets_transition (i : ι) (n : ℕ) (t : Transition) (h : List (Happened ι)) (s : Database ι) :
    Meets (anything ι) (postgres ι) i
      (fun h' r _ => ∃ ev answer, h' = h ++ [ev] ∧ r = .ok answer ∧ Executed i n t ev answer)
      (transition n t) h s := by
  intro tr s' _ _ _ hready _
  have hview : rowSeen i n (Db.effect i (.update (.transition t) n) s')
      = (rowSeen i n s').map t.step := Db.view_update hready
  refine ⟨trivial, trivial, fun _ _ _ _ _ => ⟨_, _, rfl, rfl, rfl, hview, ?_⟩⟩
  intro updated hupd
  obtain ⟨-, r₀, hv, hg, hset⟩ := Db.written_eq_some.mp hupd
  refine ⟨hview.trans ?_, r₀, hv, hg, hset.symm⟩
  have hstep : t.step r₀ = updated := (GuardedUpdate.step_of_guard hg).trans hset
  rw [rowSeen, hv, Option.map_some, hstep]

/-! ### The updates of a cancel -/

/-- The transitions that a returning cancel has executed on its row: none, a
`mark_cancelled_if_pending` that matched, or a `mark_cancel_requested`, possibly after a
`mark_cancelled_if_pending`. -/
inductive CancelRun (i : ι) (org n : ℕ) (user : Option ℕ) : List (Happened ι) → Prop
  | none : CancelRun i org n user []
  | cancelled {ev : Happened ι} {r : Execution} {now : Time}
      (hstmt : ev.stmt = .update (.transition (.markCancelledIfPending org now user now)) n)
      (hrow : rowSeen i n ev.after = some r) (hst : r.status = .cancelled) :
      CancelRun i org n user [ev]
  | flagged {pre : List (Happened ι)} {ev : Happened ι} {now : Time}
      (hpre : ∀ e ∈ pre,
        e.stmt = .update (.transition (.markCancelledIfPending org now user now)) n)
      (hstmt : ev.stmt = .update (.transition (.markCancelRequested org now user)) n)
      (hrow : rowSeen i n ev.after
        = (rowSeen i n ev.before).map (Execution.markCancelRequested org now user).step) :
      CancelRun i org n user (pre ++ [ev])

omit [DecidableEq ι] in
lemma transitionsOn_append (n : ℕ) (h h' : List (Happened ι)) :
    transitionsOn n (h ++ h') = transitionsOn n h ++ transitionsOn n h' := List.filter_append ..

omit [DecidableEq ι] in
lemma transitionsOn_singleton {n : ℕ} {ev : Happened ι} {t : Transition}
    (h : ev.stmt = .update (.transition t) n) : transitionsOn n [ev] = [ev] := by
  simp [transitionsOn, isTransitionOn, h]

/-- The `UPDATE`s of a cancel that has executed none before. -/
lemma meets_cancelOrFlag (i : ι) (execution : Execution) (org n : ℕ) (user : Option ℕ) (now : Time)
    {h : List (Happened ι)} (hh : transitionsOn n h = []) (s : Database ι) :
    Meets (anything ι) (postgres ι) i (fun h' _ _ => CancelRun i org n user (transitionsOn n h'))
      (cancelOrFlag execution org n user now) h s := by
  have hflag : ∀ (pre : List (Happened ι)) (h : List (Happened ι)) (s : Database ι),
      (∀ e ∈ pre, e.stmt = .update (.transition (.markCancelledIfPending org now user now)) n) →
      transitionsOn n h = pre →
      Meets (anything ι) (postgres ι) i (fun h' _ _ => CancelRun i org n user (transitionsOn n h'))
        (markCancelRequested org n now user) h s := by
    intro pre h s hpre hh
    refine (meets_transition i n (.markCancelRequested org now user) h s).mono ?_
    rintro _ r _ ⟨ev, answer, rfl, -, hev⟩
    rw [transitionsOn_append, hh, transitionsOn_singleton hev.stmt]
    exact .flagged hpre hev.stmt hev.row
  rw [cancelOrFlag]
  split_ifs with hst
  · refine (meets_transition i n (.markCancelledIfPending org now user now) h s).bind
      Contract.free_compatible ?_ ?_
    · rintro _ updated s₁ ⟨ev, answer, rfl, hok, hev⟩
      obtain rfl := Except.ok.inj hok
      have htr : transitionsOn n (h ++ [ev]) = [ev] := by
        rw [transitionsOn_append, hh, transitionsOn_singleton hev.stmt, List.nil_append]
      cases updated with
      | some updated =>
          obtain ⟨hrow, r₀, -, -, hset⟩ := hev.matched updated rfl
          intro _ _ _ _ _
          rw [htr]
          exact .cancelled hev.stmt hrow (by rw [hset]; rfl)
      | none =>
          refine hflag [ev] _ s₁ ?_ htr
          intro e he
          rw [List.mem_singleton.mp he]
          exact hev.stmt
    · rintro _ e s₁ ⟨ev, answer, -, hok, -⟩
      cases hok
  · exact hflag [] h s (by simp) hh

omit [DecidableEq ι] in
/-- Reading a row issues no transition. -/
lemma noTransition_get (i : ι) (loaded : Option Execution) (org n m : ℕ) :
    (WorkflowExecutionRepository.get loaded org n).Issues fun q =>
      ∀ s s' : Database ι, isTransitionOn m ⟨i, q, s, s'⟩ = false :=
  ⟨fun _ _ => rfl, fun _ => trivial⟩

omit [DecidableEq ι] in
lemma noTransition_getOr404 (i : ι) (loaded : Option Execution) (org n m : ℕ) :
    (getOr404 loaded org n).Issues fun q =>
      ∀ s s' : Database ι, isTransitionOn m ⟨i, q, s, s'⟩ = false := by
  refine Prog.issues_bind (noTransition_get i loaded org n m) fun r => ?_
  cases r <;> trivial

/-- What a cancel has executed when it returns, whatever the others do. -/
lemma meets_cancel (i : ι) (loaded : Option Execution) (org n : ℕ) (user : Option ℕ) (s : Database ι) :
    Meets (anything ι) (postgres ι) i
      (fun h r _ => ∀ a, r = .ok a → CancelRun i org n user (transitionsOn n h))
      (cancel loaded org n user) [] s := by
  have hreturn : ∀ (h : List (Happened ι)) (s : Database ι) (updated : Execution),
      CancelRun i org n user (transitionsOn n h) →
      Meets (anything ι) (postgres ι) i
        (fun h r _ => ∀ a, r = .ok a → CancelRun i org n user (transitionsOn n h))
        (commitWithRetry.bind fun _ => .ret updated) h s := by
    intro h s updated hrun
    have hcommit : (commitWithRetry.bind fun _ => (.ret updated : Tx Execution)).Issues fun q =>
        ∀ s s' : Database ι, isTransitionOn n ⟨i, q, s, s'⟩ = false :=
      ⟨fun _ _ => rfl, fun _ => trivial⟩
    refine (meets_noTransition hcommit h s).mono ?_
    intro h' r s' hh a hr
    rw [hh]
    exact hrun
  refine (meets_noTransition (n := n) (noTransition_getOr404 i loaded org n n) [] s).bind
    Contract.free_compatible (fun h execution s hh => ?_) fun h e s _ a he => by cases he
  have hh₀ : transitionsOn n h = [] := hh
  split_ifs with hcan hst
  · intro _ _ _ _ _ a _
    rw [hh₀]
    exact .none
  · have hclock : utcnow.Issues fun q => ∀ s s' : Database ι, isTransitionOn n ⟨i, q, s, s'⟩ = false :=
      ⟨fun _ _ => rfl, fun _ => trivial⟩
    refine (meets_noTransition hclock h s).bind
      Contract.free_compatible (fun h' now s hh' => ?_) fun h e s _ a he => by cases he
    refine (meets_cancelOrFlag i execution org n user now (hh'.trans hh₀) s).bind
      Contract.free_compatible (fun h updated s hrun => ?_) fun h e s _ a he => by cases he
    cases updated with
    | some updated => exact hreturn h s updated hrun
    | none =>
        refine (meets_noTransition (noTransition_get i (some execution) org n n) h s).bind
          Contract.free_compatible (fun h' updated s hh' => ?_) fun h e s _ a he => by cases he
        cases updated with
        | some updated =>
            refine hreturn h' s updated ?_
            rw [hh']
            exact hrun
        | none =>
            intro _ _ _ _ _ a he
            cases he
  · intro _ _ _ _ _ a he
    cases he

/-! ### When a cancel is honoured -/

/-- After a `mark_cancel_requested`, the row is stopped unless it was pending and not flagged. -/
lemma stopped_markCancelRequested {org : ℕ} {now : Time} {user : Option ℕ} {r : Execution}
    (horg : r.organizationId = org) :
    ((Execution.markCancelRequested org now user).step r).Stopped
      ↔ (Execution.markCancelledIfPending org now user now).guard r = false := by
  by_cases hg : (Execution.markCancelRequested org now user).guard r = true
  · rw [GuardedUpdate.step_of_guard hg]
    simp only [Execution.markCancelRequested, Execution.isRunningUnflagged, Bool.and_eq_true,
      decide_eq_true_eq] at hg
    simp [Execution.Stopped, Execution.markCancelRequested, Execution.markCancelledIfPending, hg.1.2]
  · rw [GuardedUpdate.step_of_not_guard (by simpa using hg)]
    simp only [Execution.markCancelRequested, Execution.isRunningUnflagged, horg] at hg
    simp only [Execution.Stopped, Execution.markCancelledIfPending, horg]
    cases hst : r.status <;> cases hfl : r.cancelRequestedAt <;>
      simp_all [ExecutionStatus.isTerminal]

/-- A cancel run ends with the row stopped exactly when no flagging struck a pending row. -/
lemma CancelRun.honoured_iff {i : ι} {org n : ℕ} {user : Option ℕ} {h : List (Happened ι)}
    (hrun : CancelRun i org n user (transitionsOn n h)) :
    Honoured i org n h ↔ ∀ ev ∈ transitionsOn n h, ¬ StrikesPending i n ev := by
  rw [Honoured]
  generalize transitionsOn n h = l at hrun
  cases hrun with
  | none => simp
  | @cancelled ev r now hstmt hrow hst =>
      have hleft : r.Stopped := Or.inl (by rw [hst]; rfl)
      have hright : ¬ StrikesPending i n ev := by simp [StrikesPending, hstmt]
      constructor
      · intro _ ev' hev'
        rw [List.mem_singleton.mp hev']
        exact hright
      · intro _ ev' hlast r' hrow' _
        obtain rfl := Option.some.inj hlast
        obtain rfl := Option.some.inj (hrow.symm.trans hrow')
        exact hleft
  | @flagged pre ev now hpre hstmt hrow =>
      rw [List.getLast?_append]
      have hbad : StrikesPending i n ev ↔ ∃ r, rowSeen i n ev.before = some r
          ∧ (Execution.markCancelledIfPending org now user now).guard r = true := by
        simp [StrikesPending, hstmt]
      constructor
      · intro hgood ev' hev' hstrike
        rcases List.mem_append.mp hev' with hmem | hmem
        · simp [StrikesPending, hpre ev' hmem] at hstrike
        · obtain rfl := List.mem_singleton.mp hmem
          obtain ⟨r, hr, hg⟩ := hbad.mp hstrike
          rw [hr] at hrow
          have horg : r.organizationId = org := by
            simp only [Execution.markCancelledIfPending, Bool.and_eq_true, decide_eq_true_eq] at hg
            exact hg.1.1
          have hstop := hgood ev' rfl _ hrow (by
            rw [GuardedUpdate.step]
            split_ifs <;> exact horg)
          rw [stopped_markCancelRequested horg, hg] at hstop
          cases hstop
      · intro hgood ev' hlast r' hrow' horg
        obtain rfl : ev = ev' := Option.some.inj hlast
        rw [hrow] at hrow'
        obtain ⟨r, hr, rfl⟩ := Option.map_eq_some_iff.mp hrow'
        have horg' : r.organizationId = org := by
          rw [← horg, GuardedUpdate.step]
          split_ifs <;> rfl
        rw [stopped_markCancelRequested horg']
        by_contra hg
        exact hgood ev (by simp) (hbad.mpr ⟨r, hr, by simpa using hg⟩)

/-- **When a cancel is honoured.**  Amid any other sessions, whenever a cancel has returned, the
row is terminal or flagged right after the last `UPDATE` of the cancel exactly when none of its
`mark_cancel_requested` struck a row that is pending and not flagged. -/
theorem cancel_honoured_iff {procs : ι → Tx Unit} {i : ι} {loaded : Option Execution} {org n : ℕ}
    {user : Option ℕ} (hi : procs i = client (cancel loaded org n user)) {s : Database ι}
    {c : Sessions ι Unit} (h : Pool.Reach (postgres ι) (.start procs s) c)
    (hret : c.returned i = true) :
    Honoured i org n (own i c.trace)
      ↔ ∀ ev ∈ own i c.trace, ¬ StrikesPending i n ev := by
  have hsession : Meets (anything ι) (postgres ι) i
      (fun h r _ => ∀ a, r = .ok a → CancelRun i org n user (transitionsOn n h))
      (Tx.withSession (cancel loaded org n user)) [] s := by
    refine (meets_cancel i loaded org n user s).withSession Contract.free_compatible ?_
    intro h r s tr s' hQ _ _ _ _
    refine ⟨trivial, trivial, fun s'' _ a ha => ?_⟩
    rw [transitionsOn_append]
    simpa [transitionsOn, isTransitionOn] using hQ a ha
  have hclient : Meets (anything ι) (postgres ι) i
      (fun h r _ => r = .ok () → CancelRun i org n user (transitionsOn n h)) (procs i) [] s := by
    rw [hi, client]
    refine hsession.bind Contract.free_compatible ?_ fun h e s _ he => by cases he
    exact fun h a s hQ _ _ _ _ _ _ => hQ a rfl
  obtain ⟨a, ha⟩ := Pool.returned_iff.mp hret
  have hrun := h.post_free hclient ha rfl rfl
  rw [hrun.honoured_iff]
  constructor
  · intro hgood ev hev hstrike
    refine hgood ev (List.mem_filter.mpr ⟨hev, ?_⟩) hstrike
    rw [StrikesPending] at hstrike
    split at hstrike
    · rename_i hstmt
      simp [isTransitionOn, hstmt, hstrike.1]
    · exact hstrike.elim
  · exact fun hgood ev hev => hgood ev (List.mem_of_mem_filter hev)

/-- One client, which cancels the execution. -/
def cancelAlone : Fin 1 → Tx Unit := fun _ => client (cancel none 1 0 (some 7))

/-- A cancel of a queued execution returns, and is honoured. -/
theorem cancel_honoured_iff_queued :
    ∃ c : Sessions (Fin 1) Unit,
      Pool.Reach (postgres (Fin 1)) (.start cancelAlone (smallDatabase smallExecution (.still 0))) c
        ∧ Honoured 0 1 0 (own 0 c.trace) ∧ ∀ ev ∈ own 0 c.trace, ¬ StrikesPending 0 0 ev := by
  have hrun : (((Pool.start cancelAlone (smallDatabase smallExecution (.still 0))).run (postgres (Fin 1))
      (List.replicate 5 (.step 0))).any fun c =>
        c.returned 0 && decide (Honoured 0 1 0 (own 0 c.trace))) = true := by
    decide
  obtain ⟨c, hc, hP⟩ := Pool.exists_of_run hrun
  obtain ⟨hret, hgood⟩ := Bool.and_eq_true_iff.mp hP
  have hhonoured := of_decide_eq_true hgood
  have hclient : cancelAlone 0 = client (cancel none 1 0 (some 7)) := rfl
  exact ⟨c, hc, hhonoured, (cancel_honoured_iff hclient hc hret).mp hhonoured⟩

/-- A cancel that reads a running execution, while the worker fails it. -/
def cancelAgainstFail : Fin 2 → Tx Unit
  | 0 => client (cancel none 1 0 (some 7))
  | 1 => client (WorkflowExecutionService.fail smallSettings none 1 0 "" true)

/-- The cancel returns, and the execution waits to be retried without a cancel flag. -/
theorem cancel_lost :
    ∃ c : Sessions (Fin 2) Unit,
      Pool.Reach (postgres (Fin 2)) (.start cancelAgainstFail
          (smallDatabase { smallExecution with status := .running, attempts := 1 } (.still 0))) c
        ∧ c.returned 0 = true ∧ ¬ Honoured 0 1 0 (own 0 c.trace)
        ∧ (c.store.committed .execution 0).any
            (fun r => r.status = .retrying && r.cancelRequestedAt.isNone) = true := by
  have hrun : (((Pool.start cancelAgainstFail
      (smallDatabase { smallExecution with status := .running, attempts := 1 } (.still 0))).run
        (postgres (Fin 2)) ([.step 0, .step 0] ++ List.replicate 5 (.step 1)
          ++ List.replicate 4 (.step 0))).any fun c =>
            c.returned 0 && !decide (Honoured 0 1 0 (own 0 c.trace))
              && (c.store.committed .execution 0).any
                (fun r => r.status = .retrying && r.cancelRequestedAt.isNone)) = true := by
    decide
  obtain ⟨c, hc, hP⟩ := Pool.exists_of_run hrun
  simp only [Bool.and_eq_true, Bool.not_eq_true', decide_eq_false_iff_not] at hP
  exact ⟨c, hc, hP.1.1, hP.1.2, hP.2⟩

end Automation
