import AgencyOS.Automation.Worker

/-!
Attempt fencing: on whose behalf an outcome is recorded.

A worker takes an attempt when its `mark_started` matches, and the timeout sweep takes the
attempts of the rows it lists.  The guards that record an outcome test status and cancel flag,
not the attempt, so an outcome can land on a later attempt than the one taken.

* `takes`, `Hold`, `hold`: the attempt that a session has taken of an execution, and whether
  another session has committed a new start of it since;
* `Fenced`, `NotOvertaken`: what is asked of a landing, and when it is met;
* `holdInvariant_step`: the attempt a session sees is the one taken, unless it was overtaken;
* `fenced_iff` (**attempt fencing**): the landings of a run are fenced exactly when none of them
  was overtaken, whatever the programs are;
* `stale_outcome`: a run in which the outcome of attempt 1 is recorded for attempt 2.
-/

namespace Automation

open Txn

variable {ι : Type} [DecidableEq ι]

/-! ### Attempts taken -/

/-- The transitions that record the end of a run. -/
def Transition.isLanding : Transition → Bool
  | markSucceeded .. | markFailed .. | markTimedOut .. | markCancelledAfterRun .. => true
  | _ => false

/-- The attempt of execution `n` that an event takes: the one it starts, or the one it lists as
stuck. -/
def takes (n : ℕ) (ev : Happened ι) : Option ℕ :=
  match ev.stmt with
  | .update (.transition (.markStarted org now)) m =>
      if m = n then
        (ev.before.view ev.pid .execution n).bind fun r =>
          if (Execution.markStarted org now).guard r then some (r.attempts + 1) else none
      else none
  | .scan (.getStuckRunning timeoutSeconds now) =>
      (ev.before.view ev.pid .execution n).bind fun r =>
        if Query.matching (.getStuckRunning timeoutSeconds now) r then some r.attempts else none
  | _ => none

/-- The committed number of attempts of execution `n`. -/
def committedAttempts (n : ℕ) (s : Database ι) : Option ℕ :=
  (s.committed .execution n).map (·.attempts)

/-- What a session holds of an execution: the attempt taken, and whether another session has
committed a new start since. -/
structure Hold where
  attempt : Option ℕ
  overtaken : Bool

/-- A session takes attempts, and loses them all when it rolls back, since that expires the rows
it has loaded; a commit of another session overtakes it when it changes the attempts. -/
def Hold.step (i : ι) (n : ℕ) (hd : Hold) (ev : Happened ι) : Hold :=
  if ev.pid = i then
    match ev.stmt, takes n ev with
    | .rollback, _ => ⟨none, false⟩
    | _, some k => ⟨some k, false⟩
    | _, none => hd
  else
    ⟨hd.attempt, hd.overtaken || committedAttempts n ev.before != committedAttempts n ev.after⟩

/-- What session `i` holds of execution `n` after a trace. -/
def hold (i : ι) (n : ℕ) (tr : List (Happened ι)) : Hold := tr.foldl (Hold.step i n) ⟨none, false⟩

lemma hold_snoc (i : ι) (n : ℕ) (tr : List (Happened ι)) (ev : Happened ι) :
    hold i n (tr ++ [ev]) = (hold i n tr).step i n ev := by
  rw [hold, List.foldl_append]
  rfl

/-! ### Landings -/

/-- A condition on the landings: `P` of what the session holds and the row it sees. -/
def atLanding (P : Hold → Execution → Bool) (past : List (Happened ι)) (ev : Happened ι) : Bool :=
  match ev.stmt with
  | .update (.transition t) n =>
      !t.isLanding || (ev.before.view ev.pid .execution n).all fun r =>
        !t.update.guard r || (hold ev.pid n past).attempt.isNone || P (hold ev.pid n past) r
  | _ => true

/-- A landing on behalf of an attempt changes the row only while it is running that attempt. -/
def Fenced : List (Happened ι) → Happened ι → Prop := fun past ev =>
  atLanding (fun hd r => r.status = .running && hd.attempt = some r.attempts) past ev = true

/-- No other session has committed a new start between the taking of the attempt and its
landing. -/
def NotOvertaken : List (Happened ι) → Happened ι → Prop := fun past ev =>
  atLanding (fun hd _ => !hd.overtaken) past ev = true

instance (past : List (Happened ι)) (ev : Happened ι) : Decidable (Fenced past ev) :=
  inferInstanceAs (Decidable (_ = true))

/-! ### The invariant -/

/-- Attempts only grow. -/
def AttemptsGrow : (t : Table) → Row t → Row t → Prop
  | .execution, r, r' => r.attempts ≤ r'.attempts
  | _, _, _ => True

lemma attemptsGrow_refl : ∀ (t : Table) (r : Row t), AttemptsGrow t r r := by
  intro t r
  cases t with
  | execution => exact le_refl r.attempts
  | _ => trivial

/-- A transition adds an attempt if it is a start, and none otherwise. -/
lemma attempts_set {t : Transition} {r : Execution} (h : t.update.guard r = true) :
    (t.update.set r).attempts = r.attempts + if t.isStart then 1 else 0 :=
  (Transition.set_spec h).2.2.1

/-- A transition that is no matching start keeps the attempts. -/
lemma attempts_transition {t : Transition} {r : Execution}
    (h : t.isStart = false ∨ t.update.guard r = false) : (t.step r).attempts = r.attempts := by
  by_cases hg : t.update.guard r = true
  · rw [Transition.step, GuardedUpdate.step_of_guard hg, attempts_set hg]
    rcases h with h | h
    · simp [h]
    · rw [hg] at h
      cases h
  · rw [Transition.step, GuardedUpdate.step_of_not_guard (by simpa using hg)]

/-- An event that takes an attempt leaves its session looking at that attempt. -/
lemma takes_spec {i : ι} {n k : ℕ} {q : Sql automation} {s : Database ι}
    (hready : Db.ready i q s = true) (h : takes n ⟨i, q, s, Db.effect i q s⟩ = some k) :
    ∃ r, (Db.effect i q s).view i .execution n = some r ∧ r.attempts = k := by
  rw [takes] at h
  split at h
  · rename_i org now m hstmt
    obtain rfl : q = _ := hstmt
    split_ifs at h with hm
    subst hm
    obtain ⟨r, hr, hk⟩ := Option.bind_eq_some_iff.mp h
    split_ifs at hk with hg
    refine ⟨(Execution.markStarted org now).set r, ?_, Option.some.inj hk⟩
    rw [Db.view_update hready, hr]
    exact congrArg some (GuardedUpdate.step_of_guard hg)
  · rename_i timeoutSeconds now hstmt
    obtain rfl : q = _ := hstmt
    obtain ⟨r, hr, hk⟩ := Option.bind_eq_some_iff.mp h
    split_ifs at hk with hg
    exact ⟨r, hr, Option.some.inj hk⟩
  · cases h

/-- An event that takes no attempt and is no rollback leaves its session looking at the same
number of attempts. -/
lemma attempts_of_takes_eq_none {i : ι} {n : ℕ} {q : Sql automation} {s : Database ι} {r : Execution}
    (hready : Db.ready i q s = true) (hroll : q ≠ .rollback)
    (h : takes n ⟨i, q, s, Db.effect i q s⟩ = none) (hr : s.view i .execution n = some r) :
    ∃ r', (Db.effect i q s).view i .execution n = some r' ∧ r'.attempts = r.attempts := by
  by_cases hne : ∀ u m, q = .update u m → ¬ (Table.execution = automation.target u ∧ n = m)
  · have hlt : n < s.fresh := Db.lt_fresh_of_view hr
    exact ⟨r, (Db.view_effect_of_ne hroll hne fun x _ h => by omega).trans hr, rfl⟩
  · push Not at hne
    obtain ⟨u, m, rfl, htable, rfl⟩ := hne
    cases u with
    | transition t =>
        refine ⟨t.step r, ?_, attempts_transition ?_⟩
        · rw [Db.view_update hready, hr]
          rfl
        · cases t with
          | markStarted org now =>
              right
              by_contra hg
              have hg' : (Execution.markStarted org now).guard r = true :=
                Bool.eq_true_of_not_eq_false hg
              simp [takes, hr, hg'] at h
          | _ => exact Or.inl rfl
    | _ => cases htable

/-- What a held attempt says about the row that the session sees. -/
def Hold.Says (hd : Hold) (r : Execution) : Prop :=
  ∀ k, hd.attempt = some k → if hd.overtaken then k < r.attempts else r.attempts = k

/-- Every session sees what it holds, and attempts only grow. -/
def HoldInvariant (tr : List (Happened ι)) (s : Database ι) : Prop :=
  Ahead AttemptsGrow s ∧ ∀ i n, (hold i n tr).attempt ≠ none →
    ∃ r, s.view i .execution n = some r ∧ (hold i n tr).Says r

/-- The invariant under a statement of the session itself. -/
lemma hold_step_own {i : ι} {n : ℕ} {hd : Hold} {q : Sql automation} {s : Database ι}
    (hready : Db.ready i q s = true)
    (hsees : hd.attempt ≠ none → ∃ r, s.view i .execution n = some r ∧ hd.Says r)
    (hne : (hd.step i n ⟨i, q, s, Db.effect i q s⟩).attempt ≠ none) :
    ∃ r, (Db.effect i q s).view i .execution n = some r
      ∧ (hd.step i n ⟨i, q, s, Db.effect i q s⟩).Says r := by
  rw [Hold.step, if_pos rfl] at hne ⊢
  split at hne
  · exact absurd rfl hne
  · rename_i k htakes _
    obtain ⟨r, hr, hk⟩ := takes_spec hready htakes
    refine ⟨r, hr, fun k' hk' => ?_⟩
    obtain rfl := Option.some.inj hk'
    exact hk
  · rename_i htakes hroll
    obtain ⟨r, hr, hsays⟩ := hsees hne
    obtain ⟨r', hr', hatt⟩ := attempts_of_takes_eq_none hready hroll htakes hr
    refine ⟨r', hr', fun k hk => ?_⟩
    rw [hatt]
    exact hsays k hk

/-- The invariant under a statement of another session. -/
lemma hold_step_other {i j : ι} (hij : j ≠ i) {n : ℕ} {hd : Hold} {q : Sql automation}
    {s : Database ι} (hahead : Ahead AttemptsGrow s)
    (hsees : hd.attempt ≠ none → ∃ r, s.view i .execution n = some r ∧ hd.Says r)
    (hne : (hd.step i n ⟨j, q, s, Db.effect j q s⟩).attempt ≠ none) :
    ∃ r, (Db.effect j q s).view i .execution n = some r
      ∧ (hd.step i n ⟨j, q, s, Db.effect j q s⟩).Says r := by
  rw [Hold.step, if_neg hij] at hne ⊢
  obtain ⟨r, hr, hsays⟩ := hsees hne
  rcases (frame_effect hij q s).view_cases .execution n with ⟨hview, hcom⟩ | ⟨hview, hview'⟩
  · refine ⟨r, hview.trans hr, fun k hk => ?_⟩
    have hsame : committedAttempts n s = committedAttempts n (Db.effect j q s) := by
      rw [committedAttempts, committedAttempts, hcom]
    simpa [hsame] using hsays k hk
  · -- the session sees the committed row, which another session may have replaced
    rw [hr] at hview
    by_cases hq : q = .commit
    · subst hq
      have hcom : (Db.effect j .commit s).committed .execution n = s.view j .execution n := rfl
      obtain ⟨r', hr'⟩ : ∃ r', s.view j .execution n = some r' := by
        rcases s.view_cases j .execution n with ⟨r', -, hv⟩ | ⟨-, hv⟩
        · exact ⟨r', hv⟩
        · exact ⟨r, hv.trans hview.symm⟩
      have hle : r.attempts ≤ r'.attempts :=
        hahead.view attemptsGrow_refl hr' hview.symm
      refine ⟨r', hview'.trans (hcom.trans hr'), fun k hk => ?_⟩
      have hsays := hsays k hk
      simp only [committedAttempts, ← hview, hcom, hr', Option.map_some]
      by_cases hover : hd.overtaken = true
      · rw [if_pos hover] at hsays
        simp only [hover, Bool.true_or, if_true]
        omega
      · rw [if_neg hover] at hsays
        by_cases heq : r.attempts = r'.attempts
        · simp [hover, heq, ← hsays]
        · simp [hover, heq]
          omega
    · have hcom := Db.committed_effect (i := j) (s := s) hq
      refine ⟨r, hview'.trans ((congrFun (congrFun hcom _) _).trans hview.symm), fun k hk => ?_⟩
      simpa [committedAttempts, hcom] using hsays k hk

/-- **The invariant of held attempts**, kept by every statement. -/
lemma holdInvariant_step {tr : List (Happened ι)} {i : ι} {q : Sql automation} {s : Database ι}
    (hready : Db.ready i q s = true) (h : HoldInvariant tr s) :
    HoldInvariant (tr ++ [⟨i, q, s, Db.effect i q s⟩]) (Db.effect i q s) := by
  obtain ⟨hahead, hsees⟩ := h
  refine ⟨hahead.effect attemptsGrow_refl ?_, fun j n hne => ?_⟩
  · rintro u m r rfl - hg rc - hle
    cases u with
    | transition t =>
        have hatt := attempts_set (t := t) hg
        show rc.attempts ≤ (t.update.set r).attempts
        have hle' : rc.attempts ≤ r.attempts := hle
        omega
    | _ => trivial
  · rw [hold_snoc] at hne ⊢
    by_cases hij : i = j
    · subst hij
      exact hold_step_own hready (hsees i n) hne
    · exact hold_step_other hij hahead (hsees j n) hne

/-! ### Fencing -/

/-- On the row it sees, a session lands on the attempt it has taken unless it was overtaken. -/
lemma atLanding_iff {past : List (Happened ι)} {ev : Happened ι} (h : HoldInvariant past ev.before) :
    Fenced past ev ↔ NotOvertaken past ev := by
  rw [Fenced, NotOvertaken, atLanding, atLanding]
  split
  · rename_i t n hstmt
    by_cases hland : t.isLanding = true
    · cases hv : ev.before.view ev.pid .execution n with
      | none => simp
      | some r =>
          by_cases hg : t.update.guard r = true
          · cases hatt : (hold ev.pid n past).attempt with
            | none => simp
            | some k =>
                obtain ⟨r', hr', hsays⟩ := h.2 ev.pid n (by simp [hatt])
                obtain rfl := Option.some.inj (hv.symm.trans hr')
                have hrun : r.status = .running := by
                  have hedge := (Transition.set_spec hg).1
                  cases t <;> first | (cases hland; done) | skip
                  all_goals (generalize r.status = st at hedge; cases hedge; rfl)
                have hsays := hsays k hatt
                by_cases hover : (hold ev.pid n past).overtaken = true
                · rw [if_pos hover] at hsays
                  have hne : k ≠ r.attempts := by omega
                  simp [hland, hg, hover, hne]
                · rw [if_neg hover] at hsays
                  simp [hland, hg, hover, hrun, hsays]
          · simp [hg]
    · simp [hland]
  · exact Iff.rfl

/-- **Attempt fencing.**  Whatever the programs are, in every run from a database without open
transactions the landings on behalf of an attempt change rows of that attempt only, exactly when
no landing was overtaken by a start that another session has committed since. -/
theorem fenced_iff {procs : ι → Tx Unit} {s : Database ι} (hs : s.Settled) {c : Sessions ι Unit}
    (h : Pool.Reach (postgres ι) (.start procs s) c) :
    Along Fenced c.trace ↔ Along NotOvertaken c.trace := by
  have hstart : HoldInvariant ([] : List (Happened ι)) s :=
    ⟨hs.ahead _, fun i n hne => absurd rfl hne⟩
  obtain ⟨-, htrace⟩ := h.invariant (fun _ _ => True) (fun _ _ => True) HoldInvariant
    (fun tr i q s _ hready _ hI => holdInvariant_step hready hI) (fun _ => trivial)
    (fun i => Prog.issues_true _) hstart (along_iff_forall_mem.mpr fun _ _ => trivial)
  exact (htrace.mono fun past ev hev => atLanding_iff hev.2.1).congr

/-! ### A stale outcome -/

/-- A clock on which each statement takes a thousand seconds. -/
def slow : Clock where
  read n := n * 1000 * second
  mono := fun _ _ h => Nat.mul_le_mul_right _ (Nat.mul_le_mul_right _ h)

/-- Two workers drain, the timeout sweep runs, and an operator retries by hand. -/
def workersAndOperator : Fin 4 → Tx Unit
  | 0 => client (ExecutionWorker.processQueued smallSettings (fun _ _ => .returned "a") 10)
  | 1 => client (ExecutionWorker.timeoutStuck smallSettings)
  | 2 => client (WorkflowExecutionService.retry none 1 0)
  | 3 => client (ExecutionWorker.processQueued smallSettings (fun _ _ => .returned "b") 10)

/-- The first worker starts attempt 1 and hangs; the attempt times out, is retried by hand and
started again by the second worker; then the adapter of the first worker returns. -/
def staleMoves : List (Move (Fin 4)) :=
  List.replicate 7 (.step 0) ++ List.replicate 8 (.step 1) ++ List.replicate 5 (.step 2)
    ++ List.replicate 7 (.step 3) ++ List.replicate 5 (.step 0)

/-- A worker alone: its landing is fenced, since nobody overtakes it. -/
theorem fenced_iff_alone :
    ∃ c : Sessions (Fin 4) Unit,
      Pool.Reach (postgres (Fin 4))
          (.start workersAndOperator (smallDatabase smallExecution slow)) c
        ∧ c.returned 0 = true ∧ Along Fenced c.trace ∧ Along NotOvertaken c.trace := by
  have hrun : (((Pool.start workersAndOperator (smallDatabase smallExecution slow)).run
      (postgres (Fin 4)) (List.replicate 13 (.step 0))).any fun c =>
        c.returned 0 && decide (Along Fenced c.trace)) = true := by
    decide +kernel
  obtain ⟨c, hc, hP⟩ := Pool.exists_of_run hrun
  obtain ⟨hret, hfenced⟩ := Bool.and_eq_true_iff.mp hP
  have hfenced := of_decide_eq_true hfenced
  have hs : (smallDatabase smallExecution slow : Database (Fin 4)).Settled :=
    Db.settled_init _ _ _ _
  exact ⟨c, hc, hret, hfenced, (fenced_iff hs hc).mp hfenced⟩

/-- The outcome of attempt 1 is recorded as the outcome of attempt 2, which another worker is
still running. -/
theorem stale_outcome :
    ∃ c : Sessions (Fin 4) Unit,
      Pool.Reach (postgres (Fin 4))
          (.start workersAndOperator (smallDatabase smallExecution slow)) c
        ∧ ¬ Along Fenced c.trace
        ∧ (c.store.committed .execution 0).any
            (fun r => r.status = .succeeded && r.attempts = 2 && r.output = some "a") = true := by
  have hrun : (((Pool.start workersAndOperator (smallDatabase smallExecution slow)).run
      (postgres (Fin 4)) staleMoves).any fun c =>
        !decide (Along Fenced c.trace) && (c.store.committed .execution 0).any
          (fun r => r.status = .succeeded && r.attempts = 2 && r.output = some "a")) = true := by
    decide +kernel
  obtain ⟨c, hc, hP⟩ := Pool.exists_of_run hrun
  simp only [Bool.and_eq_true, Bool.not_eq_true', decide_eq_false_iff_not] at hP
  exact ⟨c, hc, hP.1, hP.2⟩

end Automation
