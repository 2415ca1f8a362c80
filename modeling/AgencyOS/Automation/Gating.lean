import AgencyOS.Automation.FounderService

/-!
Approval gates: whether an execution starts while a request that gates it is pending.

`exists_pending_gate` tells whether an execution waits on a pending request, but neither the
drain nor `mark_started` asks it.

* `gated`, `starter`: the executions gated by a committed request, and those that a session has
  started without having committed the start;
* `GateKept`: a start finds no gate, and no gate is opened on a start under way;
* `start_respects_gate`: along a run that keeps gates, no commit starts a gated execution,
  whatever the programs are;
* `gate_ignored`: a run of the worker that starts a gated execution.
-/

namespace Automation

open Txn

variable {ι : Type} [DecidableEq ι] {s : Database ι} {n : ℕ}

/-! ### Gated executions -/

/-- The request gates execution `n`: it is pending and references it. -/
def ApprovalRequest.gates (n : ℕ) (r : ApprovalRequest) : Bool :=
  r.workflowExecutionId = some n && r.status = .pending

/-- Whether a committed request gates execution `n`. -/
def gated (n : ℕ) (s : Database ι) : Bool :=
  (List.range s.fresh).any fun m =>
    (s.committed .approvalRequest m).any (ApprovalRequest.gates n)

omit [DecidableEq ι] in
lemma gated_eq_true :
    gated n s = true ↔ ∃ m r, s.committed .approvalRequest m = some r ∧ r.gates n = true := by
  simp only [gated, List.any_eq_true, List.mem_range, Option.any_eq_true]
  constructor
  · rintro ⟨m, -, r, hr, hg⟩
    exact ⟨m, r, hr, hg⟩
  · rintro ⟨m, r, hr, hg⟩
    exact ⟨m, Db.lt_fresh_of_committed hr, r, hr, hg⟩

/-- Gates are opened and closed by commits only. -/
lemma gated_effect {i : ι} {q : Sql automation} (hq : q ≠ .commit) :
    gated n (Db.effect i q s) = gated n s := by
  rw [Bool.eq_iff_iff, gated_eq_true, gated_eq_true, Db.committed_effect hq]

/-! ### Starts -/

/-- The session that has taken execution `n` from QUEUED to RUNNING, and not committed yet. -/
def starter (n : ℕ) (s : Database ι) : Option ι :=
  match s.dirty .execution n with
  | some (j, r) =>
      if r.status = .running && (s.committed .execution n).any (·.status = .queued) then some j
      else none
  | none => none

omit [DecidableEq ι] in
lemma starter_eq_some {j : ι} :
    starter n s = some j ↔ ∃ r rc, s.dirty .execution n = some (j, r) ∧ r.status = .running
      ∧ s.committed .execution n = some rc ∧ rc.status = .queued := by
  rw [starter]
  constructor
  · intro h
    split at h
    · rename_i j' r hd
      split_ifs at h with hc
      obtain rfl := Option.some.inj h
      simp only [Bool.and_eq_true, decide_eq_true_eq, Option.any_eq_true] at hc
      obtain ⟨hr, rc, hrc, hq⟩ := hc
      exact ⟨r, rc, hd, hr, hrc, hq⟩
    · cases h
  · rintro ⟨r, rc, hd, hr, hrc, hq⟩
    simp [hd, hr, hrc, hq]

/-- The event commits a start of execution `n`. -/
def commitsStart (n : ℕ) (ev : Happened ι) : Bool :=
  (ev.before.committed .execution n).any (·.status = .queued)
    && (ev.after.committed .execution n).any (·.status = .running)

/-- A `mark_started` that matches finds no gate on its execution, and a commit opens no gate on
an execution whose start another session has not committed yet. -/
def GateKept (ev : Happened ι) : Bool :=
  match ev.stmt with
  | .update (.transition (.markStarted org now)) n =>
      !(ev.before.view ev.pid .execution n).any (Execution.markStarted org now).guard
        || !gated n ev.before
  | .commit =>
      (List.range ev.before.fresh).all fun n =>
        (starter n ev.before).all (· = ev.pid) || gated n ev.before || !gated n ev.after
  | _ => true

/-! ### The invariant -/

/-- No start under way is gated. -/
def StartsUngated (s : Database ι) : Prop := ∀ n j, starter n s = some j → gated n s = false

/-- A transition that leads to RUNNING is a start, or keeps a running row running. -/
lemma Transition.eq_markStarted_of_running {t : Transition} {r : Execution}
    (hg : t.update.guard r = true) (hr : (t.update.set r).status = .running) :
    (∃ org now, t = .markStarted org now) ∨ r.status = .running := by
  have hedge := (Transition.set_spec hg).1
  rw [hr] at hedge
  generalize r.status = st at hedge ⊢
  cases t with
  | markStarted org now => exact Or.inl ⟨org, now, rfl⟩
  | markFailed org e status n f =>
      obtain ⟨status, rfl | rfl⟩ := status <;> cases hedge
  | markCancelRequested org c u =>
      cases hedge
      exact Or.inr rfl
  | _ => cases hedge

/-- **The invariant of starts under way**, kept by every statement that keeps gates. -/
lemma startsUngated_step {i : ι} {q : Sql automation}
    (hkept : GateKept ⟨i, q, s, Db.effect i q s⟩ = true) (h : StartsUngated s) :
    StartsUngated (Db.effect i q s) := by
  intro n j hst
  obtain ⟨r, rc, hd, hr, hc, hrc⟩ := starter_eq_some.mp hst
  rcases Db.dirty_effect_cases hd with
    ⟨hold, hj⟩ | ⟨rfl, ⟨u, r₀, rfl, hv, hg, heq⟩ | ⟨x, rfl, rfl, heq⟩⟩
  · have hc' : s.committed .execution n = some rc := by
      rcases Db.committed_effect_cases i q s .execution n with hsame | ⟨rfl, r', hd', -⟩
      · rw [← hsame, hc]
      · rw [hold] at hd'
        exact absurd (Prod.mk.inj (Option.some.inj hd')).1 (hj (Or.inl rfl))
    have hstarter : starter n s = some j := starter_eq_some.mpr ⟨r, rc, hold, hr, hc', hrc⟩
    have hbefore : gated n s = false := h n j hstarter
    by_cases hq : q = .commit
    · subst hq
      have hother : j ≠ i := hj (Or.inl rfl)
      have hlt : n < s.fresh := Db.lt_fresh_of_dirty hold
      have hn := List.all_eq_true.mp hkept n (List.mem_range.mpr hlt)
      simpa [hstarter, hother, hbefore] using hn
    · rw [gated_effect hq, hbefore]
  · rw [gated_effect (by simp)]
    cases u with
    | transition t =>
        cases heq
        rcases Transition.eq_markStarted_of_running hg hr with ⟨org, now, rfl⟩ | hrun
        · have hg' : (Execution.markStarted org now).guard r₀ = true := hg
          have hv' : s.view j .execution n = some r₀ := hv
          simpa [GateKept, hv', hg'] using hkept
        · -- the row was running already, so it is an uncommitted version of this session
          rw [Db.committed_effect (by simp)] at hc
          rcases s.view_cases j .execution n with ⟨r₁, hd₁, hv₁⟩ | ⟨-, hv₁⟩
          · obtain rfl := Option.some.inj (hv.symm.trans hv₁)
            exact h n j (starter_eq_some.mpr ⟨r₀, rc, hd₁, hrun, hc, hrc⟩)
          · obtain rfl := Option.some.inj (hv.symm.trans (hv₁.trans hc))
            rw [hrun] at hrc
            cases hrc
    | _ => cases heq
  · rw [Db.committed_effect (by simp), (s.alloc .execution s.fresh le_rfl).1] at hc
    cases hc

/-- A commit starts an execution only for the session that had the start under way. -/
lemma starter_of_commitsStart {i : ι} {q : Sql automation}
    (h : commitsStart n ⟨i, q, s, Db.effect i q s⟩ = true) : starter n s = some i := by
  simp only [commitsStart, Bool.and_eq_true, Option.any_eq_true, decide_eq_true_eq] at h
  obtain ⟨⟨rc, hc, hrc⟩, r, hc', hr⟩ := h
  rcases Db.committed_effect_cases i q s .execution n with hsame | ⟨rfl, r', hd, hr'⟩
  · obtain rfl := Option.some.inj (hc.symm.trans (hsame ▸ hc'))
    rw [hrc] at hr
    cases hr
  · obtain rfl := Option.some.inj (hc'.symm.trans hr')
    exact starter_eq_some.mpr ⟨r, rc, hd, hr, hc, hrc⟩

/-- **The approval gate.**  Whatever the programs are, in every run from a database without open
transactions whose statements keep gates, no commit takes an execution from QUEUED to RUNNING
while a pending request references it. -/
theorem start_respects_gate {procs : ι → Tx Unit} (hs : s.Settled) {c : Sessions ι Unit}
    (h : Pool.Reach (postgres ι) (.start procs s) c) (hkept : ∀ ev ∈ c.trace, GateKept ev = true) :
    ∀ ev ∈ c.trace, ∀ n, commitsStart n ev = true → gated n ev.before = false := by
  have hstart : StartsUngated s := by
    intro n j hst
    obtain ⟨r, rc, hd, -⟩ := starter_eq_some.mp hst
    rw [hs] at hd
    cases hd
  obtain ⟨-, htrace⟩ := h.invariant (fun _ _ => True) (fun _ ev => GateKept ev = true)
    (fun _ s => StartsUngated s) (fun _ _ _ _ _ _ hC hI => startsUngated_step hC hI)
    (fun _ => trivial) (fun i => Prog.issues_true _) hstart (along_iff_forall_mem.mpr hkept)
  intro ev hev n hcommit
  obtain ⟨-, hI, -, -, hafter⟩ := along_iff_forall_mem.mp htrace ev hev
  obtain ⟨i, q, s, s'⟩ := ev
  obtain rfl : s' = Db.effect i q s := hafter
  exact hI n i (starter_of_commitsStart hcommit)

/-! ### An ignored gate -/

/-- A request that gates execution 0. -/
def smallGate : NewRequest where
  organizationId := 1
  requestedByUserId := 7
  workflowId := none
  workflowExecutionId := some 0
  approverUserId := none
  title := "Run the export"
  details := none
  expiresAt := none

/-- A member opens a gate, an approver grants request 2, and a worker drains the queue. -/
def gateAndWorker : Fin 3 → Tx Unit
  | 0 => client (ApprovalService.createRequest smallGate)
  | 1 => client (ApprovalService.decide 1 7 2 true none)
  | 2 => client (ExecutionWorker.processQueued smallSettings (fun _ _ => .returned "a") 10)

/-- The start of an execution whose gate was granted before. -/
theorem start_respects_gate_granted :
    ∃ c : Sessions (Fin 3) Unit,
      Pool.Reach (postgres (Fin 3))
          (.start gateAndWorker (smallDatabase smallExecution (.still 0))) c
        ∧ c.returned 2 = true
        ∧ ∀ ev ∈ c.trace, ∀ n, commitsStart n ev = true → gated n ev.before = false := by
  have hrun : (((Pool.start gateAndWorker (smallDatabase smallExecution (.still 0))).run
      (postgres (Fin 3)) (List.replicate 6 (.step 0) ++ List.replicate 7 (.step 1)
        ++ List.replicate 13 (.step 2))).any fun c =>
          c.returned 2 && c.trace.all fun ev => GateKept ev) = true := by
    decide +kernel
  obtain ⟨c, hc, hP⟩ := Pool.exists_of_run hrun
  obtain ⟨hret, hkept⟩ := Bool.and_eq_true_iff.mp hP
  have hs : (smallDatabase smallExecution (.still 0) : Database (Fin 3)).Settled :=
    Db.settled_init _ _ _ _
  exact ⟨c, hc, hret, start_respects_gate hs hc (List.all_eq_true.mp hkept)⟩

/-- The worker starts an execution, and completes it, while the request that gates it is
pending. -/
theorem gate_ignored :
    ∃ c : Sessions (Fin 3) Unit,
      Pool.Reach (postgres (Fin 3))
          (.start gateAndWorker (smallDatabase smallExecution (.still 0))) c
        ∧ (∃ ev ∈ c.trace, commitsStart 0 ev = true ∧ gated 0 ev.before = true)
        ∧ gated 0 c.store = true
        ∧ (c.store.committed .execution 0).any (·.status = .succeeded) = true := by
  have hrun : (((Pool.start gateAndWorker (smallDatabase smallExecution (.still 0))).run
      (postgres (Fin 3)) (List.replicate 6 (.step 0) ++ List.replicate 13 (.step 2))).any fun c =>
        (c.trace.any fun ev => commitsStart 0 ev && gated 0 ev.before) && gated 0 c.store
          && (c.store.committed .execution 0).any (·.status = .succeeded)) = true := by
    decide +kernel
  obtain ⟨c, hc, hP⟩ := Pool.exists_of_run hrun
  simp only [Bool.and_eq_true, List.any_eq_true] at hP
  obtain ⟨⟨⟨ev, hev, hstart⟩, hgated⟩, hdone⟩ := hP
  exact ⟨c, hc, ⟨ev, hev, hstart⟩, hgated, hdone⟩

end Automation
