import AgencyOS.Automation.Cancel
import AgencyOS.Automation.Decisions
import AgencyOS.Txn.Watch

/-!
The gate sweep: whether a decision has taken effect when its gate is marked handled.

The sweep reads the gated execution, chooses an operation from what it has read, stamps the gate
and then runs the operation, which commits the stamp.  An operation that is not needed, or whose
`UPDATE` matches nothing, leaves the stamp without an effect of its own, so the stamp then rests
on what the session has seen of the execution before.

* `takesEffect`, `stamps`, `applied`: what a decision asks for, the commits that mark a gate
  handled, and whether the decision has taken effect there;
* `Undisturbed`: what the other sessions must not do between the look of the sweep at the
  execution and its stamp;
* `gating`: the contract of the sessions, with `meets_sweep` and `meets_noClaim`;
* `gates_handled` (**handled gates**): along undisturbed runs every gate marked handled has its
  decision applied, once;
* `gate_overtaken`: a run in which a denied gate is marked handled on an execution that goes on.
-/

namespace Automation

open Txn WorkflowExecutionRepository

variable {ι : Type} [DecidableEq ι] {s s' : Database ι} {i : ι} {q : Sql automation} {m n : ℕ}
  {tr h : List (Happened ι)} {req : ApprovalRequest}

/-! ### Gates and stamps -/

/-- What a decision asks of the gated execution: an approval, that it is not left failed,
cancelled or timed out; any other decision, that it is stopped. -/
def takesEffect (st : ApprovalStatus) (r : Option Execution) : Bool :=
  r.all fun r =>
    if st = .approved then
      !(r.status = .failed || r.status = .cancelled || r.status = .timedOut)
    else decide r.Stopped

/-- The gate of request `m` has been marked handled. -/
def stamped (m : ℕ) (s : Database ι) : Bool :=
  (s.committed .approvalRequest m).any (·.gateHandledAt.isSome)

/-- The event marks the gate of request `m` handled. -/
def stamps (m : ℕ) (ev : Happened ι) : Bool := !stamped m ev.before && stamped m ev.after

/-- The execution that request `m` references is as its decision asks. -/
def applied (m : ℕ) (s : Database ι) : Bool :=
  (s.committed .approvalRequest m).all fun req =>
    req.workflowExecutionId.all fun n => takesEffect req.status (s.committed .execution n)

/-- The version of request `m` that the session has stamped and not committed. -/
def claimed (i : ι) (m : ℕ) (s : Database ι) : Option ApprovalRequest :=
  match s.dirty .approvalRequest m with
  | some (j, r) => if j = i ∧ r.gateHandledAt.isSome then some r else none
  | none => none

lemma claimed_eq_some {r : ApprovalRequest} :
    claimed i m s = some r ↔ s.dirty .approvalRequest m = some (i, r)
      ∧ r.gateHandledAt.isSome = true := by
  rw [claimed]
  split
  · rename_i j r' hd
    split_ifs with hj
    · obtain ⟨rfl, hstamp⟩ := hj
      simp only [hd, Option.some.injEq, Prod.mk.injEq, true_and]
      exact ⟨fun heq => ⟨heq, heq ▸ hstamp⟩, fun heq => heq.1⟩
    · simp only [hd, Option.some.injEq, Prod.mk.injEq, false_iff, not_and]
      rintro ⟨rfl, rfl⟩ hstamp
      exact hj ⟨rfl, hstamp⟩
  · rename_i hd
    simp [hd]

/-- What must not happen around a stamp: a decision flushed on a decided request; a
`mark_cancel_requested` for the gate that meets a row which `mark_cancelled_if_pending` would
cancel; at the commit of the stamp, an execution of another organization, or one on which the
session has seen the decision take effect and another session has undone that since. -/
def Undisturbed (past : List (Happened ι)) (ev : Happened ι) : Bool :=
  FlushesPending ev && match ev.stmt with
  | .update (.transition (.markCancelRequested org now user)) n =>
      (ev.before.view ev.pid .execution n).all
          (fun r => !(Execution.markCancelledIfPending org now user now).guard r)
        || (List.range ev.before.fresh).all fun m =>
          (claimed ev.pid m ev.before).all (·.workflowExecutionId ≠ some n)
  | .commit =>
      (List.range ev.before.fresh).all fun m =>
        (claimed ev.pid m ev.before).all fun req =>
          req.workflowExecutionId.all fun n =>
            let w := watch (S := automation) (t := Table.execution) (takesEffect req.status)
              ev.pid n past
            (ev.before.view ev.pid .execution n).all (·.organizationId = req.organizationId)
              && (!w.saw || !w.undone)
  | _ => true

lemma flushes_of_undisturbed {ev : Happened ι} (h : Undisturbed tr ev = true) :
    FlushesPending ev = true := (Bool.and_eq_true_iff.mp h).1

/-- An undisturbed `mark_cancel_requested` for a claimed gate strikes no pending row. -/
lemma undisturbed_cancel {org : ℕ} {now : Time} {user : Option ℕ} {r : Execution}
    (h : Undisturbed tr
      ⟨i, .update (.transition (.markCancelRequested org now user)) n, s, s'⟩ = true)
    (hc : claimed i m s = some req) (hreq : req.workflowExecutionId = some n)
    (hv : s.view i .execution n = some r) :
    (Execution.markCancelledIfPending org now user now).guard r = false := by
  have hlt : m < s.fresh := Db.lt_fresh_of_dirty (claimed_eq_some.mp hc).1
  rcases Bool.or_eq_true_iff.mp (Bool.and_eq_true_iff.mp h).2 with hrow | hall
  · simpa [hv] using hrow
  · have hm := List.all_eq_true.mp hall m (List.mem_range.mpr hlt)
    simp [hc, hreq] at hm

/-- An undisturbed commit of a stamp: the execution belongs to the organization of the request,
and nobody has undone what the session has seen of it. -/
lemma undisturbed_commit (h : Undisturbed tr ⟨i, .commit, s, s'⟩ = true)
    (hc : claimed i m s = some req) (hreq : req.workflowExecutionId = some n) :
    (∀ r, s.view i .execution n = some r → r.organizationId = req.organizationId)
      ∧ ((watch (S := automation) (t := Table.execution) (takesEffect req.status) i n tr).saw = true →
        (watch (S := automation) (t := Table.execution) (takesEffect req.status) i n tr).undone
          = false) := by
  have hlt : m < s.fresh := Db.lt_fresh_of_dirty (claimed_eq_some.mp hc).1
  have hm := List.all_eq_true.mp (Bool.and_eq_true_iff.mp h).2 m (List.mem_range.mpr hlt)
  simp only [hc, hreq, Option.all_some, Bool.and_eq_true] at hm
  obtain ⟨horg, hwatch⟩ := hm
  refine ⟨fun r hv => by simpa [hv] using horg, fun hsaw => ?_⟩
  simpa [hsaw] using hwatch

/-! ### The contract -/

/-- The event marks a gate on execution `n` handled. -/
def Handles (n : ℕ) (ev : Happened ι) : Prop :=
  ∃ m, stamps m ev = true
    ∧ (ev.after.committed .approvalRequest m).any (·.workflowExecutionId = some n) = true

/-- What the sessions may count on; the sessions in `sweeper` run the gate sweep. -/
def gating (sweeper : ι → Prop) : Contract (sql automation) ι (Database ι) where
  inv := fun tr s => Ahead (S := automation) Onward s ∧ WatchesSound tr s
  assume := fun past ev => Undisturbed past ev = true
  guar := fun i _ ev => (∀ m, stamps m ev = true → applied m ev.after = true)
    ∧ (∀ m, stamped m ev.before = true → stamped m ev.after = true)
    ∧ (sweeper i → ev.stmt = .commit → ∀ n r, ev.before.dirty .execution n = some (i, r) →
        Handles n ev)
  rely := fun i _ s s' => Frame i s s' ∧ Moves (S := automation) Onward i s s'

variable {sweeper : ι → Prop}

/-- A stamp is never taken back. -/
lemma stamped_effect (hahead : Ahead (S := automation) Onward s) (h : stamped m s = true) :
    stamped m (Db.effect i q s) = true := by
  obtain ⟨r, hr, hstamp⟩ := (Option.any_eq_true _ _).mp h
  obtain ⟨r', hr', -, hkept, -⟩ := hahead.committed onward_refl i q hr
  have hne : r.gateHandledAt ≠ none := Option.isSome_iff_ne_none.mp hstamp
  rw [stamped, hr', Option.any_some, hkept hne, hstamp]

/-- Every statement keeps the invariant, and every statement but a commit meets its
guarantee. -/
lemma gating_step (hI : (gating sweeper).inv tr s)
    (has : Undisturbed tr ⟨i, q, s, Db.effect i q s⟩ = true) :
    (gating sweeper).inv (tr ++ [⟨i, q, s, Db.effect i q s⟩]) (Db.effect i q s)
      ∧ (q ≠ .commit → (gating sweeper).guar i h ⟨i, q, s, Db.effect i q s⟩) := by
  obtain ⟨hahead, hsound⟩ := hI
  refine ⟨⟨onward_effect (flushes_of_undisturbed has) hahead, watchesSound_step hsound⟩, ?_⟩
  intro hq
  refine ⟨fun m hm => ?_, fun m => stamped_effect hahead, fun _ hc => absurd hc hq⟩
  have hsame : stamped m (Db.effect i q s) = stamped m s := by
    rw [stamped, Db.committed_effect hq, ← stamped]
  simp [stamps, hsame] at hm

lemma gating_compatible : (gating sweeper).Compatible (postgres ι) where
  refl := fun i _ s => ⟨Frame.refl i s, Moves.refl onward_refl i s⟩
  trans := fun _ _ _ _ _ h₁ h₂ => ⟨h₁.1.trans h₂.1, h₁.2.trans onward_trans h₂.2⟩
  step := fun _ ev j hj hI _ _ hafter _ => by
    rw [hafter]
    exact ⟨frame_effect (Ne.symm hj) ev.stmt ev.before,
      moves_other onward_refl (Ne.symm hj) hI.1 ev.stmt⟩
  hangup := fun tr i s hI _ has => by
    obtain ⟨hI', hguar⟩ := gating_step (q := .rollback) (h := own i tr) hI has
    exact ⟨hI', hguar (by simp)⟩

/-- A program that never commits keeps the contract. -/
lemma meets_uncommitted {α : Type} {p : Tx α} (hp : p.Issues fun q : Sql automation => q ≠ .commit)
    (h : List (Happened ι)) (s : Database ι) :
    Meets (gating sweeper) (postgres ι) i (fun _ _ _ => True) p h s := by
  refine meets_of_issues (J := fun _ _ => True) hp (fun _ _ _ _ _ => trivial) ?_ trivial
  intro tr q h s _ hq hI _ _ has
  obtain ⟨hI', hguar⟩ := gating_step hI has
  exact ⟨hI', hguar hq, trivial⟩

/-! ### Sessions that mark no gate -/

/-- The statements that mark no gate. -/
def NoClaim : Sql automation → Prop
  | .update (.claimGate _) _ => False
  | _ => True

/-- The session has stamped no gate that it has not committed. -/
def Unclaimed (i : ι) (s : Database ι) : Prop :=
  ∀ m r, s.dirty .approvalRequest m = some (i, r) → r.gateHandledAt.isSome = true →
    stamped m s = true

lemma stamped_of_frame {r : ApprovalRequest} (hf : Frame i s s')
    (hd : s.dirty .approvalRequest m = some (i, r)) : stamped m s' = stamped m s := by
  rw [stamped, hf.committed _ _ _ hd, ← stamped]

lemma Unclaimed.frame (hJ : Unclaimed i s) (hf : Frame i s s') : Unclaimed i s' := by
  intro m r hd hstamp
  have hd₀ := (hf.dirty _ _ _).mp hd
  rw [stamped_of_frame hf hd₀]
  exact hJ m r hd₀ hstamp

lemma Unclaimed.effect (hJ : Unclaimed i s) (hq : NoClaim q) : Unclaimed i (Db.effect i q s) := by
  intro m r hd hstamp
  rcases Db.dirty_effect_cases hd with
    ⟨hold, hj⟩ | ⟨-, ⟨u, r₀, rfl, hv, hg, heq⟩ | ⟨x, rfl, rfl, heq⟩⟩
  · have hc : q ≠ .commit := fun hc => hj (Or.inl hc) rfl
    rw [stamped, Db.committed_effect hc, ← stamped]
    exact hJ m r hold hstamp
  · rw [stamped, Db.committed_effect (by simp), ← stamped]
    have hseen : ∀ r₁ : ApprovalRequest, s.view i .approvalRequest m = some r₁ →
        r₁.gateHandledAt.isSome = true → stamped m s = true := by
      intro r₁ hv₁ hstamp₁
      rcases s.view_cases i .approvalRequest m with ⟨r₂, hd₂, hv₂⟩ | ⟨-, hc⟩
      · obtain rfl := Option.some.inj (hv₁.symm.trans hv₂)
        exact hJ m r₁ hd₂ hstamp₁
      · have hc' : s.committed .approvalRequest m = some r₁ := hc.symm.trans hv₁
        rw [stamped, hc', Option.any_some, hstamp₁]
    cases u with
    | decideRequest approve actor now note =>
        cases heq
        exact hseen r₀ hv hstamp
    | expireRequest org now =>
        cases heq
        exact hseen r₀ hv hstamp
    | claimGate handledAt => exact hq.elim
    | _ => cases heq
  · cases x with
    | approvalRequest d now =>
        cases heq
        cases hstamp
    | _ => cases heq

/-- A session that marks no gate keeps the contract. -/
lemma meets_noClaim {α : Type} {p : Tx α} (hi : ¬ sweeper i) (hp : p.Issues NoClaim)
    (hJ : Unclaimed i s) (h : List (Happened ι)) :
    Meets (gating sweeper) (postgres ι) i (fun _ _ _ => True) p h s := by
  refine (meets_of_issues (J := fun _ s => Unclaimed i s) hp
    (fun h s s' hJ (hr : (gating sweeper).rely i h s s') => hJ.frame hr.1) ?_ hJ).mono fun _ _ _ _ => trivial
  intro tr q h s _ hq hI hJ _ has
  obtain ⟨hI', hguar⟩ := gating_step (h := h) hI has
  refine ⟨hI', ?_, hJ.effect hq⟩
  by_cases hc : q = .commit
  · subst hc
    refine ⟨fun m hm => ?_, fun m => stamped_effect (q := .commit) hI.1, fun hsw => absurd hsw hi⟩
    obtain ⟨hbefore, hafter⟩ := Bool.and_eq_true_iff.mp hm
    rcases Db.committed_effect_cases i .commit s .approvalRequest m with hsame | ⟨-, r, hd, hc⟩
    · have hsame' : stamped m (Db.effect i .commit s) = stamped m s := by
        rw [stamped, hsame, ← stamped]
      have hafter' : stamped m (Db.effect i .commit s) = true := hafter
      rw [hsame'] at hafter'
      simp [hafter'] at hbefore
    · have hafter' : stamped m (Db.effect i .commit s) = true := hafter
      rw [stamped, hc, Option.any_some] at hafter'
      simp [hJ m r hd hafter'] at hbefore
  · exact hguar hc

/-! ### What a sweeping session holds -/

/-- The session has written no request and no execution that it has not committed. -/
structure Idle (i : ι) (s : Database ι) : Prop where
  requests : ∀ m r, s.dirty .approvalRequest m ≠ some (i, r)
  executions : ∀ n r, s.dirty .execution n ≠ some (i, r)

/-- The session has stamped request `m`, which it has listed as `req`, and has written nothing
else but its execution. -/
structure Claimed (m : ℕ) (req : ApprovalRequest) (i : ι) (s : Database ι) : Prop where
  row : ∃ r, claimed i m s = some r ∧ Onward .approvalRequest req r
  unstamped : stamped m s = false
  requests : ∀ m' r, s.dirty .approvalRequest m' = some (i, r) → m' = m
  executions : ∀ n r, s.dirty .execution n = some (i, r) → req.workflowExecutionId = some n

/-- The session has seen the execution of the request as the decision asks, or sees that it
belongs to another organization. -/
def Sees (req : ApprovalRequest) (i : ι) (h : List (Happened ι)) (s : Database ι) : Prop :=
  ∀ n, req.workflowExecutionId = some n →
    (watch (S := automation) (t := Table.execution) (takesEffect req.status) i n h).saw = true
      ∨ ∃ r, s.view i .execution n = some r ∧ r.organizationId ≠ req.organizationId

lemma Idle.frame (hidle : Idle i s) (hf : Frame i s s') : Idle i s' :=
  ⟨fun m r hd => hidle.requests m r ((hf.dirty _ _ _).mp hd),
    fun n r hd => hidle.executions n r ((hf.dirty _ _ _).mp hd)⟩

lemma idle_commit (i : ι) (s : Database ι) : Idle i (s.commit i) :=
  ⟨fun _ _ hd => (Db.release_eq_some.mp hd).1 rfl, fun _ _ hd => (Db.release_eq_some.mp hd).1 rfl⟩

lemma Claimed.frame (hc : Claimed m req i s) (hf : Frame i s s') : Claimed m req i s' := by
  obtain ⟨⟨r, hr, honward⟩, hunstamped, hrequests, hexecutions⟩ := hc
  obtain ⟨hd, hstamp⟩ := claimed_eq_some.mp hr
  refine ⟨⟨r, claimed_eq_some.mpr ⟨(hf.dirty _ _ _).mpr hd, hstamp⟩, honward⟩, ?_,
    fun m' r' hd' => hrequests m' r' ((hf.dirty _ _ _).mp hd'),
    fun n r' hd' => hexecutions n r' ((hf.dirty _ _ _).mp hd')⟩
  rw [stamped_of_frame hf hd, hunstamped]

lemma Sees.moves (hsees : Sees req i h s) (hm : Moves (S := automation) Onward i s s') :
    Sees req i h s' := by
  intro n hn
  rcases hsees n hn with hsaw | ⟨r, hr, horg⟩
  · exact Or.inl hsaw
  · obtain ⟨r', hr', honward⟩ := hm .execution n r hr
    have hsame : r'.organizationId = r.organizationId := honward
    exact Or.inr ⟨r', hr', hsame ▸ horg⟩

/-- The statements that read only. -/
def Reads : Sql automation → Prop
  | .select .. | .scan _ | .now => True
  | _ => False

lemma Reads.ne_commit (hq : Reads q) : q ≠ .commit := by
  rintro rfl
  exact hq

lemma Idle.reads (hidle : Idle i s) (hq : Reads q) : Idle i (Db.effect i q s) := by
  cases q with
  | select t n => exact hidle
  | scan p => exact hidle
  | now => exact ⟨hidle.requests, hidle.executions⟩
  | _ => exact hq.elim

lemma Claimed.reads (hc : Claimed m req i s) (hq : Reads q) : Claimed m req i (Db.effect i q s) := by
  cases q with
  | select t n => exact hc
  | scan p => exact hc
  | now => exact ⟨hc.row, hc.unstamped, hc.requests, hc.executions⟩
  | _ => exact hq.elim

lemma moves_reads (hq : Reads q) (i : ι) (s : Database ι) :
    Moves (S := automation) Onward i s (Db.effect i q s) := by
  cases q with
  | select t n => exact Moves.refl onward_refl i s
  | scan p => exact Moves.refl onward_refl i s
  | now => exact fun t n r hr => ⟨r, hr, onward_refl t r⟩
  | _ => exact hq.elim

/-- A read keeps what the session has seen. -/
lemma Sees.reads (hsees : Sees req i h s) (hq : Reads q) :
    Sees req i (h ++ [⟨i, q, s, Db.effect i q s⟩]) (Db.effect i q s) := by
  have hstay : ∀ n, (watch (S := automation) (t := Table.execution) (takesEffect req.status) i n
      h).saw = true → (watch (S := automation) (t := Table.execution) (takesEffect req.status) i n
        (h ++ [⟨i, q, s, Db.effect i q s⟩])).saw = true := by
    intro n hsaw
    rw [watch_snoc, Watch.step, if_pos rfl]
    cases q with
    | select t m => simp [hsaw]
    | scan p => simp [hsaw]
    | now => exact hsaw
    | _ => exact hq.elim
  intro n hn
  rcases hsees n hn with hsaw | hview
  · exact Or.inl (hstay n hsaw)
  · obtain ⟨r, hr, horg⟩ := hview
    obtain ⟨r', hr', honward⟩ := moves_reads hq i s .execution n r hr
    have hsame : r'.organizationId = r.organizationId := honward
    exact Or.inr ⟨r', hr', hsame ▸ horg⟩

/-- A program that only reads keeps a stable assertion. -/
lemma meets_reads {α : Type} {p : Tx α} (hp : p.Issues Reads)
    {J : List (Happened ι) → Database ι → Prop}
    (hrely : ∀ h s s', J h s → (gating sweeper).rely i h s s' → J h s')
    (hstep : ∀ h q s, Reads q → J h s → J (h ++ [⟨i, q, s, Db.effect i q s⟩]) (Db.effect i q s))
    (hJ : J h s) : Meets (gating sweeper) (postgres ι) i (fun h _ s => J h s) p h s := by
  refine meets_of_issues hp hrely (fun tr q h s _ hq hI hJ _ has => ?_) hJ
  obtain ⟨hI', hguar⟩ := gating_step hI has
  exact ⟨hI', hguar hq.ne_commit, hstep h q s hq hJ⟩

/-- An operation on the execution keeps the claim. -/
lemma Claimed.transition {t : Transition} (hc : Claimed m req i s)
    (hn : req.workflowExecutionId = some n) :
    Claimed m req i (Db.effect i (.update (.transition t) n) s) := by
  obtain ⟨⟨r, hr, honward⟩, hunstamped, hrequests, hexecutions⟩ := hc
  obtain ⟨hd, hstamp⟩ := claimed_eq_some.mp hr
  refine ⟨⟨r, claimed_eq_some.mpr ⟨?_, hstamp⟩, honward⟩, ?_, fun m' r' hd' => ?_,
    fun n' r' hd' => ?_⟩
  · obtain ⟨r', hd', rfl | ⟨u, r₀, hq, heq, -⟩⟩ := Db.dirty_effect_own
      (q := (.update (.transition t) n : Sql automation)) hd (by simp) (by simp)
    · exact hd'
    · obtain ⟨rfl, -⟩ := Sql.update.inj hq
      cases heq
  · rw [stamped, Db.committed_effect (by simp), ← stamped, hunstamped]
  · rcases Db.dirty_effect_cases hd' with ⟨hold, -⟩ | ⟨-, ⟨u, r₀, hq, -, -, heq⟩ | ⟨x, hq, -⟩⟩
    · exact hrequests m' r' hold
    · obtain ⟨rfl, -⟩ := Sql.update.inj hq
      cases heq
    · cases hq
  · rcases Db.dirty_effect_cases hd' with ⟨hold, -⟩ | ⟨-, ⟨u, r₀, hq, -⟩ | ⟨x, hq, -⟩⟩
    · exact hexecutions n' r' hold
    · obtain ⟨-, rfl⟩ := Sql.update.inj hq
      exact hn
    · cases hq

/-! ### Commits of a sweeping session -/

/-- A commit of a session that has written no request and no execution marks no gate. -/
lemma guar_commit_idle (hahead : Ahead (S := automation) Onward s) (hidle : Idle i s) :
    (gating sweeper).guar i h ⟨i, .commit, s, Db.effect i .commit s⟩ := by
  refine ⟨fun m hm => ?_, fun m => stamped_effect (q := .commit) hahead,
    fun _ _ n r hd => absurd hd (hidle.executions n r)⟩
  obtain ⟨hbefore, hafter⟩ := Bool.and_eq_true_iff.mp hm
  rcases Db.committed_effect_cases i .commit s .approvalRequest m with hsame | ⟨-, r, hd, -⟩
  · have hsame' : stamped m (Db.effect i .commit s) = stamped m s := by
      rw [stamped, hsame, ← stamped]
    have hafter' : stamped m (Db.effect i .commit s) = true := hafter
    rw [hsame'] at hafter'
    simp [hafter'] at hbefore
  · exact absurd hd (hidle.requests m r)

/-- **The commit of a stamp**: the decision has taken effect, and what the session has written
belongs to the gate it marks. -/
lemma guar_commit_claimed (hI : (gating sweeper).inv tr s)
    (has : Undisturbed tr ⟨i, .commit, s, Db.effect i .commit s⟩ = true)
    (hst : req.status ≠ .pending) (hc : Claimed m req i s) (hsees : Sees req i (own i tr) s) :
    (gating sweeper).guar i h ⟨i, .commit, s, Db.effect i .commit s⟩ := by
  obtain ⟨⟨r, hr, hstatus, -, hexec, horg⟩, hunstamped, hrequests, hexecutions⟩ := hc
  obtain ⟨hd, hstamp⟩ := claimed_eq_some.mp hr
  have hv : s.view i .approvalRequest m = some r := Db.view_of_own hd
  have hafter : (Db.effect i .commit s).committed .approvalRequest m = some r := hv
  refine ⟨fun m' hm' => ?_, fun m => stamped_effect (q := .commit) hI.1, fun _ _ n r₀ hd₀ => ?_⟩
  · obtain ⟨hbefore', hafter'⟩ := Bool.and_eq_true_iff.mp hm'
    obtain rfl : m' = m := by
      rcases Db.committed_effect_cases i .commit s .approvalRequest m' with hsame | ⟨-, r', hd', -⟩
      · have hsame' : stamped m' (Db.effect i .commit s) = stamped m' s := by
          rw [stamped, hsame, ← stamped]
        have hafter'' : stamped m' (Db.effect i .commit s) = true := hafter'
        rw [hsame'] at hafter''
        simp [hafter''] at hbefore'
      · exact hrequests m' r' hd'
    show applied m' (Db.effect i .commit s) = true
    rw [applied, hafter, Option.all_some, hexec, hstatus hst]
    cases hn : req.workflowExecutionId with
    | none => rfl
    | some n =>
        rw [Option.all_some]
        show takesEffect req.status (s.view i .execution n) = true
        obtain ⟨horg', hundone⟩ := undisturbed_commit has hr (hexec.trans hn)
        rw [hstatus hst] at hundone
        rcases hsees n hn with hsaw | ⟨r₀, hr₀, hforeign⟩
        · rw [watch_saw_own] at hsaw
          exact hI.2 .execution _ i n hsaw (hundone hsaw)
        · rw [horg' r₀ hr₀, horg] at hforeign
          exact absurd rfl hforeign
  · have hn : req.workflowExecutionId = some n := hexecutions n r₀ hd₀
    refine ⟨m, ?_, ?_⟩
    · have hafter' : stamped m (Db.effect i .commit s) = true := by
        rw [stamped, hafter, Option.any_some, hstamp]
      show (!stamped m s && stamped m (Db.effect i .commit s)) = true
      rw [hunstamped, hafter']
      rfl
    · show ((Db.effect i .commit s).committed .approvalRequest m).any _ = true
      rw [hafter, Option.any_some, hexec, hn]
      exact decide_eq_true rfl

/-! ### The operation of a gate -/

section Operation

variable {s₀ : Database ι}

/-- The session holds a claim, and what it saw at `s₀` has moved on since. -/
def Holds (m : ℕ) (req : ApprovalRequest) (i : ι) (s₀ s : Database ι) : Prop :=
  Claimed m req i s ∧ Moves (S := automation) Onward i s₀ s

/-- The session has nothing uncommitted, and what it saw at `s₀` has moved on since. -/
def Free (i : ι) (s₀ s : Database ι) : Prop :=
  Idle i s ∧ Moves (S := automation) Onward i s₀ s

lemma Holds.rely (hH : Holds m req i s₀ s) (hr : (gating sweeper).rely i h s s') :
    Holds m req i s₀ s' :=
  ⟨hH.1.frame hr.1, hH.2.trans onward_trans hr.2⟩

lemma Free.rely (hF : Free i s₀ s) (hr : (gating sweeper).rely i h s s') : Free i s₀ s' :=
  ⟨hF.1.frame hr.1, hF.2.trans onward_trans hr.2⟩

lemma Holds.reads (hH : Holds m req i s₀ s) (hq : Reads q) : Holds m req i s₀ (Db.effect i q s) :=
  ⟨hH.1.reads hq, hH.2.trans onward_trans (moves_reads hq i s)⟩

lemma Free.reads (hF : Free i s₀ s) (hq : Reads q) : Free i s₀ (Db.effect i q s) :=
  ⟨hF.1.reads hq, hF.2.trans onward_trans (moves_reads hq i s)⟩

/-- Reads under a claim. -/
lemma meets_reads_holds {α : Type} {p : Tx α} (hp : p.Issues Reads) (hH : Holds m req i s₀ s)
    (h : List (Happened ι)) :
    Meets (gating sweeper) (postgres ι) i (fun _ _ s => Holds m req i s₀ s) p h s :=
  meets_reads (J := fun _ s => Holds m req i s₀ s) hp
    (fun _ _ _ hH hr => hH.rely hr) (fun _ _ _ hq hH => hH.reads hq) hH

/-- Reads under a claim whose decision has been seen to take effect. -/
lemma meets_reads_sees {α : Type} {p : Tx α} (hp : p.Issues Reads)
    (hH : Holds m req i s₀ s ∧ Sees req i h s) :
    Meets (gating sweeper) (postgres ι) i (fun h _ s => Holds m req i s₀ s ∧ Sees req i h s) p h
      s :=
  meets_reads (J := fun h s => Holds m req i s₀ s ∧ Sees req i h s) hp
    (fun _ _ _ hH hr => ⟨hH.1.rely hr, hH.2.moves hr.2⟩)
    (fun _ _ _ hq hH => ⟨hH.1.reads hq, hH.2.reads hq⟩) hH

/-- The commit of a stamp whose decision has been seen to take effect. -/
lemma meets_commitStamp (hst : req.status ≠ .pending) (hH : Holds m req i s₀ s)
    (hsees : Sees req i h s) :
    Meets (gating sweeper) (postgres ι) i (fun _ _ s => Free i s₀ s) commitWithRetry h s := by
  refine (meets_ask (P := fun s₁ => Holds m req i s₀ s₁) ?_).mono ?_
  · intro tr s₁ ht hr hI _ has
    have hH₁ : Holds m req i s₀ s₁ := hH.rely hr
    have hsees₁ : Sees req i (own i tr) s₁ := ht ▸ hsees.moves hr.2
    obtain ⟨hI', -⟩ := gating_step (h := h) hI has
    exact ⟨hI', guar_commit_claimed hI has hst hH₁.1 hsees₁, hH₁⟩
  · rintro h' _ s₂ ⟨s₁, ⟨-, hm⟩, -, -, hr⟩
    have hstay : Moves (S := automation) Onward i s₁ (s₁.commit i) :=
      fun t n r hv => ⟨r, (Db.view_commit s₁ i t n).trans hv, onward_refl t r⟩
    exact Free.rely ⟨idle_commit i s₁, hm.trans onward_trans hstay⟩ hr

/-- A commit of a session that has nothing uncommitted. -/
lemma meets_commitFree (hF : Free i s₀ s) (h : List (Happened ι)) :
    Meets (gating sweeper) (postgres ι) i (fun _ _ s => Free i s₀ s) commitWithRetry h s := by
  refine (meets_ask (P := fun s₁ => Free i s₀ s₁) ?_).mono ?_
  · intro tr s₁ _ hr hI _ has
    have hF₁ : Free i s₀ s₁ := hF.rely hr
    obtain ⟨hI', -⟩ := gating_step (h := h) hI has
    exact ⟨hI', guar_commit_idle hI.1 hF₁.1, hF₁⟩
  · rintro h' _ s₂ ⟨s₁, ⟨-, hm⟩, -, -, hr⟩
    have hstay : Moves (S := automation) Onward i s₁ (s₁.commit i) :=
      fun t n r hv => ⟨r, (Db.view_commit s₁ i t n).trans hv, onward_refl t r⟩
    exact Free.rely ⟨idle_commit i s₁, hm.trans onward_trans hstay⟩ hr

/-- A rollback that ends in an exception. -/
lemma meets_rollbackAndRaise {α : Type} (code message : String) (statusCode : ℕ)
    (h : List (Happened ι)) (s : Database ι) :
    Meets (gating sweeper) (postgres ι) i (fun _ r _ => ∀ a, r ≠ .ok a)
      (rollbackAndRaise code message statusCode : Tx α) h s := by
  have hroll : (Tx.rollback : Tx Unit).Issues fun q : Sql automation => q ≠ .commit :=
    ⟨by simp, fun _ => trivial⟩
  exact (meets_uncommitted hroll h s).bind gating_compatible
    (fun _ _ _ _ => fun _ _ _ _ _ _ hok => by cases hok) fun _ _ _ _ _ hok => by cases hok

/-- A transition of the gated execution: the row it was executed on, and the claim kept. -/
lemma meets_transition_holds {t : Transition} (hn : req.workflowExecutionId = some n)
    (hH : Holds m req i s₀ s) (h : List (Happened ι)) :
    Meets (gating sweeper) (postgres ι) i
      (fun h' r s' => Holds m req i s₀ s' ∧ ∃ s₁ tr, Holds m req i s₀ s₁
        ∧ Undisturbed tr
          ⟨i, .update (.transition t) n, s₁, Db.effect i (.update (.transition t) n) s₁⟩ = true
        ∧ r = .ok (s₁.written i (.transition t) n)
        ∧ (watch (S := automation) (t := Table.execution) (takesEffect req.status) i n h').saw
          = takesEffect req.status ((s₁.view i .execution n).map t.step))
      (transition n t) h s := by
  refine (meets_ask (P := fun s₁ => Holds m req i s₀ s₁
    ∧ (postgres ι).ready i (.update (.transition t) n) s₁ = true ∧ ∃ tr, Undisturbed tr
      ⟨i, .update (.transition t) n, s₁, Db.effect i (.update (.transition t) n) s₁⟩ = true)
    ?_).mono ?_
  · intro tr s₁ _ hr hI hready has
    obtain ⟨hI', hguar⟩ := gating_step (q := .update (.transition t) n) (h := h) hI has
    exact ⟨hI', hguar (by simp), hH.rely hr, hready, tr, has⟩
  · rintro h' _ s₂ ⟨s₁, ⟨hH₁, hready, tr, has⟩, rfl, rfl, hr⟩
    have hmoves : Moves (S := automation) Onward i s₁
        (Db.effect i (.update (.transition t) n) s₁) := by
      refine moves_own onward_refl (by simp) hready fun u n' r hq hv hg => ?_
      obtain ⟨rfl, rfl⟩ := Sql.update.inj hq
      exact onward_set (flushes_of_undisturbed has) hv hg
    refine ⟨Holds.rely ⟨hH₁.1.transition hn, hH₁.2.trans onward_trans hmoves⟩ hr,
      s₁, tr, hH₁, has, rfl, ?_⟩
    have hsaw : (watch (S := automation) (t := Table.execution) (takesEffect req.status) i n
        (h ++ [⟨i, .update (.transition t) n, s₁,
          Db.effect i (.update (.transition t) n) s₁⟩])).saw
          = takesEffect req.status
            ((Db.effect i (.update (.transition t) n : Sql automation) s₁).view i .execution n) :=
      saw_update (S := automation) (u := .transition t)
    refine hsaw.trans (congrArg (takesEffect req.status) ?_)
    exact Db.view_update hready

/-- A row that the session has loaded is returned as it was loaded. -/
lemma returns_getOr404 (row : Execution) (org n : ℕ) :
    (getOr404 (some row) org n).Returns (· = row) := by
  refine Prog.returns_bind (ψ := fun a => a = some row ∨ a = none) (fun r => ?_) fun a ha => ?_
  · show (r.filter _).map _ = some row ∨ (r.filter _).map _ = none
    cases r.filter (·.organizationId = org) with
    | none => exact Or.inr rfl
    | some r => exact Or.inl rfl
  · rcases ha with rfl | rfl
    · rfl
    · trivial

lemma reads_get (loaded : Option Execution) (org n : ℕ) :
    (WorkflowExecutionRepository.get loaded org n).Issues Reads := ⟨trivial, fun _ => trivial⟩

lemma reads_getOr404 (loaded : Option Execution) (org n : ℕ) :
    (getOr404 loaded org n).Issues Reads := by
  refine Prog.issues_bind (reads_get loaded org n) fun r => ?_
  cases r <;> trivial

lemma reads_utcnow : utcnow.Issues Reads := ⟨trivial, fun _ => trivial⟩

lemma reads_blockExecutionIfPaused :
    AutomationControlService.blockExecutionIfPaused.Issues Reads := by
  refine Prog.issues_bind ⟨trivial, fun _ => trivial⟩ fun enabled => ?_
  cases enabled with
  | true => trivial
  | false => exact Prog.issues_bind ⟨trivial, fun _ => trivial⟩ fun _ => trivial

/-- The row that a matched transition leaves. -/
lemma row_of_matched {t : Transition} {updated : Execution}
    (hw : s.written i (.transition t) n = some updated) :
    ∃ r, t.update.guard r = true
      ∧ (s.view i .execution n).map t.step = some (t.update.set r) := by
  obtain ⟨-, r, hv, hg, -⟩ := Db.written_eq_some.mp hw
  have hv' : s.view i .execution n = some r := hv
  have hstep : t.step r = t.update.set r := GuardedUpdate.step_of_guard hg
  exact ⟨r, hg, by rw [hv', Option.map_some, hstep]⟩

/-- The `UPDATE`s of a cancel for a gate leave the execution stopped: the last one matches, or
meets a row that is stopped already. -/
lemma meets_gateCancelOrFlag (row : Execution) (user : Option ℕ) (now : Time)
    (hn : req.workflowExecutionId = some n) (hst : req.status ≠ .approved)
    (horg : ∃ r, s₀.view i .execution n = some r ∧ r.organizationId = req.organizationId)
    (hH : Holds m req i s₀ s) (h : List (Happened ι)) :
    Meets (gating sweeper) (postgres ι) i (fun h _ s => Holds m req i s₀ s ∧ Sees req i h s)
      (WorkflowExecutionService.cancelOrFlag row req.organizationId n user now) h s := by
  have hsees : ∀ {h : List (Happened ι)} {s : Database ι} {b : Bool}, b = true →
      (watch (S := automation) (t := Table.execution) (takesEffect req.status) i n h).saw = b →
      Sees req i h s := by
    rintro h s b rfl hsaw n' hn'
    obtain rfl := Option.some.inj (hn.symm.trans hn')
    exact Or.inl hsaw
  have hflag : ∀ (h : List (Happened ι)) (s : Database ι), Holds m req i s₀ s →
      Meets (gating sweeper) (postgres ι) i (fun h _ s => Holds m req i s₀ s ∧ Sees req i h s)
        (markCancelRequested req.organizationId n now user) h s := by
    intro h s hH
    refine (meets_transition_holds hn hH h).mono ?_
    rintro h' r s' ⟨hH', s₁, tr, ⟨hc, hm⟩, has, -, hsaw⟩
    refine ⟨hH', hsees ?_ hsaw⟩
    cases hv : s₁.view i .execution n with
    | none => rfl
    | some r₁ =>
        obtain ⟨r₀, hr₀, horg₀⟩ := horg
        obtain ⟨r₁', hr₁', honward⟩ := hm .execution n r₀ hr₀
        obtain rfl := Option.some.inj (hv.symm.trans hr₁')
        have horg₁ : r₁.organizationId = req.organizationId :=
          (show r₁.organizationId = r₀.organizationId from honward).trans horg₀
        obtain ⟨⟨r', hr', -, -, hexec, -⟩, -⟩ := hc
        have hguard := undisturbed_cancel has hr' (hexec.trans hn) hv
        have hstopped : ((Execution.markCancelRequested req.organizationId now user).step
            r₁).Stopped := (stopped_markCancelRequested horg₁).mpr hguard
        show takesEffect req.status
          (some ((Execution.markCancelRequested req.organizationId now user).step r₁)) = true
        rw [takesEffect, Option.all_some, if_neg hst]
        exact decide_eq_true hstopped
  rw [WorkflowExecutionService.cancelOrFlag]
  split_ifs with hpending
  · refine (meets_transition_holds hn hH h).bind gating_compatible (fun h' answer s' hpost => ?_) ?_
    · obtain ⟨hH', s₁, tr, -, -, hok, hsaw⟩ := hpost
      cases answer with
      | none => exact hflag h' s' hH'
      | some updated =>
          obtain ⟨r₁, -, hrow⟩ := row_of_matched (Except.ok.inj hok).symm
          rw [hrow] at hsaw
          have hstop : takesEffect req.status (some ((Execution.markCancelledIfPending
              req.organizationId now user now).set r₁)) = true := by
            rw [takesEffect, Option.all_some, if_neg hst]
            exact decide_eq_true (Or.inl rfl)
          have hdone : Sees req i h' s' := hsees hstop hsaw
          exact fun _ s'' _ hr _ => ⟨hH'.rely hr, hdone.moves hr.2⟩
    · rintro h' e s' ⟨-, s₁, tr, -, -, hok, -⟩
      cases hok
  · exact hflag h s hH

/-- The cancel of a gate commits the stamp on a stopped execution. -/
lemma meets_gateCancel (row : Execution) (user : Option ℕ) (hn : req.workflowExecutionId = some n)
    (hst : req.status ≠ .approved) (hst' : req.status ≠ .pending)
    (hrow : row.status = .queued ∨ row.status = .running ∨ row.status = .retrying)
    (horg : ∃ r, s₀.view i .execution n = some r ∧ r.organizationId = req.organizationId)
    (hH : Holds m req i s₀ s) (h : List (Happened ι)) :
    Meets (gating sweeper) (postgres ι) i (fun _ r s => ∀ a, r = .ok a → Free i s₀ s)
      (WorkflowExecutionService.cancel (some row) req.organizationId n user) h s := by
  rw [WorkflowExecutionService.cancel]
  refine ((meets_reads_holds (reads_getOr404 _ _ _) hH h).returns
    (returns_getOr404 row req.organizationId n)).bind gating_compatible
      (fun h execution s hpost => ?_) fun h e s _ a hok => by cases hok
  obtain ⟨hH, hexecution⟩ := hpost
  obtain rfl := hexecution execution rfl
  have hlive : ¬ execution.status = .cancelled := by
    intro hcancelled
    rw [hcancelled] at hrow
    rcases hrow with hrow | hrow | hrow <;> cases hrow
  rw [if_neg hlive, if_neg (not_not.mpr hrow)]
  refine (meets_reads_holds reads_utcnow hH h).bind gating_compatible
    (fun h now s hH => ?_) fun h e s _ a hok => by cases hok
  refine (meets_gateCancelOrFlag execution user now hn hst horg hH h).bind gating_compatible
    (fun h updated s hpost => ?_) fun h e s _ a hok => by cases hok
  have hcommit : ∀ (updated : Execution) (h : List (Happened ι)) (s : Database ι),
      Holds m req i s₀ s ∧ Sees req i h s →
      Meets (gating sweeper) (postgres ι) i (fun _ r s => ∀ a, r = .ok a → Free i s₀ s)
        (commitWithRetry.bind fun _ => .ret updated) h s := by
    intro updated h s hpost
    refine (meets_commitStamp hst' hpost.1 hpost.2).bind gating_compatible
      (fun h _ s hF => ?_) fun h e s _ a hok => by cases hok
    exact fun _ _ _ hr _ _ _ => hF.rely hr
  cases updated with
  | some updated => exact hcommit updated h s hpost
  | none =>
      refine (meets_reads_sees (reads_get (some execution) req.organizationId n) hpost).bind
        gating_compatible (fun h row s hpost => ?_) fun h e s _ a hok => by cases hok
      cases row with
      | some row => exact hcommit row h s hpost
      | none => exact fun _ _ _ _ _ a hok => by cases hok

/-- The retry of a gate commits the stamp on a queued execution. -/
lemma meets_gateRetry (row : Execution) (hn : req.workflowExecutionId = some n)
    (hst : req.status = .approved)
    (hrow : row.status = .failed ∨ row.status = .cancelled ∨ row.status = .timedOut)
    (hH : Holds m req i s₀ s) (h : List (Happened ι)) :
    Meets (gating sweeper) (postgres ι) i (fun _ r s => ∀ a, r = .ok a → Free i s₀ s)
      (WorkflowExecutionService.retry (some row) req.organizationId n) h s := by
  rw [WorkflowExecutionService.retry]
  refine (meets_reads_holds reads_blockExecutionIfPaused hH h).bind gating_compatible
    (fun h _ s hH => ?_) fun h e s _ a hok => by cases hok
  refine ((meets_reads_holds (reads_getOr404 _ _ _) hH h).returns
    (returns_getOr404 row req.organizationId n)).bind gating_compatible
      (fun h execution s hpost => ?_) fun h e s _ a hok => by cases hok
  obtain ⟨hH, hexecution⟩ := hpost
  obtain rfl := hexecution execution rfl
  rw [if_neg (not_not.mpr hrow)]
  refine (meets_transition_holds (t := .markRequeued req.organizationId) hn hH h).bind
    gating_compatible (fun h updated s hpost => ?_) fun h e s hpost a hok => by cases hok
  obtain ⟨hH, s₁, tr, -, -, hok, hsaw⟩ := hpost
  cases updated with
  | none => exact (meets_rollbackAndRaise _ _ _ h s).mono fun h r s hraise a hok =>
      absurd hok (hraise a)
  | some updated =>
      obtain ⟨r, -, hqueued⟩ := row_of_matched (Except.ok.inj hok).symm
      rw [hqueued] at hsaw
      have heffect : takesEffect req.status
          (some ((Execution.markRequeued req.organizationId).set r)) = true := by
        rw [takesEffect, Option.all_some, if_pos hst]
        rfl
      have hsees : Sees req i h s := by
        intro n' hn'
        obtain rfl := Option.some.inj (hn.symm.trans hn')
        exact Or.inl (hsaw.trans heffect)
      refine (meets_commitStamp (by simp [hst]) hH hsees).bind gating_compatible
        (fun h _ s hF => ?_) fun h e s _ a hok => by cases hok
      exact fun _ _ _ hr _ _ _ => hF.rely hr

/-! ### One gate -/

open ApprovalRequestRepository ApprovalGateService

/-- The session has listed request `m` as `req`, and its row has only moved on since. -/
def Listed (m : ℕ) (req : ApprovalRequest) (i : ι) (s : Database ι) : Prop :=
  ∃ r, s.view i .approvalRequest m = some r ∧ Onward .approvalRequest req r

lemma Listed.moves (hl : Listed m req i s) (hm : Moves (S := automation) Onward i s s') :
    Listed m req i s' := by
  obtain ⟨r, hr, honward⟩ := hl
  obtain ⟨r', hr', honward'⟩ := hm .approvalRequest m r hr
  exact ⟨r', hr', onward_trans .approvalRequest _ _ _ honward honward'⟩

/-- The stamp of a session that has nothing uncommitted. -/
lemma claimed_of_written {handledAt : Time} {r' : ApprovalRequest} (hidle : Idle i s)
    (hl : Listed m req i s) (hw : s.written i (.claimGate handledAt) m = some r') :
    Claimed m req i (Db.effect i (.update (.claimGate handledAt) m) s) := by
  obtain ⟨-, r, hv, hg, rfl⟩ := Db.written_eq_some.mp hw
  have hv' : s.view i .approvalRequest m = some r := hv
  have hnone : r.gateHandledAt = none := Option.isNone_iff_eq_none.mp hg
  obtain ⟨r₀, hr₀, hstatus, hstamp, hexec, horg⟩ := hl
  obtain rfl := Option.some.inj (hv'.symm.trans hr₀)
  refine ⟨⟨_, claimed_eq_some.mpr ⟨Db.dirty_update hw, rfl⟩, hstatus, fun hne => ?_, hexec, horg⟩,
    ?_, fun m' r' hd => ?_, fun n r' hd => ?_⟩
  · rw [hstamp hne] at hnone
    exact absurd hnone hne
  · rcases s.view_cases i .approvalRequest m with ⟨r₁, hd, -⟩ | ⟨-, hc⟩
    · exact absurd hd (hidle.requests m r₁)
    · have hc' : s.committed .approvalRequest m = some r := hc.symm.trans hv'
      rw [stamped, Db.committed_effect (by simp), hc', Option.any_some, hnone]
      rfl
  · rcases Db.dirty_effect_cases hd with ⟨hold, -⟩ | ⟨-, ⟨u, r₀, hq, -⟩ | ⟨x, hq, -⟩⟩
    · exact absurd hold (hidle.requests m' r')
    · exact (Sql.update.inj hq).2.symm
    · cases hq
  · rcases Db.dirty_effect_cases hd with ⟨hold, -⟩ | ⟨-, ⟨u, r₀, hq, -, -, heq⟩ | ⟨x, hq, -⟩⟩
    · exact absurd hold (hidle.executions n r')
    · obtain ⟨rfl, -⟩ := Sql.update.inj hq
      cases heq
    · cases hq

/-- The stamp shows no execution. -/
lemma Sees.claimGate {handledAt : Time} (hsees : Sees req i h s)
    (hm : Moves (S := automation) Onward i s
      (Db.effect i (.update (.claimGate handledAt) m) s)) :
    Sees req i (h ++ [⟨i, .update (.claimGate handledAt) m, s,
      Db.effect i (.update (.claimGate handledAt) m) s⟩])
      (Db.effect i (.update (.claimGate handledAt) m) s) := by
  intro n hn
  rcases hsees.moves hm n hn with hsaw | hview
  · refine Or.inl ?_
    rw [watch_other (by simp) (by simp) (by simp) (by simp) ?_ (by simp)]
    · exact hsaw
    · rintro u m' hq ⟨htable, -⟩
      obtain ⟨rfl, -⟩ := Sql.update.inj hq
      cases htable
  · exact Or.inr hview

/-- `claim_gate`: the gate is claimed, or nothing has changed. -/
lemma meets_claimGate (handledAt : Time) (hF : Free i s₀ s) (hl : Listed m req i s₀) {φ : Prop}
    (hsees : φ → Sees req i h s) :
    Meets (gating sweeper) (postgres ι) i
      (fun h' r s' => (φ → Sees req i h' s') ∧ ∀ b, r = .ok b →
        if b = true then Holds m req i s₀ s' else Free i s₀ s')
      (claimGate m handledAt) h s := by
  have hupdate : Meets (gating sweeper) (postgres ι) i
      (fun h' r s' => (φ → Sees req i h' s') ∧ ∀ a, r = .ok a →
        if a.isSome = true then Holds m req i s₀ s' else Free i s₀ s')
      (Tx.update (S := automation) (ε := Exn) (.claimGate handledAt) m) h s := by
    refine (meets_ask (P := fun s₁ => Free i s₀ s₁ ∧ (φ → Sees req i h s₁)
      ∧ Moves (S := automation) Onward i s₁
        (Db.effect i (.update (.claimGate handledAt) m) s₁)) ?_).mono ?_
    · intro tr s₁ _ hr hI hready has
      obtain ⟨hI', hguar⟩ := gating_step (q := .update (.claimGate handledAt) m) (h := h) hI has
      refine ⟨hI', hguar (by simp), hF.rely hr, fun hφ => (hsees hφ).moves hr.2, ?_⟩
      refine moves_own onward_refl (by simp) hready fun u n' r hq hv hg => ?_
      obtain ⟨rfl, rfl⟩ := Sql.update.inj hq
      exact onward_set (flushes_of_undisturbed has) hv hg
    · rintro _ _ s₂ ⟨s₁, ⟨⟨hidle, hm⟩, hsees₁, hmoves⟩, rfl, rfl, hr⟩
      refine ⟨fun hφ => ((hsees₁ hφ).claimGate hmoves).moves hr.2, fun a hok => ?_⟩
      have hans : s₁.written i (.claimGate handledAt) m = a := Except.ok.inj hok
      cases a with
      | some r' =>
          rw [if_pos Option.isSome_some]
          exact Holds.rely ⟨claimed_of_written hidle (hl.moves hm) hans,
            hm.trans onward_trans hmoves⟩ hr
      | none =>
          rw [if_neg (by simp)]
          have hfree : Free i s₀
              (Db.effect i (.update (.claimGate handledAt) m : Sql automation) s₁) := by
            rw [Db.effect, hans]
            exact ⟨hidle, hm⟩
          exact hfree.rely hr
  rw [claimGate]
  refine hupdate.bind gating_compatible (fun h' a s' hpost => ?_) fun h' e s' hpost => ?_
  · intro _ s'' _ hr _
    refine ⟨fun hφ => (hpost.1 hφ).moves hr.2, fun b hb => ?_⟩
    obtain rfl := Except.ok.inj hb
    have hpost' := hpost.2 a rfl
    split_ifs at hpost' ⊢ with ha
    · exact hpost'.rely hr
    · exact hpost'.rely hr
  · exact ⟨hpost.1, fun b hb => by cases hb⟩

/-- What the choice of the operation says about the row it was read from. -/
lemma gateAction_spec (st : ApprovalStatus) (r : Execution) :
    match gateAction st (some r) with
    | some .retry =>
        st = .approved ∧ (r.status = .failed ∨ r.status = .cancelled ∨ r.status = .timedOut)
    | some .cancel =>
        st ≠ .approved ∧ (r.status = .queued ∨ r.status = .running ∨ r.status = .retrying)
    | none => takesEffect st (some r) = true := by
  rw [gateAction]
  by_cases hst : st = .approved
  · simp only [if_pos hst]
    by_cases hrow : r.status = .failed ∨ r.status = .cancelled ∨ r.status = .timedOut
    · rw [if_pos hrow]
      exact ⟨hst, hrow⟩
    · rw [if_neg hrow]
      push Not at hrow
      simp [takesEffect, hst, hrow]
  · simp only [if_neg hst]
    by_cases hrow : r.status = .queued ∨ r.status = .running ∨ r.status = .retrying
    · rw [if_pos hrow]
      exact ⟨hst, hrow⟩
    · rw [if_neg hrow]
      have hterminal : r.status.isTerminal = true := by
        cases hr : r.status <;> simp [hr, ExecutionStatus.isTerminal] at hrow ⊢
      show takesEffect st (some r) = true
      rw [takesEffect, Option.all_some, if_neg hst]
      exact decide_eq_true (Or.inl hterminal)

/-- The read of the gated execution: the row, or nothing when it is missing or of another
organization. -/
lemma meets_getGated (n : ℕ) (P : Option Execution → Bool) (hF : Free i s₀ s)
    (h : List (Happened ι)) :
    Meets (gating sweeper) (postgres ι) i
      (fun h' r s' => ∃ s₁, Free i s₀ s₁ ∧ Free i s₁ s'
        ∧ r = .ok ((s₁.view i .execution n).filter (·.organizationId = req.organizationId))
        ∧ (P (s₁.view i .execution n) = true →
          (watch (S := automation) (t := Table.execution) P i n h').saw = true))
      (WorkflowExecutionRepository.get none req.organizationId n) h s := by
  have hselect : Meets (gating sweeper) (postgres ι) i
      (fun h' r s' => ∃ s₁, Free i s₀ s₁ ∧ Free i s₁ s' ∧ r = .ok (s₁.view i .execution n)
        ∧ (P (s₁.view i .execution n) = true →
          (watch (S := automation) (t := Table.execution) P i n h').saw = true))
      (Tx.select (S := automation) (ε := Exn) Table.execution n) h s := by
    refine (meets_ask (P := fun s₁ => Free i s₀ s₁) ?_).mono ?_
    · intro tr s₁ _ hr hI _ has
      obtain ⟨hI', hguar⟩ := gating_step (q := .select Table.execution n) (h := h) hI has
      exact ⟨hI', hguar (by simp), hF.rely hr⟩
    · rintro _ _ s₂ ⟨s₁, hF₁, rfl, rfl, hr⟩
      refine ⟨s₁, hF₁, Free.rely ⟨hF₁.1, Moves.refl onward_refl i s₁⟩ hr, rfl, fun hP => ?_⟩
      exact saw_select (S := automation) (t := Table.execution) (Or.inr hP)
  rw [WorkflowExecutionRepository.get]
  refine hselect.bind gating_compatible (fun h' row s' hpost => ?_) fun h' e s' hpost => ?_
  · obtain ⟨s₁, hF₁, hF', hok, hsaw⟩ := hpost
    intro _ s'' _ hr _
    refine ⟨s₁, hF₁, hF'.rely hr, ?_, hsaw⟩
    rw [Except.ok.inj hok]
    cases (s₁.view i .execution n).filter (·.organizationId = req.organizationId) <;> rfl
  · obtain ⟨s₁, -, -, hok, -⟩ := hpost
    cases hok

/-- The operation of a gate and the commit after it, under a claim. -/
lemma meets_takeAction (row : Option Execution) (hn : req.workflowExecutionId = some n)
    (hst : req.status ≠ .pending) (hH : Holds m req i s₀ s)
    (hrow : ∀ r, row = some r → s₀.view i .execution n = some r
      ∧ r.organizationId = req.organizationId)
    (hsees : gateAction req.status row = none → Sees req i h s) :
    Meets (gating sweeper) (postgres ι) i (fun _ r s => ∀ b, r = .ok b → Free i s₀ s)
      (do
        takeAction (gateAction req.status row) row req.organizationId n req.decidedByUserId
        commitWithRetry
        return true : Tx Bool) h s := by
  have hreturn : ∀ (h : List (Happened ι)) (s : Database ι), Free i s₀ s →
      Meets (gating sweeper) (postgres ι) i (fun _ r s => ∀ b, r = .ok b → Free i s₀ s)
        (.ret true : Tx Bool) h s :=
    fun h s hF _ s' _ hr _ _ _ => hF.rely hr
  have hcommit : ∀ (h : List (Happened ι)) (s : Database ι), Free i s₀ s →
      Meets (gating sweeper) (postgres ι) i (fun _ r s => ∀ b, r = .ok b → Free i s₀ s)
        (commitWithRetry.bind fun _ => .ret true : Tx Bool) h s := by
    intro h s hF
    refine (meets_commitFree hF h).bind gating_compatible (fun h _ s hF => hreturn h s hF) ?_
    exact fun h e s _ b hok => by cases hok
  have hstamp : gateAction req.status row = none →
      Meets (gating sweeper) (postgres ι) i (fun _ r s => ∀ b, r = .ok b → Free i s₀ s)
        (commitWithRetry.bind fun _ => .ret true : Tx Bool) h s := by
    intro hnone
    refine (meets_commitStamp hst hH (hsees hnone)).bind gating_compatible
      (fun h _ s hF => hreturn h s hF) ?_
    exact fun h e s _ b hok => by cases hok
  cases row with
  | none => exact hstamp rfl
  | some r =>
      have hspec := gateAction_spec req.status r
      cases hact : gateAction req.status (some r) with
      | none => exact hstamp hact
      | some action =>
          rw [hact] at hspec
          cases action with
          | retry =>
              refine ((meets_gateRetry r hn hspec.1 hspec.2 hH h).bind gating_compatible
                (Q := fun _ r s => ∀ u, r = .ok u → Free i s₀ s)
                (f := fun _ => .ret ()) ?_ ?_).bind gating_compatible ?_ ?_
              · exact fun h _ s hF _ s' _ hr _ _ _ => (hF _ rfl).rely hr
              · exact fun h e s _ u hok => by cases hok
              · exact fun h _ s hF => hcommit h s (hF () rfl)
              · exact fun h e s _ b hok => by cases hok
          | cancel =>
              refine ((meets_gateCancel r req.decidedByUserId hn hspec.1 hst hspec.2
                ⟨r, hrow r rfl⟩ hH h).bind gating_compatible
                (Q := fun _ r s => ∀ u, r = .ok u → Free i s₀ s)
                (f := fun _ => .ret ()) ?_ ?_).bind gating_compatible ?_ ?_
              · exact fun h _ s hF _ s' _ hr _ _ _ => (hF _ rfl).rely hr
              · exact fun h e s _ u hok => by cases hok
              · exact fun h _ s hF => hcommit h s (hF () rfl)
              · exact fun h e s _ b hok => by cases hok

/-- One gate of the sweep. -/
lemma meets_processGate (hst : req.status ≠ .pending) (hidle : Idle i s) (hl : Listed m req i s)
    (h : List (Happened ι)) :
    Meets (gating sweeper) (postgres ι) i (fun _ r s' => ∀ b, r = .ok b → Free i s s')
      (processGate m req) h s := by
  have hF : Free i s s := ⟨hidle, Moves.refl onward_refl i s⟩
  have hreturn : ∀ (b : Bool) (h : List (Happened ι)) (s' : Database ι), Free i s s' →
      Meets (gating sweeper) (postgres ι) i (fun _ r s' => ∀ b, r = .ok b → Free i s s')
        (.ret b : Tx Bool) h s' :=
    fun b h s' hF _ s'' _ hr _ _ _ => hF.rely hr
  rw [processGate]
  cases hn : req.workflowExecutionId with
  | none =>
      have hvacuous : ∀ h s, Sees req i h s := fun h s n hn' => by
        rw [hn] at hn'
        cases hn'
      refine (meets_reads (J := fun _ s' => Free i s s') reads_utcnow
        (fun _ _ _ hF hr => hF.rely hr) (fun _ _ _ hq hF => hF.reads hq) hF).bind
          gating_compatible (fun h handledAt s' hF => ?_) fun h e s' _ b hok => by cases hok
      refine (meets_claimGate (φ := True) handledAt hF hl fun _ => hvacuous h s').bind
        gating_compatible (fun h claimed s' hpost => ?_) fun h e s' _ b hok => by cases hok
      have hclaimed := hpost.2 claimed rfl
      cases claimed with
      | true =>
          rw [if_pos rfl] at hclaimed
          refine (meets_commitStamp hst hclaimed (hvacuous h s')).bind gating_compatible
            (fun h _ s' hF => ?_) fun h e s' _ b hok => by cases hok
          exact hreturn true h s' hF
      | false =>
          rw [if_neg (by simp)] at hclaimed
          exact hreturn false h s' hclaimed
  | some n =>
      refine (meets_getGated n (takesEffect req.status) hF h).bind gating_compatible
        (fun h row s' hpost => ?_) fun h e s' _ b hok => by cases hok
      obtain ⟨s₁, hF₁, hF', hok, hsaw⟩ := hpost
      have hrow : row = (s₁.view i .execution n).filter (·.organizationId = req.organizationId) :=
        Except.ok.inj hok
      have hread : ∀ r, row = some r → s₁.view i .execution n = some r
          ∧ r.organizationId = req.organizationId := by
        intro r hr
        rw [hrow] at hr
        obtain ⟨hv, horg⟩ := Option.filter_eq_some_iff.mp hr
        exact ⟨hv, of_decide_eq_true horg⟩
      have hsees : gateAction req.status row = none → Sees req i h s' := by
        intro hnone n' hn'
        obtain rfl := Option.some.inj (hn.symm.trans hn')
        cases hv : s₁.view i .execution n with
        | none => exact Or.inl (hsaw (by rw [hv]; rfl))
        | some r =>
            by_cases horg : r.organizationId = req.organizationId
            · have hsome : row = some r := by
                rw [hrow, hv]
                exact Option.filter_eq_some_iff.mpr ⟨rfl, decide_eq_true horg⟩
              have hspec := gateAction_spec req.status r
              rw [← hsome, hnone] at hspec
              exact Or.inl (hsaw (by rw [hv, ← hsome]; exact hspec))
            · obtain ⟨r', hr', honward⟩ := hF'.2 .execution n r hv
              have hsame : r'.organizationId = r.organizationId := honward
              exact Or.inr ⟨r', hr', hsame ▸ horg⟩
      refine (meets_reads (J := fun h s' => Free i s₁ s'
        ∧ (gateAction req.status row = none → Sees req i h s')) reads_utcnow
          (fun _ _ _ hJ hr => ⟨hJ.1.rely hr, fun hnone => (hJ.2 hnone).moves hr.2⟩)
          (fun _ _ _ hq hJ => ⟨hJ.1.reads hq, fun hnone => (hJ.2 hnone).reads hq⟩)
          ⟨hF', hsees⟩).bind gating_compatible
            (fun h handledAt s' hpost => ?_) fun h e s' _ b hok => by cases hok
      refine (meets_claimGate handledAt hpost.1 (hl.moves hF₁.2) hpost.2).bind gating_compatible
        (fun h claimed s' hpost => ?_) fun h e s' _ b hok => by cases hok
      have hclaimed := hpost.2 claimed rfl
      have hjoin : ∀ s', Free i s₁ s' → Free i s s' :=
        fun s' hF' => ⟨hF'.1, hF₁.2.trans onward_trans hF'.2⟩
      cases claimed with
      | true =>
          rw [if_pos rfl] at hclaimed
          rw [if_pos rfl]
          have hbody : Meets (gating sweeper) (postgres ι) i _ _ h s' :=
            meets_takeAction row hn hst hclaimed hread hpost.1
          refine hbody.tryCatch gating_compatible (fun h b s' hF b' hb' => ?_) fun h e s' _ => ?_
          · exact hjoin s' (hF b rfl)
          · have hrollback : ∀ e : Exn, Meets (gating sweeper) (postgres ι) i
                (fun _ r s' => ∀ b, r = .ok b → Free i s s')
                (Tx.rollback.bind fun _ => .raise e : Tx Bool) h s' := by
              intro e
              have hroll : (Tx.rollback : Tx Unit).Issues fun q : Sql automation => q ≠ .commit :=
                ⟨by simp, fun _ => trivial⟩
              exact (meets_uncommitted hroll h s').bind gating_compatible
                (fun _ _ _ _ => fun _ _ _ _ _ _ hok => by cases hok)
                fun _ _ _ _ _ hok => by cases hok
            cases e with
            | app e rolledBack =>
                cases rolledBack with
                | true => exact fun _ _ _ _ _ _ hok => by cases hok
                | false => exact hrollback _
            | missingGreenlet => exact hrollback _
            | other name => exact hrollback _
      | false =>
          rw [if_neg (by simp)] at hclaimed ⊢
          exact hreturn false h s' (hjoin s' hclaimed)

/-! ### The sweep -/

/-- The gates that the sweep lists are decided. -/
lemma meets_listUnhandledGates (limit : ℕ) (hF : Free i s₀ s) (h : List (Happened ι)) :
    Meets (gating sweeper) (postgres ι) i
      (fun _ r s' => Free i s₀ s' ∧ ∀ rows, r = .ok rows →
        ∀ row ∈ rows, row.2.status ≠ .pending ∧ Listed row.1 row.2 i s')
      (listUnhandledGates limit) h s := by
  have hscan : Meets (gating sweeper) (postgres ι) i
      (fun _ r s' => Free i s₀ s' ∧ ∀ rows, r = .ok rows →
        ∀ row ∈ rows, row.2.status ≠ .pending ∧ Listed row.1 row.2 i s')
      (Tx.scan (S := automation) (ε := Exn) .listUnhandledGates) h s := by
    refine (meets_ask (P := fun s₁ => Free i s₀ s₁) ?_).mono ?_
    · intro tr s₁ _ hr hI _ has
      obtain ⟨hI', hguar⟩ := gating_step (q := .scan .listUnhandledGates) (h := h) hI has
      exact ⟨hI', hguar (by simp), hF.rely hr⟩
    · rintro _ _ s₂ ⟨s₁, hF₁, rfl, rfl, hr⟩
      refine ⟨hF₁.rely hr, fun rows hok row hrow => ?_⟩
      have hrows : s₁.rows i (S := automation) .listUnhandledGates = rows := Except.ok.inj hok
      obtain ⟨m, req⟩ := row
      rw [← hrows] at hrow
      obtain ⟨hv, hmatch⟩ := Db.mem_rows.mp hrow
      have hlisted : Listed m req i s₁ := ⟨req, hv, onward_refl .approvalRequest req⟩
      refine ⟨fun hpending => ?_, hlisted.moves hr.2⟩
      have hgate : req.isUnhandledGate = true := hmatch
      have hpending' : req.status = .pending := hpending
      simp [ApprovalRequest.isUnhandledGate, hpending'] at hgate
  rw [listUnhandledGates]
  refine hscan.bind gating_compatible (fun h' rows s' hpost => ?_) fun h' e s' hpost => ?_
  · intro _ s'' _ hr _
    refine ⟨hpost.1.rely hr, fun rows' hok row hrow => ?_⟩
    obtain rfl := Except.ok.inj hok
    obtain ⟨hst, hl⟩ := hpost.2 rows rfl row (mem_orderBy.mp (List.mem_of_mem_take hrow))
    exact ⟨hst, hl.moves hr.2⟩
  · exact ⟨hpost.1, fun rows hok => by cases hok⟩

/-- The gate sweep keeps the contract. -/
lemma meets_sweep (limit : ℕ) (hidle : Idle i s) (h : List (Happened ι)) :
    Meets (gating sweeper) (postgres ι) i (fun _ _ _ => True) (client (sweep limit)) h s := by
  have hF : Free i s s := ⟨hidle, Moves.refl onward_refl i s⟩
  have hbody : Meets (gating sweeper) (postgres ι) i (fun _ _ _ => True) (sweep limit) h s := by
    rw [sweep]
    refine (meets_listUnhandledGates limit hF h).bind gating_compatible
      (fun h rows s' hpost => ?_) fun _ _ _ _ => trivial
    refine Meets.tally gating_compatible
      (J := fun rows _ s => Idle i s ∧ ∀ row ∈ rows, row.2.status ≠ .pending
        ∧ Listed row.1 row.2 i s) ?_ ?_ (fun _ _ _ _ => trivial) rows
      ⟨hpost.1.1, hpost.2 rows rfl⟩
    · intro rows h s s' hJ hr
      exact ⟨hJ.1.frame hr.1, fun row hrow => ⟨(hJ.2 row hrow).1, (hJ.2 row hrow).2.moves hr.2⟩⟩
    · intro row rows h s hJ
      obtain ⟨hst, hl⟩ := hJ.2 row (List.mem_cons_self ..)
      refine (meets_processGate hst hJ.1 hl h).bind gating_compatible
        (fun h b s' hF => ?_) fun _ _ _ _ => trivial
      intro _ s'' _ hr _
      have hF' : Free i s s'' := (hF b rfl).rely hr
      refine ⟨hF'.1, fun row' hrow' => ?_⟩
      obtain ⟨hst', hl'⟩ := hJ.2 row' (List.mem_cons_of_mem _ hrow')
      exact ⟨hst', hl'.moves hF'.2⟩
  have hsession : Meets (gating sweeper) (postgres ι) i (fun _ _ _ => True)
      (Txn.Tx.withSession (sweep limit)) h s := by
    refine hbody.withSession gating_compatible ?_
    intro h r s₁ tr s₂ _ _ _ hI has
    obtain ⟨hI', hguar⟩ := gating_step (q := .rollback) (h := h) hI has
    exact ⟨hI', hguar (by simp), fun _ _ => trivial⟩
  exact hsession.bind gating_compatible (fun _ _ _ _ _ _ _ _ _ => trivial) fun _ _ _ _ => trivial

end Operation

/-! ### Handled gates -/

/-- The sessions of a run: some run the gate sweep, the others mark no gate. -/
def SweepOrLeave (sweeper : ι → Prop) (procs : ι → Tx Unit) : Prop :=
  ∀ i, (sweeper i ∧ ∃ limit, procs i = client (ApprovalGateService.sweep limit))
    ∨ (¬ sweeper i ∧ (procs i).Issues NoClaim)

/-- **Handled gates.**  Some sessions sweep gates, the others do anything but mark a gate.  Along
every undisturbed run from a database without open transactions: when a gate is marked handled,
its decision has taken effect on the execution; a gate is marked at most once; and a sweep commits
a change of an execution only together with the mark of a gate on it, so no decision is applied
twice. -/
theorem gates_handled {procs : ι → Tx Unit} (hs : s.Settled) (hp : SweepOrLeave sweeper procs)
    {c : Sessions ι Unit} (hc : Pool.Reach (postgres ι) (.start procs s) c)
    (hcalm : Along (fun past ev => Undisturbed past ev = true) c.trace) :
    (∀ ev ∈ c.trace, ∀ m, stamps m ev = true → applied m ev.after = true)
      ∧ (∀ m, stamped m s = false →
          (Pool.flips (fun s => stamped m s = true) c.trace).length ≤ 1)
      ∧ ∀ ev ∈ c.trace, sweeper ev.pid → ev.stmt = .commit →
          ∀ n r, ev.before.dirty .execution n = some (ev.pid, r) → Handles n ev := by
  have hidle : ∀ i, Idle i s := by
    intro i
    constructor
    · intro m r hd
      rw [hs] at hd
      cases hd
    · intro n r hd
      rw [hs] at hd
      cases hd
  have hI : (gating sweeper).inv [] s := ⟨hs.ahead _, fun t P i n hsaw => by cases hsaw⟩
  have hmeets : ∀ i, Meets (gating sweeper) (postgres ι) i (fun _ _ _ => True) (procs i) [] s := by
    intro i
    rcases hp i with ⟨-, limit, hi⟩ | ⟨hi, hissues⟩
    · rw [hi]
      exact meets_sweep limit (hidle i) []
    · refine meets_noClaim hi hissues (fun m r hd => ?_) []
      exact absurd hd ((hidle i).requests m r)
  obtain ⟨-, hguar, -⟩ := hc.meets gating_compatible hI hmeets hcalm
  have hguar := along_iff_forall_mem.mp hguar
  refine ⟨fun ev hev => (hguar ev hev).1, fun m hm => ?_, fun ev hev => (hguar ev hev).2.2⟩
  have hflips := hc.flips (P := fun s => stamped m s = true) (by simp [hm])
    fun ev hev => (hguar ev hev).2.1 m
  rw [hflips]
  split_ifs <;> omega

/-! ### An overtaken gate -/

/-- A denied request that gates execution 0. -/
def deniedGate : ApprovalRequest :=
  { openRequest with
    workflowExecutionId := some 0
    status := .denied
    decidedByUserId := some 8
    decidedAt := some 0 }

/-- A database that holds the denied request and its execution. -/
def gateDatabase (execution : Execution) : Database ι :=
  Db.init (fun t n => match t, n with
    | .approvalRequest, 0 => some deniedGate
    | .execution, 0 => some execution
    | _, _ => none) 1 (.still 0) fun t n hn => by
      match n with
      | 0 => omega
      | n + 1 => cases t <;> rfl

/-- One gate sweep. -/
def sweepAlone : Fin 1 → Tx Unit := fun _ => client (ApprovalGateService.sweep 50)

/-- The sweep cancels a queued execution whose gate was denied. -/
theorem gates_handled_denied :
    ∃ c : Sessions (Fin 1) Unit,
      Pool.Reach (postgres (Fin 1)) (.start sweepAlone (gateDatabase smallExecution)) c
        ∧ c.returned 0 = true ∧ stamped 0 c.store = true
        ∧ ∀ ev ∈ c.trace, ∀ m, stamps m ev = true → applied m ev.after = true := by
  have hrun : (((Pool.start sweepAlone (gateDatabase smallExecution)).run (postgres (Fin 1))
      (List.replicate 10 (.step 0))).any fun c =>
        c.returned 0 && stamped 0 c.store
          && decide (Along (fun past ev => Undisturbed past ev = true) c.trace)) = true := by
    decide +kernel
  obtain ⟨c, hc, hP⟩ := Pool.exists_of_run hrun
  simp only [Bool.and_eq_true, decide_eq_true_eq] at hP
  obtain ⟨⟨hret, hstamped⟩, hcalm⟩ := hP
  have hs : (gateDatabase smallExecution : Database (Fin 1)).Settled := Db.settled_init _ _ _ _
  have hp : SweepOrLeave (fun _ => True) sweepAlone := fun _ => Or.inl ⟨trivial, 50, rfl⟩
  exact ⟨c, hc, hret, hstamped, (gates_handled hs hp hc hcalm).1⟩

/-- The gate sweep, and an operator who retries the execution by hand. -/
def sweepAndRetry : Fin 2 → Tx Unit
  | 0 => client (ApprovalGateService.sweep 50)
  | 1 => client (WorkflowExecutionService.retry none 1 0)

/-- The sweep reads the execution failed and finds nothing to do; the retry commits; then the
denied gate is marked handled, and the execution is queued without a cancel flag. -/
theorem gate_overtaken :
    ∃ c : Sessions (Fin 2) Unit,
      Pool.Reach (postgres (Fin 2))
          (.start sweepAndRetry (gateDatabase { smallExecution with status := .failed })) c
        ∧ (∃ ev ∈ c.trace, stamps 0 ev = true ∧ applied 0 ev.after = false)
        ∧ (c.store.committed .execution 0).any
            (fun r => r.status = .queued && r.cancelRequestedAt.isNone) = true := by
  have hrun : (((Pool.start sweepAndRetry
      (gateDatabase { smallExecution with status := .failed })).run (postgres (Fin 2))
        (List.replicate 2 (.step 0) ++ List.replicate 5 (.step 1)
          ++ List.replicate 3 (.step 0))).any fun c =>
            (c.trace.any fun ev => stamps 0 ev && !applied 0 ev.after)
              && (c.store.committed .execution 0).any
                (fun r => r.status = .queued && r.cancelRequestedAt.isNone)) = true := by
    decide +kernel
  obtain ⟨c, hc, hP⟩ := Pool.exists_of_run hrun
  simp only [Bool.and_eq_true, List.any_eq_true, Bool.not_eq_true'] at hP
  obtain ⟨⟨ev, hev, hstamps, happlied⟩, hqueued⟩ := hP
  exact ⟨c, hc, ⟨ev, hev, hstamps, happlied⟩, hqueued⟩

end Automation
