import AgencyOS.Agents.AgentService

/-!
Agent runs move along the transition table.

A guarded `UPDATE` moves a row along the table; every operation commits or rolls back before it
issues another one, so what a commit changes is one move.

* `Unmoved`: the session has moved no run that it has not committed;
* `refining`: the contract: uncommitted versions are one declared move ahead of the committed ones,
  and flags stand in their place;
* `Tidy`: an operation that returns, or raises an `AppError`, leaves nothing moved;
* `run_refines_table` (**the machine is refined**): along every run, commits move along the table,
  terminal statuses are final and reached at most once, and a flagged run never ends SUCCEEDED or
  FAILED.
-/

namespace Agents

open Txn Automation

variable {ι : Type} [DecidableEq ι] {s s' : Database ι} {i : ι} {q : Sql runtime} {n : ℕ}

/-! ### Moves and commits -/

/-- The declared moves, table by table. -/
def Moved : (t : Table) → Row t → Row t → Prop
  | .agentRun => Declared

lemma moved_refl : ∀ (t : Table) (r : Row t), Moved t r r
  | .agentRun, r => Declared.refl r

/-- A property of the row of run `n`. -/
def OfRun (n : ℕ) (P : AgentRun → Prop) : (t : Table) → ℕ → Row t → Prop
  | .agentRun, m, r => m = n → P r

/-- The session has moved no run that it has not committed. -/
def Unmoved (i : ι) (s : Database ι) : Prop :=
  ∀ m r rc, s.dirty .agentRun m = some (i, r) → s.committed .agentRun m = some rc →
    r.status = rc.status

/-- The statements that leave statuses alone. -/
def Steady : Sql runtime → Prop
  | .update (.transition t) _ => t.isFlag = true
  | _ => True

/-- A run is moved only by a session that has moved nothing yet. -/
def Disciplined (i : ι) (s : Database ι) (q : Sql runtime) : Prop := Steady q ∨ Unmoved i s

/-- A session that has moved nothing sees the committed status. -/
lemma Unmoved.view (hJ : Unmoved i s) {m : ℕ} {r rc : AgentRun}
    (hv : s.view i .agentRun m = some r) (hc : s.committed .agentRun m = some rc) :
    r.status = rc.status := by
  rcases s.view_cases i .agentRun m with ⟨r', hd, hv'⟩ | ⟨-, hv'⟩
  · obtain rfl := Option.some.inj (hv.symm.trans hv')
    exact hJ m r rc hd hc
  · rw [Option.some.inj (hv.symm.trans (hv'.trans hc))]

lemma steady_set {u : Update} {r : AgentRun} (hq : Steady (.update u n))
    (hg : u.act.guard r = true) : (u.act.set r).status = r.status := by
  cases u with
  | transition t =>
      obtain ⟨hst, -⟩ := Transition.set_spec hg
      rwa [if_pos (show t.isFlag = true from hq)] at hst
  | flush m => rfl

/-- **Uncommitted versions stay one move ahead** under every disciplined statement. -/
lemma moved_effect (h : Ahead (S := runtime) Moved s) (hq : Disciplined i s q) :
    Ahead (S := runtime) Moved (Db.effect i q s) := by
  refine h.effect moved_refl ?_
  intro u m r hu hv hg rc hc hrc
  subst hu
  have hdeclared : Declared rc r := hrc
  cases u with
  | flush metadata => exact ⟨hdeclared.status, hdeclared.flag⟩
  | transition t =>
      refine hdeclared.set hg fun ht => ?_
      rcases hq with hsteady | hJ
      · rw [show t.isFlag = true from hsteady] at ht
        cases ht
      · exact hJ.view hv hc

/-- Every statement keeps the flags in their place. -/
lemma keeps_wellFlagged (q : Sql runtime) :
    Sql.Keeps (S := runtime) (OfRun n AgentRun.WellFlagged) q := by
  cases q with
  | update u m =>
      intro r hr hg hm
      have hflag : r.WellFlagged := hr hm
      cases u with
      | transition t => exact (Transition.set_spec hg).2.2 hflag
      | flush metadata => exact hflag
  | insert d => exact fun m _ => wellFlagged_row d
  | _ => trivial

lemma Unmoved.frame (hJ : Unmoved i s) (h : Frame i s s') : Unmoved i s' := by
  intro m r rc hd hc
  have hd₀ : s.dirty .agentRun m = some (i, r) := (h.dirty _ _ _).mp hd
  exact hJ m r rc hd₀ ((h.committed _ _ _ hd₀).symm.trans hc)

lemma Unmoved.effect (hJ : Unmoved i s) (hq : Steady q) : Unmoved i (Db.effect i q s) := by
  intro m r rc hd hc
  rcases Db.dirty_effect_cases hd with
    ⟨hold, hj⟩ | ⟨-, ⟨u, r₀, rfl, hv, hg, heq⟩ | ⟨d, rfl, rfl, heq⟩⟩
  · rcases Db.committed_effect_cases i q s .agentRun m with hsame | ⟨hcommit, -⟩
    · exact hJ m r rc hold (hsame ▸ hc)
    · exact absurd rfl (hj (Or.inl hcommit))
  · cases heq
    rw [Db.committed_effect (by simp)] at hc
    rw [show ((runtime.act u).set r₀).status = r₀.status from steady_set hq hg]
    exact hJ.view hv hc
  · rw [Db.committed_effect (by simp), (s.alloc _ s.fresh le_rfl).1] at hc
    cases hc

/-- A session that ends its transaction has moved nothing. -/
lemma unmoved_release (hq : q = .commit ∨ q = .rollback) : Unmoved i (Db.effect i q s) := by
  intro m r rc hd
  rcases Db.dirty_effect_cases hd with ⟨-, hj⟩ | ⟨-, ⟨u, r₀, hu, -⟩ | ⟨d, hd', -⟩⟩
  · exact absurd rfl (hj hq)
  · rcases hq with rfl | rfl <;> cases hu
  · rcases hq with rfl | rfl <;> cases hd'

/-! ### The contract -/

/-- What a statement may commit of run `n`. -/
def Refines (n : ℕ) (s s' : Database ι) : Prop :=
  ∀ r, s.committed .agentRun n = some r →
    ∃ r', s'.committed .agentRun n = some r' ∧ Declared r r'

/-- What every session may count on about run `n`. -/
def refining (n : ℕ) : Contract (sql runtime) ι (Database ι) where
  inv := fun _ s => Ahead (S := runtime) Moved s
    ∧ Rows (S := runtime) (OfRun n AgentRun.WellFlagged) s
  assume := fun _ _ => True
  guar := fun _ _ ev => Refines n ev.before ev.after
    ∧ Rows (S := runtime) (OfRun n AgentRun.WellFlagged) ev.after
  rely := fun i _ s s' => Frame i s s'

/-- A disciplined statement keeps the contract. -/
lemma refining_step {tr tr' : List (Happened ι)} (hI : (refining n).inv tr s)
    (hq : Disciplined i s q) :
    (refining n).inv tr' (Db.effect i q s) ∧ Refines n s (Db.effect i q s)
      ∧ Rows (S := runtime) (OfRun n AgentRun.WellFlagged) (Db.effect i q s) := by
  have hrows : Rows (S := runtime) (OfRun n AgentRun.WellFlagged) (Db.effect i q s) :=
    hI.2.effect (keeps_wellFlagged q)
  exact ⟨⟨moved_effect hI.1 hq, hrows⟩, fun r hr => hI.1.committed moved_refl i q hr, hrows⟩

lemma refining_compatible : (refining n).Compatible (postgres ι) where
  refl := fun i _ s => Frame.refl i s
  trans := fun _ _ _ _ _ h₁ h₂ => h₁.trans h₂
  step := fun _ ev j hj _ _ _ hafter _ => by
    rw [hafter]
    exact frame_effect (Ne.symm hj) ev.stmt ev.before
  hangup := fun _ _ _ hI _ _ => refining_step (q := .rollback) hI (Or.inl trivial)

/-- A program that leaves statuses alone. -/
lemma meets_steady {α : Type} {p : Tx α} (hp : p.Issues Steady) (hJ : Unmoved i s)
    (h : List (Happened ι)) :
    Meets (refining n) (postgres ι) i (fun _ _ s => Unmoved i s) p h s := by
  refine meets_of_issues (J := fun _ s => Unmoved i s) hp (fun _ _ _ hJ hr => hJ.frame hr) ?_ hJ
  intro tr q h s _ hq hI hJ _ _
  obtain ⟨hI', hguar⟩ := refining_step (n := n) hI (Or.inl hq)
  exact ⟨hI', hguar, hJ.effect hq⟩

/-- A statement that leaves statuses alone, whatever has been moved before. -/
lemma meets_call {α : Type} {q : Sql runtime} {k : Sql.Resp q → Tx α}
    {Q : Post (sql runtime) ι (Database ι) Exn α} (hq : Steady q)
    (hk : ∀ h a s, Meets (refining n) (postgres ι) i Q (k a) h s) (h : List (Happened ι)) :
    Meets (refining n) (postgres ι) i Q (.call q k) h s := by
  intro tr s₁ _ _ hI _ _
  obtain ⟨hI', hguar⟩ := refining_step (n := n) hI (Or.inl hq)
  exact ⟨hI', hguar, hk _ _ _⟩

/-- The end of a transaction. -/
lemma meets_release {α : Type} {q : Sql runtime} {k : Sql.Resp q → Tx α}
    {Q : Post (sql runtime) ι (Database ι) Exn α} (hq : q = .commit ∨ q = .rollback)
    (hk : ∀ h a s, Unmoved i s → Meets (refining n) (postgres ι) i Q (k a) h s)
    (h : List (Happened ι)) : Meets (refining n) (postgres ι) i Q (.call q k) h s := by
  intro tr s₁ _ _ hI _ _
  have hsteady : Steady q := by rcases hq with rfl | rfl <;> trivial
  obtain ⟨hI', hguar⟩ := refining_step (n := n) hI (Or.inl hsteady)
  exact ⟨hI', hguar, hk _ _ _ (unmoved_release hq)⟩

/-- A guarded `UPDATE` that matches nothing has moved nothing. -/
lemma meets_transition (m : ℕ) (t : Transition) (hJ : Unmoved i s) (h : List (Happened ι)) :
    Meets (refining n) (postgres ι) i (fun _ r s => (∃ row, r = .ok row)
      ∧ (r = .ok none → Unmoved i s)) (AgentRunRepository.transition m t) h s := by
  refine (meets_ask (P := fun s₁ => Unmoved i s₁) ?_).mono ?_
  · intro tr s₁ _ hr hI _ _
    have hJ₁ : Unmoved i s₁ := hJ.frame hr
    obtain ⟨hI', hguar⟩ :=
      refining_step (n := n) (q := .update (.transition t) m) hI (Or.inr hJ₁)
    exact ⟨hI', hguar, hJ₁⟩
  · rintro _ _ s₂ ⟨s₁, hJ₁, -, rfl, hframe⟩
    refine ⟨⟨_, rfl⟩, fun hnone => ?_⟩
    have hw : s₁.written i (.transition t) m = none := Except.ok.inj hnone
    have hsame : Db.effect i (.update (Update.transition t) m) s₁ = s₁ := by rw [Db.effect, hw]
    have hframe' : Frame i (Db.effect i (.update (Update.transition t) m) s₁) s₂ := hframe
    rw [hsame] at hframe'
    exact hJ₁.frame hframe'

/-- Statements that leave statuses alone, and then more. -/
lemma meets_steady_bind {α β : Type} {p : Tx β} {f : β → Tx α}
    {Q : Post (sql runtime) ι (Database ι) Exn α} (hp : p.Issues Steady)
    (hf : ∀ h b s, Unmoved i s → Meets (refining n) (postgres ι) i Q (f b) h s)
    (herr : ∀ h e s, Unmoved i s → Q h (.error e) s) (hJ : Unmoved i s) (h : List (Happened ι)) :
    Meets (refining n) (postgres ι) i Q (p.bind f) h s :=
  (meets_steady hp hJ h).bind refining_compatible (fun h b s hJ => hf h b s hJ)
    fun h e s hJ => herr h e s hJ

/-! ### The operations -/

section Operations

open AgentRunRepository AgentService AgentRuntime AgentWorker

/-- An operation that returns, or raises an `AppError`, leaves nothing moved. -/
def Tidy {α : Type} (i : ι) : Post (sql runtime) ι (Database ι) Exn α := fun _ r s =>
  match r with
  | .ok _ => Unmoved i s
  | .error (.app _ _) => Unmoved i s
  | .error _ => True

omit [DecidableEq ι] in
lemma tidy_of_unmoved {α : Type} {h : List (Happened ι)} {r : Except Exn α} (hJ : Unmoved i s) :
    Tidy i h r s := by
  cases r with
  | ok a => exact hJ
  | error e => cases e <;> first | exact hJ | trivial

/-- A finished operation that has moved nothing is tidy. -/
lemma meets_tidy_ret {α : Type} (a : α) (hJ : Unmoved i s) (h : List (Happened ι)) :
    Meets (refining n) (postgres ι) i (Tidy i) (.ret a : Tx α) h s :=
  fun _ _ _ hr _ => hJ.frame hr

lemma meets_tidy_raise {α : Type} (e : Exn) (hJ : Unmoved i s) (h : List (Happened ι)) :
    Meets (refining n) (postgres ι) i (Tidy i) (.raise e : Tx α) h s :=
  fun _ _ _ hr _ => tidy_of_unmoved (hJ.frame hr)

lemma meets_rollbackAndRaise {α : Type} (code message : String) (statusCode : ℕ)
    (h : List (Happened ι)) :
    Meets (refining n) (postgres ι) i (Tidy i) (rollbackAndRaise code message statusCode : Tx α)
      h s :=
  meets_release (Or.inr rfl) (fun h _ _ hJ => meets_tidy_raise _ hJ h) h

/-- The duration and the commit, whatever has been moved. -/
lemma meets_finalizeAndCommit (elapsedMs : Stopwatch) (m : ℕ) (run : AgentRun) (finishedAt : Time)
    (h : List (Happened ι)) :
    Meets (refining n) (postgres ι) i (Tidy i) (finalizeAndCommit elapsedMs m run finishedAt) h s := by
  rw [finalizeAndCommit]
  split
  · exact meets_release (Or.inl rfl) (fun h _ _ hJ => meets_tidy_ret _ hJ h) h
  · split_ifs
    · exact fun _ _ _ _ _ => trivial
    · refine meets_call (q := .update (.flush _) m) trivial (fun h _ s => ?_) h
      exact meets_release (Or.inl rfl) (fun h _ _ hJ => meets_tidy_ret _ hJ h) h

/-- The end of an operation, whatever has been moved. -/
lemma meets_land (elapsedMs : Stopwatch) (m : ℕ) (finishedAt : Time) (updated : Option AgentRun)
    (h : List (Happened ι)) :
    Meets (refining n) (postgres ι) i (Tidy i) (land elapsedMs m finishedAt updated) h s := by
  cases updated with
  | none => exact meets_rollbackAndRaise _ _ _ h
  | some updated => exact meets_finalizeAndCommit elapsedMs m updated finishedAt h

/-- The fallback of the operations that honour a cancel. -/
lemma meets_orCancelled (org m : ℕ) (finishedAt : Time) (updated : Option AgentRun)
    (hJ : updated = none → Unmoved i s) (h : List (Happened ι)) :
    Meets (refining n) (postgres ι) i (fun _ r _ => ∃ row, r = .ok row)
      (orCancelled org m finishedAt updated) h s := by
  cases updated with
  | none => exact (meets_transition m _ (hJ rfl) h).mono fun _ _ _ hQ => hQ.1
  | some updated => exact fun _ _ _ _ _ => ⟨_, rfl⟩

lemma steady_getOr404 (loaded : Option AgentRun) (org m : ℕ) :
    (getOr404 loaded org m).Issues Steady := by
  refine Prog.issues_bind ⟨trivial, fun _ => trivial⟩ fun row => ?_
  dsimp only
  split <;> trivial

lemma steady_assertTransition (fromStatus toStatus : AgentRunStatus) :
    (assertTransition fromStatus toStatus).Issues Steady := by
  rw [assertTransition]
  split_ifs <;> trivial

lemma steady_now : (Tx.now : Tx Time).Issues Steady := ⟨trivial, fun _ => trivial⟩

/-- An operation reads, checks and takes the time before it moves anything. -/
lemma meets_checked {α : Type} {loaded : Option AgentRun} {org m : ℕ} {toStatus : AgentRunStatus}
    {f : AgentRun → Time → Tx α}
    (hf : ∀ run now h s, Unmoved i s → Meets (refining n) (postgres ι) i (Tidy i) (f run now) h s)
    (hJ : Unmoved i s) (h : List (Happened ι)) :
    Meets (refining n) (postgres ι) i (Tidy i)
      ((getOr404 loaded org m).bind fun run => (assertTransition run.status toStatus).bind fun _ =>
        Tx.now.bind fun now => f run now) h s := by
  have herr : ∀ h e s, Unmoved i s → Tidy i h (.error e : Except Exn α) s :=
    fun _ _ _ hJ => tidy_of_unmoved hJ
  refine meets_steady_bind (steady_getOr404 loaded org m) (fun h run s hJ => ?_) herr hJ h
  refine meets_steady_bind (steady_assertTransition _ _) (fun h _ s hJ => ?_) herr hJ h
  exact meets_steady_bind steady_now (fun h now s hJ => hf run now h s hJ) herr hJ h

/-- One guarded `UPDATE`, and the landing. -/
lemma meets_transitionLand (elapsedMs : Stopwatch) (m : ℕ) (t : Transition) (finishedAt : Time)
    (hJ : Unmoved i s) (h : List (Happened ι)) :
    Meets (refining n) (postgres ι) i (Tidy i)
      ((transition m t).bind fun updated => land elapsedMs m finishedAt updated) h s := by
  refine (meets_transition m t hJ h).bind refining_compatible
    (fun h updated s _ => meets_land elapsedMs m finishedAt updated h) fun h e s hQ => ?_
  obtain ⟨⟨row, hrow⟩, -⟩ := hQ
  cases hrow

/-- A guarded `UPDATE`, the fallback to `mark_cancelled_after_run`, and the landing. -/
lemma meets_transitionOrCancelled (elapsedMs : Stopwatch) (org m : ℕ) (t : Transition)
    (finishedAt : Time) (hJ : Unmoved i s) (h : List (Happened ι)) :
    Meets (refining n) (postgres ι) i (Tidy i)
      ((transition m t).bind fun updated => (orCancelled org m finishedAt updated).bind
        fun updated => land elapsedMs m finishedAt updated) h s := by
  refine (meets_transition m t hJ h).bind refining_compatible (fun h updated s hQ => ?_)
    fun h e s hQ => ?_
  · have hnone : updated = none → Unmoved i s := fun hnone => hQ.2 (by rw [hnone])
    refine (meets_orCancelled org m finishedAt updated hnone h).bind refining_compatible
      (fun h updated s _ => meets_land elapsedMs m finishedAt updated h) fun h e s hQ => ?_
    obtain ⟨row, hrow⟩ := hQ
    cases hrow
  · obtain ⟨⟨row, hrow⟩, -⟩ := hQ
    cases hrow

variable (elapsedMs : Stopwatch) (loaded : Option AgentRun) (org m : ℕ)

lemma meets_startRun (hJ : Unmoved i s) (h : List (Happened ι)) :
    Meets (refining n) (postgres ι) i (Tidy i) (startRun loaded org m) h s := by
  have herr : ∀ h e s, Unmoved i s → Tidy i h (.error e : Except Exn AgentRun) s :=
    fun _ _ _ hJ => tidy_of_unmoved hJ
  refine meets_steady_bind steady_now (fun h now s hJ => ?_) herr hJ h
  refine meets_steady_bind (steady_getOr404 loaded org m) (fun h run s hJ => ?_) herr hJ h
  refine meets_steady_bind (steady_assertTransition _ _) (fun h _ s hJ => ?_) herr hJ h
  refine (meets_transition m _ hJ h).bind refining_compatible (fun h updated s _ => ?_)
    fun h e s hQ => ?_
  · cases updated with
    | none => exact meets_rollbackAndRaise _ _ _ h
    | some updated =>
        exact meets_release (Or.inl rfl) (fun h _ _ hJ => meets_tidy_ret updated hJ h) h
  · obtain ⟨⟨row, hrow⟩, -⟩ := hQ
    cases hrow

lemma meets_completeRun (output : Payload) (cost : Option ℕ) (hJ : Unmoved i s)
    (h : List (Happened ι)) :
    Meets (refining n) (postgres ι) i (Tidy i) (completeRun elapsedMs loaded org m output cost) h s :=
  meets_checked (fun _ now h _ hJ => meets_transitionOrCancelled elapsedMs org m _ now hJ h) hJ h

lemma meets_failRun (error : String) (hJ : Unmoved i s) (h : List (Happened ι)) :
    Meets (refining n) (postgres ι) i (Tidy i) (failRun elapsedMs loaded org m error) h s :=
  meets_checked (fun _ now h _ hJ => meets_transitionOrCancelled elapsedMs org m _ now hJ h) hJ h

lemma meets_failQueuedRun (error : String) (hJ : Unmoved i s) (h : List (Happened ι)) :
    Meets (refining n) (postgres ι) i (Tidy i) (failQueuedRun elapsedMs loaded org m error) h s :=
  meets_checked (fun _ now h _ hJ => meets_transitionLand elapsedMs m _ now hJ h) hJ h

lemma meets_applyCancel (hJ : Unmoved i s) (h : List (Happened ι)) :
    Meets (refining n) (postgres ι) i (Tidy i) (applyCancel elapsedMs loaded org m) h s :=
  meets_checked (fun _ now h _ hJ => meets_transitionLand elapsedMs m _ now hJ h) hJ h

/-- The `UPDATE`s of a cancel that match nothing have moved nothing. -/
lemma meets_cancelOrFlag (run : AgentRun) (user : Option ℕ) (finishedAt : Time) (hJ : Unmoved i s)
    (h : List (Happened ι)) :
    Meets (refining n) (postgres ι) i (fun _ r s => (∃ row, r = .ok row)
      ∧ (r = .ok none → Unmoved i s)) (cancelOrFlag run org m user finishedAt) h s := by
  rw [cancelOrFlag]
  split_ifs
  · refine (meets_transition m _ hJ h).bind refining_compatible (fun h updated s hQ => ?_)
      fun h e s hQ => ?_
    · cases updated with
      | none => exact meets_transition m _ (hQ.2 rfl) h
      | some updated => exact fun _ _ _ _ _ => ⟨⟨_, rfl⟩, fun hnone => by cases hnone⟩
    · obtain ⟨⟨row, hrow⟩, -⟩ := hQ
      cases hrow
  · exact meets_transition m _ hJ h

lemma meets_cancelRun (user : Option ℕ) (hJ : Unmoved i s) (h : List (Happened ι)) :
    Meets (refining n) (postgres ι) i (Tidy i) (cancelRun loaded org m user) h s := by
  have herr : ∀ h e s, Unmoved i s → Tidy i h (.error e : Except Exn AgentRun) s :=
    fun _ _ _ hJ => tidy_of_unmoved hJ
  have hcommit : ∀ (run : AgentRun) h s, Meets (refining n) (postgres ι) i (Tidy i)
      ((Tx.commit : Tx Unit).bind fun _ => .ret run) h s := fun run h _ =>
    meets_release (Or.inl rfl) (fun h _ _ hJ => meets_tidy_ret run hJ h) h
  rw [cancelRun]
  refine meets_steady_bind (steady_getOr404 loaded org m) (fun h run s hJ => ?_) herr hJ h
  split_ifs
  · exact meets_tidy_ret run hJ h
  · exact meets_tidy_raise _ hJ h
  · refine meets_steady_bind steady_now (fun h now s hJ => ?_) herr hJ h
    refine (meets_cancelOrFlag org m run user now hJ h).bind refining_compatible
      (fun h updated s hQ => ?_) fun h e s hQ => ?_
    · cases updated with
      | some updated => exact hcommit updated h s
      | none =>
          refine meets_steady_bind (steady_getOr404 (some run) org m) (fun h run s _ => ?_) herr
            (hQ.2 rfl) h
          exact hcommit run h s
    · obtain ⟨⟨row, hrow⟩, -⟩ := hQ
      cases hrow

lemma meets_updateRun (metadata : Metadata) (hJ : Unmoved i s) (h : List (Happened ι)) :
    Meets (refining n) (postgres ι) i (Tidy i) (updateRun loaded org m metadata) h s := by
  have hsteady : (updateRun loaded org m metadata).Issues Steady :=
    Prog.issues_bind (steady_getOr404 loaded org m) fun _ =>
      ⟨trivial, fun _ => ⟨trivial, fun _ => trivial⟩⟩
  exact (meets_steady hsteady hJ h).mono fun _ _ _ hJ => tidy_of_unmoved hJ

/-- A handler that answers an `AppError` with nothing. -/
lemma meets_orNone {α : Type} {p : Tx α} {h : List (Happened ι)}
    (hp : Meets (refining n) (postgres ι) i (Tidy i) p h s) :
    Meets (refining n) (postgres ι) i (Tidy i) (orNone p) h s := by
  have hbody : Meets (refining n) (postgres ι) i (Tidy i) (p.bind fun a => .ret (some a)) h s :=
    hp.bind refining_compatible (fun h a s hJ => meets_tidy_ret (some a) hJ h)
      fun h e s hQ => by cases e <;> exact hQ
  refine hbody.tryCatch refining_compatible (fun _ _ _ hQ => hQ) fun h e s hQ => ?_
  cases e with
  | app e rolledBack => exact meets_tidy_ret none hQ h
  | missingGreenlet | other name => exact fun _ _ _ _ _ => trivial

lemma meets_attempt {α : Type} {p : Tx α} {h : List (Happened ι)}
    (hp : Meets (refining n) (postgres ι) i (Tidy i) p h s) :
    Meets (refining n) (postgres ι) i (Tidy i) (attempt p) h s := by
  have hbody : Meets (refining n) (postgres ι) i (Tidy i) (p.bind fun _ => .ret 1) h s :=
    hp.bind refining_compatible (fun h _ s hJ => meets_tidy_ret 1 hJ h)
      fun h e s hQ => by cases e <;> exact hQ
  refine hbody.tryCatch refining_compatible (fun _ _ _ hQ => hQ) fun h e s hQ => ?_
  cases e with
  | app e rolledBack =>
      cases rolledBack with
      | false => exact meets_tidy_ret 0 hQ h
      | true => exact fun _ _ _ _ _ => trivial
  | missingGreenlet | other name => exact fun _ _ _ _ _ => trivial

/-- One run, claimed, executed and landed. -/
lemma meets_executeRun (aiEnabled resolved : Bool) (execute : ℕ → AgentRun → ExecutorOutcome)
    (run : AgentRun) (hJ : Unmoved i s) (h : List (Happened ι)) :
    Meets (refining n) (postgres ι) i (Tidy i)
      (executeRun elapsedMs aiEnabled resolved execute m run) h s := by
  rw [executeRun]
  split_ifs
  · exact meets_orNone (meets_failQueuedRun elapsedMs _ _ m _ hJ h)
  · exact meets_orNone (meets_failQueuedRun elapsedMs _ _ m _ hJ h)
  · refine (meets_orNone (meets_startRun (some run) run.organizationId m hJ h)).bind
      refining_compatible (fun h started s hJ => ?_) fun h e s hQ => hQ
    cases started with
    | none => exact meets_tidy_ret none hJ h
    | some started =>
        dsimp only
        split
        · exact meets_orNone (meets_completeRun elapsedMs _ _ m _ _ hJ h)
        · exact meets_orNone (meets_failRun elapsedMs _ _ m _ hJ h)

/-- A sweep over the runs that a bulk read has listed. -/
lemma meets_sweep {getRuns : Tx (List (ℕ × AgentRun))} {f : ℕ × AgentRun → Tx ℕ}
    (hruns : getRuns.Issues Steady)
    (hf : ∀ row h s, Unmoved i s → Meets (refining n) (postgres ι) i (Tidy i) (f row) h s)
    (hJ : Unmoved i s) (h : List (Happened ι)) :
    Meets (refining n) (postgres ι) i (Tidy i)
      (getRuns.bind fun runs => (Prog.tally runs f).bind fun k => Tx.commit.bind fun _ => .ret k)
      h s := by
  refine meets_steady_bind hruns (fun h runs s hJ => ?_) (fun _ _ _ hJ => tidy_of_unmoved hJ) hJ h
  have hloop : Meets (refining n) (postgres ι) i (Tidy i) (Prog.tally runs f) h s := by
    refine Meets.tally refining_compatible (J := fun _ _ s => Unmoved i s)
      (fun _ _ _ _ hJ hr => hJ.frame hr) (fun row _ h s hJ => ?_) (fun _ _ _ hJ => hJ) runs hJ
    refine (hf row h s hJ).mono fun h r s hQ => ?_
    cases r with
    | ok k => exact hQ
    | error e => cases e <;> exact hQ
  refine hloop.bind refining_compatible (fun h k s _ => ?_) fun h e s hQ => ?_
  · exact meets_release (Or.inl rfl) (fun h _ _ hJ => meets_tidy_ret k hJ h) h
  · cases e <;> exact hQ

lemma meets_processCancels (limit : ℕ) (hJ : Unmoved i s) (h : List (Happened ι)) :
    Meets (refining n) (postgres ι) i (Tidy i) (processCancels elapsedMs limit) h s := by
  have hruns : (getCancelRequested limit).Issues Steady := ⟨trivial, fun _ => trivial⟩
  exact meets_sweep hruns
    (fun row h _ hJ => meets_attempt (meets_applyCancel elapsedMs _ _ row.1 hJ h)) hJ h

lemma meets_reconcileStuck (timeoutSeconds : ℕ) (hJ : Unmoved i s) (h : List (Happened ι)) :
    Meets (refining n) (postgres ι) i (Tidy i) (reconcileStuck elapsedMs timeoutSeconds) h s := by
  have hruns : (getStuckRunning timeoutSeconds).Issues Steady :=
    ⟨trivial, fun _ => ⟨trivial, fun _ => trivial⟩⟩
  exact meets_sweep hruns
    (fun row h _ hJ => meets_attempt (meets_failRun elapsedMs _ _ row.1 _ hJ h)) hJ h

/-- An operation in a session of its own. -/
lemma meets_client {α : Type} {p : Tx α}
    (hp : Meets (refining n) (postgres ι) i (Tidy i) p [] s) :
    Meets (refining n) (postgres ι) i (fun _ _ _ => True) (client p) [] s := by
  have hsession : Meets (refining n) (postgres ι) i (fun _ _ _ => True) (Txn.Tx.withSession p) []
      s := by
    refine hp.withSession refining_compatible fun h r s₁ tr s₂ _ _ _ hI _ => ?_
    obtain ⟨hI', hguar⟩ := refining_step (n := n) (q := .rollback) hI (Or.inl trivial)
    exact ⟨hI', hguar, fun _ _ => trivial⟩
  exact hsession.bind refining_compatible (fun _ _ _ _ _ _ _ _ _ => trivial) fun _ _ _ _ => trivial

end Operations

open AgentService AgentRuntime AgentWorker in
/-- The sessions around a run: the operations of the service, the runtime and the sweeps of the
worker, and whatever leaves statuses alone. -/
inductive AgentSession : Tx Unit → Prop
  | start (loaded : Option AgentRun) (org m : ℕ) : AgentSession (client (startRun loaded org m))
  | complete (elapsedMs : Stopwatch) (loaded : Option AgentRun) (org m : ℕ) (output : Payload)
      (cost : Option ℕ) : AgentSession (client (completeRun elapsedMs loaded org m output cost))
  | fail (elapsedMs : Stopwatch) (loaded : Option AgentRun) (org m : ℕ) (error : String) :
      AgentSession (client (failRun elapsedMs loaded org m error))
  | failQueued (elapsedMs : Stopwatch) (loaded : Option AgentRun) (org m : ℕ) (error : String) :
      AgentSession (client (failQueuedRun elapsedMs loaded org m error))
  | cancel (loaded : Option AgentRun) (org m : ℕ) (user : Option ℕ) :
      AgentSession (client (cancelRun loaded org m user))
  | applyCancel (elapsedMs : Stopwatch) (loaded : Option AgentRun) (org m : ℕ) :
      AgentSession (client (applyCancel elapsedMs loaded org m))
  | update (loaded : Option AgentRun) (org m : ℕ) (metadata : Metadata) :
      AgentSession (client (updateRun loaded org m metadata))
  | execute (elapsedMs : Stopwatch) (m : ℕ) (aiEnabled resolved : Bool)
      (execute : ℕ → AgentRun → ExecutorOutcome) (run : AgentRun) :
      AgentSession (client (executeRun elapsedMs aiEnabled resolved execute m run))
  | cancels (elapsedMs : Stopwatch) (limit : ℕ) :
      AgentSession (client (processCancels elapsedMs limit))
  | stuck (elapsedMs : Stopwatch) (timeoutSeconds : ℕ) :
      AgentSession (client (reconcileStuck elapsedMs timeoutSeconds))
  | other (p : Tx Unit) : p.Issues Steady → AgentSession p

/-! ### The machine is refined -/

/-- The sessions keep the contract. -/
lemma AgentSession.meets {p : Tx Unit} (hp : AgentSession p) (hJ : Unmoved i s) :
    Meets (refining n) (postgres ι) i (fun _ _ _ => True) p [] s := by
  cases hp with
  | start loaded org m => exact meets_client (meets_startRun loaded org m hJ [])
  | complete elapsedMs loaded org m output cost =>
      exact meets_client (meets_completeRun elapsedMs loaded org m output cost hJ [])
  | fail elapsedMs loaded org m error =>
      exact meets_client (meets_failRun elapsedMs loaded org m error hJ [])
  | failQueued elapsedMs loaded org m error =>
      exact meets_client (meets_failQueuedRun elapsedMs loaded org m error hJ [])
  | cancel loaded org m user => exact meets_client (meets_cancelRun loaded org m user hJ [])
  | applyCancel elapsedMs loaded org m =>
      exact meets_client (meets_applyCancel elapsedMs loaded org m hJ [])
  | update loaded org m metadata => exact meets_client (meets_updateRun loaded org m metadata hJ [])
  | execute elapsedMs m aiEnabled resolved execute run =>
      exact meets_client (meets_executeRun elapsedMs m aiEnabled resolved execute run hJ [])
  | cancels elapsedMs limit => exact meets_client (meets_processCancels elapsedMs limit hJ [])
  | stuck elapsedMs timeoutSeconds =>
      exact meets_client (meets_reconcileStuck elapsedMs timeoutSeconds hJ [])
  | other p hp => exact (meets_steady hp hJ []).mono fun _ _ _ _ => trivial

/-- The committed status of run `n`. -/
def runStatus (n : ℕ) (s : Database ι) : Option AgentRunStatus :=
  (s.committed .agentRun n).map (·.status)

/-- The committed row of run `n` carries a cancel flag. -/
def flagged (n : ℕ) (s : Database ι) : Bool :=
  (s.committed .agentRun n).any (·.cancelRequestedAt.isSome)

/-- Run `n` is in a terminal status. -/
def ended (n : ℕ) (s : Database ι) : Bool := (runStatus n s).any (·.isTerminal)

omit [DecidableEq ι] in
/-- A commit moves the status of a run along the table, or leaves it. -/
lemma Refines.status {st : AgentRunStatus} (h : Refines n s s') (hst : runStatus n s = some st) :
    ∃ st', runStatus n s' = some st' ∧ (st' = st ∨ st.canTransition st' = true) := by
  obtain ⟨r, hr, rfl⟩ := Option.map_eq_some_iff.mp hst
  obtain ⟨r', hr', hdeclared⟩ := h r hr
  exact ⟨r'.status, by rw [runStatus, hr', Option.map_some], hdeclared.status⟩

omit [DecidableEq ι] in
lemma Refines.ended {st : AgentRunStatus} (h : Refines n s s') (hst : runStatus n s = some st)
    (hend : st.isTerminal = true) : runStatus n s' = some st := by
  obtain ⟨st', hst', rfl | hmove⟩ := h.status hst
  · exact hst'
  · rw [(AgentRunStatus.isTerminal_iff st).mp hend st'] at hmove
    cases hmove

omit [DecidableEq ι] in
lemma Refines.flagged (h : Refines n s s') (hf : flagged n s = true) : flagged n s' = true := by
  obtain ⟨r, hr, hflag⟩ := (Option.any_eq_true _ _).mp hf
  obtain ⟨r', hr', hdeclared⟩ := h r hr
  have hne : r'.cancelRequestedAt ≠ none :=
    hdeclared.flag (Option.isSome_iff_ne_none.mp hflag)
  exact (Option.any_eq_true _ _).mpr ⟨r', hr', Option.isSome_iff_ne_none.mpr hne⟩

/-- **The machine is refined.**  From a database without open transactions in which a cancel flag of
a run stands only on a running or a cancelled row, and along every run of the operations: a commit
changes the status of the run along an edge of the table; a terminal status is not left; a terminal
status is reached at most once; and a run whose cancel flag is set in some state on the way is
RUNNING or CANCELLED from then on. -/
theorem run_refines_table {procs : ι → Tx Unit} {c : Sessions ι Unit} (hs : s.Settled)
    (hflag : ∀ r, s.committed .agentRun n = some r → r.WellFlagged)
    (hp : ∀ i, AgentSession (procs i)) (h : Pool.Reach (postgres ι) (.start procs s) c) :
    (∀ ev ∈ c.trace, ∀ st, runStatus n ev.before = some st →
        ∃ st', runStatus n ev.after = some st' ∧ (st' ≠ st → st.canTransition st' = true)
          ∧ (st.isTerminal = true → st' = st))
      ∧ (Pool.flips (fun s => ended n s = true) c.trace).length ≤ 1
      ∧ ∀ ev ∈ c.trace, flagged n ev.before = true →
          runStatus n c.store = some .running ∨ runStatus n c.store = some .cancelled := by
  have hunmoved : ∀ i, Unmoved i s := by
    intro i m r rc hd
    rw [hs] at hd
    cases hd
  have hI : (refining n).inv [] s := by
    refine ⟨hs.ahead _, fun t m r hc => ?_, fun t m j r hd => ?_⟩
    · cases t
      intro hm
      subst hm
      exact hflag r hc
    · rw [hs] at hd
      cases hd
  obtain ⟨⟨-, hrows⟩, hguar, -⟩ := h.meets refining_compatible hI (fun i => (hp i).meets (hunmoved i))
    (along_iff_forall_mem.mpr fun _ _ => trivial)
  have hrefines : ∀ ev ∈ c.trace, Refines n ev.before ev.after := fun ev hev =>
    (along_iff_forall_mem.mp hguar ev hev).1
  refine ⟨fun ev hev st hst => ?_, ?_, fun ev hev hf => ?_⟩
  · obtain ⟨st', hst', hmove⟩ := (hrefines ev hev).status hst
    refine ⟨st', hst', fun hne => hmove.resolve_left hne, fun hend => ?_⟩
    exact Option.some.inj (hst'.symm.trans ((hrefines ev hev).ended hst hend))
  · refine h.flips_le_one fun ev hev hend => ?_
    obtain ⟨st, hst, hterminal⟩ := (Option.any_eq_true _ _).mp hend
    exact (Option.any_eq_true _ _).mpr ⟨st, (hrefines ev hev).ended hst hterminal, hterminal⟩
  · have hend : flagged n c.store = true :=
      h.stays (P := fun s => flagged n s = true) (fun ev hev => (hrefines ev hev).flagged) hev
        ((hrefines ev hev).flagged hf)
    obtain ⟨r, hr, hset⟩ := (Option.any_eq_true _ _).mp hend
    have hwell : r.WellFlagged := hrows.1 .agentRun n r hr rfl
    rw [runStatus, hr, Option.map_some]
    exact (hwell (Option.isSome_iff_ne_none.mp hset)).imp (congrArg some) (congrArg some)

/-! ### A small run -/

/-- A run of organization 1, just queued. -/
def smallRun : AgentRun :=
  NewRun.row
    { organizationId := 1
      agentName := "research"
      trigger := .manual
      workflowId := none
      input := ""
      idempotencyKey := none
      traceId := none
      createdAt := 0 }

/-- A database that holds one run. -/
def runDatabase (run : AgentRun) : Database ι :=
  Db.init (fun t n => match t, n with
    | .agentRun, 0 => some run
    | _, _ => none) 1 (.still 0) fun t n hn => by
      match n with
      | 0 => omega
      | n + 1 => cases t; rfl

/-- A worker executes the run while a member cancels it. -/
def workerAndCancel : Fin 2 → Tx Unit
  | 0 => client (AgentRuntime.executeRun (fun _ _ => 0) true true (fun _ _ => .succeeded "" none) 0
      smallRun)
  | 1 => client (AgentService.cancelRun none 1 0 none)

/-- The cancel flags the run after the worker has started it: the worker lands it as CANCELLED. -/
theorem run_refines_table_cancelled :
    ∃ c : Sessions (Fin 2) Unit,
      Pool.Reach (postgres (Fin 2)) (.start workerAndCancel (runDatabase smallRun)) c
        ∧ (∃ ev ∈ c.trace, flagged 0 ev.before = true)
        ∧ (Pool.flips (fun s => ended 0 s = true) c.trace).length ≤ 1
        ∧ runStatus 0 c.store = some .cancelled := by
  have hrun : (((Pool.start workerAndCancel (runDatabase smallRun)).run (postgres (Fin 2))
      (List.replicate 4 (.step 0) ++ List.replicate 5 (.step 1)
        ++ List.replicate 6 (.step 0))).any fun c =>
          (c.trace.any fun ev => flagged 0 ev.before)
            && decide (runStatus 0 c.store = some .cancelled)) = true := by
    decide +kernel
  obtain ⟨c, hc, hP⟩ := Pool.exists_of_run hrun
  obtain ⟨hflagged, hst⟩ := Bool.and_eq_true_iff.mp hP
  have hs : (runDatabase smallRun : Database (Fin 2)).Settled := Db.settled_init _ _ _ _
  have hflag : ∀ r, (runDatabase smallRun : Database (Fin 2)).committed .agentRun 0 = some r →
      r.WellFlagged := by
    intro r hr
    obtain rfl := Option.some.inj hr
    exact wellFlagged_row _
  have hp : ∀ i, AgentSession (workerAndCancel i) := by
    intro i
    fin_cases i
    · exact .execute _ _ _ _ _ _
    · exact .cancel _ _ _ _
  obtain ⟨-, honce, -⟩ := run_refines_table hs hflag hp hc
  exact ⟨c, hc, List.any_eq_true.mp hflagged, honce, of_decide_eq_true hst⟩

end Agents
