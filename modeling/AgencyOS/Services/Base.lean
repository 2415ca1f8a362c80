import AgencyOS.Txn.Session

/-!
`commit_with_retry`, which every service commits through.

The helper retries `session.commit()` and nothing else, so after a failed commit it has nothing left
to commit: the writes are rolled back, and the session refuses.

* `commitWithRetry`: the helper, for any session that keeps the contract of `Txn.Session`;
* `AllOrNothing`: what its callers rely on;
* `allOrNothing_iff`: they may, exactly when the first attempt settles the matter: it succeeds, or no
  attempt could;
* `commitWithRetry_sound`: it returns exactly when the writes are committed, and a call that raises
  has committed none.
-/

namespace Services

open Txn

variable {σ W ε : Type} (S : Session σ W ε) (verdicts : ℕ → Verdict) (s : σ)

/-- `stop_after_attempt(3)`. -/
def maxAttempts : ℕ := 3

/-- `commit_with_retry`: the `OperationalError`s of the session are the transient ones. -/
def commitWithRetry : Except ε Unit × σ := S.commitRetrying verdicts (maxAttempts - 1) 0 s

/-- How many of the attempts would fail transiently. -/
def transientFailures : ℕ :=
  ((List.range maxAttempts).filter fun i => verdicts i = .transient).length

/-- It returns exactly when the pending writes are committed, once, as one transaction; it does so
unless all attempts fail; and nothing is committed when it raises. -/
structure AllOrNothing : Prop where
  returns_iff : (commitWithRetry S verdicts s).1 = .ok () ↔
    S.committed (commitWithRetry S verdicts s).2 = S.committed s ++ [S.pending s]
  retries : transientFailures verdicts ≤ 2 → (commitWithRetry S verdicts s).1 = .ok ()
  raises : ∀ e, (commitWithRetry S verdicts s).1 = .error e →
    S.committed (commitWithRetry S verdicts s).2 = S.committed s

variable {S s}

/-- The first attempt settles how the call ends. -/
lemma commitWithRetry_cases (h : ¬ S.refuses s) :
    (verdicts 0 = .success ∧ (commitWithRetry S verdicts s).1 = .ok () ∧
      S.committed (commitWithRetry S verdicts s).2 = S.committed s ++ [S.pending s]) ∨
    (verdicts 0 = .transient ∧ (∃ e, (commitWithRetry S verdicts s).1 = .error e) ∧
      S.committed (commitWithRetry S verdicts s).2 = S.committed s) := by
  cases hv : verdicts 0 with
  | success => exact .inl ⟨rfl, Session.commitRetrying_of_success h hv⟩
  | transient => exact .inr ⟨rfl, Session.commitRetrying_of_transient h hv⟩

lemma append_ne_self (committed : List (List W)) (writes : List W) :
    committed ≠ committed ++ [writes] := by
  intro heq
  have hlength := congrArg List.length heq
  rw [List.length_append, List.length_singleton] at hlength
  omega

theorem commitWithRetry_sound (h : ¬ S.refuses s) :
    ((commitWithRetry S verdicts s).1 = .ok () ↔
      S.committed (commitWithRetry S verdicts s).2 = S.committed s ++ [S.pending s]) ∧
    ∀ e, (commitWithRetry S verdicts s).1 = .error e →
      S.committed (commitWithRetry S verdicts s).2 = S.committed s := by
  rcases commitWithRetry_cases verdicts h with
    ⟨-, hok, hcommitted⟩ | ⟨-, ⟨e, herror⟩, hcommitted⟩
  · exact ⟨iff_of_true hok hcommitted, fun e herror => nomatch hok.symm.trans herror⟩
  · refine ⟨iff_of_false (fun hok => nomatch herror.symm.trans hok) ?_, fun _ _ => hcommitted⟩
    rw [hcommitted]
    exact append_ne_self _ _

/-- The helper keeps its promise exactly when the first attempt succeeds or all of them fail. -/
theorem allOrNothing_iff (h : ¬ S.refuses s) :
    AllOrNothing S verdicts s ↔
      verdicts 0 = .success ∨ transientFailures verdicts = maxAttempts := by
  obtain ⟨hreturns, hraises⟩ := commitWithRetry_sound verdicts h
  have hle : transientFailures verdicts ≤ maxAttempts := by
    rw [transientFailures]
    exact (List.length_filter_le _ _).trans_eq List.length_range
  rcases commitWithRetry_cases verdicts h with
    ⟨hv, hok, -⟩ | ⟨hv, ⟨e, herror⟩, -⟩
  · exact iff_of_true ⟨hreturns, fun _ => hok, hraises⟩ (.inl hv)
  · constructor
    · intro hall
      refine .inr (le_antisymm hle ?_)
      by_contra hlt
      have hok := hall.retries (by rw [maxAttempts] at hlt; omega)
      exact nomatch herror.symm.trans hok
    · rintro (hv' | hfail)
      · exact nomatch hv'.symm.trans hv
      · refine ⟨hreturns, fun hle2 => ?_, hraises⟩
        rw [hfail, maxAttempts] at hle2
        omega

section Example

/-- A session over numbers: what is pending, what is committed, and whether it refuses. -/
structure Ledger where
  pending : List ℕ
  committed : List (List ℕ)
  refusing : Bool
  deriving DecidableEq, Repr

inductive SessionError where
  | operationalError | pendingRollbackError
  deriving DecidableEq, Repr

def Ledger.commit : Verdict → Ledger → Except SessionError Unit × Ledger
  | _, ⟨pending, committed, true⟩ => (.error .pendingRollbackError, ⟨pending, committed, true⟩)
  | .success, ⟨pending, committed, false⟩ => (.ok (), ⟨[], committed ++ [pending], false⟩)
  | .transient, ⟨_, committed, false⟩ => (.error .operationalError, ⟨[], committed, true⟩)

def ledger : Session Ledger ℕ SessionError where
  commit := Ledger.commit
  pending := Ledger.pending
  committed := Ledger.committed
  refuses l := l.refusing = true
  transient e := e = .operationalError
  commit_success := by
    rintro ⟨pending, committed, _ | _⟩ h
    · exact ⟨rfl, rfl⟩
    · exact absurd rfl h
  commit_transient := by
    rintro ⟨pending, committed, _ | _⟩ h
    · exact ⟨⟨_, rfl, rfl⟩, rfl, rfl⟩
    · exact absurd rfl h
  commit_refused := by
    rintro ⟨pending, committed, _ | _⟩ verdict h
    · exact nomatch h
    · exact ⟨⟨.pendingRollbackError, by cases verdict <;> rfl, rfl⟩, by cases verdict <;> rfl,
        by cases verdict <;> rfl⟩

/-- The session at its first commit, with one write. -/
theorem allOrNothing_ledger :
    AllOrNothing ledger (fun _ => .success) ⟨[7], [], false⟩ ↔
      (fun _ : ℕ => Verdict.success) 0 = .success ∨
        transientFailures (fun _ => .success) = maxAttempts :=
  @allOrNothing_iff _ _ _ ledger (fun _ => .success) ⟨[7], [], false⟩ Bool.false_ne_true

/-- One transient failure, and the next attempt would succeed: the write is lost and the call
raises. -/
theorem transient_not_retried :
    ¬ AllOrNothing ledger (fun i => if i = 0 then .transient else .success) ⟨[7], [], false⟩ := by
  intro hall
  exact nomatch hall.retries (by decide)

end Example

end Services
