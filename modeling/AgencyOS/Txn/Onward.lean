import AgencyOS.Txn.UniqueIndex

/-!
Rows that only move along a relation.

If every `UPDATE` that may be issued rewrites rows along a reflexive and transitive relation, then
whatever is committed has moved along it from what was committed at the start: in a run of one
program alone.

* `Sql.Advances`: what a statement rewrites, it moves along the relation;
* `Onward`, `Onward.effect`: the committed and uncommitted rows against those of the start;
* `Server.solo_issues`: the invariant rule for a program run alone;
* `Server.solo_onward`: **committed rows only move along the relation**;
* `AheadBy`: the same with a relation for each session, by which only its own versions move.
-/

namespace Txn

variable {S : Schema} {ι κ ε α : Type}

/-- The rows that the statement rewrites move along `R`. -/
def Sql.Advances (R : (t : S.Table) → S.Row t → S.Row t → Prop) : Sql S → Prop
  | .update u _ => ∀ r, (S.act u).guard r = true → R _ r ((S.act u).set r)
  | _ => True

/-- What is uncommitted is ahead of what is committed, and that is ahead of where it started. -/
structure Onward (R : (t : S.Table) → S.Row t → S.Row t → Prop) (s₀ s : Db S ι) : Prop where
  ahead : Ahead R s
  committed : ∀ t n rc, s₀.committed t n = some rc → ∃ rc', s.committed t n = some rc' ∧ R t rc rc'

section Onward

variable [DecidableEq S.Table] [DecidableEq ι] {R : (t : S.Table) → S.Row t → S.Row t → Prop}
  {s₀ s : Db S ι} {i : ι}

omit [DecidableEq S.Table] [DecidableEq ι] in
lemma Db.Settled.onward (hs : s.Settled) (hrefl : ∀ t r, R t r r) : Onward R s s where
  ahead := hs.ahead R
  committed := fun t _ rc hc => ⟨rc, hc, hrefl t rc⟩

/-- A statement that moves rows along the relation moves the store onward. -/
theorem Onward.effect (h : Onward R s₀ s) (hrefl : ∀ t r, R t r r)
    (htrans : ∀ t r r' r'', R t r r' → R t r' r'' → R t r r'') {q : Sql S} (hq : q.Advances R) :
    Onward R s₀ (Db.effect i q s) where
  ahead := by
    refine h.ahead.effect hrefl fun u n r hqu hv hg rc hc hr => ?_
    subst hqu
    exact htrans _ _ _ _ hr (hq r hg)
  committed := by
    intro t n rc hc
    obtain ⟨rc', hc', hr⟩ := h.committed t n rc hc
    obtain ⟨rc'', hc'', hr'⟩ := h.ahead.committed hrefl i q hc'
    exact ⟨rc'', hc'', htrans _ _ _ _ hr hr'⟩

variable [DecidableEq κ] {key : Index S κ}

lemma Onward.effect_indexed (h : Onward R s₀ s) (hrefl : ∀ t r, R t r r)
    (htrans : ∀ t r r' r'', R t r r' → R t r' r'' → R t r r'') {q : Sql S} (hq : q.Advances R) :
    Onward R s₀ ((indexedServer key ι).effect i q s) := by
  rcases indexedServer_effect_cases key i q s with heq | heq
  · rwa [heq]
  · rw [heq]
    exact h.effect hrefl htrans hq

end Onward

section Solo

variable {Sg : Signature} {σ : Type} {srv : Server Sg ι σ} {i : ι}

/-- **The invariant rule for a program run alone.** -/
theorem Server.solo_issues {φ : Sg.Stmt → Prop} {I : σ → Prop}
    (hstep : ∀ q s, φ q → I s → I (srv.effect i q s)) {p : Prog Sg ε α} (hp : p.Issues φ) {s : σ}
    (hs : I s) : I (srv.solo i p s).2 := by
  induction p generalizing s with
  | ret a => exact hs
  | raise e => exact hs
  | call q k ih => exact ih _ (hp.2 _) (hstep q s hp.1 hs)

end Solo

section Runs

variable [DecidableEq S.Table] [DecidableEq ι] [DecidableEq κ] {key : Index S κ}
  {R : (t : S.Table) → S.Row t → S.Row t → Prop} {s : Db S ι}

/-- A program run alone moves the committed rows along the relation. -/
theorem Server.solo_onward (hrefl : ∀ t r, R t r r)
    (htrans : ∀ t r r' r'', R t r r' → R t r' r'' → R t r r'') (hs : s.Settled) (i : ι)
    {p : Prog (indexedSql S) ε α} (hp : p.Issues (Sql.Advances R)) :
    Onward R s ((indexedServer key ι).solo i p s).2 :=
  Server.solo_issues (fun _ _ hq h => h.effect_indexed hrefl htrans hq) hp (hs.onward hrefl)

end Runs

/-! ### Relations of the sessions -/

/-- Every uncommitted version stands to the committed one in the relation of its session. -/
def AheadBy (R : ι → (t : S.Table) → S.Row t → S.Row t → Prop) (s : Db S ι) : Prop :=
  ∀ t n j r rc, s.dirty t n = some (j, r) → s.committed t n = some rc → R j t rc r

lemma Db.Settled.aheadBy {s : Db S ι} (h : s.Settled)
    (R : ι → (t : S.Table) → S.Row t → S.Row t → Prop) : AheadBy R s := by
  intro t n j r rc hd
  rw [h t n] at hd
  cases hd

section AheadBy

variable [DecidableEq S.Table] [DecidableEq ι] {R : ι → (t : S.Table) → S.Row t → S.Row t → Prop}
  {s : Db S ι} {i : ι}

omit [DecidableEq S.Table] in
/-- What a session sees of a row is the committed version, or stands in its relation to it. -/
lemma AheadBy.view (h : AheadBy R s) {t : S.Table} {n : ℕ} {r rc : S.Row t}
    (hv : s.view i t n = some r) (hc : s.committed t n = some rc) : r = rc ∨ R i t rc r := by
  rcases s.view_cases i t n with ⟨r', hd, hv'⟩ | ⟨-, hv'⟩
  · obtain rfl := Option.some.inj (hv.symm.trans hv')
    exact Or.inr (h t n i r rc hd hc)
  · exact Or.inl (Option.some.inj (hv.symm.trans (hv'.trans hc)))

/-- A statement keeps uncommitted versions ahead if what its `UPDATE` writes stands in the relation
of its session to what is committed. -/
theorem AheadBy.effect (h : AheadBy R s) {q : Sql S}
    (hq : ∀ u n r, q = .update u n → s.view i (S.target u) n = some r →
      (S.act u).guard r = true → ∀ rc, s.committed (S.target u) n = some rc →
        (r = rc ∨ R i _ rc r) → R i _ rc ((S.act u).set r)) :
    AheadBy R (Db.effect i q s) := by
  intro t n j r rc hd hc
  rcases Db.dirty_effect_cases hd with
    ⟨hold, hj⟩ | ⟨rfl, ⟨u, r₀, rfl, hv, hg, heq⟩ | ⟨x, rfl, rfl, heq⟩⟩
  · rcases Db.committed_effect_cases i q s t n with hsame | ⟨rfl, r', hd', -⟩
    · exact h t n j r rc hold (hsame ▸ hc)
    · -- the commit releases the lock, so the version is that of another session
      rw [hold] at hd'
      exact absurd (Prod.mk.inj (Option.some.inj hd')).1 (hj (Or.inl rfl))
  · cases heq
    rw [Db.committed_effect (by simp)] at hc
    exact hq u n r₀ rfl hv hg rc hc (h.view hv hc)
  · rw [Db.committed_effect (by simp), (s.alloc t s.fresh le_rfl).1] at hc
    cases hc

/-- A committed row stays as it is, or moves along the relation of the session that commits. -/
lemma AheadBy.committed (h : AheadBy R s) {t : S.Table} {n : ℕ} {rc : S.Row t} (i : ι) (q : Sql S)
    (hc : s.committed t n = some rc) :
    ∃ rc', (Db.effect i q s).committed t n = some rc' ∧ (rc' = rc ∨ R i t rc rc') := by
  rcases Db.committed_effect_cases i q s t n with hsame | ⟨-, r, hd, hc'⟩
  · exact ⟨rc, hsame.trans hc, Or.inl rfl⟩
  · exact ⟨r, hc', Or.inr (h t n i r rc hd hc)⟩

end AheadBy

end Txn
