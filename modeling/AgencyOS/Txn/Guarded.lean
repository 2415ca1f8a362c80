import AgencyOS.Txn.Store

/-!
Rows that come in only under the lock of another row.

Sessions that replace a set of rows write one further row first, the guardian, and hold its lock until
they end.  Then the set does not grow under a session that holds the lock, and what it sees of the set
is what it has left there itself.

* `Guardian`: the guardian, and the test that the rows of the set pass;
* `Guarded`: an uncommitted row that comes into the set is written under the lock of the guardian;
* `Guarded.effect`: which statements keep that;
* `Unextended`, `Guarded.unextended`: **while a session holds the lock, no other session commits a row
  into the set**;
* `Covered`, `Covered.view_eq`: rows written only under the lock, and **what its holder
  sees of them, whatever the others do**.
-/

namespace Txn

variable {S : Schema} {ι : Type}

/-- A row, and the test of the rows it guards. -/
structure Guardian (S : Schema) where
  table : S.Table
  row : ℕ
  inside : (t : S.Table) → S.Row t → Bool

/-- Session `i` holds the lock of the guardian. -/
def Guardian.HeldBy (G : Guardian S) (i : ι) (s : Db S ι) : Prop :=
  ∃ r, s.dirty G.table G.row = some (i, r)

/-- The uncommitted rows that come into the set are those of the session that holds the lock. -/
def Guarded (G : Guardian S) (s : Db S ι) : Prop :=
  ∀ t n j r, s.dirty t n = some (j, r) → G.inside t r = true →
    (s.committed t n).any (G.inside t) = true ∨ G.HeldBy j s

/-- The committed rows of the set in `s'` are some of those in `s`. -/
def Unextended (G : Guardian S) (s s' : Db S ι) : Prop :=
  ∀ t n r, s'.committed t n = some r → G.inside t r = true →
    (s.committed t n).any (G.inside t) = true

variable {G : Guardian S} {i j : ι} {s s' s'' : Db S ι} {q : Sql S}

lemma guarded_of_settled (hs : s.Settled) : Guarded G s := by
  intro t n j r hd
  rw [hs] at hd
  cases hd

lemma Unextended.refl (G : Guardian S) (s : Db S ι) : Unextended G s s := by
  intro t n r hr hin
  rw [hr]
  exact hin

lemma Unextended.trans (h : Unextended G s s') (h' : Unextended G s' s'') : Unextended G s s'' := by
  intro t n r hr hin
  obtain ⟨r', hr', hin'⟩ := (Option.any_eq_true _ _).1 (h' t n r hr hin)
  exact h t n r' hr' hin'

lemma Guardian.HeldBy.unique (h : G.HeldBy i s) (h' : G.HeldBy j s) : i = j := by
  obtain ⟨r, hr⟩ := h
  obtain ⟨r', hr'⟩ := h'
  rw [hr] at hr'
  exact (Prod.mk.inj (Option.some.inj hr')).1

variable [DecidableEq ι]

lemma Guardian.HeldBy.frame (h : G.HeldBy i s) (hf : Frame i s s') : G.HeldBy i s' := by
  obtain ⟨r, hr⟩ := h
  exact ⟨r, (hf.dirty _ _ r).2 hr⟩

/-- What the holder of the lock sees of the set later, it saw before. -/
lemma Unextended.view (h : Unextended G s s') (hf : Frame i s s') {t : S.Table} {n : ℕ} {r : S.Row t}
    (hv : s'.view i t n = some r) (hin : G.inside t r = true) :
    (s.view i t n).any (G.inside t) = true := by
  rcases hf.view_cases t n with ⟨hsame, -⟩ | ⟨hbefore, hafter⟩
  · rw [← hsame, hv]
    exact hin
  · rw [hbefore]
    exact h t n r (hafter ▸ hv) hin

/-- A row of the set that a session sees is there, or its session holds the lock. -/
lemma Guarded.view (h : Guarded G s) {t : S.Table} {n : ℕ} {r : S.Row t} (hv : s.view i t n = some r)
    (hin : G.inside t r = true) : (s.committed t n).any (G.inside t) = true ∨ G.HeldBy i s := by
  rcases s.view_cases i t n with ⟨r', hd, hv'⟩ | ⟨-, hv'⟩
  · obtain rfl := Option.some.inj (hv.symm.trans hv')
    exact h t n i r hd hin
  · rw [← hv', hv]
    exact .inl hin

variable [DecidableEq S.Table]

/-- The lock is held until its session ends the transaction. -/
lemma Guardian.HeldBy.effect (h : G.HeldBy j s) (hend : q = .commit ∨ q = .rollback → j ≠ i) :
    G.HeldBy j (Db.effect i q s) := by
  by_cases hij : i = j
  · subst hij
    obtain ⟨r, hr⟩ := h
    obtain ⟨r', hr', -⟩ := Db.dirty_effect_own hr (fun hq => hend (.inl hq) rfl)
      fun hq => hend (.inr hq) rfl
    exact ⟨r', hr'⟩
  · exact h.frame (frame_effect hij q s)

/-- A statement keeps the set guarded if what it brings in is written under the lock. -/
theorem Guarded.effect (h : Guarded G s)
    (hupdate : ∀ u n r, q = .update u n → G.inside (S.target u) ((S.act u).set r) = true →
      G.inside (S.target u) r = true ∨ G.HeldBy i s)
    (hinsert : ∀ x, q = .insert x → G.inside (S.into x) (S.new x) = true → G.HeldBy i s) :
    Guarded G (Db.effect i q s) := by
  intro t n j r hd hin
  rcases Db.dirty_effect_cases hd with
    ⟨hold, hj⟩ | ⟨rfl, ⟨u, r₀, rfl, hv, -, heq⟩ | ⟨x, rfl, rfl, heq⟩⟩
  · rcases h t n j r hold hin with hany | hheld
    · rcases Db.committed_effect_cases i q s t n with hsame | ⟨rfl, r', hd', -⟩
      · exact .inl (hsame ▸ hany)
      · rw [hold] at hd'
        exact absurd (Prod.mk.inj (Option.some.inj hd')).1 (hj (.inl rfl))
    · exact .inr (hheld.effect hj)
  · cases heq
    have hheld : G.HeldBy j s → G.HeldBy j (Db.effect j (.update u n) s) :=
      fun hheld => hheld.effect (by simp)
    rw [Db.committed_effect (by simp)]
    rcases hupdate u n r₀ rfl hin with hin₀ | hlock
    · exact (h.view hv hin₀).imp_right hheld
    · exact .inr (hheld hlock)
  · cases heq
    exact .inr ((hinsert x rfl hin).effect (by simp))

/-- **While a session holds the lock, no other session commits a row into the set.** -/
theorem Guarded.unextended (h : Guarded G s) (hheld : G.HeldBy j s) (hij : i ≠ j) (q : Sql S) :
    Unextended G s (Db.effect i q s) := by
  intro t n r hr hin
  rcases Db.committed_effect_cases i q s t n with hsame | ⟨-, r', hd, hr'⟩
  · rw [← hsame, hr]
    exact hin
  · obtain rfl := Option.some.inj (hr.symm.trans hr')
    rcases h t n i r hd hin with hany | hlock
    · exact hany
    · exact absurd (hlock.unique hheld) hij

/-! ### Rows written only under the lock -/

/-- The uncommitted versions of the rows in `W` are those of the session that holds the lock. -/
def Covered (G : Guardian S) (W : (t : S.Table) → ℕ → Prop) (s : Db S ι) : Prop :=
  ∀ t n j r, s.dirty t n = some (j, r) → W t n → G.HeldBy j s

variable {W : (t : S.Table) → ℕ → Prop} {t : S.Table} {n : ℕ}

/-- **What the holder of the lock sees of the rows**, and what is committed of them, is left alone by
every other session. -/
theorem Covered.view_eq (h : Covered G W s) (hheld : G.HeldBy j s) (hij : i ≠ j) (q : Sql S)
    (hW : W t n) : (Db.effect i q s).view j t n = s.view j t n
      ∧ (Db.effect i q s).committed t n = s.committed t n := by
  have hcommitted : (Db.effect i q s).committed t n = s.committed t n := by
    rcases Db.committed_effect_cases i q s t n with hsame | ⟨-, r, hd, -⟩
    · exact hsame
    · exact absurd ((h t n i r hd hW).unique hheld) hij
  refine ⟨?_, hcommitted⟩
  rcases (frame_effect hij q s).view_cases t n with ⟨hview, -⟩ | ⟨hview, hview'⟩
  · exact hview
  · rw [hview, hview', hcommitted]

end Txn
