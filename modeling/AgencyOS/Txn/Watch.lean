import AgencyOS.Txn.Store

/-!
What a session has seen of a row, and whether others have undone it since.

A session that acts on what it has read earlier acts on a fact that another session may have
undone in the meantime.  A `Watch` follows one row and one test of it along a trace, for one
session and one transaction: whether the test held when the session last wrote the row or when
it has read it since, and whether a commit of another session has undone it after that.

* `Watch.step`, `watch`: the watch after an event, and after a trace;
* `watch_saw_own`: what a session has seen depends on its own events only;
* `watch_sound` (**a watch is right**): what a session has seen and nobody has undone still holds;
* `Moves`: the rows that a session sees have moved ahead along a relation.
-/

namespace Txn

variable {S : Schema} {ι : Type} [DecidableEq S.Table] [DecidableEq ι]

/-- What a session knows of a row: whether the test held when it looked, and whether another
session has undone it since. -/
structure Watch where
  saw : Bool
  undone : Bool
  deriving DecidableEq, Repr

/-- A write of the session counts for what it leaves; a read counts unless the test held before;
the end of a transaction ends the watch. -/
def Watch.step {t : S.Table} (P : Option (S.Row t) → Bool) (i : ι) (n : ℕ) (w : Watch)
    (ev : Event (sql S) ι (Db S ι)) : Watch :=
  if ev.pid = i then
    match ev.stmt with
    | .commit | .rollback => ⟨false, false⟩
    | .update u m => if S.target u = t ∧ m = n then ⟨P (ev.after.view i t n), false⟩ else w
    | .insert x =>
        if S.into x = t ∧ ev.before.fresh = n then ⟨P (ev.after.view i t n), false⟩ else w
    | .select t' m =>
        if (t' = t ∧ m = n) ∧ w.saw = false then ⟨P (ev.after.view i t n), false⟩ else w
    | .scan q => if S.source q = t ∧ w.saw = false then ⟨P (ev.after.view i t n), false⟩ else w
    | .now => w
  else ⟨w.saw, w.undone || (P (ev.before.committed t n) && !P (ev.after.committed t n))⟩

/-- What session `i` knows of row `n` after a trace. -/
def watch {t : S.Table} (P : Option (S.Row t) → Bool) (i : ι) (n : ℕ)
    (tr : List (Event (sql S) ι (Db S ι))) : Watch :=
  tr.foldl (Watch.step P i n) ⟨false, false⟩

variable {t : S.Table} {P : Option (S.Row t) → Bool} {i j : ι} {n : ℕ}
  {tr : List (Event (sql S) ι (Db S ι))} {s s' s'' : Db S ι}

@[simp] lemma watch_nil : watch P i n ([] : List (Event (sql S) ι (Db S ι))) = ⟨false, false⟩ := rfl

lemma watch_snoc (tr : List (Event (sql S) ι (Db S ι))) (ev : Event (sql S) ι (Db S ι)) :
    watch P i n (tr ++ [ev]) = (watch P i n tr).step P i n ev := by
  rw [watch, List.foldl_append]
  rfl

/-- What a session sees of a row depends on its own events only. -/
lemma watch_saw_own (tr : List (Event (sql S) ι (Db S ι))) :
    (watch P i n (own i tr)).saw = (watch P i n tr).saw := by
  have hstep : ∀ (w w' : Watch) (ev : Event (sql S) ι (Db S ι)), ev.pid = i → w.saw = w'.saw →
      (w.step P i n ev).saw = (w'.step P i n ev).saw := by
    intro w w' ev hi hw
    rw [Watch.step, Watch.step, if_pos hi, if_pos hi]
    split
    · rfl
    · rfl
    · split_ifs
      · rfl
      · exact hw
    · split_ifs
      · rfl
      · exact hw
    · rw [hw]
      split_ifs
      · rfl
      · exact hw
    · rw [hw]
      split_ifs
      · rfl
      · exact hw
    · exact hw
  induction tr using List.reverseRecOn with
  | nil => rfl
  | append_singleton tr ev ih =>
      rw [own_append]
      by_cases hi : ev.pid = i
      · have hown : own i [ev] = [ev] := by simp [own, hi]
        rw [hown, watch_snoc, watch_snoc]
        exact hstep _ _ ev hi ih
      · rw [own_other hi, List.append_nil, watch_snoc, ih, Watch.step, if_neg hi]

/-- A statement that neither shows nor writes the row and ends no transaction leaves the watch
alone. -/
lemma watch_other {q : Sql S} (hc : q ≠ .commit) (hr : q ≠ .rollback)
    (hselect : ∀ t' m, q = .select t' m → ¬ (t' = t ∧ m = n))
    (hscan : ∀ p, q = .scan p → S.source p ≠ t)
    (hupdate : ∀ u m, q = .update u m → ¬ (S.target u = t ∧ m = n))
    (hinsert : ∀ x, q = .insert x → ¬ (S.into x = t ∧ s.fresh = n)) :
    watch P i n (tr ++ [⟨i, q, s, s'⟩]) = watch P i n tr := by
  rw [watch_snoc, Watch.step, if_pos rfl]
  cases q with
  | commit => exact absurd rfl hc
  | rollback => exact absurd rfl hr
  | select t' m => exact if_neg fun h => hselect t' m rfl h.1
  | scan p => exact if_neg fun h => hscan p rfl h.1
  | update u m => exact if_neg (hupdate u m rfl)
  | insert x => exact if_neg (hinsert x rfl)
  | now => rfl

/-- A read keeps what was seen, and adds what it shows. -/
lemma saw_select (hP : (watch P i n tr).saw = true ∨ P (s'.view i t n) = true) :
    (watch P i n (tr ++ [⟨i, .select t n, s, s'⟩])).saw = true := by
  rw [watch_snoc, Watch.step, if_pos rfl]
  simp only [and_self, true_and]
  split_ifs with hsaw
  · rcases hP with hP | hP
    · rw [hsaw] at hP
      cases hP
    · exact hP
  · simpa using hsaw

/-- A write counts for what it leaves. -/
lemma saw_update {u : S.Update} {P : Option (S.Row (S.target u)) → Bool} :
    (watch P i n (tr ++ [⟨i, .update u n, s, s'⟩])).saw = P (s'.view i (S.target u) n) := by
  rw [watch_snoc, Watch.step, if_pos rfl]
  simp

/-- All watches are right: what was seen and not undone still holds. -/
def WatchesSound (tr : List (Event (sql S) ι (Db S ι))) (s : Db S ι) : Prop :=
  ∀ (t : S.Table) (P : Option (S.Row t) → Bool) (i : ι) (n : ℕ),
    (watch P i n tr).saw = true → (watch P i n tr).undone = false → P (s.view i t n) = true

/-- **A watch is right** after every statement of every session. -/
theorem watchesSound_step {q : Sql S} (h : WatchesSound tr s) :
    WatchesSound (tr ++ [⟨j, q, s, Db.effect j q s⟩]) (Db.effect j q s) := by
  intro t P i n hsaw hundone
  have hbefore := h t P i n
  by_cases hij : j = i
  · subst hij
    have hsame : (q ≠ .rollback) → (∀ u m, q = .update u m → ¬ (t = S.target u ∧ n = m)) →
        (∀ x, q = .insert x → ¬ (t = S.into x ∧ n = s.fresh)) →
        P (s.view j t n) = true → P ((Db.effect j q s).view j t n) = true := by
      intro hroll hupdate hinsert hP
      rwa [Db.view_effect_of_ne hroll hupdate hinsert]
    rw [watch_snoc, Watch.step, if_pos rfl] at hsaw hundone
    cases q with
    | commit => cases hsaw
    | rollback => cases hsaw
    | update u m =>
        simp only at hsaw hundone
        split_ifs at hsaw hundone with hw
        · exact hsaw
        · refine hsame (by simp) ?_ (by simp) (hbefore hsaw hundone)
          rintro u' m' heq ⟨rfl, rfl⟩
          obtain ⟨rfl, rfl⟩ := Sql.update.inj heq
          exact hw ⟨rfl, rfl⟩
    | insert x =>
        simp only at hsaw hundone
        split_ifs at hsaw hundone with hw
        · exact hsaw
        · refine hsame (by simp) (by simp) ?_ (hbefore hsaw hundone)
          rintro x' heq ⟨rfl, rfl⟩
          obtain rfl := Sql.insert.inj heq
          exact hw ⟨rfl, rfl⟩
    | select t' m =>
        simp only at hsaw hundone
        split_ifs at hsaw hundone with hw
        · exact hsaw
        · exact hbefore hsaw hundone
    | scan p =>
        simp only at hsaw hundone
        split_ifs at hsaw hundone with hw
        · exact hsaw
        · exact hbefore hsaw hundone
    | now => exact hbefore hsaw hundone
  · rw [watch_snoc, Watch.step, if_neg hij] at hsaw hundone
    simp only [Bool.or_eq_false_iff, Bool.and_eq_false_iff, Bool.not_eq_false'] at hundone
    have hP : P (s.view i t n) = true := hbefore hsaw hundone.1
    rcases (frame_effect hij q s).view_cases t n with ⟨hview, -⟩ | ⟨hview, hview'⟩
    · rw [hview]
      exact hP
    · rw [hview']
      rw [hview] at hP
      rcases hundone.2 with hfalse | htrue
      · rw [hP] at hfalse
        cases hfalse
      · exact htrue

/-! ### Rows that move ahead -/

/-- The rows that session `i` sees have moved ahead along `R`. -/
def Moves (R : (t : S.Table) → S.Row t → S.Row t → Prop) (i : ι) (s s' : Db S ι) : Prop :=
  ∀ t n r, s.view i t n = some r → ∃ r', s'.view i t n = some r' ∧ R t r r'

section Moves

variable {R : (t : S.Table) → S.Row t → S.Row t → Prop}

omit [DecidableEq S.Table] in
lemma Moves.refl (hrefl : ∀ t r, R t r r) (i : ι) (s : Db S ι) : Moves R i s s :=
  fun t _ r hr => ⟨r, hr, hrefl t r⟩

omit [DecidableEq S.Table] in
lemma Moves.trans (htrans : ∀ t r r' r'', R t r r' → R t r' r'' → R t r r'')
    (h : Moves R i s s') (h' : Moves R i s' s'') : Moves R i s s'' := by
  intro t n r hr
  obtain ⟨r', hr', hR⟩ := h t n r hr
  obtain ⟨r'', hr'', hR'⟩ := h' t n r' hr'
  exact ⟨r'', hr'', htrans t r r' r'' hR hR'⟩

/-- Under the statements of other sessions the rows seen move ahead, if uncommitted versions are
ahead of the committed ones. -/
lemma moves_other (hrefl : ∀ t r, R t r r) (hij : j ≠ i) (h : Ahead R s) (q : Sql S) :
    Moves R i s (Db.effect j q s) := by
  intro t n r hr
  rcases (frame_effect hij q s).view_cases t n with ⟨hview, -⟩ | ⟨hview, hview'⟩
  · exact ⟨r, hview.trans hr, hrefl t r⟩
  · obtain ⟨r', hr', hR⟩ := h.committed hrefl j q (hview.symm.trans hr)
    exact ⟨r', hview'.trans hr', hR⟩

/-- Under the statements of the session itself the rows seen move ahead, unless it rolls back. -/
lemma moves_own {q : Sql S} (hrefl : ∀ t r, R t r r) (hroll : q ≠ .rollback)
    (hready : Db.ready i q s = true)
    (hset : ∀ u n r, q = .update u n → s.view i (S.target u) n = some r →
      (S.act u).guard r = true → R _ r ((S.act u).set r)) :
    Moves R i s (Db.effect i q s) := by
  intro t n r hr
  by_cases hne : ∀ u m, q = .update u m → ¬ (t = S.target u ∧ n = m)
  · have hlt : n < s.fresh := Db.lt_fresh_of_view hr
    refine ⟨r, ?_, hrefl t r⟩
    rw [Db.view_effect_of_ne hroll hne fun x _ h => by omega, hr]
  · push Not at hne
    obtain ⟨u, m, rfl, rfl, rfl⟩ := hne
    refine ⟨(S.act u).step r, by rw [Db.view_update hready, hr, Option.map_some], ?_⟩
    by_cases hg : (S.act u).guard r = true
    · rw [GuardedUpdate.step_of_guard hg]
      exact hset u n r rfl hr hg
    · rw [GuardedUpdate.step_of_not_guard (by simpa using hg)]
      exact hrefl _ r

end Moves

end Txn
