import AgencyOS.Txn.Monitor

/-!
A quota on the rows of a table, kept by counting before inserting.

A session that creates a row first counts those that are there and gives up when they are as many
as the quota allows.  The count sees the rows committed when it ran, and a row may come to count
again by an `UPDATE`, which is not preceded by a count.

* `Quota`: a table, which of its rows count, and the bulk read that counts them;
* `Quota.load`: how many committed rows count;
* `Quota.monitor`: a transaction brings in one row at most, and creates it after a count below the
  quota;
* `Quota.Room`: a commit that brings in a row finds room for it: a new row, room that the others have
  left since the count; another row, any room at all;
* `Quota.load_commit`: such a commit raises the load by one, and no other raises it;
* `Pool.Reach.within_iff`: **the quota is kept in every committed state exactly when every commit
  finds room**.
-/

namespace Txn

variable {S : Schema} {ι ε α : Type}

/-- Rows of one table that count, the bulk read that finds them, and the `UPDATE`s that may make a
row count. -/
structure Quota (S : Schema) where
  table : S.Table
  counts : (t : S.Table) → S.Row t → Bool
  query : S.Query
  source : S.source query = table
  matching : ∀ r, S.matching query r = counts (S.source query) r
  enters : S.Update → Bool
  keeps_out : ∀ u r, enters u = false → (S.act u).guard r = true →
    counts (S.target u) ((S.act u).set r) = true → counts (S.target u) r = true

namespace Quota

variable (Q : Quota S) (cap : ℕ) (excluded : ℕ → Bool)

/-! ### The load -/

/-- The committed rows that count, without those excluded. -/
def counted (s : Db S ι) : Finset ℕ :=
  (Finset.range s.fresh).filter fun n =>
    excluded n = false ∧ (s.committed Q.table n).any (Q.counts Q.table) = true

/-- How many committed rows count. -/
def load (s : Db S ι) : ℕ := (Q.counted excluded s).card

variable {Q excluded} {s s' : Db S ι} {n : ℕ}

lemma mem_counted : n ∈ Q.counted excluded s
    ↔ excluded n = false ∧ ∃ r, s.committed Q.table n = some r ∧ Q.counts Q.table r = true := by
  rw [counted, Finset.mem_filter, Finset.mem_range, Option.any_eq_true]
  exact ⟨And.right, fun ⟨he, r, hr, hc⟩ => ⟨Db.lt_fresh_of_committed hr, he, r, hr, hc⟩⟩

/-- The load depends on what is committed only. -/
lemma load_congr (h : s'.committed = s.committed) : Q.load excluded s' = Q.load excluded s := by
  rw [load, load]
  congr 1
  ext n
  rw [mem_counted, mem_counted, h]

/-- A session without uncommitted rows of the table counts at least the load. -/
lemma load_le_length [DecidableEq ι] {i : ι} (h : ∀ n r, s.dirty Q.table n ≠ some (i, r)) :
    Q.load excluded s ≤ (s.rows i Q.query).length := by
  rw [load, Db.length_rows]
  refine Finset.card_le_card fun n hn => ?_
  obtain ⟨-, r, hr, hc⟩ := mem_counted.mp hn
  rw [Finset.mem_filter, Finset.mem_range]
  refine ⟨Db.lt_fresh_of_committed hr, ?_⟩
  have hview : ∀ t, t = Q.table → ∀ r : S.Row t, s.committed t n = some r →
      s.view i t n = some r := by
    rintro t rfl r hr
    rw [Db.view_of_not_own (h n), hr]
  have hmatch : ∀ t, Q.table = t → ∃ r : S.Row t, s.committed t n = some r
      ∧ Q.counts t r = true := by
    rintro t rfl
    exact ⟨r, hr, hc⟩
  obtain ⟨r', hr', hc'⟩ := hmatch _ Q.source.symm
  rw [hview _ Q.source r' hr', Option.any_some, Q.matching]
  exact hc'

/-! ### What a transaction brings in -/

/-- What a session has done in its transaction: the answer of its last count, and whether it has
written rows of the table, by a statement that may make a row count (`true`) or only by others. -/
structure Ghost where
  answer : Option ℕ
  written : Option Bool
  deriving DecidableEq, Repr

variable (Q excluded) [DecidableEq S.Table] [DecidableEq S.Query]

/-- A transaction that makes a row count writes no other row of the table, and creates such a row only
after a count below the quota. -/
def monitor : Monitor (sql S) Ghost where
  start := ⟨none, none⟩
  step g x :=
    match x with
    | ⟨.scan q, rows⟩ => if q = Q.query then { g with answer := some rows.length } else g
    | ⟨.update u _, answer⟩ =>
        if S.target u = Q.table ∧ answer.isSome = true then
          { g with written := some (Q.enters u) }
        else g
    | ⟨.insert x, _⟩ => if S.into x = Q.table then { g with written := some true } else g
    | ⟨.commit, _⟩ | ⟨.rollback, _⟩ => ⟨none, none⟩
    | ⟨.select .., _⟩ | ⟨.now, _⟩ => g
  allows g q :=
    match q with
    | .scan q => q = Q.query → g.written = none
    | .update u _ => S.target u = Q.table →
        if Q.enters u then g.written = none else g.written ≠ some true
    | .insert x => S.into x = Q.table →
        g.written = none ∧ (Q.counts _ (S.new x) = true → ∃ c, g.answer = some c ∧ c < cap)
    | _ => True

/-- The load when session `i` counted last. -/
def seen (i : ι) [DecidableEq ι] (tr : List (Event (sql S) ι (Db S ι))) : ℕ :=
  tr.foldl (fun k ev =>
    match ev.stmt with
    | .scan q => if ev.pid = i ∧ q = Q.query then Q.load excluded ev.before else k
    | _ => k) 0

/-- A commit finds room for a row that it makes count: for a new row the others have not taken, since
the session counted, all the room that was left then; for another row there is room now. -/
def Room [DecidableEq ι] (past : List (Event (sql S) ι (Db S ι)))
    (ev : Event (sql S) ι (Db S ι)) : Prop :=
  ev.stmt = .commit → ∀ n r, ev.before.dirty Q.table n = some (ev.pid, r) →
    Q.counts Q.table r = true → excluded n = false →
      match ev.before.committed Q.table n with
      | none => Q.load excluded ev.before - Q.seen excluded ev.pid past
          < cap - Q.seen excluded ev.pid past
      | some r' => Q.counts Q.table r' = false → Q.load excluded ev.before < cap

/-! ### Programs -/

section Programs

/-- Started when its transaction has written no row of the table, the program brings in one row at
most before it ends the transaction, and ends with none written. -/
abbrev Tidy (p : Tx S ε α) : Prop := Rests (Q.monitor cap) (·.written = none) p

/-- The program ends the transaction, whatever has been written in it. -/
abbrev Closes (p : Tx S ε α) : Prop :=
  ∀ g, p.Obeys (Q.monitor cap) (fun g _ => g.written = none) g

/-- A statement that makes no row count, and is no count itself. -/
def Leaves : Sql S → Prop
  | .scan q => q ≠ Q.query
  | .update u _ => S.target u = Q.table → Q.enters u = false
  | .insert x => S.into x ≠ Q.table
  | _ => True

variable {Q cap}

lemma Closes.tidy {p : Tx S ε α} (hp : Q.Closes cap p) : Q.Tidy cap p := fun g _ => hp g

lemma closes_commit (a : α) : Q.Closes cap (Prog.bind Tx.commit fun _ => .ret a : Tx S ε α) :=
  fun _ => ⟨trivial, fun _ => rfl⟩

lemma tidy_select (t : S.Table) (n : ℕ) {k : Option (S.Row t) → Tx S ε α}
    (hk : ∀ a, Q.Tidy cap (k a)) : Q.Tidy cap (.call (.select t n) k : Tx S ε α) :=
  rests_call (fun _ _ => trivial) (fun _ _ hg => hg) hk

lemma tidy_now : Q.Tidy cap (Tx.now : Tx S ε ℕ) :=
  rests_call (fun _ _ => trivial) (fun _ _ hg => hg) rests_ret

lemma tidy_scan (q : S.Query) {k : List (ℕ × S.Row (S.source q)) → Tx S ε α}
    (hk : ∀ rows, Q.Tidy cap (k rows)) : Q.Tidy cap (.call (.scan q) k : Tx S ε α) := by
  refine rests_call (fun g hg _ => hg) (fun g rows hg => ?_) hk
  simp only [monitor]
  split_ifs
  · exact hg
  · exact hg

/-- A count, with what is learnt from it. -/
lemma obeys_count {P : Ghost → Except ε α → Prop} {g : Ghost} (hg : g.written = none)
    {k : List (ℕ × S.Row (S.source Q.query)) → Tx S ε α}
    (hk : ∀ rows, (k rows).Obeys (Q.monitor cap) P { g with answer := some rows.length }) :
    (.call (.scan Q.query) k : Tx S ε α).Obeys (Q.monitor cap) P g := by
  refine ⟨fun _ => hg, fun rows => ?_⟩
  have hstep : (Q.monitor cap).step g ⟨.scan Q.query, rows⟩ = { g with answer := some rows.length } :=
    if_pos rfl
  rw [hstep]
  exact hk rows

/-- An `UPDATE`: when it matches, the transaction must be ended. -/
lemma tidy_update (u : S.Update) (n : ℕ) {k : Option (S.Row (S.target u)) → Tx S ε α}
    (hnone : Q.Tidy cap (k none)) (hsome : ∀ r, Q.Closes cap (k (some r))) :
    Q.Tidy cap (.call (.update u n) k : Tx S ε α) := by
  intro g hg
  refine ⟨fun _ => ?_, fun a => ?_⟩
  · split_ifs
    · exact hg
    · rw [hg]
      simp
  · cases a with
    | none =>
        have hstep : (Q.monitor cap).step g ⟨.update u n, none⟩ = g :=
          if_neg fun h => by cases h.2
        rw [hstep]
        exact hnone g hg
    | some r => exact hsome r _

/-- An `UPDATE` of another table. -/
lemma tidy_update_other {u : S.Update} (hu : S.target u ≠ Q.table) (n : ℕ)
    {k : Option (S.Row (S.target u)) → Tx S ε α} (hk : ∀ a, Q.Tidy cap (k a)) :
    Q.Tidy cap (.call (.update u n) k : Tx S ε α) := by
  refine rests_call (fun _ _ ht => absurd ht hu) (fun g a hg => ?_) hk
  have hstep : (Q.monitor cap).step g ⟨.update u n, a⟩ = g := if_neg fun h => hu h.1
  rw [hstep]
  exact hg

/-- A program that makes no row count may write as many as it likes. -/
lemma obeys_of_leaves {p : Tx S ε α} (hp : p.Issues Q.Leaves) :
    p.Obeys (Q.monitor cap) (fun g _ => g.written ≠ some true) ⟨none, none⟩ := by
  refine Prog.obeys_of_issues hp (fun g q hq hg => ?_) (fun g q a hq hg => ?_) (by simp)
  · cases q with
    | scan q => exact fun heq => absurd heq hq
    | update u n =>
        intro ht
        rw [hq ht, if_neg (by simp)]
        exact hg
    | insert x => exact fun ht => absurd ht hq
    | _ => trivial
  · cases q with
    | scan q =>
        simp only [monitor, if_neg (show q ≠ Q.query from hq)]
        exact hg
    | update u n =>
        simp only [monitor]
        split_ifs with h
        · simp [hq h.1]
        · exact hg
    | insert x =>
        simp only [monitor, if_neg hq]
        exact hg
    | commit => simp [monitor]
    | rollback => simp [monitor]
    | _ => exact hg

end Programs

/-! ### The store under a monitored session -/

/-- What the monitor of session `i` says of the store; `k` is the load when it counted last. -/
structure Tracks (i : ι) (g : Ghost) (k : ℕ) (s : Db S ι) : Prop where
  idle : g.written = none → ∀ t n r, t = Q.table → s.dirty t n ≠ some (i, r)
  leaving : g.written = some false → ∀ t n r, t = Q.table → s.dirty t n = some (i, r) →
    Q.counts t r = true → ∃ r', s.committed t n = some r' ∧ Q.counts t r' = true
  single : g.written = some true → ∀ t m n r r', t = Q.table → s.dirty t m = some (i, r) →
    s.dirty t n = some (i, r') → m = n
  answer : ∀ c, g.answer = some c → k ≤ c
  checked : ∀ t n r, t = Q.table → s.dirty t n = some (i, r) → s.committed t n = none →
    Q.counts t r = true → ∃ c, g.answer = some c ∧ c < cap

variable {Q excluded} {cap : ℕ} {i j : ι} {g : Ghost} {k : ℕ}

omit [DecidableEq S.Query] [DecidableEq S.Table] in
/-- A session without uncommitted rows of the table, whatever it has counted. -/
lemma tracks_idle (hidle : ∀ t n r, t = Q.table → s.dirty t n ≠ some (i, r))
    (hw : g.written = none) (ha : ∀ c, g.answer = some c → k ≤ c) : Q.Tracks cap i g k s where
  idle := fun _ => hidle
  leaving := fun h => by
    rw [hw] at h
    cases h
  single := fun h => by
    rw [hw] at h
    cases h
  answer := ha
  checked := fun t n r ht hd => absurd hd (hidle t n r ht)

omit [DecidableEq S.Query] [DecidableEq S.Table] in
/-- Only the rows of the table matter. -/
lemma Tracks.congr (h : Q.Tracks cap i g k s)
    (hdirty : ∀ t n, t = Q.table → s'.dirty t n = s.dirty t n)
    (hcommitted : s'.committed = s.committed) : Q.Tracks cap i g k s' where
  idle := fun hw t n r ht => by
    rw [hdirty t n ht]
    exact h.idle hw t n r ht
  leaving := fun hw t n r ht => by
    rw [hdirty t n ht, hcommitted]
    exact h.leaving hw t n r ht
  single := fun hw t m n r r' ht => by
    rw [hdirty t m ht, hdirty t n ht]
    exact h.single hw t m n r r' ht
  answer := h.answer
  checked := fun t n r ht => by
    rw [hdirty t n ht, hcommitted]
    exact h.checked t n r ht

variable [DecidableEq ι]

omit [DecidableEq S.Query] [DecidableEq S.Table] in
/-- The statements of other sessions change nothing of it. -/
lemma Tracks.other (h : Q.Tracks cap i g k s) (hf : Frame i s s') : Q.Tracks cap i g k s' where
  idle := fun hw t n r ht hd => h.idle hw t n r ht ((hf.dirty t n r).mp hd)
  leaving := fun hw t n r ht hd hc => by
    have hd' := (hf.dirty t n r).mp hd
    rw [hf.committed t n r hd']
    exact h.leaving hw t n r ht hd' hc
  single := fun hw t m n r r' ht hm hn =>
    h.single hw t m n r r' ht ((hf.dirty t m r).mp hm) ((hf.dirty t n r').mp hn)
  answer := h.answer
  checked := fun t n r ht hd hnew => by
    have hd' := (hf.dirty t n r).mp hd
    rw [hf.committed t n r hd'] at hnew
    exact h.checked t n r ht hd' hnew

/-- The count after a statement of a session. -/
def recount (Q : Quota S) (excluded : ℕ → Bool) (k : ℕ) (s : Db S ι) : Sql S → ℕ
  | .scan q => if q = Q.query then Q.load excluded s else k
  | _ => k

omit [DecidableEq S.Table] in
lemma seen_self {tr : List (Event (sql S) ι (Db S ι))} {q : Sql S} :
    Q.seen excluded i (tr ++ [⟨i, q, s, s'⟩]) = Q.recount excluded (Q.seen excluded i tr) s q := by
  rw [seen, List.foldl_append]
  cases q with
  | scan q => simp [seen, recount]
  | _ => rfl

omit [DecidableEq S.Table] in
lemma seen_other {tr : List (Event (sql S) ι (Db S ι))} {ev : Event (sql S) ι (Db S ι)}
    (h : ev.pid ≠ i) : Q.seen excluded i (tr ++ [ev]) = Q.seen excluded i tr := by
  rw [seen, List.foldl_append]
  obtain ⟨j, q, s, s'⟩ := ev
  cases q with
  | scan q => simp [seen, show j ≠ i from h]
  | _ => rfl

omit [DecidableEq S.Query] in
/-- A matched `UPDATE` of the table. -/
lemma Tracks.update (h : Q.Tracks cap i g k s) {u : S.Update} {r : S.Row (S.target u)}
    (ht : S.target u = Q.table) (hw : s.written i u n = some r)
    (hallow : if Q.enters u then g.written = none else g.written ≠ some true) :
    Q.Tracks cap i { g with written := some (Q.enters u) } k (Db.effect i (.update u n) s) := by
  obtain ⟨-, r₀, hv, hg, rfl⟩ := Db.written_eq_some.mp hw
  have hcommitted : (Db.effect i (.update u n) s).committed = s.committed :=
    Db.committed_effect (by simp)
  -- an own version is the row just written, or was there before
  have hown : ∀ t m r', (Db.effect i (.update u n) s).dirty t m = some (i, r') →
      (m = n ∧ (⟨S.target u, (S.act u).set r₀⟩ : Σ t, S.Row t) = ⟨t, r'⟩)
        ∨ s.dirty t m = some (i, r') := by
    intro t m r' hd
    rw [Db.effect_update hw, Db.dirty_write] at hd
    rcases put_cases s.dirty (S.target u) n (some (i, (S.act u).set r₀)) t m with
      ⟨rfl, rfl, hp⟩ | ⟨-, hp⟩
    · rw [hp] at hd
      obtain ⟨-, rfl⟩ := Prod.mk.inj (Option.some.inj hd)
      exact Or.inl ⟨rfl, rfl⟩
    · exact Or.inr (hp ▸ hd)
  cases he : Q.enters u with
  | true =>
      rw [he, if_pos rfl] at hallow
      have hnone := h.idle hallow
      refine ⟨fun hc => (by cases hc), fun hc => (by cases hc), fun _ t m m' r₁ r₂ ht' hm hm' => ?_,
        h.answer, fun t m r' ht' hd hnew => ?_⟩
      · rcases hown t m r₁ hm with ⟨rfl, -⟩ | hold
        · rcases hown t m' r₂ hm' with ⟨rfl, -⟩ | hold
          · rfl
          · exact absurd hold (hnone t m' r₂ ht')
        · exact absurd hold (hnone t m r₁ ht')
      · rcases hown t m r' hd with ⟨rfl, heq⟩ | hold
        · -- the row written was committed before
          cases heq
          rw [Db.view_of_not_own fun r' => hnone _ m r' ht] at hv
          rw [hcommitted, hv] at hnew
          cases hnew
        · exact absurd hold (hnone t m r' ht')
  | false =>
      rw [he, if_neg (by simp)] at hallow
      have hbefore : ∀ t m r', t = Q.table → s.dirty t m = some (i, r') →
          Q.counts t r' = true → ∃ r'', s.committed t m = some r'' ∧ Q.counts t r'' = true := by
        intro t m r' ht' hd
        cases hw' : g.written with
        | none => exact absurd hd (h.idle hw' t m r' ht')
        | some b =>
            cases b with
            | true => exact absurd hw' hallow
            | false => exact h.leaving hw' t m r' ht' hd
      refine ⟨fun hc => (by cases hc), fun _ t m r' ht' hd hc => ?_, fun hc => (by cases hc),
        h.answer, fun t m r' ht' hd hnew hc => ?_⟩
      · rw [hcommitted]
        rcases hown t m r' hd with ⟨rfl, heq⟩ | hold
        · cases heq
          have hc₀ : Q.counts _ r₀ = true := Q.keeps_out u r₀ he hg hc
          rcases s.view_cases i (S.target u) m with ⟨r₁, hd₁, hv₁⟩ | ⟨-, hv₁⟩
          · obtain rfl := Option.some.inj (hv.symm.trans hv₁)
            exact hbefore _ m r₀ ht hd₁ hc₀
          · exact ⟨r₀, hv₁.symm.trans hv, hc₀⟩
        · exact hbefore t m r' ht' hold hc
      · rw [hcommitted] at hnew
        have hold : ∃ r'', s.dirty t m = some (i, r'') ∧ Q.counts t r'' = true := by
          rcases hown t m r' hd with ⟨rfl, heq⟩ | hold
          · cases heq
            have hc₀ : Q.counts _ r₀ = true := Q.keeps_out u r₀ he hg hc
            rcases s.view_cases i (S.target u) m with ⟨r₁, hd₁, hv₁⟩ | ⟨-, hv₁⟩
            · obtain rfl := Option.some.inj (hv.symm.trans hv₁)
              exact ⟨r₀, hd₁, hc₀⟩
            · rw [hnew, hv] at hv₁
              cases hv₁
          · exact ⟨r', hold, hc⟩
        obtain ⟨r'', hd'', hc''⟩ := hold
        exact h.checked t m r'' ht' hd'' hnew hc''

omit [DecidableEq S.Query] in
/-- An `INSERT` into the table. -/
lemma Tracks.insert (h : Q.Tracks cap i g k s) {x : S.Insert} (hw : g.written = none)
    (hcheck : Q.counts _ (S.new x) = true → ∃ c, g.answer = some c ∧ c < cap) :
    Q.Tracks cap i { g with written := some true } k (Db.effect i (.insert x) s) := by
  have hown : ∀ t m r', t = Q.table → (Db.effect i (.insert x) s).dirty t m = some (i, r') →
      m = s.fresh ∧ (⟨S.into x, S.new x⟩ : Σ t, S.Row t) = ⟨t, r'⟩ := by
    intro t m r' ht' hd
    rcases Db.dirty_effect_cases hd with
      ⟨hold, -⟩ | ⟨-, ⟨u, r₀, hq, -⟩ | ⟨x', hq, hm, heq⟩⟩
    · exact absurd hold (h.idle hw t m r' ht')
    · cases hq
    · obtain rfl := Sql.insert.inj hq
      exact ⟨hm, heq⟩
  refine ⟨fun hc => (by cases hc), fun hc => (by cases hc), fun _ t m m' r₁ r₂ ht' hm hm' => ?_,
    h.answer, fun t m r' ht' hd _ hc => ?_⟩
  · exact (hown t m r₁ ht' hm).1.trans (hown t m' r₂ ht' hm').1.symm
  · obtain ⟨-, heq⟩ := hown t m r' ht' hd
    cases heq
    exact hcheck hc

/-- **What a session does** keeps it, if the monitor allows it. -/
theorem Tracks.own (h : Q.Tracks cap i g k s) {q : Sql S} (hallow : (Q.monitor cap).allows g q) :
    Q.Tracks cap i ((Q.monitor cap).step g ⟨q, Db.answer i q s⟩) (Q.recount excluded k s q)
      (Db.effect i q s) := by
  have hreleased : ∀ t n r, s.release i t n ≠ some (i, r) :=
    fun t n r hd => (Db.release_eq_some.mp hd).1 rfl
  cases q with
  | select t n => exact h
  | now => exact ⟨h.idle, h.leaving, h.single, h.answer, h.checked⟩
  | commit =>
      exact tracks_idle (fun t n r _ => hreleased t n r) rfl fun c hc => by cases hc
  | rollback =>
      exact tracks_idle (fun t n r _ => hreleased t n r) rfl fun c hc => by cases hc
  | scan q =>
      by_cases hq : q = Q.query
      · subst hq
        have hw : g.written = none := hallow rfl
        simp only [monitor, recount, if_pos]
        refine tracks_idle (h.idle hw) hw fun c hc => ?_
        obtain rfl := Option.some.inj hc
        exact load_le_length fun n r => h.idle hw _ n r rfl
      · simp only [monitor, recount, if_neg hq]
        exact h
  | update u n =>
      cases hw : s.written i u n with
      | none =>
          simp only [monitor, recount, Db.answer, hw, Db.effect_update_of_none hw]
          simpa using h
      | some r =>
          by_cases ht : S.target u = Q.table
          · simp only [monitor, recount, Db.answer, hw, ht, Option.isSome_some, and_self, if_true]
            exact h.update ht hw (hallow ht)
          · simp only [monitor, recount, ht, false_and, if_false]
            refine h.congr ?_ (Db.committed_effect (by simp))
            rintro t m rfl
            rw [Db.effect_update hw, Db.dirty_write, put_of_ne_table _ _ _ _ (Ne.symm ht)]
  | insert x =>
      by_cases ht : S.into x = Q.table
      · simp only [monitor, recount, ht, if_true]
        exact h.insert (hallow ht).1 (hallow ht).2
      · simp only [monitor, recount, ht, if_false]
        refine h.congr ?_ (Db.committed_effect (by simp))
        rintro t m rfl
        rw [Db.effect, Db.dirty_write, put_of_ne_table _ _ _ _ (Ne.symm ht)]

/-! ### Commits -/

omit [DecidableEq S.Query] [DecidableEq S.Table] in
/-- What a commit leaves of the rows that count: those that its session sees. -/
lemma mem_counted_commit : n ∈ Q.counted excluded (s.commit i)
    ↔ excluded n = false ∧ ∃ r, s.view i Q.table n = some r ∧ Q.counts Q.table r = true :=
  mem_counted

/-- A row that the session `i` has written counts, and no version of it has counted yet. -/
def BringsIn (Q : Quota S) (i : ι) (s : Db S ι) (n : ℕ) : Prop :=
  (∃ r, s.dirty Q.table n = some (i, r) ∧ Q.counts Q.table r = true)
    ∧ ∀ r', s.committed Q.table n = some r' → Q.counts Q.table r' = false

omit [DecidableEq S.Query] [DecidableEq S.Table] in
/-- **A commit that brings in a row raises the load by one.** -/
theorem load_commit (h : Q.Tracks cap i g k s) (hn : Q.BringsIn i s n) (he : excluded n = false) :
    Q.load excluded (s.commit i) = Q.load excluded s + 1 := by
  obtain ⟨⟨r, hd, hc⟩, hnew⟩ := hn
  have hw : g.written = some true := by
    cases hw : g.written with
    | none => exact absurd hd (h.idle hw _ n r rfl)
    | some b =>
        cases b with
        | true => rfl
        | false =>
            obtain ⟨r', hr', hc'⟩ := h.leaving hw _ n r rfl hd hc
            rw [hnew r' hr'] at hc'
            cases hc'
  have hnot : n ∉ Q.counted excluded s := by
    intro hmem
    obtain ⟨-, r', hr', hc'⟩ := mem_counted.mp hmem
    rw [hnew r' hr'] at hc'
    cases hc'
  have hset : Q.counted excluded (s.commit i) = insert n (Q.counted excluded s) := by
    ext m
    rw [mem_counted_commit, Finset.mem_insert, mem_counted]
    by_cases hm : m = n
    · subst hm
      simp only [true_or, iff_true]
      exact ⟨he, r, Db.view_of_own hd, hc⟩
    · -- the session has written no other row
      have hview : s.view i Q.table m = s.committed Q.table m :=
        Db.view_of_not_own fun r' hd' => hm (h.single hw _ m n r' r rfl hd' hd)
      simp [hm, hview]
  rw [load, hset, Finset.card_insert_of_notMem hnot]
  rfl

omit [DecidableEq S.Query] [DecidableEq S.Table] in
/-- **A commit that brings in no row does not raise the load.** -/
theorem load_commit_le (h : ∀ n, excluded n = false → ¬ Q.BringsIn i s n) :
    Q.load excluded (s.commit i) ≤ Q.load excluded s := by
  refine Finset.card_le_card fun n hn => ?_
  obtain ⟨he, r, hv, hc⟩ := mem_counted_commit.mp hn
  rw [mem_counted]
  refine ⟨he, ?_⟩
  rcases s.view_cases i Q.table n with ⟨r', hd, hv'⟩ | ⟨-, hv'⟩
  · obtain rfl := Option.some.inj (hv.symm.trans hv')
    have hold := h n he
    rw [BringsIn, not_and] at hold
    have hold := hold ⟨r, hd, hc⟩
    push Not at hold
    simpa using hold
  · exact ⟨r, hv'.symm.trans hv, hc⟩

/-- **One commit**: the quota is kept exactly when it finds room. -/
theorem room_iff {tr : List (Event (sql S) ι (Db S ι))} {q : Sql S}
    (h : Q.Tracks cap i g (Q.seen excluded i tr) s) (hload : Q.load excluded s ≤ cap) :
    Q.Room cap excluded tr ⟨i, q, s, Db.effect i q s⟩
      ↔ Q.load excluded (Db.effect i q s) ≤ cap := by
  by_cases hq : q = .commit
  · subst hq
    simp only [Room, true_implies]
    show _ ↔ Q.load excluded (s.commit i) ≤ cap
    constructor
    · intro hroom
      by_cases hin : ∃ n, excluded n = false ∧ Q.BringsIn i s n
      · obtain ⟨n, he, hn⟩ := hin
        have hlt : Q.load excluded s < cap := by
          obtain ⟨⟨r, hd, hc⟩, hnew⟩ := hn
          have hr := hroom n r hd hc he
          cases hcom : s.committed Q.table n with
          | none =>
              rw [hcom] at hr
              simp only at hr
              omega
          | some r' =>
              rw [hcom] at hr
              exact hr (hnew r' hcom)
        have hup := load_commit h hn he
        omega
      · push Not at hin
        exact (load_commit_le hin).trans hload
    · intro hafter n r hd hc he
      cases hcom : s.committed Q.table n with
      | none =>
          have hup := load_commit h ⟨⟨r, hd, hc⟩, fun r' hr' => by rw [hcom] at hr'; cases hr'⟩ he
          -- the session has counted before it inserted the row
          obtain ⟨c, hans, hlt⟩ := h.checked _ n r rfl hd hcom hc
          have hseen := h.answer c hans
          simp only
          omega
      | some r' =>
          intro hr'
          have hup := load_commit h ⟨⟨r, hd, hc⟩, fun r'' hr'' => by
            rw [hcom] at hr''
            rw [← Option.some.inj hr'']
            exact hr'⟩ he
          omega
  · have hsame : Q.load excluded (Db.effect i q s) = Q.load excluded s :=
      load_congr (Db.committed_effect hq)
    rw [hsame]
    exact ⟨fun _ => hload, fun _ hc => absurd hc hq⟩

end Quota

/-! ### Runs -/

section Runs

variable [DecidableEq S.Table] [DecidableEq S.Query] [DecidableEq ι] {Q : Quota S} {cap : ℕ}
  {excluded : ℕ → Bool} {s : Db S ι} {procs : ι → Tx S ε α} {c : Pool (sql S) ι (Db S ι) ε α}

/-- Every session is tracked by its monitor. -/
lemma Pool.Reach.tracks {R : ι → Quota.Ghost → Except ε α → Prop}
    (h : Pool.Reach (server S ι) (.start procs s) c) (hs : s.Settled)
    (hp : ∀ i, (procs i).Obeys (Q.monitor cap) (R i) ⟨none, none⟩) (i : ι) :
    Q.Tracks cap i ((Q.monitor cap).of (server S ι) i c.trace) (Q.seen excluded i c.trace)
      c.store := by
  have hstep : ∀ (c₁ : Pool (sql S) ι (Db S ι) ε α) (j : ι) (q : Sql S),
      (∀ i, Q.Tracks cap i ((Q.monitor cap).of (server S ι) i c₁.trace)
        (Q.seen excluded i c₁.trace) c₁.store) →
      (Q.monitor cap).allows ((Q.monitor cap).of (server S ι) j c₁.trace) q →
      ∀ i, Q.Tracks cap i
        ((Q.monitor cap).of (server S ι) i
          (c₁.trace ++ [⟨j, q, c₁.store, Db.effect j q c₁.store⟩]))
        (Q.seen excluded i (c₁.trace ++ [⟨j, q, c₁.store, Db.effect j q c₁.store⟩]))
        (Db.effect j q c₁.store) := by
    intro c₁ j q hall hallow i
    by_cases hij : j = i
    · subst hij
      rw [Monitor.of_self, Quota.seen_self]
      exact (hall j).own hallow
    · rw [Monitor.of_other hij, Quota.seen_other hij]
      exact (hall i).other (frame_effect hij q c₁.store)
  induction h generalizing i with
  | refl =>
      refine Quota.tracks_idle (fun t n r _ hd => ?_) rfl fun c hc => by cases hc
      rw [Pool.start, hs t n] at hd
      cases hd
  | @tail c₁ c₂ m hr hm ih =>
      obtain ⟨-, hrest⟩ := hr.obeys hp fun _ => trivial
      rcases Pool.move_cases hm with ⟨j, q, k, hpj, -, rfl⟩ | ⟨j, -, rfl⟩
      · exact hstep c₁ j q ih (hrest j _ hpj).1 i
      · exact hstep c₁ j .rollback ih trivial i

/-- **The quota is kept in every committed state of a run exactly when every commit finds room.** -/
theorem Pool.Reach.within_iff {R : ι → Quota.Ghost → Except ε α → Prop}
    (h : Pool.Reach (server S ι) (.start procs s) c) (hs : s.Settled)
    (hload : Q.load excluded s ≤ cap)
    (hp : ∀ i, (procs i).Obeys (Q.monitor cap) (R i) ⟨none, none⟩) :
    Along (Q.Room cap excluded) c.trace ↔ ∀ ev ∈ c.trace, Q.load excluded ev.after ≤ cap := by
  have hsnoc : ∀ (c₁ : Pool (sql S) ι (Db S ι) ε α) (j : ι) (q : Sql S),
      Pool.Reach (server S ι) (.start procs s) c₁ →
      ((Along (Q.Room cap excluded) c₁.trace ↔ ∀ ev ∈ c₁.trace, Q.load excluded ev.after ≤ cap)
        ∧ ((∀ ev ∈ c₁.trace, Q.load excluded ev.after ≤ cap) →
          Q.load excluded c₁.store ≤ cap)) →
      ((Along (Q.Room cap excluded) (c₁.trace ++ [⟨j, q, c₁.store, Db.effect j q c₁.store⟩])
          ↔ ∀ ev ∈ c₁.trace ++ [⟨j, q, c₁.store, Db.effect j q c₁.store⟩],
              Q.load excluded ev.after ≤ cap)
        ∧ ((∀ ev ∈ c₁.trace ++ [⟨j, q, c₁.store, Db.effect j q c₁.store⟩],
              Q.load excluded ev.after ≤ cap) →
            Q.load excluded (Db.effect j q c₁.store) ≤ cap)) := by
    intro c₁ j q hr ⟨hiff, hstore⟩
    refine ⟨?_, fun hall => hall _ (List.mem_append_right _ (List.mem_singleton_self _))⟩
    rw [along_snoc, hiff]
    simp only [List.mem_append, List.mem_singleton, or_imp, forall_and, forall_eq]
    exact and_congr_right fun hall => Quota.room_iff (hr.tracks hs hp j) (hstore hall)
  have hboth : (Along (Q.Room cap excluded) c.trace
        ↔ ∀ ev ∈ c.trace, Q.load excluded ev.after ≤ cap)
      ∧ ((∀ ev ∈ c.trace, Q.load excluded ev.after ≤ cap) → Q.load excluded c.store ≤ cap) := by
    induction h with
    | refl => exact ⟨⟨fun _ ev hev => (by cases hev), fun _ => trivial⟩, fun _ => hload⟩
    | @tail c₁ c₂ m hr hm ih =>
        rcases Pool.move_cases hm with ⟨j, q, k, -, -, rfl⟩ | ⟨j, -, rfl⟩
        · exact hsnoc c₁ j q hr ih
        · exact hsnoc c₁ j .rollback hr ih
  exact hboth.1

end Runs

end Txn
