import AgencyOS.Txn.Store

/-!
A store with partial unique indexes.

An index gives some rows of a table a key; no two rows of the table may have one key.  A session
that is about to write a row with a key that some other row may come to have, or may lose, when
another open transaction ends, waits for that transaction; if another row has the key for certain,
the statement is refused and writes nothing.

* `Index`: the key of a row, if the row is in the index of its table;
* `Db.awaits`, `Db.refuses`, `indexedServer`: when a write waits and when it is refused;
* `Unique`, `Unique.effect`, `Pool.Reach.unique`: whatever programs run, no two committed rows
  have one key, and no session ever sees two rows of one key;
* `executeOr`, `meets_executeOr`: one statement that raises when it is refused;
* `Server.solo`: a program run to its end with nobody else on the store.
-/

namespace Txn

variable {S : Schema} {ι κ ε α β : Type}

/-- The key under which a row stands in the index of its table; `none` for a row that the
predicate of the index leaves out. -/
abbrev Index (S : Schema) (κ : Type) : Type := (t : S.Table) → S.Row t → Option κ

/-- The answer of a statement refused for a key that another row has. -/
inductive Violation where
  | duplicateKey
  deriving DecidableEq, Repr

/-- The statements of a session on an indexed store: each may be refused. -/
@[reducible] def indexedSql (S : Schema) : Signature := ⟨Sql S, fun q => Except Violation q.Resp⟩

namespace Db

section Checks

variable [DecidableEq ι] [DecidableEq κ]

/-- The version that a statement of session `i` is about to write, with its table and id. -/
def attempt (i : ι) : Sql S → Db S ι → Option (Σ t : S.Table, ℕ × S.Row t)
  | .update u n, s => (s.written i u n).map fun r => ⟨S.target u, n, r⟩
  | .insert x, s => some ⟨S.into x, s.fresh, S.new x⟩
  | _, _ => none

/-- Some row other than `n` has, for session `i`, the key of the version `r`. -/
def taken (key : Index S κ) (s : Db S ι) (i : ι) (t : S.Table) (n : ℕ) (r : S.Row t) : Bool :=
  (key t r).any fun k => (List.range s.fresh).any fun m =>
    m ≠ n && (s.view i t m).any fun r' => key t r' = some k

/-- Some row other than `n` that another session holds has the key of the version `r`, as it was
committed or as it may be committed. -/
def contested (key : Index S κ) (s : Db S ι) (i : ι) (t : S.Table) (n : ℕ) (r : S.Row t) : Bool :=
  (key t r).any fun k => (List.range s.fresh).any fun m =>
    m ≠ n && (s.dirty t m).any fun d =>
      d.1 ≠ i && (key t d.2 = some k || (s.committed t m).any fun r' => key t r' = some k)

/-- A write waits while its key is contested. -/
def awaits (key : Index S κ) (i : ι) (q : Sql S) (s : Db S ι) : Bool :=
  (attempt i q s).any fun w => s.contested key i w.1 w.2.1 w.2.2

/-- A write is refused if its key is taken. -/
def refuses (key : Index S κ) (i : ι) (q : Sql S) (s : Db S ι) : Bool :=
  (attempt i q s).any fun w => s.taken key i w.1 w.2.1 w.2.2

variable {key : Index S κ} {s : Db S ι} {i : ι} {t : S.Table} {n : ℕ} {r : S.Row t}

lemma taken_eq_true : s.taken key i t n r = true
    ↔ ∃ k m r', key t r = some k ∧ m ≠ n ∧ s.view i t m = some r' ∧ key t r' = some k := by
  simp only [taken, Option.any_eq_true, List.any_eq_true, List.mem_range, Bool.and_eq_true,
    decide_eq_true_eq]
  constructor
  · rintro ⟨k, hk, m, -, hm, r', hv, hr'⟩
    exact ⟨k, m, r', hk, hm, hv, hr'⟩
  · rintro ⟨k, m, r', hk, hm, hv, hr'⟩
    exact ⟨k, hk, m, lt_fresh_of_view hv, hm, r', hv, hr'⟩

lemma contested_eq_true : s.contested key i t n r = true
    ↔ ∃ k m j r', key t r = some k ∧ m ≠ n ∧ s.dirty t m = some (j, r') ∧ j ≠ i
        ∧ (key t r' = some k ∨ ∃ r'', s.committed t m = some r'' ∧ key t r'' = some k) := by
  simp only [contested, Option.any_eq_true, List.any_eq_true, List.mem_range, Bool.and_eq_true,
    Bool.or_eq_true, decide_eq_true_eq]
  constructor
  · rintro ⟨k, hk, m, -, hm, ⟨j, r'⟩, hd, hj, hkey⟩
    exact ⟨k, m, j, r', hk, hm, hd, hj, hkey⟩
  · rintro ⟨k, m, j, r', hk, hm, hd, hj, hkey⟩
    exact ⟨k, hk, m, lt_fresh_of_dirty hd, hm, (j, r'), hd, hj, hkey⟩

end Checks

end Db

/-- The READ COMMITTED server with indexes: a write waits while its key is contested, and is
refused if its key is taken; a lost session is rolled back. -/
def indexedServer (key : Index S κ) (ι : Type) [DecidableEq S.Table] [DecidableEq ι]
    [DecidableEq κ] : Server (indexedSql S) ι (Db S ι) where
  ready := fun i q s => Db.ready i q s && !Db.awaits key i q s
  answer := fun i q s =>
    if Db.refuses key i q s then .error .duplicateKey else .ok (Db.answer i q s)
  effect := fun i q s => if Db.refuses key i q s then s else Db.effect i q s
  hangup := .rollback

/-! ### One row a key -/

/-- No two rows have one key: not among the committed versions, nor among the uncommitted ones;
and if an uncommitted version has the key of another committed row, its session holds that row. -/
structure Unique (key : Index S κ) (s : Db S ι) : Prop where
  committed : ∀ t m n r r' k, s.committed t m = some r → s.committed t n = some r' →
    key t r = some k → key t r' = some k → m = n
  dirty : ∀ t m n i j r r' k, s.dirty t m = some (i, r) → s.dirty t n = some (j, r') →
    key t r = some k → key t r' = some k → m = n
  cross : ∀ t m n i r r' k, s.dirty t m = some (i, r) → s.committed t n = some r' →
    key t r = some k → key t r' = some k → m ≠ n → ∃ r'', s.dirty t n = some (i, r'')

section Unique

variable [DecidableEq ι] {key : Index S κ} {s : Db S ι} {i : ι} {t : S.Table} {m n : ℕ}
  {r r' : S.Row t} {k : κ}

/-- **No session sees two rows of one key.** -/
theorem Unique.view (h : Unique key s) (hm : s.view i t m = some r) (hn : s.view i t n = some r')
    (hr : key t r = some k) (hr' : key t r' = some k) : m = n := by
  by_contra hne
  rcases s.view_cases i t m with ⟨r₁, hd, hv⟩ | ⟨hown, hv⟩ <;>
    rcases s.view_cases i t n with ⟨r₂, hd', hv'⟩ | ⟨hown', hv'⟩
  · obtain rfl := Option.some.inj (hm.symm.trans hv)
    obtain rfl := Option.some.inj (hn.symm.trans hv')
    exact hne (h.dirty t m n i i r r' k hd hd' hr hr')
  · obtain rfl := Option.some.inj (hm.symm.trans hv)
    obtain ⟨r₃, hd₃⟩ := h.cross t m n i r r' k hd (hv' ▸ hn) hr hr' hne
    exact hown' r₃ hd₃
  · obtain rfl := Option.some.inj (hn.symm.trans hv')
    obtain ⟨r₃, hd₃⟩ := h.cross t n m i r' r k hd' (hv ▸ hm) hr' hr (Ne.symm hne)
    exact hown r₃ hd₃
  · exact hne (h.committed t m n r r' k (hv ▸ hm) (hv' ▸ hn) hr hr')

omit [DecidableEq ι] in
/-- On a settled store only the committed rows count. -/
lemma Db.Settled.unique (hs : s.Settled) (hc : ∀ t m n r r' k, s.committed t m = some r →
    s.committed t n = some r' → key t r = some k → key t r' = some k → m = n) :
    Unique key s where
  committed := hc
  dirty := fun t m n i j r r' k hd => by
    rw [hs] at hd
    cases hd
  cross := fun t m n i r r' k hd => by
    rw [hs] at hd
    cases hd

lemma Unique.commit (h : Unique key s) : Unique key (s.commit i) where
  committed := fun t m n r r' k hm hn hr hr' => h.view hm hn hr hr'
  dirty := fun t m n j j' r r' k hm hn hr hr' =>
    h.dirty t m n j j' r r' k (Db.release_eq_some.mp hm).2 (Db.release_eq_some.mp hn).2 hr hr'
  cross := fun t m n j r r' k hm hn hr hr' hne => by
    obtain ⟨hj, hd⟩ := Db.release_eq_some.mp hm
    rcases s.view_cases i t n with ⟨r₁, hd₁, hv⟩ | ⟨-, hv⟩
    · obtain rfl := Option.some.inj (hn.symm.trans hv)
      exact absurd (h.dirty t m n j i r r' k hd hd₁ hr hr') hne
    · obtain ⟨r₂, hd₂⟩ := h.cross t m n j r r' k hd (hv ▸ hn) hr hr' hne
      exact ⟨r₂, Db.release_eq_some.mpr ⟨hj, hd₂⟩⟩

lemma Unique.rollback (h : Unique key s) : Unique key (s.rollback i) where
  committed := h.committed
  dirty := fun t m n j j' r r' k hm hn hr hr' =>
    h.dirty t m n j j' r r' k (Db.release_eq_some.mp hm).2 (Db.release_eq_some.mp hn).2 hr hr'
  cross := fun t m n j r r' k hm hn hr hr' hne => by
    obtain ⟨hj, hd⟩ := Db.release_eq_some.mp hm
    obtain ⟨r₂, hd₂⟩ := h.cross t m n j r r' k hd hn hr hr' hne
    exact ⟨r₂, Db.release_eq_some.mpr ⟨hj, hd₂⟩⟩

variable [DecidableEq S.Table] [DecidableEq κ]

/-- A write whose key is neither contested nor taken keeps the keys apart. -/
lemma Unique.write (h : Unique key s) (hlock : s.heldByOther i t n = false)
    (hwait : s.contested key i t n r = false) (hfree : s.taken key i t n r = false) :
    Unique key (s.write i t n r) := by
  -- no other row has the key of the new version, now or after any open transaction
  have hdirty : ∀ m j r' k, m ≠ n → s.dirty t m = some (j, r') → key t r = some k →
      key t r' ≠ some k := by
    intro m j r' k hm hd hr hr'
    by_cases hj : j = i
    · subst hj
      have := Db.taken_eq_true.mpr ⟨k, m, r', hr, hm, Db.view_of_own hd, hr'⟩
      rw [hfree] at this
      cases this
    · have := Db.contested_eq_true.mpr ⟨k, m, j, r', hr, hm, hd, hj, Or.inl hr'⟩
      rw [hwait] at this
      cases this
  have hcommitted : ∀ m r' k, m ≠ n → s.committed t m = some r' → key t r = some k →
      key t r' = some k → ∃ r'', s.dirty t m = some (i, r'') := by
    intro m r' k hm hc hr hr'
    cases hd : s.dirty t m with
    | none =>
        have hv : s.view i t m = some r' := by
          rw [Db.view_of_not_own (by simp [hd]), hc]
        have := Db.taken_eq_true.mpr ⟨k, m, r', hr, hm, hv, hr'⟩
        rw [hfree] at this
        cases this
    | some d =>
        obtain ⟨j, r₁⟩ := d
        by_cases hj : j = i
        · exact ⟨r₁, by rw [hj]⟩
        · have := Db.contested_eq_true.mpr ⟨k, m, j, r₁, hr, hm, hd, hj, Or.inr ⟨r', hc, hr'⟩⟩
          rw [hwait] at this
          cases this
  refine ⟨h.committed, ?_, ?_⟩
  · intro t' m m' j j' r₁ r₂ k hm hm' h₁ h₂
    rw [Db.dirty_write] at hm hm'
    rcases put_cases s.dirty t n (some (i, r)) t' m with ⟨rfl, rfl, hp⟩ | ⟨-, hp⟩
    · rw [hp] at hm
      obtain ⟨-, rfl⟩ := Prod.mk.inj (Option.some.inj hm)
      by_contra hne
      rw [put_of_ne_id _ _ _ (Ne.symm hne)] at hm'
      exact hdirty m' j' r₂ k (Ne.symm hne) hm' h₁ h₂
    · rw [hp] at hm
      rcases put_cases s.dirty t n (some (i, r)) t' m' with ⟨rfl, rfl, hp'⟩ | ⟨-, hp'⟩
      · rw [hp'] at hm'
        obtain ⟨-, rfl⟩ := Prod.mk.inj (Option.some.inj hm')
        by_contra hne
        exact hdirty m j r₁ k hne hm h₂ h₁
      · exact h.dirty t' m m' j j' r₁ r₂ k hm (hp' ▸ hm') h₁ h₂
  · intro t' m m' j r₁ r₂ k hm hc h₁ h₂ hne
    rw [Db.dirty_write] at hm ⊢
    rcases put_cases s.dirty t n (some (i, r)) t' m with ⟨rfl, rfl, hp⟩ | ⟨hother, hp⟩
    · rw [hp] at hm
      obtain ⟨rfl, rfl⟩ := Prod.mk.inj (Option.some.inj hm)
      obtain ⟨r₃, hd₃⟩ := hcommitted m' r₂ k (Ne.symm hne) hc h₁ h₂
      exact ⟨r₃, by rw [put_of_ne_id _ _ _ (Ne.symm hne), hd₃]⟩
    · rw [hp] at hm
      obtain ⟨r₃, hd₃⟩ := h.cross t' m m' j r₁ r₂ k hm hc h₁ h₂ hne
      rcases put_cases s.dirty t n (some (i, r)) t' m' with ⟨rfl, rfl, hp'⟩ | ⟨-, hp'⟩
      · -- the session that held the row is the one that writes it now
        obtain rfl : j = i := by
          by_contra hj
          have := Db.heldByOther_eq_true.mpr ⟨j, r₃, hj, hd₃⟩
          rw [hlock] at this
          cases this
        exact ⟨r, hp'⟩
      · exact ⟨r₃, hp'.trans hd₃⟩

/-- **A statement keeps the keys apart**, whatever it is. -/
theorem Unique.effect (h : Unique key s) {q : Sql S}
    (hready : (indexedServer key ι).ready i q s = true) :
    Unique key ((indexedServer key ι).effect i q s) := by
  obtain ⟨-, hwait⟩ : Db.ready i q s = true ∧ Db.awaits key i q s = false := by
    simpa [indexedServer] using hready
  by_cases hfree : Db.refuses key i q s = true
  · simpa [indexedServer, hfree] using h
  · simp only [indexedServer, hfree]
    rw [Bool.not_eq_true] at hfree
    cases q with
    | update u n =>
        cases hw : s.written i u n with
        | none => simpa [Db.effect_update_of_none hw] using h
        | some r =>
            simp only [Db.awaits, Db.refuses, Db.attempt, hw, Option.map_some, Option.any_some]
              at hwait hfree
            simpa [Db.effect_update hw] using
              h.write (Db.written_eq_some.mp hw).1 hwait hfree
    | insert x =>
        have hlock : s.heldByOther i (S.into x) s.fresh = false := by
          simp [Db.heldByOther, (s.alloc (S.into x) s.fresh le_rfl).2]
        exact h.write hlock hwait hfree
    | commit => exact h.commit
    | rollback => exact h.rollback
    | select t n => exact h
    | scan q => exact h
    | now => exact ⟨h.committed, h.dirty, h.cross⟩

/-- **One row a key in every run**: whatever programs run concurrently, the keys stay apart. -/
theorem Pool.Reach.unique {procs : ι → Prog (indexedSql S) ε α}
    {c : Pool (indexedSql S) ι (Db S ι) ε α} (h : Unique key s)
    (hc : Pool.Reach (indexedServer key ι) (.start procs s) c) : Unique key c.store :=
  (Pool.Reach.issues (fun _ _ => True) (Unique key) (fun _ _ _ _ hr hs => hs.effect hr)
    (fun _ => trivial) (fun i => (procs i).issues_true) h hc).1

end Unique

/-! ### Statements that may be refused -/

/-- One statement; a refused one raises. -/
def executeOr (refused : ε) (q : Sql S) : Prog (indexedSql S) ε q.Resp :=
  .call q fun
    | .ok answer => .ret answer
    | .error _ => .raise refused

section Execute

variable [DecidableEq S.Table] [DecidableEq ι] [DecidableEq κ] {key : Index S κ} {i j : ι}
  {s : Db S ι}

@[simp] lemma indexedServer_commit (key : Index S κ) (i : ι) (s : Db S ι) :
    (indexedServer key ι).effect i .commit s = s.commit i := rfl

@[simp] lemma indexedServer_rollback (key : Index S κ) (i : ι) (s : Db S ι) :
    (indexedServer key ι).effect i .rollback s = s.rollback i := rfl

/-- A statement is refused and changes nothing, or it is executed. -/
lemma indexedServer_effect_cases (key : Index S κ) (i : ι) (q : Sql S) (s : Db S ι) :
    (indexedServer key ι).effect i q s = s
      ∨ (indexedServer key ι).effect i q s = Db.effect i q s := by
  by_cases hrefused : Db.refuses key i q s = true
  · exact Or.inl (by simp [indexedServer, hrefused])
  · exact Or.inr (by simp [indexedServer, hrefused])

/-- A statement of one session leaves every other session alone, refused or not. -/
theorem frame_indexed (hij : j ≠ i) (q : Sql S) (s : Db S ι) :
    Frame i s ((indexedServer key ι).effect j q s) := by
  rcases indexedServer_effect_cases key j q s with h | h
  · rw [h]
  · rw [h]
    exact frame_effect hij q s

/-- One statement on an indexed store: it raised, or it was executed on a store of which `P` held,
and the others have interfered since. -/
theorem meets_executeOr {K : Contract (indexedSql S) ι (Db S ι)}
    {refused : ε} {q : Sql S}
    {h : List (Event (indexedSql S) ι (Db S ι))} {P : Db S ι → Prop}
    (hstep : ∀ tr s₁, own i tr = h → K.rely i h s s₁ → K.inv tr s₁ →
      (indexedServer key ι).ready i q s₁ = true →
      K.assume tr ⟨i, q, s₁, (indexedServer key ι).effect i q s₁⟩ →
      K.inv (tr ++ [⟨i, q, s₁, (indexedServer key ι).effect i q s₁⟩])
          ((indexedServer key ι).effect i q s₁)
        ∧ K.guar i h ⟨i, q, s₁, (indexedServer key ι).effect i q s₁⟩ ∧ P s₁) :
    Meets K (indexedServer key ι) i
      (fun h' r s' => r = .error refused ∨ ∃ s₁, P s₁
        ∧ h' = h ++ [⟨i, q, s₁, Db.effect i q s₁⟩] ∧ r = .ok (Db.answer i q s₁)
        ∧ K.rely i h' (Db.effect i q s₁) s')
      (executeOr refused q) h s := by
  intro tr s₁ ht hr hI hready has
  obtain ⟨hI', hg, hP⟩ := hstep tr s₁ ht hr hI hready has
  refine ⟨hI', hg, ?_⟩
  by_cases hrefused : Db.refuses key i q s₁ = true
  · simp only [indexedServer, hrefused, if_true]
    exact fun _ _ _ _ _ => Or.inl rfl
  · simp only [indexedServer, hrefused]
    exact fun _ s₂ _ hr' _ => Or.inr ⟨s₁, hP, rfl, rfl, hr'⟩

end Execute

/-! ### Programs run alone -/

section Solo

variable {Sg : Signature} {σ : Type}

/-- The result and the store of a program run to its end with nobody else on the store. -/
def Server.solo (srv : Server Sg ι σ) (i : ι) : Prog Sg ε α → σ → Except ε α × σ
  | .ret a, s => (.ok a, s)
  | .raise e, s => (.error e, s)
  | .call q k, s => srv.solo i (k (srv.answer i q s)) (srv.effect i q s)

variable (srv : Server Sg ι σ) (i : ι)

@[simp] lemma Server.solo_ret (a : α) (s : σ) :
    srv.solo i (.ret a : Prog Sg ε α) s = (.ok a, s) := rfl

@[simp] lemma Server.solo_raise (e : ε) (s : σ) :
    srv.solo i (.raise e : Prog Sg ε α) s = (.error e, s) := rfl

@[simp] lemma Server.solo_call (q : Sg.Stmt) (k : Sg.Resp q → Prog Sg ε α) (s : σ) :
    srv.solo i (.call q k) s = srv.solo i (k (srv.answer i q s)) (srv.effect i q s) := rfl

lemma Server.solo_bind (p : Prog Sg ε β) (f : β → Prog Sg ε α) (s : σ) :
    srv.solo i (p.bind f) s = match srv.solo i p s with
      | (.ok b, s') => srv.solo i (f b) s'
      | (.error e, s') => (.error e, s') := by
  induction p generalizing s with
  | ret b => rfl
  | raise e => rfl
  | call q k ih => exact ih _ _

lemma Server.solo_bind_of_ok {p : Prog Sg ε β} {f : β → Prog Sg ε α} {s s' : σ} {b : β}
    (h : srv.solo i p s = (.ok b, s')) : srv.solo i (p.bind f) s = srv.solo i (f b) s' := by
  rw [srv.solo_bind, h]

lemma Server.solo_tryCatch_of_ok {p : Prog Sg ε α} {g : ε → Prog Sg ε α} {s s' : σ} {a : α}
    (h : srv.solo i p s = (.ok a, s')) : srv.solo i (p.tryCatch g) s = (.ok a, s') := by
  induction p generalizing s with
  | ret b => exact h
  | raise e =>
      rw [srv.solo_raise] at h
      cases h
  | call q k ih => exact ih _ h

end Solo

end Txn
