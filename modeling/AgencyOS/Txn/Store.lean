import AgencyOS.Txn.Rely

/-!
A store of tables under READ COMMITTED.

Every table has rows under numeric ids.  A session reads what was committed when the
statement ran, overlaid with its own uncommitted writes; an `UPDATE` of a row takes the lock
of the row, waits while another session holds it, and evaluates its `WHERE` on the latest
committed version once it has it.  The uncommitted version of a row is stored together with
the session that holds its lock, so no two sessions can ever hold one row.

* `GuardedUpdate`: an `UPDATE .. WHERE guard SET set` on one row;
* `Schema`: the tables of a store, and the `UPDATE`s, `INSERT`s and bulk reads put to them;
* `Db`, `Sql`, `server`: the store, the statements and their execution;
* `Frame`, `frame_effect`: what the statements of one session leave alone for another;
* `Ahead`: how uncommitted versions stand to the committed ones;
* `Rows`, `Rows.effect`: a property of every committed and uncommitted row, kept by statements that
  write only such rows;
* `alone`: an operation run to its end with nobody else on the store, and `reach_alone`.
-/

namespace Txn

/-- An `UPDATE` of one row: the `WHERE` condition beyond the key, and the new values. -/
structure GuardedUpdate (ρ : Type) where
  guard : ρ → Bool
  set : ρ → ρ

namespace GuardedUpdate

variable {ρ : Type}

/-- The row after the `UPDATE`: rewritten if it meets the condition, unchanged otherwise. -/
def step (u : GuardedUpdate ρ) (r : ρ) : ρ := if u.guard r then u.set r else r

lemma step_of_guard {u : GuardedUpdate ρ} {r : ρ} (h : u.guard r = true) :
    u.step r = u.set r := if_pos h

lemma step_of_not_guard {u : GuardedUpdate ρ} {r : ρ} (h : u.guard r = false) :
    u.step r = r := by simp [step, h]

end GuardedUpdate

/-- The wall clock: the value of the `n`-th reading.  Any amount of time may pass between two
readings, and time never goes back. -/
structure Clock where
  read : ℕ → ℕ
  mono : Monotone read

/-- A clock that stands still. -/
def Clock.still (t : ℕ) : Clock := ⟨fun _ => t, monotone_const⟩

variable {T ι ε α : Type}

/-- A family of tables with one entry replaced. -/
def put [DecidableEq T] {β : T → Type} (f : (t : T) → ℕ → Option (β t)) (t : T) (n : ℕ)
    (v : Option (β t)) : (t : T) → ℕ → Option (β t) :=
  Function.update f t (Function.update (f t) n v)

section Put

variable [DecidableEq T] {β : T → Type} (f : (t : T) → ℕ → Option (β t))

@[simp] lemma put_self (t : T) (n : ℕ) (v : Option (β t)) : put f t n v t n = v := by
  simp [put]

@[simp] lemma put_of_ne_id (t : T) {n n' : ℕ} (v : Option (β t)) (h : n' ≠ n) :
    put f t n v t n' = f t n' := by
  simp [put, h]

@[simp] lemma put_of_ne_table {t t' : T} (n n' : ℕ) (v : Option (β t)) (h : t' ≠ t) :
    put f t n v t' n' = f t' n' := by
  simp [put, h]

/-- An entry of a replaced family is the new one or an old one. -/
lemma put_cases (t : T) (n : ℕ) (v : Option (β t)) (t' : T) (n' : ℕ) :
    (∃ h : t' = t, n' = n ∧ put f t n v t' n' = h ▸ v)
      ∨ (¬ (t' = t ∧ n' = n) ∧ put f t n v t' n' = f t' n') := by
  by_cases ht : t' = t
  · subst ht
    by_cases hn : n' = n
    · subst hn
      exact Or.inl ⟨rfl, rfl, by simp⟩
    · exact Or.inr ⟨fun h => hn h.2, put_of_ne_id f t' v hn⟩
  · exact Or.inr ⟨fun h => ht h.1, put_of_ne_table f n n' v ht⟩

end Put

/-- The tables of a store with their rows, and the statements that its programs put to them:
`UPDATE`s of one row by key, `INSERT`s and bulk reads, each with its arguments. -/
structure Schema where
  Table : Type
  Row : Table → Type
  Update : Type
  target : Update → Table
  act : (u : Update) → GuardedUpdate (Row (target u))
  Insert : Type
  into : Insert → Table
  new : (x : Insert) → Row (into x)
  Query : Type
  source : Query → Table
  matching : (q : Query) → Row (source q) → Bool

/-- The store: the committed rows, the uncommitted version of each locked row with the session
that holds the lock, the next id to be drawn, and the clock with the readings made so far.
No row stands under an id that has not been drawn. -/
structure Db (S : Schema) (ι : Type) where
  committed : (t : S.Table) → ℕ → Option (S.Row t)
  dirty : (t : S.Table) → ℕ → Option (ι × S.Row t)
  fresh : ℕ
  clock : Clock
  ticks : ℕ
  alloc : ∀ t n, fresh ≤ n → committed t n = none ∧ dirty t n = none

variable {S : Schema}

/-- A store with nothing but committed rows. -/
def Db.init (committed : (t : S.Table) → ℕ → Option (S.Row t)) (fresh : ℕ) (clock : Clock)
    (h : ∀ t n, fresh ≤ n → committed t n = none) : Db S ι where
  committed := committed
  dirty := fun _ _ => none
  fresh := fresh
  clock := clock
  ticks := 0
  alloc := fun t n hn => ⟨h t n hn, rfl⟩

/-- A store on which no transaction is open. -/
def Db.Settled (s : Db S ι) : Prop := ∀ t n, s.dirty t n = none

lemma Db.settled_init (committed : (t : S.Table) → ℕ → Option (S.Row t)) (fresh : ℕ) (clock : Clock)
    (h : ∀ t n, fresh ≤ n → committed t n = none) :
    (Db.init committed fresh clock h : Db S ι).Settled := fun _ _ => rfl

/-- The statements of a session. -/
inductive Sql (S : Schema) where
  | select (t : S.Table) (n : ℕ)
  | scan (q : S.Query)
  | update (u : S.Update) (n : ℕ)
  | insert (x : S.Insert)
  | now
  | commit
  | rollback

instance (q : Sql S) : Decidable (q = .commit) :=
  match q with
  | .commit => .isTrue rfl
  | .select .. | .scan _ | .update .. | .insert _ | .now | .rollback => .isFalse (by simp)

/-- The type of the answer to a statement: the row read, the rows matched with their ids, the
row rewritten (`RETURNING`), the id inserted, the time. -/
@[reducible] def Sql.Resp : Sql S → Type
  | .select t _ => Option (S.Row t)
  | .scan q => List (ℕ × S.Row (S.source q))
  | .update u _ => Option (S.Row (S.target u))
  | .insert _ => ℕ
  | .now => ℕ
  | .commit => Unit
  | .rollback => Unit

/-- The statements of a session as a signature. -/
@[reducible] def sql (S : Schema) : Signature := ⟨Sql S, Sql.Resp⟩

/-- A transactional program: statements, exceptions `ε`, a result. -/
abbrev Tx (S : Schema) (ε α : Type) : Type := Prog (sql S) ε α

namespace Tx

/-- `SELECT .. WHERE id = n`. -/
def select (t : S.Table) (n : ℕ) : Tx S ε (Option (S.Row t)) := .call (.select t n) .ret

/-- A bulk read, in the order of the ids. -/
def scan (q : S.Query) : Tx S ε (List (ℕ × S.Row (S.source q))) := .call (.scan q) .ret

/-- `UPDATE .. WHERE id = n AND guard .. RETURNING`. -/
def update (u : S.Update) (n : ℕ) : Tx S ε (Option (S.Row (S.target u))) :=
  .call (.update u n) .ret

/-- `INSERT`, with the fresh id returned. -/
def insert (x : S.Insert) : Tx S ε ℕ := .call (.insert x) .ret

/-- A reading of the clock. -/
def now : Tx S ε ℕ := .call .now .ret

def commit : Tx S ε Unit := .call .commit .ret

def rollback : Tx S ε Unit := .call .rollback .ret

/-- `async with session`: whatever is still uncommitted when the body ends is rolled back. -/
def withSession (p : Tx S ε α) : Tx S ε α :=
  (p.bind fun a => rollback.bind fun _ => .ret a).tryCatch fun e =>
    rollback.bind fun _ => .raise e

end Tx

namespace Db

variable [DecidableEq ι]

/-- The version of a row that session `i` sees: its own uncommitted one, else the committed. -/
def view (s : Db S ι) (i : ι) (t : S.Table) (n : ℕ) : Option (S.Row t) :=
  match s.dirty t n with
  | some (j, r) => if j = i then some r else s.committed t n
  | none => s.committed t n

/-- Another session holds the lock of the row. -/
def heldByOther (s : Db S ι) (i : ι) (t : S.Table) (n : ℕ) : Bool :=
  match s.dirty t n with
  | some (j, _) => decide (j ≠ i)
  | none => false

/-- The row an `UPDATE` of session `i` writes, if it matches one. -/
def written (s : Db S ι) (i : ι) (u : S.Update) (n : ℕ) : Option (S.Row (S.target u)) :=
  if s.heldByOther i (S.target u) n then none
  else (s.view i (S.target u) n).bind fun r =>
    if (S.act u).guard r then some ((S.act u).set r) else none

/-- Session `i` writes an uncommitted version of a row. -/
def write [DecidableEq S.Table] (s : Db S ι) (i : ι) (t : S.Table) (n : ℕ) (r : S.Row t) : Db S ι where
  committed := s.committed
  dirty := put s.dirty t n (some (i, r))
  fresh := max s.fresh (n + 1)
  clock := s.clock
  ticks := s.ticks
  alloc := fun t' n' h => by
    refine ⟨(s.alloc t' n' (by omega)).1, ?_⟩
    rcases put_cases s.dirty t n (some (i, r)) t' n' with ⟨rfl, rfl, -⟩ | ⟨-, h'⟩
    · omega
    · rw [h']
      exact (s.alloc t' n' (by omega)).2

/-- The locks of session `i` released and its uncommitted versions forgotten. -/
def release (s : Db S ι) (i : ι) (t : S.Table) (n : ℕ) : Option (ι × S.Row t) :=
  match s.dirty t n with
  | some (j, r) => if j = i then none else some (j, r)
  | none => none

/-- `ROLLBACK`. -/
def rollback (s : Db S ι) (i : ι) : Db S ι where
  committed := s.committed
  dirty := s.release i
  fresh := s.fresh
  clock := s.clock
  ticks := s.ticks
  alloc := fun t n h => ⟨(s.alloc t n h).1, by simp [release, (s.alloc t n h).2]⟩

/-- `COMMIT`. -/
def commit (s : Db S ι) (i : ι) : Db S ι where
  committed := s.view i
  dirty := s.release i
  fresh := s.fresh
  clock := s.clock
  ticks := s.ticks
  alloc := fun t n h => ⟨by simp [view, (s.alloc t n h).1, (s.alloc t n h).2],
    by simp [release, (s.alloc t n h).2]⟩

/-- The current time: what the next reading of the clock gives. -/
def time (s : Db S ι) : ℕ := s.clock.read s.ticks

/-- The rows that a bulk read of session `i` matches. -/
def rows (s : Db S ι) (i : ι) (q : S.Query) : List (ℕ × S.Row (S.source q)) :=
  (List.range s.fresh).filterMap fun n =>
    (s.view i (S.source q) n).bind fun r => if S.matching q r then some (n, r) else none

/-- When a statement can be executed: an `UPDATE` waits while another session holds the row
and the committed version meets its condition. -/
def ready (i : ι) : Sql S → Db S ι → Bool
  | .update u n, s =>
      !s.heldByOther i (S.target u) n || !(s.committed (S.target u) n).any (S.act u).guard
  | _, _ => true

/-- The answer to a statement of session `i`. -/
def answer (i : ι) : (q : Sql S) → Db S ι → q.Resp
  | .select t n, s => s.view i t n
  | .scan q, s => s.rows i q
  | .update u n, s => s.written i u n
  | .insert _, s => s.fresh
  | .now, s => s.time
  | .commit, _ => ()
  | .rollback, _ => ()

/-- The store after a statement of session `i`. -/
def effect [DecidableEq S.Table] (i : ι) : Sql S → Db S ι → Db S ι
  | .select _ _, s => s
  | .scan _, s => s
  | .update u n, s =>
      match s.written i u n with
      | some r => s.write i (S.target u) n r
      | none => s
  | .insert x, s => s.write i (S.into x) s.fresh (S.new x)
  | .now, s => { s with ticks := s.ticks + 1 }
  | .commit, s => s.commit i
  | .rollback, s => s.rollback i

end Db

/-- The READ COMMITTED server; a lost session is rolled back. -/
def server (S : Schema) (ι : Type) [DecidableEq S.Table] [DecidableEq ι] :
    Server (sql S) ι (Db S ι) where
  ready := Db.ready
  answer := Db.answer
  effect := Db.effect
  hangup := .rollback

/-! ### What the statements read and write -/

namespace Db

variable [DecidableEq ι] {s s' : Db S ι} {i j : ι} {t : S.Table} {n : ℕ} {r r' : S.Row t}
  {u : S.Update}

lemma view_of_own (h : s.dirty t n = some (i, r)) : s.view i t n = some r := by
  simp [view, h]

lemma view_of_not_own (h : ∀ r, s.dirty t n ≠ some (i, r)) : s.view i t n = s.committed t n := by
  rw [view]
  split
  · rename_i j r hd
    split_ifs with hj
    · subst hj
      exact absurd hd (h r)
    · rfl
  · rfl

/-- A session sees a committed row or a version it wrote itself. -/
lemma view_cases (s : Db S ι) (i : ι) (t : S.Table) (n : ℕ) :
    (∃ r, s.dirty t n = some (i, r) ∧ s.view i t n = some r)
      ∨ (∀ r, s.dirty t n ≠ some (i, r)) ∧ s.view i t n = s.committed t n := by
  by_cases h : ∃ r, s.dirty t n = some (i, r)
  · obtain ⟨r, hr⟩ := h
    exact Or.inl ⟨r, hr, view_of_own hr⟩
  · push Not at h
    exact Or.inr ⟨h, view_of_not_own h⟩

lemma heldByOther_eq_true : s.heldByOther i t n = true ↔ ∃ j r, j ≠ i ∧ s.dirty t n = some (j, r) := by
  rw [heldByOther]
  split
  · rename_i j r hd
    constructor
    · intro h
      exact ⟨j, r, by simpa using h, hd⟩
    · rintro ⟨j', r', hj, hd'⟩
      rw [hd] at hd'
      obtain ⟨rfl, -⟩ := Prod.mk.inj (Option.some.inj hd')
      simpa using hj
  · rename_i hd
    simp [hd]

/-- An `UPDATE` writes a row exactly when it has the lock and the row it sees meets the
condition. -/
lemma written_eq_some {r' : S.Row (S.target u)} :
    s.written i u n = some r'
      ↔ s.heldByOther i (S.target u) n = false ∧ ∃ r, s.view i (S.target u) n = some r
          ∧ (S.act u).guard r = true ∧ (S.act u).set r = r' := by
  rw [written]
  split_ifs with h
  · simp [h]
  · simp [Option.bind_eq_some_iff, h]

/-- An executed `UPDATE` that matches no row saw no row meeting the condition. -/
lemma guard_of_written_eq_none {r : S.Row (S.target u)} (hready : ready i (.update u n) s = true)
    (h : s.written i u n = none) (hv : s.view i (S.target u) n = some r) :
    (S.act u).guard r = false := by
  by_cases hh : s.heldByOther i (S.target u) n = true
  · obtain ⟨j, r₀, hj, hd⟩ := heldByOther_eq_true.mp hh
    have hc : s.view i (S.target u) n = s.committed (S.target u) n :=
      view_of_not_own fun r hr => hj (by rw [hd] at hr; exact (Prod.mk.inj (Option.some.inj hr)).1)
    rw [hv] at hc
    simpa [ready, hh, ← hc] using hready
  · by_contra hg
    have hw := written_eq_some.mpr ⟨by simpa using hh, r, hv, by simpa using hg, rfl⟩
    rw [h] at hw
    cases hw

/-- An executed `UPDATE` matches no row exactly when its session sees none that meets the
condition. -/
lemma written_eq_none_iff (hready : ready i (.update u n) s = true) :
    s.written i u n = none
      ↔ ∀ r, s.view i (S.target u) n = some r → (S.act u).guard r = false := by
  constructor
  · exact fun h r hv => guard_of_written_eq_none hready h hv
  · intro hguard
    cases hw : s.written i u n with
    | none => rfl
    | some r' =>
        obtain ⟨-, r, hv, hg, -⟩ := written_eq_some.mp hw
        rw [hguard r hv] at hg
        cases hg

/-- **What an `UPDATE` does to the row it addresses**, as the session that executed it sees it:
the row is rewritten if it met the condition when the lock was free. -/
lemma view_update [DecidableEq S.Table] (hready : ready i (.update u n) s = true) :
    (effect i (.update u n) s).view i (S.target u) n
      = (s.view i (S.target u) n).map (S.act u).step := by
  cases ht : s.written i u n with
  | some r' =>
      obtain ⟨-, r, hv, hg, rfl⟩ := written_eq_some.mp ht
      simp only [effect, ht, hv, Option.map_some, GuardedUpdate.step_of_guard hg]
      exact view_of_own (by simp [write])
  | none =>
      simp only [effect, ht]
      cases hv : s.view i (S.target u) n with
      | none => rfl
      | some r =>
          rw [Option.map_some,
            GuardedUpdate.step_of_not_guard (guard_of_written_eq_none hready ht hv)]

/-- A row a session sees stands under a drawn id. -/
lemma lt_fresh_of_view (h : s.view i t n = some r) : n < s.fresh := by
  by_contra hn
  have ha := s.alloc t n (by omega)
  simp [view, ha.1, ha.2] at h

omit [DecidableEq ι] in
lemma lt_fresh_of_committed (h : s.committed t n = some r) : n < s.fresh := by
  by_contra hn
  simp [(s.alloc t n (by omega)).1] at h

omit [DecidableEq ι] in
lemma lt_fresh_of_dirty (h : s.dirty t n = some (i, r)) : n < s.fresh := by
  by_contra hn
  simp [(s.alloc t n (by omega)).2] at h

lemma mem_rows {q : S.Query} {r : S.Row (S.source q)} :
    (n, r) ∈ s.rows i q ↔ s.view i (S.source q) n = some r ∧ S.matching q r = true := by
  simp only [rows, List.mem_filterMap, List.mem_range, Option.bind_eq_some_iff]
  constructor
  · rintro ⟨m, -, r₁, hv, hp⟩
    split_ifs at hp with hp₁
    obtain ⟨rfl, rfl⟩ := Prod.mk.inj (Option.some.inj hp)
    exact ⟨hv, hp₁⟩
  · rintro ⟨hv, hp⟩
    exact ⟨n, lt_fresh_of_view hv, r, hv, by simp [hp]⟩

/-- A bulk read answers with each row once. -/
lemma nodup_rows (s : Db S ι) (i : ι) (q : S.Query) : ((s.rows i q).map Prod.fst).Nodup := by
  rw [rows, List.map_filterMap]
  refine List.Nodup.filterMap (fun m m' n hm hm' => ?_) List.nodup_range
  have hid : ∀ m, n ∈ ((s.view i (S.source q) m).bind fun r =>
      if S.matching q r then some (m, r) else none).map Prod.fst → m = n := by
    intro m h
    obtain ⟨row, hrow, rfl⟩ := Option.mem_map.mp h
    obtain ⟨r, -, hr⟩ := Option.bind_eq_some_iff.mp hrow
    split_ifs at hr
    rw [← Option.some.inj hr]
  exact (hid m hm).trans (hid m' hm').symm

/-- A bulk read answers with as many rows as it matches. -/
lemma length_rows (s : Db S ι) (i : ι) (q : S.Query) :
    (s.rows i q).length = ((Finset.range s.fresh).filter fun n =>
      (s.view i (S.source q) n).any (S.matching q) = true).card := by
  have hlist : ∀ l : List ℕ, (l.filterMap fun n => (s.view i (S.source q) n).bind fun r =>
      if S.matching q r then some (n, r) else none).length
        = (l.filter fun n => (s.view i (S.source q) n).any (S.matching q)).length := by
    intro l
    induction l with
    | nil => rfl
    | cons n l ih =>
        cases hv : s.view i (S.source q) n with
        | none => simp [hv, ih]
        | some r =>
            by_cases hr : S.matching q r = true
            · simp [hv, hr, ih]
            · simp [hv, hr, ih]
  rw [rows, hlist, ← List.toFinset_card_of_nodup (List.nodup_range.filter _)]
  congr 1
  ext n
  simp

section Write

omit [DecidableEq ι]

variable [DecidableEq S.Table]

@[simp] lemma committed_write (s : Db S ι) (i : ι) (t : S.Table) (n : ℕ) (r : S.Row t) :
    (s.write i t n r).committed = s.committed := rfl

@[simp] lemma dirty_write (s : Db S ι) (i : ι) (t : S.Table) (n : ℕ) (r : S.Row t) :
    (s.write i t n r).dirty = put s.dirty t n (some (i, r)) := rfl

@[simp] lemma clock_write (s : Db S ι) (i : ι) (t : S.Table) (n : ℕ) (r : S.Row t) :
    (s.write i t n r).clock = s.clock := rfl

@[simp] lemma ticks_write (s : Db S ι) (i : ι) (t : S.Table) (n : ℕ) (r : S.Row t) :
    (s.write i t n r).ticks = s.ticks := rfl

@[simp] lemma fresh_write (s : Db S ι) (i : ι) (t : S.Table) (n : ℕ) (r : S.Row t) :
    (s.write i t n r).fresh = max s.fresh (n + 1) := rfl

end Write

@[simp] lemma committed_commit (s : Db S ι) (i : ι) : (s.commit i).committed = s.view i := rfl

@[simp] lemma dirty_commit (s : Db S ι) (i : ι) : (s.commit i).dirty = s.release i := rfl

@[simp] lemma committed_rollback (s : Db S ι) (i : ι) :
    (s.rollback i).committed = s.committed := rfl

@[simp] lemma dirty_rollback (s : Db S ι) (i : ι) : (s.rollback i).dirty = s.release i := rfl

/-- Released locks are those of the others. -/
lemma release_eq_some : s.release i t n = some (j, r) ↔ j ≠ i ∧ s.dirty t n = some (j, r) := by
  rw [release]
  split
  · rename_i k r₀ hd
    split_ifs with hk
    · subst hk
      simp only [hd, Option.some.injEq, Prod.mk.injEq, false_iff, not_and]
      intro hj hkj
      exact absurd hkj.symm hj
    · simp only [hd, Option.some.injEq, Prod.mk.injEq]
      constructor
      · rintro ⟨rfl, rfl⟩
        exact ⟨hk, rfl, rfl⟩
      · exact fun h => h.2
  · rename_i hd
    simp [hd]

/-- A commit does not change what its session sees. -/
@[simp] lemma view_commit (s : Db S ι) (i : ι) (t : S.Table) (n : ℕ) :
    (s.commit i).view i t n = s.view i t n :=
  view_of_not_own fun _ h => (release_eq_some.mp h).1 rfl

/-- A session goes on seeing a row unless it rolls back, or updates or inserts that very row. -/
lemma view_effect_of_ne [DecidableEq S.Table] {q : Sql S} (hroll : q ≠ .rollback)
    (hne : ∀ u m, q = .update u m → ¬ (t = S.target u ∧ n = m))
    (hins : ∀ x, q = .insert x → ¬ (t = S.into x ∧ n = s.fresh)) :
    (effect i q s).view i t n = s.view i t n := by
  have hwrite : ∀ (t' : S.Table) (m : ℕ) (r : S.Row t'), ¬ (t = t' ∧ n = m) →
      (s.write i t' m r).view i t n = s.view i t n := by
    intro t' m r hother
    rw [view, view, dirty_write, committed_write]
    rcases put_cases s.dirty t' m (some (i, r)) t n with ⟨rfl, rfl, -⟩ | ⟨-, h⟩
    · exact absurd ⟨rfl, rfl⟩ hother
    · rw [h]
  cases q with
  | update u m =>
      rw [effect]
      split
      · exact hwrite _ _ _ (hne u m rfl)
      · rfl
  | insert x => exact hwrite _ _ _ (hins x rfl)
  | commit => exact view_commit s i t n
  | rollback => exact absurd rfl hroll
  | _ => rfl

/-- A row just written is seen by its session, and the others as before. -/
lemma view_write [DecidableEq S.Table] (s : Db S ι) (i : ι) (t : S.Table) (n : ℕ) (r : S.Row t) :
    (s.write i t n r).view i t = Function.update (s.view i t) n (some r) := by
  funext m
  by_cases hm : m = n
  · subst hm
    rw [Function.update_self]
    exact view_of_own (by simp)
  · rw [Function.update_of_ne hm, view, view, dirty_write, committed_write, put_of_ne_id _ _ _ hm]

lemma effect_update [DecidableEq S.Table] {r : S.Row (S.target u)} (h : s.written i u n = some r) :
    effect i (.update u n) s = s.write i (S.target u) n r := by
  rw [effect, h]

lemma effect_update_of_none [DecidableEq S.Table] (h : s.written i u n = none) :
    effect i (.update u n) s = s := by
  rw [effect, h]

lemma dirty_update [DecidableEq S.Table] {r : S.Row (S.target u)} (h : s.written i u n = some r) :
    (effect i (.update u n) s).dirty (S.target u) n = some (i, r) := by
  simp [effect, h]

lemma dirty_insert [DecidableEq S.Table] (i : ι) (x : S.Insert) (s : Db S ι) :
    (effect i (.insert x) s).dirty (S.into x) s.fresh = some (i, S.new x) := by
  simp [effect]

/-- Where an uncommitted version comes from: it was there before, or the statement has just
written it, by an `UPDATE` of the row its session sees or as a new row. -/
lemma dirty_effect_cases [DecidableEq S.Table] {q : Sql S}
    (h : (effect i q s).dirty t n = some (j, r)) :
    (s.dirty t n = some (j, r) ∧ (q = .commit ∨ q = .rollback → j ≠ i))
      ∨ j = i ∧ ((∃ u r₀, q = .update u n ∧ s.view i (S.target u) n = some r₀
            ∧ (S.act u).guard r₀ = true
            ∧ (⟨S.target u, (S.act u).set r₀⟩ : Σ t, S.Row t) = ⟨t, r⟩)
          ∨ ∃ x, q = .insert x ∧ n = s.fresh ∧ (⟨S.into x, S.new x⟩ : Σ t, S.Row t) = ⟨t, r⟩) := by
  have hwrite : ∀ (t' : S.Table) (m : ℕ) (r' : S.Row t'),
      (s.write i t' m r').dirty t n = some (j, r) →
      s.dirty t n = some (j, r)
        ∨ j = i ∧ n = m ∧ (⟨t', r'⟩ : Σ t, S.Row t) = ⟨t, r⟩ := by
    intro t' m r' hd
    rw [dirty_write] at hd
    rcases put_cases s.dirty t' m (some (i, r')) t n with ⟨rfl, rfl, hp⟩ | ⟨-, hp⟩
    · rw [hp] at hd
      obtain ⟨rfl, rfl⟩ := Prod.mk.inj (Option.some.inj hd)
      exact Or.inr ⟨rfl, rfl, rfl⟩
    · exact Or.inl (hp ▸ hd)
  cases q with
  | update u m =>
      rw [effect] at h
      split at h
      · rename_i r' hr'
        obtain ⟨-, r₀, hv, hg, rfl⟩ := written_eq_some.mp hr'
        rcases hwrite _ _ _ h with h | ⟨rfl, rfl, heq⟩
        · exact Or.inl ⟨h, by simp⟩
        · exact Or.inr ⟨rfl, Or.inl ⟨u, r₀, rfl, hv, hg, heq⟩⟩
      · exact Or.inl ⟨h, by simp⟩
  | insert x =>
      rcases hwrite _ _ _ h with h | ⟨rfl, rfl, heq⟩
      · exact Or.inl ⟨h, by simp⟩
      · exact Or.inr ⟨rfl, Or.inr ⟨x, rfl, rfl, heq⟩⟩
  | commit =>
      obtain ⟨hj, hd⟩ := release_eq_some.mp h
      exact Or.inl ⟨hd, fun _ => hj⟩
  | rollback =>
      obtain ⟨hj, hd⟩ := release_eq_some.mp h
      exact Or.inl ⟨hd, fun _ => hj⟩
  | _ => exact Or.inl ⟨h, by simp⟩

/-- An uncommitted version stays until its session commits or rolls back, and only an `UPDATE` of
that session changes it. -/
lemma dirty_effect_own [DecidableEq S.Table] {q : Sql S} (h : s.dirty t n = some (i, r))
    (hc : q ≠ .commit) (hroll : q ≠ .rollback) :
    ∃ r', (effect i q s).dirty t n = some (i, r') ∧ (r' = r ∨ ∃ u r₀, q = .update u n
      ∧ (⟨S.target u, r₀⟩ : Σ t, S.Row t) = ⟨t, r⟩ ∧ (S.act u).guard r₀ = true
      ∧ (⟨S.target u, (S.act u).set r₀⟩ : Σ t, S.Row t) = ⟨t, r'⟩) := by
  have hsame : (effect i q s).dirty t n = s.dirty t n →
      ∃ r', (effect i q s).dirty t n = some (i, r') ∧ (r' = r ∨ ∃ u r₀, q = .update u n
        ∧ (⟨S.target u, r₀⟩ : Σ t, S.Row t) = ⟨t, r⟩ ∧ (S.act u).guard r₀ = true
        ∧ (⟨S.target u, (S.act u).set r₀⟩ : Σ t, S.Row t) = ⟨t, r'⟩) :=
    fun heq => ⟨r, heq.trans h, Or.inl rfl⟩
  cases q with
  | update u m =>
      cases hw : s.written i u m with
      | none => exact hsame (by rw [effect, hw])
      | some r' =>
          obtain ⟨-, r₀, hv, hg, rfl⟩ := written_eq_some.mp hw
          rcases put_cases s.dirty (S.target u) m (some (i, (S.act u).set r₀)) t n with
            ⟨rfl, rfl, hp⟩ | ⟨-, hp⟩
          · obtain rfl := Option.some.inj (hv.symm.trans (view_of_own h))
            exact ⟨_, by rw [effect, hw, dirty_write, hp], Or.inr ⟨u, r₀, rfl, rfl, hg, rfl⟩⟩
          · exact hsame (by rw [effect, hw, dirty_write, hp])
  | insert x =>
      refine hsame ?_
      rcases put_cases s.dirty (S.into x) s.fresh (some (i, S.new x)) t n with ⟨rfl, rfl, -⟩ | ⟨-, hp⟩
      · rw [(s.alloc _ s.fresh le_rfl).2] at h
        cases h
      · rw [effect, dirty_write, hp]
  | commit => exact absurd rfl hc
  | rollback => exact absurd rfl hroll
  | _ => exact hsame rfl

/-- Only a `COMMIT` changes what is committed. -/
lemma committed_effect [DecidableEq S.Table] {q : Sql S} (hq : q ≠ .commit) :
    (effect i q s).committed = s.committed := by
  cases q with
  | update u n =>
      rw [effect]
      split <;> rfl
  | commit => exact absurd rfl hq
  | _ => rfl

/-- Time does not go back. -/
lemma time_effect_le [DecidableEq S.Table] (i : ι) (q : Sql S) (s : Db S ι) :
    s.time ≤ (effect i q s).time := by
  have hwrite : ∀ (t : S.Table) (n : ℕ) (r : S.Row t), s.time ≤ (s.write i t n r).time :=
    fun _ _ _ => le_rfl
  cases q with
  | update u n =>
      rw [effect]
      split
      · exact hwrite _ _ _
      · exact le_rfl
  | insert x => exact hwrite _ _ _
  | now => exact s.clock.mono (Nat.le_succ _)
  | _ => exact le_rfl

/-- On a settled store a session sees what is committed. -/
lemma view_settled (hs : s.Settled) (i : ι) (t : S.Table) (n : ℕ) :
    s.view i t n = s.committed t n := by
  refine view_of_not_own fun r hd => ?_
  rw [hs] at hd
  cases hd

/-- A row is committed by the `COMMIT` of the session that has written it. -/
lemma committed_effect_cases [DecidableEq S.Table] (i : ι) (q : Sql S) (s : Db S ι) (t : S.Table)
    (n : ℕ) :
    (effect i q s).committed t n = s.committed t n
      ∨ q = .commit ∧ ∃ r, s.dirty t n = some (i, r)
          ∧ (effect i q s).committed t n = some r := by
  by_cases hq : q = .commit
  · subst hq
    rcases s.view_cases i t n with ⟨r, hd, hv⟩ | ⟨-, hv⟩
    · exact Or.inr ⟨rfl, r, hd, hv⟩
    · exact Or.inl hv
  · exact Or.inl (congrFun (congrFun (committed_effect hq) t) n)

end Db

/-! ### Frames -/

/-- What the statements of other sessions leave alone for session `i`: its uncommitted
versions, the committed versions under its locks, the clock; ids and readings only grow. -/
structure Frame [DecidableEq ι] (i : ι) (s s' : Db S ι) : Prop where
  dirty : ∀ t n r, s'.dirty t n = some (i, r) ↔ s.dirty t n = some (i, r)
  committed : ∀ t n r, s.dirty t n = some (i, r) → s'.committed t n = s.committed t n
  fresh : s.fresh ≤ s'.fresh
  ticks : s.ticks ≤ s'.ticks
  clock : s'.clock = s.clock

section Frame

variable [DecidableEq ι] {i j : ι} {s s₁ s₂ : Db S ι}

@[refl] lemma Frame.refl (i : ι) (s : Db S ι) : Frame i s s :=
  ⟨fun _ _ _ => Iff.rfl, fun _ _ _ _ => rfl, le_rfl, le_rfl, rfl⟩

lemma Frame.trans (h₁ : Frame i s s₁) (h₂ : Frame i s₁ s₂) : Frame i s s₂ where
  dirty := fun t n r => (h₂.dirty t n r).trans (h₁.dirty t n r)
  committed := fun t n r h =>
    (h₂.committed t n r ((h₁.dirty t n r).mpr h)).trans (h₁.committed t n r h)
  fresh := h₁.fresh.trans h₂.fresh
  ticks := h₁.ticks.trans h₂.ticks
  clock := h₂.clock.trans h₁.clock

/-- Time does not go back. -/
lemma Frame.time_le (h : Frame i s s₁) : s.time ≤ s₁.time := by
  rw [Db.time, Db.time, h.clock]
  exact s.clock.mono h.ticks

/-- What a session sees of a row after a step of the others: its own version as before, or the
committed one. -/
lemma Frame.view_cases (h : Frame i s s₁) (t : S.Table) (n : ℕ) :
    (s₁.view i t n = s.view i t n ∧ s₁.committed t n = s.committed t n)
      ∨ s.view i t n = s.committed t n ∧ s₁.view i t n = s₁.committed t n := by
  rcases s.view_cases i t n with ⟨r, hd, hv⟩ | ⟨hd, hv⟩
  · refine Or.inl ⟨?_, h.committed t n r hd⟩
    rw [hv]
    exact Db.view_of_own ((h.dirty t n r).mpr hd)
  · refine Or.inr ⟨hv, Db.view_of_not_own fun r hr => ?_⟩
    exact hd r ((h.dirty t n r).mp hr)

lemma frame_rollback (hij : j ≠ i) (s : Db S ι) : Frame i s (s.rollback j) where
  dirty := fun t n r => by
    rw [Db.dirty_rollback, Db.release_eq_some]
    exact ⟨fun h => h.2, fun h => ⟨hij.symm, h⟩⟩
  committed := fun _ _ _ _ => rfl
  fresh := le_rfl
  ticks := le_rfl
  clock := rfl

lemma frame_commit (hij : j ≠ i) (s : Db S ι) : Frame i s (s.commit j) where
  dirty := fun t n r => by
    rw [Db.dirty_commit, Db.release_eq_some]
    exact ⟨fun h => h.2, fun h => ⟨hij.symm, h⟩⟩
  committed := fun t n r h =>
    Db.view_of_not_own fun r' h' => hij (by
      rw [h] at h'
      exact (Prod.mk.inj (Option.some.inj h')).1.symm)
  fresh := le_rfl
  ticks := le_rfl
  clock := rfl

/-- Writing a row that session `i` does not hold leaves session `i` alone. -/
lemma frame_write [DecidableEq S.Table] (hij : j ≠ i) {t : S.Table} {n : ℕ} (r : S.Row t)
    (hfree : ∀ r', s.dirty t n ≠ some (i, r')) : Frame i s (s.write j t n r) where
  dirty := fun t' n' r' => by
    rcases put_cases s.dirty t n (some (j, r)) t' n' with ⟨rfl, rfl, h⟩ | ⟨-, h⟩
    · rw [Db.dirty_write, h]
      refine ⟨fun h' => absurd (Prod.mk.inj (Option.some.inj h')).1 hij, fun h' => ?_⟩
      exact absurd h' (hfree r')
    · rw [Db.dirty_write, h]
  committed := fun _ _ _ _ => rfl
  fresh := le_max_left ..
  ticks := le_rfl
  clock := rfl

lemma frame_now [DecidableEq S.Table] (i j : ι) (s : Db S ι) : Frame i s (Db.effect j .now s) :=
  ⟨fun _ _ _ => Iff.rfl, fun _ _ _ _ => rfl, le_rfl, Nat.le_succ _, rfl⟩

/-- **The frame rule**: a statement of one session leaves every other session alone. -/
theorem frame_effect [DecidableEq S.Table] (hij : j ≠ i) (q : Sql S) (s : Db S ι) :
    Frame i s (Db.effect j q s) := by
  cases q with
  | select t n => exact .refl i s
  | scan q => exact .refl i s
  | update u n =>
      rw [Db.effect]
      split
      · rename_i r hr
        obtain ⟨hheld, -⟩ := Db.written_eq_some.mp hr
        refine frame_write hij r fun r' h' => ?_
        have := Db.heldByOther_eq_true.mpr ⟨i, r', hij.symm, h'⟩
        rw [hheld] at this
        cases this
      · exact .refl i s
  | insert x =>
      refine frame_write hij _ fun r' h' => ?_
      rw [(s.alloc _ s.fresh le_rfl).2] at h'
      cases h'
  | now => exact frame_now i j s
  | commit => exact frame_commit hij s
  | rollback => exact frame_rollback hij s

end Frame

/-! ### Uncommitted versions against committed ones -/

/-- Every uncommitted version of a row stands in the relation `R` to the committed one. -/
def Ahead (R : (t : S.Table) → S.Row t → S.Row t → Prop) (s : Db S ι) : Prop :=
  ∀ t n j r rc, s.dirty t n = some (j, r) → s.committed t n = some rc → R t rc r

lemma Db.Settled.ahead {s : Db S ι} (h : s.Settled) (R : (t : S.Table) → S.Row t → S.Row t → Prop) :
    Ahead R s := by
  intro t n j r rc hd
  rw [h t n] at hd
  cases hd

section Ahead

variable [DecidableEq ι] {R : (t : S.Table) → S.Row t → S.Row t → Prop} {s : Db S ι} {i : ι}

/-- What a session sees of a row stands in the relation to the committed version. -/
lemma Ahead.view (h : Ahead R s) (hrefl : ∀ t r, R t r r) {t : S.Table} {n : ℕ} {r rc : S.Row t}
    (hv : s.view i t n = some r) (hc : s.committed t n = some rc) : R t rc r := by
  rcases s.view_cases i t n with ⟨r', hd, hv'⟩ | ⟨-, hv'⟩
  · obtain rfl := Option.some.inj (hv.symm.trans hv')
    exact h t n i r rc hd hc
  · obtain rfl := Option.some.inj (hv.symm.trans (hv'.trans hc))
    exact hrefl t r

/-- A statement keeps uncommitted versions ahead if its `UPDATE` moves the row it sees ahead. -/
theorem Ahead.effect [DecidableEq S.Table] (h : Ahead R s) (hrefl : ∀ t r, R t r r) {q : Sql S}
    (hq : ∀ u n r, q = .update u n → s.view i (S.target u) n = some r →
      (S.act u).guard r = true → ∀ rc, s.committed (S.target u) n = some rc → R _ rc r →
        R _ rc ((S.act u).set r)) :
    Ahead R (Db.effect i q s) := by
  intro t n j r rc hd hc
  rcases Db.dirty_effect_cases hd with
    ⟨hold, hj⟩ | ⟨rfl, ⟨u, r₀, rfl, hv, hg, heq⟩ | ⟨x, rfl, rfl, heq⟩⟩
  · rcases Db.committed_effect_cases i q s t n with hsame | ⟨rfl, r', hd', -⟩
    · exact h t n j r rc hold (hsame ▸ hc)
    · -- the commit releases the lock, so the version is that of another session
      rw [hold] at hd'
      exact absurd (Prod.mk.inj (Option.some.inj hd')).1 (hj (Or.inl rfl))
  · cases heq
    rw [Db.committed_effect (by simp)] at hc
    exact hq u n r₀ rfl hv hg rc hc (h.view hrefl hv hc)
  · rw [Db.committed_effect (by simp), (s.alloc t s.fresh le_rfl).1] at hc
    cases hc

/-- A committed row stays, and only moves ahead. -/
lemma Ahead.committed [DecidableEq S.Table] (h : Ahead R s) (hrefl : ∀ t r, R t r r) {t : S.Table}
    {n : ℕ} {rc : S.Row t} (i : ι) (q : Sql S) (hc : s.committed t n = some rc) :
    ∃ rc', (Db.effect i q s).committed t n = some rc' ∧ R t rc rc' := by
  rcases Db.committed_effect_cases i q s t n with hsame | ⟨-, r, hd, hc'⟩
  · exact ⟨rc, hsame.trans hc, hrefl t rc⟩
  · exact ⟨r, hc', h t n i r rc hd hc⟩

end Ahead

/-! ### Properties of rows -/

/-- Every committed and every uncommitted row satisfies `P`. -/
def Rows (P : (t : S.Table) → ℕ → S.Row t → Prop) (s : Db S ι) : Prop :=
  (∀ t n r, s.committed t n = some r → P t n r) ∧ ∀ t n j r, s.dirty t n = some (j, r) → P t n r

/-- A statement writes only rows that satisfy `P`, given that the rows it reads do. -/
def Sql.Keeps (P : (t : S.Table) → ℕ → S.Row t → Prop) : Sql S → Prop
  | .update u n => ∀ r, P _ n r → (S.act u).guard r = true → P _ n ((S.act u).set r)
  | .insert x => ∀ n, P _ n (S.new x)
  | _ => True

section Rows

variable [DecidableEq ι] {P : (t : S.Table) → ℕ → S.Row t → Prop} {s : Db S ι} {i : ι}

/-- What a session sees satisfies a property of rows. -/
lemma Rows.view (h : Rows P s) {t : S.Table} {n : ℕ} {r : S.Row t} (hv : s.view i t n = some r) :
    P t n r := by
  rcases s.view_cases i t n with ⟨r', hd, hv'⟩ | ⟨-, hv'⟩
  · obtain rfl := Option.some.inj (hv.symm.trans hv')
    exact h.2 _ _ _ _ hd
  · exact h.1 _ _ _ (hv' ▸ hv)

/-- A statement that writes only rows satisfying `P` keeps the property of the store. -/
theorem Rows.effect [DecidableEq S.Table] (h : Rows P s) {q : Sql S} (hq : q.Keeps P) :
    Rows P (Db.effect i q s) := by
  constructor
  · intro t n r hc
    rcases Db.committed_effect_cases i q s t n with hsame | ⟨rfl, r', hd, hc'⟩
    · exact h.1 t n r (hsame ▸ hc)
    · obtain rfl := Option.some.inj (hc.symm.trans hc')
      exact h.2 t n i r hd
  · intro t n j r hd
    rcases Db.dirty_effect_cases hd with
      ⟨hold, -⟩ | ⟨-, ⟨u, r₀, rfl, hv, hg, heq⟩ | ⟨x, rfl, -, heq⟩⟩
    · exact h.2 t n j r hold
    · cases heq
      exact hq r₀ (h.view hv) hg
    · cases heq
      exact hq n

end Rows

/-! ### Sessions -/

/-- A session issues what its body issues, and a rollback. -/
lemma Tx.issues_withSession {φ : Sql S → Prop} {p : Tx S ε α} (hp : p.Issues φ)
    (hroll : φ .rollback) : (Tx.withSession p).Issues φ := by
  refine Prog.issues_tryCatch (Prog.issues_bind hp fun a => ?_) fun e => ?_
  · exact ⟨hroll, fun _ => trivial⟩
  · exact ⟨hroll, fun _ => trivial⟩

/-- A session is checked from its body: what the body ensures must survive the final
rollback. -/
theorem Meets.withSession [DecidableEq S.Table] [DecidableEq ι]
    {K : Contract (sql S) ι (Db S ι)} (hK : K.Compatible (server S ι))
    {i : ι} {Q Q' : Post (sql S) ι (Db S ι) ε α} {p : Tx S ε α}
    {h : List (Event (sql S) ι (Db S ι))} {s : Db S ι}
    (H : Meets K (server S ι) i Q p h s)
    (hroll : ∀ h r s tr s', Q h r s → own i tr = h → K.rely i h s s' → K.inv tr s' →
      K.assume tr ⟨i, .rollback, s', s'.rollback i⟩ →
      K.inv (tr ++ [⟨i, .rollback, s', s'.rollback i⟩]) (s'.rollback i)
        ∧ K.guar i h ⟨i, .rollback, s', s'.rollback i⟩
        ∧ ∀ s'', K.rely i (h ++ [⟨i, .rollback, s', s'.rollback i⟩]) (s'.rollback i) s'' →
            Q' (h ++ [⟨i, .rollback, s', s'.rollback i⟩]) r s'') :
    Meets K (server S ι) i Q' (Tx.withSession p) h s := by
  have hend : ∀ (R : Post (sql S) ι (Db S ι) ε α) (q : Tx S ε α) (r : Except ε α),
      q.result? = some r → (∀ h s, Q' h r s → R h r s) → ∀ h s, Q h r s →
      Meets K (server S ι) i R (Tx.rollback.bind fun _ => q) h s := by
    intro R q r hq hR h s hQ tr s' ht hr hI _ hC
    obtain ⟨h₁, h₂, h₃⟩ := hroll h r s tr s' hQ ht hr hI hC
    refine ⟨h₁, h₂, ?_⟩
    cases q with
    | ret a =>
        obtain rfl := Option.some.inj hq
        exact fun _ s'' _ hr' _ => hR _ _ (h₃ s'' hr')
    | raise e =>
        obtain rfl := Option.some.inj hq
        exact fun _ s'' _ hr' _ => hR _ _ (h₃ s'' hr')
    | call q k => cases hq
  have hbody : Meets K (server S ι) i
      (fun h r s => match r with
        | .ok a => Q' h (.ok a) s
        | .error e => Q h (.error e) s)
      (p.bind fun a => Tx.rollback.bind fun _ => .ret a) h s := by
    refine H.bind hK (fun h a s hQ => ?_) fun h e s hQ => hQ
    exact hend _ (.ret a) (.ok a) rfl (fun _ _ hQ' => hQ') h s hQ
  refine hbody.tryCatch hK (fun _ _ _ hQ => hQ) fun h e s hQ => ?_
  exact hend Q' (.raise e) (.error e) rfl (fun _ _ hQ' => hQ') h s hQ

/-! ### Operations run alone -/

/-- The result and the store of a program run to its end with nobody else on the store. -/
def alone [DecidableEq S.Table] [DecidableEq ι] (i : ι) :
    Tx S ε α → Db S ι → Except ε α × Db S ι
  | .ret a, s => (.ok a, s)
  | .raise e, s => (.error e, s)
  | .call q k, s => alone i (k (Db.answer i q s)) (Db.effect i q s)

section Alone

variable [DecidableEq S.Table] [DecidableEq ι] {s : Db S ι} {i : ι}

/-- No session but `i` holds a lock. -/
def Quiet (i : ι) (s : Db S ι) : Prop := ∀ t n j r, s.dirty t n = some (j, r) → j = i

omit [DecidableEq S.Table] [DecidableEq ι] in
lemma Db.Settled.quiet (hs : s.Settled) (i : ι) : Quiet i s := by
  intro t n j r hd
  rw [hs] at hd
  cases hd

omit [DecidableEq S.Table] in
lemma Quiet.heldByOther (h : Quiet i s) (t : S.Table) (n : ℕ) : s.heldByOther i t n = false := by
  by_contra hh
  obtain ⟨j, r, hj, hd⟩ := Db.heldByOther_eq_true.mp (by simpa using hh)
  exact hj (h t n j r hd)

omit [DecidableEq S.Table] in
lemma Quiet.ready (h : Quiet i s) (q : Sql S) : Db.ready i q s = true := by
  cases q with
  | update u n => simp [Db.ready, h.heldByOther _ n]
  | _ => rfl

lemma Quiet.effect (h : Quiet i s) (q : Sql S) : Quiet i (Db.effect i q s) := by
  intro t n j r hd
  by_contra hj
  exact hj (h t n j r (((frame_effect (fun hij => hj hij.symm) q s).dirty t n r).mp hd))

/-- What an operation run alone returns is what its program can return. -/
lemma alone_returns {ψ : α → Prop} {p : Tx S ε α} (hp : p.Returns ψ) {s : Db S ι} {a : α}
    (h : (alone i p s).1 = .ok a) : ψ a := by
  induction p generalizing s with
  | ret b =>
      obtain rfl := Except.ok.inj h
      exact hp
  | raise e => cases h
  | call q k ih => exact ih _ (hp _) h

/-- A composed operation run alone: the second part starts where the first has ended. -/
lemma alone_bind {β : Type} (p : Tx S ε β) (f : β → Tx S ε α) (s : Db S ι) :
    alone i (p.bind f) s = match alone i p s with
      | (.ok b, s') => alone i (f b) s'
      | (.error e, s') => (.error e, s') := by
  induction p generalizing s with
  | ret b => rfl
  | raise e => rfl
  | call q k ih => exact ih _ _

/-- The final rollback of a session does not change the result of its body. -/
lemma alone_withSession (p : Tx S ε α) (s : Db S ι) :
    (alone i (Tx.withSession p) s).1 = (alone i p s).1 := by
  unfold Tx.withSession
  induction p generalizing s with
  | ret a => rfl
  | raise e => rfl
  | call q k ih => exact ih _ _

/-- An operation run alone is a run of the pool in which only that client moves. -/
theorem reach_alone (p : Tx S ε α) (c : Pool (sql S) ι (Db S ι) ε α)
    (hc : c.procs i = some p) (hq : Quiet i c.store) :
    ∃ c', Pool.Reach (server S ι) c c' ∧ c'.store = (alone i p c.store).2
      ∧ (c'.procs i).bind Prog.result? = some (alone i p c.store).1 := by
  induction p generalizing c with
  | ret a => exact ⟨c, .refl, rfl, by simp [hc, alone]⟩
  | raise e => exact ⟨c, .refl, rfl, by simp [hc, alone]⟩
  | call q k ih =>
      have hm : c.move (server S ι) (.step i) = some (c.exec (server S ι) i q k) := by
        simp only [Pool.move, hc]
        exact if_pos (hq.ready q)
      obtain ⟨c', h₁, h₂, h₃⟩ := ih (Db.answer i q c.store) (c.exec (server S ι) i q k)
        (by simp [Pool.exec, server]) (hq.effect q)
      exact ⟨c', (Pool.Reach.refl.tail _ hm).trans h₁, h₂, h₃⟩

end Alone

end Txn
