import AgencyOS.Txn.Store

/-!
Programs run with nobody else on the store.

A program run alone depends on the store through what its session sees and what is committed: an
`UPDATE` and an `INSERT` change the first, a `COMMIT` and a `ROLLBACK` make them agree.

* `Seen`: what a session sees and what is committed while it is alone, and what each statement makes
  of the two;
* `Ends`: where a program run alone ends, as a precondition; the rules of composition;
* `Ends.tally`: the invariant rule for a counting loop;
* `Ends.withSession`: a session leaves the store settled.
-/

namespace Txn

variable {S : Schema} {ι ε α β : Type}

/-- A row under each id of each table. -/
abbrev Rowset (S : Schema) : Type := (t : S.Table) → ℕ → Option (S.Row t)

section Put

variable [DecidableEq S.Table] (v : Rowset S)

lemma put_same (t : S.Table) (n : ℕ) (r : Option (S.Row t)) :
    put v t n r t = Function.update (v t) n r := Function.update_self ..

lemma put_of_ne {t t' : S.Table} (n : ℕ) (r : Option (S.Row t)) (h : t' ≠ t) :
    put v t n r t' = v t' := Function.update_of_ne h ..

end Put

section Seen

variable [DecidableEq ι]

/-- The session sees the rows `v`, the rows `c` are committed, and no other session holds a lock. -/
structure Seen (i : ι) (s : Db S ι) (v c : Rowset S) : Prop where
  quiet : Quiet i s
  view : s.view i = v
  committed : s.committed = c

variable {i : ι} {s : Db S ι} {v c : Rowset S}

lemma Seen.of_settled (hs : s.Settled) (i : ι) : Seen i s s.committed s.committed where
  quiet := hs.quiet i
  view := funext fun t => funext fun n => Db.view_settled hs i t n
  committed := rfl

lemma Seen.written (h : Seen i s v c) (u : S.Update) (n : ℕ) :
    s.written i u n = ((v (S.target u) n).filter (S.act u).guard).map (S.act u).set := by
  rw [Db.written, h.quiet.heldByOther, if_neg (by simp), h.view]
  cases v (S.target u) n with
  | none => rfl
  | some r =>
      by_cases hr : (S.act u).guard r = true
      · simp [hr]
      · simp [hr]

section Write

variable [DecidableEq S.Table]

lemma Db.view_write_eq_put (s : Db S ι) (i : ι) (t : S.Table) (n : ℕ) (r : S.Row t) :
    (s.write i t n r).view i = put (s.view i) t n (some r) := by
  funext t' n'
  rcases put_cases (s.view i) t n (some r) t' n' with ⟨rfl, rfl, h⟩ | ⟨hne, h⟩
  · rw [h, Db.view_write, Function.update_self]
  · rw [h, Db.view, Db.view, Db.dirty_write, Db.committed_write]
    rcases put_cases s.dirty t n (some (i, r)) t' n' with ⟨rfl, rfl, -⟩ | ⟨-, hd⟩
    · exact absurd ⟨rfl, rfl⟩ hne
    · rw [hd]

lemma Seen.update (h : Seen i s v c) (u : S.Update) (n : ℕ) :
    Seen i (Db.effect i (.update u n) s)
      (put v (S.target u) n ((v (S.target u) n).map (S.act u).step)) c where
  quiet := h.quiet.effect _
  view := by
    have hw := h.written u n
    rw [Db.effect]
    split
    · rename_i r hr
      rw [hr] at hw
      obtain ⟨r₀, hr₀, hset⟩ := Option.map_eq_some_iff.1 hw.symm
      obtain ⟨hv, hg⟩ := Option.filter_eq_some_iff.1 hr₀
      rw [Db.view_write_eq_put, h.view, hv, Option.map_some, GuardedUpdate.step_of_guard hg, hset]
    · rename_i hr
      rw [hr] at hw
      have hsame : (v (S.target u) n).map (S.act u).step = v (S.target u) n := by
        cases hv : v (S.target u) n with
        | none => rfl
        | some r =>
            rw [hv] at hw
            have hg : (S.act u).guard r = false := by
              by_contra hg
              simp [hg] at hw
            rw [Option.map_some, GuardedUpdate.step_of_not_guard hg]
      rw [h.view, hsame, put, Function.update_eq_self, Function.update_eq_self]
  committed := (Db.committed_effect (by simp)).trans h.committed

lemma Seen.insert (h : Seen i s v c) (x : S.Insert) :
    Seen i (Db.effect i (.insert x) s) (put v (S.into x) s.fresh (some (S.new x))) c where
  quiet := h.quiet.effect _
  view := (Db.view_write_eq_put s i _ _ _).trans (by rw [h.view])
  committed := h.committed

lemma Seen.now (h : Seen i s v c) : Seen i (Db.effect i .now s) v c where
  quiet := h.quiet.effect _
  view := h.view
  committed := h.committed

lemma Seen.commit (h : Seen i s v c) : Seen i (Db.effect i .commit s) v v where
  quiet := h.quiet.effect _
  view := (funext fun t => funext fun n => Db.view_commit s i t n).trans h.view
  committed := h.view

lemma Seen.rollback (h : Seen i s v c) : Seen i (Db.effect i .rollback s) c c where
  quiet := h.quiet.effect _
  view := (funext fun _ => funext fun _ => Db.view_of_not_own fun _ hr =>
    (Db.release_eq_some.mp hr).1 rfl).trans h.committed
  committed := h.committed

end Write

/-- Nothing stands under an id that has not been drawn. -/
lemma Seen.fresh (h : Seen i s v c) (t : S.Table) : v t s.fresh = none ∧ c t s.fresh = none := by
  obtain ⟨hc, hd⟩ := s.alloc t s.fresh le_rfl
  refine ⟨?_, h.committed ▸ hc⟩
  rw [← h.view, Db.view, hd]
  exact hc

/-- A session that has rolled back holds no lock. -/
lemma Quiet.settled_rollback (h : Quiet i s) : (s.rollback i).Settled := by
  intro t n
  cases hd : (s.rollback i).dirty t n with
  | none => rfl
  | some x =>
      obtain ⟨j, r⟩ := x
      obtain ⟨hj, hd⟩ := Db.release_eq_some.mp hd
      exact absurd (h t n j r hd) hj

end Seen

/-! ### Where a program ends -/

section Ends

variable [DecidableEq S.Table] [DecidableEq ι] {i : ι} {s : Db S ι} {v c : Rowset S}

/-- Run alone, the program ends with a result and a store that satisfy `Q`. -/
def Ends (i : ι) (p : Tx S ε α) (s : Db S ι) (Q : Except ε α → Db S ι → Prop) : Prop :=
  Q (alone i p s).1 (alone i p s).2

variable {Q Q' : Except ε α → Db S ι → Prop} {p : Tx S ε α}

@[simp] lemma ends_ret (a : α) : Ends i (.ret a : Tx S ε α) s Q ↔ Q (.ok a) s := Iff.rfl

@[simp] lemma ends_raise (e : ε) : Ends i (.raise e : Tx S ε α) s Q ↔ Q (.error e) s := Iff.rfl

lemma Seen.ends_select (h : Seen i s v c) (t : S.Table) (n : ℕ)
    (k : Option (S.Row t) → Tx S ε α) :
    Ends i (.call (.select t n) k) s Q ↔ Ends i (k (v t n)) s Q := by
  rw [← h.view]
  exact Iff.rfl

lemma ends_scan (q : S.Query) (k : List (ℕ × S.Row (S.source q)) → Tx S ε α) :
    Ends i (.call (.scan q) k) s Q ↔ Ends i (k (s.rows i q)) s Q := Iff.rfl

lemma Seen.ends_update (h : Seen i s v c) (u : S.Update) (n : ℕ)
    (k : Option (S.Row (S.target u)) → Tx S ε α) :
    Ends i (.call (.update u n) k) s Q
      ↔ Ends i (k (((v (S.target u) n).filter (S.act u).guard).map (S.act u).set))
        (Db.effect i (.update u n) s) Q := by
  rw [← h.written]
  exact Iff.rfl

lemma ends_insert (x : S.Insert) (k : ℕ → Tx S ε α) :
    Ends i (.call (.insert x) k) s Q ↔ Ends i (k s.fresh) (Db.effect i (.insert x) s) Q := Iff.rfl

lemma ends_now (k : ℕ → Tx S ε α) :
    Ends i (.call .now k) s Q ↔ Ends i (k s.time) (Db.effect i .now s) Q := Iff.rfl

lemma ends_commit (k : Unit → Tx S ε α) :
    Ends i (.call .commit k) s Q ↔ Ends i (k ()) (Db.effect i .commit s) Q := Iff.rfl

lemma Ends.mono (h : Ends i p s Q) (hQ : ∀ r s', Q r s' → Q' r s') : Ends i p s Q' := hQ _ _ h

/-- A composed program goes on where its first part ends. -/
lemma ends_bind {f : β → Tx S ε α} {p : Tx S ε β} :
    Ends i (p.bind f) s Q ↔ Ends i p s fun r s' => match r with
      | .ok b => Ends i (f b) s' Q
      | .error e => Q (.error e) s' := by
  induction p generalizing s with
  | ret b => exact Iff.rfl
  | raise e => exact Iff.rfl
  | call q k ih => exact ih (Db.answer i q s)

lemma ends_tryCatch {f : ε → Tx S ε α} :
    Ends i (p.tryCatch f) s Q ↔ Ends i p s fun r s' => match r with
      | .ok a => Q (.ok a) s'
      | .error e => Ends i (f e) s' Q := by
  induction p generalizing s with
  | ret b => exact Iff.rfl
  | raise e => exact Iff.rfl
  | call q k ih => exact ih (Db.answer i q s)

/-- The first part returns, and the second part starts from there. -/
lemma Ends.bind {f : β → Tx S ε α} {p : Tx S ε β} {R : Except ε β → Db S ι → Prop}
    (hp : Ends i p s R) (hok : ∀ b s', R (.ok b) s' → Ends i (f b) s' Q)
    (herror : ∀ e s', R (.error e) s' → Q (.error e) s') : Ends i (p.bind f) s Q := by
  rw [ends_bind]
  refine hp.mono fun r s' hr => ?_
  cases r with
  | ok b => exact hok b s' hr
  | error e => exact herror e s' hr

/-- What every round of a counting loop keeps holds where the loop ends, or fails. -/
lemma Ends.tally {I : Db S ι → Prop} {xs : List β} {f : β → Tx S ε ℕ}
    (hstep : ∀ x ∈ xs, ∀ s, I s → Ends i (f x) s fun _ s' => I s') (hs : I s) :
    Ends i (Prog.tally xs f) s fun _ s' => I s' := by
  induction xs generalizing s with
  | nil => exact hs
  | cons x xs ih =>
      refine (hstep x List.mem_cons_self s hs).bind (fun n s' hs' => ?_) fun _ _ hs' => hs'
      have hrest := ih (fun y hy => hstep y (List.mem_cons_of_mem x hy)) hs'
      exact hrest.bind (fun _ _ h => h) fun _ _ h => h

/-- A session rolls back what its body has left open. -/
lemma Ends.withSession (h : Ends i p s Q) :
    Ends i (Tx.withSession p) s fun r s' => ∃ s₁, Q r s₁ ∧ s' = s₁.rollback i := by
  have hends : ∀ s, Ends i (Tx.withSession p) s fun r s' =>
      r = (alone i p s).1 ∧ s' = ((alone i p s).2).rollback i := by
    clear h
    unfold Tx.withSession
    induction p with
    | ret a => exact fun s => ⟨rfl, rfl⟩
    | raise e => exact fun s => ⟨rfl, rfl⟩
    | call q k ih => exact fun s => ih (Db.answer i q s) (Db.effect i q s)
  obtain ⟨hr, hs'⟩ := hends s
  exact ⟨(alone i p s).2, hr ▸ h, hs'⟩

/-- The statement ends no transaction and writes none of certain tables. -/
def Sql.Spares (T : S.Table → Prop) : Sql S → Prop
  | .update u _ => ¬ T (S.target u)
  | .insert x => ¬ T (S.into x)
  | .commit | .rollback => False
  | _ => True

lemma Seen.spared {T : S.Table → Prop} {q : Sql S} (hq : q.Spares T) (h : Seen i s v c) :
    ∃ v', Seen i (Db.effect i q s) v' c ∧ ∀ t, T t → v' t = v t := by
  cases q with
  | commit => exact hq.elim
  | rollback => exact hq.elim
  | now => exact ⟨v, h.now, fun _ _ => rfl⟩
  | select t n => exact ⟨v, h, fun _ _ => rfl⟩
  | scan q => exact ⟨v, h, fun _ _ => rfl⟩
  | update u n => exact ⟨_, h.update u n, fun t ht => put_of_ne v n _ fun heq => hq (heq ▸ ht)⟩
  | insert x => exact ⟨_, h.insert x, fun t ht => put_of_ne v _ _ fun heq => hq (heq ▸ ht)⟩

/-- A program that spares certain tables leaves them as they are. -/
lemma Ends.spared {T : S.Table → Prop} (hp : p.Issues (Sql.Spares T)) (h : Seen i s v c) :
    Ends i p s fun _ s' => ∃ v', Seen i s' v' c ∧ ∀ t, T t → v' t = v t := by
  induction p generalizing s v with
  | ret a => exact ⟨v, h, fun _ _ => rfl⟩
  | raise e => exact ⟨v, h, fun _ _ => rfl⟩
  | call q k ih =>
      obtain ⟨v₁, h₁, hsame₁⟩ := h.spared hp.1
      obtain ⟨v', h', hsame⟩ := ih (Db.answer i q s) (hp.2 _) h₁
      exact ⟨v', h', fun t ht => (hsame t ht).trans (hsame₁ t ht)⟩

end Ends

end Txn
