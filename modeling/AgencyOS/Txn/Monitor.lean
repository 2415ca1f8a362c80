import AgencyOS.Txn.Histories
import AgencyOS.Txn.Store

/-!
Monitors: what a client does, judged by an automaton over its own history.

A monitor reads the statements of one client with their answers and says which statements the
client may issue next.  A program is checked against it piece by piece, with no store in sight;
what has been checked then holds of every event of every run.

* `Monitor`, `Monitor.after`: the automaton, and its state after a history;
* `Prog.Obeys`: a program issues only what the monitor allows; `Obeys.bind`, `Obeys.tryCatch` and
  `obeys_tally` say it of a composed program from its parts;
* `Rests`: a program that leaves the monitor at rest, however it ends;
* `Pool.Reach.obeys`: **a monitored pool issues only what its monitor allows**;
* `Pool.Reach.traced`, `Pool.Reach.monitored`: the invariant rules for the states of the monitors and the
  store, with and without the trace.
-/

namespace Txn

variable {S : Signature} {ι σ ε α β γ : Type}

/-- An automaton over the history of a client: where it starts, how it moves, and the statements
that it allows next. -/
structure Monitor (S : Signature) (γ : Type) where
  start : γ
  step : γ → Answered S → γ
  allows : γ → S.Stmt → Prop

/-- The state of a monitor after a history. -/
def Monitor.after (M : Monitor S γ) (h : List (Answered S)) : γ := h.foldl M.step M.start

@[simp] lemma Monitor.after_nil (M : Monitor S γ) : M.after [] = M.start := rfl

@[simp] lemma Monitor.after_snoc (M : Monitor S γ) (h : List (Answered S)) (x : Answered S) :
    M.after (h ++ [x]) = M.step (M.after h) x := by
  simp [Monitor.after]

namespace Prog

/-- From the state `g` the program issues only statements that the monitor allows, whatever it is
answered, and ends in a state and with a result in `Q`. -/
def Obeys (M : Monitor S γ) (Q : γ → Except ε α → Prop) : Prog S ε α → γ → Prop
  | ret a, g => Q g (.ok a)
  | raise e, g => Q g (.error e)
  | call q k, g => M.allows g q ∧ ∀ a, (k a).Obeys M Q (M.step g ⟨q, a⟩)

variable {M : Monitor S γ} {Q Q' : γ → Except ε α → Prop} {p : Prog S ε α} {g : γ}

@[simp] lemma obeys_ret {a : α} : (ret a : Prog S ε α).Obeys M Q g ↔ Q g (.ok a) := Iff.rfl

@[simp] lemma obeys_raise {e : ε} : (raise e : Prog S ε α).Obeys M Q g ↔ Q g (.error e) := Iff.rfl

lemma Obeys.mono (hp : p.Obeys M Q g) (hQ : ∀ g r, Q g r → Q' g r) : p.Obeys M Q' g := by
  induction p generalizing g with
  | ret a => exact hQ _ _ hp
  | raise e => exact hQ _ _ hp
  | call q k ih => exact ⟨hp.1, fun a => ih a (hp.2 a)⟩

/-- Sequencing: the second part is checked from every state in which the first can return. -/
theorem Obeys.bind {f : α → Prog S ε β} {R : γ → Except ε β → Prop} (hp : p.Obeys M Q g)
    (hok : ∀ g a, Q g (.ok a) → (f a).Obeys M R g)
    (herror : ∀ g e, Q g (.error e) → R g (.error e)) : (p.bind f).Obeys M R g := by
  induction p generalizing g with
  | ret a => exact hok g a hp
  | raise e => exact herror g e hp
  | call q k ih => exact ⟨hp.1, fun a => ih a (hp.2 a)⟩

/-- A handler is checked from every state in which the body can raise. -/
theorem Obeys.tryCatch {f : ε → Prog S ε α} (hp : p.Obeys M Q g)
    (hok : ∀ g a, Q g (.ok a) → Q' g (.ok a))
    (herror : ∀ g e, Q g (.error e) → (f e).Obeys M Q' g) : (p.tryCatch f).Obeys M Q' g := by
  induction p generalizing g with
  | ret a => exact hok g a hp
  | raise e => exact herror g e hp
  | call q k ih => exact ⟨hp.1, fun a => ih a (hp.2 a)⟩

/-- A program obeys if each statement it issues is allowed wherever `J` holds and keeps `J`. -/
lemma obeys_of_issues {φ : S.Stmt → Prop} {J : γ → Prop} (hp : p.Issues φ)
    (hallow : ∀ g q, φ q → J g → M.allows g q)
    (hstep : ∀ g q a, φ q → J g → J (M.step g ⟨q, a⟩)) (hg : J g) :
    p.Obeys M (fun g _ => J g) g := by
  induction p generalizing g with
  | ret a => exact hg
  | raise e => exact hg
  | call q k ih =>
      exact ⟨hallow g q hp.1 hg, fun a => ih a (hp.2 a) (hstep g q a hp.1 hg)⟩

end Prog

/-! ### Programs that leave the monitor at rest -/

/-- Started in a state in `J`, the program obeys the monitor and ends in `J`, however it ends. -/
def Rests (M : Monitor S γ) (J : γ → Prop) (p : Prog S ε α) : Prop :=
  ∀ g, J g → p.Obeys M (fun g _ => J g) g

section Rests

variable {M : Monitor S γ} {J : γ → Prop} {p : Prog S ε α}

lemma rests_ret (a : α) : Rests M J (.ret a : Prog S ε α) := fun _ h => h

lemma rests_raise (e : ε) : Rests M J (.raise e : Prog S ε α) := fun _ h => h

lemma Rests.bind {f : α → Prog S ε β} (hp : Rests M J p) (hf : ∀ a, Rests M J (f a)) :
    Rests M J (p.bind f) :=
  fun g hg => (hp g hg).bind (fun g a h => hf a g h) fun _ _ h => h

lemma Rests.tryCatch {f : ε → Prog S ε α} (hp : Rests M J p) (hf : ∀ e, Rests M J (f e)) :
    Rests M J (p.tryCatch f) :=
  fun g hg => (hp g hg).tryCatch (fun _ _ h => h) fun g e h => hf e g h

/-- A statement that is allowed at rest and leaves the monitor at rest. -/
lemma rests_call {q : S.Stmt} {k : S.Resp q → Prog S ε α} (hallow : ∀ g, J g → M.allows g q)
    (hstep : ∀ g a, J g → J (M.step g ⟨q, a⟩)) (hk : ∀ a, Rests M J (k a)) :
    Rests M J (.call q k) :=
  fun g hg => ⟨hallow g hg, fun a => hk a _ (hstep g a hg)⟩

lemma rests_tally {f : β → Prog S ε ℕ} (hf : ∀ x, Rests M J (f x)) :
    ∀ xs : List β, Rests M J (Prog.tally xs f)
  | [] => rests_ret 0
  | x :: xs => (hf x).bind fun _ => (rests_tally hf xs).bind fun _ => rests_ret _

end Rests

/-- A session is at rest if its body is. -/
lemma Rests.withSession {T : Schema} {M : Monitor (sql T) γ} {J : γ → Prop} {p : Tx T ε α}
    (hp : Rests M J p) (hallow : ∀ g, J g → M.allows g .rollback)
    (hstep : ∀ g, J g → J (M.step g ⟨.rollback, ()⟩)) : Rests M J (Tx.withSession p) :=
  Rests.tryCatch
    (hp.bind fun a => rests_call hallow (fun g _ => hstep g) fun _ => rests_ret a)
    fun e => rests_call hallow (fun g _ => hstep g) fun _ => rests_raise e

/-! ### Runs -/

section Runs

variable [DecidableEq ι] {srv : Server S ι σ} {procs : ι → Prog S ε α} {s : σ} {M : Monitor S γ}
  {c : Pool S ι σ ε α}

/-- The state of the monitor of client `i` after a trace. -/
def Monitor.of (M : Monitor S γ) (srv : Server S ι σ) (i : ι) (tr : List (Event S ι σ)) : γ :=
  M.after (history srv i tr)

@[simp] lemma Monitor.of_nil (i : ι) : M.of srv i [] = M.start := rfl

lemma Monitor.of_self (i : ι) (tr : List (Event S ι σ)) (q : S.Stmt) (s s' : σ) :
    M.of srv i (tr ++ [⟨i, q, s, s'⟩]) = M.step (M.of srv i tr) ⟨q, srv.answer i q s⟩ := by
  rw [Monitor.of, history_self, Monitor.after_snoc]
  rfl

lemma Monitor.of_other {i : ι} {tr : List (Event S ι σ)} {ev : Event S ι σ} (h : ev.pid ≠ i) :
    M.of srv i (tr ++ [ev]) = M.of srv i tr := by
  rw [Monitor.of, history_other h]
  rfl

/-- **A monitored pool issues only what its monitor allows**, and what is left of each program
obeys it from the state the monitor has come to. -/
theorem Pool.Reach.obeys {Q : ι → γ → Except ε α → Prop} (h : Pool.Reach srv (.start procs s) c)
    (hp : ∀ i, (procs i).Obeys M (Q i) M.start) (hhangup : ∀ g, M.allows g srv.hangup) :
    Along (fun past ev => M.allows (M.of srv ev.pid past) ev.stmt) c.trace
      ∧ ∀ i p, c.procs i = some p → p.Obeys M (Q i) (M.of srv i c.trace) := by
  induction h with
  | refl =>
      refine ⟨trivial, fun i p hpi => ?_⟩
      obtain rfl := Option.some.inj hpi
      exact hp i
  | @tail c₁ c₂ m _ hm ih =>
      obtain ⟨halong, hrest⟩ := ih
      rcases Pool.move_cases hm with ⟨j, q, k, hpj, -, rfl⟩ | ⟨j, -, rfl⟩
      · obtain ⟨hallow, hk⟩ := hrest j _ hpj
        refine ⟨(along_snoc _ _).mpr ⟨halong, hallow⟩, fun i p hpi => ?_⟩
        by_cases hij : i = j
        · subst hij
          simp only [Pool.exec, Function.update_self, Option.some.injEq] at hpi
          subst hpi
          rw [Pool.exec, Monitor.of_self]
          exact hk _
        · simp only [Pool.exec, Function.update_of_ne hij] at hpi
          rw [Pool.exec, Monitor.of_other fun heq => hij heq.symm]
          exact hrest i p hpi
      · refine ⟨(along_snoc _ _).mpr ⟨halong, hhangup _⟩, fun i p hpi => ?_⟩
        by_cases hij : i = j
        · subst hij
          simp [Pool.drop] at hpi
        · simp only [Pool.drop, Function.update_of_ne hij] at hpi
          rw [Pool.drop, Monitor.of_other fun heq => hij heq.symm]
          exact hrest i p hpi

/-- The invariant rule for the states of the monitors, the trace and the store. -/
theorem Pool.Reach.traced {Q : ι → γ → Except ε α → Prop}
    {I : (ι → γ) → List (Event S ι σ) → σ → Prop} (h : Pool.Reach srv (.start procs s) c)
    (hp : ∀ i, (procs i).Obeys M (Q i) M.start) (hhangup : ∀ g, M.allows g srv.hangup)
    (hs : I (fun _ => M.start) [] s)
    (hstep : ∀ g tr i q s, I g tr s → M.allows (g i) q → srv.ready i q s = true →
      I (Function.update g i (M.step (g i) ⟨q, srv.answer i q s⟩))
        (tr ++ [⟨i, q, s, srv.effect i q s⟩]) (srv.effect i q s)) :
    I (fun i => M.of srv i c.trace) c.trace c.store := by
  -- the monitor of the session that moves goes on, the others stay
  have hof : ∀ (tr : List (Event S ι σ)) (i : ι) (q : S.Stmt) (s : σ),
      (fun j => M.of srv j (tr ++ [⟨i, q, s, srv.effect i q s⟩]))
        = Function.update (fun j => M.of srv j tr) i
            (M.step (M.of srv i tr) ⟨q, srv.answer i q s⟩) := by
    intro tr i q s
    funext j
    by_cases hij : j = i
    · subst hij
      rw [Function.update_self, Monitor.of_self]
    · rw [Function.update_of_ne hij, Monitor.of_other fun heq => hij heq.symm]
  induction h with
  | refl => exact hs
  | @tail c₁ c₂ m hr hm ih =>
      rcases Pool.move_cases hm with ⟨j, q, k, hpj, hready, rfl⟩ | ⟨j, hready, rfl⟩
      · have hallow := ((hr.obeys hp hhangup).2 j _ hpj).1
        have hnext := hstep _ _ j q _ ih hallow hready
        rw [← hof] at hnext
        exact hnext
      · have hnext := hstep _ _ j _ _ ih (hhangup _) hready
        rw [← hof] at hnext
        exact hnext

/-- **The invariant rule for monitored pools**: an invariant of the states of the monitors and of the
store, kept by every statement that the monitor of its session allows and that meets the condition,
holds in every pool reached, and at every event of its trace. -/
theorem Pool.Reach.monitored {Q : ι → γ → Except ε α → Prop} {C : Event S ι σ → Prop}
    {I : (ι → γ) → σ → Prop} (h : Pool.Reach srv (.start procs s) c)
    (hp : ∀ i, (procs i).Obeys M (Q i) M.start) (hhangup : ∀ g, M.allows g srv.hangup)
    (hs : I (fun _ => M.start) s)
    (hstep : ∀ g i q s, I g s → M.allows (g i) q → srv.ready i q s = true →
      C ⟨i, q, s, srv.effect i q s⟩ →
      I (Function.update g i (M.step (g i) ⟨q, srv.answer i q s⟩)) (srv.effect i q s))
    (hC : ∀ ev ∈ c.trace, C ev) :
    I (fun i => M.of srv i c.trace) c.store ∧ ∀ ev ∈ c.trace, ∃ g, I g ev.before
      ∧ M.allows (g ev.pid) ev.stmt ∧ srv.ready ev.pid ev.stmt ev.before = true
      ∧ ev.after = srv.effect ev.pid ev.stmt ev.before := by
  -- along a trace that meets the condition
  let Inv : (ι → γ) → List (Event S ι σ) → σ → Prop := fun g tr s => (∀ ev ∈ tr, C ev) →
    I g s ∧ ∀ ev ∈ tr, ∃ g, I g ev.before ∧ M.allows (g ev.pid) ev.stmt
      ∧ srv.ready ev.pid ev.stmt ev.before = true ∧ ev.after = srv.effect ev.pid ev.stmt ev.before
  have hall : Inv (fun i => M.of srv i c.trace) c.trace c.store := by
    refine h.traced hp hhangup (fun _ => ⟨hs, fun ev hev => (by cases hev)⟩) ?_
    intro g tr i q s ih hallow hready hC
    obtain ⟨hI, hevents⟩ := ih fun ev hev => hC ev (List.mem_append_left _ hev)
    have hlast := hC _ (List.mem_append_right _ (List.mem_singleton_self _))
    refine ⟨hstep _ i q _ hI hallow hready hlast, fun ev hev => ?_⟩
    rcases List.mem_append.mp hev with hold | hnew
    · exact hevents ev hold
    · obtain rfl := List.mem_singleton.mp hnew
      exact ⟨_, hI, hallow, hready, rfl⟩
  exact hall hC

end Runs

end Txn
