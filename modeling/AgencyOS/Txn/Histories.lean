import AgencyOS.Txn.Pool

/-!
What a program has done: the statements it has executed, each with its answer.

A history of a program is a path through it.  It says all that the program has learnt of the store,
so what a program does amid any interference follows from its histories alone.

* `Prog.Runs`: a history of a program, and the result it ends with;
* `Prog.During`: a program run to its end in the course of a history, and
  `during_of_tally`: **a loop that ends has run its body for every element**;
* `Prog.Raises`: which answers make a program raise; `Raises.bind`, `Raises.tryCatch` and
  `raises_tally` say it of a composed program from its parts, and `Raises.runs` of every history;
* `Pool.Reach.runs`: the statements of a client that has finished are a history of its program.
-/

namespace Txn

variable {S : Signature} {ι σ ε α β : Type}

/-- A statement with its answer. -/
abbrev Answered (S : Signature) : Type := (q : S.Stmt) × S.Resp q

namespace Prog

/-- The program executes the statements of `h`, answered so, and ends with `r`. -/
def Runs : Prog S ε α → List (Answered S) → Except ε α → Prop
  | ret a, h, r => h = [] ∧ r = .ok a
  | raise e, h, r => h = [] ∧ r = .error e
  | call q k, h, r => ∃ a h', h = ⟨q, a⟩ :: h' ∧ (k a).Runs h' r

variable {p : Prog S ε α} {q : S.Stmt} {h : List (Answered S)} {r : Except ε α}

@[simp] lemma runs_ret {a : α} : (ret a : Prog S ε α).Runs h r ↔ h = [] ∧ r = .ok a := Iff.rfl

@[simp] lemma runs_raise {e : ε} : (raise e : Prog S ε α).Runs h r ↔ h = [] ∧ r = .error e := Iff.rfl

@[simp] lemma runs_call {k : S.Resp q → Prog S ε α} :
    (call q k).Runs h r ↔ ∃ a h', h = ⟨q, a⟩ :: h' ∧ (k a).Runs h' r := Iff.rfl

/-- A history of a composed program is one of its first part, which raises or is followed by one of
the second. -/
lemma runs_bind {f : α → Prog S ε β} {r : Except ε β} :
    (p.bind f).Runs h r ↔ (∃ e, p.Runs h (.error e) ∧ r = .error e)
      ∨ ∃ h₁ h₂ a, h = h₁ ++ h₂ ∧ p.Runs h₁ (.ok a) ∧ (f a).Runs h₂ r := by
  induction p generalizing h with
  | ret a =>
      constructor
      · exact fun hr => Or.inr ⟨[], h, a, rfl, ⟨rfl, rfl⟩, hr⟩
      · rintro (⟨e, ⟨-, he⟩, -⟩ | ⟨h₁, h₂, a', rfl, ⟨rfl, ha⟩, hr⟩)
        · cases he
        · obtain rfl := Except.ok.inj ha
          exact hr
  | raise e =>
      constructor
      · rintro ⟨rfl, rfl⟩
        exact Or.inl ⟨e, ⟨rfl, rfl⟩, rfl⟩
      · rintro (⟨e', ⟨rfl, he⟩, rfl⟩ | ⟨h₁, h₂, a', -, ⟨-, ha⟩, -⟩)
        · obtain rfl := Except.error.inj he
          exact ⟨rfl, rfl⟩
        · cases ha
  | call q k ih =>
      constructor
      · rintro ⟨a, h', rfl, hr⟩
        rcases (ih a).mp hr with ⟨e, he, rfl⟩ | ⟨h₁, h₂, b, rfl, h₁r, h₂r⟩
        · exact Or.inl ⟨e, ⟨a, h', rfl, he⟩, rfl⟩
        · exact Or.inr ⟨⟨q, a⟩ :: h₁, h₂, b, rfl, ⟨a, h₁, rfl, h₁r⟩, h₂r⟩
      · rintro (⟨e, ⟨a, h', rfl, he⟩, rfl⟩ | ⟨_, h₂, b, rfl, ⟨a, h₁, rfl, h₁r⟩, h₂r⟩)
        · exact ⟨a, h', rfl, (ih a).mpr (Or.inl ⟨e, he, rfl⟩)⟩
        · exact ⟨a, h₁ ++ h₂, rfl, (ih a).mpr (Or.inr ⟨h₁, h₂, b, rfl, h₁r, h₂r⟩)⟩

/-- A history of a handled program is one of its body, which returns or is followed by one of the
handler. -/
lemma runs_tryCatch {g : ε → Prog S ε α} :
    (p.tryCatch g).Runs h r ↔ (∃ a, p.Runs h (.ok a) ∧ r = .ok a)
      ∨ ∃ h₁ h₂ e, h = h₁ ++ h₂ ∧ p.Runs h₁ (.error e) ∧ (g e).Runs h₂ r := by
  induction p generalizing h with
  | ret a =>
      constructor
      · rintro ⟨rfl, rfl⟩
        exact Or.inl ⟨a, ⟨rfl, rfl⟩, rfl⟩
      · rintro (⟨a', ⟨rfl, ha⟩, rfl⟩ | ⟨h₁, h₂, e, -, ⟨-, he⟩, -⟩)
        · exact ⟨rfl, ha⟩
        · cases he
  | raise e =>
      constructor
      · exact fun hr => Or.inr ⟨[], h, e, rfl, ⟨rfl, rfl⟩, hr⟩
      · rintro (⟨a, ⟨-, ha⟩, -⟩ | ⟨h₁, h₂, e', rfl, ⟨rfl, he⟩, hr⟩)
        · cases ha
        · obtain rfl := Except.error.inj he
          exact hr
  | call q k ih =>
      constructor
      · rintro ⟨a, h', rfl, hr⟩
        rcases (ih a).mp hr with ⟨b, hb, rfl⟩ | ⟨h₁, h₂, e, rfl, h₁r, h₂r⟩
        · exact Or.inl ⟨b, ⟨a, h', rfl, hb⟩, rfl⟩
        · exact Or.inr ⟨⟨q, a⟩ :: h₁, h₂, e, rfl, ⟨a, h₁, rfl, h₁r⟩, h₂r⟩
      · rintro (⟨b, ⟨a, h', rfl, hb⟩, rfl⟩ | ⟨_, h₂, e, rfl, ⟨a, h₁, rfl, h₁r⟩, h₂r⟩)
        · exact ⟨a, h', rfl, (ih a).mpr (Or.inl ⟨b, hb, rfl⟩)⟩
        · exact ⟨a, h₁ ++ h₂, rfl, (ih a).mpr (Or.inr ⟨h₁, h₂, e, rfl, h₁r, h₂r⟩)⟩

/-- A composed program that returns has run both parts to their ends. -/
lemma ok_of_runs_bind {f : α → Prog S ε β} {b : β} (hr : (p.bind f).Runs h (.ok b)) :
    ∃ h₁ h₂ a, h = h₁ ++ h₂ ∧ p.Runs h₁ (.ok a) ∧ (f a).Runs h₂ (.ok b) := by
  rcases runs_bind.mp hr with ⟨e, -, he⟩ | hboth
  · cases he
  · exact hboth

/-! ### In the course of a history -/

/-- In the course of the history `h` the program was run, and returned `a`. -/
def During (p : Prog S ε α) (h : List (Answered S)) (a : α) : Prop :=
  ∃ h₁ h₂ h₃, h = h₁ ++ h₂ ++ h₃ ∧ p.Runs h₂ (.ok a)

lemma Runs.during {a : α} (hr : p.Runs h (.ok a)) : p.During h a := ⟨[], h, [], by simp, hr⟩

lemma During.mid {a : α} (hd : p.During h a) (h' h'' : List (Answered S)) :
    p.During (h' ++ h ++ h'') a := by
  obtain ⟨h₁, h₂, h₃, rfl, hr⟩ := hd
  exact ⟨h' ++ h₁, h₂, h₃ ++ h'', by simp, hr⟩

lemma During.append_left {a : α} (hd : p.During h a) (h' : List (Answered S)) :
    p.During (h' ++ h) a := by
  simpa using hd.mid h' []

lemma During.append_right {a : α} (hd : p.During h a) (h' : List (Answered S)) :
    p.During (h ++ h') a := by
  simpa using hd.mid [] h'

/-- **A loop that ends has run its body for every element.** -/
theorem during_of_tally {f : β → Prog S ε ℕ} {xs : List β} {n : ℕ}
    (hr : (tally xs f).Runs h (.ok n)) : ∀ x ∈ xs, ∃ m, (f x).During h m := by
  induction xs generalizing h n with
  | nil => exact fun x hx => by cases hx
  | cons x xs ih =>
      obtain ⟨h₁, h₂, a, rfl, hfirst, hrest⟩ := ok_of_runs_bind hr
      obtain ⟨h₃, h₄, b, rfl, hloop, hend⟩ := ok_of_runs_bind hrest
      intro y hy
      rcases List.mem_cons.mp hy with rfl | hy
      · exact ⟨a, hfirst.during.append_right _⟩
      · obtain ⟨m, hm⟩ := ih hloop y hy
        exact ⟨m, (hm.append_right h₄).append_left h₁⟩

/-! ### Which answers make a program raise -/

/-- The program never returns, and raises an exception in `F`. -/
def Fails (F : ε → Prop) : Prog S ε α → Prop
  | ret _ => False
  | raise e => F e
  | call _ k => ∀ a, (k a).Fails F

/-- After the history `h`, and as long as it goes on within `A`: an answer in `φ` makes the program
raise an exception in `F`, and without one it returns or raises an exception in `E`. -/
def Raises (A : List (Answered S) → Prop) (φ : Answered S → Prop) (E F : ε → Prop) :
    Prog S ε α → List (Answered S) → Prop
  | ret _, _ => True
  | raise e, _ => E e
  | call q k, h => ∀ a, A (h ++ [⟨q, a⟩]) →
      (φ ⟨q, a⟩ → (k a).Fails F) ∧ (¬ φ ⟨q, a⟩ → (k a).Raises A φ E F (h ++ [⟨q, a⟩]))

section Raises

variable {A : List (Answered S) → Prop} {φ : Answered S → Prop} {E E' F F' : ε → Prop}
  {h₁ h₂ : List (Answered S)}

@[simp] lemma fails_raise {e : ε} : (raise e : Prog S ε α).Fails F ↔ F e := Iff.rfl

@[simp] lemma raises_ret {a : α} : (ret a : Prog S ε α).Raises A φ E F h := trivial

@[simp] lemma raises_raise {e : ε} : (raise e : Prog S ε α).Raises A φ E F h ↔ E e := Iff.rfl

lemma Fails.bind {f : α → Prog S ε β} (hp : p.Fails F) : (p.bind f).Fails F := by
  induction p with
  | ret a => exact hp.elim
  | raise e => exact hp
  | call q k ih => exact fun a => ih a (hp a)

lemma Fails.tryCatch {g : ε → Prog S ε α} (hp : p.Fails F) (hg : ∀ e, F e → (g e).Fails F') :
    (p.tryCatch g).Fails F' := by
  induction p with
  | ret a => exact hp.elim
  | raise e => exact hg e hp
  | call q k ih => exact fun a => ih a (hp a)

lemma Fails.runs (hp : p.Fails F) (hr : p.Runs h r) : ∃ e, r = .error e ∧ F e := by
  induction p generalizing h with
  | ret a => exact hp.elim
  | raise e => exact ⟨e, hr.2, hp⟩
  | call q k ih =>
      obtain ⟨a, h', -, hr⟩ := hr
      exact ih a (hp a) hr

/-- Sequencing: the second part is checked from the results that the first can return. -/
theorem Raises.bind_of_returns {ψ : α → Prop} {f : α → Prog S ε β} (hp : p.Raises A φ E F h)
    (hψ : p.Returns ψ) (hf : ∀ a h', ψ a → (f a).Raises A φ E F (h ++ h')) :
    (p.bind f).Raises A φ E F h := by
  induction p generalizing h with
  | ret a => simpa using hf a [] hψ
  | raise e => exact hp
  | call q k ih =>
      intro a ha
      refine ⟨fun hφ => ((hp a ha).1 hφ).bind, fun hφ => ?_⟩
      refine ih a ((hp a ha).2 hφ) (hψ a) fun b h' hb => ?_
      rw [List.append_assoc]
      exact hf b ([⟨q, a⟩] ++ h') hb

/-- Sequencing: the second part is checked from every result of the first. -/
theorem Raises.bind {f : α → Prog S ε β} (hp : p.Raises A φ E F h)
    (hf : ∀ a h', (f a).Raises A φ E F (h ++ h')) : (p.bind f).Raises A φ E F h :=
  hp.bind_of_returns p.returns_true fun a h' _ => hf a h'

/-- A handler goes on after the exceptions in `E`, and fails after those in `F`. -/
theorem Raises.tryCatch {g : ε → Prog S ε α} (hp : p.Raises A φ E F h)
    (hE : ∀ e h', E e → (g e).Raises A φ E' F' (h ++ h')) (hF : ∀ e, F e → (g e).Fails F') :
    (p.tryCatch g).Raises A φ E' F' h := by
  induction p generalizing h with
  | ret a => trivial
  | raise e => simpa using hE e [] hp
  | call q k ih =>
      intro a ha
      refine ⟨fun hφ => ((hp a ha).1 hφ).tryCatch hF, fun hφ => ?_⟩
      refine ih a ((hp a ha).2 hφ) fun e h' he => ?_
      rw [List.append_assoc]
      exact hE e ([⟨q, a⟩] ++ h') he

/-- A loop raises what its body raises. -/
theorem raises_tally {f : β → Prog S ε ℕ} (hf : ∀ x h, (f x).Raises A φ E F h) :
    ∀ (xs : List β) (h : List (Answered S)), (tally xs f).Raises A φ E F h
  | [], _ => trivial
  | x :: xs, h => (hf x h).bind fun _ _ => (raises_tally hf xs _).bind fun _ _ => trivial

/-- **What is checked holds of every history.** -/
theorem Raises.runs (hA : ∀ h₁ h₂, A (h₁ ++ h₂) → A h₁) (hp : p.Raises A φ E F h₁)
    (hr : p.Runs h₂ r) (hh : A (h₁ ++ h₂)) :
    ((∃ x ∈ h₂, φ x) → ∃ e, r = .error e ∧ F e)
      ∧ ((∀ x ∈ h₂, ¬ φ x) → ∀ e, r = .error e → E e) := by
  induction p generalizing h₁ h₂ with
  | ret a =>
      obtain ⟨rfl, rfl⟩ := hr
      refine ⟨?_, fun _ e he => ?_⟩
      · rintro ⟨x, hx, -⟩
        cases hx
      · cases he
  | raise e =>
      obtain ⟨rfl, rfl⟩ := hr
      refine ⟨?_, fun _ e' he => ?_⟩
      · rintro ⟨x, hx, -⟩
        cases hx
      · obtain rfl := Except.error.inj he
        exact hp
  | call q k ih =>
      obtain ⟨a, h', rfl, hr⟩ := hr
      have hh' : A ((h₁ ++ [⟨q, a⟩]) ++ h') := by
        rw [List.append_assoc]
        exact hh
      obtain ⟨hmet, hunmet⟩ := hp a (hA _ _ hh')
      by_cases hφ : φ ⟨q, a⟩
      · exact ⟨fun _ => (hmet hφ).runs hr, fun hnone => absurd hφ (hnone _ List.mem_cons_self)⟩
      · obtain ⟨hsome, hnone⟩ := ih a (hunmet hφ) hr hh'
        refine ⟨?_, fun hall => hnone fun x hx => hall x (List.mem_cons_of_mem _ hx)⟩
        rintro ⟨x, hx, hφx⟩
        rcases List.mem_cons.mp hx with rfl | hx
        · exact absurd hφx hφ
        · exact hsome ⟨x, hx, hφx⟩

end Raises

end Prog

/-! ### Clients of a pool -/

/-- The statement of an event, with the answer it got. -/
def Event.answered (srv : Server S ι σ) (ev : Event S ι σ) : Answered S :=
  ⟨ev.stmt, srv.answer ev.pid ev.stmt ev.before⟩

section Clients

variable [DecidableEq ι] {srv : Server S ι σ} {procs : ι → Prog S ε α} {s : σ}
  {c : Pool S ι σ ε α}

/-- What client `i` has executed, with the answers. -/
def history (srv : Server S ι σ) (i : ι) (tr : List (Event S ι σ)) : List (Answered S) :=
  (own i tr).map (Event.answered srv)

lemma history_self (srv : Server S ι σ) (i : ι) (tr : List (Event S ι σ)) (q : S.Stmt) (s s' : σ) :
    history srv i (tr ++ [⟨i, q, s, s'⟩]) = history srv i tr ++ [⟨q, srv.answer i q s⟩] := by
  simp [history, Event.answered]

lemma history_other {i : ι} {tr : List (Event S ι σ)} {ev : Event S ι σ} (h : ev.pid ≠ i) :
    history srv i (tr ++ [ev]) = history srv i tr := by
  simp [history, own_other h]

/-- **The statements of a client are a history of its program**: what is left of the program goes on
from there. -/
theorem Pool.Reach.runs (h : Pool.Reach srv (.start procs s) c) {i : ι} {p : Prog S ε α}
    (hp : c.procs i = some p) {tl : List (Answered S)} {r : Except ε α} (hr : p.Runs tl r) :
    (procs i).Runs (history srv i c.trace ++ tl) r := by
  induction h generalizing p tl with
  | refl =>
      obtain rfl := Option.some.inj hp
      exact hr
  | @tail c₁ c₂ m _ hm ih =>
      rcases Pool.move_cases hm with ⟨j, q, k, hpj, -, rfl⟩ | ⟨j, -, rfl⟩
      · by_cases hij : i = j
        · subst hij
          simp only [Pool.exec, Function.update_self, Option.some.injEq] at hp
          subst hp
          rw [Pool.exec, history_self, List.append_assoc]
          exact ih hpj ⟨_, tl, rfl, hr⟩
        · simp only [Pool.exec, Function.update_of_ne hij] at hp
          rw [Pool.exec, history_other fun heq => hij heq.symm]
          exact ih hp hr
      · by_cases hij : i = j
        · subst hij
          simp [Pool.drop] at hp
        · simp only [Pool.drop, Function.update_of_ne hij] at hp
          rw [Pool.drop, history_other fun heq => hij heq.symm]
          exact ih hp hr

/-- What a finished client has executed leads its program to its result. -/
theorem Pool.Reach.runs_of_result (h : Pool.Reach srv (.start procs s) c) {i : ι} {p : Prog S ε α}
    (hp : c.procs i = some p) {r : Except ε α} (hr : p.result? = some r) :
    (procs i).Runs (history srv i c.trace) r := by
  have hend : p.Runs [] r := by
    cases p with
    | ret a => exact ⟨rfl, (Option.some.inj hr).symm⟩
    | raise e => exact ⟨rfl, (Option.some.inj hr).symm⟩
    | call q k => cases hr
  simpa using h.runs hp hend

end Clients

end Txn
