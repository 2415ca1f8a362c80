import AgencyOS.Txn.Pool

/-!
Rely-guarantee reasoning about the programs of a pool.

A `Contract` says what every client may count on: an invariant of the trace and the store, a
condition the run is assumed to meet, what each event of a client guarantees, and what a
client relies on between two of its own statements; guarantees and relies may look at the
events the client itself has executed so far.  `Meets` checks one program against a contract,
statement by statement, and says what holds whenever it has finished; `meets_ask` checks one
statement, and `Meets.bind`, `Meets.tryCatch` and `Meets.tally` compose such checks along a
program.

* `Contract.Compatible`: what one client guarantees is what the others rely on;
* `Pool.Reach.meets`: if every program meets a compatible contract, then in every pool reached
  along which the assumed condition holds, the invariant holds, every event met its guarantee,
  and every finished program has its postcondition;
* `Pool.Reach.invariant`, `Pool.Reach.issues`: the invariant rule for programs known only
  through the statements they can issue.
-/

namespace Txn

variable {S : Signature} {ι σ ε α β : Type}

/-- What the clients of a pool may count on. -/
structure Contract (S : Signature) (ι σ : Type) where
  inv : List (Event S ι σ) → σ → Prop
  assume : List (Event S ι σ) → Event S ι σ → Prop
  guar : ι → List (Event S ι σ) → Event S ι σ → Prop
  rely : ι → List (Event S ι σ) → σ → σ → Prop

/-- What holds when a program has finished: its events, its result and the store. -/
abbrev Post (S : Signature) (ι σ ε α : Type) : Type :=
  List (Event S ι σ) → Except ε α → σ → Prop

section Meets

variable [DecidableEq ι]

/-- Client `i`, having executed the events `h` and left the store `s`, keeps the contract when
it runs the program, and has the postcondition `Q` whenever it has finished. -/
def Meets (K : Contract S ι σ) (srv : Server S ι σ) (i : ι) (Q : Post S ι σ ε α) :
    Prog S ε α → List (Event S ι σ) → σ → Prop
  | .ret a, h, s => ∀ tr s', own i tr = h → K.rely i h s s' → K.inv tr s' → Q h (.ok a) s'
  | .raise e, h, s => ∀ tr s', own i tr = h → K.rely i h s s' → K.inv tr s' → Q h (.error e) s'
  | .call q k, h, s => ∀ tr s', own i tr = h → K.rely i h s s' → K.inv tr s' →
      srv.ready i q s' = true → K.assume tr ⟨i, q, s', srv.effect i q s'⟩ →
      K.inv (tr ++ [⟨i, q, s', srv.effect i q s'⟩]) (srv.effect i q s')
        ∧ K.guar i h ⟨i, q, s', srv.effect i q s'⟩
        ∧ Meets K srv i Q (k (srv.answer i q s')) (h ++ [⟨i, q, s', srv.effect i q s'⟩])
            (srv.effect i q s')

/-- What one client guarantees is what every other relies on, and relies compose. -/
structure Contract.Compatible (K : Contract S ι σ) (srv : Server S ι σ) : Prop where
  refl : ∀ i h s, K.rely i h s s
  trans : ∀ i h s₁ s₂ s₃, K.rely i h s₁ s₂ → K.rely i h s₂ s₃ → K.rely i h s₁ s₃
  step : ∀ tr (ev : Event S ι σ) j, j ≠ ev.pid → K.inv tr ev.before → K.assume tr ev →
    srv.ready ev.pid ev.stmt ev.before = true →
    ev.after = srv.effect ev.pid ev.stmt ev.before →
    K.guar ev.pid (own ev.pid tr) ev → K.rely j (own j tr) ev.before ev.after
  hangup : ∀ tr i s, K.inv tr s → srv.ready i srv.hangup s = true →
    K.assume tr ⟨i, srv.hangup, s, srv.effect i srv.hangup s⟩ →
    K.inv (tr ++ [⟨i, srv.hangup, s, srv.effect i srv.hangup s⟩]) (srv.effect i srv.hangup s)
      ∧ K.guar i (own i tr) ⟨i, srv.hangup, s, srv.effect i srv.hangup s⟩

variable {K : Contract S ι σ} {srv : Server S ι σ} {i : ι} {Q Q' : Post S ι σ ε α}
  {p : Prog S ε α} {h : List (Event S ι σ)} {s s' : σ}

/-- The interference before a program starts may be granted first. -/
lemma meets_of_rely (hK : K.Compatible srv)
    (H : ∀ tr s', own i tr = h → K.rely i h s s' → K.inv tr s' → Meets K srv i Q p h s') :
    Meets K srv i Q p h s := by
  cases p with
  | ret a => exact fun tr s' ht hr hI => H tr s' ht hr hI tr s' ht (hK.refl ..) hI
  | raise e => exact fun tr s' ht hr hI => H tr s' ht hr hI tr s' ht (hK.refl ..) hI
  | call q k =>
      exact fun tr s' ht hr hI hready has => H tr s' ht hr hI tr s' ht (hK.refl ..) hI hready has

/-- A check survives the interference of the others. -/
lemma Meets.after_rely (hK : K.Compatible srv) (H : Meets K srv i Q p h s)
    (hr : K.rely i h s s') : Meets K srv i Q p h s' := by
  cases p with
  | ret a => exact fun tr s₂ ht hr' hI => H tr s₂ ht (hK.trans _ _ _ _ _ hr hr') hI
  | raise e => exact fun tr s₂ ht hr' hI => H tr s₂ ht (hK.trans _ _ _ _ _ hr hr') hI
  | call q k =>
      exact fun tr s₂ ht hr' hI hready has =>
        H tr s₂ ht (hK.trans _ _ _ _ _ hr hr') hI hready has

lemma Meets.mono (H : Meets K srv i Q p h s) (hQ : ∀ h r s, Q h r s → Q' h r s) :
    Meets K srv i Q' p h s := by
  induction p generalizing h s with
  | ret a => exact fun tr s' ht hr hI => hQ _ _ _ (H tr s' ht hr hI)
  | raise e => exact fun tr s' ht hr hI => hQ _ _ _ (H tr s' ht hr hI)
  | call q k ih =>
      intro tr s' ht hr hI hready has
      obtain ⟨h₁, h₂, h₃⟩ := H tr s' ht hr hI hready has
      exact ⟨h₁, h₂, ih _ h₃⟩

/-- A check may add what the results of the program are known to satisfy. -/
lemma Meets.returns {ψ : α → Prop} (H : Meets K srv i Q p h s) (hp : p.Returns ψ) :
    Meets K srv i (fun h r s => Q h r s ∧ ∀ a, r = .ok a → ψ a) p h s := by
  induction p generalizing h s with
  | ret a =>
      refine fun tr s' ht hr hI => ⟨H tr s' ht hr hI, fun b hb => ?_⟩
      obtain rfl := Except.ok.inj hb
      exact hp
  | raise e =>
      refine fun tr s' ht hr hI => ⟨H tr s' ht hr hI, fun b hb => ?_⟩
      cases hb
  | call q k ih =>
      intro tr s' ht hr hI hready has
      obtain ⟨h₁, h₂, h₃⟩ := H tr s' ht hr hI hready has
      exact ⟨h₁, h₂, ih _ h₃ (hp _)⟩

/-- A check may add what the exceptions of the program are known to satisfy. -/
lemma Meets.throws {F : ε → Prop} (H : Meets K srv i Q p h s) (hp : p.Throws F) :
    Meets K srv i (fun h r s => Q h r s ∧ ∀ e, r = .error e → F e) p h s := by
  induction p generalizing h s with
  | ret a =>
      refine fun tr s' ht hr hI => ⟨H tr s' ht hr hI, fun e he => ?_⟩
      cases he
  | raise e =>
      refine fun tr s' ht hr hI => ⟨H tr s' ht hr hI, fun e' he => ?_⟩
      obtain rfl := Except.error.inj he
      exact hp
  | call q k ih =>
      intro tr s' ht hr hI hready has
      obtain ⟨h₁, h₂, h₃⟩ := H tr s' ht hr hI hready has
      exact ⟨h₁, h₂, ih _ h₃ (hp _)⟩

/-- One statement: what held of the store it was executed on, and the interference since. -/
theorem meets_ask {q : S.Stmt} {P : σ → Prop}
    (hstep : ∀ tr s₁, own i tr = h → K.rely i h s s₁ → K.inv tr s₁ → srv.ready i q s₁ = true →
      K.assume tr ⟨i, q, s₁, srv.effect i q s₁⟩ →
      K.inv (tr ++ [⟨i, q, s₁, srv.effect i q s₁⟩]) (srv.effect i q s₁)
        ∧ K.guar i h ⟨i, q, s₁, srv.effect i q s₁⟩ ∧ P s₁) :
    Meets K srv i (fun h' r s' => ∃ s₁, P s₁ ∧ h' = h ++ [⟨i, q, s₁, srv.effect i q s₁⟩]
      ∧ r = .ok (srv.answer i q s₁) ∧ K.rely i h' (srv.effect i q s₁) s')
      (Prog.ask q : Prog S ε (S.Resp q)) h s := by
  intro tr s₁ ht hr hI hready has
  obtain ⟨hI', hg, hP⟩ := hstep tr s₁ ht hr hI hready has
  exact ⟨hI', hg, fun _ s₂ _ hr' _ => ⟨s₁, hP, rfl, rfl, hr'⟩⟩

/-- Sequencing: the second program is checked from what the first one ensures. -/
theorem Meets.bind (hK : K.Compatible srv) {Q₁ : Post S ι σ ε β} {p : Prog S ε β}
    {f : β → Prog S ε α} (H : Meets K srv i Q₁ p h s)
    (hok : ∀ h b s, Q₁ h (.ok b) s → Meets K srv i Q (f b) h s)
    (herr : ∀ h e s, Q₁ h (.error e) s → Q h (.error e) s) :
    Meets K srv i Q (p.bind f) h s := by
  induction p generalizing h s with
  | ret b =>
      exact meets_of_rely hK fun tr s' ht hr hI => hok _ _ _ (H tr s' ht hr hI)
  | raise e => exact fun tr s' ht hr hI => herr _ _ _ (H tr s' ht hr hI)
  | call q k ih =>
      intro tr s' ht hr hI hready has
      obtain ⟨h₁, h₂, h₃⟩ := H tr s' ht hr hI hready has
      exact ⟨h₁, h₂, ih _ h₃⟩

/-- A handler is checked from what the body ensures when it raises. -/
theorem Meets.tryCatch (hK : K.Compatible srv) {Q₁ : Post S ι σ ε α} {g : ε → Prog S ε α}
    (H : Meets K srv i Q₁ p h s) (hok : ∀ h a s, Q₁ h (.ok a) s → Q h (.ok a) s)
    (herr : ∀ h e s, Q₁ h (.error e) s → Meets K srv i Q (g e) h s) :
    Meets K srv i Q (p.tryCatch g) h s := by
  induction p generalizing h s with
  | ret a => exact fun tr s' ht hr hI => hok _ _ _ (H tr s' ht hr hI)
  | raise e =>
      exact meets_of_rely hK fun tr s' ht hr hI => herr _ _ _ (H tr s' ht hr hI)
  | call q k ih =>
      intro tr s' ht hr hI hready has
      obtain ⟨h₁, h₂, h₃⟩ := H tr s' ht hr hI hready has
      exact ⟨h₁, h₂, ih _ h₃⟩

/-- Loops: a stable loop invariant over the elements still to come. -/
theorem Meets.tally (hK : K.Compatible srv) {Q : Post S ι σ ε ℕ} {f : β → Prog S ε ℕ}
    {J : List β → List (Event S ι σ) → σ → Prop}
    (hstable : ∀ xs h s s', J xs h s → K.rely i h s s' → J xs h s')
    (hstep : ∀ x xs h s, J (x :: xs) h s →
      Meets K srv i (fun h r s => match r with
        | .ok _ => J xs h s
        | .error e => Q h (.error e) s) (f x) h s)
    (hdone : ∀ n h s, J [] h s → Q h (.ok n) s) (xs : List β) (hJ : J xs h s) :
    Meets K srv i Q (Prog.tally xs f) h s := by
  have key : Meets K srv i (fun h r s => match r with
      | .ok _ => J [] h s
      | .error e => Q h (.error e) s) (Prog.tally xs f) h s := by
    induction xs generalizing h s with
    | nil => exact fun tr s' _ hr _ => hstable _ _ _ _ hJ hr
    | cons x xs ih =>
        refine (hstep x xs h s hJ).bind hK (fun h n s hJ => ?_) fun _ _ _ hQ => hQ
        refine (ih hJ).bind hK (fun h m s hJ => ?_) fun _ _ _ hQ => hQ
        exact fun tr s' _ hr _ => hstable _ _ _ _ hJ hr
  refine key.mono fun h r s hr => ?_
  cases r with
  | ok n => exact hdone n h s hr
  | error e => exact hr

/-- A program whose statements all keep the contract and a stable assertion meets the contract
and ensures the assertion. -/
theorem meets_of_issues {φ : S.Stmt → Prop} {J : List (Event S ι σ) → σ → Prop}
    (hp : p.Issues φ) (hstable : ∀ h s s', J h s → K.rely i h s s' → J h s')
    (hφ : ∀ tr q h s, own i tr = h → φ q → K.inv tr s → J h s → srv.ready i q s = true →
      K.assume tr ⟨i, q, s, srv.effect i q s⟩ →
      K.inv (tr ++ [⟨i, q, s, srv.effect i q s⟩]) (srv.effect i q s)
        ∧ K.guar i h ⟨i, q, s, srv.effect i q s⟩
        ∧ J (h ++ [⟨i, q, s, srv.effect i q s⟩]) (srv.effect i q s)) (hJ : J h s) :
    Meets K srv i (fun h _ s => J h s) p h s := by
  induction p generalizing h s with
  | ret a => exact fun _ s' _ hr _ => hstable _ _ s' hJ hr
  | raise e => exact fun _ s' _ hr _ => hstable _ _ s' hJ hr
  | call q k ih =>
      intro tr s' ht hr hI hready has
      obtain ⟨h₁, h₂, h₃⟩ := hφ tr q h s' ht hp.1 hI (hstable _ _ s' hJ hr) hready has
      exact ⟨h₁, h₂, ih _ (hp.2 _) h₃⟩

/-- The contract with a further invariant. -/
def Contract.strengthen (K : Contract S ι σ) (X : List (Event S ι σ) → σ → Prop) :
    Contract S ι σ :=
  { K with inv := fun tr s => K.inv tr s ∧ X tr s }

lemma Contract.Compatible.strengthen {X : List (Event S ι σ) → σ → Prop} (hK : K.Compatible srv)
    (hX : ∀ tr i s, K.inv tr s → X tr s → srv.ready i srv.hangup s = true →
      K.assume tr ⟨i, srv.hangup, s, srv.effect i srv.hangup s⟩ →
      X (tr ++ [⟨i, srv.hangup, s, srv.effect i srv.hangup s⟩]) (srv.effect i srv.hangup s)) :
    (K.strengthen X).Compatible srv where
  refl := hK.refl
  trans := hK.trans
  step := fun tr ev j hj hI => hK.step tr ev j hj hI.1
  hangup := fun tr i s hI hr has => by
    obtain ⟨hI', hg⟩ := hK.hangup tr i s hI.1 hr has
    exact ⟨⟨hI', hX tr i s hI.1 hI.2 hr has⟩, hg⟩

/-- A check carries over to a further invariant that the statements of the program keep as long
as an assertion on its own events does. -/
theorem Meets.strengthen {X : List (Event S ι σ) → σ → Prop} {φ : S.Stmt → Prop}
    {J : List (Event S ι σ) → Prop} (H : Meets K srv i Q p h s) (hp : p.Issues φ) (hJ : J h)
    (hφ : ∀ h ev, φ ev.stmt → J h → J (h ++ [ev]))
    (hX : ∀ tr q h s, own i tr = h → φ q → J h → K.inv tr s → X tr s →
      srv.ready i q s = true → K.assume tr ⟨i, q, s, srv.effect i q s⟩ →
      X (tr ++ [⟨i, q, s, srv.effect i q s⟩]) (srv.effect i q s)) :
    Meets (K.strengthen X) srv i (fun h r s => Q h r s ∧ J h) p h s := by
  induction p generalizing h s with
  | ret a => exact fun tr s' ht hr hI => ⟨H tr s' ht hr hI.1, hJ⟩
  | raise e => exact fun tr s' ht hr hI => ⟨H tr s' ht hr hI.1, hJ⟩
  | call q k ih =>
      intro tr s' ht hr hI hready has
      obtain ⟨h₁, h₂, h₃⟩ := H tr s' ht hr hI.1 hready has
      exact ⟨⟨h₁, hX tr q h s' ht hp.1 hJ hI.1 hI.2 hready has⟩, h₂,
        ih _ h₃ (hp.2 _) (hφ _ _ hp.1 hJ)⟩

/-- The contract that allows any interference and promises nothing. -/
def Contract.free : Contract S ι σ where
  inv := fun _ _ => True
  assume := fun _ _ => True
  guar := fun _ _ _ => True
  rely := fun _ _ _ _ => True

lemma Contract.free_compatible : (Contract.free : Contract S ι σ).Compatible srv where
  refl := fun _ _ _ => trivial
  trans := fun _ _ _ _ _ _ _ => trivial
  step := fun _ _ _ _ _ _ _ _ _ => trivial
  hangup := fun _ _ _ _ _ _ => ⟨trivial, trivial⟩

end Meets

/-! ### Soundness -/

namespace Pool

variable [DecidableEq ι] {K : Contract S ι σ} {srv : Server S ι σ} {procs : ι → Prog S ε α}
  {Q : ι → Post S ι σ ε α} {s : σ} {c : Pool S ι σ ε α}

/-- **Soundness**: programs that meet a compatible contract keep it under every interleaving
that meets the assumed condition. -/
theorem Reach.meets (hK : K.Compatible srv) (hs : K.inv [] s)
    (hp : ∀ i, Meets K srv i (Q i) (procs i) [] s) (h : Reach srv (start procs s) c)
    (hC : Along K.assume c.trace) :
    K.inv c.trace c.store
      ∧ Along (fun past ev => K.guar ev.pid (own ev.pid past) ev) c.trace
      ∧ ∀ i p, c.procs i = some p → Meets K srv i (Q i) p (own i c.trace) c.store := by
  induction h with
  | refl =>
      refine ⟨hs, along_nil, fun i p hi => ?_⟩
      obtain rfl := Option.some.inj hi
      exact hp i
  | @tail c₁ c₂ m _ hm ih =>
      rcases move_cases hm with ⟨i, q, k, hpi, hr, rfl⟩ | ⟨i, hr, rfl⟩
      · obtain ⟨hC₁, hCq⟩ := (along_snoc ..).mp hC
        obtain ⟨hI, hG, hP⟩ := ih hC₁
        obtain ⟨hI', hg, hnext⟩ := hP i _ hpi c₁.trace c₁.store rfl (hK.refl ..) hI hr hCq
        refine ⟨hI', (along_snoc ..).mpr ⟨hG, hg⟩, fun j p hj => ?_⟩
        by_cases hij : j = i
        · subst hij
          simp only [exec, Function.update_self, Option.some.injEq] at hj
          subst hj
          simpa only [exec, own_append, own_self] using hnext
        · simp only [exec, Function.update_of_ne hij] at hj
          simp only [exec, own_append]
          rw [own_other (fun h => hij h.symm), List.append_nil]
          exact (hP j p hj).after_rely hK (hK.step c₁.trace _ j hij hI hCq hr rfl hg)
      · obtain ⟨hC₁, hCq⟩ := (along_snoc ..).mp hC
        obtain ⟨hI, hG, hP⟩ := ih hC₁
        obtain ⟨hI', hg⟩ := hK.hangup _ _ _ hI hr hCq
        refine ⟨hI', (along_snoc ..).mpr ⟨hG, hg⟩, fun j p hj => ?_⟩
        by_cases hij : j = i
        · subst hij
          simp [drop] at hj
        · simp only [drop, Function.update_of_ne hij] at hj
          simp only [drop, own_append]
          rw [own_other (fun h => hij h.symm), List.append_nil]
          exact (hP j p hj).after_rely hK (hK.step c₁.trace _ j hij hI hCq hr rfl hg)

/-- What a finished program ensures holds in the pool reached. -/
theorem Reach.post (hK : K.Compatible srv) (hs : K.inv [] s)
    (hp : ∀ i, Meets K srv i (Q i) (procs i) [] s) (h : Reach srv (start procs s) c)
    (hC : Along K.assume c.trace) {i : ι} {p : Prog S ε α} {r : Except ε α}
    (hi : c.procs i = some p) (hr : p.result? = some r) : Q i (own i c.trace) r c.store := by
  obtain ⟨hI, -, hP⟩ := h.meets hK hs hp hC
  have hm := hP i p hi
  cases p with
  | ret a =>
      obtain rfl := Option.some.inj hr
      exact hm c.trace c.store rfl (hK.refl ..) hI
  | raise e =>
      obtain rfl := Option.some.inj hr
      exact hm c.trace c.store rfl (hK.refl ..) hI
  | call q k => simp at hr

/-- Any program meets the contract that promises nothing. -/
lemma meets_free (i : ι) (p : Prog S ε α) (h : List (Event S ι σ)) (s : σ) :
    Meets Contract.free srv i (fun _ _ _ => True) p h s := by
  induction p generalizing h s with
  | ret a => exact fun _ _ _ _ _ => trivial
  | raise e => exact fun _ _ _ _ _ => trivial
  | call q k ih => exact fun _ _ _ _ _ _ _ => ⟨trivial, trivial, ih _ _ _⟩

/-- What one finished client ensures amid any interference holds whatever the other programs
are. -/
theorem Reach.post_free {Q : Post S ι σ ε α} {i : ι}
    (hi : Meets Contract.free srv i Q (procs i) [] s) (h : Reach srv (start procs s) c)
    {p : Prog S ε α} {r : Except ε α} (hc : c.procs i = some p) (hr : p.result? = some r) :
    Q (own i c.trace) r c.store := by
  have hp : ∀ j, Meets Contract.free srv j (fun h r s => j = i → Q h r s) (procs j) [] s := by
    intro j
    by_cases hj : j = i
    · subst hj
      exact hi.mono fun _ _ _ hQ _ => hQ
    · exact (meets_free j _ _ _).mono fun _ _ _ _ hji => absurd hji hj
  exact h.post Contract.free_compatible trivial hp
    (along_iff_forall_mem.mpr fun _ _ => trivial) hc hr rfl

/-! ### Programs known through their statements -/

/-- **The invariant rule**: an invariant of the trace and the store, kept by every statement
the programs can issue under the assumed condition, holds in every pool reached, and around
every event of its trace. -/
theorem Reach.invariant (φ : ι → S.Stmt → Prop) (C : List (Event S ι σ) → Event S ι σ → Prop)
    (I : List (Event S ι σ) → σ → Prop)
    (hstep : ∀ tr i q s, φ i q → srv.ready i q s = true → C tr ⟨i, q, s, srv.effect i q s⟩ →
      I tr s → I (tr ++ [⟨i, q, s, srv.effect i q s⟩]) (srv.effect i q s))
    (hhang : ∀ i, φ i srv.hangup) (hp : ∀ i, (procs i).Issues (φ i)) (hs : I [] s)
    (h : Reach srv (start procs s) c) (hC : Along C c.trace) :
    I c.trace c.store
      ∧ Along (fun past ev => φ ev.pid ev.stmt ∧ I past ev.before ∧ I (past ++ [ev]) ev.after
          ∧ srv.ready ev.pid ev.stmt ev.before = true
          ∧ ev.after = srv.effect ev.pid ev.stmt ev.before) c.trace := by
  let K : Contract S ι σ :=
    { inv := fun tr s => I tr s
        ∧ Along (fun past ev => φ ev.pid ev.stmt ∧ I past ev.before ∧ I (past ++ [ev]) ev.after
            ∧ srv.ready ev.pid ev.stmt ev.before = true
            ∧ ev.after = srv.effect ev.pid ev.stmt ev.before) tr
      assume := C
      guar := fun _ _ _ => True
      rely := fun _ _ _ _ => True }
  have hkeep : ∀ tr i q s, φ i q → K.inv tr s → srv.ready i q s = true →
      C tr ⟨i, q, s, srv.effect i q s⟩ →
      K.inv (tr ++ [⟨i, q, s, srv.effect i q s⟩]) (srv.effect i q s) := by
    intro tr i q s hq hI hr hC
    have hI' := hstep tr i q s hq hr hC hI.1
    exact ⟨hI', (along_snoc ..).mpr ⟨hI.2, hq, hI.1, hI', hr, rfl⟩⟩
  have hK : K.Compatible srv :=
    { refl := fun _ _ _ => trivial
      trans := fun _ _ _ _ _ _ _ => trivial
      step := fun _ _ _ _ _ _ _ _ _ => trivial
      hangup := fun tr i s hI hr hC => ⟨hkeep tr i _ s (hhang i) hI hr hC, trivial⟩ }
  have hmeets : ∀ i, Meets K srv i (fun _ _ _ => True) (procs i) [] s := fun i =>
    meets_of_issues (J := fun _ _ => True) (hp i) (fun _ _ _ _ _ => trivial)
      (fun tr q h s _ hq hI _ hr hC => ⟨hkeep tr i q s hq hI hr hC, trivial, trivial⟩) trivial
  exact (h.meets hK ⟨hs, along_nil⟩ hmeets hC).1

/-- The invariant rule for an invariant of the store alone. -/
theorem Reach.issues (φ : ι → S.Stmt → Prop) (I : σ → Prop)
    (hstep : ∀ i q s, φ i q → srv.ready i q s = true → I s → I (srv.effect i q s))
    (hhang : ∀ i, φ i srv.hangup) (hp : ∀ i, (procs i).Issues (φ i)) (hs : I s)
    (h : Reach srv (start procs s) c) :
    I c.store ∧ ∀ ev ∈ c.trace, φ ev.pid ev.stmt ∧ I ev.before ∧ I ev.after
      ∧ srv.ready ev.pid ev.stmt ev.before = true
      ∧ ev.after = srv.effect ev.pid ev.stmt ev.before := by
  have hI := Reach.invariant φ (fun _ _ => True) (fun _ s => I s)
    (fun _ i q s hq hr _ hI => hstep i q s hq hr hI) hhang hp hs h
    (along_iff_forall_mem.mpr fun _ _ => trivial)
  exact ⟨hI.1, along_iff_forall_mem.mp hI.2⟩

end Pool

end Txn
