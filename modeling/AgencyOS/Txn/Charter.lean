import AgencyOS.Txn.Extend
import AgencyOS.Txn.UniqueIndex

/-!
Programs that write no more than what they have read warrants.

A session takes for granted that every row it reads has a property, and that a column of it never
changes.  On these terms every row that it writes has the property again and keeps its column; then
it was right to take that for granted, whatever the other sessions do.

* `Terms`, `Prog.Within`: the terms of a client, and a program that stays within them; the rules of
  composition, and `Within.translate`, `Within.raising` for programs run on another store;
* `Charter`: a property of the rows, a column that never changes, and the first id of a new row;
* `Charter.Truthful`, `Charter.learns`, `Charter.Grants`: what is taken for granted of an answer, what it
  tells, and the statements that may be issued on what is known;
* `Charter.Kept`, `Kept.effect`: what holds of the store, and one statement keeps it;
* `Pool.Reach.within`: **programs within a charter keep it**, in every interleaving.
-/

namespace Txn

variable {Sg Sg' : Signature} {S : Schema} {ι κ ε α β γ φ φ' : Type}

/-! ### Terms -/

/-- The terms of a client: the statements it may issue on the facts it knows, what it takes for granted
of an answer, and the facts that an answer tells. -/
structure Terms (Sg : Signature) (φ : Type) where
  grants : Set φ → Sg.Stmt → Prop
  truthful : (q : Sg.Stmt) → Sg.Resp q → Prop
  learns : (q : Sg.Stmt) → Sg.Resp q → Set φ
  mono : ∀ q known known', known ⊆ known' → grants known q → grants known' q

namespace Prog

/-- The program issues only what its terms grant, and returns only what is in `Q`, as long as the
answers are what they are taken for. -/
def Within (T : Terms Sg φ) (Q : Set φ → α → Prop) : Prog Sg ε α → Set φ → Prop
  | ret a, known => Q known a
  | raise _, _ => True
  | call q k, known => T.grants known q ∧
      ∀ a, T.truthful q a → (k a).Within T Q (known ∪ T.learns q a)

variable {T : Terms Sg φ} {T' : Terms Sg' φ'} {Q Q' : Set φ → α → Prop} {R : Set φ → β → Prop}
  {p : Prog Sg ε α} {known known' : Set φ}

@[simp] lemma within_ret {a : α} : (ret a : Prog Sg ε α).Within T Q known ↔ Q known a := Iff.rfl

@[simp] lemma within_raise {e : ε} : (raise e : Prog Sg ε α).Within T Q known := trivial

/-- What may be issued on what is known may be issued on more. -/
theorem Within.mono (hp : p.Within T Q known) (hle : known ⊆ known')
    (hQ : ∀ known known' a, known ⊆ known' → Q known a → Q' known' a) : p.Within T Q' known' := by
  induction p generalizing known known' with
  | ret a => exact hQ known known' a hle hp
  | raise e => trivial
  | call q k ih =>
      refine ⟨T.mono q _ _ hle hp.1, fun a ha => ih a (hp.2 a ha) ?_⟩
      exact Set.union_subset_union_left _ hle

/-- Sequencing: the second part is checked with all that the first has read. -/
theorem Within.bind {f : α → Prog Sg ε β} (hp : p.Within T Q known)
    (hf : ∀ known' a, known ⊆ known' → Q known' a → (f a).Within T R known') :
    (p.bind f).Within T R known := by
  induction p generalizing known with
  | ret a => exact hf known a subset_rfl hp
  | raise e => trivial
  | call q k ih =>
      refine ⟨hp.1, fun a ha => ih a (hp.2 a ha) fun known' b hle => ?_⟩
      exact hf known' b (Set.subset_union_left.trans hle)

/-- A handler is checked with what was known before. -/
theorem Within.tryCatch {h : ε → Prog Sg ε α} (hp : p.Within T Q known)
    (hh : ∀ known' e, known ⊆ known' → (h e).Within T Q known') :
    (p.tryCatch h).Within T Q known := by
  induction p generalizing known with
  | ret a => exact hp
  | raise e => exact hh known e subset_rfl
  | call q k ih =>
      refine ⟨hp.1, fun a ha => ih a (hp.2 a ha) fun known' e hle => ?_⟩
      exact hh known' e (Set.subset_union_left.trans hle)

/-- A program whose statements are granted whatever is known. -/
theorem within_of_issues (hp : p.Issues (T.grants ∅)) : p.Within T (fun _ _ => True) known := by
  induction p generalizing known with
  | ret a => trivial
  | raise e => trivial
  | call q k ih =>
      exact ⟨T.mono q _ _ (Set.empty_subset known) hp.1, fun a _ => ih a (hp.2 a)⟩

/-- A loop is within its terms if its body is, with what was known before. -/
theorem within_tally {f : β → Prog Sg ε ℕ} {xs : List β}
    (hf : ∀ x ∈ xs, ∀ known', known ⊆ known' → (f x).Within T (fun _ _ => True) known') :
    (tally xs f).Within T (fun _ _ => True) known := by
  induction xs generalizing known with
  | nil => trivial
  | cons x xs ih =>
      refine (hf x List.mem_cons_self known subset_rfl).bind fun known' n hle _ => ?_
      refine Within.bind (ih fun y hy known'' hle' => ?_) fun _ _ _ _ => trivial
      exact hf y (List.mem_cons_of_mem x hy) known'' (hle.trans hle')

variable (T') in
/-- A program translated statement by statement, onto a store whose terms say of a translation what
those of the program say of the statement. -/
theorem Within.translate (e : φ → φ') {f : Sg.Stmt → Sg'.Stmt}
    {g : ∀ q, Sg'.Resp (f q) → Sg.Resp q}
    (hgrants : ∀ q known', T.grants (Set.preimage e known') q → T'.grants known' (f q))
    (htruthful : ∀ q a, T'.truthful (f q) a → T.truthful q (g q a))
    (hlearns : ∀ q a, T.learns q (g q a) ⊆ Set.preimage e (T'.learns (f q) a))
    (hQ : ∀ known known' a, known ⊆ known' → Q known a → Q known' a) {known' : Set φ'}
    (hp : p.Within T Q (Set.preimage e known')) :
    (p.translate f g).Within T' (fun known a => Q (Set.preimage e known) a) known' := by
  induction p generalizing known' with
  | ret a => exact hp
  | raise x => trivial
  | call q k ih =>
      refine ⟨hgrants q known' hp.1, fun a ha => ih _ ?_⟩
      refine (hp.2 _ (htruthful q a ha)).mono ?_ hQ
      rw [Set.preimage_union]
      exact Set.union_subset_union_right _ (hlearns q a)

/-- The same program, with other exceptions. -/
def mapError {ε' : Type} (f : ε → ε') : Prog Sg ε α → Prog Sg ε' α
  | ret a => ret a
  | raise e => raise (f e)
  | call q k => call q fun a => (k a).mapError f

theorem Within.mapError {ε' : Type} {f : ε → ε'} (hp : p.Within T Q known) :
    (p.mapError f).Within T Q known := by
  induction p generalizing known with
  | ret a => exact hp
  | raise e => trivial
  | call q k ih => exact ⟨hp.1, fun a ha => ih a (hp.2 a ha)⟩

end Prog

/-! ### Charters -/

/-- A property of the rows, a column that never changes, and the first id of a new row. -/
structure Charter (S : Schema) (γ : Type) where
  holds : (t : S.Table) → ℕ → S.Row t → Prop
  fixed : (t : S.Table) → S.Row t → γ
  first : ℕ

namespace Charter

variable (C : Charter S γ)

/-- What is taken for granted of an answer. -/
def Truthful : (q : Sql S) → q.Resp → Prop
  | .select t n, row => ∀ r, row = some r → C.holds t n r
  | .scan q, rows => ∀ x ∈ rows, C.holds (S.source q) x.1 x.2
  | .insert _, n => C.first ≤ n
  | _, _ => True

/-- The columns that an answer tells: of which row, and what stands there. -/
def learns : (q : Sql S) → q.Resp → Set (S.Table × ℕ × γ)
  | .select t n, row => {x | ∃ r, row = some r ∧ x = (t, n, C.fixed t r)}
  | .scan q, rows => {x | ∃ y ∈ rows, x = (S.source q, y.1, C.fixed (S.source q) y.2)}
  | _, _ => ∅

/-- The statements that may be issued on what is known. -/
def Grants (known : Set (S.Table × ℕ × γ)) : Sql S → Prop
  | .update u n => ∀ r, C.holds (S.target u) n r → (∀ b, (S.target u, n, b) ∈ known → C.fixed _ r = b) →
      (S.act u).guard r = true →
        C.holds (S.target u) n ((S.act u).set r) ∧ C.fixed _ ((S.act u).set r) = C.fixed _ r
  | .insert x => ∀ n, C.first ≤ n → C.holds (S.into x) n (S.new x)
  | _ => True

variable {C} in
lemma Grants.mono {q : Sql S} {known known' : Set (S.Table × ℕ × γ)} (h : C.Grants known q)
    (hle : known ⊆ known') : C.Grants known' q := by
  cases q with
  | update u n => exact fun r hr hknown => h r hr fun b hb => hknown b (hle hb)
  | insert x => exact h
  | select | scan | now | commit | rollback => trivial

/-- The terms of a session on the tables. -/
def terms : Terms (sql S) (S.Table × ℕ × γ) where
  grants := C.Grants
  truthful := C.Truthful
  learns := C.learns
  mono := fun _ _ _ hle h => h.mono hle

/-- The terms of a session on the tables with their indexes; a refusal tells nothing. -/
def indexedTerms : Terms (indexedSql S) (S.Table × ℕ × γ) where
  grants := C.Grants
  truthful q := fun
    | .ok a => C.Truthful q a
    | .error _ => True
  learns q := fun
    | .ok a => C.learns q a
    | .error _ => ∅
  mono := fun _ _ _ hle h => h.mono hle

end Charter

/-- A program without handlers on a store with indexes, where every statement may be refused. -/
def Tx.raising (refused : ε) : Tx S ε α → Prog (indexedSql S) ε α
  | .ret a => .ret a
  | .raise e => .raise e
  | .call q k => (executeOr refused q).bind fun a => Tx.raising refused (k a)

section Raising

variable {C : Charter S γ} {known : Set (S.Table × ℕ × γ)}

/-- One statement that raises when it is refused. -/
lemma within_executeOr {refused : ε} {q : Sql S} (hq : C.Grants known q) :
    (executeOr refused q).Within C.indexedTerms
      (fun known' a => known' = known ∪ C.learns q a ∧ C.Truthful q a) known := by
  refine ⟨hq, fun a ha => ?_⟩
  cases a with
  | ok a => exact ⟨rfl, ha⟩
  | error v => trivial

/-- A statement, with what its answer can be taken for. -/
lemma within_execute {refused : ε} {q : Sql S} {f : q.Resp → Prog (indexedSql S) ε α}
    {Q : Set (S.Table × ℕ × γ) → α → Prop} (hq : C.Grants known q)
    (hf : ∀ known' a, C.Truthful q a → (f a).Within C.indexedTerms Q known') :
    ((executeOr refused q).bind f).Within C.indexedTerms Q known :=
  (within_executeOr hq).bind fun known' a _ ha => hf known' a ha.2

lemma within_last {refused : ε} {q : Sql S} {Q : Set (S.Table × ℕ × γ) → q.Resp → Prop}
    (hq : C.Grants known q) (hQ : ∀ known' a, C.Truthful q a → Q known' a) :
    (executeOr refused q).Within C.indexedTerms Q known :=
  (within_executeOr hq).mono subset_rfl fun _ _ a _ h => hQ _ a h.2

/-- A program within its terms stays so when its statements may be refused. -/
theorem Prog.Within.raising {refused : ε} {Q : Set (S.Table × ℕ × γ) → α → Prop} {p : Tx S ε α}
    (hp : p.Within C.terms Q known) : (Tx.raising refused p).Within C.indexedTerms Q known := by
  induction p generalizing known with
  | ret a => exact hp
  | raise e => trivial
  | call q k ih =>
      refine (within_executeOr hp.1).bind fun known' a _ ha => ?_
      obtain ⟨rfl, htruthful⟩ := ha
      exact ih a (hp.2 a htruthful)

end Raising

/-! ### The store -/

/-- Ids that have been drawn stay drawn. -/
lemma fresh_le_effect [DecidableEq S.Table] [DecidableEq ι] (i : ι) (q : Sql S) (s : Db S ι) :
    s.fresh ≤ (Db.effect i q s).fresh := by
  cases q with
  | update u n =>
      cases hw : s.written i u n with
      | none => rw [Db.effect_update_of_none hw]
      | some r =>
          rw [Db.effect_update hw, Db.fresh_write]
          exact le_max_left _ _
  | insert x => exact le_max_left _ _
  | select | scan | now | commit | rollback => exact le_rfl

namespace Charter

variable {C : Charter S γ} {s : Db S ι} {known known' : Set (S.Table × ℕ × γ)}

/-- The rows have the property, and their uncommitted versions keep the column. -/
structure Kept (C : Charter S γ) (s : Db S ι) : Prop where
  rows : Rows C.holds s
  first : C.first ≤ s.fresh
  ahead : Ahead (fun t r r' => C.fixed t r' = C.fixed t r) s

/-- What is known of the columns is so, committed and uncommitted. -/
def Tells (C : Charter S γ) (s : Db S ι) (known : Set (S.Table × ℕ × γ)) : Prop :=
  ∀ t n b, (t, n, b) ∈ known → n < s.fresh ∧ (∀ r, s.committed t n = some r → C.fixed t r = b) ∧
    ∀ j r, s.dirty t n = some (j, r) → C.fixed t r = b

lemma tells_empty : C.Tells s ∅ := fun _ _ _ h => h.elim

lemma Tells.union (h : C.Tells s known) (h' : C.Tells s known') : C.Tells s (known ∪ known') :=
  fun t n b hmem => hmem.elim (h t n b) (h' t n b)

variable [DecidableEq ι]

/-- What is known of a row that a session sees. -/
lemma Tells.view (h : C.Tells s known) {i : ι} {t : S.Table} {n : ℕ} {r : S.Row t} {b : γ}
    (hmem : (t, n, b) ∈ known) (hv : s.view i t n = some r) : C.fixed t r = b := by
  obtain ⟨-, hcommitted, hdirty⟩ := h t n b hmem
  rcases s.view_cases i t n with ⟨r', hd, hv'⟩ | ⟨-, hv'⟩
  · obtain rfl := Option.some.inj (hv.symm.trans hv')
    exact hdirty i r hd
  · exact hcommitted r (hv'.symm.trans hv)

/-- What a session sees tells the column of a row. -/
lemma Kept.tells_view (h : C.Kept s) {i : ι} {t : S.Table} {n : ℕ} {r : S.Row t}
    (hv : s.view i t n = some r) : n < s.fresh ∧
      (∀ r', s.committed t n = some r' → C.fixed t r' = C.fixed t r) ∧
        ∀ j r', s.dirty t n = some (j, r') → C.fixed t r' = C.fixed t r := by
  refine ⟨Db.lt_fresh_of_view hv, fun rc hc => ?_, fun j r' hd => ?_⟩
  · exact (h.ahead.view (fun _ _ => rfl) hv hc).symm
  · rcases s.view_cases i t n with ⟨r₁, hd₁, hv₁⟩ | ⟨-, hv₁⟩
    · obtain rfl := Option.some.inj (hv.symm.trans hv₁)
      obtain ⟨-, rfl⟩ := Prod.mk.inj (Option.some.inj (hd.symm.trans hd₁))
      rfl
    · exact h.ahead t n j r' r hd (hv₁.symm.trans hv)

/-- An answer is what it is taken for, and what it tells is so. -/
lemma Kept.answer (h : C.Kept s) (i : ι) (q : Sql S) :
    C.Truthful q (Db.answer i q s) ∧ C.Tells s (C.learns q (Db.answer i q s)) := by
  cases q with
  | select t n =>
      refine ⟨fun r hr => h.rows.view hr, fun t' n' b hmem => ?_⟩
      obtain ⟨r, hr, heq⟩ := hmem
      cases heq
      exact h.tells_view hr
  | scan q =>
      refine ⟨fun x hx => h.rows.view (Db.mem_rows.mp hx).1, fun t' n' b hmem => ?_⟩
      obtain ⟨y, hy, heq⟩ := hmem
      cases heq
      exact h.tells_view (Db.mem_rows.mp hy).1
  | insert x => exact ⟨h.first, tells_empty⟩
  | update | now | commit | rollback => exact ⟨trivial, tells_empty⟩

variable [DecidableEq S.Table]

/-- **One statement that the charter grants keeps it.** -/
theorem Kept.effect (h : C.Kept s) {i : ι} {q : Sql S} (hknown : C.Tells s known)
    (hq : C.Grants known q) : C.Kept (Db.effect i q s) where
  first := h.first.trans (fresh_le_effect i q s)
  rows := by
    constructor
    · intro t n r hc
      rcases Db.committed_effect_cases i q s t n with hsame | ⟨rfl, r', hd, hc'⟩
      · exact h.rows.1 t n r (hsame ▸ hc)
      · obtain rfl := Option.some.inj (hc.symm.trans hc')
        exact h.rows.2 t n i r hd
    · intro t n j r hd
      rcases Db.dirty_effect_cases hd with
        ⟨hold, -⟩ | ⟨-, ⟨u, r₀, rfl, hv, hg, heq⟩ | ⟨x, rfl, rfl, heq⟩⟩
      · exact h.rows.2 t n j r hold
      · cases heq
        exact (hq r₀ (h.rows.view hv) (fun b hb => hknown.view hb hv) hg).1
      · cases heq
        exact hq s.fresh h.first
  ahead := by
    refine h.ahead.effect (fun _ _ => rfl) ?_
    rintro u n r rfl hv hg rc - hsame
    exact (hq r (h.rows.view hv) (fun b hb => hknown.view hb hv) hg).2.trans hsame

/-- What is known of the columns stays so. -/
theorem Tells.effect (h : C.Tells s known') (hk : C.Kept s) {i : ι} {q : Sql S}
    (hknown : C.Tells s known) (hq : C.Grants known q) : C.Tells (Db.effect i q s) known' := by
  intro t n b hmem
  obtain ⟨hlt, hcommitted, hdirty⟩ := h t n b hmem
  refine ⟨hlt.trans_le (fresh_le_effect i q s), fun r hc => ?_, fun j r hd => ?_⟩
  · rcases Db.committed_effect_cases i q s t n with hsame | ⟨rfl, r', hd, hc'⟩
    · exact hcommitted r (hsame ▸ hc)
    · obtain rfl := Option.some.inj (hc.symm.trans hc')
      exact hdirty i r hd
  · rcases Db.dirty_effect_cases hd with
      ⟨hold, -⟩ | ⟨-, ⟨u, r₀, rfl, hv, hg, heq⟩ | ⟨x, rfl, rfl, heq⟩⟩
    · exact hdirty j r hold
    · cases heq
      exact (hq r₀ (hk.rows.view hv) (fun b hb => hknown.view hb hv) hg).2.trans (h.view hmem hv)
    · exact absurd hlt (lt_irrefl _)

/-- The rows that were committed at the start are there, with their columns. -/
def Stays (C : Charter S γ) (s₀ s : Db S ι) : Prop :=
  ∀ t n r, s₀.committed t n = some r → ∃ r', s.committed t n = some r' ∧ C.fixed t r' = C.fixed t r

omit [DecidableEq ι] [DecidableEq S.Table] in
lemma stays_refl (s : Db S ι) : C.Stays s s := fun _ _ r h => ⟨r, h, rfl⟩

lemma Stays.effect {s₀ : Db S ι} (h : C.Stays s₀ s) (hk : C.Kept s) (i : ι) (q : Sql S) :
    C.Stays s₀ (Db.effect i q s) := by
  intro t n r hr
  obtain ⟨r', hr', hfixed⟩ := h t n r hr
  obtain ⟨r'', hr'', hfixed'⟩ := hk.ahead.committed (fun _ _ => rfl) i q hr'
  exact ⟨r'', hr'', hfixed'.trans hfixed⟩

end Charter

/-! ### Runs -/

section Runs

variable [DecidableEq S.Table] [DecidableEq ι] [DecidableEq κ] {key : Index S κ} {C : Charter S γ}
  {s : Db S ι} {procs : ι → Prog (indexedSql S) ε α} {c : Pool (indexedSql S) ι (Db S ι) ε α}

/-- **Programs within a charter keep it**, whatever the interleaving; and the committed rows stay, with
their columns. -/
theorem Pool.Reach.within (h : Pool.Reach (indexedServer key ι) (.start procs s) c)
    (hp : ∀ i, (procs i).Within C.indexedTerms (fun _ _ => True) ∅) (hs : C.Kept s) :
    C.Kept c.store ∧ C.Stays s c.store := by
  suffices hall : (C.Kept c.store ∧ C.Stays s c.store) ∧ ∀ i p, c.procs i = some p →
      ∃ known, C.Tells c.store known ∧ p.Within C.indexedTerms (fun _ _ => True) known from hall.1
  induction h with
  | refl =>
      refine ⟨⟨hs, Charter.stays_refl s⟩, fun i p hpi => ⟨∅, Charter.tells_empty, ?_⟩⟩
      obtain rfl := Option.some.inj hpi
      exact hp i
  | @tail c₁ c₂ m _ hm ih =>
      obtain ⟨⟨hkept, hstays⟩, hprocs⟩ := ih
      rcases Pool.move_cases hm with ⟨j, q, k, hpj, -, rfl⟩ | ⟨j, -, rfl⟩
      · obtain ⟨known, hknown, hgrants, hk⟩ := hprocs j _ hpj
        by_cases hrefused : Db.refuses key j q c₁.store = true
        · simp only [Pool.exec, indexedServer, hrefused, if_true]
          refine ⟨⟨hkept, hstays⟩, fun i p hpi => ?_⟩
          by_cases hij : i = j
          · subst hij
            rw [Function.update_self] at hpi
            obtain rfl := Option.some.inj hpi
            exact ⟨_, hknown.union Charter.tells_empty, hk (.error .duplicateKey) trivial⟩
          · rw [Function.update_of_ne hij] at hpi
            exact hprocs i p hpi
        · simp only [Pool.exec, indexedServer, hrefused]
          refine ⟨⟨hkept.effect hknown hgrants, hstays.effect hkept j q⟩, fun i p hpi => ?_⟩
          by_cases hij : i = j
          · subst hij
            rw [Function.update_self] at hpi
            obtain rfl := Option.some.inj hpi
            obtain ⟨htruthful, hlearns⟩ := hkept.answer i q
            have htells := (hknown.union hlearns).effect hkept (i := i) hknown hgrants
            exact ⟨_, htells, hk (.ok (Db.answer i q c₁.store)) htruthful⟩
          · rw [Function.update_of_ne hij] at hpi
            obtain ⟨known', hknown', hwithin⟩ := hprocs i p hpi
            exact ⟨known', hknown'.effect hkept hknown hgrants, hwithin⟩
      · have hgrants : C.Grants ∅ .rollback := trivial
        have hdrop : ((indexedServer key ι).effect j (indexedServer key ι).hangup c₁.store) =
            Db.effect j .rollback c₁.store := rfl
        simp only [Pool.drop, hdrop]
        refine ⟨⟨hkept.effect Charter.tells_empty hgrants, hstays.effect hkept j _⟩, fun i p hpi => ?_⟩
        by_cases hij : i = j
        · subst hij
          simp at hpi
        · rw [Function.update_of_ne hij] at hpi
          obtain ⟨known', hknown', hwithin⟩ := hprocs i p hpi
          exact ⟨known', hknown'.effect hkept Charter.tells_empty hgrants, hwithin⟩

end Runs

end Txn
