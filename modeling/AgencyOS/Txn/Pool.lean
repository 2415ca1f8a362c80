import AgencyOS.Txn.Program

/-!
Pools of programs over one store, and their interleavings.

A pool runs any number of programs against one store.  A move lets one program execute its
next statement, if the server is ready to execute it, or loses a program for good, and the
server executes a last statement on its behalf; a run is any sequence of moves.  The
statements executed are kept in a trace, each with the store before and after it.

* `Pool.move`, `Pool.run`, `Pool.Reach`: the executable step, runs, and the states reached;
* `Along`: a condition met by every event of a trace, given the events before it;
* `Pool.Reach.flips`, `Pool.Reach.stays`: a fact that no statement ever undoes is brought about at
  most once, and stays;
* `Pool.since`, `Pool.Reach.held_since`: such a fact held at every event after a pool in which it held.
-/

namespace Txn

variable {S : Signature} {ι σ ε α : Type}

/-- What executes the statements of the clients `ι` on the store `σ`: when it is ready to
execute one, the answer, the store afterwards, and the statement it executes on behalf of a
client that was lost. -/
structure Server (S : Signature) (ι σ : Type) where
  ready : ι → S.Stmt → σ → Bool
  answer : ι → (q : S.Stmt) → σ → S.Resp q
  effect : ι → S.Stmt → σ → σ
  hangup : S.Stmt

/-- One executed statement, with the store around it. -/
structure Event (S : Signature) (ι σ : Type) where
  pid : ι
  stmt : S.Stmt
  before : σ
  after : σ

/-! ### Conditions along a trace -/

/-- The events of client `i`. -/
def own [DecidableEq ι] (i : ι) (tr : List (Event S ι σ)) : List (Event S ι σ) :=
  tr.filter fun ev => ev.pid = i

section Own

variable [DecidableEq ι]

@[simp] lemma own_nil (i : ι) : own i ([] : List (Event S ι σ)) = [] := rfl

@[simp] lemma own_append (i : ι) (tr tr' : List (Event S ι σ)) :
    own i (tr ++ tr') = own i tr ++ own i tr' := List.filter_append ..

@[simp] lemma own_self (i : ι) (q : S.Stmt) (s s' : σ) :
    own i ([⟨i, q, s, s'⟩] : List (Event S ι σ)) = [⟨i, q, s, s'⟩] := by
  simp [own]

lemma own_other {i : ι} {ev : Event S ι σ} (h : ev.pid ≠ i) : own i [ev] = [] := by
  simp [own, h]

lemma mem_own {i : ι} {ev : Event S ι σ} {tr : List (Event S ι σ)} :
    ev ∈ own i tr ↔ ev ∈ tr ∧ ev.pid = i := by
  simp [own]

end Own

/-- The events of `tr` meet the condition `C`, each given the events before it, where `past`
came before `tr`. -/
def AlongFrom (C : List (Event S ι σ) → Event S ι σ → Prop) :
    List (Event S ι σ) → List (Event S ι σ) → Prop
  | _, [] => True
  | past, ev :: tr => C past ev ∧ AlongFrom C (past ++ [ev]) tr

/-- Every event of the trace meets the condition `C`, given the events before it. -/
def Along (C : List (Event S ι σ) → Event S ι σ → Prop) (tr : List (Event S ι σ)) : Prop :=
  AlongFrom C [] tr

section Along

variable {C : List (Event S ι σ) → Event S ι σ → Prop}

lemma alongFrom_append (past tr tr' : List (Event S ι σ)) :
    AlongFrom C past (tr ++ tr') ↔ AlongFrom C past tr ∧ AlongFrom C (past ++ tr) tr' := by
  induction tr generalizing past with
  | nil => simp [AlongFrom]
  | cons ev tr ih => simp [AlongFrom, ih, and_assoc]

@[simp] lemma along_nil : Along C [] := trivial

lemma along_snoc (tr : List (Event S ι σ)) (ev : Event S ι σ) :
    Along C (tr ++ [ev]) ↔ Along C tr ∧ C tr ev := by
  simp [Along, alongFrom_append, AlongFrom]

/-- A condition met along a trace can be weakened. -/
lemma Along.mono {C' : List (Event S ι σ) → Event S ι σ → Prop}
    {tr : List (Event S ι σ)} (h : Along C tr) (hC : ∀ past ev, C past ev → C' past ev) :
    Along C' tr := by
  induction tr using List.reverseRecOn with
  | nil => trivial
  | append_singleton tr ev ih =>
      rw [along_snoc] at h ⊢
      exact ⟨ih h.1, hC _ _ h.2⟩

/-- Two conditions are met along a trace together when each is. -/
lemma Along.and {C' : List (Event S ι σ) → Event S ι σ → Prop} {tr : List (Event S ι σ)}
    (h : Along C tr) (h' : Along C' tr) : Along (fun past ev => C past ev ∧ C' past ev) tr := by
  induction tr using List.reverseRecOn with
  | nil => trivial
  | append_singleton tr ev ih =>
      rw [along_snoc] at h h' ⊢
      exact ⟨ih h.1 h'.1, h.2, h'.2⟩

/-- Conditions that agree at every event of a trace hold along it together. -/
lemma Along.congr {C' : List (Event S ι σ) → Event S ι σ → Prop} {tr : List (Event S ι σ)}
    (h : Along (fun past ev => C past ev ↔ C' past ev) tr) : Along C tr ↔ Along C' tr := by
  induction tr using List.reverseRecOn with
  | nil => exact Iff.rfl
  | append_singleton tr ev ih =>
      rw [along_snoc] at h
      rw [along_snoc, along_snoc, ih h.1, h.2]

/-- A condition on single events holds along a trace when it holds of its members. -/
lemma along_iff_forall_mem {P : Event S ι σ → Prop} {tr : List (Event S ι σ)} :
    Along (fun _ ev => P ev) tr ↔ ∀ ev ∈ tr, P ev := by
  induction tr using List.reverseRecOn with
  | nil => simp
  | append_singleton tr ev ih =>
      simp only [along_snoc, ih, List.mem_append, List.mem_singleton, or_imp, forall_and,
        forall_eq]

/-- An event meets the condition, given the events before it. -/
lemma AlongFrom.mem {past tr : List (Event S ι σ)} (h : AlongFrom C past tr) {ev : Event S ι σ}
    (hev : ev ∈ tr) : ∃ past', past <+: past' ∧ C past' ev := by
  induction tr generalizing past with
  | nil => cases hev
  | cons ev' tr ih =>
      rcases List.mem_cons.mp hev with rfl | hmem
      · exact ⟨past, List.prefix_rfl, h.1⟩
      · obtain ⟨past', hpast, hC⟩ := ih h.2 hmem
        exact ⟨past', (List.prefix_append _ _).trans hpast, hC⟩

instance [∀ past ev, Decidable (C past ev)] :
    ∀ past tr : List (Event S ι σ), Decidable (AlongFrom C past tr)
  | _, [] => .isTrue trivial
  | past, ev :: tr =>
      let _ : Decidable (AlongFrom C (past ++ [ev]) tr) := instDecidableAlongFrom _ _
      inferInstanceAs (Decidable (C past ev ∧ AlongFrom C (past ++ [ev]) tr))

instance [∀ past ev, Decidable (C past ev)] (tr : List (Event S ι σ)) : Decidable (Along C tr) :=
  inferInstanceAs (Decidable (AlongFrom C [] tr))

end Along

/-! ### Pools -/

/-- A store, the programs still to be run on it (`none` for a lost client), and the
statements executed so far. -/
structure Pool (S : Signature) (ι σ ε α : Type) where
  store : σ
  procs : ι → Option (Prog S ε α)
  trace : List (Event S ι σ)

/-- A move of a pool: a client executes its next statement, or is lost. -/
inductive Move (ι : Type) where
  | step (i : ι)
  | hangup (i : ι)

namespace Pool

variable [DecidableEq ι]

/-- The pool about to run the programs `procs` on the store `s`. -/
def start (procs : ι → Prog S ε α) (s : σ) : Pool S ι σ ε α :=
  ⟨s, fun i => some (procs i), []⟩

/-- Client `i` executes the statement `q` and continues with `k`. -/
def exec (srv : Server S ι σ) (c : Pool S ι σ ε α) (i : ι) (q : S.Stmt)
    (k : S.Resp q → Prog S ε α) : Pool S ι σ ε α where
  store := srv.effect i q c.store
  procs := Function.update c.procs i (some (k (srv.answer i q c.store)))
  trace := c.trace ++ [⟨i, q, c.store, srv.effect i q c.store⟩]

/-- Client `i` is lost. -/
def drop (srv : Server S ι σ) (c : Pool S ι σ ε α) (i : ι) : Pool S ι σ ε α where
  store := srv.effect i srv.hangup c.store
  procs := Function.update c.procs i none
  trace := c.trace ++ [⟨i, srv.hangup, c.store, srv.effect i srv.hangup c.store⟩]

/-- One move, if it can be made. -/
def move (srv : Server S ι σ) (c : Pool S ι σ ε α) : Move ι → Option (Pool S ι σ ε α)
  | .step i =>
      match c.procs i with
      | some (.call q k) => if srv.ready i q c.store then some (c.exec srv i q k) else none
      | _ => none
  | .hangup i => if srv.ready i srv.hangup c.store then some (c.drop srv i) else none

/-- A sequence of moves, if all of them can be made. -/
def run (srv : Server S ι σ) (c : Pool S ι σ ε α) : List (Move ι) → Option (Pool S ι σ ε α)
  | [] => some c
  | m :: ms => (c.move srv m).bind fun c' => run srv c' ms

/-- The pools reached from `c₀` by some sequence of moves. -/
inductive Reach (srv : Server S ι σ) (c₀ : Pool S ι σ ε α) : Pool S ι σ ε α → Prop
  | refl : Reach srv c₀ c₀
  | tail {c c' : Pool S ι σ ε α} (m : Move ι) : Reach srv c₀ c → c.move srv m = some c' →
      Reach srv c₀ c'

/-- Whether client `i` has returned. -/
def returned (c : Pool S ι σ ε α) (i : ι) : Bool :=
  match c.procs i with
  | some (.ret _) => true
  | _ => false

variable {srv : Server S ι σ} {c c' c₀ : Pool S ι σ ε α} {m : Move ι}

omit [DecidableEq ι] in
lemma returned_iff {i : ι} : c.returned i = true ↔ ∃ a, c.procs i = some (.ret a) := by
  rw [returned]
  split
  · rename_i a hp
    exact ⟨fun _ => ⟨a, hp⟩, fun _ => rfl⟩
  · rename_i hp
    constructor
    · intro h
      cases h
    · rintro ⟨a, ha⟩
      exact absurd ha (hp a)

/-- What a move can do: execute the next statement of one client, or lose one. -/
lemma move_cases (h : c.move srv m = some c') :
    (∃ i q k, c.procs i = some (.call q k) ∧ srv.ready i q c.store = true
        ∧ c' = c.exec srv i q k)
      ∨ ∃ i, srv.ready i srv.hangup c.store = true ∧ c' = c.drop srv i := by
  cases m with
  | step i =>
      simp only [move] at h
      split at h
      · rename_i q k hp
        split at h
        · rename_i hr
          exact Or.inl ⟨i, q, k, hp, hr, (Option.some.inj h).symm⟩
        · cases h
      · cases h
  | hangup i =>
      simp only [move] at h
      split at h
      · rename_i hr
        exact Or.inr ⟨i, hr, (Option.some.inj h).symm⟩
      · cases h

lemma Reach.trans {c₁ c₂ : Pool S ι σ ε α} (h₁ : Reach srv c₀ c₁) (h₂ : Reach srv c₁ c₂) :
    Reach srv c₀ c₂ := by
  induction h₂ with
  | refl => exact h₁
  | tail m _ hm ih => exact ih.tail m hm

/-- A run reaches the pool it ends in. -/
lemma reach_of_run {ms : List (Move ι)} (h : c.run srv ms = some c') : Reach srv c c' := by
  induction ms generalizing c with
  | nil =>
      obtain rfl := Option.some.inj h
      exact .refl
  | cons m ms ih =>
      obtain ⟨c₁, h₁, h₂⟩ := Option.bind_eq_some_iff.mp h
      exact (Reach.refl.tail m h₁).trans (ih h₂)

/-- A run whose last pool passes a test reaches a pool that passes it. -/
lemma exists_of_run {ms : List (Move ι)} {P : Pool S ι σ ε α → Bool}
    (h : (c.run srv ms).any P = true) : ∃ c', Reach srv c c' ∧ P c' = true := by
  cases hr : c.run srv ms with
  | none => simp [hr] at h
  | some c' =>
      rw [hr] at h
      exact ⟨c', reach_of_run hr, h⟩

/-! ### Facts that are never undone -/

/-- The events that bring about `P`. -/
def flips (P : σ → Prop) [DecidablePred P] (tr : List (Event S ι σ)) : List (Event S ι σ) :=
  tr.filter fun ev => ¬ P ev.before ∧ P ev.after

omit [DecidableEq ι] in
/-- The count of what brings about `P`, one event later. -/
lemma flips_snoc {P : σ → Prop} [DecidablePred P] {tr : List (Event S ι σ)} {ev : Event S ι σ}
    (h : (flips P tr).length = if P ev.before then 1 else 0) (hk : P ev.before → P ev.after) :
    (flips P (tr ++ [ev])).length = if P ev.after then 1 else 0 := by
  rw [flips, List.filter_append, List.length_append, ← flips, h]
  by_cases hb : P ev.before
  · simp [hb, hk hb]
  · by_cases ha : P ev.after <;> simp [hb, ha]

omit [DecidableEq ι] in
/-- Two events that bring about a fact brought about at most once are one. -/
lemma flip_unique {P : σ → Prop} [DecidablePred P] {tr : List (Event S ι σ)}
    (h : (flips P tr).length ≤ 1) {ev ev' : Event S ι σ} (hev : ev ∈ tr) (hev' : ev' ∈ tr)
    (hb : ¬ P ev.before) (ha : P ev.after) (hb' : ¬ P ev'.before) (ha' : P ev'.after) :
    ev = ev' := by
  have hmem : ev ∈ flips P tr := List.mem_filter.mpr ⟨hev, by simp [hb, ha]⟩
  have hmem' : ev' ∈ flips P tr := List.mem_filter.mpr ⟨hev', by simp [hb', ha']⟩
  obtain ⟨ev₀, hev₀⟩ := List.length_eq_one_iff.mp
    (le_antisymm h (List.length_pos_of_mem hmem))
  rw [hev₀] at hmem hmem'
  rw [List.mem_singleton.mp hmem, List.mem_singleton.mp hmem']

/-- A fact that no event undoes is brought about exactly once when it holds in the end, and
not at all otherwise. -/
theorem Reach.flips {P : σ → Prop} [DecidablePred P] {procs : ι → Prog S ε α} {s : σ}
    (hs : ¬ P s) (h : Reach srv (start procs s) c)
    (hkeep : ∀ ev ∈ c.trace, P ev.before → P ev.after) :
    (flips P c.trace).length = if P c.store then 1 else 0 := by
  induction h with
  | refl => simp [start, Pool.flips, hs]
  | tail m _ hm ih =>
      rcases move_cases hm with ⟨i, q, k, -, -, rfl⟩ | ⟨i, -, rfl⟩ <;>
        exact flips_snoc (ih fun ev hev => hkeep ev (List.mem_append_left _ hev))
          (hkeep _ (List.mem_append_right _ (List.mem_singleton_self _)))

/-- A fact that no event undoes is brought about at most once. -/
theorem Reach.flips_le_one {P : σ → Prop} [DecidablePred P] {procs : ι → Prog S ε α} {s : σ}
    (h : Reach srv (start procs s) c) (hkeep : ∀ ev ∈ c.trace, P ev.before → P ev.after) :
    (Pool.flips P c.trace).length ≤ 1 := by
  have hstep : ∀ (tr : List (Event S ι σ)) (ev : Event S ι σ),
      (Pool.flips P tr).length ≤ (if P ev.before then 1 else 0) → (P ev.before → P ev.after) →
      (Pool.flips P (tr ++ [ev])).length ≤ if P ev.after then 1 else 0 := by
    intro tr ev htr hk
    rw [Pool.flips, List.filter_append, List.length_append, ← Pool.flips]
    by_cases hb : P ev.before
    · simpa [hb, hk hb] using htr
    · by_cases ha : P ev.after
      · simpa [hb, ha] using htr
      · simpa [hb, ha] using htr
  have key : (Pool.flips P c.trace).length ≤ if P c.store then 1 else 0 := by
    induction h with
    | refl => simp [start, Pool.flips]
    | tail m _ hm ih =>
        rcases move_cases hm with ⟨i, q, k, -, -, rfl⟩ | ⟨i, -, rfl⟩ <;>
          exact hstep _ _ (ih fun ev hev => hkeep ev (List.mem_append_left _ hev))
            (hkeep _ (List.mem_append_right _ (List.mem_singleton_self _)))
  refine key.trans ?_
  split_ifs
  · exact le_rfl
  · exact Nat.zero_le 1

/-- A fact that no event undoes holds in the end once it has held after an event. -/
theorem Reach.stays {P : σ → Prop} {procs : ι → Prog S ε α} {s : σ}
    (h : Reach srv (start procs s) c) (hkeep : ∀ ev ∈ c.trace, P ev.before → P ev.after)
    {ev : Event S ι σ} (hev : ev ∈ c.trace) (hP : P ev.after) : P c.store := by
  induction h with
  | refl => cases hev
  | tail m _ hm ih =>
      rcases move_cases hm with ⟨i, q, k, -, -, rfl⟩ | ⟨i, -, rfl⟩ <;>
      · rcases List.mem_append.mp hev with hold | hnew
        · refine hkeep _ (List.mem_append_right _ (List.mem_singleton_self _)) ?_
          exact ih (fun ev hev => hkeep ev (List.mem_append_left _ hev)) hold
        · rw [List.mem_singleton.mp hnew] at hP
          exact hP

/-! ### What has happened since -/

/-- The events of a pool that came after an earlier one. -/
def since (c c' : Pool S ι σ ε α) : List (Event S ι σ) := c'.trace.drop c.trace.length

lemma Reach.trace_prefix (h : Reach srv c c') : c.trace <+: c'.trace := by
  induction h with
  | refl => exact List.prefix_rfl
  | tail m _ hm ih =>
      rcases move_cases hm with ⟨i, q, k, -, -, rfl⟩ | ⟨i, -, rfl⟩ <;>
        exact ih.trans (List.prefix_append _ _)

omit [DecidableEq ι] in
lemma mem_of_mem_since {ev : Event S ι σ} (h : ev ∈ since c c') : ev ∈ c'.trace :=
  List.mem_of_mem_drop h

/-- An event happened before an earlier pool or since. -/
lemma Reach.mem_trace (h : Reach srv c c') {ev : Event S ι σ} (hev : ev ∈ c'.trace) :
    ev ∈ c.trace ∨ ev ∈ since c c' := by
  obtain ⟨tr, htr⟩ := h.trace_prefix
  rw [since, ← htr, List.drop_left]
  rw [← htr] at hev
  exact List.mem_append.mp hev

/-- An event that came after a pool meets the condition, given all that had happened by then. -/
lemma Reach.along_since {C : List (Event S ι σ) → Event S ι σ → Prop} (h : Reach srv c c')
    (hC : Along C c'.trace) {ev : Event S ι σ} (hev : ev ∈ since c c') :
    ∃ past, c.trace <+: past ∧ C past ev := by
  obtain ⟨tr, htr⟩ := h.trace_prefix
  rw [since, ← htr, List.drop_left] at hev
  rw [← htr, Along, alongFrom_append, List.nil_append] at hC
  exact hC.2.mem hev

/-- The store of a pool is the one after the last event. -/
lemma Reach.store_eq {procs : ι → Prog S ε α} {s : σ} (h : Reach srv (start procs s) c)
    {tr : List (Event S ι σ)} {ev : Event S ι σ} (hlast : c.trace = tr ++ [ev]) :
    c.store = ev.after := by
  cases h with
  | refl => cases tr <;> cases hlast
  | tail m _ hm =>
      rcases move_cases hm with ⟨i, q, k, -, -, rfl⟩ | ⟨i, -, rfl⟩
      · obtain ⟨-, rfl⟩ := List.append_singleton_inj.mp hlast
        rfl
      · obtain ⟨-, rfl⟩ := List.append_singleton_inj.mp hlast
        rfl

/-- A fact that no event undoes held before every event that came after a pool in which it held. -/
theorem Reach.held_since {P : σ → Prop} (h : Reach srv c c') (hP : P c.store)
    (hkeep : ∀ ev ∈ since c c', P ev.before → P ev.after) :
    P c'.store ∧ ∀ ev ∈ since c c', P ev.before := by
  have hsnoc : ∀ (c' : Pool S ι σ ε α) (tr : List (Event S ι σ)) (ev : Event S ι σ),
      c'.trace = tr ++ [ev] → c.trace <+: tr →
      since c c' = tr.drop c.trace.length ++ [ev] := by
    rintro c' tr ev htr ⟨tr', rfl⟩
    simp [since, htr]
  induction h with
  | refl => exact ⟨hP, fun ev hev => by simp [since] at hev⟩
  | @tail c₁ c₂ m hr hm ih =>
      have hlast : ∃ ev, c₂.trace = c₁.trace ++ [ev] ∧ ev.before = c₁.store
          ∧ ev.after = c₂.store := by
        rcases move_cases hm with ⟨i, q, k, -, -, rfl⟩ | ⟨i, -, rfl⟩
        · exact ⟨_, rfl, rfl, rfl⟩
        · exact ⟨_, rfl, rfl, rfl⟩
      obtain ⟨ev, htr, hbefore, hafter⟩ := hlast
      have heq := hsnoc c₂ c₁.trace ev htr hr.trace_prefix
      rw [heq] at hkeep ⊢
      obtain ⟨hstore, hall⟩ := ih fun ev' hev' => hkeep ev' (List.mem_append_left _ hev')
      have hb : P ev.before := by rwa [hbefore]
      refine ⟨?_, fun ev' hev' => ?_⟩
      · rw [← hafter]
        exact hkeep ev (List.mem_append_right _ (List.mem_singleton_self _)) hb
      · rcases List.mem_append.mp hev' with hold | hnew
        · exact hall ev' hold
        · rwa [List.mem_singleton.mp hnew]

end Pool

end Txn
