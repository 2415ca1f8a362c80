import AgencyOS.Automation.Decisions

/-!
Executing a proposal once.

The approval of a proposal is decided by the approval service in a transaction of its own, the
action is executed after it, and the proposal is written by flushes without a condition.  So what
keeps a second execution away is the decision of the linked request, and nothing else.

* `Won`: the session that has committed the decision of the request;
* `Rightful`: only that session executes, once, and commits what it created with the proposal
  SUCCEEDED;
* `ExecutedOnce`: what holds of the tasks and of the proposal along such a run;
* `executed_once` (**one execution**): along a run whose decisions are flushed on pending requests,
  the sessions that decide a proposal create at most one task, and a task stands only beside a
  proposal that is SUCCEEDED for good;
* `executed_twice`: a run in which two sessions execute one proposal.
-/

namespace Automation

open Txn

variable {ι : Type} [DecidableEq ι] {s s₀ : Database ι} {m p : ℕ} {i j : ι} {q : Sql automation}
  {tr : List (Happened ι)}

/-! ### What an execution leaves -/

/-- The statement creates a task. -/
def createsTask : Sql automation → Bool
  | .insert (.task _) => true
  | _ => false

/-- The statement flushes proposal `p` as SUCCEEDED. -/
def succeeds (p : ℕ) : Sql automation → Bool
  | .update (.flushProposal _ new) n => n = p && new.status = .succeeded
  | _ => false

/-- The committed status of proposal `p`. -/
def proposalStatus (p : ℕ) (s : Database ι) : Option ProposalStatus :=
  (s.committed .proposal p).map (·.status)

/-- The request that proposal `p` is linked to. -/
def link (p : ℕ) (s : Database ι) : Option ℕ :=
  (s.committed .proposal p).bind (·.approvalRequestId)

/-- Task `k` has been committed since the database was `s₀`. -/
def Created (s₀ s : Database ι) (k : ℕ) : Prop :=
  s₀.committed .task k = none ∧ s.committed .task k ≠ none

/-- The session has committed the decision of request `m`. -/
def Won (m : ℕ) (i : ι) (tr : List (Happened ι)) : Prop :=
  ∃ ev ∈ tr, ev.pid = i ∧ decided m ev.before = false ∧ decided m ev.after = true

omit [DecidableEq ι] in
lemma Won.append (h : Won m i tr) (tr' : List (Happened ι)) : Won m i (tr ++ tr') := by
  obtain ⟨ev, hev, hwon⟩ := h
  exact ⟨ev, List.mem_append_left _ hev, hwon⟩

lemma Won.of_own (h : Won m i (own i tr)) : Won m i tr := by
  obtain ⟨ev, hev, hwon⟩ := h
  exact ⟨ev, (mem_own.mp hev).1, hwon⟩

/-- A statement changes the status of a proposal by committing a version of its session. -/
lemma proposalStatus_cases (i : ι) (q : Sql automation) (s : Database ι) (p : ℕ) :
    proposalStatus p (Db.effect i q s) = proposalStatus p s
      ∨ q = .commit ∧ ∃ r, s.dirty .proposal p = some (i, r)
          ∧ proposalStatus p (Db.effect i q s) = some r.status := by
  rcases Db.committed_effect_cases i q s .proposal p with hsame | ⟨hq, r, hd, hc⟩
  · exact Or.inl (by rw [proposalStatus, proposalStatus, hsame])
  · exact Or.inr ⟨hq, r, hd, by rw [proposalStatus, hc, Option.map_some]⟩

/-- An uncommitted task was there before, or its session has just created it. -/
lemma dirty_task_cases {k : ℕ} {r : Task} (h : (Db.effect i q s).dirty .task k = some (j, r)) :
    s.dirty .task k = some (j, r) ∨ j = i ∧ createsTask q = true ∧ k = s.fresh := by
  rcases Db.dirty_effect_cases h with ⟨hold, -⟩ | ⟨rfl, ⟨u, r₀, -, -, -, heq⟩ | ⟨x, rfl, hk, heq⟩⟩
  · exact Or.inl hold
  · cases u <;> cases heq
  · cases x with
    | task r₀ => exact Or.inr ⟨rfl, rfl, hk⟩
    | _ => cases heq

/-- An uncommitted version of a proposal was there before, or its session has just flushed,
expired or inserted it. -/
lemma dirty_proposal_cases {r : Proposal}
    (h : (Db.effect i q s).dirty .proposal p = some (j, r)) :
    (s.dirty .proposal p = some (j, r) ∧ (q = .commit ∨ q = .rollback → j ≠ i))
      ∨ j = i ∧ q ≠ .commit
          ∧ ((∃ loaded new r₀, q = .update (.flushProposal loaded new) p
              ∧ s.view i .proposal p = some r₀
              ∧ (r.status = r₀.status ∨ r.status = new.status))
            ∨ (∃ r₀, s.view i .proposal p = some r₀ ∧ r₀.status = .proposed
                ∧ r.status = .expired)
            ∨ p = s.fresh ∧ r.status = .proposed) := by
  rcases Db.dirty_effect_cases h with hold | ⟨rfl, ⟨u, r₀, rfl, hv, hg, heq⟩ | ⟨x, rfl, hp, heq⟩⟩
  · exact Or.inl hold
  · cases u with
    | flushProposal loaded new =>
        cases heq
        refine Or.inr ⟨rfl, by simp, Or.inl ⟨loaded, new, r₀, rfl, hv, ?_⟩⟩
        by_cases hsame : new.status = loaded.status
        · exact Or.inl (if_pos hsame)
        · exact Or.inr (if_neg hsame)
    | expireProposal org now =>
        cases heq
        have hg' : (Proposal.markExpired org now).guard r₀ = true := hg
        simp only [Proposal.markExpired, Bool.and_eq_true, decide_eq_true_eq] at hg'
        exact Or.inr ⟨rfl, by simp, Or.inr (Or.inl ⟨r₀, hv, hg'.2, rfl⟩)⟩
    | _ => cases heq
  · cases x with
    | proposal d =>
        cases heq
        exact Or.inr ⟨rfl, by simp, Or.inr (Or.inr ⟨hp, rfl⟩)⟩
    | _ => cases heq

/-- A session executes by right when it has decided the request, and has not executed before; it
commits a task together with the success of the proposal. -/
def Rightful (m p : ℕ) (i : ι) (h : List (Happened ι)) (s : Database ι) : Sql automation → Prop
  | .insert (.task _) => Won m i h ∧ ∀ ev ∈ h, createsTask ev.stmt = false
  | .update (.flushProposal _ _) n =>
      n = p → Won m i h ∧ ∀ ev ∈ h, succeeds p ev.stmt = false
  | .commit => ∀ k r, s.dirty .task k = some (i, r) →
      ∃ r', s.dirty .proposal p = some (i, r') ∧ r'.status = .succeeded
  | _ => True

omit [DecidableEq ι] in
lemma Rightful.creates {h : List (Happened ι)} (hq : Rightful m p i h s q)
    (hcreates : createsTask q = true) : Won m i h ∧ ∀ ev ∈ h, createsTask ev.stmt = false := by
  cases q with
  | insert x =>
      cases x with
      | task r => exact hq
      | _ => cases hcreates
  | _ => cases hcreates

omit [DecidableEq ι] in
/-- Who executes has decided the request. -/
lemma Rightful.won {h : List (Happened ι)} (hq : Rightful m p i h s q)
    (hexec : createsTask q = true ∨ succeeds p q = true) : Won m i h := by
  rcases hexec with hcreates | hsucc
  · exact (hq.creates hcreates).1
  · cases q with
    | update u n =>
        cases u with
        | flushProposal loaded new =>
            simp only [succeeds, Bool.and_eq_true, decide_eq_true_eq] at hsucc
            exact (hq hsucc.1).1
        | _ => cases hsucc
    | _ => cases hsucc

/-- Tasks, proposal `p` and request `m` after a trace in which sessions execute by right, from the
database `s₀` on. -/
structure ExecutedOnce (m p : ℕ) (s₀ : Database ι) (tr : List (Happened ι)) (s : Database ι) :
    Prop where
  linked : link p s = some m
  decisions : (Pool.flips (fun s => decided m s = true) tr).length
    = if decided m s = true then 1 else 0
  successes : (Pool.flips (fun s => proposalStatus p s = some .succeeded) tr).length
    = if proposalStatus p s = some .succeeded then 1 else 0
  winner : ∀ ev ∈ tr, createsTask ev.stmt = true ∨ succeeds p ev.stmt = true → Won m ev.pid tr
  once : (tr.filter fun ev => createsTask ev.stmt).length ≤ 1
  dirty : ∀ k j r, s.dirty .task k = some (j, r) →
    ∃ ev ∈ tr, ev.pid = j ∧ createsTask ev.stmt = true ∧ ev.before.fresh = k
  created : ∀ k, Created s₀ s k → ∃ ev ∈ tr, createsTask ev.stmt = true ∧ ev.before.fresh = k
  succeeded : ∀ i r, s.view i .proposal p = some r → r.status = .succeeded →
    ∃ ev ∈ tr, succeeds p ev.stmt = true
  final : proposalStatus p s = some .succeeded →
    ∀ j r, s.dirty .proposal p = some (j, r) → r.status = .succeeded
  recorded : ∀ k, Created s₀ s k → proposalStatus p s = some .succeeded

namespace ExecutedOnce

/-- One session decides the request. -/
lemma winner_unique (h : ExecutedOnce m p s₀ tr s) (hi : Won m i tr) (hj : Won m j tr) : i = j := by
  obtain ⟨ev, hev, rfl, hb, ha⟩ := hi
  obtain ⟨ev', hev', rfl, hb', ha'⟩ := hj
  have hle : (Pool.flips (fun s => decided m s = true) tr).length ≤ 1 := by
    rw [h.decisions]
    split_ifs <;> omega
  rw [Pool.flip_unique hle hev hev' (by simp [hb]) ha (by simp [hb']) ha']

/-- What the session that decided the request has not done, nobody has done. -/
lemma none_of_own (h : ExecutedOnce m p s₀ tr s) {f : Sql automation → Bool}
    (hf : ∀ q, f q = true → createsTask q = true ∨ succeeds p q = true) (hi : Won m i (own i tr))
    (hown : ∀ ev ∈ own i tr, f ev.stmt = false) : ∀ ev ∈ tr, f ev.stmt = false := by
  intro ev hev
  by_contra hne
  have htrue : f ev.stmt = true := by simpa using hne
  have hpid : ev.pid = i := h.winner_unique (h.winner ev hev (hf _ htrue)) hi.of_own
  exact hne (hown ev (mem_own.mpr ⟨hev, hpid⟩))

/-- At most one task is created. -/
lemma created_unique (h : ExecutedOnce m p s₀ tr s) {k k' : ℕ} (hk : Created s₀ s k)
    (hk' : Created s₀ s k') : k = k' := by
  obtain ⟨ev, hev, hc, rfl⟩ := h.created k hk
  obtain ⟨ev', hev', hc', rfl⟩ := h.created k' hk'
  have hmem : ev ∈ tr.filter fun ev => createsTask ev.stmt := List.mem_filter.mpr ⟨hev, hc⟩
  have hmem' : ev' ∈ tr.filter fun ev => createsTask ev.stmt := List.mem_filter.mpr ⟨hev', hc'⟩
  obtain ⟨ev₀, hev₀⟩ := List.length_eq_one_iff.mp
    (le_antisymm h.once (List.length_pos_of_mem hmem))
  rw [hev₀] at hmem hmem'
  rw [List.mem_singleton.mp hmem, List.mem_singleton.mp hmem']

/-- A proposal that is SUCCEEDED stays so. -/
lemma stays (h : ExecutedOnce m p s₀ tr s) (hs : proposalStatus p s = some .succeeded) :
    proposalStatus p (Db.effect i q s) = some .succeeded := by
  rcases proposalStatus_cases i q s p with hsame | ⟨-, r, hd, hnew⟩
  · rw [hsame, hs]
  · rw [hnew, h.final hs i r hd]

/-- What a session sees of a proposal that is SUCCEEDED. -/
lemma view_succeeded (h : ExecutedOnce m p s₀ tr s) (hs : proposalStatus p s = some .succeeded)
    {r : Proposal} (hv : s.view i .proposal p = some r) : r.status = .succeeded := by
  rcases s.view_cases i .proposal p with ⟨r', hd, hv'⟩ | ⟨-, hv'⟩
  · obtain rfl := Option.some.inj (hv.symm.trans hv')
    exact h.final hs i r hd
  · have hc : s.committed .proposal p = some r := hv'.symm.trans hv
    rw [proposalStatus, hc, Option.map_some] at hs
    exact Option.some.inj hs

/-- A committed SUCCEEDED was flushed. -/
lemma flushed_of_committed (h : ExecutedOnce m p s₀ tr s) (i : ι)
    (hs : proposalStatus p s = some .succeeded) : ∃ ev ∈ tr, succeeds p ev.stmt = true := by
  obtain ⟨rc, hrc, -⟩ := Option.map_eq_some_iff.mp hs
  cases hv : s.view i .proposal p with
  | some r => exact h.succeeded i r hv (h.view_succeeded hs hv)
  | none =>
      rcases s.view_cases i .proposal p with ⟨r, -, hv'⟩ | ⟨-, hv'⟩
      · rw [hv] at hv'
        cases hv'
      · rw [hv, hrc] at hv'
        cases hv'

/-- A session that executes by right keeps the tasks and the proposal in order. -/
lemma effect (h : ExecutedOnce m p s₀ tr s) (hahead : Ahead (S := automation) Onward s)
    (hq : Rightful m p i (own i tr) s q) :
    ExecutedOnce m p s₀ (tr ++ [⟨i, q, s, Db.effect i q s⟩]) (Db.effect i q s) := by
  have hlast : (⟨i, q, s, Db.effect i q s⟩ : Happened ι) ∈ tr ++ [⟨i, q, s, Db.effect i q s⟩] :=
    List.mem_append_right _ (List.mem_singleton_self _)
  have hkept : decided m s = true → decided m (Db.effect i q s) = true := by
    intro hdec
    obtain ⟨st, hst, hne⟩ := decided_eq_true.mp hdec
    exact decided_eq_true.mpr ⟨st, kept_effect hahead st hst hne, hne⟩
  have hfresh : createsTask q = true → ∀ ev ∈ tr, createsTask ev.stmt = false := by
    intro hcreates
    obtain ⟨hwon, hown⟩ := hq.creates hcreates
    exact h.none_of_own (fun _ hf => Or.inl hf) hwon hown
  -- a session that may flush the proposal finds it not SUCCEEDED
  have hnot : ∀ loaded new r, q = .update (.flushProposal loaded new) p →
      s.view i .proposal p = some r → r.status ≠ .succeeded := by
    rintro loaded new r rfl hv hr
    obtain ⟨hwon, hown⟩ := hq rfl
    obtain ⟨ev, hev, hsucc⟩ := h.succeeded i r hv hr
    rw [h.none_of_own (fun _ hf => Or.inr hf) hwon hown ev hev] at hsucc
    cases hsucc
  refine ⟨?_, Pool.flips_snoc h.decisions hkept, Pool.flips_snoc h.successes h.stays, ?_, ?_, ?_,
    ?_, ?_, ?_, ?_⟩
  · obtain ⟨rc, hrc, hlink⟩ := Option.bind_eq_some_iff.mp h.linked
    obtain ⟨rc', hrc', honward⟩ := hahead.committed onward_refl i q hrc
    have hsame : rc'.approvalRequestId = rc.approvalRequestId := honward
    rw [link, hrc', Option.bind_some, hsame, hlink]
  · intro ev hev hexec
    rcases List.mem_append.mp hev with hev | hev
    · exact (h.winner ev hev hexec).append _
    · obtain rfl := List.mem_singleton.mp hev
      exact (hq.won hexec).of_own.append _
  · rw [List.filter_append, List.length_append]
    by_cases hcreates : createsTask q = true
    · have hnone : (tr.filter fun ev => createsTask ev.stmt) = [] :=
        List.filter_eq_nil_iff.mpr fun ev hev => by simp [hfresh hcreates ev hev]
      simp [hnone, hcreates]
    · simpa [hcreates] using h.once
  · intro k j r hd
    rcases dirty_task_cases hd with hold | ⟨rfl, hcreates, rfl⟩
    · obtain ⟨ev, hev, hcreated⟩ := h.dirty k j r hold
      exact ⟨ev, List.mem_append_left _ hev, hcreated⟩
    · exact ⟨_, hlast, rfl, hcreates, rfl⟩
  · rintro k ⟨hnone, hc⟩
    have hevent : ∃ ev ∈ tr, createsTask ev.stmt = true ∧ ev.before.fresh = k := by
      rcases Db.committed_effect_cases i q s .task k with hsame | ⟨-, r, hd, -⟩
      · exact h.created k ⟨hnone, hsame ▸ hc⟩
      · obtain ⟨ev, hev, -, hcreated⟩ := h.dirty k i r hd
        exact ⟨ev, hev, hcreated⟩
    obtain ⟨ev, hev, hcreated⟩ := hevent
    exact ⟨ev, List.mem_append_left _ hev, hcreated⟩
  · intro k r hv hr
    have hdirty : (Db.effect i q s).dirty .proposal p = some (k, r) →
        ∃ ev ∈ tr ++ [⟨i, q, s, Db.effect i q s⟩], succeeds p ev.stmt = true := by
      intro hd
      rcases dirty_proposal_cases hd with
        ⟨hold, -⟩ | ⟨rfl, -, ⟨loaded, new, r₀, rfl, hv₀, hst⟩ | ⟨r₀, -, -, hst⟩ | ⟨-, hst⟩⟩
      · obtain ⟨ev, hev, hsucc⟩ := h.succeeded k r (Db.view_of_own hold) hr
        exact ⟨ev, List.mem_append_left _ hev, hsucc⟩
      · rcases hst with hst | hst
        · exact absurd (hst ▸ hr) (hnot loaded new r₀ rfl hv₀)
        · exact ⟨_, hlast, by simp [succeeds, ← hst, hr]⟩
      · rw [hr] at hst
        cases hst
      · rw [hr] at hst
        cases hst
    rcases (Db.effect i q s).view_cases k .proposal p with ⟨r', hd, hv'⟩ | ⟨-, hv'⟩
    · obtain rfl := Option.some.inj (hv.symm.trans hv')
      exact hdirty hd
    · have hc : proposalStatus p (Db.effect i q s) = some .succeeded := by
        rw [proposalStatus, ← hv', hv, Option.map_some, hr]
      have hevent : ∃ ev ∈ tr, succeeds p ev.stmt = true := by
        rcases proposalStatus_cases i q s p with hsame | ⟨-, r', hd, hnew⟩
        · exact h.flushed_of_committed i (hsame ▸ hc)
        · exact h.succeeded i r' (Db.view_of_own hd) (Option.some.inj (hnew.symm.trans hc))
      obtain ⟨ev, hev, hsucc⟩ := hevent
      exact ⟨ev, List.mem_append_left _ hev, hsucc⟩
  · intro hs j r hd
    rcases dirty_proposal_cases hd with
      ⟨hold, hj⟩ | ⟨rfl, hc, hwritten⟩
    · rcases proposalStatus_cases i q s p with hsame | ⟨rfl, r', hd', -⟩
      · exact h.final (hsame ▸ hs) j r hold
      · rw [hold] at hd'
        exact absurd (Prod.mk.inj (Option.some.inj hd')).1 (hj (Or.inl rfl))
    · have hs₀ : proposalStatus p s = some .succeeded := by
        rw [← hs, proposalStatus, proposalStatus, Db.committed_effect hc]
      obtain ⟨rc, hrc, -⟩ := Option.map_eq_some_iff.mp hs₀
      rcases hwritten with ⟨loaded, new, r₀, hq', hv₀, -⟩ | ⟨r₀, hv₀, hst, -⟩ | ⟨rfl, -⟩
      · exact absurd (h.view_succeeded hs₀ hv₀) (hnot loaded new r₀ hq' hv₀)
      · rw [h.view_succeeded hs₀ hv₀] at hst
        cases hst
      · rw [(s.alloc _ s.fresh le_rfl).1] at hrc
        cases hrc
  · rintro k ⟨hnone, hc⟩
    rcases Db.committed_effect_cases i q s .task k with hsame | ⟨rfl, r, hd, -⟩
    · exact h.stays (h.recorded k ⟨hnone, hsame ▸ hc⟩)
    · obtain ⟨r', hd', hr'⟩ := hq k r hd
      have hv : s.view i .proposal p = some r' := Db.view_of_own hd'
      show (s.view i .proposal p).map (·.status) = some .succeeded
      rw [hv, Option.map_some, hr']

end ExecutedOnce

/-! ### The contract -/

/-- What every session may count on while proposal `p` is decided and executed. -/
def executing (m p : ℕ) (s₀ : Database ι) : Contract (sql automation) ι (Database ι) :=
  (deciding m).strengthen (ExecutedOnce m p s₀)

lemma executing_compatible : (executing m p s₀).Compatible (postgres ι) :=
  deciding_compatible.strengthen fun _ _ _ hI hX _ _ => hX.effect hI.1 trivial

/-- An orderly statement of a session that executes by right keeps the contract. -/
lemma executing_step (hI : (executing m p s₀).inv tr s)
    (hflush : FlushesPending ⟨i, q, s, Db.effect i q s⟩ = true) (hord : Orderly m i s q)
    (hq : Rightful m p i (own i tr) s q) :
    (executing m p s₀).inv (tr ++ [⟨i, q, s, Db.effect i q s⟩]) (Db.effect i q s)
      ∧ Kept m s (Db.effect i q s) := by
  obtain ⟨hI', hkept⟩ := deciding_step hI.1 hflush hord
  exact ⟨⟨hI', hI.2.effect hI.1.1 hq⟩, hkept⟩

/-! ### Sessions that do not execute -/

/-- The events create no task and flush no success of the proposal. -/
def Clean (p : ℕ) (h : List (Happened ι)) : Prop :=
  ∀ ev ∈ h, createsTask ev.stmt = false ∧ succeeds p ev.stmt = false

/-- The statements that neither create a task nor flush proposal `p`. -/
def LeavesProposal (p : ℕ) : Sql automation → Prop
  | .update (.flushProposal ..) n => n ≠ p
  | .insert (.task _) => False
  | _ => True

/-- The statements that neither decide request `m` nor execute proposal `p`. -/
def NoExecution (m p : ℕ) (q : Sql automation) : Prop := NoDecision m q ∧ LeavesProposal p q

/-- The statements that neither decide request `m` nor create a task nor record a success. -/
def NoSuccess (m p : ℕ) (q : Sql automation) : Prop :=
  NoDecision m q ∧ createsTask q = false ∧ succeeds p q = false

omit [DecidableEq ι] in
lemma Clean.append {h : List (Happened ι)} {ev : Happened ι} (hclean : Clean p h)
    (hev : createsTask ev.stmt = false ∧ succeeds p ev.stmt = false) : Clean p (h ++ [ev]) := by
  intro ev' hev'
  rcases List.mem_append.mp hev' with hmem | hmem
  · exact hclean ev' hmem
  · obtain rfl := List.mem_singleton.mp hmem
    exact hev

omit [DecidableEq ι] in
lemma LeavesProposal.clean (hq : LeavesProposal p q) : createsTask q = false ∧ succeeds p q = false := by
  unfold LeavesProposal at hq
  split at hq
  · exact ⟨rfl, by simp [succeeds, hq]⟩
  · exact hq.elim
  · rename_i hflush htask
    refine ⟨?_, ?_⟩
    · unfold createsTask
      split
      · exact absurd rfl (htask _)
      · rfl
    · unfold succeeds
      split
      · exact absurd rfl (hflush _ _ _)
      · rfl

/-- A session that has created no task has none to commit. -/
lemma ExecutedOnce.no_task (h : ExecutedOnce m p s₀ tr s) (hclean : Clean p (own i tr)) (k : ℕ)
    (r : Task) : s.dirty .task k ≠ some (i, r) := by
  intro hd
  obtain ⟨ev, hev, hpid, hcreates, -⟩ := h.dirty k i r hd
  rw [(hclean ev (mem_own.mpr ⟨hev, hpid⟩)).1] at hcreates
  cases hcreates

lemma LeavesProposal.rightful (hq : LeavesProposal p q) (h : ExecutedOnce m p s₀ tr s)
    (hclean : Clean p (own i tr)) : Rightful m p i (own i tr) s q := by
  unfold Rightful
  split
  · exact hq.elim
  · exact fun hn => absurd hn hq
  · exact fun k r hd => absurd hd (h.no_task hclean k r)
  · trivial

/-- A program without execution keeps the contract. -/
lemma meets_noExecution {α : Type} {prog : Tx α} (hp : prog.Issues (NoExecution m p))
    (hJ : Undecided m i s) {h : List (Happened ι)} (hclean : Clean p h) :
    Meets (executing m p s₀) (postgres ι) i (fun h _ s => Undecided m i s ∧ Clean p h) prog h s := by
  refine (meets_noDecision (Prog.issues_mono hp fun _ hq => hq.1) hJ h).strengthen hp hclean
    (fun h ev hq hclean => hclean.append hq.2.clean) ?_
  rintro tr q h s rfl hq hclean hI hX - -
  exact hX.effect hI.1 (hq.2.rightful hX hclean)

lemma leavesProposal_decide (org actor n : ℕ) (approve : Bool) (note : Option String) :
    (ApprovalService.decide org actor n approve note).Issues (LeavesProposal p) := by
  have hget : (ApprovalRequestRepository.getOr404 org n).Issues (LeavesProposal p) := by
    refine Prog.issues_bind ⟨trivial, fun _ => trivial⟩ fun r => ?_
    cases r <;> trivial
  refine Prog.issues_bind hget fun request => ?_
  by_cases hpending : request.status ≠ .pending
  · rw [if_pos hpending]
    trivial
  · rw [if_neg hpending]
    refine ⟨trivial, fun now => ?_⟩
    by_cases hexpired : request.expiresAt < now
    · simp only [Prog.ret_bind, if_pos hexpired]
      exact ⟨trivial, fun _ => ⟨trivial, fun _ => trivial⟩⟩
    · simp only [Prog.ret_bind, if_neg hexpired]
      refine ⟨trivial, fun decidedAt => ⟨trivial, fun updated => ?_⟩⟩
      cases updated with
      | none => trivial
      | some r => exact ⟨trivial, fun _ => ⟨trivial, fun _ => trivial⟩⟩

/-- The decision of the linked request, which leaves the proposal alone. -/
lemma meets_decideLinked (org actor : ℕ) (approve : Bool) (note : Option String)
    (hJ : Undecided m i s) {h : List (Happened ι)} (hclean : Clean p h) :
    Meets (executing m p s₀) (postgres ι) i
      (fun h r s => (r = .ok () → DecidedBy m i approve h s) ∧ Clean p h)
      (ApprovalService.decide org actor m approve note) h s := by
  refine (meets_decide org actor approve note hJ h).strengthen (leavesProposal_decide ..) hclean
    (fun h ev hq hclean => hclean.append hq.clean) ?_
  rintro tr q h s rfl hq hclean hI hX - -
  exact hX.effect hI.1 (hq.rightful hX hclean)

/-! ### The session that executes -/

section Execute

variable {h : List (Happened ι)}

/-- A session that has decided the request, and not executed yet. -/
def Winning (m p : ℕ) (i : ι) (h : List (Happened ι)) (s : Database ι) : Prop :=
  Undecided m i s ∧ Won m i h ∧ Clean p h

/-- A session that has decided the request, and not recorded the success yet. -/
def Recording (m p : ℕ) (i : ι) (h : List (Happened ι)) (s : Database ι) : Prop :=
  Undecided m i s ∧ Won m i h ∧ ∀ ev ∈ h, succeeds p ev.stmt = false

omit [DecidableEq ι] in
lemma Winning.recording (hw : Winning m p i h s) : Recording m p i h s :=
  ⟨hw.1, hw.2.1, fun ev hev => (hw.2.2 ev hev).2⟩

lemma Winning.rely {s' : Database ι} (hw : Winning m p i h s)
    (hrely : (executing m p s₀).rely i h s s') : Winning m p i h s' :=
  ⟨Undecided.rely (h := h) hw.1 hrely, hw.2⟩

lemma Recording.rely {s' : Database ι} (hr : Recording m p i h s)
    (hrely : (executing m p s₀).rely i h s s') : Recording m p i h s' :=
  ⟨Undecided.rely (h := h) hr.1 hrely, hr.2⟩

omit [DecidableEq ι] in
/-- A decision of the session is a decision that is won. -/
lemma DecidedBy.winning {approve : Bool} (hd : DecidedBy m i approve h s) (hclean : Clean p h) :
    Winning m p i h s := by
  obtain ⟨hst, ev, hev, hwon⟩ := hd
  refine ⟨fun r _ hpending => ?_, ⟨ev, hev, hwon⟩, hclean⟩
  rw [hst] at hpending
  exact absurd (Option.some.inj hpending) (decision_ne_pending approve)

/-- The session that has decided may flush the proposal, as long as it does not succeed. -/
lemma meets_noSuccess {α : Type} {prog : Tx α} (hp : prog.Issues (NoSuccess m p))
    (hw : Winning m p i h s) :
    Meets (executing m p s₀) (postgres ι) i (fun h _ s => Winning m p i h s) prog h s := by
  have hdecision := meets_noDecision (Prog.issues_mono hp fun _ hq => hq.1) hw.1 h
  refine (hdecision.strengthen (J := fun h => Won m i h ∧ Clean p h) hp hw.2
    (fun h ev hq hJ => ⟨hJ.1.append _, hJ.2.append hq.2⟩) ?_)
  rintro tr q h s rfl hq ⟨hwon, hclean⟩ hI hX - -
  refine hX.effect hI.1 ?_
  unfold Rightful
  split
  · cases hq.2.1
  · exact fun _ => ⟨hwon, fun ev hev => (hclean ev hev).2⟩
  · exact fun k r hd => absurd hd (hX.no_task hclean k r)
  · trivial

/-- Readings of the clock between the creation of a task and its commit. -/
lemma meets_clock {α : Type} {prog : Tx α} (hp : prog.Issues (fun q : Sql automation => q = .now))
    (hr : Recording m p i h s) :
    Meets (executing m p s₀) (postgres ι) i (fun h _ s => Recording m p i h s) prog h s := by
  have hdecision : Meets (deciding m) (postgres ι) i (fun _ _ s => Undecided m i s) prog h s :=
    meets_noDecision (Prog.issues_mono hp fun _ hq => hq ▸ trivial) hr.1 h
  refine hdecision.strengthen
    (J := fun h => Won m i h ∧ ∀ ev ∈ h, succeeds p ev.stmt = false) hp hr.2 ?_ ?_
  · rintro h ⟨_, _, _, _⟩ rfl ⟨hwon, hnone⟩
    refine ⟨hwon.append _, fun ev hev => ?_⟩
    rcases List.mem_append.mp hev with hmem | hmem
    · exact hnone ev hmem
    · obtain rfl := List.mem_singleton.mp hmem
      rfl
  · rintro tr q h s rfl rfl - hI hX - -
    exact hX.effect hI.1 trivial

/-- What `apply_transition` returns. -/
lemma returns_applyTransition (n : ℕ) (proposal : Proposal) (st : ProposalStatus) (now : Time)
    (actor : Option ℕ) : (applyTransition n proposal st now actor).Returns (·.status = st) := by
  rw [applyTransition]
  split_ifs with hsame
  · exact hsame
  · rfl
  · rfl
  · trivial

lemma quiet_applyTransition {φ : Sql automation → Prop} (n : ℕ) (proposal : Proposal)
    (st : ProposalStatus) (now : Time) (actor : Option ℕ) :
    (applyTransition n proposal st now actor).Issues φ := by
  rw [applyTransition]
  split_ifs <;> trivial

open FounderActionService FounderActionProposalRepository

variable (readers : Readers)

/-- What an execution leaves: a session that still has to record the success, or one that has
executed nothing. -/
def AfterExecute (m p : ℕ) (i : ι) : Post (sql automation) ι (Database ι) Exn JsonObject
  | h, .ok _, s => Recording m p i h s
  | h, .error _, s => Winning m p i h s

omit [DecidableEq ι] in
lemma Winning.afterExecute (hw : Winning m p i h s) (r : Except Exn JsonObject) :
    AfterExecute m p i h r s := by
  cases r with
  | ok reference => exact hw.recording
  | error e => exact hw

/-- The creation of the task comes last. -/
lemma meets_insertTask (task : Task) (reference : ℕ → JsonObject) (hw : Winning m p i h s) :
    Meets (executing m p s₀) (postgres ι) i (AfterExecute m p i)
      ((Tx.insert (S := automation) (.task task)).bind fun taskId => .ret (reference taskId)) h s := by
  rintro tr s₁ rfl hrely hI _ hflush
  have hJ : Undecided m i s₁ := Undecided.rely (h := own i tr) hw.1 hrely
  have hright : Rightful m p i (own i tr) s₁ (.insert (.task task)) :=
    ⟨hw.2.1, fun ev hev => (hw.2.2 ev hev).1⟩
  obtain ⟨hI', hkept⟩ := executing_step hI hflush (hJ.orderly trivial) hright
  refine ⟨hI', hkept, fun _ s₂ _ hrely' _ => ?_⟩
  have hJ' : Undecided m i (Db.effect i (.insert (.task task)) s₁) := hJ.effect trivial
  refine ⟨Undecided.rely (h := own i tr) hJ' hrely', hw.2.1.append _, fun ev hev => ?_⟩
  rcases List.mem_append.mp hev with hmem | hmem
  · exact (hw.2.2 ev hmem).2
  · obtain rfl := List.mem_singleton.mp hmem
    rfl

lemma meets_executeCreateTask (proposal : Proposal) (actor : ℕ) (hw : Winning m p i h s) :
    Meets (executing m p s₀) (postgres ι) i (AfterExecute m p i)
      (executeCreateTask readers proposal actor) h s := by
  have htext : ∀ v, (textColumn v).Issues (NoSuccess m p) := by
    rintro (_ | _ | _) <;> trivial
  have hpriority : (taskPriority proposal.payload).Issues (NoSuccess m p) := by
    rw [taskPriority]
    split
    · trivial
    · trivial
    · split <;> trivial
  have hdueAt : (taskDueAt readers proposal.payload).Issues (NoSuccess m p) := by
    rw [taskDueAt]
    split
    · trivial
    · split <;> trivial
  have hraise : (throw flushFailed : Tx JsonObject).Issues (NoSuccess m p) := trivial
  have herr : ∀ (h : List (Happened ι)) (e : Exn) (s : Database ι), Winning m p i h s →
      AfterExecute m p i h (.error e) s := fun _ _ _ hw => hw
  rw [executeCreateTask]
  refine (meets_noSuccess hpriority hw).bind executing_compatible (fun h priority s hw => ?_) herr
  refine (meets_noSuccess hdueAt hw).bind executing_compatible (fun h dueAt s hw => ?_) herr
  refine (meets_noSuccess (htext _) hw).bind executing_compatible (fun h title s hw => ?_) herr
  refine (meets_noSuccess (htext _) hw).bind executing_compatible (fun h description s hw => ?_) herr
  by_cases hchecks : (dueAt.any (!readers.writable ·) || isBlank (title.getD proposal.title)) = true
  · rw [if_pos hchecks]
    exact (meets_noSuccess hraise hw).mono fun h r s hw => hw.afterExecute r
  rw [if_neg hchecks]
  split
  · rename_i user _
    have huser : (Tx.select (S := automation) Table.user user : Tx _).Issues (NoSuccess m p) :=
      ⟨⟨trivial, rfl, rfl⟩, fun _ => trivial⟩
    refine (meets_noSuccess huser hw).bind executing_compatible (fun h found s hw => ?_) herr
    by_cases hfound : found.isNone = true
    · rw [if_pos hfound]
      exact (meets_noSuccess hraise hw).mono fun h r s hw => hw.afterExecute r
    · rw [if_neg hfound]
      exact meets_insertTask _ _ hw
  · exact meets_insertTask _ _ hw

lemma meets_execute (proposal : Proposal) (actor : ℕ) (hw : Winning m p i h s) :
    Meets (executing m p s₀) (postgres ι) i (AfterExecute m p i) (execute readers proposal actor)
      h s := by
  rw [execute]
  split_ifs with htask
  · exact meets_executeCreateTask readers proposal actor hw
  · have hreturn : ∀ reference : JsonObject,
        (return reference : Tx JsonObject).Issues (NoSuccess m p) := fun _ => trivial
    exact (meets_noSuccess (hreturn _) hw).mono fun h r s hw => hw.afterExecute r

/-- What the record of an execution issues and returns. -/
lemma recordExecution_now (n : ℕ) (proposal : Proposal) (outcome : ProposalStatus) (actor : ℕ)
    (reference : JsonObject) :
    (recordExecution n proposal outcome actor reference).Issues
      fun q : Sql automation => q = .now := by
  have hnow : (utcnow : Tx Time).Issues fun q : Sql automation => q = .now := ⟨rfl, fun _ => trivial⟩
  refine Prog.issues_bind hnow fun now => Prog.issues_bind (quiet_applyTransition ..) fun _ => ?_
  exact Prog.issues_bind hnow fun now => Prog.issues_bind (quiet_applyTransition ..) fun _ => trivial

lemma returns_recordExecution (n : ℕ) (proposal : Proposal) (outcome : ProposalStatus) (actor : ℕ)
    (reference : JsonObject) :
    (recordExecution n proposal outcome actor reference).Returns (·.status = outcome) := by
  have hnow : (utcnow : Tx Time).Returns fun _ => True := fun _ => trivial
  refine Prog.returns_bind hnow fun now _ => ?_
  refine Prog.returns_bind (returns_applyTransition ..) fun executing _ => ?_
  refine Prog.returns_bind hnow fun now _ => ?_
  exact Prog.returns_bind (returns_applyTransition ..) fun recorded hrecorded => hrecorded

/-- A flush of the proposal that records no success. -/
lemma noSuccess_save {loaded new : Proposal} (hnew : new.status ≠ .succeeded) :
    (save p loaded new).Issues (NoSuccess m p) := by
  refine ⟨⟨trivial, rfl, by simp [succeeds, hnew]⟩, fun row => ?_⟩
  cases row with
  | none => trivial
  | some r => exact ⟨⟨trivial, rfl, rfl⟩, fun _ => trivial⟩

/-- A flush that changes the proposal to SUCCEEDED, and the commit of it and of the task. -/
lemma meets_saveSucceeded {loaded new : Proposal} (hloaded : loaded.status = .approved)
    (hnew : new.status = .succeeded) (hr : Recording m p i h s) :
    Meets (executing m p s₀) (postgres ι) i (fun h r _ => r = .ok () → Won m i h)
      (save p loaded new) h s := by
  rintro tr s₁ rfl hrely hI _ hflush
  have hJ : Undecided m i s₁ := Undecided.rely (h := own i tr) hr.1 hrely
  have hright : Rightful m p i (own i tr) s₁ (.update (.flushProposal loaded new) p) :=
    fun _ => hr.2
  obtain ⟨hI', hkept⟩ := executing_step hI hflush (hJ.orderly trivial) hright
  refine ⟨hI', hkept, ?_⟩
  have hJ' : Undecided m i (Db.effect i (.update (.flushProposal loaded new) p) s₁) :=
    hJ.effect trivial
  cases hw : s₁.written i (.flushProposal loaded new) p with
  | none =>
      have hanswer : (postgres ι).answer i (.update (.flushProposal loaded new) p) s₁ = none := hw
      rw [hanswer]
      exact fun _ _ _ _ _ hok => by cases hok
  | some row =>
      have hanswer : (postgres ι).answer i (.update (.flushProposal loaded new) p) s₁ = some row := hw
      rw [hanswer]
      rintro tr' s₂ htr' hrely' hI₂ _ hflush'
      have hd : s₂.dirty .proposal p = some (i, row) :=
        (hrely'.1.dirty _ _ _).mpr (Db.dirty_update hw)
      have hstatus : row.status = .succeeded := by
        obtain ⟨-, r, -, -, rfl⟩ := Db.written_eq_some.mp hw
        show flushed loaded.status new.status r.status = .succeeded
        rw [flushed, hloaded, hnew]
        rfl
      have hJ₂ : Undecided m i s₂ := Undecided.rely (h := own i tr) hJ' hrely'
      have hcommit : Rightful m p i (own i tr') s₂ .commit := fun _ _ _ => ⟨row, hd, hstatus⟩
      obtain ⟨hI₂', hkept'⟩ := executing_step hI₂ hflush' (hJ₂.orderly trivial) hcommit
      exact ⟨hI₂', hkept', fun _ _ _ _ _ _ => (hr.2.1.append _).append _⟩

/-- The approved branch, from the commit of the approval on. -/
lemma meets_executeApproved {approved : Proposal} (happroved : approved.status = .approved)
    (actor : ℕ) (hw : Winning m p i h s) :
    Meets (executing m p s₀) (postgres ι) i (fun h r _ => r = .ok () → Won m i h)
      (executeApproved readers p approved actor) h s := by
  have hreference : Meets (executing m p s₀) (postgres ι) i
      (fun h r s => match r with
        | .ok (some _) => Recording m p i h s
        | .ok none => Winning m p i h s
        | .error _ => True)
      (tryCatch (do return some (← execute readers approved actor)) fun e =>
        if e = flushFailed then throw (.other "PendingRollbackError") else return none) h s := by
    have hbody : Meets (executing m p s₀) (postgres ι) i
        (fun h r s => match r with
          | .ok reference => reference.isSome = true ∧ Recording m p i h s
          | .error _ => Winning m p i h s)
        (do return some (← execute readers approved actor)) h s := by
      refine (meets_execute readers approved actor hw).bind executing_compatible
        (fun h reference s hr => ?_) fun h e s hw => hw
      exact fun _ s' _ hrely _ => ⟨rfl, hr.rely hrely⟩
    refine hbody.tryCatch executing_compatible (fun h reference s hr => ?_) fun h e s hw => ?_
    · cases reference with
      | none => cases hr.1
      | some reference => exact hr.2
    · by_cases he : e = flushFailed
      · rw [if_pos he]
        exact fun _ _ _ _ _ => trivial
      · rw [if_neg he]
        exact fun _ s' _ hrely _ => hw.rely hrely
  rw [executeApproved]
  refine hreference.bind executing_compatible (fun h reference s hr => ?_) fun h e s _ hok => by
    cases hok
  cases reference with
  | none =>
      have hrecord : (recordExecution p approved .failed actor
          [("error", .str "execution failed; see logs")]).Issues (NoSuccess m p) :=
        Prog.issues_mono (recordExecution_now ..) fun q hq => hq ▸ ⟨trivial, rfl, rfl⟩
      have hreturns := returns_recordExecution p approved .failed actor
        [("error", .str "execution failed; see logs")]
      refine ((meets_noSuccess hrecord hr).returns hreturns).bind executing_compatible
        (fun h failed s hf => ?_) fun h e s _ hok => by cases hok
      have hfailed : failed.status = .failed := hf.2 failed rfl
      exact (meets_noSuccess (noSuccess_save (by rw [hfailed]; decide)) hf.1).mono
        fun h r s hw _ => hw.2.1
  | some reference =>
      have hreturns := returns_recordExecution p approved .succeeded actor reference
      refine ((meets_clock (recordExecution_now ..) hr).returns hreturns).bind
        executing_compatible (fun h succeeded s hs => ?_) fun h e s _ hok => by cases hok
      exact meets_saveSucceeded happroved (hs.2 succeeded rfl) hs.1

/-- The read of the proposal, which shows the linked request. -/
lemma meets_getProposal (org : ℕ) (hJ : Undecided m i s) (hclean : Clean p h) :
    Meets (executing m p s₀) (postgres ι) i
      (fun h r s => (Undecided m i s ∧ Clean p h)
        ∧ ∀ proposal, r = .ok proposal → proposal.approvalRequestId = some m)
      (getProposal org p) h s := by
  have hselect : Meets (executing m p s₀) (postgres ι) i
      (fun h r s => (Undecided m i s ∧ Clean p h)
        ∧ ∀ row, r = .ok (some row) → row.approvalRequestId = some m)
      (Tx.select (S := automation) (ε := Exn) Table.proposal p) h s := by
    refine (meets_ask (P := fun s₁ => Undecided m i s₁ ∧ Ahead (S := automation) Onward s₁
      ∧ link p s₁ = some m) ?_).mono ?_
    · rintro tr s₁ rfl hrely hI _ hflush
      have hJ₁ : Undecided m i s₁ := Undecided.rely (h := own i tr) hJ hrely
      obtain ⟨hI', hkept⟩ := executing_step (q := .select Table.proposal p) hI hflush
        (hJ₁.orderly trivial) trivial
      exact ⟨hI', hkept, hJ₁, hI.1.1, hI.2.linked⟩
    · rintro _ _ s₂ ⟨s₁, ⟨hJ₁, hahead, hlink⟩, rfl, rfl, hrely⟩
      refine ⟨⟨Undecided.rely (h := h) hJ₁ hrely, hclean.append ⟨rfl, rfl⟩⟩, fun row hok => ?_⟩
      have hv : s₁.view i .proposal p = some row := Except.ok.inj hok
      obtain ⟨rc, hrc, hm⟩ := Option.bind_eq_some_iff.mp hlink
      have honward : Onward .proposal rc row := hahead.view onward_refl hv hrc
      exact Eq.trans honward hm
  rw [getProposal, FounderActionProposalRepository.get]
  simp only [Prog.bind_eq, Prog.bind_assoc]
  refine hselect.bind executing_compatible (fun h row s hpost => ?_) fun h e s hpost => ?_
  · obtain ⟨⟨hJ, hclean⟩, hlink⟩ := hpost
    simp only [Prog.pure_eq, Prog.ret_bind]
    cases hrow : row.filter (·.organizationId = org) with
    | none => exact fun _ s' _ hrely _ => ⟨⟨Undecided.rely (h := h) hJ hrely, hclean⟩, by simp⟩
    | some proposal =>
        refine fun _ s' _ hrely _ => ⟨⟨Undecided.rely (h := h) hJ hrely, hclean⟩, fun _ hok => ?_⟩
        obtain rfl := Except.ok.inj hok
        exact hlink proposal (by rw [(Option.filter_eq_some_iff.mp hrow).1])
  · exact ⟨hpost.1, fun _ hok => by cases hok⟩

/-- `decide_proposal`: who returns has decided the request. -/
lemma meets_decideProposal (org actor : ℕ) (approve : Bool) (note : Option String)
    (hJ : Undecided m i s) (hclean : Clean p h) :
    Meets (executing m p s₀) (postgres ι) i (fun h r _ => r = .ok () → Won m i h)
      (decideProposal readers org actor p approve note) h s := by
  rw [decideProposal]
  refine (meets_getProposal org hJ hclean).bind executing_compatible
    (fun h proposal s hpost => ?_) fun h e s _ hok => by cases hok
  obtain ⟨⟨hJ, hclean⟩, hlink⟩ := hpost
  have hai : (assertAiEnabled org).Issues (NoExecution m p) := by
    refine Prog.issues_bind ⟨⟨trivial, trivial⟩, fun _ => trivial⟩ fun enabled => ?_
    cases enabled <;> trivial
  refine (meets_noExecution hai hJ hclean).bind executing_compatible
    (fun h _ s hpost => ?_) fun h e s _ hok => by cases hok
  obtain ⟨hJ, hclean⟩ := hpost
  by_cases hproposed : proposal.status ≠ .proposed
  · rw [if_pos hproposed]
    exact fun _ _ _ _ _ hok => by cases hok
  · rw [if_neg hproposed]
    have hclock : (utcnow : Tx Time).Issues (NoExecution m p) :=
      ⟨⟨trivial, trivial⟩, fun _ => trivial⟩
    refine (meets_noExecution hclock hJ hclean).bind executing_compatible
      (fun h now s hpost => ?_) fun h e s _ hok => by cases hok
    obtain ⟨hJ, hclean⟩ := hpost
    by_cases hexpired : proposal.expiresAt.any (· < now) = true
    · rw [if_pos hexpired]
      have hexpire : (markExpired org p now).Issues (NoExecution m p) :=
        ⟨⟨trivial, trivial⟩, fun _ => trivial⟩
      refine (meets_noExecution hexpire hJ hclean).bind executing_compatible
        (fun h _ s hpost => ?_) fun h e s _ hok => by cases hok
      have hcommit : commitWithRetry.Issues (NoExecution m p) :=
        ⟨⟨trivial, trivial⟩, fun _ => trivial⟩
      refine (meets_noExecution hcommit hpost.1 hpost.2).bind executing_compatible
        (fun h _ s _ => ?_) fun h e s _ hok => by cases hok
      exact fun _ _ _ _ _ hok => by cases hok
    · rw [if_neg hexpired, hlink proposal rfl]
      have hactor : (loadActor (some actor)).Issues (NoExecution m p) := by
        refine ⟨⟨trivial, trivial⟩, fun user => ?_⟩
        cases user <;> trivial
      refine (meets_noExecution hactor hJ hclean).bind executing_compatible
        (fun h actorId s hpost => ?_) fun h e s _ hok => by cases hok
      refine (meets_decideLinked org actorId approve note hpost.1 hpost.2).bind
        executing_compatible (fun h _ s hpost => ?_) fun h e s _ hok => by cases hok
      have hw : Winning m p i h s := (hpost.1 rfl).winning hpost.2
      have hclock : (utcnow : Tx Time).Issues (NoSuccess m p) :=
        ⟨⟨trivial, rfl, rfl⟩, fun _ => trivial⟩
      refine (meets_noSuccess hclock hw).bind executing_compatible
        (fun h now s hw => ?_) fun h e s _ hok => by cases hok
      by_cases happrove : approve = true
      · rw [if_pos happrove]
        have hreturns := returns_applyTransition p proposal .approved now (some actorId)
        refine ((meets_noSuccess (quiet_applyTransition ..) hw).returns hreturns).bind
          executing_compatible (fun h approved s hpost => ?_) fun h e s _ hok => by cases hok
        have happroved : approved.status = .approved := hpost.2 approved rfl
        refine (meets_noSuccess (noSuccess_save (by rw [happroved]; decide)) hpost.1).bind
          executing_compatible (fun h _ s hw => ?_) fun h e s _ hok => by cases hok
        exact meets_executeApproved readers happroved actorId hw
      · rw [if_neg happrove]
        have hreturns := returns_applyTransition p proposal .denied now (some actorId)
        refine ((meets_noSuccess (quiet_applyTransition ..) hw).returns hreturns).bind
          executing_compatible (fun h denied s hpost => ?_) fun h e s _ hok => by cases hok
        have hdenied : denied.status = .denied := hpost.2 denied rfl
        exact (meets_noSuccess (noSuccess_save (by rw [hdenied]; decide)) hpost.1).mono
          fun h r s hw _ => hw.2.1

/-- A session that decides the proposal, and rolls back what is left. -/
lemma meets_decideProposalClient (org actor : ℕ) (approve : Bool) (note : Option String)
    (hJ : Undecided m i s) :
    Meets (executing m p s₀) (postgres ι) i (fun h r _ => r = .ok () → Won m i h)
      (client (decideProposal readers org actor p approve note)) [] s := by
  have hclean : Clean p ([] : List (Happened ι)) := by simp [Clean]
  have hsession : Meets (executing m p s₀) (postgres ι) i (fun h r _ => r = .ok () → Won m i h)
      (Txn.Tx.withSession (decideProposal readers org actor p approve note)) [] s := by
    refine (meets_decideProposal readers org actor approve note hJ hclean).withSession
      executing_compatible ?_
    rintro h r s₁ tr s₂ hwon rfl hrely hI hflush
    obtain ⟨hI', hkept⟩ := executing_step (q := .rollback) hI hflush trivial trivial
    exact ⟨hI', hkept, fun s₃ _ hok => (hwon hok).append _⟩
  rw [client]
  refine hsession.bind executing_compatible (fun h _ s hw => ?_) fun h e s _ hok => by cases hok
  exact fun _ _ _ _ _ _ => hw rfl

/-! ### The expiry sweeps -/

/-- The body of the expiry loops does not execute. -/
lemma noExecution_expireOne (now : Time) (org n : ℕ) (proposal : Proposal) :
    (expireOne now org n proposal).Issues (NoExecution m p) := by
  have hmark : (markExpired org n now).Issues (NoExecution m p) :=
    ⟨⟨trivial, trivial⟩, fun _ => trivial⟩
  refine Prog.issues_bind hmark fun updated => ?_
  cases updated with
  | false => trivial
  | true =>
      cases proposal.approvalRequestId with
      | none => trivial
      | some n => exact ⟨⟨trivial, trivial⟩, fun _ => trivial⟩

/-- The frame of both sweeps: list, expire one by one, commit if anything was expired. -/
lemma noExecution_expiry {due : Tx (List (ℕ × Proposal))} {loop : List (ℕ × Proposal) → Tx ℕ}
    (hdue : due.Issues (NoExecution m p)) (hloop : ∀ rows, (loop rows).Issues (NoExecution m p)) :
    (do
      let rows ← due
      if rows.isEmpty then
        return 0
      let handled ← loop rows
      if 0 < handled then
        commitWithRetry
      return handled : Tx ℕ).Issues (NoExecution m p) := by
  refine Prog.issues_bind hdue fun rows => ?_
  split_ifs
  · trivial
  · refine Prog.issues_bind (hloop rows) fun handled => ?_
    split_ifs
    · exact ⟨⟨trivial, trivial⟩, fun _ => trivial⟩
    · trivial

/-- The expiry of an organization does not execute. -/
lemma noExecution_expireDue (org : ℕ) (now : Option Time) :
    (client (expireDue org now)).Issues (NoExecution m p) := by
  have hdue : ∀ now, (listPendingExpired org now 200).Issues (NoExecution m p) :=
    fun _ => ⟨⟨trivial, trivial⟩, fun _ => trivial⟩
  have hbody := fun now : Time => noExecution_expiry (hdue now)
    fun rows => Prog.issues_tally (fun row => noExecution_expireOne now org row.1 row.2) rows
  refine issues_client ?_ ⟨trivial, trivial⟩
  cases now with
  | some now => exact hbody now
  | none => exact ⟨⟨trivial, trivial⟩, hbody⟩

/-- The global sweep does not execute. -/
lemma noExecution_expireDueAll (now : Option Time) :
    (client (expireDueAll now)).Issues (NoExecution m p) := by
  have hdue : ∀ now, (listPendingExpiredAll now 500).Issues (NoExecution m p) :=
    fun _ => ⟨⟨trivial, trivial⟩, fun _ => trivial⟩
  have hbody := fun now : Time => noExecution_expiry (hdue now)
    fun rows => Prog.issues_tally (fun org => Prog.issues_tally (fun row : ℕ × Proposal =>
      noExecution_expireOne now org row.1 row.2) (rows.filter (·.2.organizationId = org)))
      (rows.map (·.2.organizationId)).eraseDups
  refine issues_client ?_ ⟨trivial, trivial⟩
  cases now with
  | some now => exact hbody now
  | none => exact ⟨⟨trivial, trivial⟩, hbody⟩

end Execute

/-! ### One execution -/

/-- The sessions that work on proposal `p`, linked to request `m`: they decide it, or neither decide
nor execute it. -/
def DecideProposalOrLeave (readers : Readers) (m p : ℕ) (procs : ι → Tx Unit) : Prop :=
  ∀ i, (∃ org actor approve note,
      procs i = client (FounderActionService.decideProposal readers org actor p approve note))
    ∨ (procs i).Issues (NoExecution m p)

section Once

variable {readers : Readers} {procs : ι → Tx Unit} {c : Sessions ι Unit}

/-- **One execution.**  A proposal starts PROPOSED, linked to a pending request without decision
logs, and any number of sessions decide it or do anything else that neither decides the request
nor executes.  Along every run whose decisions are flushed on pending requests: at most one task
is created; it stands only beside a proposal that is SUCCEEDED; exactly one commit makes the
proposal SUCCEEDED if it is so in the end, and none otherwise; and at most one `decide_proposal`
returns. -/
theorem executed_once (hs : s.Settled) (hlink : link p s = some m)
    (hproposed : proposalStatus p s = some .proposed) (hpending : status m s = some .pending)
    (hlogs : ∀ k, logged m s k = none) (hp : DecideProposalOrLeave readers m p procs)
    (h : Pool.Reach (postgres ι) (.start procs s) c)
    (hflush : ∀ ev ∈ c.trace, FlushesPending ev = true) :
    (∀ k k', Created s c.store k → Created s c.store k' → k = k')
      ∧ (∀ k, Created s c.store k → proposalStatus p c.store = some .succeeded)
      ∧ (Pool.flips (fun s => proposalStatus p s = some .succeeded) c.trace).length
        = (if proposalStatus p c.store = some .succeeded then 1 else 0)
      ∧ ∀ i j org actor approve note org' actor' approve' note',
          procs i = client (FounderActionService.decideProposal readers org actor p approve note) →
          procs j = client
            (FounderActionService.decideProposal readers org' actor' p approve' note') →
          c.returned i = true → c.returned j = true → i = j := by
  have hI : (executing m p s).inv [] s := by
    refine ⟨deciding_start hs hpending hlogs, hlink, ?_, ?_, ?_, ?_, fun k j r hd => ?_,
      fun k hk => absurd hk.1 hk.2, fun i r hv hr => ?_, ?_, fun k hk => absurd hk.1 hk.2⟩
    · simp [Pool.flips, decided, hpending]
    · simp [Pool.flips, hproposed]
    · simp
    · simp
    · rw [hs] at hd
      cases hd
    · have hv' : s.committed .proposal p = some r := by
        rw [← hv]
        exact (Db.view_of_not_own fun r' hd => by rw [hs] at hd; cases hd).symm
      rw [proposalStatus, hv', Option.map_some, hr] at hproposed
      cases hproposed
    · rw [hproposed]
      simp
  have hC : Along (executing m p s).assume c.trace := along_iff_forall_mem.mpr hflush
  have hmeets : ∀ j, Meets (executing m p s) (postgres ι) j
      (fun h r _ => ∀ org actor approve note,
        procs j = client (FounderActionService.decideProposal readers org actor p approve note) →
          r = .ok () → Won m j h) (procs j) [] s := by
    intro j
    by_cases hj : ∃ org actor approve note,
        procs j = client (FounderActionService.decideProposal readers org actor p approve note)
    · obtain ⟨org, actor, approve, note, hj⟩ := hj
      rw [hj]
      exact (meets_decideProposalClient readers org actor approve note
        (undecided_of_settled hs j)).mono fun h r s hwon _ _ _ _ _ => hwon
    · have hleave : (procs j).Issues (NoExecution m p) := (hp j).resolve_left hj
      refine (meets_noExecution hleave (undecided_of_settled hs j) (h := []) (by simp [Clean])).mono ?_
      exact fun h r s _ org actor approve note hj' => absurd ⟨org, actor, approve, note, hj'⟩ hj
  obtain ⟨⟨-, hexecuted⟩, -, -⟩ := h.meets executing_compatible hI hmeets hC
  refine ⟨fun k k' hk hk' => hexecuted.created_unique hk hk', hexecuted.recorded,
    hexecuted.successes, ?_⟩
  intro i j org actor approve note org' actor' approve' note' hi hj hret hret'
  have hwon : ∀ k org actor approve note, procs k = client
      (FounderActionService.decideProposal readers org actor p approve note) →
      c.returned k = true → Won m k c.trace := by
    intro k org actor approve note hk hret
    obtain ⟨a, ha⟩ := Pool.returned_iff.mp hret
    exact (h.post executing_compatible hI hmeets hC ha rfl org actor approve note hk rfl).of_own
  exact hexecuted.winner_unique (hwon i org actor approve note hi hret)
    (hwon j org' actor' approve' note' hj hret')

end Once

/-! ### Two executions -/

/-- A proposal of organization 1 to create a task, linked to request 0. -/
def openProposal : Proposal :=
  NewProposal.row
    { organizationId := 1
      conversationId := none
      approvalRequestId := 0
      actionType := .createTask
      title := "Call the supplier"
      payload := []
      justification := none
      expiresAt := 3600 * second
      actorUserId := 2 }

/-- A database that holds one request, a proposal linked to it, the organization, and two users. -/
def proposalDatabase (request : ApprovalRequest) (proposal : Proposal) : Database ι :=
  Db.init (fun t n => match t, n with
    | .approvalRequest, 0 => some request
    | .proposal, 1 => some proposal
    | .organization, 1 => some { settingsWellFormed := true, aiKillSwitch := false }
    | .user, 2 => some {}
    | .user, 3 => some {}
    | _, _ => none) 4 (.still 0) fun t n hn => by
      match n with
      | 0 | 1 | 2 | 3 => omega
      | n + 4 => cases t <;> rfl

/-- Readers that read nothing. -/
def noReaders : Readers where
  fromisoformat _ := .error .value
  uuid _ := none
  writable _ := true

/-- Two users approve the proposal. -/
def approveTwice : Fin 2 → Tx Unit
  | 0 => client (FounderActionService.decideProposal noReaders 1 2 1 true none)
  | 1 => client (FounderActionService.decideProposal noReaders 1 3 1 true none)

/-- One user after the other: one task, beside a proposal that is SUCCEEDED. -/
theorem executed_once_in_turn :
    ∃ c : Sessions (Fin 2) Unit,
      Pool.Reach (postgres (Fin 2)) (.start approveTwice (proposalDatabase openRequest openProposal)) c
        ∧ c.returned 0 = true ∧ Created (proposalDatabase openRequest openProposal) c.store 5
        ∧ (∀ k, Created (proposalDatabase openRequest openProposal) c.store k → k = 5)
        ∧ proposalStatus 1 c.store = some .succeeded := by
  have hrun : (((Pool.start approveTwice (proposalDatabase openRequest openProposal)).run
      (postgres (Fin 2)) (List.replicate 19 (.step 0) ++ List.replicate 3 (.step 1))).any fun c =>
        c.returned 0 && (c.store.committed .task 5).isSome
          && c.trace.all fun ev => FlushesPending ev) = true := by
    decide +kernel
  obtain ⟨c, hc, hP⟩ := Pool.exists_of_run hrun
  simp only [Bool.and_eq_true, List.all_eq_true] at hP
  obtain ⟨⟨hret, htask⟩, hflush⟩ := hP
  have hs : (proposalDatabase openRequest openProposal : Database (Fin 2)).Settled :=
    Db.settled_init _ _ _ _
  have hp : DecideProposalOrLeave noReaders 0 1 approveTwice := by
    intro i
    fin_cases i
    · exact Or.inl ⟨1, 2, true, none, rfl⟩
    · exact Or.inl ⟨1, 3, true, none, rfl⟩
  obtain ⟨hunique, hsucceeded, -, -⟩ :=
    executed_once hs rfl rfl rfl (fun _ => rfl) hp hc hflush
  have hcreated : Created (proposalDatabase openRequest openProposal) c.store 5 :=
    ⟨rfl, Option.isSome_iff_ne_none.mp htask⟩
  exact ⟨c, hc, hret, hcreated, fun k hk => hunique k 5 hk hcreated, hsucceeded 5 hcreated⟩

/-- Both users see the proposal open and the request pending: both decide, both execute, and two
tasks are created. -/
theorem executed_twice :
    ∃ c : Sessions (Fin 2) Unit,
      Pool.Reach (postgres (Fin 2)) (.start approveTwice (proposalDatabase openRequest openProposal)) c
        ∧ c.returned 0 = true ∧ c.returned 1 = true
        ∧ ∃ k k', k ≠ k' ∧ Created (proposalDatabase openRequest openProposal) c.store k
          ∧ Created (proposalDatabase openRequest openProposal) c.store k' := by
  have hrun : (((Pool.start approveTwice (proposalDatabase openRequest openProposal)).run
      (postgres (Fin 2)) (List.replicate 6 (.step 0) ++ List.replicate 6 (.step 1)
        ++ List.replicate 13 (.step 0) ++ List.replicate 13 (.step 1))).any fun c =>
          c.returned 0 && c.returned 1 && (c.store.committed .task 5).isSome
            && (c.store.committed .task 7).isSome) = true := by
    decide +kernel
  obtain ⟨c, hc, hP⟩ := Pool.exists_of_run hrun
  simp only [Bool.and_eq_true, Option.isSome_iff_ne_none] at hP
  obtain ⟨⟨⟨hret, hret'⟩, htask⟩, htask'⟩ := hP
  exact ⟨c, hc, hret, hret', 5, 7, by omega, ⟨rfl, htask⟩, rfl, htask'⟩

end Automation
