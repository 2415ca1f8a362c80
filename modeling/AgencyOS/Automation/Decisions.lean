import AgencyOS.Automation.FounderService

/-!
Deciding an approval request once.

`decide` checks the status it has read and then flushes its decision with an `UPDATE` that has
no condition, while expiry is a guarded `UPDATE`.  So a decision may overwrite another one that
has committed since the read.

* `FlushesPending`: a decision is flushed on a request that is still pending;
* `Onward`: how rows move on when decisions are; a request that is decided stays as it is;
* `LogsMatch`: the decision logs of a request and its status;
* `decided_once` (**one decision**): along a run whose decisions are flushed on pending requests,
  a request is decided at most once, by one caller, with one log;
* `decided_twice`: a run in which two callers decide one request.
-/

namespace Automation

open Txn

variable {ι : Type} [DecidableEq ι] {s : Database ι} {m : ℕ} {i : ι} {q : Sql automation}

/-! ### How rows move on -/

/-- A decision is flushed on a request that is still pending. -/
def FlushesPending (ev : Happened ι) : Bool :=
  match ev.stmt with
  | .update (.decideRequest ..) m =>
      (ev.before.view ev.pid .approvalRequest m).all (·.status = .pending)
  | _ => true

/-- The later version `r'` of a row `r`: a decided request keeps its status, a stamped one its
stamp; the references of requests and proposals, the organizations and the log records never
change. -/
def Onward : (t : Table) → Row t → Row t → Prop
  | .approvalRequest, r, r' =>
      (r.status ≠ .pending → r'.status = r.status)
        ∧ (r.gateHandledAt ≠ none → r'.gateHandledAt = r.gateHandledAt)
        ∧ r'.workflowExecutionId = r.workflowExecutionId ∧ r'.organizationId = r.organizationId
  | .execution, r, r' => r'.organizationId = r.organizationId
  | .approvalLog, r, r' => r' = r
  | .proposal, r, r' => r'.approvalRequestId = r.approvalRequestId
  | _, _, _ => True

lemma onward_refl : ∀ (t : Table) (r : Row t), Onward t r r := by
  intro t r
  cases t with
  | approvalRequest => exact ⟨fun _ => rfl, fun _ => rfl, rfl, rfl⟩
  | execution | approvalLog | proposal => rfl
  | _ => trivial

lemma onward_trans : ∀ (t : Table) (r r' r'' : Row t),
    Onward t r r' → Onward t r' r'' → Onward t r r'' := by
  intro t r r' r'' h h'
  cases t with
  | approvalRequest =>
      obtain ⟨hstatus, hstamp, hexec, horg⟩ := h
      obtain ⟨hstatus', hstamp', hexec', horg'⟩ := h'
      refine ⟨fun hne => ?_, fun hne => ?_, hexec'.trans hexec, horg'.trans horg⟩
      · have hne' : r'.status ≠ .pending := by rwa [hstatus hne]
        rw [hstatus' hne', hstatus hne]
      · have hne' : r'.gateHandledAt ≠ none := by rwa [hstamp hne]
        rw [hstamp' hne', hstamp hne]
  | execution | approvalLog | proposal => exact h'.trans h
  | _ => trivial

/-- Every `UPDATE` moves its row on, if decisions are flushed on pending requests. -/
lemma onward_set {u : Update} {n : ℕ} {r : Row u.target}
    (hflush : FlushesPending ⟨i, .update u n, s, Db.effect i (.update u n) s⟩ = true)
    (hv : s.view i u.target n = some r) (hg : u.act.guard r = true) :
    Onward u.target r (u.act.set r) := by
  have hpending : ∀ r r' : ApprovalRequest, r.status = .pending →
      r'.gateHandledAt = r.gateHandledAt → r'.workflowExecutionId = r.workflowExecutionId →
      r'.organizationId = r.organizationId → Onward .approvalRequest r r' :=
    fun r r' hr hstamp hexec horg => ⟨fun hne => absurd hr hne, fun _ => hstamp, hexec, horg⟩
  cases u with
  | transition t => exact (Transition.set_spec hg).2.2.2
  | decideRequest approve actor now note =>
      have hv' : s.view i .approvalRequest n = some r := hv
      exact hpending _ _ (by simpa [FlushesPending, hv'] using hflush) rfl rfl rfl
  | expireRequest org now =>
      have hg' : (ApprovalRequest.markExpired org now).guard r = true := hg
      simp only [ApprovalRequest.markExpired, Bool.and_eq_true, decide_eq_true_eq] at hg'
      exact hpending _ _ hg'.2 rfl rfl rfl
  | claimGate handledAt =>
      have hnone : r.gateHandledAt = none := Option.isNone_iff_eq_none.mp hg
      exact ⟨fun _ => rfl, fun hne => absurd hnone hne, rfl, rfl⟩
  | flushProposal loaded new => rfl
  | expireProposal org now => rfl

/-- Rows move on under every statement that flushes decisions on pending requests. -/
lemma onward_effect (hflush : FlushesPending ⟨i, q, s, Db.effect i q s⟩ = true)
    (h : Ahead (S := automation) Onward s) : Ahead (S := automation) Onward (Db.effect i q s) := by
  refine h.effect onward_refl ?_
  rintro u n r rfl hv hg rc - hrc
  exact onward_trans _ _ _ _ hrc (onward_set hflush hv hg)

/-! ### Decisions and their logs -/

/-- The committed status of request `m`. -/
def status (m : ℕ) (s : Database ι) : Option ApprovalStatus :=
  (s.committed .approvalRequest m).map (·.status)

/-- Request `m` has been decided. -/
def decided (m : ℕ) (s : Database ι) : Bool := (status m s).any (· ≠ .pending)

/-- The decision that a log record of request `m` states. -/
def ApprovalLog.decides (m : ℕ) (l : ApprovalLog) : Option ApprovalStatus :=
  if l.approvalRequestId = m then
    match l.action with
    | .approved => some .approved
    | .denied => some .denied
    | _ => none
  else none

/-- The decision on request `m` that the committed log record `k` states. -/
def logged (m : ℕ) (s : Database ι) (k : ℕ) : Option ApprovalStatus :=
  (s.committed .approvalLog k).bind (·.decides m)

/-- The statuses that a decision leads to. -/
def ApprovalStatus.isDecision : ApprovalStatus → Bool
  | approved | denied => true
  | _ => false

lemma ApprovalLog.isDecision_of_decides {l : ApprovalLog} {st : ApprovalStatus}
    (h : l.decides m = some st) : st.isDecision = true := by
  rw [ApprovalLog.decides] at h
  split_ifs at h
  split at h <;> first | (obtain rfl := Option.some.inj h; rfl) | cases h

omit [DecidableEq ι] in
lemma isDecision_of_logged {k : ℕ} {st : ApprovalStatus} (h : logged m s k = some st) :
    st.isDecision = true := by
  obtain ⟨l, -, hl⟩ := Option.bind_eq_some_iff.mp h
  exact ApprovalLog.isDecision_of_decides hl

lemma ApprovalStatus.ne_pending_of_isDecision {st : ApprovalStatus} (h : st.isDecision = true) :
    st ≠ .pending := by
  rintro rfl
  cases h

omit [DecidableEq ι] in
lemma decided_eq_true : decided m s = true ↔ ∃ st, status m s = some st ∧ st ≠ .pending := by
  simp [decided, Option.any_eq_true]

/-- A statement changes the status of a request by committing a version of its session. -/
lemma status_cases (i : ι) (q : Sql automation) (s : Database ι) (m : ℕ) :
    status m (Db.effect i q s) = status m s
      ∨ q = .commit ∧ ∃ r, s.dirty .approvalRequest m = some (i, r)
          ∧ status m (Db.effect i q s) = some r.status := by
  rcases Db.committed_effect_cases i q s .approvalRequest m with hsame | ⟨hq, r, hd, hc⟩
  · exact Or.inl (by rw [status, status, hsame])
  · exact Or.inr ⟨hq, r, hd, by rw [status, hc, Option.map_some]⟩

/-- A statement adds a log by committing a record of its session. -/
lemma logged_cases (i : ι) (q : Sql automation) (s : Database ι) (m k : ℕ) :
    logged m (Db.effect i q s) k = logged m s k
      ∨ q = .commit ∧ ∃ l, s.dirty .approvalLog k = some (i, l)
          ∧ logged m (Db.effect i q s) k = l.decides m := by
  rcases Db.committed_effect_cases i q s .approvalLog k with hsame | ⟨hq, l, hd, hc⟩
  · exact Or.inl (by rw [logged, logged, hsame])
  · exact Or.inr ⟨hq, l, hd, by rw [logged, hc, Option.bind_some]⟩

/-- A status other than PENDING is kept. -/
def Kept (m : ℕ) (s s' : Database ι) : Prop :=
  ∀ st, status m s = some st → st ≠ .pending → status m s' = some st

omit [DecidableEq ι] in
lemma Kept.trans {s₁ s₂ s₃ : Database ι} (h₁ : Kept m s₁ s₂) (h₂ : Kept m s₂ s₃) :
    Kept m s₁ s₃ :=
  fun st hst hne => h₂ st (h₁ st hst hne) hne

lemma kept_effect (h : Ahead (S := automation) Onward s) : Kept m s (Db.effect i q s) := by
  intro st hst hne
  obtain ⟨rc, hrc, rfl⟩ := Option.map_eq_some_iff.mp hst
  obtain ⟨rc', hrc', hstatus, -⟩ := h.committed onward_refl i q hrc
  rw [status, hrc', Option.map_some, hstatus hne]

/-- The decision logs of request `m`, committed or not, and its status. -/
structure LogsMatch (m : ℕ) (s : Database ι) : Prop where
  present : status m s ≠ none
  committed : ∀ k st, logged m s k = some st → status m s = some st
  unique : ∀ k k', logged m s k ≠ none → logged m s k' ≠ none → k = k'
  exists_log : ∀ st, status m s = some st → st.isDecision = true → ∃ k, logged m s k = some st
  dirty : ∀ k j l st, s.dirty .approvalLog k = some (j, l) → l.decides m = some st →
    status m s = some .pending ∧ ∃ r, s.dirty .approvalRequest m = some (j, r) ∧ r.status = st
  dirty_unique : ∀ k k' j j' l l', s.dirty .approvalLog k = some (j, l) →
    s.dirty .approvalLog k' = some (j', l') → l.decides m ≠ none → l'.decides m ≠ none → k = k'

/-- A decision is logged once, after its flush and before its commit. -/
def Orderly (m : ℕ) (i : ι) (s : Database ι) : Sql automation → Prop
  | .insert (.approvalLog l) => ∀ st, l.decides m = some st → status m s = some .pending
      ∧ (∃ r, s.dirty .approvalRequest m = some (i, r) ∧ r.status = st)
      ∧ ∀ k l', s.dirty .approvalLog k = some (i, l') → l'.decides m = none
  | .commit => ∀ r, s.dirty .approvalRequest m = some (i, r) → status m s = some .pending →
      r.status.isDecision = true →
        ∃ k l, s.dirty .approvalLog k = some (i, l) ∧ l.decides m = some r.status
  | _ => True

omit [DecidableEq ι] in
/-- A log that is not committed yet is the only one. -/
lemma LogsMatch.logged_eq_none (h : LogsMatch m s) {k : ℕ} {j : ι} {l : ApprovalLog}
    (hd : s.dirty .approvalLog k = some (j, l)) (hl : l.decides m ≠ none) (k' : ℕ) :
    logged m s k' = none := by
  obtain ⟨st, hst⟩ := Option.ne_none_iff_exists'.mp hl
  by_contra hne
  obtain ⟨st', hst'⟩ := Option.ne_none_iff_exists'.mp hne
  have hpending : status m s = some .pending := (h.dirty k j l st hd hst).1
  have hdecided : status m s = some st' := h.committed k' st' hst'
  obtain rfl := Option.some.inj (hpending.symm.trans hdecided)
  exact ApprovalStatus.ne_pending_of_isDecision (isDecision_of_logged hst') rfl

/-- The version of a request that a session has decided stays decided until its session commits
or rolls back. -/
lemma decided_dirty_effect (hflush : FlushesPending ⟨i, q, s, Db.effect i q s⟩ = true)
    {j : ι} {r : ApprovalRequest} (hd : s.dirty .approvalRequest m = some (j, r))
    (hr : r.status.isDecision = true) (hq : q = .commit ∨ q = .rollback → j ≠ i) :
    ∃ r', (Db.effect i q s).dirty .approvalRequest m = some (j, r') ∧ r'.status = r.status := by
  by_cases hij : i = j
  · subst hij
    have hc : q ≠ .commit := fun h => hq (Or.inl h) rfl
    have hroll : q ≠ .rollback := fun h => hq (Or.inr h) rfl
    obtain ⟨r', hd', rfl | ⟨u, r₀, rfl, heq, hg, heq'⟩⟩ := Db.dirty_effect_own hd hc hroll
    · exact ⟨r', hd', rfl⟩
    · refine ⟨r', hd', ?_⟩
      have hne : r.status ≠ .pending := ApprovalStatus.ne_pending_of_isDecision hr
      have hv : s.view i .approvalRequest m = some r := Db.view_of_own hd
      cases u with
      | decideRequest approve actor now note =>
          exact absurd (by simpa [FlushesPending, hv] using hflush) hne
      | expireRequest org now =>
          cases heq
          have hg' : (ApprovalRequest.markExpired org now).guard r = true := hg
          simp only [ApprovalRequest.markExpired, Bool.and_eq_true, decide_eq_true_eq] at hg'
          exact absurd hg'.2 hne
      | claimGate handledAt =>
          cases heq
          cases heq'
          rfl
      | _ => cases heq
  · exact ⟨r, ((frame_effect hij q s).dirty _ _ _).mpr hd, rfl⟩

/-- **Logs and statuses match** after every orderly statement that flushes decisions on pending
requests. -/
lemma logsMatch_effect (hahead : Ahead (S := automation) Onward s)
    (hflush : FlushesPending ⟨i, q, s, Db.effect i q s⟩ = true) (hord : Orderly m i s q)
    (h : LogsMatch m s) : LogsMatch m (Db.effect i q s) := by
  have hkept : Kept m s (Db.effect i q s) := kept_effect hahead
  -- a log that a commit adds comes with the status it states
  have hnew : ∀ k l st, q = .commit → s.dirty .approvalLog k = some (i, l) →
      l.decides m = some st → status m (Db.effect i q s) = some st := by
    rintro k l st rfl hd hl
    obtain ⟨-, r, hr, rfl⟩ := h.dirty k i l st hd hl
    have hv : s.view i .approvalRequest m = some r := Db.view_of_own hr
    show (s.view i .approvalRequest m).map (·.status) = some r.status
    rw [hv, Option.map_some]
  have hstay : ∀ k st, logged m s k = some st → logged m (Db.effect i q s) k = some st := by
    intro k st hk
    obtain ⟨l, hl, hst⟩ := Option.bind_eq_some_iff.mp hk
    obtain ⟨l', hl', heq⟩ := hahead.committed onward_refl i q hl
    obtain rfl : l' = l := heq
    rw [logged, hl', Option.bind_some, hst]
  have hcases : ∀ k j l, (Db.effect i q s).dirty .approvalLog k = some (j, l) →
      (s.dirty .approvalLog k = some (j, l) ∧ (q = .commit ∨ q = .rollback → j ≠ i))
        ∨ j = i ∧ q = .insert (.approvalLog l) ∧ k = s.fresh := by
    intro k j l hd
    rcases Db.dirty_effect_cases hd with hold | ⟨rfl, ⟨u, l₀, rfl, -, -, heq⟩ | ⟨x, rfl, rfl, heq⟩⟩
    · exact Or.inl hold
    · cases u <;> cases heq
    · cases x with
      | approvalLog l₀ =>
          cases heq
          exact Or.inr ⟨rfl, rfl, rfl⟩
      | _ => cases heq
  -- a session logs its decision once
  have hclash : ∀ k j l l', s.dirty .approvalLog k = some (j, l) → l.decides m ≠ none →
      q = .insert (.approvalLog l') → l'.decides m = none := by
    rintro k j l l' hd hl rfl
    by_contra hl'
    obtain ⟨st, hst⟩ := Option.ne_none_iff_exists'.mp hl
    obtain ⟨st', hst'⟩ := Option.ne_none_iff_exists'.mp hl'
    obtain ⟨-, r, hr, -⟩ := h.dirty k j l st hd hst
    obtain ⟨-, ⟨r', hr', -⟩, hnone⟩ := hord st' hst'
    rw [hr] at hr'
    obtain ⟨rfl, -⟩ := Prod.mk.inj (Option.some.inj hr')
    exact hl (hnone k l hd)
  refine ⟨?_, fun k st hk => ?_, fun k k' hk hk' => ?_, fun st hst hdec => ?_,
    fun k j l st hd hl => ?_, fun k k' j j' l l' hd hd' hl hl' => ?_⟩
  · rcases status_cases i q s m with hsame | ⟨-, r, -, hnew⟩
    · rw [hsame]
      exact h.present
    · rw [hnew]
      simp
  · rcases logged_cases i q s m k with hsame | ⟨hq, l, hd, hl⟩
    · rw [hsame] at hk
      exact hkept st (h.committed k st hk)
        (ApprovalStatus.ne_pending_of_isDecision (isDecision_of_logged hk))
    · exact hnew k l st hq hd (hl ▸ hk)
  · rcases logged_cases i q s m k with hsame | ⟨hq, l, hd, hl⟩
    · rw [hsame] at hk
      rcases logged_cases i q s m k' with hsame' | ⟨hq', l', hd', hl'⟩
      · exact h.unique k k' hk (hsame' ▸ hk')
      · exact absurd (h.logged_eq_none hd' (hl' ▸ hk') k) hk
    · rw [hl] at hk
      rcases logged_cases i q s m k' with hsame' | ⟨hq', l', hd', hl'⟩
      · exact absurd (h.logged_eq_none hd hk k') (hsame' ▸ hk')
      · exact h.dirty_unique k k' i i l l' hd hd' hk (hl' ▸ hk')
  · rcases status_cases i q s m with hsame | ⟨rfl, r, hd, hstatus⟩
    · obtain ⟨k, hk⟩ := h.exists_log st (hsame ▸ hst) hdec
      exact ⟨k, hstay k st hk⟩
    · obtain rfl := Option.some.inj (hstatus.symm.trans hst)
      obtain ⟨st, hst₀⟩ := Option.ne_none_iff_exists'.mp h.present
      by_cases hpending : st = .pending
      · -- the decision is committed together with its log
        subst hpending
        obtain ⟨k, l, hk, hl⟩ := hord r hd hst₀ hdec
        have hv : s.view i .approvalLog k = some l := Db.view_of_own hk
        refine ⟨k, ?_⟩
        show (s.view i .approvalLog k).bind (·.decides m) = some r.status
        rw [hv, Option.bind_some, hl]
      · obtain rfl := Option.some.inj (hst.symm.trans (hkept st hst₀ hpending))
        obtain ⟨k, hk⟩ := h.exists_log _ hst₀ hdec
        exact ⟨k, hstay k _ hk⟩
  · rcases hcases k j l hd with ⟨hold, hj⟩ | ⟨rfl, rfl, rfl⟩
    · obtain ⟨hpending, r, hr, hrst⟩ := h.dirty k j l st hold hl
      have hdec : r.status.isDecision = true := hrst ▸ ApprovalLog.isDecision_of_decides hl
      obtain ⟨r', hr', hsame⟩ := decided_dirty_effect hflush hr hdec hj
      refine ⟨?_, r', hr', hsame.trans hrst⟩
      rcases status_cases i q s m with hsame | ⟨rfl, r', hd', -⟩
      · rw [hsame, hpending]
      · rw [hr] at hd'
        exact absurd (Prod.mk.inj (Option.some.inj hd')).1 (hj (Or.inl rfl))
    · obtain ⟨hpending, ⟨r, hr, hrst⟩, -⟩ := hord st hl
      have hdec : r.status.isDecision = true := hrst ▸ ApprovalLog.isDecision_of_decides hl
      obtain ⟨r', hr', hsame⟩ := decided_dirty_effect hflush hr hdec (by simp)
      refine ⟨?_, r', hr', hsame.trans hrst⟩
      rw [status, Db.committed_effect (by simp), ← status, hpending]
  · rcases hcases k j l hd with ⟨hold, -⟩ | ⟨-, hq, hk⟩
    · rcases hcases k' j' l' hd' with ⟨hold', -⟩ | ⟨-, hq', -⟩
      · exact h.dirty_unique k k' j j' l l' hold hold' hl hl'
      · exact absurd (hclash k j l l' hold hl hq') hl'
    · rcases hcases k' j' l' hd' with ⟨hold', -⟩ | ⟨-, -, hk'⟩
      · exact absurd (hclash k' j' l' l hold' hl' hq) hl
      · rw [hk, hk']

/-! ### The contract -/

/-- What every session may count on while request `m` is decided. -/
def deciding (m : ℕ) : Contract (sql automation) ι (Database ι) where
  inv := fun _ s => Ahead (S := automation) Onward s ∧ LogsMatch m s
  assume := fun _ ev => FlushesPending ev = true
  guar := fun _ _ ev => Kept m ev.before ev.after
  rely := fun i _ s s' => Frame i s s' ∧ Kept m s s'

/-- An orderly statement keeps the contract. -/
lemma deciding_step {tr tr' : List (Happened ι)} (hI : (deciding m).inv tr s)
    (hflush : FlushesPending ⟨i, q, s, Db.effect i q s⟩ = true) (hord : Orderly m i s q) :
    (deciding m).inv tr' (Db.effect i q s) ∧ Kept m s (Db.effect i q s) :=
  ⟨⟨onward_effect hflush hI.1, logsMatch_effect hI.1 hflush hord hI.2⟩, kept_effect hI.1⟩

lemma deciding_compatible : (deciding m).Compatible (postgres ι) where
  refl := fun i _ s => ⟨Frame.refl i s, fun _ hst _ => hst⟩
  trans := fun _ _ _ _ _ h₁ h₂ =>
    ⟨h₁.1.trans h₂.1, h₁.2.trans h₂.2⟩
  step := fun _ ev j hj _ _ _ hafter hkept => by
    refine ⟨?_, hkept⟩
    rw [hafter]
    exact frame_effect (Ne.symm hj) ev.stmt ev.before
  hangup := fun _ _ _ hI _ hflush => deciding_step hI hflush trivial

/-- The session has flushed no decision that it has not committed. -/
def Undecided (m : ℕ) (i : ι) (s : Database ι) : Prop :=
  ∀ r, s.dirty .approvalRequest m = some (i, r) → status m s = some .pending →
    r.status.isDecision = false

/-- The status of a request whose lock the session holds. -/
lemma status_of_frame {s' : Database ι} {r : ApprovalRequest} (hf : Frame i s s')
    (hd : s.dirty .approvalRequest m = some (i, r)) : status m s' = status m s := by
  rw [status, hf.committed _ _ _ hd, ← status]

lemma Undecided.rely {s' : Database ι} {h : List (Happened ι)} (hJ : Undecided m i s)
    (hr : (deciding m).rely i h s s') : Undecided m i s' := by
  intro r hd hst
  have hd₀ : s.dirty .approvalRequest m = some (i, r) := (hr.1.dirty _ _ _).mp hd
  exact hJ r hd₀ ((status_of_frame hr.1 hd₀).symm.trans hst)

/-- The statements that neither flush nor log a decision on request `m`. -/
def NoDecision (m : ℕ) : Sql automation → Prop
  | .update (.decideRequest ..) n => n ≠ m
  | .insert (.approvalLog l) => l.decides m = none
  | _ => True

omit [DecidableEq ι] in
lemma Undecided.orderly (hJ : Undecided m i s) (hq : NoDecision m q) : Orderly m i s q := by
  unfold Orderly
  split
  · rename_i l
    intro st hst
    have hnone : l.decides m = none := hq
    rw [hnone] at hst
    cases hst
  · intro r hd hst hdec
    rw [hJ r hd hst] at hdec
    cases hdec
  · trivial

lemma Undecided.effect (hJ : Undecided m i s) (hq : NoDecision m q) :
    Undecided m i (Db.effect i q s) := by
  intro r hd hst
  rcases Db.dirty_effect_cases hd with
    ⟨hold, hj⟩ | ⟨-, ⟨u, r₀, rfl, hv, hg, heq⟩ | ⟨x, rfl, rfl, heq⟩⟩
  · rcases status_cases i q s m with hsame | ⟨hc, -⟩
    · exact hJ r hold (hsame ▸ hst)
    · exact absurd rfl (hj (Or.inl hc))
  · have hst₀ : status m s = some .pending := by
      rw [← hst, status, status, Db.committed_effect (by simp)]
    cases u with
    | decideRequest approve actor now note => exact absurd rfl hq
    | expireRequest org now =>
        cases heq
        rfl
    | claimGate handledAt =>
        cases heq
        show r₀.status.isDecision = false
        rcases s.view_cases i .approvalRequest m with ⟨r₁, hd₁, hv₁⟩ | ⟨-, hv₁⟩
        · obtain rfl := Option.some.inj (hv.symm.trans hv₁)
          exact hJ r₀ hd₁ hst₀
        · have hc : s.committed .approvalRequest m = some r₀ := hv₁.symm.trans hv
          rw [status, hc, Option.map_some] at hst₀
          rw [Option.some.inj hst₀]
          rfl
    | _ => cases heq
  · cases x with
    | approvalRequest d now =>
        cases heq
        rfl
    | _ => cases heq

/-- A program that makes no decision on request `m` keeps the contract. -/
lemma meets_noDecision {α : Type} {p : Tx α} (hp : p.Issues (NoDecision m)) (hJ : Undecided m i s)
    (h : List (Happened ι)) :
    Meets (deciding m) (postgres ι) i (fun _ _ s => Undecided m i s) p h s := by
  refine meets_of_issues (J := fun _ s => Undecided m i s) hp (fun _ _ _ hJ hr => hJ.rely hr) ?_ hJ
  intro tr q h s _ hq hI hJ _ hflush
  obtain ⟨hI', hkept⟩ := deciding_step hI hflush (hJ.orderly hq)
  exact ⟨hI', hkept, hJ.effect hq⟩

/-- The status that a decision leads to. -/
def decision (approve : Bool) : ApprovalStatus := if approve then .approved else .denied

/-- Request `m` has the status of the decision, and the session has committed it. -/
def DecidedBy (m : ℕ) (i : ι) (approve : Bool) (h : List (Happened ι)) (s : Database ι) : Prop :=
  status m s = some (decision approve)
    ∧ ∃ ev ∈ h, ev.pid = i ∧ decided m ev.before = false ∧ decided m ev.after = true

omit [DecidableEq ι] in
lemma isDecision_decision (approve : Bool) : (decision approve).isDecision = true := by
  cases approve <;> rfl

omit [DecidableEq ι] in
lemma decision_ne_pending (approve : Bool) : decision approve ≠ .pending :=
  ApprovalStatus.ne_pending_of_isDecision (isDecision_decision approve)

omit [DecidableEq ι] in
lemma DecidedBy.rely {approve : Bool} {h : List (Happened ι)} {s' : Database ι}
    (hd : DecidedBy m i approve h s) (hkept : Kept m s s') : DecidedBy m i approve h s' :=
  ⟨hkept _ hd.1 (decision_ne_pending approve), hd.2⟩

/-- A session that sees a request pending sees it pending in the database. -/
lemma status_of_view {r : ApprovalRequest} (hahead : Ahead (S := automation) Onward s)
    (hpresent : status m s ≠ none) (hv : s.view i .approvalRequest m = some r)
    (hr : r.status = .pending) : status m s = some .pending := by
  obtain ⟨st, hst⟩ := Option.ne_none_iff_exists'.mp hpresent
  obtain ⟨rc, hrc, rfl⟩ := Option.map_eq_some_iff.mp hst
  have honward : Onward .approvalRequest rc r := hahead.view onward_refl hv hrc
  by_contra hne
  rw [hst] at hne
  have hne' : rc.status ≠ .pending := fun h => hne (by rw [h])
  rw [honward.1 hne'] at hr
  exact hne' hr

/-! ### Decide -/

section Decide

open ApprovalRequestRepository

lemma noDecision_getOr404 (org n : ℕ) : (getOr404 org n).Issues (NoDecision m) := by
  refine Prog.issues_bind ⟨trivial, fun _ => trivial⟩ fun r => ?_
  cases r <;> trivial

/-- The session has flushed a decision that it has neither logged nor committed. -/
structure Flushed (m : ℕ) (i : ι) (approve : Bool) (s : Database ι) : Prop where
  pending : status m s = some .pending
  flushed : ∃ r, s.dirty .approvalRequest m = some (i, r) ∧ r.status = decision approve

lemma Flushed.rely {approve : Bool} {s' : Database ι} (hf : Flushed m i approve s)
    (hframe : Frame i s s') : Flushed m i approve s' := by
  obtain ⟨hpending, r, hd, hr⟩ := hf
  exact ⟨(status_of_frame hframe hd).trans hpending, r, (hframe.dirty _ _ _).mpr hd, hr⟩

/-- The session has logged no decision that it has not committed. -/
def Unlogged (m : ℕ) (i : ι) (s : Database ι) : Prop :=
  ∀ k l, s.dirty .approvalLog k = some (i, l) → l.decides m = none

/-- The flush of a decision. -/
lemma meets_decideRequest (actor : ℕ) (approve : Bool) (note : Option String) (now : Time)
    (hJ : Undecided m i s) (h : List (Happened ι)) :
    Meets (deciding m) (postgres ι) i
      (fun _ r s => ∀ r', r = .ok (some r') → Flushed m i approve s ∧ Unlogged m i s)
      (Tx.update (S := automation) (ε := Exn) (.decideRequest approve actor now note) m) h s := by
  refine (meets_ask (P := fun s₁ => (deciding m).inv [] s₁ ∧ Undecided m i s₁
    ∧ ∀ r, s₁.view i .approvalRequest m = some r → r.status = .pending) ?_).mono ?_
  · intro tr s₁ _ hr hI _ hflush
    obtain ⟨hI', hkept⟩ :=
      deciding_step (q := .update (.decideRequest approve actor now note) m) hI hflush trivial
    refine ⟨hI', hkept, hI, hJ.rely hr, fun r hv => ?_⟩
    have hall : (s₁.view i .approvalRequest m).all (·.status = .pending) = true := hflush
    simpa [hv] using hall
  · rintro _ _ s₂ ⟨s₁, ⟨⟨hahead, hlogs⟩, hJ₁, hview⟩, -, rfl, hframe, -⟩ r' hok
    have hw : s₁.written i (.decideRequest approve actor now note) m = some r' := Except.ok.inj hok
    obtain ⟨-, r, hv, -, hset⟩ := Db.written_eq_some.mp hw
    have hpending : status m s₁ = some .pending :=
      status_of_view hahead hlogs.present hv (hview r hv)
    have hflushed : Flushed m i approve
        (Db.effect i (.update (.decideRequest approve actor now note) m) s₁) := by
      refine ⟨?_, r', ?_, ?_⟩
      · rw [status, Db.committed_effect (by simp), ← status, hpending]
      · exact Db.dirty_update hw
      · rw [← hset]
        rfl
    refine ⟨hflushed.rely hframe, fun k l hk => ?_⟩
    have hk₁ := (hframe.dirty _ _ _).mp hk
    rcases Db.dirty_effect_cases hk₁ with ⟨hold, -⟩ | ⟨-, ⟨u, l₀, hq, -, -, heq⟩ | ⟨x, hq, -⟩⟩
    · -- a decision logged before would have been flushed before
      by_contra hne
      obtain ⟨st, hst⟩ := Option.ne_none_iff_exists'.mp hne
      obtain ⟨-, r₀, hd₀, hr₀⟩ := hlogs.dirty k i l st hold hst
      have hdec : r₀.status.isDecision = false := hJ₁ r₀ hd₀ hpending
      rw [hr₀, ApprovalLog.isDecision_of_decides hst] at hdec
      cases hdec
    · cases u <;> cases heq
    · cases hq

/-- The log of a flushed decision. -/
lemma meets_log {approve : Bool} {l : ApprovalLog} (hl : l.decides m = some (decision approve))
    (hf : Flushed m i approve s) (hnone : Unlogged m i s) (h : List (Happened ι)) :
    Meets (deciding m) (postgres ι) i
      (fun _ _ s => Flushed m i approve s ∧ ∃ k, s.dirty .approvalLog k = some (i, l))
      (Tx.insert (S := automation) (ε := Exn) (.approvalLog l)) h s := by
  refine (meets_ask (P := fun s₁ => Flushed m i approve s₁) ?_).mono ?_
  · intro tr s₁ _ hr hI _ hflush
    have hf₁ : Flushed m i approve s₁ := hf.rely hr.1
    have hord : Orderly m i s₁ (.insert (.approvalLog l)) := by
      intro st hst
      obtain rfl := Option.some.inj (hl.symm.trans hst)
      exact ⟨hf₁.pending, hf₁.flushed, fun k l' hk => hnone k l' ((hr.1.dirty _ _ _).mp hk)⟩
    obtain ⟨hI', hkept⟩ := deciding_step hI hflush hord
    exact ⟨hI', hkept, hf₁⟩
  · rintro _ _ s₂ ⟨s₁, ⟨hpending, r, hd, hr⟩, -, -, hframe, -⟩
    obtain ⟨r', hd', hr'⟩ := decided_dirty_effect (q := .insert (.approvalLog l)) rfl hd
      (hr ▸ isDecision_decision approve) (by simp)
    have hf : Flushed m i approve (Db.effect i (.insert (.approvalLog l)) s₁) := by
      refine ⟨?_, r', hd', hr'.trans hr⟩
      rw [status, Db.committed_effect (by simp), ← status, hpending]
    exact ⟨hf.rely hframe, s₁.fresh, (hframe.dirty _ _ _).mpr (Db.dirty_insert i _ s₁)⟩

/-- The commit of a decision that was flushed and logged. -/
lemma meets_commitDecision {approve : Bool} {l : ApprovalLog} {k : ℕ}
    (hl : l.decides m = some (decision approve)) (hf : Flushed m i approve s)
    (hk : s.dirty .approvalLog k = some (i, l)) (h : List (Happened ι)) :
    Meets (deciding m) (postgres ι) i (fun h r s => r = .ok () → DecidedBy m i approve h s)
      commitWithRetry h s := by
  refine (meets_ask (P := fun s₁ => Flushed m i approve s₁) ?_).mono ?_
  · intro tr s₁ _ hr hI _ hflush
    have hf₁ : Flushed m i approve s₁ := hf.rely hr.1
    have hord : Orderly m i s₁ .commit := by
      intro r hd _ _
      obtain ⟨-, r', hd', hr'⟩ := hf₁
      obtain ⟨-, rfl⟩ := Prod.mk.inj (Option.some.inj (hd.symm.trans hd'))
      exact ⟨k, l, (hr.1.dirty _ _ _).mpr hk, hr' ▸ hl⟩
    obtain ⟨hI', hkept⟩ := deciding_step hI hflush hord
    exact ⟨hI', hkept, hf₁⟩
  · rintro _ _ s₂ ⟨s₁, ⟨hpending, r, hd, hr⟩, rfl, -, -, hkept⟩ -
    have hstatus : status m (Db.effect i .commit s₁) = some (decision approve) := by
      have hv : s₁.view i .approvalRequest m = some r := Db.view_of_own hd
      show (s₁.view i .approvalRequest m).map (·.status) = some (decision approve)
      rw [hv, Option.map_some, hr]
    refine ⟨hkept _ hstatus (decision_ne_pending approve), _,
      List.mem_append_right _ (List.mem_singleton_self _), rfl, ?_, ?_⟩
    · simp [decided, hpending]
    · exact decided_eq_true.mpr ⟨_, hstatus, decision_ne_pending approve⟩

/-- A `decide` that returns has decided the request. -/
lemma meets_decide (org actor : ℕ) (approve : Bool) (note : Option String)
    (hJ : Undecided m i s) (h : List (Happened ι)) :
    Meets (deciding m) (postgres ι) i (fun h r s => r = .ok () → DecidedBy m i approve h s)
      (ApprovalService.decide org actor m approve note) h s := by
  rw [ApprovalService.decide]
  refine (meets_noDecision (noDecision_getOr404 org m) hJ h).bind deciding_compatible
    (fun h request s hJ => ?_) fun h e s _ hok => by cases hok
  by_cases hpending : request.status ≠ .pending
  · rw [if_pos hpending]
    exact fun _ _ _ _ _ hok => by cases hok
  · rw [if_neg hpending]
    have hclock : (utcnow : Tx Time).Issues (NoDecision m) := ⟨trivial, fun _ => trivial⟩
    refine (meets_noDecision hclock hJ h).bind deciding_compatible
      (fun h now s hJ => ?_) fun h e s _ hok => by cases hok
    by_cases hexpired : request.expiresAt < now
    · rw [if_pos hexpired]
      have hexpire : (markExpired org m now).Issues (NoDecision m) := ⟨trivial, fun _ => trivial⟩
      refine (meets_noDecision hexpire hJ h).bind deciding_compatible
        (fun h updated s hJ => ?_) fun h e s _ hok => by cases hok
      have hcommit : commitWithRetry.Issues (NoDecision m) := ⟨trivial, fun _ => trivial⟩
      refine (meets_noDecision hcommit hJ h).bind deciding_compatible
        (fun h _ s _ => ?_) fun h e s _ hok => by cases hok
      exact fun _ _ _ _ _ hok => by cases hok
    · rw [if_neg hexpired]
      refine (meets_noDecision hclock hJ h).bind deciding_compatible
        (fun h decidedAt s hJ => ?_) fun h e s _ hok => by cases hok
      refine (meets_decideRequest actor approve note decidedAt hJ h).bind deciding_compatible
        (fun h r s hr => ?_) fun h e s _ hok => by cases hok
      cases r with
      | none => exact fun _ _ _ _ _ hok => by cases hok
      | some r' =>
          obtain ⟨hf, hnone⟩ := hr r' rfl
          have hl : (ApprovalLog.mk org m (some actor) (if approve then .approved else .denied)
              note).decides m = some (decision approve) := by
            cases approve <;> simp [ApprovalLog.decides, decision]
          refine (meets_log hl hf hnone h).bind deciding_compatible
            (fun h _ s hs => ?_) fun h e s _ hok => by cases hok
          obtain ⟨hf, k, hk⟩ := hs
          exact meets_commitDecision hl hf hk h

/-- A session that decides the request, and rolls back what is left. -/
lemma meets_decideClient (org actor : ℕ) (approve : Bool) (note : Option String)
    (hJ : Undecided m i s) :
    Meets (deciding m) (postgres ι) i (fun h r s => r = .ok () → DecidedBy m i approve h s)
      (client (ApprovalService.decide org actor m approve note)) [] s := by
  have hsession : Meets (deciding m) (postgres ι) i
      (fun h r s => r = .ok () → DecidedBy m i approve h s)
      (Txn.Tx.withSession (ApprovalService.decide org actor m approve note)) [] s := by
    refine (meets_decide org actor approve note hJ []).withSession deciding_compatible ?_
    intro h r s₁ tr s₂ hdecided _ hrely hI hflush
    obtain ⟨hI', hkept⟩ := deciding_step (q := .rollback) hI hflush trivial
    refine ⟨hI', hkept, fun s₃ hrely' hok => ?_⟩
    obtain ⟨hstatus, ev, hev, hdec⟩ := (hdecided hok).rely hrely.2
    have hafter := (hkept.trans hrely'.2) _ hstatus (decision_ne_pending approve)
    exact ⟨hafter, ev, List.mem_append_left _ hev, hdec⟩
  rw [client]
  refine hsession.bind deciding_compatible (fun h _ s hs => ?_) fun h e s _ hok => by cases hok
  exact fun _ s' _ hrely _ _ => (hs rfl).rely hrely.2

end Decide

/-! ### One decision -/

/-- The sessions that work on request `m`: they decide it, or do not touch its decision. -/
def DecideOrLeave (m : ℕ) (procs : ι → Tx Unit) : Prop :=
  ∀ i, (∃ org actor approve note,
      procs i = client (ApprovalService.decide org actor m approve note))
    ∨ (procs i).Issues (NoDecision m)

section Once

variable {procs : ι → Tx Unit} {c : Sessions ι Unit}

/-- The contract holds before anything has happened. -/
lemma deciding_start (hs : s.Settled) (hpending : status m s = some .pending)
    (hlogs : ∀ k, logged m s k = none) : (deciding m).inv [] s := by
  refine ⟨hs.ahead _, ?_⟩
  refine ⟨by simp [hpending], fun k st hk => ?_, fun k k' hk => absurd (hlogs k) hk,
    fun st hst hdec => ?_, fun k j l st hd => ?_, fun k k' j j' l l' hd => ?_⟩
  · rw [hlogs] at hk
    cases hk
  · obtain rfl := Option.some.inj (hpending.symm.trans hst)
    cases hdec
  · rw [hs] at hd
    cases hd
  · rw [hs] at hd
    cases hd

omit [DecidableEq ι] in
lemma undecided_of_settled (hs : s.Settled) (i : ι) : Undecided m i s := by
  intro r hd
  rw [hs] at hd
  cases hd

/-- The contract is kept along every run whose decisions are flushed on pending requests. -/
lemma deciding_reach (hs : s.Settled) (hpending : status m s = some .pending)
    (hlogs : ∀ k, logged m s k = none) (hp : DecideOrLeave m procs)
    (h : Pool.Reach (postgres ι) (.start procs s) c)
    (hflush : ∀ ev ∈ c.trace, FlushesPending ev = true) :
    LogsMatch m c.store ∧ (∀ ev ∈ c.trace, Kept m ev.before ev.after)
      ∧ ∀ i org actor approve note,
        procs i = client (ApprovalService.decide org actor m approve note) →
        c.returned i = true → DecidedBy m i approve (own i c.trace) c.store := by
  have hundecided : ∀ i, Undecided m i s := undecided_of_settled hs
  have hI : (deciding m).inv [] s := deciding_start hs hpending hlogs
  have hC : Along (deciding m).assume c.trace := along_iff_forall_mem.mpr hflush
  have hmeets : ∀ j, Meets (deciding m) (postgres ι) j (fun _ _ _ => True) (procs j) [] s := by
    intro j
    rcases hp j with ⟨org, actor, approve, note, hj⟩ | hj
    · rw [hj]
      exact (meets_decideClient org actor approve note (hundecided j)).mono fun _ _ _ _ => trivial
    · exact (meets_noDecision hj (hundecided j) []).mono fun _ _ _ _ => trivial
  obtain ⟨hinv, hguar, -⟩ := h.meets deciding_compatible hI hmeets hC
  refine ⟨hinv.2, along_iff_forall_mem.mp hguar, ?_⟩
  intro i org actor approve note hi hret
  obtain ⟨a, ha⟩ := Pool.returned_iff.mp hret
  have hmeets' : ∀ j, Meets (deciding m) (postgres ι) j
      (fun h r s => j = i → r = .ok () → DecidedBy m i approve h s) (procs j) [] s := by
    intro j
    by_cases hj : j = i
    · subst hj
      rw [hi]
      exact (meets_decideClient org actor approve note (hundecided j)).mono fun _ _ _ hQ _ => hQ
    · exact (hmeets j).mono fun _ _ _ _ hji => absurd hji hj
  exact h.post deciding_compatible hI hmeets' hC ha rfl rfl rfl

/-- **One decision.**  A request starts pending and without decision logs, and any number of
sessions decide it or do anything else but decide it.  Along every run whose decisions are
flushed on pending requests: exactly one commit takes it out of PENDING if it is decided in the
end, and none otherwise; its status never changes afterwards; at most one `decide` returns, the
one whose decision it is; and a decision has exactly one log. -/
theorem decided_once (hs : s.Settled) (hpending : status m s = some .pending)
    (hlogs : ∀ k, logged m s k = none) (hp : DecideOrLeave m procs)
    (h : Pool.Reach (postgres ι) (.start procs s) c)
    (hflush : ∀ ev ∈ c.trace, FlushesPending ev = true) :
    (Pool.flips (fun s => decided m s = true) c.trace).length
        = (if decided m c.store = true then 1 else 0)
      ∧ (∀ ev ∈ c.trace, decided m ev.before = true → status m ev.after = status m ev.before)
      ∧ (∀ i org actor approve note,
          procs i = client (ApprovalService.decide org actor m approve note) →
          c.returned i = true → status m c.store = some (decision approve)
            ∧ ∀ j org' actor' approve' note',
                procs j = client (ApprovalService.decide org' actor' m approve' note') →
                c.returned j = true → j = i)
      ∧ ∀ st, status m c.store = some st →
          if st.isDecision then
            ∃ k, logged m c.store k = some st ∧ ∀ k', logged m c.store k' ≠ none → k' = k
          else ∀ k, logged m c.store k = none := by
  obtain ⟨hmatch, hkept, hreturns⟩ := deciding_reach hs hpending hlogs hp h hflush
  have hstays : ∀ ev ∈ c.trace, decided m ev.before = true →
      status m ev.after = status m ev.before := by
    intro ev hev hdec
    obtain ⟨st, hst, hne⟩ := decided_eq_true.mp hdec
    rw [hst]
    exact hkept ev hev st hst hne
  have hflips := h.flips (P := fun s => decided m s = true) (by simp [decided, hpending])
    fun ev hev hdec => by
      rw [decided, hstays ev hev hdec]
      exact hdec
  refine ⟨hflips, hstays, fun i org actor approve note hi hret => ?_, fun st hst => ?_⟩
  · obtain ⟨hstatus, ev, hev, hpid, hbefore, hafter⟩ := hreturns i org actor approve note hi hret
    refine ⟨hstatus, fun j org' actor' approve' note' hj hret' => ?_⟩
    obtain ⟨-, ev', hev', hpid', hbefore', hafter'⟩ :=
      hreturns j org' actor' approve' note' hj hret'
    have hdec : decided m c.store = true :=
      decided_eq_true.mpr ⟨_, hstatus, decision_ne_pending approve⟩
    rw [if_pos hdec] at hflips
    obtain rfl := Pool.flip_unique hflips.le (mem_own.mp hev).1 (mem_own.mp hev').1
      (by simp [hbefore]) hafter (by simp [hbefore']) hafter'
    rw [← hpid', ← hpid]
  · split_ifs with hdec
    · obtain ⟨k, hk⟩ := hmatch.exists_log st hst hdec
      exact ⟨k, hk, fun k' hk' => hmatch.unique k' k hk' (by simp [hk])⟩
    · intro k
      by_contra hne
      obtain ⟨st', hst'⟩ := Option.ne_none_iff_exists'.mp hne
      have hsame := hmatch.committed k st' hst'
      obtain rfl := Option.some.inj (hst.symm.trans hsame)
      exact hdec (isDecision_of_logged hst')

end Once

/-! ### Two decisions -/

/-- A request of organization 1 that waits for a decision. -/
def openRequest : ApprovalRequest :=
  NewRequest.row
    { organizationId := 1
      requestedByUserId := 7
      workflowId := none
      workflowExecutionId := none
      approverUserId := none
      title := "Run the export"
      details := none
      expiresAt := none } 0

/-- A database that holds one request. -/
def requestDatabase (request : ApprovalRequest) : Database ι :=
  Db.init (fun t n => match t, n with
    | .approvalRequest, 0 => some request
    | _, _ => none) 1 (.still 0) fun t n hn => by
      match n with
      | 0 => omega
      | n + 1 => cases t <;> rfl

/-- One member approves the request, another denies it. -/
def approveAndDeny : Fin 2 → Tx Unit
  | 0 => client (ApprovalService.decide 1 8 0 true none)
  | 1 => client (ApprovalService.decide 1 9 0 false none)

/-- One member after the other: the second one finds the request decided. -/
theorem decided_once_in_turn :
    ∃ c : Sessions (Fin 2) Unit,
      Pool.Reach (postgres (Fin 2)) (.start approveAndDeny (requestDatabase openRequest)) c
        ∧ c.returned 0 = true ∧ status 0 c.store = some .approved
        ∧ (Pool.flips (fun s => decided 0 s = true) c.trace).length = 1
        ∧ ∃ k, logged 0 c.store k = some .approved ∧ ∀ k', logged 0 c.store k' ≠ none → k' = k := by
  have hrun : (((Pool.start approveAndDeny (requestDatabase openRequest)).run (postgres (Fin 2))
      (List.replicate 7 (.step 0) ++ List.replicate 2 (.step 1))).any fun c =>
        c.returned 0 && decide (status 0 c.store = some .approved)
          && c.trace.all fun ev => FlushesPending ev) = true := by
    decide +kernel
  obtain ⟨c, hc, hP⟩ := Pool.exists_of_run hrun
  simp only [Bool.and_eq_true, decide_eq_true_eq, List.all_eq_true] at hP
  obtain ⟨⟨hret, hstatus⟩, hflush⟩ := hP
  have hs : (requestDatabase openRequest : Database (Fin 2)).Settled := Db.settled_init _ _ _ _
  have hp : DecideOrLeave 0 approveAndDeny := by
    intro i
    fin_cases i
    · exact Or.inl ⟨1, 8, true, none, rfl⟩
    · exact Or.inl ⟨1, 9, false, none, rfl⟩
  obtain ⟨hflips, -, -, hlogs⟩ := decided_once hs rfl (fun _ => rfl) hp hc hflush
  have hdec : decided 0 c.store = true := decided_eq_true.mpr ⟨_, hstatus, by simp⟩
  rw [if_pos hdec] at hflips
  have hlog := hlogs _ hstatus
  have happroved : ApprovalStatus.approved.isDecision = true := rfl
  rw [if_pos happroved] at hlog
  exact ⟨c, hc, hret, hstatus, hflips, hlog⟩

/-- Both members read the request pending: both return, the denial overwrites the approval, and
both are logged. -/
theorem decided_twice :
    ∃ c : Sessions (Fin 2) Unit,
      Pool.Reach (postgres (Fin 2)) (.start approveAndDeny (requestDatabase openRequest)) c
        ∧ c.returned 0 = true ∧ c.returned 1 = true
        ∧ (∃ ev ∈ c.trace, status 0 ev.before = some .approved ∧ status 0 ev.after = some .denied)
        ∧ logged 0 c.store 1 = some .approved ∧ logged 0 c.store 2 = some .denied := by
  have hrun : (((Pool.start approveAndDeny (requestDatabase openRequest)).run (postgres (Fin 2))
      (List.replicate 2 (.step 0) ++ List.replicate 2 (.step 1) ++ List.replicate 5 (.step 0)
        ++ List.replicate 5 (.step 1))).any fun c =>
          c.returned 0 && c.returned 1
            && (c.trace.any fun ev => status 0 ev.before = some .approved
              && status 0 ev.after = some .denied)
            && logged 0 c.store 1 = some .approved && logged 0 c.store 2 = some .denied) = true := by
    decide +kernel
  obtain ⟨c, hc, hP⟩ := Pool.exists_of_run hrun
  simp only [Bool.and_eq_true, List.any_eq_true, decide_eq_true_eq] at hP
  obtain ⟨⟨⟨⟨hret, hret'⟩, ev, hev, hbefore, hafter⟩, hlog⟩, hlog'⟩ := hP
  exact ⟨c, hc, hret, hret', ⟨ev, hev, hbefore, hafter⟩, hlog, hlog'⟩

end Automation
