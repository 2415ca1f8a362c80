import AgencyOS.Team.Drafts

/-!
The life of an invite, whatever calls of the service run at once.

A call acts on the status of an invite that it has loaded before, and flushes what it has made of it
without a condition.

* `FindsPending`: a commit that writes an invite finds it pending, or in the status that it gives it;
* `Fixed`, `Accounted`, `Honoured`: closed invites stay as they are, new accounts and acceptances belong
  together, and what a session has closed is as it has left it;
* `fixed_commit_iff`, `Accounted.commit`: what one commit does to these;
* `Lifecycle`, `lifecycle_iff` (**the lives of invites**): a run keeps to the lifecycle exactly when its
  commits find their invites pending;
* `revoked_and_accepted`: a revocation overwrites an acceptance, and an account is created after a
  revocation.
-/

namespace Team

open Txn Accounts

variable {ι : Type}

/-! ### Commits -/

/-- A commit that writes an invite finds it pending, or in the status that it gives it, which is not an
acceptance. -/
def FindsPending [DecidableEq ι] (ev : Happened ι) : Bool :=
  match ev.stmt with
  | .commit => (List.range ev.before.fresh).all fun n =>
      (ev.before.dirty .teamInvites n).all fun d => decide (d.1 ≠ ev.pid)
        || (ev.before.committed .teamInvites n).all fun rc => decide (rc.status = .pending)
          || decide (rc.status = TeamInvite.status d.2) && decide (rc.status ≠ .accepted)
  | _ => true

/-- The invites that are not pending stay as they are. -/
def Fixed (s s' : Database ι) : Prop :=
  ∀ n v, s.committed .teamInvites n = some v → v.status ≠ .pending →
    ∃ v', s'.committed .teamInvites n = some v' ∧ v'.status = v.status
      ∧ v'.acceptedUserId = v.acceptedUserId

/-- The invite `n` has been accepted by the user `u`. -/
def Accepts (s : Database ι) (n u : ℕ) : Prop :=
  ∃ v, s.committed .teamInvites n = some v ∧ v.status = .accepted ∧ v.acceptedUserId = some u

/-- The accounts that are new in `s` are those by which invites have been accepted: one invite for each,
and each with the account that it is for. -/
structure Accounted (s₀ s : Database ι) : Prop where
  kept : ∀ u r, s₀.committed .users u = some r → s.committed .users u = some r
  account : ∀ u r, s.committed .users u = some r → s₀.committed .users u = none →
    ∃! n, Accepts s n u
  acceptance : ∀ n v, s.committed .teamInvites n = some v → v.status = .accepted →
    (∃ v₀, s₀.committed .teamInvites n = some v₀ ∧ v₀.status = .accepted)
      ∨ ∃ u r, v.acceptedUserId = some u ∧ s₀.committed .users u = none
        ∧ s.committed .users u = some r ∧ AccountOf v r

/-- The invites that a session has closed are as it has left them. -/
def Honoured (g : Ghost) (s : Database ι) : Prop :=
  ∀ n st, g.committed n = some st → st ≠ .pending
    ∧ ∃ v, s.committed .teamInvites n = some v ∧ v.status = st

lemma Fixed.of_eq {s s' : Database ι} (h : s'.committed = s.committed) : Fixed s s' :=
  fun _ v hv _ => ⟨v, h ▸ hv, rfl, rfl⟩

lemma Accounted.of_eq {s₀ s s' : Database ι} (h : Accounted s₀ s) (heq : s'.committed = s.committed) :
    Accounted s₀ s' where
  kept := by
    rw [heq]
    exact h.kept
  account := by
    simp only [Accepts, heq]
    exact h.account
  acceptance := by
    rw [heq]
    exact h.acceptance

lemma Honoured.fixed {g : Ghost} {s s' : Database ι} (h : Honoured g s) (hf : Fixed s s') :
    Honoured g s' := by
  intro n st hst
  obtain ⟨hne, v, hv, rfl⟩ := h n st hst
  obtain ⟨v', hv', hstatus, -⟩ := hf n v hv hne
  exact ⟨hne, v', hv', hstatus⟩

section Commits

variable [DecidableEq ι] {s s₀ : Database ι} {i : ι} {g : Ghost}

lemma findsPending_commit (s' : Database ι) : FindsPending ⟨i, .commit, s, s'⟩ = true
    ↔ ∀ n v rc, s.dirty .teamInvites n = some (i, v) → s.committed .teamInvites n = some rc →
      rc.status = .pending ∨ rc.status = v.status ∧ rc.status ≠ .accepted := by
  simp only [FindsPending, List.all_eq_true, List.mem_range, Option.all_eq_true, Bool.or_eq_true,
    Bool.and_eq_true, decide_eq_true_eq]
  constructor
  · intro h n v rc hd hc
    rcases h n (Db.lt_fresh_of_dirty hd) (i, v) hd with hne | hall
    · exact absurd rfl hne
    · exact hall rc hc
  · rintro h n - ⟨j, v⟩ hd
    by_cases hj : j = i
    · subst hj
      exact Or.inr fun rc hc => h n v rc hd hc
    · exact Or.inl hj

/-- **A commit leaves the closed invites as they are exactly when it finds its invites pending.** -/
theorem fixed_commit_iff (hS : Sound s) (h : Tracks i g s) (hallow : g.Allows .commit) :
    FindsPending ⟨i, .commit, s, s.commit i⟩ = true ↔ Fixed s (s.commit i) := by
  rw [findsPending_commit]
  have hdraft := h.draft
  constructor
  · intro hfinds n rc hrc hne
    rcases s.view_cases i .teamInvites n with ⟨v, hd, hv⟩ | ⟨-, hv⟩
    · obtain ⟨hstatus, haccepted⟩ := (hfinds n v rc hd hrc).resolve_left hne
      refine ⟨v, hv, hstatus.symm, ?_⟩
      cases hg : g.draft with
      | closing rows =>
          rw [hg] at hdraft
          obtain ⟨-, -, rc', hrc', hsame⟩ := hdraft.2.2 n v hd
          obtain rfl := Option.some.inj (hrc.symm.trans hrc')
          exact hsame
      | invited =>
          rw [hg] at hdraft
          rw [(hdraft.2 n v hd).1] at hrc
          cases hrc
      | account userId x => exact absurd hg (hallow userId x)
      | acceptance userId x inviteId =>
          rw [hg] at hdraft
          exact absurd (hstatus.trans (hdraft.2.2 n v hd).2.1) haccepted
    · exact ⟨rc, hv.trans hrc, rfl, rfl⟩
  · intro hfixed n v rc hd hrc
    by_cases hpending : rc.status = .pending
    · exact Or.inl hpending
    · obtain ⟨v', hv', hstatus, huser⟩ := hfixed n rc hrc hpending
      obtain rfl := Option.some.inj ((Db.view_of_own hd).symm.trans hv')
      refine Or.inr ⟨hstatus.symm, fun haccepted => ?_⟩
      cases hg : g.draft with
      | closing rows =>
          rw [hg] at hdraft
          have hclosed := (hdraft.2.2 n v hd).2.1
          rw [hstatus, haccepted] at hclosed
          rcases hclosed with h | h <;> cases h
      | invited =>
          rw [hg] at hdraft
          rw [(hdraft.2 n v hd).1] at hrc
          cases hrc
      | account userId x => exact absurd hg (hallow userId x)
      | acceptance userId x inviteId =>
          -- the user that the invite names would have been there before it was created
          rw [hg] at hdraft
          obtain ⟨-, -, hnew, -, -⟩ := hdraft.2.2 n v hd
          obtain ⟨r, hr⟩ := hS.named n rc hrc userId (huser.symm.trans hnew)
          rw [hdraft.1.fresh] at hr
          cases hr

/-- A user that a commit adds is the one whose acceptance it commits. -/
lemma user_commit (h : Tracks i g s) (hallow : g.Allows .commit) {u : ℕ} {r : User}
    (hr : (s.commit i).committed .users u = some r) : s.committed .users u = some r
      ∨ s.committed .users u = none ∧ ∃ x n, g.draft = .acceptance u x n := by
  have hdraft := h.draft
  rcases s.view_cases i .users u with ⟨r', hd, -⟩ | ⟨-, hv⟩
  · cases hg : g.draft with
    | closing rows =>
        rw [hg] at hdraft
        exact absurd hd (hdraft.1 u r')
    | invited =>
        rw [hg] at hdraft
        exact absurd hd (hdraft.1 u r')
    | account userId x => exact absurd hg (hallow userId x)
    | acceptance userId x inviteId =>
        rw [hg] at hdraft
        obtain ⟨rfl, -⟩ := (hdraft.1.dirty u r').mp hd
        exact Or.inr ⟨hdraft.1.fresh, x, inviteId, rfl⟩
  · exact Or.inl (hv.symm.trans hr)

/-- An acceptance that is committed was committed before, or is the one of the draft. -/
lemma acceptance_commit (h : Tracks i g s) (hallow : g.Allows .commit) {n : ℕ} {v : TeamInvite}
    (hv : (s.commit i).committed .teamInvites n = some v) (haccepted : v.status = .accepted) :
    s.committed .teamInvites n = some v ∨ ∃ u x, g.draft = .acceptance u x n
      ∧ v.acceptedUserId = some u ∧ AccountOf v x.row := by
  have hdraft := h.draft
  rcases s.view_cases i .teamInvites n with ⟨v', hd, hv'⟩ | ⟨-, hv'⟩
  · obtain rfl := Option.some.inj (hv'.symm.trans hv)
    cases hg : g.draft with
    | closing rows =>
        rw [hg] at hdraft
        have hclosed := (hdraft.2.2 n v' hd).2.1
        rw [haccepted] at hclosed
        rcases hclosed with h | h <;> cases h
    | invited =>
        rw [hg] at hdraft
        have hpending := (hdraft.2 n v' hd).2.1
        rw [haccepted] at hpending
        cases hpending
    | account userId x => exact absurd hg (hallow userId x)
    | acceptance userId x inviteId =>
        rw [hg] at hdraft
        obtain ⟨rfl, -, huser, haccount, -⟩ := hdraft.2.2 n v' hd
        exact Or.inr ⟨userId, x, rfl, huser, haccount⟩
  · exact Or.inl (hv'.symm.trans hv)

/-- What the draft of an acceptance commits. -/
lemma Tracks.acceptance (h : Tracks i g s) {u n : ℕ} {x : NewUser}
    (hg : g.draft = .acceptance u x n) : s.committed .users u = none
      ∧ (s.commit i).committed .users u = some x.row ∧ Accepts (s.commit i) n u := by
  have hdraft := h.draft
  rw [hg] at hdraft
  obtain ⟨hopens, ⟨v, hd⟩, hrows⟩ := hdraft
  obtain ⟨-, haccepted, huser, -, -⟩ := hrows n v hd
  exact ⟨hopens.fresh, Db.view_of_own ((hopens.dirty u x.row).mpr ⟨rfl, rfl⟩), v, Db.view_of_own hd,
    haccepted, huser⟩

lemma Accounted.commit (hA : Accounted s₀ s) (hS : Sound s) (h : Tracks i g s)
    (hallow : g.Allows .commit) (hfixed : Fixed s (s.commit i)) : Accounted s₀ (s.commit i) := by
  have hkeeps : Keeps s (s.commit i) := keeps_effect hS i .commit
  refine ⟨fun u r hr => hkeeps.users u r (hA.kept u r hr), fun u r hr hnew => ?_, fun n v hv hst => ?_⟩
  · rcases user_commit h hallow hr with hold | ⟨hfresh, x, n, hg⟩
    · obtain ⟨n, ⟨v, hv, haccepted, huser⟩, hunique⟩ := hA.account u r hold hnew
      obtain ⟨v', hv', hstatus, hsame⟩ := hfixed n v hv (by rw [haccepted]; decide)
      refine ⟨n, ⟨v', hv', hstatus.trans haccepted, hsame.trans huser⟩, ?_⟩
      rintro n' ⟨w, hw, hwaccepted, hwuser⟩
      rcases acceptance_commit h hallow hw hwaccepted with hwold | ⟨u', x, hg, hwuser', -⟩
      · exact hunique n' ⟨w, hwold, hwaccepted, hwuser⟩
      · obtain rfl := Option.some.inj (hwuser.symm.trans hwuser')
        rw [(h.acceptance hg).1] at hold
        cases hold
    · refine ⟨n, (h.acceptance hg).2.2, ?_⟩
      rintro n' ⟨w, hw, hwaccepted, hwuser⟩
      rcases acceptance_commit h hallow hw hwaccepted with hwold | ⟨u', x', hg', -, -⟩
      · obtain ⟨r', hr'⟩ := hS.named n' w hwold u hwuser
        rw [hfresh] at hr'
        cases hr'
      · cases hg.symm.trans hg'
        rfl
  · rcases acceptance_commit h hallow hv hst with hold | ⟨u, x, hg, huser, haccount⟩
    · rcases hA.acceptance n v hold hst with h₀ | ⟨u, r, huser, hnew, hr, haccount⟩
      · exact Or.inl h₀
      · exact Or.inr ⟨u, r, huser, hnew, hkeeps.users u r hr, haccount⟩
    · obtain ⟨hfresh, hr, -⟩ := h.acceptance hg
      refine Or.inr ⟨u, x.row, huser, ?_, hr, haccount⟩
      by_contra hne
      obtain ⟨r, hr₀⟩ := Option.ne_none_iff_exists'.mp hne
      rw [hA.kept u r hr₀] at hfresh
      cases hfresh

lemma Honoured.commit (hH : Honoured g s) (h : Tracks i g s) (hfixed : Fixed s (s.commit i)) :
    Honoured (g.step .commit ()) (s.commit i) := by
  have hdraft := h.draft
  have hstatuses : ∀ n st, g.draft.statuses n = some st → st ≠ .pending
      ∧ ∃ v, (s.commit i).committed .teamInvites n = some v ∧ v.status = st := by
    intro n st hst
    cases hg : g.draft with
    | closing rows =>
        rw [hg] at hdraft hst
        obtain ⟨v, hd, rfl⟩ := hdraft.2.1 n st hst
        have hclosed := (hdraft.2.2 n v hd).2.1
        refine ⟨fun hpending => ?_, v, Db.view_of_own hd, rfl⟩
        rw [hpending] at hclosed
        rcases hclosed with h | h <;> cases h
    | invited | account =>
        rw [hg] at hst
        cases hst
    | acceptance userId x inviteId =>
        rw [hg] at hst
        obtain ⟨v, hv, haccepted, -⟩ := (h.acceptance hg).2.2
        by_cases hn : n = inviteId
        · subst hn
          have hst' : some InviteStatus.accepted = some st := by
            simpa [Draft.statuses] using hst
          obtain rfl := Option.some.inj hst'
          exact ⟨by decide, v, hv, haccepted⟩
        · simp [Draft.statuses, Function.update_of_ne hn] at hst
  intro n st hst
  cases hdr : g.draft.statuses n with
  | none =>
      have hold : g.committed n = some st := by
        have hor : (g.draft.statuses n).or (g.committed n) = some st := hst
        rwa [hdr, Option.none_or] at hor
      exact hH.fixed hfixed n st hold
  | some st' =>
      have hor : (g.draft.statuses n).or (g.committed n) = some st := hst
      rw [hdr, Option.some_or] at hor
      exact hstatuses n st (hdr.trans hor)

end Commits

/-! ### Runs -/

section Runs

variable [DecidableEq ι] {s s₀ : Database ι} {i : ι} {g : ι → Ghost} {q : Sql team} {env : Env}
  {call : ι → Call} {c : Sessions ι Unit}

/-- The store is sound, and every session is tracked by its ghost. -/
def Consistent (g : ι → Ghost) (s : Database ι) : Prop := Sound s ∧ ∀ i, Tracks i (g i) s

/-- A statement is refused and changes neither the store nor the ghost, or it is executed. -/
lemma postgres_cases (g : Ghost) (i : ι) (q : Sql team) (s : Database ι) :
    ((postgres ι).effect i q s = s ∧ calls.step g ⟨q, (postgres ι).answer i q s⟩ = g)
      ∨ (postgres ι).effect i q s = Db.effect i q s
        ∧ calls.step g ⟨q, (postgres ι).answer i q s⟩ = g.step q (Db.answer i q s) := by
  by_cases hrefused : Db.refuses teamKey i q s = true
  · refine Or.inl ⟨by simp [indexedServer, hrefused], ?_⟩
    have hanswer : (postgres ι).answer i q s = .error .duplicateKey := if_pos hrefused
    rw [hanswer]
    rfl
  · refine Or.inr ⟨by simp [indexedServer, hrefused], ?_⟩
    have hanswer : (postgres ι).answer i q s = .ok (Db.answer i q s) := if_neg hrefused
    rw [hanswer]
    rfl

lemma consistent_step (h : Consistent g s) (hallow : (g i).Allows q) :
    Consistent (Function.update g i (calls.step (g i) ⟨q, (postgres ι).answer i q s⟩))
      ((postgres ι).effect i q s) := by
  obtain ⟨hS, hT⟩ := h
  rcases postgres_cases (g i) i q s with ⟨hs, hg⟩ | ⟨hs, hg⟩
  · rw [hs, hg, Function.update_eq_self]
    exact ⟨hS, hT⟩
  · rw [hs, hg]
    refine ⟨hS.effect (hT i) hallow, fun j => ?_⟩
    by_cases hj : j = i
    · subst hj
      rw [Function.update_self]
      exact (hT j).own hS hallow
    · rw [Function.update_of_ne hj]
      exact (hT j).other (frame_effect (fun h => hj h.symm) q s) (keeps_effect hS i q)

/-- A statement leaves the closed invites as they are exactly when it is no commit, or one that finds
its invites pending. -/
lemma fixed_iff (h : Consistent g s) (hallow : (g i).Allows q) :
    FindsPending ⟨i, q, s, (postgres ι).effect i q s⟩ = true
      ↔ Fixed s ((postgres ι).effect i q s) := by
  by_cases hq : q = .commit
  · subst hq
    rw [indexedServer_commit]
    exact fixed_commit_iff h.1 (h.2 i) hallow
  · have hcommitted : ((postgres ι).effect i q s).committed = s.committed := by
      rcases postgres_cases (g i) i q s with ⟨hs, -⟩ | ⟨hs, -⟩
      · rw [hs]
      · rw [hs]
        exact Db.committed_effect hq
    refine iff_of_true ?_ (.of_eq hcommitted)
    cases q with
    | commit => exact absurd rfl hq
    | _ => rfl

/-- What holds along a run whose commits find their invites pending. -/
structure Settles (s₀ : Database ι) (g : ι → Ghost) (s : Database ι) : Prop where
  consistent : Consistent g s
  accounted : Accounted s₀ s
  honoured : ∀ i, Honoured (g i) s

lemma settles_step (h : Settles s₀ g s) (hallow : (g i).Allows q)
    (hfinds : FindsPending ⟨i, q, s, (postgres ι).effect i q s⟩ = true) :
    Settles s₀ (Function.update g i (calls.step (g i) ⟨q, (postgres ι).answer i q s⟩))
      ((postgres ι).effect i q s) := by
  have hfixed := (fixed_iff h.consistent hallow).mp hfinds
  have hcons := consistent_step h.consistent hallow
  obtain ⟨hS, hT⟩ := h.consistent
  by_cases hq : q = .commit
  · subst hq
    rw [indexedServer_commit] at hfixed hcons ⊢
    refine ⟨hcons, h.accounted.commit hS (hT i) hallow hfixed, fun j => ?_⟩
    by_cases hj : j = i
    · subst hj
      rw [Function.update_self]
      exact (h.honoured j).commit (hT j) hfixed
    · rw [Function.update_of_ne hj]
      exact (h.honoured j).fixed hfixed
  · -- nothing is committed, neither by the store nor by the ghost
    have hboth : ((postgres ι).effect i q s).committed = s.committed
        ∧ (calls.step (g i) ⟨q, (postgres ι).answer i q s⟩).committed = (g i).committed := by
      rcases postgres_cases (g i) i q s with ⟨hs, hg⟩ | ⟨hs, hg⟩
      · rw [hs, hg]
        exact ⟨rfl, rfl⟩
      · rw [hs, hg]
        exact ⟨Db.committed_effect hq, (g i).committed_step hq _⟩
    refine ⟨hcons, h.accounted.of_eq hboth.1, fun j => ?_⟩
    by_cases hj : j = i
    · subst hj
      rw [Function.update_self]
      intro n st hst
      rw [hboth.2] at hst
      exact (h.honoured j).fixed hfixed n st hst
    · rw [Function.update_of_ne hj]
      exact (h.honoured j).fixed hfixed

/-- The invite `n` is closed. -/
def closed (n : ℕ) (s : Database ι) : Bool :=
  (s.committed .teamInvites n).any fun v => decide (v.status ≠ .pending)

/-- The lives of the invites in a run: closed invites stay as they are, so that each leaves PENDING at
most once; new accounts and acceptances belong together; and an invite that a call has revoked is
revoked. -/
structure Lifecycle (call : ι → Call) (s : Database ι) (c : Sessions ι Unit) : Prop where
  fixed : ∀ ev ∈ c.trace, Fixed ev.before ev.after
  once : ∀ n, (Pool.flips (fun s => closed n s = true) c.trace).length ≤ 1
  accounted : Accounted s c.store
  revoked : ∀ i organizationId inviteId, call i = .revoke organizationId inviteId →
    c.returned i = true →
      ∃ v, c.store.committed .teamInvites inviteId = some v ∧ v.status = .revoked

/-- **The lives of invites.**  Any number of calls of the service create, list, look up, revoke and
accept invites.  In a run of them the invites keep to their lifecycle exactly when every commit that
writes an invite finds it pending, or in the status that it gives it, which is not an acceptance. -/
theorem lifecycle_iff (hs : s.Settled)
    (hnamed : ∀ n v, s.committed .teamInvites n = some v → Named s v)
    (h : Pool.Reach (postgres ι) (.start (fun i => (call i).run env) s) c) :
    (∀ ev ∈ c.trace, FindsPending ev = true) ↔ Lifecycle call s c := by
  have hp : ∀ i, ((call i).run env).Obeys calls
      (fun g r => ∀ a, r = .ok a → (call i).Done g.committed) calls.start := fun i => yields_run (call i)
  have hstart : Consistent (fun _ => calls.start) s := by
    refine ⟨⟨hs.ahead _, hnamed⟩, fun i => ⟨fun n v hv => (by cases hv), ?_⟩⟩
    exact draft_tracks_blank (fun u r hd => by rw [hs] at hd; cases hd) fun n v hd => by
      rw [hs] at hd
      cases hd
  have hhangup : ∀ g : Ghost, calls.allows g (postgres ι).hangup := fun g => trivial
  constructor
  · intro hfinds
    have hinit : Settles s (fun _ => calls.start) s := by
      refine ⟨hstart, ⟨fun u r hr => hr, fun u r hr hnew => ?_, fun n v hv hst => Or.inl ⟨v, hv, hst⟩⟩,
        fun i n st hst => by cases hst⟩
      rw [hr] at hnew
      cases hnew
    obtain ⟨hend, hevents⟩ := h.monitored (C := fun ev => FindsPending ev = true) hp hhangup hinit
      (fun g i q s hI hallow _ hC => settles_step hI hallow hC) hfinds
    have hfixed : ∀ ev ∈ c.trace, Fixed ev.before ev.after := by
      intro ev hev
      obtain ⟨g, hI, hallow, -, hafter⟩ := hevents ev hev
      have hfind := hfinds ev hev
      rw [hafter]
      refine (fixed_iff hI.consistent hallow).mp ?_
      rw [← hafter]
      exact hfind
    refine ⟨hfixed, fun n => h.flips_le_one fun ev hev hclosed => ?_, hend.accounted,
      fun i organizationId inviteId hi hret => ?_⟩
    · obtain ⟨v, hv, hne⟩ := (Option.any_eq_true _ _).mp hclosed
      obtain ⟨v', hv', hstatus, -⟩ := hfixed ev hev n v hv (of_decide_eq_true hne)
      refine (Option.any_eq_true _ _).mpr ⟨v', hv', ?_⟩
      rw [hstatus]
      exact hne
    · obtain ⟨a, ha⟩ := Pool.returned_iff.mp hret
      have hdone : (call i).Done _ := (h.obeys hp hhangup).2 i _ ha a rfl
      rw [hi] at hdone
      obtain ⟨-, hv⟩ := hend.honoured i inviteId .revoked hdone
      exact hv
  · intro hlife ev hev
    obtain ⟨-, hevents⟩ := h.monitored (C := fun _ => True) hp hhangup hstart
      (fun g i q s hI hallow _ _ => consistent_step hI hallow) fun _ _ => trivial
    obtain ⟨g, hI, hallow, -, hafter⟩ := hevents ev hev
    have hfixed := hlife.fixed ev hev
    rw [hafter] at hfixed
    have hfind := (fixed_iff hI hallow).mpr hfixed
    rwa [← hafter] at hfind

end Runs

/-! ### One invite, revoked and accepted -/

/-- Strings are taken as they are. -/
def plainEnv : Env := ⟨id, id, id, id, id⟩

/-- A pending invite of organization 1 under id 0. -/
def openInvite : TeamInvite :=
  NewInvite.row
    { organizationId := 1
      email := "new@example.com"
      fullName := none
      role := .member
      tokenHash := "token"
      invitedByUserId := 7
      expiresAt := 10 }

/-- A database that holds one invite. -/
def inviteDatabase : Database (Fin 2) :=
  Db.init (fun t n => match t, n with
    | .teamInvites, 0 => some openInvite
    | _, _ => none) 1 (.still 0) fun t n hn => by
      match n with
      | 0 => omega
      | n + 1 => cases t <;> rfl

/-- One call revokes the invite, the other one accepts it. -/
def revokeAndAccept : Fin 2 → Call
  | 0 => .revoke 1 0
  | 1 => .accept "token" "New member" "password"

/-- The status of the invite. -/
def inviteStatus (s : Database (Fin 2)) : Option InviteStatus :=
  (s.committed .teamInvites 0).map TeamInvite.status

/-- One call after the other: the invite is accepted, and is not revoked any more. -/
theorem lifecycle_iff_in_turn :
    ∃ c, Pool.Reach (postgres (Fin 2))
        (.start (fun i => (revokeAndAccept i).run plainEnv) inviteDatabase) c
      ∧ c.returned 1 = true ∧ inviteStatus c.store = some .accepted
      ∧ Lifecycle revokeAndAccept inviteDatabase c := by
  have hrun : (((Pool.start (fun i => (revokeAndAccept i).run plainEnv) inviteDatabase).run
      (postgres (Fin 2)) (List.replicate 8 (.step 1) ++ List.replicate 2 (.step 0))).any fun c =>
        c.returned 1 && decide (inviteStatus c.store = some .accepted)
          && c.trace.all fun ev => FindsPending ev) = true := by
    decide +kernel
  obtain ⟨c, hc, hP⟩ := Pool.exists_of_run hrun
  simp only [Bool.and_eq_true, decide_eq_true_eq, List.all_eq_true] at hP
  obtain ⟨⟨hret, hstatus⟩, hfinds⟩ := hP
  have hnamed : ∀ n v, inviteDatabase.committed .teamInvites n = some v → Named inviteDatabase v := by
    intro n v hv u hu
    match n with
    | 0 =>
        obtain rfl := Option.some.inj hv
        cases hu
    | n + 1 => cases hv
  exact ⟨c, hc, hret, hstatus, (lifecycle_iff (Db.settled_init _ _ _ _) hnamed hc).mp hfinds⟩

/-- Both calls read the invite pending.  If the acceptance commits first, the revocation overwrites it,
and the account stays; if the revocation has returned, an account is created all the same. -/
theorem revoked_and_accepted :
    (∃ c, Pool.Reach (postgres (Fin 2))
        (.start (fun i => (revokeAndAccept i).run plainEnv) inviteDatabase) c
      ∧ c.returned 0 = true ∧ c.returned 1 = true
      ∧ (∃ ev ∈ c.trace, inviteStatus ev.before = some .accepted
        ∧ inviteStatus ev.after = some .revoked)
      ∧ (c.store.committed .users 1).isSome = true)
    ∧ ∃ c c', Pool.Reach (postgres (Fin 2))
        (.start (fun i => (revokeAndAccept i).run plainEnv) inviteDatabase) c
      ∧ c.returned 0 = true ∧ (c.store.committed .users 1).isSome = false
      ∧ Pool.Reach (postgres (Fin 2)) c c' ∧ (c'.store.committed .users 1).isSome = true := by
  have hrun : (((Pool.start (fun i => (revokeAndAccept i).run plainEnv) inviteDatabase).run
      (postgres (Fin 2)) (.step 0 :: List.replicate 8 (.step 1) ++ List.replicate 4 (.step 0))).any
        fun c => c.returned 0 && c.returned 1
          && (c.trace.any fun ev => inviteStatus ev.before = some .accepted
            && inviteStatus ev.after = some .revoked)
          && (c.store.committed .users 1).isSome) = true := by
    decide +kernel
  have hlate : (((Pool.start (fun i => (revokeAndAccept i).run plainEnv) inviteDatabase).run
      (postgres (Fin 2)) (.step 1 :: List.replicate 5 (.step 0))).any fun c =>
        c.returned 0 && !(c.store.committed .users 1).isSome
          && (c.run (postgres (Fin 2)) (List.replicate 7 (.step 1))).any fun c' =>
            (c'.store.committed .users 1).isSome) = true := by
    decide +kernel
  obtain ⟨c, hc, hP⟩ := Pool.exists_of_run hrun
  obtain ⟨c₁, hc₁, hP₁⟩ := Pool.exists_of_run hlate
  simp only [Bool.and_eq_true, List.any_eq_true, decide_eq_true_eq] at hP
  simp only [Bool.and_eq_true, Bool.not_eq_true'] at hP₁
  obtain ⟨⟨⟨hret, hret'⟩, ev, hev, hbefore, hafter⟩, huser⟩ := hP
  obtain ⟨⟨hret₁, hnone⟩, hrest⟩ := hP₁
  obtain ⟨c₂, hc₂, huser₂⟩ := Pool.exists_of_run hrest
  exact ⟨⟨c, hc, hret, hret', ⟨ev, hev, hbefore, hafter⟩, huser⟩, c₁, c₂, hc₁, hret₁, hnone, hc₂,
    huser₂⟩

end Team
