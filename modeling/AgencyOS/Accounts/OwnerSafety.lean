import AgencyOS.Accounts.UserService

/-!
The last active owner of an organization.

The owner check counts the active owners in one statement and the change is written by another, so
the count may be overtaken: another session may take an active owner away in between.

* `owners`: the active owners among the committed users;
* `ownerCount`: the count that a session has made in its open transaction, and the owners that the
  commits of others have taken away since;
* `SafeCommit`: a commit takes an active owner away only on a count that still has one to spare;
* `counted_two`: a transaction that has counted commits only on a count of two or more;
* `active_owner_kept` (**an active owner remains**): in every run of updates whose commits are safe;
  and run alone, the owner check refuses exactly the updates that would leave no active owner,
  unless it meets the demotion of an inactive owner.
-/

namespace Accounts

open Txn Automation UserService

/-- An active owner of the organization. -/
def User.activeOwner (organizationId : ℕ) (u : User) : Bool :=
  u.organizationId = organizationId && u.role = .owner && u.isActive

section Owners

variable {ι : Type} [DecidableEq ι] {s s' : Database ι} {org n : ℕ} {i j : ι} {target : ι → ℕ}

/-- The active owners among the committed users. -/
def owners (org : ℕ) (s : Database ι) : Finset ℕ :=
  (Finset.range s.fresh).filter fun n => (s.committed .users n).any (User.activeOwner org) = true

omit [DecidableEq ι] in
lemma mem_owners :
    n ∈ owners org s ↔ ∃ u, s.committed .users n = some u ∧ u.activeOwner org = true := by
  rw [owners, Finset.mem_filter, Finset.mem_range, Option.any_eq_true]
  constructor
  · exact fun h => h.2
  · rintro ⟨u, hu, ho⟩
    exact ⟨Db.lt_fresh_of_committed hu, u, hu, ho⟩

omit [DecidableEq ι] in
/-- The owners depend on the committed users only. -/
lemma owners_congr (h : s'.committed .users = s.committed .users) : owners org s' = owners org s := by
  ext n
  rw [mem_owners, mem_owners, h]

lemma owners_effect {q : Sql accounts} (hq : q ≠ .commit) :
    owners org (Db.effect i q s) = owners org s :=
  owners_congr (congrFun (Db.committed_effect hq) _)

/-- Every open transaction has changed its own target at most. -/
def OnTarget (target : ι → ℕ) (s : Database ι) : Prop :=
  ∀ n i u, s.dirty .users n = some (i, u) → n = target i

/-- The `UPDATE`s of users meet the target of their session. -/
def Targets (m : ℕ) (q : Sql accounts) : Prop :=
  ∀ known user n, q = .update (.flush known user) n → n = m

lemma OnTarget.effect (h : OnTarget target s) {q : Sql accounts} (hq : Targets (target i) q) :
    OnTarget target (Db.effect i q s) := by
  intro n j u hd
  rcases Db.dirty_effect_cases hd with
    ⟨hold, -⟩ | ⟨rfl, ⟨p, r₀, rfl, -, -, heq⟩ | ⟨x, rfl, -, heq⟩⟩
  · exact h n j u hold
  · cases p with
    | flush known user => exact hq known user n rfl
    | _ => cases heq
  · cases heq

/-- A commit changes the owners at the target of its session at most. -/
lemma OnTarget.mem_owners_commit (h : OnTarget target s) (hn : n ≠ target i) :
    n ∈ owners org (s.commit i) ↔ n ∈ owners org s := by
  have hview : s.view i .users n = s.committed .users n :=
    Db.view_of_not_own fun u hd => hn (h n i u hd)
  rw [mem_owners, mem_owners, Db.committed_commit, hview]

/-- A session counts the owners other than its target, and the target at most. -/
lemma OnTarget.length_rows_le (h : OnTarget target s) :
    (s.rows i (.activeRole org .owner)).length ≤ ((owners org s).erase (target i)).card + 1 := by
  rw [Db.length_rows]
  refine le_trans (Finset.card_le_card ?_) (Finset.card_insert_le (target i) _)
  intro n hn
  rw [Finset.mem_insert, Finset.mem_erase]
  by_cases hne : n = target i
  · exact Or.inl hne
  · refine Or.inr ⟨hne, ?_⟩
    have hview : s.view i .users n = s.committed .users n :=
      Db.view_of_not_own fun u hd => hne (h n i u hd)
    have hany := (Finset.mem_filter.mp hn).2
    rw [hview, Option.any_eq_true] at hany
    exact mem_owners.mpr hany

end Owners

/-! ### Counts -/

/-- The count of an open transaction, and the owners lost to others since. -/
structure OwnerCount where
  counted : ℕ
  lost : ℕ
  deriving DecidableEq, Repr

section Counts

variable {ι : Type} [DecidableEq ι] {s s' : Database ι} {org n : ℕ} {i j : ι} {target : ι → ℕ}
  {tr h : List (Happened ι)} {ev : Happened ι}

/-- The count after an event: made by a count of the owners, dropped with the transaction, overtaken
by what another session takes away. -/
def OwnerCount.step (org : ℕ) (i : ι) (w : Option OwnerCount) (ev : Happened ι) :
    Option OwnerCount :=
  if ev.pid = i then
    match ev.stmt with
    | .scan (.activeRole o .owner) =>
        if o = org then some ⟨(ev.before.rows i (.activeRole o .owner)).length, 0⟩ else w
    | .commit | .rollback => none
    | _ => w
  else
    w.map fun c =>
      { c with lost := c.lost + (owners org ev.before \ owners org ev.after).card }

/-- The count of session `i` after a trace. -/
def ownerCount (org : ℕ) (i : ι) (tr : List (Happened ι)) : Option OwnerCount :=
  tr.foldl (OwnerCount.step org i) none

@[simp] lemma ownerCount_nil : ownerCount org i ([] : List (Happened ι)) = none := rfl

@[simp] lemma ownerCount_snoc (tr : List (Happened ι)) (ev : Happened ι) :
    ownerCount org i (tr ++ [ev]) = OwnerCount.step org i (ownerCount org i tr) ev := by
  rw [ownerCount, List.foldl_append]
  rfl

/-- A statement that does not count the owners. -/
def Uncounted (org : ℕ) (q : Sql accounts) : Prop := q ≠ .scan (.activeRole org .owner)

/-- A statement that ends no transaction and counts no owners leaves the count alone. -/
lemma step_own {w : Option OwnerCount} {q : Sql accounts} (hc : q ≠ .commit)
    (hr : q ≠ .rollback) (hq : Uncounted org q) : OwnerCount.step org i w ⟨i, q, s, s'⟩ = w := by
  rw [OwnerCount.step, if_pos rfl]
  split
  · rename_i o heq
    refine if_neg ?_
    rintro rfl
    exact hq heq
  · rename_i heq
    exact absurd heq hc
  · rename_i heq
    exact absurd heq hr
  · rfl

/-- What a session has counted depends on its own events only. -/
lemma counted_own (i : ι) (org : ℕ) (tr : List (Happened ι)) :
    (ownerCount org i (own i tr)).map (·.counted) = (ownerCount org i tr).map (·.counted) := by
  have hstep : ∀ (w w' : Option OwnerCount) (ev : Happened ι), ev.pid = i →
      w.map (·.counted) = w'.map (·.counted) →
      (OwnerCount.step org i w ev).map (·.counted)
        = (OwnerCount.step org i w' ev).map (·.counted) := by
    intro w w' ev hi hw
    rw [OwnerCount.step, OwnerCount.step, if_pos hi, if_pos hi]
    split
    · split_ifs
      · rfl
      · exact hw
    · rfl
    · rfl
    · exact hw
  induction tr using List.reverseRecOn with
  | nil => rfl
  | append_singleton tr ev ih =>
      rw [own_append]
      by_cases hi : ev.pid = i
      · have hown : own i [ev] = [ev] := by simp [own, hi]
        rw [hown, ownerCount_snoc, ownerCount_snoc]
        exact hstep _ _ ev hi ih
      · rw [own_other hi, List.append_nil, ih, ownerCount_snoc, OwnerCount.step, if_neg hi,
          Option.map_map]
        rfl

/-! ### Commits on a count of two or more -/

/-- The transaction of session `i` has counted two owners at least, if it has counted. -/
def CountedTwo (org : ℕ) (i : ι) (h : List (Happened ι)) : Prop :=
  ∀ c, ownerCount org i h = some c → 2 ≤ c.counted

/-- Commits of a transaction that has counted are guaranteed to come on two owners at least. -/
def counting (org : ℕ) : Contract (sql accounts) ι (Database ι) where
  inv := fun _ _ => True
  assume := fun _ _ => True
  guar := fun i h ev => ev.stmt = .commit → CountedTwo org i h
  rely := fun _ _ _ _ => True

lemma counting_guar {q : Sql accounts} (hq : q ≠ .commit) :
    (counting org).guar i h ⟨i, q, s, s'⟩ := fun hc => absurd hc hq

lemma counting_compatible : (counting org).Compatible (postgres ι) where
  refl := fun _ _ _ => trivial
  trans := fun _ _ _ _ _ _ _ => trivial
  step := fun _ _ _ _ _ _ _ _ _ => trivial
  hangup := fun _ _ _ _ _ _ => ⟨trivial, counting_guar (q := .rollback) (by simp)⟩

variable {α : Type}

/-- What a program must end in: a result only on a count of two or more. -/
def TwoIfReturned (org : ℕ) (i : ι) : Post (sql accounts) ι (Database ι) Exn α :=
  fun h r _ => ∀ a, r = .ok a → CountedTwo org i h

lemma meets_ret (hc : CountedTwo org i h) (a : α) :
    Meets (counting org) (postgres ι) i (TwoIfReturned org i) (.ret a : Tx α) h s :=
  fun _ _ _ _ _ _ _ => hc

lemma meets_raise (e : Exn) :
    Meets (counting org) (postgres ι) i (TwoIfReturned org i) (.raise e : Tx α) h s :=
  fun _ _ _ _ _ a ha => by cases ha

lemma Meets.then_two {β : Type} {p : Tx β} {f : β → Tx α}
    (hp : Meets (counting org) (postgres ι) i (TwoIfReturned org i) p h s)
    (hf : ∀ h b s, CountedTwo org i h →
      Meets (counting org) (postgres ι) i (TwoIfReturned org i) (f b) h s) :
    Meets (counting org) (postgres ι) i (TwoIfReturned org i) (p.bind f) h s :=
  hp.bind counting_compatible (fun h b s hc => hf h b s (hc b rfl)) fun _ e _ _ a ha => by cases ha

/-- A program that counts no owners. -/
lemma meets_uncounted {p : Tx α} (hp : p.Issues (Uncounted org))
    (hc : CountedTwo org i h) :
    Meets (counting org) (postgres ι) i (TwoIfReturned org i) p h s := by
  refine (meets_of_issues (J := fun h _ => CountedTwo org i h) hp (fun _ _ _ hJ _ => hJ) ?_
    hc).mono fun h r s hJ _ _ => hJ
  intro tr q h s _ hq _ hJ _ _
  refine ⟨trivial, fun _ => hJ, fun c hc => ?_⟩
  rw [ownerCount_snoc] at hc
  by_cases hcommit : q = .commit
  · subst hcommit
    simp [OwnerCount.step] at hc
  by_cases hroll : q = .rollback
  · subst hroll
    simp [OwnerCount.step] at hc
  rw [step_own hcommit hroll hq] at hc
  exact hJ c hc

lemma meets_flush (known user : User) (hc : CountedTwo org i h) :
    Meets (counting org) (postgres ι) i (TwoIfReturned org i) (flush n known user) h s :=
  meets_uncounted (issues_flush fun _ => by simp [Uncounted]) hc

/-- The owner check lets a transaction go on only with two active owners. -/
lemma meets_ensureOwnerSafety (organizationId userId : ℕ) (known user : User)
    (newRole : Option UserRole) (activating : Option Bool) (hc : CountedTwo org i h) :
    Meets (counting org) (postgres ι) i (TwoIfReturned org i)
      (ensureOwnerSafety organizationId userId known user newRole activating) h s := by
  unfold ensureOwnerSafety
  split_ifs
  · exact meets_ret hc known
  · exact meets_ret hc known
  · refine Meets.then_two (meets_flush known user hc) fun h _ s hc => ?_
    have hcount : Meets (counting org) (postgres ι) i
        (fun h n _ => ∀ a, n = .ok a → ¬ a < 2 → CountedTwo org i h)
        (countActiveRole organizationId .owner) h s := by
      refine Meets.bind counting_compatible (meets_ask (P := fun _ => True)
        fun _ _ _ _ _ _ _ => ⟨trivial, counting_guar (by simp), trivial⟩) ?_ ?_
      · rintro h' rows s' ⟨s₁, -, rfl, hrows, -⟩ _ _ _ _ _ a ha htwo c hcount
        obtain rfl := Except.ok.inj ha
        obtain rfl := Except.ok.inj hrows
        rw [ownerCount_snoc, OwnerCount.step, if_pos rfl] at hcount
        dsimp only at hcount
        split_ifs at hcount with ho
        · obtain rfl := Option.some.inj hcount
          exact not_lt.mp htwo
        · exact hc c hcount
      · rintro _ e _ ⟨_, -, -, he, -⟩
        cases he
    refine hcount.bind counting_compatible (fun h active s hc => ?_) fun _ e _ _ a ha => by cases ha
    show Meets _ _ _ _ (if active < 2 then (.raise lastOwner : Tx User) else .ret user) h s
    split_ifs with htwo
    · exact meets_raise _
    · exact meets_ret (hc active rfl htwo) _

lemma meets_changeRole (organizationId userId : ℕ) (user : User) (newRole : Option UserRole)
    (hc : CountedTwo org i h) :
    Meets (counting org) (postgres ι) i (TwoIfReturned org i)
      (changeRole organizationId userId user newRole) h s := by
  cases newRole with
  | none => exact meets_ret hc user
  | some role =>
      unfold changeRole
      dsimp only
      split_ifs
      · exact meets_ret hc user
      · exact Meets.then_two (meets_ensureOwnerSafety _ _ _ _ _ _ hc) fun _ _ _ hc => meets_ret hc _

lemma meets_changeStatus (organizationId userId : ℕ) (known user : User) (newStatus : Option Bool)
    (hc : CountedTwo org i h) :
    Meets (counting org) (postgres ι) i (TwoIfReturned org i)
      (changeStatus organizationId userId known user newStatus) h s := by
  cases newStatus with
  | none => exact meets_ret hc (known, user)
  | some isActive =>
      unfold changeStatus
      dsimp only
      split_ifs
      · exact meets_ret hc (known, user)
      · exact Meets.then_two (meets_ensureOwnerSafety _ _ _ _ _ _ hc) fun _ _ _ hc => meets_ret hc _

lemma issues_getOr404 {φ : Sql accounts → Prop} (hφ : φ (.select .users n)) (organizationId actorId : ℕ)
    (actor : User) : (getOr404 organizationId actorId actor n).Issues φ := by
  unfold getOr404
  split_ifs
  · simp only [Prog.bind_eq, Prog.pure_eq, Prog.ret_bind]
    split <;> trivial
  · refine ⟨hφ, fun found => ?_⟩
    simp only [Prog.ret_bind]
    split <;> trivial

lemma issues_commit (a : α) :
    (Txn.Tx.commit.bind fun _ => .ret a : Tx α).Issues (Uncounted org) :=
  ⟨by simp [Uncounted], fun _ => trivial⟩

/-- **A count of two**: an update that has counted the owners commits only on a count of two or
more. -/
theorem meets_update (x : UpdateCall) :
    Meets (counting org) (postgres ι) i (fun _ _ _ => True) x.run [] s := by
  have hnil : CountedTwo org i ([] : List (Happened ι)) := fun c hc => by cases hc
  have hbody : Meets (counting org) (postgres ι) i (TwoIfReturned org i)
      (update x.organizationId x.actorId x.actor x.userId x.data) [] s := by
    refine Meets.then_two (meets_uncounted (issues_getOr404 (by simp [Uncounted]) _ _ _) hnil)
      fun h loaded s hc => ?_
    cases validateActor (x.userId = x.actorId) x.actor.role loaded.role x.data with
    | error e => exact meets_raise e
    | ok _ =>
        refine Meets.then_two (meets_changeRole _ _ _ _ hc) fun h user s hc => ?_
        refine Meets.then_two (meets_changeStatus _ _ _ _ _ hc) fun h state s hc => ?_
        refine Meets.then_two (meets_flush _ _ hc) fun h _ s hc => ?_
        exact meets_uncounted (issues_commit _) hc
  refine Meets.withSession counting_compatible hbody ?_
  exact fun _ _ _ _ _ _ _ _ _ _ => ⟨trivial, counting_guar (by simp), fun _ _ => trivial⟩

end Counts

/-! ### Runs -/

section Runs

variable {ι : Type} [DecidableEq ι] {s : Database ι} {org n : ℕ} {i j : ι} {target : ι → ℕ}
  {tr : List (Happened ι)}

/-- A commit that takes an active owner away comes on a count of the owners, and since that count
the commits of others have taken away no more of them than it counted beyond two. -/
def SafeCommit (org : ℕ) (past : List (Happened ι)) (ev : Happened ι) : Prop :=
  ev.stmt = .commit → ¬ owners org ev.before ⊆ owners org ev.after →
    ∃ c, ownerCount org ev.pid past = some c ∧ c.lost ≤ c.counted - 2

instance (org : ℕ) (past : List (Happened ι)) (ev : Happened ι) :
    Decidable (SafeCommit org past ev) :=
  haveI : Decidable (∃ c, ownerCount org ev.pid past = some c ∧ c.lost ≤ c.counted - 2) :=
    decidable_of_iff
      ((ownerCount org ev.pid past).any (fun c => decide (c.lost ≤ c.counted - 2)) = true)
      (by simp [Option.any_eq_true])
  haveI : Decidable (ev.stmt = .commit) := inferInstanceAs (Decidable ((ev.stmt : Sql accounts) = .commit))
  inferInstanceAs (Decidable (_ → _ → _))

/-- What a run of updates keeps. -/
structure OwnerKept (org : ℕ) (target : ι → ℕ) (tr : List (Happened ι)) (s : Database ι) : Prop where
  onTarget : OnTarget target s
  nonempty : (owners org s).Nonempty
  counted : ∀ i c, ownerCount org i tr = some c →
    c.counted ≤ ((owners org s).erase (target i)).card + 1 + c.lost

/-- A safe commit leaves an active owner. -/
lemma OwnerKept.commit (h : OwnerKept org target tr s)
    (hsafe : SafeCommit org tr ⟨i, .commit, s, s.commit i⟩) (htwo : CountedTwo org i tr) :
    (owners org (s.commit i)).Nonempty := by
  by_cases hsub : owners org s ⊆ owners org (s.commit i)
  · exact h.nonempty.mono hsub
  obtain ⟨c, hc, hlost⟩ := hsafe rfl hsub
  have hcounted := h.counted i c hc
  have hpos : 0 < ((owners org s).erase (target i)).card := by
    have := htwo c hc
    omega
  obtain ⟨m, hm⟩ := Finset.card_pos.mp hpos
  obtain ⟨hne, hm⟩ := Finset.mem_erase.mp hm
  exact ⟨m, (h.onTarget.mem_owners_commit hne).mpr hm⟩

/-- The owners other than one user, before and after a loss. -/
lemma card_erase_le (a b : Finset ℕ) (m : ℕ) :
    (a.erase m).card ≤ (b.erase m).card + (a \ b).card := by
  have hsub : a.erase m ⊆ b.erase m ∪ (a \ b) := by
    intro n hn
    obtain ⟨hne, hna⟩ := Finset.mem_erase.mp hn
    by_cases hnb : n ∈ b
    · exact Finset.mem_union_left _ (Finset.mem_erase.mpr ⟨hne, hnb⟩)
    · exact Finset.mem_union_right _ (Finset.mem_sdiff.mpr ⟨hna, hnb⟩)
  exact (Finset.card_le_card hsub).trans (Finset.card_union_le _ _)

/-- Every statement keeps what a run of updates keeps. -/
theorem OwnerKept.step (h : OwnerKept org target tr s) {q : Sql accounts}
    (hq : Targets (target i) q) (hsafe : SafeCommit org tr ⟨i, q, s, Db.effect i q s⟩)
    (htwo : q = .commit → CountedTwo org i tr) :
    OwnerKept org target (tr ++ [⟨i, q, s, Db.effect i q s⟩]) (Db.effect i q s) where
  onTarget := h.onTarget.effect hq
  nonempty := by
    by_cases hc : q = .commit
    · subst hc
      exact h.commit hsafe (htwo rfl)
    · rw [owners_effect hc]
      exact h.nonempty
  counted := by
    intro j c hc
    rw [ownerCount_snoc] at hc
    by_cases hij : i = j
    · subst hij
      by_cases hcommit : q = .commit
      · subst hcommit
        simp [OwnerCount.step] at hc
      rw [owners_effect hcommit]
      by_cases hcount : q = .scan (.activeRole org .owner)
      · subst hcount
        simp only [OwnerCount.step, if_true, Option.some.injEq] at hc
        subst hc
        exact h.onTarget.length_rows_le
      by_cases hroll : q = .rollback
      · subst hroll
        simp [OwnerCount.step] at hc
      rw [step_own hcommit hroll hcount] at hc
      exact h.counted i c hc
    · rw [OwnerCount.step, if_neg hij] at hc
      obtain ⟨c₀, hc₀, rfl⟩ := Option.map_eq_some_iff.mp hc
      have hcounted := h.counted j c₀ hc₀
      have hcard := card_erase_le (owners org s) (owners org (Db.effect i q s)) (target j)
      show c₀.counted ≤ _ + 1
        + (c₀.lost + (owners org s \ owners org (Db.effect i q s)).card)
      omega

lemma targets_flush (known user : User) : (flush n known user).Issues (Targets n) :=
  issues_flush fun _ known' user' m h => by
    obtain ⟨-, rfl⟩ := Sql.update.inj h
    rfl

lemma targets_ensureOwnerSafety (organizationId : ℕ) (known user : User) (newRole : Option UserRole)
    (activating : Option Bool) :
    (ensureOwnerSafety organizationId n known user newRole activating).Issues (Targets n) := by
  unfold ensureOwnerSafety
  split_ifs
  · trivial
  · trivial
  · refine Prog.issues_bind (targets_flush known user) fun _ => ?_
    refine Prog.issues_bind ⟨fun _ _ _ h => (by cases h), fun _ => trivial⟩ fun active => ?_
    show Prog.Issues _ (if active < 2 then (.raise lastOwner : Tx User) else .ret user)
    split_ifs <;> trivial

/-- An update writes its own target alone. -/
lemma targets_update (x : UpdateCall) : x.run.Issues (Targets x.userId) := by
  refine Tx.issues_withSession ?_ fun _ _ _ h => by cases h
  refine Prog.issues_bind (issues_getOr404 (fun _ _ _ h => by cases h) _ _ _) fun loaded => ?_
  cases validateActor (x.userId = x.actorId) x.actor.role loaded.role x.data with
  | error e => trivial
  | ok _ =>
      refine Prog.issues_bind ?_ fun user => Prog.issues_bind ?_ fun state =>
        Prog.issues_bind (targets_flush _ _) fun _ => ?_
      · unfold changeRole
        split
        · trivial
        · split_ifs
          · trivial
          · exact Prog.issues_bind (targets_ensureOwnerSafety _ _ _ _ _) fun _ => trivial
      · unfold changeStatus
        split
        · trivial
        · split_ifs
          · trivial
          · exact Prog.issues_bind (targets_ensureOwnerSafety _ _ _ _ _) fun _ => trivial
      · exact ⟨fun _ _ _ h => (by cases h), fun _ => trivial⟩

/-- In every run of updates whose commits are safe an active owner remains. -/
theorem owners_nonempty {calls : ι → UpdateCall} {c : Sessions ι User} (hs : s.Settled)
    (hown : (owners org s).Nonempty)
    (h : Pool.Reach (postgres ι) (.start (fun i => (calls i).run) s) c)
    (hsafe : Along (SafeCommit org) c.trace) : (owners org c.store).Nonempty := by
  have htwo := (h.meets (K := counting org) counting_compatible trivial
    (fun i => meets_update (calls i)) (along_iff_forall_mem.mpr fun _ _ => trivial)).2.1
  have hC := hsafe.and htwo
  have hstart : OwnerKept org (fun i => (calls i).userId) [] s := by
    refine ⟨fun n i u hd => ?_, hown, fun i c hc => by cases hc⟩
    rw [hs] at hd
    cases hd
  refine (Pool.Reach.invariant (fun i q => Targets (calls i).userId q) _
    (OwnerKept org fun i => (calls i).userId) (fun tr i q s hq _ hC hI => ?_) (fun _ _ _ _ h => by cases h)
    (fun i => targets_update (calls i)) hstart h hC).1.nonempty
  refine hI.step hq hC.1 fun hcommit c hc => ?_
  have hown := counted_own i org tr
  rw [hc] at hown
  obtain ⟨c', hc', hcounted⟩ := Option.map_eq_some_iff.mp hown
  calc
    2 ≤ c'.counted := hC.2 hcommit c' hc'
    _ = c.counted := hcounted

end Runs

/-! ### One update alone -/

section Alone

variable {ι : Type} [DecidableEq ι] {s s' : Database ι} {org n : ℕ} {i : ι} {known user : User}

/-- A flush run alone writes what has changed. -/
lemma alone_flush (hq : Quiet i s) (hv : s.view i .users n = some known) (user : User) :
    ∃ s', alone i (flush n known user) s = (.ok (), s') ∧ (user = known → s' = s)
      ∧ s'.view i .users = Function.update (s.view i .users) n (some user) := by
  unfold flush
  split_ifs with heq
  · subst heq
    exact ⟨s, rfl, fun _ => rfl, (Function.update_eq_self_iff.mpr hv.symm).symm⟩
  · have hwritten : s.written i (.flush known user : accounts.Update) n = some user :=
      Db.written_eq_some.mpr ⟨hq.heldByOther _ n, known, hv, rfl, User.flush_set_self known user⟩
    refine ⟨s.write i .users n user, ?_, fun h => absurd h heq, ?_⟩
    · have hupdate : alone i (Tx.update (S := accounts) (.flush known user) n : Tx (Option User)) s
          = (.ok (some user), s.write i .users n user) := by
        show (Except.ok (s.written i _ n), Db.effect i (.update _ n) s) = _
        rw [Db.effect, hwritten]
      rw [Prog.bind_eq, alone_bind, hupdate]
      rfl
    · exact Db.view_write ..

/-- The active owners that a session sees. -/
def ownersSeen (org : ℕ) (i : ι) (s : Database ι) : Finset ℕ :=
  (Finset.range s.fresh).filter fun n => (s.view i .users n).any (User.activeOwner org) = true

lemma mem_ownersSeen :
    n ∈ ownersSeen org i s ↔ ∃ u, s.view i .users n = some u ∧ u.activeOwner org = true := by
  rw [ownersSeen, Finset.mem_filter, Finset.mem_range, Option.any_eq_true]
  constructor
  · exact fun h => h.2
  · rintro ⟨u, hu, ho⟩
    exact ⟨Db.lt_fresh_of_view hu, u, hu, ho⟩

/-- With the target changed to an active owner, a session sees the target and the owners. -/
lemma ownersSeen_update (hs : s.Settled) (huser : user.activeOwner org = true)
    (hv : s'.view i .users = Function.update (s.view i .users) n (some user)) :
    ownersSeen org i s' = insert n (owners org s) := by
  ext m
  rw [mem_ownersSeen, Finset.mem_insert, mem_owners, hv]
  by_cases hm : m = n
  · subst hm
    simp only [Function.update_self, Option.some.injEq, true_or, iff_true]
    exact ⟨user, rfl, huser⟩
  · rw [Function.update_of_ne hm, Db.view_settled hs]
    simp [hm]

/-- The owner check looks only at an owner who is demoted or deactivated. -/
def checked (user : User) (newRole : Option UserRole) (activating : Option Bool) : Prop :=
  user.role = .owner ∧ (newRole.any (· ≠ .owner) || activating = some false) = true

instance (user : User) (newRole : Option UserRole) (activating : Option Bool) :
    Decidable (checked user newRole activating) :=
  inferInstanceAs (Decidable (_ ∧ _))

omit [DecidableEq ι] in
lemma ensureOwnerSafety_unchecked {newRole : Option UserRole} {activating : Option Bool}
    (h : ¬ checked user newRole activating) :
    ensureOwnerSafety org n known user newRole activating = .ret known := by
  unfold ensureOwnerSafety
  by_cases hrole : user.role = .owner
  · rw [if_neg (not_not_intro hrole), if_pos (by simpa using fun hc => h ⟨hrole, hc⟩)]
    rfl
  · exact if_pos hrole

/-- The owner check run alone counts what it sees after the flush. -/
lemma alone_ensureOwnerSafety (org : ℕ) (hq : Quiet i s) (hv : s.view i .users n = some known)
    {newRole : Option UserRole} {activating : Option Bool} (h : checked user newRole activating) :
    ∃ s', (user = known → s' = s)
      ∧ s'.view i .users = Function.update (s.view i .users) n (some user)
      ∧ alone i (ensureOwnerSafety org n known user newRole activating) s
        = (if (ownersSeen org i s').card < 2 then .error lastOwner else .ok user, s') := by
  obtain ⟨s', hflush, hsame, hview⟩ := alone_flush hq hv user
  refine ⟨s', hsame, hview, ?_⟩
  have hlength : (Db.rows s' i (.activeRole org .owner : accounts.Query)).length
      = (ownersSeen org i s').card := Db.length_rows ..
  unfold ensureOwnerSafety
  rw [if_neg (not_not_intro h.1), if_neg (by rw [h.2]; simp), Prog.bind_eq, alone_bind, hflush]
  show alone i (if (Db.rows s' i (.activeRole org .owner : accounts.Query)).length < 2
    then (.raise lastOwner : Tx User) else .ret user) s' = _
  rw [hlength]
  split_ifs <;> rfl

lemma ownersSeen_settled (hs : s.Settled) : ownersSeen org i s = owners org s := by
  ext m
  rw [mem_ownersSeen, mem_owners, Db.view_settled hs]

/-- The role change run alone: the demotion of an owner is refused unless there are two. -/
lemma alone_changeRole (hs : s.Settled) (hv : s.committed .users n = some user)
    (newRole : Option UserRole) :
    alone i (changeRole org n user newRole) s
      = (if checked user newRole none ∧ (owners org s).card < 2 then .error lastOwner
          else .ok { user with role := newRole.getD user.role }, s) := by
  cases newRole with
  | none =>
      rw [if_neg fun h => by simpa using h.1.2]
      rfl
  | some role =>
      unfold changeRole
      dsimp only
      by_cases hsame : role = user.role
      · subst hsame
        have hunchecked : ¬ checked user (some user.role) none := by
          rintro ⟨hrole, hcheck⟩
          simp [hrole] at hcheck
        rw [if_pos rfl, if_neg fun h => hunchecked h.1]
        rfl
      · rw [if_neg hsame, Prog.bind_eq, alone_bind]
        by_cases hcheck : checked user (some role) none
        · obtain ⟨s', hs', -, halone⟩ := alone_ensureOwnerSafety org (hs.quiet i)
            ((Db.view_settled hs i _ n).trans hv) hcheck
          rw [halone, hs' rfl, ownersSeen_settled hs]
          by_cases hlt : (owners org s).card < 2
          · rw [if_pos hlt, if_pos ⟨hcheck, hlt⟩]
          · rw [if_neg hlt, if_neg fun h => hlt h.2]
            rfl
        · rw [ensureOwnerSafety_unchecked hcheck, if_neg fun h => hcheck h.1]
          rfl

/-- The status change run alone: the deactivation of an active owner is refused unless there is
another one. -/
lemma alone_changeStatus (user : User) (hs : s.Settled) (hv : s.committed .users n = some known)
    (horg : user.organizationId = org) (newStatus : Option Bool) :
    (alone i (changeStatus org n known user newStatus) s).1 = .error lastOwner
      ↔ user.role = .owner ∧ user.isActive = true ∧ newStatus = some false
        ∧ (insert n (owners org s)).card < 2 := by
  cases newStatus with
  | none => simp [changeStatus, alone]
  | some isActive =>
      unfold changeStatus
      dsimp only
      by_cases hsame : isActive = user.isActive
      · rw [if_pos hsame]
        constructor
        · intro h
          cases h
        · rintro ⟨-, hactive, hstatus, -⟩
          rw [← hsame, Option.some.inj hstatus] at hactive
          cases hactive
      · rw [if_neg hsame, Prog.bind_eq, alone_bind]
        by_cases hcheck : checked user none (some isActive)
        · obtain ⟨s', -, hview, halone⟩ := alone_ensureOwnerSafety org
            (hs.quiet i) ((Db.view_settled hs i _ n).trans hv) hcheck
          have hfalse : isActive = false := by simpa using hcheck.2
          have hactive : user.isActive = true := by
            cases h : user.isActive
            · exact absurd (hfalse.trans h.symm) hsame
            · rfl
          have hseen : ownersSeen org i s' = insert n (owners org s) :=
            ownersSeen_update hs (by simp [User.activeOwner, horg, hcheck.1, hactive]) hview
          rw [halone, hseen]
          by_cases hlt : (insert n (owners org s)).card < 2
          · simp [hcheck.1, hactive, hfalse, hlt]
          · rw [if_neg hlt]
            constructor
            · intro h
              cases h
            · exact fun h => absurd h.2.2.2 hlt
        · rw [ensureOwnerSafety_unchecked hcheck]
          constructor
          · intro h
            cases h
          · rintro ⟨hrole, -, hstatus, -⟩
            exact absurd ⟨hrole, by simp [Option.some.inj hstatus]⟩ hcheck

/-- The end of an update never refuses for owner safety. -/
lemma alone_finish (data : UserUpdate) (known user : User) (s : Database ι) :
    (alone i (finish n data known user) s).1 ≠ .error lastOwner := by
  unfold finish
  generalize { user with passwordHash := data.passwordHash.or user.passwordHash } = user
  rw [Prog.bind_eq, alone_bind]
  have hflush : ∀ e, (alone i (flush n known user) s).1 = .error e → e = .other "StaleDataError" := by
    intro e he
    unfold flush at he
    split_ifs at he
    · cases he
    · have hupdate : alone i (Tx.update (S := accounts) (.flush known user) n : Tx (Option User)) s
          = (.ok (s.written i _ n), Db.effect i (.update _ n) s) := rfl
      rw [Prog.bind_eq, alone_bind, hupdate] at he
      dsimp only at he
      split at he
      · exact (Except.error.inj he).symm
      · cases he
  rcases hrun : alone i (flush n known user) s with ⟨r, s'⟩
  rw [hrun] at hflush
  cases r with
  | ok _ => exact fun h => by cases h
  | error e =>
      rw [hflush e rfl]
      exact fun h => by cases h

/-! ### What an update asks for -/

/-- The user as a validated update leaves it. -/
def UserUpdate.applied (data : UserUpdate) (u : User) : User :=
  { u with
    role := data.newRole.getD u.role
    fullName := data.fullName.getD u.fullName
    isActive := data.newStatus.getD u.isActive
    passwordHash := data.passwordHash.or u.passwordHash }

/-- The target of a call, loaded and accepted by `_validate_actor`. -/
def UpdateCall.Accepts (x : UpdateCall) (s : Database ι) (u : User) : Prop :=
  (if x.userId = x.actorId then some x.actor else s.committed .users x.userId).filter
      (·.organizationId = x.organizationId) = some u
    ∧ validateActor (x.userId = x.actorId) x.actor.role u.role x.data = .ok ()

/-- The call would leave its organization without an active owner. -/
def UpdateCall.LeavesNone (x : UpdateCall) (s : Database ι) : Prop :=
  ∃ u, x.Accepts s u ∧ ∀ m r, Function.update (s.committed .users) x.userId
    ((s.committed .users x.userId).map (User.flush u (x.data.applied u)).set) m = some r →
      r.activeOwner x.organizationId = false

/-- The call, run alone, is refused for owner safety. -/
def UpdateCall.Refused (x : UpdateCall) (i : ι) (s : Database ι) : Prop :=
  (alone i x.run s).1 = .error lastOwner

/-- The call demotes an inactive owner while there is one active owner. -/
def UpdateCall.DemotesInactive (x : UpdateCall) (s : Database ι) : Prop :=
  (∃ u, x.Accepts s u ∧ u.role = .owner ∧ u.isActive = false
      ∧ ∃ role, x.data.newRole = some role ∧ role ≠ .owner)
    ∧ (owners x.organizationId s).card = 1

variable {x : UpdateCall} {u : User}

omit [DecidableEq ι] in
lemma UpdateCall.Accepts.unique {u' : User} (h : x.Accepts s u) (h' : x.Accepts s u') : u = u' :=
  Option.some.inj (h.1.symm.trans h'.1)

omit [DecidableEq ι] in
/-- An update of oneself changes neither role nor status; any other meets a committed user. -/
lemma UpdateCall.Accepts.cases (h : x.Accepts s u) :
    u.organizationId = x.organizationId
      ∧ (x.data.role = none ∧ x.data.isActive = none
        ∨ s.committed .users x.userId = some u) := by
  obtain ⟨hload, horg⟩ := Option.filter_eq_some_iff.mp h.1
  refine ⟨by simpa using horg, ?_⟩
  by_cases hself : x.userId = x.actorId
  · refine Or.inl ?_
    have hvalid := h.2
    rw [decide_eq_true hself] at hvalid
    rcases hrole : x.data.role with _ | _ | role
    · rcases hstatus : x.data.isActive with _ | status
      · exact ⟨rfl, rfl⟩
      · rw [validateActor, hrole, hstatus] at hvalid
        cases hvalid
    · rw [validateActor, hrole] at hvalid
      cases hvalid
    · rw [validateActor, hrole] at hvalid
      cases hvalid
  · rw [if_neg hself] at hload
    exact Or.inr hload

lemma alone_getOr404 (hs : s.Settled) (organizationId actorId : ℕ) (actor : User) :
    alone i (getOr404 organizationId actorId actor n) s
      = (match (if n = actorId then some actor else s.committed .users n).filter
            (·.organizationId = organizationId) with
          | none => .error (.app ⟨"user.not_found", "User not found", 404⟩ false)
          | some u => .ok u, s) := by
  have hfound : ∀ found : Option User, alone i
      (match found.filter (·.organizationId = organizationId) with
        | none => raise "user.not_found" "User not found" 404
        | some user => pure user : Tx User) s
      = (match found.filter (·.organizationId = organizationId) with
          | none => .error (.app ⟨"user.not_found", "User not found", 404⟩ false)
          | some u => .ok u, s) := by
    intro found
    split <;> rfl
  unfold getOr404
  split_ifs with hself
  · exact hfound _
  · show alone i (match (s.view i .users n).filter (·.organizationId = organizationId) with
      | none => raise "user.not_found" "User not found" 404
      | some user => pure user : Tx User) s = _
    rw [Db.view_settled hs]
    exact hfound _

/-- The checks on the actor raise errors of their own. -/
lemma validateActor_ne (isSelf : Bool) (actor target : UserRole) (data : UserUpdate) :
    validateActor isSelf actor target data ≠ .error lastOwner := by
  have hrole : ∀ role, validateRole isSelf actor target role ≠ .error lastOwner := by
    intro role
    rcases role with _ | _ | role
    · simp [validateRole]
    · simp [validateRole, lastOwner, appError]
    · simp only [validateRole]
      split_ifs <;> simp [lastOwner, appError, manageDenied]
  have hstatus : ∀ status, validateStatus isSelf actor target status ≠ .error lastOwner := by
    intro status
    cases status with
    | none => simp [validateStatus]
    | some status =>
        simp only [validateStatus]
        split_ifs <;> simp [lastOwner, appError, manageDenied]
  unfold validateActor
  cases hr : validateRole isSelf actor target data.role with
  | error e =>
      intro h
      exact hrole _ (hr.trans h)
  | ok _ => exact hstatus _

/-- What an accepted call answers when it is run alone. -/
lemma alone_accepted (hs : s.Settled) (h : x.Accepts s u) :
    x.Refused i s ↔ s.committed .users x.userId = some u
      ∧ ((checked u x.data.newRole none ∧ (owners x.organizationId s).card < 2)
        ∨ (x.data.newRole.getD u.role = .owner ∧ u.isActive = true
          ∧ x.data.newStatus = some false
          ∧ (insert x.userId (owners x.organizationId s)).card < 2)) := by
  have hbody : (alone i x.run s).1 = (alone i
      ((changeRole x.organizationId x.userId u x.data.newRole).bind fun user =>
        (changeStatus x.organizationId x.userId u
            { user with fullName := x.data.fullName.getD user.fullName } x.data.newStatus).bind
          fun state => finish x.userId x.data state.1 state.2) s).1 := by
    rw [UpdateCall.run, alone_withSession, update, Prog.bind_eq, alone_bind, alone_getOr404 hs, h.1]
    dsimp only
    rw [h.2]
    rfl
  rw [UpdateCall.Refused, hbody]
  obtain ⟨horg, ⟨hrole, hstatus⟩ | hv⟩ := h.cases
  · have hnewRole : x.data.newRole = none := by rw [UserUpdate.newRole, hrole]; rfl
    have hnewStatus : x.data.newStatus = none := by rw [UserUpdate.newStatus, hstatus]; rfl
    rw [hnewRole, hnewStatus]
    change (alone i (finish x.userId x.data u _) s).1 = _ ↔ _
    constructor
    · exact fun h => absurd h (alone_finish _ _ _ _)
    · rintro ⟨-, ⟨hcheck, -⟩ | ⟨-, -, hnone, -⟩⟩
      · exact absurd hcheck.2 (by simp)
      · cases hnone
  · rw [alone_bind, alone_changeRole hs hv]
    by_cases hcheck : checked u x.data.newRole none ∧ (owners x.organizationId s).card < 2
    · rw [if_pos hcheck]
      exact ⟨fun _ => ⟨hv, Or.inl hcheck⟩, fun _ => rfl⟩
    · rw [if_neg hcheck]
      dsimp only
      rw [alone_bind]
      have hstatus := alone_changeStatus (i := i) { u with
          role := x.data.newRole.getD u.role
          fullName := x.data.fullName.getD u.fullName } hs hv horg x.data.newStatus
      rcases hrun : alone i (changeStatus x.organizationId x.userId u { u with
          role := x.data.newRole.getD u.role
          fullName := x.data.fullName.getD u.fullName } x.data.newStatus) s with ⟨r, s'⟩
      rw [hrun] at hstatus
      cases r with
      | error e =>
          simp only [Except.error.injEq] at hstatus ⊢
          rw [hstatus]
          exact ⟨fun h => ⟨hv, Or.inr h⟩, fun h => h.2.resolve_left hcheck⟩
      | ok state =>
          refine ⟨fun h => absurd h (alone_finish _ _ _ _), fun h => ?_⟩
          cases hstatus.mpr (h.2.resolve_left hcheck)

/-- A refusal comes from an accepted call. -/
lemma UpdateCall.Refused.accepts (hs : s.Settled) (h : x.Refused i s) : ∃ u, x.Accepts s u := by
  by_contra hnone
  push Not at hnone
  rw [UpdateCall.Refused, UpdateCall.run, alone_withSession, update, Prog.bind_eq, alone_bind,
    alone_getOr404 hs] at h
  cases hfound : (if x.userId = x.actorId then some x.actor else s.committed .users x.userId).filter
      (·.organizationId = x.organizationId) with
  | none =>
      rw [hfound] at h
      exact absurd h (by simp [lastOwner, appError])
  | some u =>
      rw [hfound] at h
      dsimp only at h
      cases hvalid : validateActor (x.userId = x.actorId) x.actor.role u.role x.data with
      | error e =>
          rw [hvalid] at h
          change Except.error e = _ at h
          obtain rfl := Except.error.inj h
          exact validateActor_ne _ _ _ _ hvalid
      | ok _ => exact hnone u ⟨hfound, hvalid⟩

omit [DecidableEq ι] in
lemma mem_owners_of_committed (hv : s.committed .users n = some u) (horg : u.organizationId = org) :
    n ∈ owners org s ↔ u.role = .owner ∧ u.isActive = true := by
  rw [mem_owners]
  constructor
  · rintro ⟨w, hw, ho⟩
    obtain rfl := Option.some.inj (hw.symm.trans hv)
    simpa [User.activeOwner, horg] using ho
  · exact fun h => ⟨u, hv, by simp [User.activeOwner, horg, h.1, h.2]⟩

/-- A call without role and status leaves the owners alone. -/
lemma activeOwner_applied {data : UserUpdate} (hrole : data.role = none)
    (hstatus : data.isActive = none) (w : User) :
    ((User.flush u (data.applied u)).set w).activeOwner org = w.activeOwner org := by
  have hr : (data.applied u).role = u.role := by
    simp [UserUpdate.applied, UserUpdate.newRole, hrole]
  have ha : (data.applied u).isActive = u.isActive := by
    simp [UserUpdate.applied, UserUpdate.newStatus, hstatus]
  have ho : (data.applied u).organizationId = u.organizationId := rfl
  simp only [User.activeOwner, User.flush, hr, ha, ho, column_self]

omit [DecidableEq ι] in
/-- What an accepted call leaves: no owner, when its target is the only one and does not stay one. -/
lemma leavesNone_iff (hown : (owners x.organizationId s).Nonempty) (h : x.Accepts s u) :
    x.LeavesNone s ↔ s.committed .users x.userId = some u
      ∧ owners x.organizationId s = {x.userId}
      ∧ ((∃ role, x.data.newRole = some role ∧ role ≠ .owner) ∨ x.data.newStatus = some false) := by
  obtain ⟨horg, hcase⟩ := h.cases
  constructor
  · rintro ⟨u', h', hnone⟩
    obtain rfl := h'.unique h
    have honly : ∀ m ∈ owners x.organizationId s, m = x.userId := by
      intro m hm
      obtain ⟨w, hw, ho⟩ := mem_owners.mp hm
      by_contra hne
      rw [hnone m w (by rw [Function.update_of_ne hne, hw])] at ho
      cases ho
    have hsingle : owners x.organizationId s = {x.userId} :=
      Finset.eq_singleton_iff_nonempty_unique_mem.mpr ⟨hown, honly⟩
    obtain ⟨w, hw, ho⟩ := mem_owners.mp (hsingle ▸ Finset.mem_singleton_self x.userId)
    have hleft := hnone x.userId _ (by rw [Function.update_self, hw]; rfl)
    rcases hcase with ⟨hrole, hstatus⟩ | hv
    · rw [activeOwner_applied hrole hstatus, ho] at hleft
      cases hleft
    · obtain rfl := Option.some.inj (hw.symm.trans hv)
      refine ⟨hv, hsingle, ?_⟩
      rw [User.flush_set_self] at hleft
      simp only [User.activeOwner, Bool.and_eq_true, decide_eq_true_eq] at ho
      by_contra hkept
      push Not at hkept
      have hrole : (x.data.applied w).role = .owner := by
        rw [UserUpdate.applied]
        cases hn : x.data.newRole with
        | none => exact ho.1.2
        | some role => exact hkept.1 role hn
      have hactive : (x.data.applied w).isActive = true := by
        rw [UserUpdate.applied]
        cases hn : x.data.newStatus with
        | none => exact ho.2
        | some status =>
            cases status
            · exact absurd hn hkept.2
            · rfl
      have ho' : (x.data.applied w).organizationId = x.organizationId := ho.1.1
      simp [User.activeOwner, hrole, hactive, ho'] at hleft
  · rintro ⟨hv, hsingle, hchange⟩
    refine ⟨u, h, fun m r hr => ?_⟩
    by_cases hm : m = x.userId
    · subst hm
      rw [Function.update_self, hv] at hr
      obtain rfl := Option.some.inj hr
      rw [User.flush_set_self]
      rcases hchange with ⟨role, hrole, hne⟩ | hstatus
      · simp [User.activeOwner, UserUpdate.applied, hrole, hne]
      · simp [User.activeOwner, UserUpdate.applied, hstatus]
    · rw [Function.update_of_ne hm] at hr
      by_contra ho
      have hmem : m ∈ owners x.organizationId s := mem_owners.mpr ⟨r, hr, by simpa using ho⟩
      rw [hsingle, Finset.mem_singleton] at hmem
      exact hm hmem

omit [DecidableEq ι] in
lemma demotesInactive_iff (h : x.Accepts s u) :
    x.DemotesInactive s ↔ (u.role = .owner ∧ u.isActive = false
        ∧ ∃ role, x.data.newRole = some role ∧ role ≠ .owner)
      ∧ (owners x.organizationId s).card = 1 := by
  constructor
  · rintro ⟨⟨u', h', hdemotes⟩, hcard⟩
    obtain rfl := h'.unique h
    exact ⟨hdemotes, hcard⟩
  · exact fun hdemotes => ⟨⟨u, h, hdemotes.1⟩, hdemotes.2⟩

/-- Run alone, the owner check refuses exactly the calls that would leave no active owner, unless it
meets the demotion of an inactive owner. -/
lemma refused_iff (hs : s.Settled) (hown : (owners x.organizationId s).Nonempty) :
    (x.Refused i s ↔ x.LeavesNone s) ↔ ¬ x.DemotesInactive s := by
  by_cases hacc : ∃ u, x.Accepts s u
  swap
  · have hrefused : ¬ x.Refused i s := fun h => hacc (h.accepts hs)
    have hleaves : ¬ x.LeavesNone s := fun ⟨u, h, _⟩ => hacc ⟨u, h⟩
    have hdemotes : ¬ x.DemotesInactive s := fun ⟨⟨u, h, _⟩, _⟩ => hacc ⟨u, h⟩
    simp [hrefused, hleaves, hdemotes]
  obtain ⟨u, h⟩ := hacc
  rw [alone_accepted hs h, leavesNone_iff hown h, demotesInactive_iff h]
  obtain ⟨horg, ⟨hrole, hstatus⟩ | hv⟩ := h.cases
  · have hnewRole : x.data.newRole = none := by rw [UserUpdate.newRole, hrole]; rfl
    have hnewStatus : x.data.newStatus = none := by rw [UserUpdate.newStatus, hstatus]; rfl
    simp [hnewRole, hnewStatus, checked]
  have hmem := mem_owners_of_committed (n := x.userId) hv horg
  have hpos : 0 < (owners x.organizationId s).card := hown.card_pos
  by_cases hdemotes : ∃ role, x.data.newRole = some role ∧ role ≠ .owner
  · obtain ⟨role, hnewRole, hne⟩ := hdemotes
    have hchecked : checked u (some role) none ↔ u.role = .owner := by
      simp [checked, hne]
    rw [hnewRole]
    by_cases howner : u.role = .owner
    · cases hactive : u.isActive with
      | true =>
          have hin : x.userId ∈ owners x.organizationId s := hmem.mpr ⟨howner, hactive⟩
          have hsingle : owners x.organizationId s = {x.userId}
              ↔ (owners x.organizationId s).card < 2 := by
            constructor
            · intro h
              rw [h]
              simp
            · intro hlt
              obtain ⟨m, hm⟩ := Finset.card_eq_one.mp (le_antisymm (Nat.lt_succ_iff.mp hlt) hpos)
              rw [hm] at hin ⊢
              rw [Finset.mem_singleton.mp hin]
          simp [hv, hchecked, howner, hsingle, hne]
      | false =>
          have hnot : owners x.organizationId s ≠ {x.userId} := by
            intro hsingle
            have hin : x.userId ∈ owners x.organizationId s := by
              rw [hsingle]
              exact Finset.mem_singleton_self _
            rw [(hmem.mp hin).2] at hactive
            cases hactive
          have hcard : (owners x.organizationId s).card < 2
              ↔ (owners x.organizationId s).card = 1 := by omega
          simp [hv, hchecked, howner, hnot, hne, hcard]
    · have hnot : owners x.organizationId s ≠ {x.userId} := by
        intro hsingle
        have hin : x.userId ∈ owners x.organizationId s := by
          rw [hsingle]
          exact Finset.mem_singleton_self _
        exact howner (hmem.mp hin).1
      simp [hv, hchecked, howner, hnot, hne]
  · have hunchecked : ¬ checked u x.data.newRole none := by
      rintro ⟨-, hcheck⟩
      cases hnewRole : x.data.newRole with
      | none => simp [hnewRole] at hcheck
      | some role => exact hdemotes ⟨role, hnewRole, by simpa [hnewRole] using hcheck⟩
    have hlast : (x.data.newRole.getD u.role = .owner ∧ u.isActive = true
          ∧ x.data.newStatus = some false ∧ (insert x.userId (owners x.organizationId s)).card < 2)
        ↔ owners x.organizationId s = {x.userId} ∧ x.data.newStatus = some false := by
      constructor
      · rintro ⟨-, -, hstatus, hlt⟩
        refine ⟨?_, hstatus⟩
        obtain ⟨m, hm⟩ := Finset.card_eq_one.mp
          (le_antisymm (Nat.lt_succ_iff.mp hlt) (Finset.card_pos.mpr (Finset.insert_nonempty _ _)))
        have hn : x.userId = m := by
          rw [← Finset.mem_singleton, ← hm]
          exact Finset.mem_insert_self _ _
        rw [← hn] at hm
        refine (Finset.subset_singleton_iff.mp ?_).resolve_left hown.ne_empty
        rw [← hm]
        exact Finset.subset_insert _ _
      · rintro ⟨hsingle, hstatus⟩
        obtain ⟨howner, hactive⟩ := hmem.mp (by rw [hsingle]; exact Finset.mem_singleton_self _)
        refine ⟨?_, hactive, hstatus, ?_⟩
        · cases hnewRole : x.data.newRole with
          | none => exact howner
          | some role =>
              by_contra hne
              exact hdemotes ⟨role, hnewRole, hne⟩
        · rw [hsingle]
          simp
    simp only [hunchecked, false_and, false_or, hlast, hdemotes, hv, true_and, and_false,
      not_false_eq_true]

end Alone

/-! ### The owner check -/

section Main

variable {ι : Type} [DecidableEq ι] {s : Database ι} {org : ℕ}

/-- **An active owner remains**, from any store on which no transaction is open and the organization
has one: in every run of updates whose commits are safe; and an update run alone is refused for owner
safety exactly when it would leave no active owner, unless it demotes an inactive owner while there
is one active owner. -/
theorem active_owner_kept (hs : s.Settled) (hown : (owners org s).Nonempty) :
    (∀ (calls : ι → UpdateCall) (c : Sessions ι User),
        Pool.Reach (postgres ι) (.start (fun i => (calls i).run) s) c →
        Along (SafeCommit org) c.trace → (owners org c.store).Nonempty)
      ∧ ∀ (x : UpdateCall) (i : ι), x.organizationId = org →
        ((x.Refused i s ↔ x.LeavesNone s) ↔ ¬ x.DemotesInactive s) := by
  refine ⟨fun calls c h hsafe => owners_nonempty hs hown h hsafe, fun x i hx => ?_⟩
  subst hx
  exact refused_iff hs hown

/-- A member of organization 1. -/
def someUser (role : UserRole) (isActive : Bool) : User where
  organizationId := 1
  email := "a@b.c"
  fullName := ⟨"A", by decide⟩
  role := role
  isActive := isActive
  passwordHash := none
  lastLoginAt := none
  tokenVersion := 0
  failedLoginAttempts := 0
  lockedUntil := none
  emailVerifiedAt := none
  emailVerificationRequired := false
  mfaEnabled := false
  mfaSecretEnc := none
  mfaFailedAttempts := 0
  mfaLockedUntil := none

/-- Two users of organization 1. -/
def twoUsers (u v : User) : Database ι :=
  Db.init (fun t n => match t, n with
    | .users, 0 => some u
    | .users, 1 => some v
    | _, _ => none) 2 (.still 0) fun t n hn => by
      match n with
      | 0 => omega
      | 1 => omega
      | n + 2 => cases t <;> rfl

/-- Owner `actorId` demotes the other one. -/
def demotes (actorId userId : ℕ) : UpdateCall where
  organizationId := 1
  actorId := actorId
  actor := someUser .owner true
  userId := userId
  data := ⟨some (some .admin), none, none, none⟩

/-- Two owners demote each other. -/
def eachOther : Fin 2 → UpdateCall
  | 0 => demotes 0 1
  | 1 => demotes 1 0

/-- One of two owners is demoted, and the other remains. -/
theorem active_owner_kept_two :
    ∃ c : Sessions (Fin 2) User,
      Pool.Reach (postgres (Fin 2)) (.start (fun i => (eachOther i).run)
          (twoUsers (someUser .owner true) (someUser .owner true))) c
        ∧ owners 1 c.store = {0} ∧ (owners 1 c.store).Nonempty := by
  have hrun : (((Pool.start (fun i => (eachOther i).run)
      (twoUsers (someUser .owner true) (someUser .owner true))).run (postgres (Fin 2))
        (List.replicate 5 (.step 0))).any fun c =>
          decide (owners 1 c.store = {0}) && decide (Along (SafeCommit 1) c.trace)) = true := by
    decide +kernel
  obtain ⟨c, hc, hP⟩ := Pool.exists_of_run hrun
  obtain ⟨hone, hsafe⟩ := Bool.and_eq_true_iff.mp hP
  have hs : (twoUsers (someUser .owner true) (someUser .owner true) : Database (Fin 2)).Settled :=
    Db.settled_init _ _ _ _
  have hown : (owners 1 (twoUsers (someUser .owner true) (someUser .owner true) :
      Database (Fin 2))).Nonempty := ⟨0, by decide⟩
  exact ⟨c, hc, of_decide_eq_true hone,
    (active_owner_kept hs hown).1 eachOther c hc (of_decide_eq_true hsafe)⟩

/-- Two owners who demote each other both succeed, which leaves no owner; and the demotion of an
inactive owner, which would leave one, is refused. -/
theorem no_active_owner :
    (∃ c : Sessions (Fin 2) User,
      Pool.Reach (postgres (Fin 2)) (.start (fun i => (eachOther i).run)
          (twoUsers (someUser .owner true) (someUser .owner true))) c
        ∧ owners 1 c.store = ∅)
      ∧ (demotes 0 1).Refused (0 : Fin 2) (twoUsers (someUser .owner true) (someUser .owner false))
      ∧ ¬ (demotes 0 1).LeavesNone
          (twoUsers (someUser .owner true) (someUser .owner false) : Database (Fin 2)) := by
  refine ⟨?_, ?_, ?_⟩
  · have hrun : (((Pool.start (fun i => (eachOther i).run)
        (twoUsers (someUser .owner true) (someUser .owner true))).run (postgres (Fin 2))
          (List.replicate 2 (.step 0) ++ List.replicate 5 (.step 1) ++ List.replicate 3 (.step 0))).any
            fun c => decide (owners 1 c.store = ∅)) = true := by
      decide +kernel
    obtain ⟨c, hc, hP⟩ := Pool.exists_of_run hrun
    exact ⟨c, hc, of_decide_eq_true hP⟩
  · rfl
  · rintro ⟨u, -, hnone⟩
    have h := hnone 0 (someUser .owner true) rfl
    cases h

end Main

end Accounts
