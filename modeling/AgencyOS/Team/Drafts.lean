import AgencyOS.Team.TeamService
import AgencyOS.Txn.Monitor

/-!
What the calls of the team service have read, written and committed.

A call reads an invite, and later flushes what it has made of it; a new user is only committed together
with the acceptance of an invite.

* `Draft`, `Ghost`, `calls`: what a session has done, and the monitor of it;
* `Yields`, `yields_run`: **every call of the service obeys the monitor**;
* `Sound`, `Draft.Tracks`, `Tracks`: what holds of every store, and what the ghost of a session says of
  its uncommitted rows;
* `Tracks.own`, `Tracks.other`, `Sound.effect`: one statement keeps that, whatever else is going on.
-/

namespace Team

open Txn Accounts

/-! ### What a session has done -/

/-- What the open transaction of a session has written: the statuses by which it closes invites, a new
invite, or a new user and then the acceptance of an invite by that user. -/
inductive Draft where
  | closing (rows : ℕ → Option InviteStatus)
  | invited
  | account (userId : ℕ) (x : NewUser)
  | acceptance (userId : ℕ) (x : NewUser) (inviteId : ℕ)

namespace Draft

/-- Nothing has been written. -/
def blank : Draft := closing fun _ => none

/-- The statuses that invites have been given. -/
def statuses : Draft → ℕ → Option InviteStatus
  | closing rows => rows
  | acceptance _ _ inviteId => Function.update (fun _ => none) inviteId (some .accepted)
  | _ => fun _ => none

/-- The session may still read. -/
def Reads : Draft → Prop
  | closing _ | account .. => True
  | _ => False

end Draft

/-- Two versions of an invite are for the same account. -/
structure SameTerms (v r : TeamInvite) : Prop where
  organization : r.organizationId = v.organizationId
  email : r.email = v.email
  role : r.role = v.role

/-- The account that the invite is for. -/
structure AccountOf (v : TeamInvite) (r : User) : Prop where
  organization : r.organizationId = v.organizationId
  email : r.email = v.email
  role : r.role = v.role

/-- What a transaction may flush of an invite: it closes one, or it has the new user accept one. -/
def Draft.Flushes (loaded new : TeamInvite) : Draft → Prop
  | closing _ => SameTerms loaded new ∧ new.status ≠ loaded.status
      ∧ (new.status = .revoked ∨ new.status = .expired)
      ∧ new.acceptedUserId = loaded.acceptedUserId
  | account userId x => SameTerms loaded new ∧ loaded.status = .pending ∧ new.status = .accepted
      ∧ new.acceptedUserId = some userId ∧ AccountOf loaded x.row
  | _ => False

/-- The draft after a flush. -/
def Draft.flushed (inviteId : ℕ) (status : InviteStatus) : Draft → Draft
  | closing rows => closing (Function.update rows inviteId (some status))
  | account userId x => acceptance userId x inviteId
  | d => d

/-- What a session has read, what its transaction has written, and the statuses that it has committed. -/
structure Ghost where
  seen : List (ℕ × TeamInvite)
  draft : Draft
  committed : ℕ → Option InviteStatus

/-- The invites among the rows of a bulk read. -/
def invitesOf : (q : Query) → List (ℕ × Row q.source) → List (ℕ × TeamInvite)
  | .userByEmail _, _ => []
  | .byTokenHash _, rows | .pendingByEmail .., rows | .stale .., rows | .ofOrganization _, rows => rows

/-- After a statement with its answer. -/
def Ghost.step (g : Ghost) : (q : Sql team) → q.Resp → Ghost
  | .select Table.teamInvites inviteId, answer =>
      { g with seen := (answer.toList.map fun r => (inviteId, r)) ++ g.seen }
  | .scan q, rows => { g with seen := invitesOf q rows ++ g.seen }
  | .update (Update.flush _ new) inviteId, answer =>
      if answer.isSome then { g with draft := g.draft.flushed inviteId new.status } else g
  | .insert (Insert.user x), userId => { g with draft := .account userId x }
  | .insert (Insert.invite _), _ => { g with draft := .invited }
  | .commit, _ =>
      { g with draft := .blank, committed := fun n => (g.draft.statuses n).or (g.committed n) }
  | .rollback, _ => { g with draft := .blank }
  | _, _ => g

/-- Only a commit adds to what has been committed. -/
lemma Ghost.committed_step (g : Ghost) {q : Sql team} (hq : q ≠ .commit) (answer : q.Resp) :
    (g.step q answer).committed = g.committed := by
  cases q with
  | select t n => cases t <;> rfl
  | update u n =>
      obtain ⟨loaded, new⟩ := u
      cases answer <;> rfl
  | insert x => cases x <;> rfl
  | commit => exact absurd rfl hq
  | scan | rollback | now => rfl

/-- A session reads before it accepts, flushes what it has read, and inserts with nothing else written;
a new user is not committed without the acceptance of an invite. -/
def Ghost.Allows (g : Ghost) : Sql team → Prop
  | .select .. | .scan _ => g.draft.Reads
  | .update (Update.flush loaded new) inviteId =>
      (inviteId, loaded) ∈ g.seen ∧ g.draft.Flushes loaded new
  | .insert _ => g.draft = .blank
  | .commit => ∀ userId x, g.draft ≠ .account userId x
  | _ => True

/-- The monitor of the calls; a refused statement has done nothing. -/
def calls : Monitor (indexedSql team) Ghost where
  start := ⟨[], .blank, fun _ => none⟩
  step g x := match x.2 with
    | .ok answer => g.step x.1 answer
    | .error _ => g
  allows := Ghost.Allows

/-! ### The calls obey -/

/-- The program obeys the monitor, and ends in `Q` whenever it returns. -/
def Yields {α : Type} (Q : Ghost → α → Prop) (p : TeamTx α) (g : Ghost) : Prop :=
  p.Obeys calls (fun g r => ∀ a, r = .ok a → Q g a) g

section Yields

variable {α β : Type} {Q : Ghost → α → Prop} {R : Ghost → β → Prop} {p : TeamTx α} {g : Ghost}

lemma yields_ret {a : α} (h : Q g a) : Yields Q (.ret a) g := fun b hb => by
  obtain rfl := Except.ok.inj hb
  exact h

lemma yields_raise (e : TeamError) : Yields Q (.raise e) g := fun a ha => by cases ha

lemma Yields.bind {f : α → TeamTx β} (hp : Yields Q p g) (hf : ∀ g a, Q g a → Yields R (f a) g) :
    Yields R (p.bind f) g :=
  Prog.Obeys.bind hp (fun g a hQ => hf g a (hQ a rfl)) fun g e _ b hb => by cases hb

lemma Yields.tryCatch {f : TeamError → TeamTx α} (hp : Yields Q p g) (hf : ∀ g e, Yields Q (f e) g) :
    Yields Q (p.tryCatch f) g :=
  Prog.Obeys.tryCatch hp (fun _ _ hQ => hQ) fun g e _ => hf g e

lemma Yields.mono {Q' : Ghost → α → Prop} (hp : Yields Q p g) (hQ : ∀ g a, Q g a → Q' g a) :
    Yields Q' p g :=
  Prog.Obeys.mono hp fun g _ h a ha => hQ g a (h a ha)

/-- One statement: a refused one raises. -/
lemma yields_execute {q : Sql team} {Q : Ghost → q.Resp → Prop} (hallow : g.Allows q)
    (hok : ∀ a, Q (g.step q a) a) : Yields Q (execute q) g := by
  refine ⟨hallow, fun answer => ?_⟩
  cases answer with
  | ok a => exact yields_ret (hok a)
  | error _ => exact yields_raise _

lemma yields_tally {f : β → TeamTx ℕ} {J : Ghost → Prop} :
    ∀ (xs : List β), (∀ x ∈ xs, ∀ g, J g → Yields (fun g _ => J g) (f x) g) → ∀ g, J g →
      Yields (fun g _ => J g) (Prog.tally xs f) g
  | [], _, _, hg => yields_ret hg
  | x :: xs, hf, g, hg => by
      refine (hf x List.mem_cons_self g hg).bind fun g n hg => ?_
      refine (yields_tally xs (fun y hy => hf y (List.mem_cons_of_mem _ hy)) g hg).bind fun g m hg => ?_
      exact yields_ret hg

end Yields

/-- The session has only read since. -/
structure ReadsOn (g g' : Ghost) : Prop where
  draft : g'.draft = g.draft
  seen : g.seen ⊆ g'.seen

lemma ReadsOn.refl (g : Ghost) : ReadsOn g g := ⟨rfl, fun _ h => h⟩

section Calls

variable {g : Ghost} {env : Env}

lemma yields_utcnow : Yields (fun g' _ => ReadsOn g g') utcnow g :=
  yields_execute trivial fun _ => .refl g

lemma yields_scan (hg : g.draft.Reads) (q : Query) :
    Yields (fun g' rows => ReadsOn g g' ∧ ∀ x ∈ invitesOf q rows, x ∈ g'.seen) (execute (.scan q)) g :=
  yields_execute hg fun _ => ⟨⟨rfl, fun _ hx => List.mem_append_right _ hx⟩,
    fun _ hx => List.mem_append_left _ hx⟩

lemma yields_scalarOneOrNone {ρ : Type} (rows : List (ℕ × ρ)) :
    Yields (fun g' r => g' = g ∧ ∀ x, r = some x → x ∈ rows) (scalarOneOrNone rows) g := by
  match rows with
  | [] => exact yields_ret ⟨rfl, fun x hx => by cases hx⟩
  | [row] =>
      refine yields_ret ⟨rfl, fun x hx => ?_⟩
      obtain rfl := Option.some.inj hx
      exact List.mem_singleton_self _
  | _ :: _ :: _ => exact yields_raise _

lemma yields_getByEmail (hg : g.draft.Reads) (email : String) :
    Yields (fun g' _ => ReadsOn g g') (getByEmail env email) g := by
  refine (yields_scan hg _).bind fun g₁ rows h₁ => ?_
  refine (yields_scalarOneOrNone rows).mono fun g₂ r h₂ => ?_
  exact h₂.1 ▸ h₁.1

lemma yields_getByTokenHash (hg : g.draft.Reads) (tokenHash : String) :
    Yields (fun g' r => ReadsOn g g' ∧ ∀ x, r = some x → x ∈ g'.seen) (getByTokenHash tokenHash) g := by
  refine (yields_scan hg _).bind fun g₁ rows h₁ => ?_
  refine (yields_scalarOneOrNone rows).mono fun g₂ r h₂ => ?_
  obtain ⟨rfl, hmem⟩ := h₂
  exact ⟨h₁.1, fun x hx => h₁.2 x (hmem x hx)⟩

lemma yields_getPendingByEmail (hg : g.draft.Reads) (organizationId : ℕ) (email : String) :
    Yields (fun g' _ => ReadsOn g g') (getPendingByEmail organizationId email) g := by
  refine (yields_scan hg _).bind fun g₁ rows h₁ => ?_
  refine (yields_scalarOneOrNone rows).mono fun g₂ r h₂ => ?_
  exact h₂.1 ▸ h₁.1

lemma yields_getByOrg (hg : g.draft.Reads) (organizationId inviteId : ℕ) :
    Yields (fun g' r => ReadsOn g g' ∧ ∀ v, r = some v → (inviteId, v) ∈ g'.seen)
      (getByOrg organizationId inviteId) g := by
  refine Yields.bind (Q := fun g' r => ReadsOn g g' ∧ ∀ v, r = some v → (inviteId, v) ∈ g'.seen)
    (yields_execute hg fun r => ⟨⟨rfl, fun _ hx => List.mem_append_right _ hx⟩, ?_⟩) fun g₁ r h₁ => ?_
  · rintro v rfl
    exact List.mem_append_left _ (List.mem_singleton_self _)
  · refine yields_ret ⟨h₁.1, fun v hv => h₁.2 v ?_⟩
    exact (Option.filter_eq_some_iff.mp hv).1

/-- A flush of what has been read. -/
lemma yields_flush {inviteId : ℕ} {loaded new : TeamInvite} (hseen : (inviteId, loaded) ∈ g.seen)
    (hne : new ≠ loaded) (hflush : g.draft.Flushes loaded new) :
    Yields (fun g' _ => g' = { g with draft := g.draft.flushed inviteId new.status })
      (flush inviteId loaded new) g := by
  rw [flush, if_neg hne]
  refine Yields.bind (Q := fun g' r => r.isSome = true →
    g' = { g with draft := g.draft.flushed inviteId new.status })
    (yields_execute ⟨hseen, hflush⟩ fun r hr => ?_) fun g₁ r h₁ => ?_
  · cases r with
    | none => cases hr
    | some _ => rfl
  · cases r with
    | none => exact yields_raise _
    | some _ => exact yields_ret (h₁ rfl)

lemma yields_commit (hg : ∀ userId x, g.draft ≠ .account userId x) :
    Yields (fun g' _ => g' = g.step .commit ()) commitWithRetry g :=
  yields_execute hg fun _ => rfl

/-- Any exception can be handled by a rollback. -/
lemma yields_rollback : Yields (fun g' _ => g' = { g with draft := .blank }) (execute .rollback) g :=
  yields_execute trivial fun _ => rfl

/-! ### The service obeys -/

lemma yields_expireStale (hg : g.draft = .blank) (organizationId : ℕ) (now : Time) :
    Yields (fun g' _ => ∃ rows, g'.draft = .closing rows) (expireStale organizationId now) g := by
  refine (yields_scan (by rw [hg]; trivial) _).bind fun g₁ rows h₁ => ?_
  refine (yields_tally (J := fun g => (∀ x ∈ rows, x ∈ g.seen) ∧ ∃ rows, g.draft = .closing rows) rows
    (fun x hx g hJ => ?_) g₁ ⟨h₁.2, _, h₁.1.draft.trans hg⟩).mono fun g n hJ => hJ.2
  obtain ⟨inviteId, invite⟩ := x
  obtain ⟨hseen, rows', hrows⟩ := hJ
  by_cases hne : ({ invite with status := .expired } : TeamInvite) = invite
  · show Yields _ ((flush inviteId invite { invite with status := .expired }).bind fun _ => .ret 1) g
    rw [flush, if_pos hne]
    exact yields_ret ⟨hseen, rows', hrows⟩
  · have hstatus : InviteStatus.expired ≠ invite.status := fun h => hne (by rw [h])
    refine (yields_flush (hseen _ hx) hne ?_).bind fun g₂ _ h₂ => ?_
    · rw [hrows]
      exact ⟨⟨rfl, rfl, rfl⟩, hstatus, Or.inr rfl, rfl⟩
    · subst h₂
      exact yields_ret ⟨hseen, _, by rw [hrows]; rfl⟩

lemma yields_listInvites (hg : g.draft = .blank) (organizationId : ℕ) :
    Yields (fun _ _ => True) (listInvites organizationId) g := by
  refine yields_utcnow.bind fun g₁ now h₁ => ?_
  refine (yields_expireStale (h₁.draft.trans hg) organizationId now).bind fun g₂ _ h₂ => ?_
  obtain ⟨rows, hrows⟩ := h₂
  refine (yields_commit fun userId x => by rw [hrows]; nofun).bind fun g₃ _ h₃ => ?_
  exact (yields_scan (by rw [h₃]; trivial) _).mono fun _ _ _ => trivial

lemma yields_createInvite (hg : g.draft = .blank) (organizationId actorId : ℕ) (actorRole : UserRole)
    (email : String) (fullName : Option String) (role : UserRole) (rawToken : String) :
    Yields (fun _ _ => True)
      (createInvite env organizationId actorId actorRole email fullName role rawToken) g := by
  unfold createInvite
  dsimp only
  split_ifs
  · exact yields_raise _
  · refine (yields_getByEmail (by rw [hg]; trivial) _).bind fun g₁ r h₁ => ?_
    cases r with
    | some _ => exact yields_raise _
    | none =>
        have hg₁ := h₁.draft.trans hg
        refine (yields_getPendingByEmail (by rw [hg₁]; trivial) _ _).bind fun g₂ r h₂ => ?_
        cases r with
        | some _ => exact yields_raise _
        | none =>
            refine yields_utcnow.bind fun g₃ now h₃ => ?_
            have hg₃ := h₃.draft.trans (h₂.draft.trans hg₁)
            refine Yields.bind (Q := fun _ _ => True) ?_ fun _ _ _ => yields_ret trivial
            refine Yields.tryCatch ?_ fun g e => ?_
            · refine Yields.bind (Q := fun g _ => g.draft = .invited) (yields_execute hg₃ fun _ => rfl)
                fun g₄ _ h₄ => ?_
              refine (yields_commit fun userId x => by rw [h₄]; nofun).bind fun _ _ _ => ?_
              exact yields_ret trivial
            · cases e with
              | integrityError => exact yields_rollback.bind fun _ _ _ => yields_raise _
              | _ => exact yields_raise _

/-- An invite that is looked up has been read pending. -/
lemma yields_lookupInvite (hg : g.draft = .blank) (token : String) :
    Yields (fun g' r => g'.draft = .blank ∧ r ∈ g'.seen ∧ r.2.status = .pending)
      (lookupInvite env token) g := by
  refine (yields_getByTokenHash (by rw [hg]; trivial) _).bind fun g₁ r h₁ => ?_
  cases r with
  | none => exact yields_raise _
  | some x =>
      obtain ⟨inviteId, invite⟩ := x
      dsimp only
      split_ifs with hstatus
      · exact yields_raise _
      · rw [not_not] at hstatus
        refine yields_utcnow.bind fun g₂ now h₂ => ?_
        have hg₂ := h₂.draft.trans (h₁.1.draft.trans hg)
        have hseen := h₂.seen (h₁.2 _ rfl)
        split_ifs
        · refine (yields_flush hseen (fun h => ?_) ?_).bind fun g₃ _ h₃ => ?_
          · rw [← h] at hstatus
            cases hstatus
          · rw [hg₂]
            exact ⟨⟨rfl, rfl, rfl⟩, fun h => (by rw [hstatus] at h; cases h), Or.inr rfl, rfl⟩
          · refine (yields_commit fun userId x => ?_).bind fun _ _ _ => yields_raise _
            rw [h₃, hg₂]
            nofun
        · exact yields_ret ⟨hg₂, hseen, hstatus⟩

/-- An invite that a call has revoked is committed as revoked. -/
lemma yields_revokeInvite (hg : g.draft = .blank) (organizationId inviteId : ℕ) :
    Yields (fun g' _ => g'.committed inviteId = some .revoked) (revokeInvite organizationId inviteId)
      g := by
  refine (yields_getByOrg (by rw [hg]; trivial) _ _).bind fun g₁ r h₁ => ?_
  cases r with
  | none => exact yields_raise _
  | some invite =>
      dsimp only
      split_ifs with hstatus
      · exact yields_raise _
      · rw [not_not] at hstatus
        refine yields_utcnow.bind fun g₂ now h₂ => ?_
        have hg₂ := h₂.draft.trans (h₁.1.draft.trans hg)
        refine (yields_flush (h₂.seen (h₁.2 _ rfl)) (fun h => ?_) ?_).bind fun g₃ _ h₃ => ?_
        · rw [← h] at hstatus
          cases hstatus
        · rw [hg₂]
          exact ⟨⟨rfl, rfl, rfl⟩, fun h => (by rw [hstatus] at h; cases h), Or.inl rfl, rfl⟩
        · refine (yields_commit fun userId x => ?_).bind fun g₄ _ h₄ => yields_ret ?_
          · rw [h₃, hg₂]
            nofun
          · have hstatuses : (Draft.blank.flushed inviteId .revoked).statuses inviteId
                = some .revoked := by simp [Draft.blank, Draft.flushed, Draft.statuses]
            rw [h₄, h₃, hg₂]
            show Option.or ((Draft.blank.flushed inviteId .revoked).statuses inviteId) _ = _
            rw [hstatuses, Option.some_or]

lemma yields_acceptInvite (hg : g.draft = .blank) (token fullName password : String) :
    Yields (fun _ _ => True) (acceptInvite env token fullName password) g := by
  refine (yields_lookupInvite hg token).bind fun g₁ x h₁ => ?_
  obtain ⟨inviteId, invite⟩ := x
  obtain ⟨hg₁, hseen₁, hstatus⟩ := h₁
  have hne : ∀ new : TeamInvite, new.status ≠ .pending → new ≠ invite := by
    rintro new hnew rfl
    exact hnew hstatus
  refine (yields_getByEmail (by rw [hg₁]; trivial) _).bind fun g₂ r h₂ => ?_
  have hg₂ := h₂.draft.trans hg₁
  cases r with
  | some _ =>
      refine (yields_flush (h₂.seen hseen₁) (hne _ (by simp)) ?_).bind fun g₃ _ h₃ => ?_
      · rw [hg₂]
        exact ⟨⟨rfl, rfl, rfl⟩, fun h => (by rw [hstatus] at h; cases h), Or.inl rfl, rfl⟩
      · refine (yields_commit fun userId x => ?_).bind fun _ _ _ => yields_raise _
        rw [h₃, hg₂]
        nofun
  | none =>
      -- the new user waits for the acceptance of the invite
      refine Yields.bind (Q := fun g userId => (inviteId, invite) ∈ g.seen ∧ ∃ x,
        g.draft = .account userId x ∧ AccountOf invite x.row) ?_ fun g₃ userId h₃ => ?_
      · refine Yields.tryCatch ?_ fun g e => ?_
        · unfold addUser
          split_ifs with hname
          · exact yields_execute hg₂ fun userId =>
              ⟨h₂.seen hseen₁, _, rfl, ⟨rfl, rfl, rfl⟩⟩
          · exact yields_raise _
        · cases e with
          | integrityError => exact yields_rollback.bind fun _ _ _ => yields_raise _
          | _ => exact yields_raise _
      · obtain ⟨hseen₃, x, hdraft, haccount⟩ := h₃
        refine yields_utcnow.bind fun g₄ now h₄ => ?_
        have hg₄ := h₄.draft.trans hdraft
        refine (yields_flush (h₄.seen hseen₃) (hne _ (by simp)) ?_).bind fun g₅ _ h₅ => ?_
        · rw [hg₄]
          exact ⟨⟨rfl, rfl, rfl⟩, hstatus, rfl, rfl, haccount⟩
        · refine (yields_commit fun userId x => ?_).bind fun _ _ _ => yields_ret trivial
          rw [h₅, hg₄]
          nofun

lemma yields_inSession {α : Type} {Q : (ℕ → Option InviteStatus) → Prop} {p : TeamTx α}
    (hp : Yields (fun g _ => Q g.committed) p g) :
    Yields (fun g _ => Q g.committed) (inSession p) g := by
  refine Yields.tryCatch (hp.bind fun g a hQ => ?_) fun g e => ?_
  · exact yields_rollback.bind fun g' _ h => yields_ret (by rw [h]; exact hQ)
  · exact yields_rollback.bind fun _ _ _ => yields_raise _

/-- What a call has committed when it returns. -/
def Call.Done : Call → (ℕ → Option InviteStatus) → Prop
  | revoke _ inviteId, committed => committed inviteId = some .revoked
  | _, _ => True

/-- **Every call of the service obeys the monitor.** -/
theorem yields_run (call : Call) : Yields (fun g _ => call.Done g.committed) (call.run env)
    calls.start := by
  have hdone : ∀ {α : Type} {p : TeamTx α}, Yields (fun _ _ => True) p calls.start →
      Yields (fun _ _ => True) (inSession (p.bind fun _ => .ret ())) calls.start := fun hp =>
    yields_inSession (Q := fun _ => True) (hp.bind fun _ _ _ => yields_ret trivial)
  cases call with
  | create => exact hdone (yields_createInvite rfl ..)
  | list => exact hdone (yields_listInvites rfl _)
  | lookup => exact hdone ((yields_lookupInvite rfl _).mono fun _ _ _ => trivial)
  | accept => exact hdone (yields_acceptInvite rfl ..)
  | revoke organizationId inviteId =>
      exact yields_inSession (Q := fun committed => committed inviteId = some .revoked)
        ((yields_revokeInvite rfl _ _).bind fun _ _ h => yields_ret h)

end Calls

/-! ### What the ghosts say of the store -/

variable {ι : Type}

lemma SameTerms.refl (v : TeamInvite) : SameTerms v v := ⟨rfl, rfl, rfl⟩

lemma SameTerms.symm {v r : TeamInvite} (h : SameTerms v r) : SameTerms r v :=
  ⟨h.organization.symm, h.email.symm, h.role.symm⟩

lemma SameTerms.trans {v r r' : TeamInvite} (h : SameTerms v r) (h' : SameTerms r r') :
    SameTerms v r' :=
  ⟨h'.organization.trans h.organization, h'.email.trans h.email, h'.role.trans h.role⟩

lemma AccountOf.of_sameTerms {v v' : TeamInvite} {r : User} (h : AccountOf v r) (hv : SameTerms v v') :
    AccountOf v' r :=
  ⟨h.organization.trans hv.organization.symm, h.email.trans hv.email.symm, h.role.trans hv.role.symm⟩

/-- Users never change, and invites keep their terms. -/
def Moves : (t : Table) → Row t → Row t → Prop
  | .users, r, r' => r' = r
  | .teamInvites, r, r' => SameTerms r r'

lemma moves_refl : ∀ (t : Table) (r : Row t), Moves t r r := by
  intro t r
  cases t with
  | users => rfl
  | teamInvites => exact .refl r

/-- The user that has accepted the invite is there. -/
def Named (s : Database ι) (v : TeamInvite) : Prop :=
  ∀ u, v.acceptedUserId = some u → ∃ r, s.committed .users u = some r

/-- What holds of every store: versions have moved along, and the users that invites name are there. -/
structure Sound (s : Database ι) : Prop where
  ahead : Ahead (S := team) Moves s
  named : ∀ n v, s.committed .teamInvites n = some v → Named s v

/-- The user that session `i` has created, and no other, is uncommitted. -/
structure Opens (i : ι) (s : Database ι) (userId : ℕ) (x : NewUser) : Prop where
  dirty : ∀ u r, s.dirty .users u = some (i, r) ↔ u = userId ∧ r = x.row
  fresh : s.committed .users userId = none

/-- What the draft of session `i` says of its uncommitted rows. -/
def Draft.Tracks (i : ι) (s : Database ι) : Draft → Prop
  | closing rows => (∀ u r, s.dirty .users u ≠ some (i, r))
      ∧ (∀ n st, rows n = some st → ∃ v, s.dirty .teamInvites n = some (i, v) ∧ v.status = st)
      ∧ ∀ n v, s.dirty .teamInvites n = some (i, v) → rows n = some v.status
        ∧ (v.status = .revoked ∨ v.status = .expired)
        ∧ ∃ rc, s.committed .teamInvites n = some rc ∧ v.acceptedUserId = rc.acceptedUserId
  | invited => (∀ u r, s.dirty .users u ≠ some (i, r))
      ∧ ∀ n v, s.dirty .teamInvites n = some (i, v) → s.committed .teamInvites n = none
        ∧ v.status = .pending ∧ v.acceptedUserId = none
  | account userId x => Opens i s userId x ∧ ∀ n v, s.dirty .teamInvites n ≠ some (i, v)
  | acceptance userId x inviteId => Opens i s userId x
      ∧ (∃ v, s.dirty .teamInvites inviteId = some (i, v))
      ∧ ∀ n v, s.dirty .teamInvites n = some (i, v) → n = inviteId ∧ v.status = .accepted
        ∧ v.acceptedUserId = some userId ∧ AccountOf v x.row
        ∧ ∃ rc, s.committed .teamInvites n = some rc

/-- What the ghost of session `i` says of the store. -/
structure Tracks (i : ι) (g : Ghost) (s : Database ι) : Prop where
  seen : ∀ n v, (n, v) ∈ g.seen →
    ∃ rc, s.committed .teamInvites n = some rc ∧ SameTerms v rc ∧ Named s v
  draft : g.draft.Tracks i s

section Tracks

variable {s s' : Database ι} {i j : ι} {g : Ghost} {d : Draft}

lemma draft_tracks_blank (hu : ∀ u r, s.dirty .users u ≠ some (i, r))
    (hv : ∀ n v, s.dirty .teamInvites n ≠ some (i, v)) : Draft.blank.Tracks i s :=
  ⟨hu, fun _ _ h => (by cases h), fun n v hd => absurd hd (hv n v)⟩

lemma noInvite_of_blank (h : Draft.blank.Tracks i s) (n : ℕ) (v : TeamInvite) :
    s.dirty .teamInvites n ≠ some (i, v) := fun hd => by
  cases (h.2.2 n v hd).1

/-- The committed rows are kept, with their terms. -/
structure Keeps (s s' : Database ι) : Prop where
  users : ∀ u r, s.committed .users u = some r → s'.committed .users u = some r
  invites : ∀ n rc, s.committed .teamInvites n = some rc →
    ∃ rc', s'.committed .teamInvites n = some rc' ∧ SameTerms rc rc'

lemma Keeps.named (h : Keeps s s') {v : TeamInvite} (hv : Named s v) : Named s' v := by
  intro u hu
  obtain ⟨r, hr⟩ := hv u hu
  exact ⟨r, h.users u r hr⟩

lemma Keeps.seen (h : Keeps s s') {n : ℕ} {v : TeamInvite}
    (hv : ∃ rc, s.committed .teamInvites n = some rc ∧ SameTerms v rc ∧ Named s v) :
    ∃ rc, s'.committed .teamInvites n = some rc ∧ SameTerms v rc ∧ Named s' v := by
  obtain ⟨rc, hrc, hterms, hnamed⟩ := hv
  obtain ⟨rc', hrc', hterms'⟩ := h.invites n rc hrc
  exact ⟨rc', hrc', hterms.trans hterms', h.named hnamed⟩

lemma dirty_write_self (s : Database ι) (i : ι) (t : Table) (n : ℕ) (r : Row t) :
    (s.write i t n r).dirty t n = some (i, r) := by
  rw [Db.dirty_write (S := team), put_self]

lemma dirty_write_id (s : Database ι) (i : ι) (t : Table) {m n : ℕ} (r : Row t) (h : m ≠ n) :
    (s.write i t n r).dirty t m = s.dirty t m := by
  rw [Db.dirty_write (S := team), put_of_ne_id _ _ _ h]

lemma dirty_write_table (s : Database ι) (i : ι) {t t' : Table} (m n : ℕ) (r : Row t) (h : t' ≠ t) :
    (s.write i t n r).dirty t' m = s.dirty t' m := by
  rw [Db.dirty_write (S := team), put_of_ne_table _ _ _ _ h]

variable [DecidableEq ι]

lemma keeps_effect (h : Sound s) (i : ι) (q : Sql team) : Keeps s (Db.effect i q s) where
  users := by
    intro u r hr
    obtain ⟨r', hr', heq⟩ := h.ahead.committed moves_refl i q hr
    obtain rfl : r' = r := heq
    exact hr'
  invites := by
    intro n rc hrc
    exact h.ahead.committed moves_refl i q hrc

/-- The uncommitted rows of a session are left alone by the others. -/
lemma Draft.Tracks.other (h : d.Tracks i s) (hf : Frame i s s') : d.Tracks i s' := by
  have hopens : ∀ userId x, Opens i s userId x → Opens i s' userId x := by
    intro userId x ho
    refine ⟨fun u r => (hf.dirty .users u r).trans (ho.dirty u r), ?_⟩
    rw [hf.committed .users userId x.row ((ho.dirty userId x.row).mpr ⟨rfl, rfl⟩), ho.fresh]
  have hinvite : ∀ n v, s'.dirty .teamInvites n = some (i, v) →
      s.dirty .teamInvites n = some (i, v)
        ∧ s'.committed .teamInvites n = s.committed .teamInvites n := by
    intro n v hd
    have hd' := (hf.dirty .teamInvites n v).mp hd
    exact ⟨hd', hf.committed .teamInvites n v hd'⟩
  cases d with
  | closing rows =>
      refine ⟨fun u r hd => h.1 u r ((hf.dirty .users u r).mp hd), fun n st hst => ?_,
        fun n v hd => ?_⟩
      · obtain ⟨v, hd, hv⟩ := h.2.1 n st hst
        exact ⟨v, (hf.dirty .teamInvites n v).mpr hd, hv⟩
      · obtain ⟨hd', hc⟩ := hinvite n v hd
        rw [hc]
        exact h.2.2 n v hd'
  | invited =>
      refine ⟨fun u r hd => h.1 u r ((hf.dirty .users u r).mp hd), fun n v hd => ?_⟩
      obtain ⟨hd', hc⟩ := hinvite n v hd
      rw [hc]
      exact h.2 n v hd'
  | account userId x => exact ⟨hopens userId x h.1, fun n v hd => h.2 n v (hinvite n v hd).1⟩
  | acceptance userId x inviteId =>
      obtain ⟨ho, ⟨v, hd⟩, hrows⟩ := h
      refine ⟨hopens userId x ho, ⟨v, (hf.dirty .teamInvites inviteId v).mpr hd⟩, fun n v hd => ?_⟩
      obtain ⟨hd', hc⟩ := hinvite n v hd
      rw [hc]
      exact hrows n v hd'

lemma Tracks.other (h : Tracks i g s) (hf : Frame i s s') (hk : Keeps s s') : Tracks i g s' where
  seen := fun n v hv => hk.seen (h.seen n v hv)
  draft := h.draft.other hf

/-- What a session that may still read sees of the invites is committed, but for their statuses. -/
lemma Tracks.view (h : Tracks i g s) (hS : Sound s) (hreads : g.draft.Reads) {n : ℕ} {r : TeamInvite}
    (hv : s.view i .teamInvites n = some r) :
    ∃ rc, s.committed .teamInvites n = some rc ∧ SameTerms r rc ∧ Named s r := by
  rcases s.view_cases i .teamInvites n with ⟨r', hd, hv'⟩ | ⟨-, hv'⟩
  · obtain rfl := Option.some.inj (hv.symm.trans hv')
    have hdraft := h.draft
    cases hg : g.draft with
    | closing rows =>
        rw [hg] at hdraft
        obtain ⟨-, -, rc, hrc, hsame⟩ := hdraft.2.2 n r hd
        have hmoves : SameTerms rc r := hS.ahead .teamInvites n i r rc hd hrc
        refine ⟨rc, hrc, hmoves.symm, fun u hu => hS.named n rc hrc u (hsame ▸ hu)⟩
    | account userId x =>
        rw [hg] at hdraft
        exact absurd hd (hdraft.2 n r)
    | invited | acceptance =>
        rw [hg] at hreads
        exact hreads.elim
  · rw [hv'] at hv
    exact ⟨r, hv, .refl r, hS.named n r hv⟩

/-! ### One statement -/

/-- What a flush makes of an invite. -/
lemma flush_set {loaded new : TeamInvite} (hd : d.Flushes loaded new) (r : TeamInvite) :
    SameTerms r ((TeamInvite.flush loaded new).set r)
      ∧ ((TeamInvite.flush loaded new).set r).status = new.status := by
  have hboth : SameTerms loaded new ∧ new.status ≠ loaded.status := by
    cases d with
    | closing rows => exact ⟨hd.1, hd.2.1⟩
    | account userId x =>
        refine ⟨hd.1, fun h => ?_⟩
        rw [hd.2.2.1, hd.2.1] at h
        cases h
    | invited | acceptance => exact hd.elim
  obtain ⟨hterms, hne⟩ := hboth
  exact ⟨⟨if_pos hterms.organization, if_pos hterms.email, if_pos hterms.role⟩, if_neg hne⟩

lemma ahead_effect (h : Sound s) {q : Sql team} (hallow : g.Allows q) :
    Ahead (S := team) Moves (Db.effect i q s) := by
  refine h.ahead.effect moves_refl ?_
  rintro ⟨loaded, new⟩ n r rfl - - rc - hmoves
  exact SameTerms.trans hmoves (flush_set hallow.2 r).1

/-- A commit names only users that are there: those named before, or the one it has created. -/
lemma Tracks.named (h : Tracks i g s) (hS : Sound s)
    (hallow : ∀ userId x, g.draft ≠ .account userId x) {n : ℕ} {v : TeamInvite}
    (hd : s.dirty .teamInvites n = some (i, v)) : Named (s.commit i) v := by
  have hdraft := h.draft
  have hkeeps : Keeps s (s.commit i) := keeps_effect hS i .commit
  cases hg : g.draft with
  | closing rows =>
      rw [hg] at hdraft
      obtain ⟨-, -, rc, hrc, hsame⟩ := hdraft.2.2 n v hd
      exact fun u hu => hkeeps.named (hS.named n rc hrc) u (hsame ▸ hu)
  | invited =>
      rw [hg] at hdraft
      intro u hu
      rw [(hdraft.2 n v hd).2.2] at hu
      cases hu
  | account userId x => exact absurd hg (hallow userId x)
  | acceptance userId x inviteId =>
      rw [hg] at hdraft
      obtain ⟨-, -, huser, -, -⟩ := hdraft.2.2 n v hd
      intro u hu
      obtain rfl := Option.some.inj (huser.symm.trans hu)
      exact ⟨x.row, Db.view_of_own ((hdraft.1.dirty userId x.row).mpr ⟨rfl, rfl⟩)⟩

lemma Sound.effect (hS : Sound s) (h : Tracks i g s) {q : Sql team} (hallow : g.Allows q) :
    Sound (Db.effect i q s) where
  ahead := ahead_effect hS hallow
  named := by
    intro n v hc
    have hkeeps := keeps_effect hS i q
    rcases Db.committed_effect_cases i q s .teamInvites n with hsame | ⟨rfl, r, hd, hr⟩
    · exact hkeeps.named (hS.named n v (hsame ▸ hc))
    · obtain rfl := Option.some.inj (hr.symm.trans hc)
      exact h.named hS hallow hd

/-- An `UPDATE` that the draft admits, of an invite that has been read. -/
lemma Draft.Tracks.flushed (h : d.Tracks i s) {loaded new v : TeamInvite} {n : ℕ}
    (hseen : ∃ rc, s.committed .teamInvites n = some rc ∧ SameTerms loaded rc ∧ Named s loaded)
    (hd : d.Flushes loaded new) (hw : s.written i (Update.flush loaded new) n = some v) :
    (d.flushed n new.status).Tracks i (s.write i .teamInvites n v) := by
  obtain ⟨-, r, hview, -, rfl⟩ := Db.written_eq_some.mp hw
  obtain ⟨rc, hrc, hterms, hnamed⟩ := hseen
  obtain ⟨hmoves, hstatus⟩ := flush_set hd r
  have husers := fun u => dirty_write_table s i u n ((TeamInvite.flush loaded new).set r)
    (show Table.users ≠ .teamInvites by decide)
  have hself := dirty_write_self s i .teamInvites n ((TeamInvite.flush loaded new).set r)
  have hother := fun m (hm : m ≠ n) =>
    dirty_write_id s i .teamInvites ((TeamInvite.flush loaded new).set r) hm
  cases d with
  | closing rows =>
      obtain ⟨hnone, hrows, hdirty⟩ := h
      refine ⟨fun u r' hr' => hnone u r' (husers u ▸ hr'), fun m st hst => ?_, fun m v hv => ?_⟩
      · by_cases hm : m = n
        · subst hm
          rw [Function.update_self] at hst
          exact ⟨_, hself, hstatus.trans (Option.some.inj hst)⟩
        · rw [Function.update_of_ne hm] at hst
          obtain ⟨v, hv, hvst⟩ := hrows m st hst
          exact ⟨v, (hother m hm).trans hv, hvst⟩
      · by_cases hm : m = n
        · subst hm
          obtain ⟨-, rfl⟩ := Prod.mk.inj (Option.some.inj (hself.symm.trans hv))
          have huser : ((TeamInvite.flush loaded new).set r).acceptedUserId = r.acceptedUserId :=
            if_pos hd.2.2.2
          refine ⟨?_, hstatus ▸ hd.2.2.1, rc, hrc, ?_⟩
          · rw [Function.update_self, hstatus]
          · rw [huser]
            rcases s.view_cases i .teamInvites m with ⟨r', hr', hv'⟩ | ⟨-, hv'⟩
            · obtain rfl := Option.some.inj (hview.symm.trans hv')
              obtain ⟨-, -, rc', hrc', hsame⟩ := hdirty m r hr'
              obtain rfl := Option.some.inj (hrc.symm.trans hrc')
              exact hsame
            · obtain rfl := Option.some.inj (hview.symm.trans (hv'.trans hrc))
              rfl
        · rw [Function.update_of_ne hm]
          exact hdirty m v ((hother m hm).symm.trans hv)
  | account userId x =>
      obtain ⟨hopens, hnone⟩ := h
      obtain ⟨-, -, haccepted, huser, haccount⟩ := hd
      refine ⟨⟨fun u r' => husers u ▸ hopens.dirty u r', hopens.fresh⟩, ⟨_, hself⟩, fun m v hv => ?_⟩
      have hm : m = n := by
        by_contra hm
        exact hnone m v ((hother m hm).symm.trans hv)
      subst hm
      obtain ⟨-, rfl⟩ := Prod.mk.inj (Option.some.inj (hself.symm.trans hv))
      have hr : r = rc := by
        rw [Db.view_of_not_own (hnone m), hrc] at hview
        exact (Option.some.inj hview).symm
      -- the user is new, so the invite that was read does not name it
      have hne : new.acceptedUserId ≠ loaded.acceptedUserId := by
        intro heq
        obtain ⟨r', hr'⟩ := hnamed userId (heq.symm.trans huser)
        rw [hopens.fresh] at hr'
        cases hr'
      refine ⟨rfl, hstatus.trans haccepted, (if_neg hne).trans huser, ?_, rc, hrc⟩
      exact haccount.of_sameTerms (hterms.trans (hr ▸ hmoves))
  | invited | acceptance => exact hd.elim

omit [DecidableEq ι] in
/-- An insertion by a session that has written nothing else. -/
lemma draft_tracks_insert (h : Draft.blank.Tracks i s) (x : Insert) :
    (match x with | .user x => Draft.account s.fresh x | .invite _ => Draft.invited).Tracks i
      (s.write i x.into s.fresh x.new) := by
  have hnone := noInvite_of_blank h
  cases x with
  | user x =>
      refine ⟨⟨fun u r => ?_, (s.alloc Table.users s.fresh le_rfl).1⟩, fun n v hv => ?_⟩
      · by_cases hu : u = s.fresh
        · subst hu
          rw [dirty_write_self]
          constructor
          · intro hr
            exact ⟨rfl, (Prod.mk.inj (Option.some.inj hr)).2.symm⟩
          · rintro ⟨-, rfl⟩
            rfl
        · rw [dirty_write_id _ _ _ _ hu]
          exact iff_of_false (h.1 u r) fun h => hu h.1
      · have hne : Table.teamInvites ≠ .users := by decide
        rw [dirty_write_table _ _ _ _ _ hne] at hv
        exact hnone n v hv
  | invite x =>
      refine ⟨fun u r hr => ?_, fun n v hv => ?_⟩
      · have hne : Table.users ≠ .teamInvites := by decide
        rw [dirty_write_table _ _ _ _ _ hne] at hr
        exact h.1 u r hr
      · have hn : n = s.fresh := by
          by_contra hn
          rw [dirty_write_id _ _ _ _ hn] at hv
          exact hnone n v hv
        subst hn
        rw [dirty_write_self] at hv
        obtain ⟨-, rfl⟩ := Prod.mk.inj (Option.some.inj hv)
        exact ⟨(s.alloc Table.teamInvites s.fresh le_rfl).1, rfl, rfl⟩

/-- **One statement of a session**, and what its ghost says of the store afterwards. -/
theorem Tracks.own (h : Tracks i g s) (hS : Sound s) {q : Sql team} (hallow : g.Allows q) :
    Tracks i (g.step q (Db.answer i q s)) (Db.effect i q s) := by
  have hkeeps := keeps_effect hS i q
  have hseen : ∀ n v, (n, v) ∈ g.seen → ∃ rc, (Db.effect i q s).committed .teamInvites n = some rc
      ∧ SameTerms v rc ∧ Named (Db.effect i q s) v := fun n v hv => hkeeps.seen (h.seen n v hv)
  cases q with
  | select t n =>
      cases t with
      | users => exact h
      | teamInvites =>
          refine ⟨fun m v hv => ?_, h.draft⟩
          rcases List.mem_append.mp hv with hnew | hold
          · obtain ⟨r, hr, heq⟩ := List.mem_map.mp hnew
            obtain ⟨rfl, rfl⟩ := Prod.mk.inj heq
            exact h.view hS hallow (Option.mem_toList.mp hr)
          · exact h.seen m v hold
  | scan q =>
      refine ⟨fun m v hv => ?_, h.draft⟩
      rcases List.mem_append.mp hv with hnew | hold
      · have hview : s.view i .teamInvites m = some v := by
          cases q with
          | userByEmail email => cases hnew
          | byTokenHash | pendingByEmail | stale | ofOrganization => exact (Db.mem_rows.mp hnew).1
        exact h.view hS hallow hview
      · exact h.seen m v hold
  | update u n =>
      obtain ⟨loaded, new⟩ := u
      obtain ⟨hmem, hflush⟩ := hallow
      cases hw : s.written i (Update.flush loaded new) n with
      | none =>
          rw [Db.effect_update_of_none hw]
          show Tracks i (g.step (.update (Update.flush loaded new) n)
            (s.written i (Update.flush loaded new) n)) s
          rw [hw]
          exact h
      | some v =>
          rw [Db.effect_update hw] at hseen ⊢
          show Tracks i (g.step (.update (Update.flush loaded new) n)
            (s.written i (Update.flush loaded new) n)) _
          rw [hw]
          exact ⟨hseen, h.draft.flushed (h.seen n loaded hmem) hflush hw⟩
  | insert x =>
      have hblank : g.draft = .blank := hallow
      have hdraft := draft_tracks_insert (hblank ▸ h.draft) x
      cases x with
      | user x => exact ⟨hseen, hdraft⟩
      | invite x => exact ⟨hseen, hdraft⟩
  | commit =>
      refine ⟨hseen, ?_⟩
      exact draft_tracks_blank (fun u r hd => (Db.release_eq_some.mp hd).1 rfl)
        fun n v hd => (Db.release_eq_some.mp hd).1 rfl
  | rollback =>
      refine ⟨hseen, ?_⟩
      exact draft_tracks_blank (fun u r hd => (Db.release_eq_some.mp hd).1 rfl)
        fun n v hd => (Db.release_eq_some.mp hd).1 rfl
  | now => exact ⟨hseen, h.draft.other (frame_now i i s)⟩

end Tracks

end Team
