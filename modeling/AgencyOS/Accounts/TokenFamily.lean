import AgencyOS.Accounts.TokenChain
import AgencyOS.Accounts.TokenVersion

/-!
The families of refresh tokens under every interleaving of requests.

The successor of a token is inserted before the token is claimed for it, and a claim that comes too
late revokes the successor again; other requests revoke tokens of the family in the meantime.

* `Pending`: what a session has written so far is one commit of the table;
* `families`: the contract of the requests, and `meets_rotation`, `meets_families`;
* `families_linear` (**families stay linear**): in every run the committed tokens form chains with at
  most one active token, no revoked token is active again, and a token that was revoked or rotated is
  not accepted any more.
-/

namespace Accounts

open Txn Automation

section Pending

variable {ι : Type} [DecidableEq ι] {s s' s'' : Database ι} {i j : ι} {q : Sql accounts}

/-- The committed refresh tokens, and those that session `i` sees. -/
def Committed (s : Database ι) : Tokens := s.committed .refreshTokens

def Seen (i : ι) (s : Database ι) : Tokens := s.view i .refreshTokens

/-- What session `i` has written is one commit of the table. -/
def Pending (i : ι) (s : Database ι) : Prop := Advance (Committed s) (Seen i s)

/-- Session `i` has written no refresh token. -/
def Unwritten (i : ι) (s : Database ι) : Prop := ∀ n r, s.dirty .refreshTokens n ≠ some (i, r)

/-- The committed refresh tokens have moved on. -/
def Moved (s s' : Database ι) : Prop :=
  ∀ n r, Committed s n = some r → ∃ r', Committed s' n = some r' ∧ r.Later r'

omit [DecidableEq ι] in
lemma Moved.refl (s : Database ι) : Moved s s := fun _ r hr => ⟨r, hr, .refl r⟩

omit [DecidableEq ι] in
lemma Moved.of_eq (h : s'.committed = s.committed) : Moved s s' :=
  fun n r hr => ⟨r, (congrFun (congrFun h .refreshTokens) n).trans hr, .refl r⟩

omit [DecidableEq ι] in
lemma Moved.trans (h : Moved s s') (h' : Moved s' s'') : Moved s s'' := by
  intro n r hr
  obtain ⟨r', hr', hlater⟩ := h n r hr
  obtain ⟨r'', hr'', hlater'⟩ := h' n r' hr'
  exact ⟨r'', hr'', hlater.trans hlater'⟩

lemma Unwritten.seen (h : Unwritten i s) : Seen i s = Committed s :=
  funext fun n => Db.view_of_not_own fun r => h n r

lemma Unwritten.pending (h : Unwritten i s) : Pending i s := by
  rw [Pending, h.seen]
  exact .refl _

lemma Unwritten.frame (h : Unwritten i s) (hf : Frame i s s') : Unwritten i s' :=
  fun n r hd => h n r ((hf.dirty _ n r).mp hd)

lemma Pending.frame (h : Pending i s) (hlin : Linear (Committed s)) (hf : Frame i s s')
    (hm : Moved s s') : Pending i s' :=
  Advance.frame h hlin hm fun n => hf.view_cases .refreshTokens n

/-- A commit of what is pending keeps the chains. -/
lemma Pending.linear (h : Pending i s) (hlin : Linear (Committed s)) :
    Linear (Committed (s.commit i)) := hlin.advance h

lemma unwritten_commit (i : ι) (s : Database ι) : Unwritten i (s.commit i) :=
  fun _ _ hd => (Db.release_eq_some.mp hd).1 rfl

lemma unwritten_rollback (i : ι) (s : Database ι) : Unwritten i (s.rollback i) :=
  fun _ _ hd => (Db.release_eq_some.mp hd).1 rfl

/-- A statement that adds no refresh token and names no successor. -/
def Revokes : Sql accounts → Prop
  | .insert _ => False
  | .update (.markReplaced ..) _ => False
  | _ => True

/-- A statement that does not write refresh tokens. -/
def Spares : Sql accounts → Prop
  | .insert _ => False
  | .update u _ => u.target ≠ .refreshTokens
  | _ => True

/-- What a session sees of the refresh tokens after a statement that does not write them, short of
a rollback. -/
lemma Spares.seen (h : Spares q) (hq : q ≠ .rollback) (i : ι) (s : Database ι) :
    Seen i (Db.effect i q s) = Seen i s := by
  funext n
  refine Db.view_effect_of_ne hq (fun u m hu => ?_) fun x hx => ?_
  · subst hu
    exact fun htable => h htable.1.symm
  · subst hx
    cases h

/-- A session that has written no refresh token goes on so. -/
lemma Unwritten.effect (h : Unwritten i s) (hq : Spares q) : Unwritten i (Db.effect i q s) := by
  intro n r hd
  rcases Db.dirty_effect_cases hd with ⟨hold, -⟩ | ⟨-, ⟨u, r₀, rfl, -, -, heq⟩ | ⟨x, rfl, -, -⟩⟩
  · exact h n r hold
  · exact hq (congrArg Sigma.fst heq)
  · cases hq

/-- Revocations leave what is pending one commit. -/
lemma Pending.effect (h : Pending i s) (hq : Revokes q) : Pending i (Db.effect i q s) := by
  have hspares : Spares q → q ≠ .commit → q ≠ .rollback → Pending i (Db.effect i q s) := by
    intro hs hcommit hroll
    rw [Pending, hs.seen hroll, Committed, Db.committed_effect hcommit]
    exact h
  have hrevoke : ∀ (u : Update) (n : ℕ) (now : Time) (r : RefreshToken), q = .update u n →
      s.view i .refreshTokens n = some r → r.revokedAt.isNone = true →
      Db.effect i q s = s.write i .refreshTokens n { r with revokedAt := some now } →
      Pending i (Db.effect i q s) := by
    intro u n now r _ hv hact heff
    rw [heff, Pending, Seen, Db.view_write]
    exact h.revoke now hv (Option.isNone_iff_eq_none.mp hact)
  cases q with
  | update u n =>
      cases hw : s.written i u n with
      | none =>
          rw [Db.effect_update_of_none hw]
          exact h
      | some r' =>
          obtain ⟨-, r, hv, hg, rfl⟩ := Db.written_eq_some.mp hw
          cases u with
          | flush known user => exact hspares (by simp [Spares]) (by simp) (by simp)
          | claim purpose now => exact hspares (by simp [Spares]) (by simp) (by simp)
          | markReplaced replacedBy now => cases hq
          | revoke now => exact hrevoke _ n now r rfl hv hg (Db.effect_update hw)
          | revokeOutstanding userId now =>
              have hguard : RefreshToken.outstanding userId now r = true := hg
              simp only [RefreshToken.outstanding, Bool.and_eq_true] at hguard
              exact hrevoke _ n now r rfl hv hguard.1.2 (Db.effect_update hw)
  | insert x => cases hq
  | commit => exact (unwritten_commit i s).pending
  | rollback => exact (unwritten_rollback i s).pending
  | _ => exact h

end Pending

/-! ### The contract -/

section Contract

variable {ι : Type} [DecidableEq ι] {s s' : Database ι} {i : ι} {q : Sql accounts}
  {h : List (Happened ι)}

/-- The contract of the requests: commits keep the chains, and tokens only move on. -/
def families : Contract (sql accounts) ι (Database ι) where
  inv := fun _ s => Linear (Committed s)
  assume := fun _ _ => True
  guar := fun _ _ ev =>
    Linear (Committed ev.after) ∧ Advance (Committed ev.before) (Committed ev.after)
  rely := fun i _ s s' =>
    Frame i s s' ∧ Moved s s' ∧ (Linear (Committed s) → Linear (Committed s'))

/-- A statement keeps the contract, a commit if what is pending is one. -/
lemma families_step (i : ι) (h : List (Happened ι)) (hlin : Linear (Committed s))
    (hcommit : q = .commit → Pending i s) :
    Linear (Committed (Db.effect i q s)) ∧ families.guar i h ⟨i, q, s, Db.effect i q s⟩ := by
  by_cases hq : q = .commit
  · subst hq
    have hpending := hcommit rfl
    exact ⟨hpending.linear hlin, hpending.linear hlin, hpending⟩
  · have hsame : (Db.effect i q s).committed = s.committed := Db.committed_effect hq
    have hlin' : Linear (Committed (Db.effect i q s)) := by
      rw [Committed, hsame]
      exact hlin
    refine ⟨hlin', hlin', ?_⟩
    show Advance (Committed s) (Committed (Db.effect i q s))
    rw [Committed, Committed, hsame]
    exact .refl _

lemma families_compatible : (families : Contract (sql accounts) ι (Database ι)).Compatible (postgres ι) where
  refl := fun i _ s => ⟨.refl i s, .refl s, id⟩
  trans := fun i _ _ _ _ h h' =>
    ⟨h.1.trans h'.1, h.2.1.trans h'.2.1, fun hlin => h'.2.2 (h.2.2 hlin)⟩
  step := fun tr ev j hj _ _ _ heff hg => by
    refine ⟨?_, hg.2.rows, fun _ => hg.1⟩
    rw [heff]
    exact frame_effect (fun hij => hj hij.symm) ev.stmt ev.before
  hangup := fun tr i s hI _ _ =>
    families_step (q := .rollback) i (own i tr) hI fun hq => by cases hq

variable {α : Type}

/-- An assertion that holds on as the committed tokens move on. -/
def Lasts (C : Database ι → Prop) : Prop := ∀ s s', Moved s s' → C s → C s'

omit [DecidableEq ι] in
lemma lasts_true : Lasts (fun _ : Database ι => True) := fun _ _ _ h => h

/-- An assertion on its own writes that the others leave to a session. -/
def Own (i : ι) (A : Database ι → Prop) : Prop :=
  ∀ s s', Linear (Committed s) → Frame i s s' → Moved s s' → A s → A s'

lemma own_pending : Own i (Pending i : Database ι → Prop) :=
  fun _ _ hlin hf hm h => h.frame hlin hf hm

lemma own_unwritten : Own i (Unwritten i : Database ι → Prop) := fun _ _ _ hf _ h => h.frame hf

lemma Own.and {A C : Database ι → Prop} (hA : Own i A) (hC : Lasts C) : Own i fun s => A s ∧ C s :=
  fun s s' hlin hf hm h => ⟨hA s s' hlin hf hm h.1, hC s s' hm h.2⟩

/-- The chains, and what a session knows of its own writes. -/
def Knows (A : Database ι → Prop) (s : Database ι) : Prop := Linear (Committed s) ∧ A s

lemma Own.rely {A : Database ι → Prop} (hA : Own i A) (hs : Knows A s)
    (hr : families.rely i h s s') : Knows A s' :=
  ⟨hr.2.2 hs.1, hA s s' hs.1 hr.1 hr.2.1 hs.2⟩

/-- A program whose statements keep an assertion under which all that is written is one commit. -/
lemma meets_keeps {A : Database ι → Prop} {φ : Sql accounts → Prop} {p : Tx α} (hp : p.Issues φ)
    (hA : Own i A) (hpending : ∀ s, A s → Pending i s)
    (hφ : ∀ s q, φ q → Moved s (Db.effect i q s) → A s → A (Db.effect i q s)) (h0 : Knows A s) :
    Meets families (postgres ι) i (fun _ _ s => Knows A s) p h s := by
  refine meets_of_issues hp (fun _ s s' hs hr => hA.rely hs hr) ?_ h0
  intro tr q h s _ hq hI hs _ _
  obtain ⟨h₁, h₂⟩ := families_step i h hI fun _ => hpending s hs.2
  exact ⟨h₁, h₂, h₁, hφ s q hq h₂.2.rows hs.2⟩

/-- A program that only revokes leaves what is pending one commit. -/
lemma meets_revokes {p : Tx α} (hp : p.Issues Revokes) (h0 : Knows (Pending i) s) :
    Meets families (postgres ι) i (fun _ _ s => Knows (Pending i) s) p h s :=
  meets_keeps hp own_pending (fun _ h => h) (fun _ _ hq _ h => h.effect hq) h0

/-- A program that does not write refresh tokens. -/
lemma meets_spares {C : Database ι → Prop} (hC : Lasts C) {p : Tx α} (hp : p.Issues Spares)
    (h0 : Knows (fun s => Unwritten i s ∧ C s) s) :
    Meets families (postgres ι) i (fun _ _ s => Knows (fun s => Unwritten i s ∧ C s) s) p h s :=
  meets_keeps hp (own_unwritten.and hC) (fun _ h => h.1.pending)
    (fun s _ hq hm h => ⟨h.1.effect hq, hC s _ hm h.2⟩) h0

/-- One statement of a session. -/
lemma meets_statement {A : Database ι → Prop} {B : q.Resp → Database ι → Prop} (hq : q ≠ .commit)
    (hA : Own i A) (hB : ∀ a, Own i (B a))
    (hstep : ∀ s, Linear (Committed s) → A s → B (Db.answer i q s) (Db.effect i q s))
    (h0 : Knows A s) :
    Meets families (postgres ι) i (fun _ r s => ∀ a, r = .ok a → Knows (B a) s)
      (Prog.ask (S := sql accounts) q : Txn.Tx accounts Exn q.Resp) h s := by
  refine (meets_ask (P := Knows A) ?_).mono ?_
  · intro tr s₁ _ hr hI _ _
    obtain ⟨h₁, h₂⟩ := families_step i h hI fun hc => absurd hc hq
    exact ⟨h₁, h₂, hA.rely h0 hr⟩
  · rintro h' r s' ⟨s₁, ⟨hlin, hA₁⟩, -, rfl, hr⟩ a ha
    obtain rfl := Except.ok.inj ha
    refine (hB _).rely (h := h') ⟨?_, hstep s₁ hlin hA₁⟩ hr
    rw [Committed, Db.committed_effect hq]
    exact hlin

end Contract

/-! ### Rotation -/

section Rotation

variable {ι : Type} [DecidableEq ι] {s s' : Database ι} {i : ι} {h : List (Happened ι)}
  {cfg : Security} {rawToken k f userId : ℕ} {familyId : Option ℕ} {C : Database ι → Prop} {α : Type}

/-- Session `i` has added the active token `k`, and written no other token. -/
structure Added (i : ι) (k userId : ℕ) (familyId : Option ℕ) (s : Database ι) : Prop where
  row : ∃ r, s.dirty .refreshTokens k = some (i, r) ∧ (r.familyId = familyId ∧ r.userId = userId)
    ∧ r.revokedAt = none ∧ r.replacedBy = none
  only : ∀ n r, s.dirty .refreshTokens n = some (i, r) → n = k
  free : Committed s k = none

lemma own_added : Own i (Added i k userId familyId : Database ι → Prop) := by
  intro s s' _ hf _ h
  obtain ⟨r, hr, hrow⟩ := h.row
  exact ⟨⟨r, (hf.dirty _ _ r).mpr hr, hrow⟩, fun n r hd => h.only n r ((hf.dirty _ n r).mp hd),
    (hf.committed _ k r hr).trans h.free⟩

/-- What a session sees that has added one token. -/
lemma Added.seen (h : Added i k userId familyId s) {r : RefreshToken}
    (hr : s.dirty .refreshTokens k = some (i, r)) :
    Seen i s = Function.update (Committed s) k (some r) := by
  funext n
  by_cases hn : n = k
  · subst hn
    rw [Function.update_self]
    exact Db.view_of_own hr
  · rw [Function.update_of_ne hn]
    exact Db.view_of_not_own fun r hd => hn (h.only n r hd)

lemma added_insert {x : NewToken} (h : Unwritten i s) :
    Added i s.fresh x.userId x.familyId (Db.effect i (.insert x) s) where
  row := ⟨x.row, Db.dirty_insert i (S := accounts) x s, ⟨rfl, rfl⟩, rfl, rfl⟩
  only := by
    intro n r hd
    rcases Db.dirty_effect_cases hd with ⟨hold, -⟩ | ⟨-, ⟨u, r₀, hu, -⟩ | ⟨x, -, hn, -⟩⟩
    · exact absurd hold (h n r)
    · cases hu
    · exact hn
  free := (s.alloc .refreshTokens s.fresh le_rfl).1

/-- A login token is one commit. -/
lemma Added.pending (h : Added i k userId none s) : Pending i s := by
  obtain ⟨r, hr, ⟨hfam, -⟩, -, hnone⟩ := h.row
  rw [Pending, h.seen hr]
  refine Advance.insert h.free hnone (Or.inl hfam) fun f hf => ?_
  rw [hfam] at hf
  cases hf

/-- Token `rawToken` belongs to a user and is of family `f`. -/
def Member (rawToken userId f : ℕ) (s : Database ι) : Prop :=
  ∃ r, Committed s rawToken = some r ∧ r.family rawToken = f ∧ r.userId = userId

omit [DecidableEq ι] in
lemma member_lasts : Lasts (Member rawToken userId f : Database ι → Prop) := by
  rintro s s' hm ⟨r, hr, hfam, huser⟩
  obtain ⟨r', hr', hlater⟩ := hm rawToken r hr
  exact ⟨r', hr', (hlater.family rawToken).trans hfam, hlater.userId.trans huser⟩

/-- The successor of a claim that came too late is revoked again. -/
lemma Added.revoke {now : Time} (h : Added i k userId (some f) s) (hlin : Linear (Committed s))
    (hmem : Member rawToken userId f s) : Pending i (Db.effect i (.update (.revoke now) k) s) := by
  obtain ⟨r, hr, ⟨hfam, -⟩, hact, hnone⟩ := h.row
  have hw : s.written i (.revoke now : accounts.Update) k = some { r with revokedAt := some now } := by
    refine Db.written_eq_some.mpr ⟨?_, r, Db.view_of_own hr, Option.isNone_iff_eq_none.mpr hact, rfl⟩
    by_contra hheld
    obtain ⟨j, r', hj, hd⟩ := Db.heldByOther_eq_true.mp (by simpa using hheld)
    rw [hr] at hd
    exact hj (Prod.mk.inj (Option.some.inj hd)).1.symm
  have hseen : s.view i .refreshTokens = Function.update (Committed s) k (some r) := h.seen hr
  rw [Db.effect_update hw, Pending, Seen, Db.view_write, hseen, Function.update_idem]
  refine Advance.insert h.free hnone (Or.inr (by simp)) fun f' hf' => ?_
  obtain rfl := Option.some.inj (hfam.symm.trans hf')
  obtain ⟨rm, hrm, rfl, -⟩ := hmem
  exact hlin.root hrm

/-- The commit rotates token `rawToken` into `k`. -/
def Rotation (rawToken k : ℕ) (s s' : Database ι) : Prop :=
  ∃ r r', Committed s rawToken = some r ∧ r.revokedAt = none ∧ Committed s' rawToken = some r'
    ∧ r'.revokedAt ≠ none ∧ r'.replacedBy = some k

/-- Session `i` has claimed the token for its successor. -/
structure Rotating (i : ι) (rawToken k : ℕ) (s : Database ι) : Prop where
  pending : Pending i s
  active : ∃ r, Committed s rawToken = some r ∧ r.revokedAt = none
  claimed : ∃ r, s.dirty .refreshTokens rawToken = some (i, r) ∧ r.revokedAt ≠ none
    ∧ r.replacedBy = some k

lemma own_rotating : Own i (Rotating i rawToken k : Database ι → Prop) := by
  intro s s' hlin hf hm h
  obtain ⟨r, hr, hclaimed⟩ := h.claimed
  obtain ⟨rc, hrc, hact⟩ := h.active
  exact ⟨h.pending.frame hlin hf hm, ⟨rc, (hf.committed _ _ r hr).trans hrc, hact⟩,
    r, (hf.dirty _ _ r).mpr hr, hclaimed⟩

lemma Rotating.commit (h : Rotating i rawToken k s) : Rotation rawToken k s (s.commit i) := by
  obtain ⟨r, hr, hclaimed⟩ := h.claimed
  obtain ⟨rc, hrc, hact⟩ := h.active
  exact ⟨rc, r, hrc, hact, Db.view_of_own hr, hclaimed⟩

/-- What is known after a claim: it was won, or nothing has changed. -/
def AfterClaim (i : ι) (rawToken k userId f : ℕ) (s : Database ι) : Bool → Prop
  | true => Rotating i rawToken k s
  | false => Added i k userId (some f) s ∧ Member rawToken userId f s

lemma own_afterClaim (claimed : Bool) :
    Own i fun s : Database ι => AfterClaim i rawToken k userId f s claimed := by
  cases claimed with
  | false => exact own_added.and member_lasts
  | true => exact own_rotating

/-- **The claim** of a token whose successor has been added. -/
lemma Added.claim {now : Time} (h : Added i k userId (some f) s) (hlin : Linear (Committed s))
    (hmem : Member rawToken userId f s) :
    AfterClaim i rawToken k userId f (Db.effect i (.update (.markReplaced k now) rawToken) s)
      (s.written i (.markReplaced k now : accounts.Update) rawToken).isSome := by
  cases hw : s.written i (.markReplaced k now : accounts.Update) rawToken with
  | none =>
      rw [Db.effect_update_of_none hw]
      exact ⟨h, hmem⟩
  | some r' =>
      obtain ⟨-, r, hv, hg, rfl⟩ := Db.written_eq_some.mp hw
      obtain ⟨x, hx, ⟨hfam, huser⟩, -, hnone⟩ := h.row
      obtain ⟨rm, hrm, rfl, rfl⟩ := hmem
      have hact : r.revokedAt = none := Option.isNone_iff_eq_none.mp hg
      have hseen : s.view i .refreshTokens = Function.update (Committed s) k (some x) := h.seen hx
      have hne : rawToken ≠ k := by
        rintro rfl
        rw [h.free] at hrm
        cases hrm
      obtain rfl : rm = r := by
        have hview : s.view i .refreshTokens rawToken = some rm := by
          rw [hseen, Function.update_of_ne hne, hrm]
        exact Option.some.inj (hview.symm.trans hv)
      refine ⟨?_, ⟨rm, ?_, hact⟩, _, Db.dirty_update hw, Option.some_ne_none now, rfl⟩
      · rw [Db.effect_update hw, Pending, Seen, Db.view_write, hseen]
        exact Advance.successor now hlin h.free hrm hact hnone ⟨hfam, huser⟩
      · rw [Committed, Db.committed_effect (by simp)]
        exact hrm

/-! ### The programs -/

lemma spares_flush {userId : ℕ} {known user : User} : (flush userId known user).Issues Spares :=
  issues_flush fun _ => by simp [Spares]

/-- A token is added. -/
lemma families_issueTokens {known user : User} {userId : ℕ} (hC : Lasts C)
    (h0 : Knows (fun s => Unwritten i s ∧ C s) s) :
    Meets families (postgres ι) i
      (fun _ r s => ∀ x, r = .ok x → Knows (fun s => Added i x.refreshToken userId familyId s ∧ C s) s)
      (AuthService.issueTokens cfg userId known user familyId) h s := by
  refine (meets_spares (p := Txn.Tx.now) hC ⟨trivial, fun _ => trivial⟩ h0).bind
    families_compatible (fun h now s h0 => ?_) fun _ _ _ _ _ ha => by cases ha
  refine (meets_spares hC spares_flush h0).bind families_compatible (fun h _ s h0 => ?_)
    fun _ _ _ _ _ ha => by cases ha
  refine (meets_statement (q := .insert ⟨userId, user.organizationId, familyId,
      now + cfg.refreshTokenExpireDays * day⟩) (B := fun k s => Added i k userId familyId s ∧ C s) (by simp)
    (own_unwritten.and hC) (fun _ => own_added.and hC) (fun s _ hA => ?_) h0).bind
    families_compatible (fun h k s hs => ?_) fun _ _ _ _ _ ha => by cases ha
  · refine ⟨added_insert (x := ⟨userId, user.organizationId, familyId,
      now + cfg.refreshTokenExpireDays * day⟩) hA.1, hC s _ (.of_eq ?_) hA.2⟩
    exact Db.committed_effect (by simp)
  · intro _ s' _ hr _ x hx
    obtain rfl := Except.ok.inj hx
    exact (own_added.and hC).rely (hs k rfl) hr

/-- What a client that is answered with successor `k` has done: its commit rotated the token. -/
def RotatedIn (rawToken k : ℕ) (h : List (Happened ι)) : Prop :=
  ∃ ev ∈ h, ev.stmt = .commit ∧ Rotation rawToken k ev.before ev.after

omit [DecidableEq ι] in
lemma RotatedIn.append {h h' : List (Happened ι)} (hr : RotatedIn rawToken k h) :
    RotatedIn rawToken k (h ++ h') := by
  obtain ⟨ev, hev, hrot⟩ := hr
  exact ⟨ev, List.mem_append_left _ hev, hrot⟩

/-- The commit of a session that has claimed a token, and the answer. -/
lemma families_respond {userId : ℕ} {response : AuthResponse}
    (h0 : Knows (Rotating i rawToken response.refreshToken) s) :
    Meets families (postgres ι) i (fun h r _ => ∀ x, r = .ok x → RotatedIn rawToken x.refreshToken h)
      (AuthService.respond userId response) h s := by
  intro tr s₁ _ hr hI _ _
  obtain ⟨hlin, hrot⟩ := own_rotating.rely (h := h) h0 hr
  obtain ⟨h₁, h₂⟩ := families_step i h hI (q := .commit) fun _ => hrot.pending
  refine ⟨h₁, h₂, ?_⟩
  have hin : RotatedIn rawToken response.refreshToken (h ++ [⟨i, .commit, s₁, s₁.commit i⟩]) :=
    ⟨_, List.mem_append_right _ (List.mem_singleton_self _), rfl, hrot.commit⟩
  intro tr' s₂ _ _ hI' _ _
  obtain ⟨h₃, h₄⟩ := families_step i (h ++ [⟨i, .commit, s₁, s₁.commit i⟩]) hI'
    (q := .select .users userId) fun hc => by cases hc
  refine ⟨h₃, h₄, fun _ _ _ _ _ x hx => ?_⟩
  obtain rfl := Except.ok.inj hx
  exact hin.append

lemma families_raise {P : α → List (Happened ι) → Prop} (e : Exn) :
    Meets families (postgres ι) i (fun h r _ => ∀ a, r = .ok a → P a h) (.raise e) h s :=
  fun _ _ _ _ _ a ha => by cases ha

/-- The revocation of a family. -/
lemma revokes_revokeReused {record : RefreshToken} {now : Time} {user : Option User} :
    (AuthService.revokeReused rawToken record now user : Tx α).Issues Revokes := by
  refine Prog.issues_bind (issues_revokeFamily trivial fun _ => trivial) fun _ => ?_
  cases user with
  | none => exact ⟨trivial, fun _ => trivial⟩
  | some user =>
      refine Prog.issues_bind (issues_flush fun _ => trivial) fun _ => ?_
      exact ⟨trivial, fun _ => trivial⟩

lemma returns_revokeReused {record : RefreshToken} {now : Time} {user : Option User} :
    (AuthService.revokeReused rawToken record now user : Tx α).Returns fun _ => False := by
  have htrue : ∀ p : Tx ℕ, p.Returns fun _ => True := by
    intro p
    induction p with
    | ret a => trivial
    | raise e => trivial
    | call q k ih => exact ih
  refine Prog.returns_bind (htrue _) fun _ _ => ?_
  cases user with
  | none => exact fun _ => trivial
  | some user => exact Prog.returns_bind (returns_flush _ _) fun _ _ _ => trivial

/-- Reuse of a token is answered with an exception. -/
lemma families_revokeReused {record : RefreshToken} {now : Time} {user : Option User}
    (P : α → List (Happened ι) → Prop) (h0 : Knows (Pending i) s) :
    Meets families (postgres ι) i (fun h r _ => ∀ a, r = .ok a → P a h)
      (AuthService.revokeReused rawToken record now user) h s :=
  ((meets_revokes revokes_revokeReused h0).returns returns_revokeReused).mono
    fun _ _ _ hs a ha => (hs.2 a ha).elim

lemma families_markReplaced {now : Time}
    (h0 : Knows (fun s => Added i k userId (some f) s ∧ Member rawToken userId f s) s) :
    Meets families (postgres ι) i
      (fun _ r s => ∀ claimed, r = .ok claimed →
        Knows (fun s => AfterClaim i rawToken k userId f s claimed) s)
      (RefreshTokenRepository.markReplaced rawToken k now) h s := by
  refine (meets_statement (q := .update (.markReplaced k now) rawToken)
    (B := fun row s => AfterClaim i rawToken k userId f s row.isSome) (by simp)
    (own_added.and member_lasts) (fun row => own_afterClaim row.isSome)
    (fun s hlin hA => hA.1.claim hlin hA.2) h0).bind families_compatible (fun h row s hs => ?_)
    fun _ _ _ _ _ ha => by cases ha
  intro _ s' _ hr _ claimed hclaimed
  obtain rfl := Except.ok.inj hclaimed
  exact (own_afterClaim row.isSome).rely (hs row rfl) hr

/-- **Rotation**: the successor is added, the token claimed for it, and both are committed; or the
successor is revoked with the family. -/
lemma families_rotate {record : RefreshToken} {now : Time} {user : User}
    (h0 : Knows (fun s => Unwritten i s ∧ Member rawToken record.userId (record.family rawToken) s) s) :
    Meets families (postgres ι) i (fun h r _ => ∀ x, r = .ok x → RotatedIn rawToken x.refreshToken h)
      (AuthService.rotate cfg rawToken record now user) h s := by
  refine (families_issueTokens member_lasts h0).bind families_compatible
    (fun h response s hs => ?_) fun _ _ _ _ _ ha => by cases ha
  refine (families_markReplaced (hs response rfl)).bind families_compatible
    (fun h claimed s hs => ?_) fun _ _ _ _ _ ha => by cases ha
  have hclaimed := hs claimed rfl
  cases claimed with
  | true => exact families_respond hclaimed
  | false =>
      refine (meets_statement (q := .update (.revoke now) response.refreshToken)
        (B := fun _ => Pending i) (by simp) (own_added.and member_lasts) (fun _ => own_pending)
        (fun s hlin hA => hA.1.revoke hlin hA.2) hclaimed).bind families_compatible
        (fun h row s hs => ?_) fun _ _ _ _ _ ha => by cases ha
      have hreuse : Meets families (postgres ι) i
          (fun h r _ => ∀ x : AuthResponse, r = .ok x → RotatedIn rawToken x.refreshToken h)
          (AuthService.revokeReused rawToken record now (some user)) h s :=
        families_revokeReused (fun (x : AuthResponse) h => RotatedIn rawToken x.refreshToken h) (hs row rfl)
      exact hreuse

/-- A read of a session that has written no token: what it shows is committed. -/
lemma families_getAny (h0 : Knows (fun s => Unwritten i s ∧ True) s) :
    Meets families (postgres ι) i
      (fun _ r s => ∀ found, r = .ok found → Knows (fun s => Unwritten i s
        ∧ ∀ record, found = some record → Member rawToken record.userId (record.family rawToken) s) s)
      (RefreshTokenRepository.getAny rawToken) h s := by
  have hlasts : ∀ found : Option RefreshToken, Lasts fun s : Database ι =>
      ∀ record, found = some record → Member rawToken record.userId (record.family rawToken) s :=
    fun _ s s' hm h record hfound => member_lasts s s' hm (h record hfound)
  refine meets_statement (q := .select .refreshTokens rawToken) (by simp)
    (own_unwritten.and lasts_true) (fun found => own_unwritten.and (hlasts found))
    (fun s _ hA => ⟨hA.1, fun record hfound => ⟨record, ?_, rfl, rfl⟩⟩) h0
  show Committed s rawToken = some record
  rw [← hA.1.seen]
  exact hfound

/-- **`refresh`** is answered when its commit has rotated the token. -/
theorem families_refresh (h0 : Knows (Unwritten i) s) :
    Meets families (postgres ι) i (fun h r _ => ∀ x, r = .ok x → RotatedIn rawToken x.refreshToken h)
      (AuthService.refresh cfg rawToken) h s := by
  have hraise : ∀ (e : Exn) (h : List (Happened ι)) (s : Database ι),
      Meets families (postgres ι) i
        (fun h r _ => ∀ x : AuthResponse, r = .ok x → RotatedIn rawToken x.refreshToken h)
        (.raise e) h s := fun e _ _ => families_raise e
  refine (meets_spares (p := Txn.Tx.now) lasts_true ⟨trivial, fun _ => trivial⟩
    ⟨h0.1, h0.2, trivial⟩).bind families_compatible (fun h now s h0 => ?_)
      fun _ _ _ _ _ ha => by cases ha
  refine (families_getAny h0).bind families_compatible (fun h found s hs => ?_)
    fun _ _ _ _ _ ha => by cases ha
  have hknown := hs found rfl
  cases found with
  | none => exact hraise _ h s
  | some record =>
      have hrec : Knows (fun s => Unwritten i s ∧ Member rawToken record.userId (record.family rawToken) s) s :=
        ⟨hknown.1, hknown.2.1, hknown.2.2 record rfl⟩
      have hload : Meets families (postgres ι) i (fun _ _ s =>
          Knows (fun s => Unwritten i s ∧ Member rawToken record.userId (record.family rawToken) s) s)
          (getUser record.userId) h s := meets_spares member_lasts ⟨trivial, fun _ => trivial⟩ hrec
      dsimp only
      split_ifs
      · refine hload.bind families_compatible (fun h user s hs => ?_) fun _ _ _ _ _ ha => by cases ha
        exact families_revokeReused (fun (x : AuthResponse) h => RotatedIn rawToken x.refreshToken h)
          ⟨hs.1, hs.2.1.pending⟩
      · exact hraise _ h s
      · refine hload.bind families_compatible (fun h found s hs => ?_) fun _ _ _ _ _ ha => by cases ha
        split
        · exact hraise _ h s
        · split_ifs
          · exact hraise _ h s
          · exact families_rotate hs

/-! ### Logins -/

lemma revokes_respond {userId : ℕ} {response : AuthResponse} :
    (AuthService.respond userId response).Issues Revokes := issues_respond trivial trivial

/-- A session of a user starts a family. -/
lemma families_session {known user : User} {userId : ℕ} (h0 : Knows (Unwritten i) s) :
    Meets families (postgres ι) i (fun _ _ _ => True)
      ((AuthService.issueTokens cfg userId known user none).bind fun response =>
        AuthService.respond userId response) h s := by
  refine (families_issueTokens lasts_true ⟨h0.1, h0.2, trivial⟩).bind families_compatible
    (fun h response s hs => ?_) fun _ _ _ _ => trivial
  have hadded := hs response rfl
  exact (meets_revokes revokes_respond ⟨hadded.1, hadded.2.1.pending⟩).mono fun _ _ _ _ => trivial

lemma families_raises (e : Exn) :
    Meets families (postgres ι) i (fun _ _ _ => True) (.raise e : Tx α) h s := fun _ _ _ _ _ => trivial

/-- A program that writes no refresh token, whatever comes after it. -/
lemma families_bind {β : Type} {p : Tx β} {g : β → Tx α} (hp : p.Issues Spares)
    (h0 : Knows (Unwritten i) s)
    (hg : ∀ b h s, Knows (Unwritten i) s →
      Meets families (postgres ι) i (fun _ _ _ => True) (g b) h s) :
    Meets families (postgres ι) i (fun _ _ _ => True) (p.bind g) h s :=
  (meets_spares lasts_true hp ⟨h0.1, h0.2, trivial⟩).bind families_compatible
    (fun h b s hs => hg b h s ⟨hs.1, hs.2.1⟩) fun _ _ _ _ => trivial

lemma families_login {email password : String} (h0 : Knows (Unwritten i) s) :
    Meets families (postgres ι) i (fun _ _ _ => True) (AuthService.login cfg email password) h s := by
  refine families_bind (p := Tx.scan (S := accounts) (.activeByEmail email))
    ⟨trivial, fun _ => trivial⟩ h0 fun rows h s h0 => ?_
  split
  · exact families_raises _
  · split
    · exact families_raises _
    · refine families_bind (p := Txn.Tx.now) ⟨trivial, fun _ => trivial⟩ h0 fun now h s h0 => ?_
      split_ifs
      · exact families_raises _
      · refine families_bind spares_flush h0 fun _ h s h0 => ?_
        exact families_bind (p := Txn.Tx.commit) ⟨trivial, fun _ => trivial⟩ h0
          fun _ _ _ _ => families_raises _
      · exact families_raises _
      · exact families_raises _
      · exact families_session h0

lemma spares_verifyChallenge {challenge : AccessToken} {code : String} {recovered : Bool} :
    (MfaService.verifyChallenge cfg challenge code recovered).Issues Spares := by
  unfold MfaService.verifyChallenge
  split_ifs
  · trivial
  · trivial
  · refine Prog.issues_bind ⟨trivial, fun _ => trivial⟩ fun found => ?_
    split
    · trivial
    · refine Prog.issues_bind ⟨trivial, fun _ => trivial⟩ fun now => ?_
      split_ifs
      · trivial
      · exact Prog.issues_bind spares_flush fun _ => ⟨trivial, fun _ => trivial⟩
      · exact Prog.issues_bind spares_flush fun _ => ⟨trivial, fun _ => trivial⟩

/-! ### The other requests -/

lemma revokes_flush {userId : ℕ} {known user : User} : (flush userId known user).Issues Revokes :=
  issues_flush fun _ => trivial

lemma revokes_revokeSessions {userId : ℕ} {known user : User} {now : Time} :
    (AuthService.revokeSessions userId known user now).Issues Revokes := by
  refine Prog.issues_bind revokes_flush fun _ => ?_
  refine Prog.issues_bind (issues_revokeAllForUser trivial fun _ => trivial) fun _ => ?_
  exact ⟨trivial, fun _ => trivial⟩

lemma revokes_now {p : ℕ → Tx α} (hp : ∀ now, (p now).Issues Revokes) :
    (Txn.Tx.now.bind p).Issues Revokes := ⟨trivial, hp⟩

lemma revokes_changeFactor {userId : ℕ} {known user : User} :
    ((flush userId known user).bind fun _ => Txn.Tx.now.bind fun now =>
      AuthService.revokeSessions userId user user now).Issues Revokes :=
  Prog.issues_bind revokes_flush fun _ => revokes_now fun _ => revokes_revokeSessions

lemma revokes_changePassword {userId : ℕ} {user : User} {current newPassword : String} :
    (AuthService.changePassword cfg userId user current newPassword).Issues Revokes := by
  unfold AuthService.changePassword
  split_ifs
  · trivial
  · exact revokes_now fun _ => revokes_revokeSessions

lemma revokes_activate {userId : ℕ} {user : User} {code : String} :
    (MfaService.activate cfg userId user code).Issues Revokes := by
  unfold MfaService.activate
  split_ifs
  · trivial
  · trivial
  · split
    · trivial
    · split_ifs
      · trivial
      · exact revokes_changeFactor

lemma revokes_disable {userId : ℕ} {user : User} {code : String} {recovered : Bool} :
    (MfaService.disable cfg userId user code recovered).Issues Revokes := by
  unfold MfaService.disable
  split_ifs
  · trivial
  · trivial
  · trivial
  · exact revokes_changeFactor

lemma revokes_resetPassword {newPassword : String} :
    (AccountSecurityService.resetPassword cfg rawToken newPassword).Issues Revokes := by
  refine revokes_now fun now => ?_
  refine Prog.issues_bind ⟨trivial, fun _ => trivial⟩ fun found => ?_
  split
  · trivial
  · split_ifs
    · trivial
    · trivial
    · refine Prog.issues_bind ⟨trivial, fun _ => trivial⟩ fun loaded => ?_
      split
      · trivial
      · refine Prog.issues_bind ⟨trivial, fun _ => trivial⟩ fun claimed => ?_
        split
        · trivial
        · exact revokes_revokeSessions

lemma revokes_authenticated {token : AccessToken} {p : ℕ → User → Tx Unit}
    (hp : ∀ user, (p token.sub user).Issues Revokes) : (authenticated token p).Issues Revokes := by
  have hreads : ∀ q, Reads q → Revokes q := by
    intro q hq
    cases q with
    | update u n => cases hq
    | insert x => cases hq
    | _ => trivial
  refine Prog.issues_bind (Prog.issues_mono (reads_getCurrentUser token) hreads) fun user => ?_
  exact Prog.issues_bind (hp user) fun _ => trivial

/-- What a request that is answered has done: a refresh has rotated its token. -/
def Accepts (r : Request) : Post (sql accounts) ι (Database ι) Exn (Option AuthResponse) :=
  fun h answer _ => ∀ rawToken x, r = .refresh rawToken → answer = .ok (some x) →
    RotatedIn rawToken x.refreshToken h

/-- A request that is no refresh. -/
lemma families_other {r : Request} {p : Tx (Option AuthResponse)}
    (hr : ∀ rawToken, r ≠ .refresh rawToken)
    (hp : Meets families (postgres ι) i (fun _ _ _ => True) p h s) :
    Meets families (postgres ι) i (Accepts r) p h s :=
  hp.mono fun _ _ _ _ rawToken _ heq _ => absurd heq (hr rawToken)

lemma families_revokes {r : Request} {p : Tx (Option AuthResponse)}
    (hr : ∀ rawToken, r ≠ .refresh rawToken) (hp : p.Issues Revokes) (h0 : Knows (Unwritten i) s) :
    Meets families (postgres ι) i (Accepts r) p h s :=
  families_other hr ((meets_revokes hp ⟨h0.1, h0.2.pending⟩).mono fun _ _ _ _ => trivial)

/-- **Every request** keeps the families. -/
theorem families_request (r : Request) (h0 : Knows (Unwritten i) s) :
    Meets families (postgres ι) i (Accepts r) (r.run cfg) h s := by
  have hbody : Meets families (postgres ι) i (Accepts r) (r.body cfg) h s := by
    cases r with
    | login email password =>
        refine families_other (by simp) ((families_login h0).bind families_compatible
          (fun _ _ _ _ => ?_) fun _ _ _ _ => trivial)
        exact fun _ _ _ _ _ => trivial
    | verifyMfa challenge code recovered =>
        refine families_other (by simp) (Meets.bind families_compatible
          (families_bind spares_verifyChallenge h0 fun user _ _ h0 => families_session h0)
          (fun _ _ _ _ => ?_) fun _ _ _ _ => trivial)
        exact fun _ _ _ _ _ => trivial
    | refresh rawToken =>
        refine (families_refresh h0).bind families_compatible (fun h x s hx => ?_)
          fun _ _ _ _ _ _ _ ha => by cases ha
        intro tr s' _ _ _ rawToken' y heq hy
        obtain rfl := Request.refresh.inj heq
        obtain rfl := Option.some.inj (Except.ok.inj hy)
        exact hx x rfl
    | logout token =>
        exact families_revokes (by simp)
          (revokes_authenticated fun _ => revokes_now fun _ => revokes_revokeSessions) h0
    | changePassword token current newPassword =>
        exact families_revokes (by simp)
          (revokes_authenticated (p := fun userId user =>
            AuthService.changePassword cfg userId user current newPassword)
            fun _ => revokes_changePassword) h0
    | resetPassword token newPassword =>
        exact families_revokes (by simp)
          (Prog.issues_bind revokes_resetPassword fun _ => trivial) h0
    | activateMfa token code =>
        exact families_revokes (by simp)
          (revokes_authenticated (p := fun userId user => MfaService.activate cfg userId user code)
            fun _ => revokes_activate) h0
    | disableMfa token code recovered =>
        exact families_revokes (by simp)
          (revokes_authenticated (p := fun userId user =>
            MfaService.disable cfg userId user code recovered) fun _ => revokes_disable) h0
  refine hbody.withSession families_compatible fun h res s tr s' hQ _ hr hI _ => ?_
  obtain ⟨h₁, h₂⟩ := families_step i h hI (q := .rollback) fun hc => by cases hc
  exact ⟨h₁, h₂, fun _ _ rawToken x heq hx => (hQ rawToken x heq hx).append⟩

end Rotation

/-! ### Every run -/

section Main

variable {ι : Type} [DecidableEq ι] {s : Database ι} {reqs : ι → Request} {cfg : Security}
  {c c₁ : Sessions ι (Option AuthResponse)}

/-- The refresh token is revoked. -/
def Revoked (rawToken : ℕ) (s : Database ι) : Prop :=
  (Committed s rawToken).any (fun r => r.revokedAt.isSome) = true

instance (rawToken : ℕ) : DecidablePred (Revoked rawToken : Database ι → Prop) :=
  fun _ => inferInstanceAs (Decidable (Option.any _ _ = true))

omit [DecidableEq ι] in
lemma revoked_iff {rawToken : ℕ} :
    Revoked rawToken s ↔ ∃ r, Committed s rawToken = some r ∧ r.revokedAt ≠ none := by
  rw [Revoked, Option.any_eq_true]
  simp only [Option.isSome_iff_ne_none]

omit [DecidableEq ι] in
/-- A revoked token stays revoked. -/
lemma revoked_lasts (rawToken : ℕ) : Lasts (Revoked rawToken : Database ι → Prop) := by
  intro s s' hm h
  obtain ⟨r, hr, hrevoked⟩ := revoked_iff.mp h
  obtain ⟨r', hr', hlater⟩ := hm rawToken r hr
  exact revoked_iff.mpr ⟨r', hr', hlater.revoked hrevoked⟩

omit [DecidableEq ι] in
lemma Rotation.active {s' : Database ι} {rawToken k : ℕ} (h : Rotation rawToken k s s') :
    ¬ Revoked rawToken s := by
  obtain ⟨r, r', hr, hact, -⟩ := h
  intro hrevoked
  obtain ⟨r₀, hr₀, hne⟩ := revoked_iff.mp hrevoked
  obtain rfl := Option.some.inj (hr.symm.trans hr₀)
  exact hne hact

omit [DecidableEq ι] in
lemma Rotation.revoked {s' : Database ι} {rawToken k : ℕ} (h : Rotation rawToken k s s') :
    Revoked rawToken s' := by
  obtain ⟨r, r', -, -, hr', hrevoked, -⟩ := h
  exact revoked_iff.mpr ⟨r', hr', hrevoked⟩

/-- What every run of requests keeps. -/
lemma families_of_run (hs : s.Settled) (hlin : Linear (Committed s))
    (h : Pool.Reach (postgres ι) (.start (fun i => (reqs i).run cfg) s) c) :
    Linear (Committed c.store)
      ∧ (∀ ev ∈ c.trace, Linear (Committed ev.after)
        ∧ Advance (Committed ev.before) (Committed ev.after))
      ∧ ∀ i rawToken x, reqs i = .refresh rawToken → sessionOf c i = some x →
        RotatedIn rawToken x.refreshToken (own i c.trace) := by
  have hunwritten : ∀ i, Unwritten i s := fun i n r hd => by
    rw [hs] at hd
    cases hd
  have hmeets : ∀ i, Meets families (postgres ι) i (Accepts (reqs i)) ((reqs i).run cfg) [] s :=
    fun i => families_request (reqs i) ⟨hlin, hunwritten i⟩
  have hC : Along families.assume c.trace := along_iff_forall_mem.mpr fun _ _ => trivial
  obtain ⟨hI, hguar, -⟩ := h.meets families_compatible hlin hmeets hC
  refine ⟨hI, along_iff_forall_mem.mp hguar, fun i rawToken x heq hx => ?_⟩
  exact h.post families_compatible hlin hmeets hC (procs_of_sessionOf hx) rfl rawToken x heq rfl

/-- **Families stay linear** in every run of requests, from every store on which no transaction is
open and families are: after every statement the committed tokens form chains with one active token
at most, and tokens only move on; a client whose refresh is answered has rotated its token, by a
commit made before the token was revoked or rotated otherwise; and no two clients rotate one token. -/
theorem families_linear (hs : s.Settled) (hlin : Linear (Committed s))
    (h : Pool.Reach (postgres ι) (.start (fun i => (reqs i).run cfg) s) c) :
    (∀ ev ∈ c.trace, Linear (Committed ev.after)
        ∧ Advance (Committed ev.before) (Committed ev.after))
      ∧ (∀ i rawToken x, reqs i = .refresh rawToken → sessionOf c i = some x →
        ∀ c₁ : Sessions ι (Option AuthResponse),
          Pool.Reach (postgres ι) (.start (fun i => (reqs i).run cfg) s) c₁ →
          Pool.Reach (postgres ι) c₁ c → Revoked rawToken c₁.store →
          RotatedIn rawToken x.refreshToken (own i c₁.trace))
      ∧ ∀ i j rawToken x y, reqs i = .refresh rawToken → reqs j = .refresh rawToken →
        sessionOf c i = some x → sessionOf c j = some y → i = j := by
  obtain ⟨-, hevents, hanswered⟩ := families_of_run hs hlin h
  have hkeep : ∀ rawToken, ∀ ev ∈ c.trace, Revoked rawToken ev.before → Revoked rawToken ev.after :=
    fun rawToken ev hev => revoked_lasts rawToken _ _ (hevents ev hev).2.rows
  refine ⟨hevents, fun i rawToken x heq hx c₁ _ h₂ hrevoked => ?_, ?_⟩
  · obtain ⟨ev, hev, hcommit, hrot⟩ := hanswered i rawToken x heq hx
    obtain ⟨hmem, hpid⟩ := mem_own.mp hev
    obtain ⟨-, hsince⟩ := h₂.held_since hrevoked fun ev hev =>
      hkeep rawToken ev (Pool.mem_of_mem_since hev)
    refine ⟨ev, mem_own.mpr ⟨?_, hpid⟩, hcommit, hrot⟩
    rcases h₂.mem_trace hmem with hold | hnew
    · exact hold
    · exact absurd (hsince ev hnew) hrot.active
  · intro i j rawToken x y hi hj hx hy
    obtain ⟨ev, hev, -, hrot⟩ := hanswered i rawToken x hi hx
    obtain ⟨ev', hev', -, hrot'⟩ := hanswered j rawToken y hj hy
    obtain ⟨hmem, rfl⟩ := mem_own.mp hev
    obtain ⟨hmem', rfl⟩ := mem_own.mp hev'
    have hone := h.flips_le_one (hkeep rawToken)
    rw [Pool.flip_unique hone hmem hmem' hrot.active hrot.revoked hrot'.active hrot'.revoked]

/-- A login, and two refreshes of its token. -/
def loginAndRefresh : Fin 3 → Request
  | 0 => .login "a@b.c" "p"
  | 1 => .refresh 2
  | 2 => .refresh 2

/-- The token of a login is rotated, and the families are linear. -/
theorem families_linear_refresh :
    ∃ c : Sessions (Fin 3) (Option AuthResponse),
      Pool.Reach (postgres (Fin 3)) (.start (fun i => (loginAndRefresh i).run plain) oneLogin) c
        ∧ Revoked 2 c.store ∧ RotatedIn 2 3 (own 1 c.trace)
        ∧ ∀ ev ∈ c.trace, Linear (Committed ev.after) := by
  have hrun : (((Pool.start (fun i => (loginAndRefresh i).run plain) oneLogin).run (postgres (Fin 3))
      (List.replicate 8 (.step 0) ++ List.replicate 9 (.step 1))).any fun c =>
        decide (Revoked 2 c.store) && decide ((sessionOf c 1).map (·.refreshToken) = some 3)) = true := by
    decide +kernel
  obtain ⟨c, hc, hP⟩ := Pool.exists_of_run hrun
  obtain ⟨hrevoked, hanswered⟩ := Bool.and_eq_true_iff.mp hP
  obtain ⟨x, hx, hsucc⟩ := Option.map_eq_some_iff.mp (of_decide_eq_true hanswered)
  have hlin := families_linear (fun _ _ => rfl) (linear_of_none fun _ => rfl) hc
  refine ⟨c, hc, of_decide_eq_true hrevoked, ?_, fun ev hev => (hlin.1 ev hev).1⟩
  have hrotated := hlin.2.1 1 2 x rfl hx c hc .refl (of_decide_eq_true hrevoked)
  rwa [hsucc] at hrotated

end Main

end Accounts
