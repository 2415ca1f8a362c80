import AgencyOS.Accounts.TokenFamily

/-!
Bulk revocation of refresh tokens under concurrent rotations.

A bulk revocation reads the active tokens of a user or of a family and then updates them one by one.
A rotation that commits in between leaves a successor that was not read; and a revocation for a user
does not read an expired token, whose rotation may still be under way.

* `Query.covers`, `Query.skips`: the tokens that a bulk revocation is for, and those it leaves;
* `Sweep`, `openScans`: the bulk reads of the open transaction of a session;
* `Buried`: no token that a bulk revocation is for can be used, nor any that descends from one;
* `Undisturbed`: the rotations and the revocations keep out of each other's way;
* `sweeps`: the contract of the requests, and `sweeps_request`;
* `revocation_complete` (**bulk revocation is complete**).
-/

namespace Accounts

open Txn Automation

/-! ### Bulk revocations -/

/-- The tokens that a bulk revocation is for. -/
def Query.covers : Query → ℕ → RefreshToken → Bool
  | .outstanding userId _, _, r => r.userId = userId
  | .family familyId, n, r => r.family n = familyId
  | _, _, _ => false

/-- The tokens of its user that a bulk revocation leaves as expired. -/
def Query.skips : Query → RefreshToken → Bool
  | .outstanding userId now, r => r.userId = userId && decide (r.expiresAt ≤ now)
  | _, _ => false

/-- A bulk read that is the first half of a bulk revocation. -/
def Query.bulk : Query → Bool
  | .outstanding .. | .family _ => true
  | _ => false

lemma Query.skips_later {p : Query} {r r' : RefreshToken} (h : r.Later r') :
    p.skips r' = p.skips r := by
  cases p with
  | outstanding userId now => rw [skips, skips, h.userId, h.expiresAt]
  | _ => rfl

/-- A successor is covered with the token that it follows. -/
lemma Query.covers_follows {p : Query} {n k : ℕ} {r rk : RefreshToken} (h : rk.Follows n r) :
    p.covers k rk = p.covers n r := by
  cases p with
  | outstanding userId now => rw [covers, covers, h.userId]
  | family familyId =>
      rw [covers, covers, RefreshToken.family, h.familyId, Option.getD_some]
  | _ => rfl

lemma Query.covers_later {p : Query} {n : ℕ} {r r' : RefreshToken} (h : r.Later r') :
    p.covers n r' = p.covers n r := by
  cases p with
  | outstanding userId now => rw [covers, covers, h.userId]
  | family familyId => rw [covers, covers, h.family]
  | _ => rfl

section Sweeps

variable {ι : Type} {s s' : Database ι} {n k : ℕ}

/-- The bulk read of a revocation, and the store that it read. -/
structure Sweep (ι : Type) where
  before : Database ι
  query : Query

/-- The token is one that the revocation is for. -/
def Sweep.Found (w : Sweep ι) (n : ℕ) : Prop :=
  ∃ r, Committed w.before n = some r ∧ w.query.covers n r = true

/-- The bulk reads of the transaction that a session with the events `h` has open. -/
def openScans (h : List (Happened ι)) : List (Sweep ι) :=
  h.foldl (fun reads ev => match ev.stmt with
    | .commit | .rollback => []
    | .scan p => if p.bulk then reads ++ [⟨ev.before, p⟩] else reads
    | _ => reads) []

@[simp] lemma openScans_nil : openScans ([] : List (Happened ι)) = [] := rfl

lemma openScans_snoc (h : List (Happened ι)) (ev : Happened ι) :
    openScans (h ++ [ev]) = match ev.stmt with
      | .commit | .rollback => []
      | .scan p => if p.bulk then openScans h ++ [⟨ev.before, p⟩] else openScans h
      | _ => openScans h := by
  rw [openScans, List.foldl_append]
  rfl

/-- A bulk read of the open transaction was executed. -/
lemma mem_of_mem_openScans {w : Sweep ι} {h : List (Happened ι)} (hw : w ∈ openScans h) :
    ∃ ev ∈ h, ev.stmt = .scan w.query ∧ ev.before = w.before := by
  induction h using List.reverseRecOn with
  | nil => cases hw
  | append_singleton h ev ih =>
      have hold : w ∈ openScans h → ∃ ev' ∈ h ++ [ev], ev'.stmt = .scan w.query
          ∧ ev'.before = w.before := by
        intro hmem
        obtain ⟨ev', hev', hstmt⟩ := ih hmem
        exact ⟨ev', List.mem_append_left _ hev', hstmt⟩
      rw [openScans_snoc] at hw
      split at hw
      · cases hw
      · cases hw
      · rename_i p hstmt
        split_ifs at hw
        · rcases List.mem_append.mp hw with hmem | hmem
          · exact hold hmem
          · obtain rfl := List.mem_singleton.mp hmem
            exact ⟨ev, List.mem_append_right _ (List.mem_singleton_self _), hstmt, rfl⟩
        · exact hold hw
      · exact hold hw

/-- The tokens that a revocation is for cannot be used, and only they descend from them. -/
def Buried (w : Sweep ι) (s : Database ι) : Prop :=
  ∀ n, w.Found n → ∃ r, Committed s n = some r
    ∧ (r.revokedAt ≠ none ∨ r.replacedBy = none ∧ w.query.skips r = true)
    ∧ ∀ k, r.replacedBy = some k → w.Found k

/-- No token is rotated that a bulk read has skipped. -/
def Unrotated (q : Sql accounts) (s s' : Database ι) : Prop :=
  ∀ p, q = .scan p → ∀ n r r', Committed s n = some r → Committed s' n = some r' →
    p.skips r = true → r.replacedBy = none → r'.replacedBy = none

lemma Unrotated.of_eq {q : Sql accounts} (h : Committed s' = Committed s) : Unrotated q s s' := by
  intro p _ n r r' hr hr' _ hnone
  rw [h, hr] at hr'
  obtain rfl := Option.some.inj hr'
  exact hnone

lemma Unrotated.trans {q : Sql accounts} {s'' : Database ι} (h : Unrotated q s s')
    (h' : Unrotated q s' s'') (hm : Moved s s') : Unrotated q s s'' := by
  intro p hq n r r'' hr hr'' hskip hnone
  obtain ⟨r', hr', hlater⟩ := hm n r hr
  refine h' p hq n r' r'' hr' hr'' ?_ (h p hq n r r' hr hr' hskip hnone)
  rwa [Query.skips_later hlater]

/-- What is buried stays so. -/
lemma Buried.moved {w : Sweep ι} (h : Buried w s) (hm : Moved s s')
    (hu : Unrotated (.scan w.query) s s') : Buried w s' := by
  intro n hn
  obtain ⟨r, hr, hdead, hclosed⟩ := h n hn
  obtain ⟨r', hr', hlater⟩ := hm n r hr
  refine ⟨r', hr', ?_⟩
  by_cases hrevoked : r.revokedAt = none
  · obtain ⟨hnone, hskip⟩ := hdead.resolve_left fun hne => hne hrevoked
    have hnone' : r'.replacedBy = none := hu _ rfl n r r' hr hr' hskip hnone
    refine ⟨Or.inr ⟨hnone', by rwa [Query.skips_later hlater]⟩, fun k hk => ?_⟩
    rw [hnone'] at hk
    cases hk
  · rw [hlater.frozen hrevoked]
    exact ⟨Or.inl hrevoked, hclosed⟩

/-! ### Rotations and revocations out of each other's way -/

/-- The successor of a committed token. -/
def successorOf (n : ℕ) (s : Database ι) : Option ℕ :=
  (Committed s n).bind RefreshToken.replacedBy

/-- The statement is a bulk read that has skipped the token. -/
def skipped (r : Option RefreshToken) : Sql accounts → Bool
  | .scan p => r.any p.skips
  | _ => false

/-- A commit rotates no token that a bulk read has skipped before. -/
def Early (past : List (Happened ι)) (ev : Happened ι) : Prop :=
  ∀ n < ev.before.fresh, successorOf n ev.before = none → successorOf n ev.after ≠ none →
    ∀ sc ∈ past, skipped (Committed ev.before n) sc.stmt = false

instance (past : List (Happened ι)) (ev : Happened ι) : Decidable (Early past ev) :=
  inferInstanceAs (Decidable (∀ n < ev.before.fresh, _ → _ → ∀ sc ∈ past, _ = false))

lemma Early.unrotated {past : List (Happened ι)} {ev sc : Happened ι} (h : Early past ev)
    (hsc : sc ∈ past) : Unrotated sc.stmt ev.before ev.after := by
  intro p hp n r r' hr hr' hskip hnone
  by_contra hne
  have hbefore : successorOf n ev.before = none := by rw [successorOf, hr]; exact hnone
  have hafter : successorOf n ev.after ≠ none := by rw [successorOf, hr']; exact hne
  have hskipped := h n (Db.lt_fresh_of_committed hr) hbefore hafter sc hsc
  rw [hr, hp] at hskipped
  simp [skipped, hskip] at hskipped

variable [DecidableEq ι] {i j : ι} {w : Sweep ι} {todo : List ℕ}

/-- The update of a row by a revocation meets no token that has been rotated. -/
def Clear (ev : Happened ι) : Prop :=
  match ev.stmt with
  | .update (.revoke _) n | .update (.revokeOutstanding ..) n =>
      (ev.before.view ev.pid .refreshTokens n).all (fun r => r.replacedBy.isNone) = true
  | _ => True

instance : (ev : Happened ι) → Decidable (Clear ev)
  | ⟨_, .update (.revoke _) _, _, _⟩ => inferInstanceAs (Decidable (_ = true))
  | ⟨_, .update (.revokeOutstanding ..) _, _, _⟩ => inferInstanceAs (Decidable (_ = true))
  | ⟨_, .update (.flush ..) _, _, _⟩ | ⟨_, .update (.markReplaced ..) _, _, _⟩
  | ⟨_, .update (.claim ..) _, _, _⟩ | ⟨_, .select .., _, _⟩ | ⟨_, .scan _, _, _⟩ | ⟨_, .insert _, _, _⟩
  | ⟨_, .now, _, _⟩ | ⟨_, .commit, _, _⟩ | ⟨_, .rollback, _, _⟩ => .isTrue trivial

/-- Rotations and revocations keep out of each other's way. -/
def Undisturbed (past : List (Happened ι)) (ev : Happened ι) : Prop := Clear ev ∧ Early past ev

instance (past : List (Happened ι)) (ev : Happened ι) : Decidable (Undisturbed past ev) :=
  inferInstanceAs (Decidable (_ ∧ _))

/-! ### The progress of a revocation -/

/-- How far session `i` has come with a token that stood as `r₀`: it had been revoked before, or it
is still to be updated, or it cannot be used and has no successor. -/
def Handled (i : ι) (w : Sweep ι) (todo : List ℕ) (s : Database ι) (n : ℕ) (r₀ : RefreshToken) :
    Prop :=
  ∃ r, Seen i s n = some r ∧ r₀.Later r
    ∧ (r₀.revokedAt ≠ none ∨ n ∈ todo
      ∨ r.replacedBy = none ∧ (r.revokedAt ≠ none ∨ w.query.skips r = true))

/-- How far session `i` has come with the revocation, but for the rows `todo`. -/
def Progress (i : ι) (w : Sweep ι) (todo : List ℕ) (s : Database ι) : Prop :=
  ∀ n r₀, Committed w.before n = some r₀ → w.query.covers n r₀ = true → Handled i w todo s n r₀

lemma Progress.frame (h : Progress i w todo s) (hf : Frame i s s') (hm : Moved s s')
    (hu : Unrotated (.scan w.query) s s') : Progress i w todo s' := by
  intro n r₀ hr₀ hcov
  obtain ⟨r, hr, hlater, hcase⟩ := h n r₀ hr₀ hcov
  rcases hf.view_cases .refreshTokens n with ⟨hsame, -⟩ | ⟨hview, hview'⟩
  · exact ⟨r, hsame.trans hr, hlater, hcase⟩
  · have hcom : Committed s n = some r := hview.symm.trans hr
    obtain ⟨r', hr', hlater'⟩ := hm n r hcom
    refine ⟨r', hview'.trans hr', hlater.trans hlater', ?_⟩
    refine hcase.imp_right (Or.imp_right ?_)
    rintro ⟨hnone, hdead⟩
    by_cases hrevoked : r.revokedAt = none
    · have hskip := hdead.resolve_left fun hne => hne hrevoked
      exact ⟨hu _ rfl n r r' hcom hr' hskip hnone, Or.inr (by rwa [Query.skips_later hlater'])⟩
    · rw [hlater'.frozen hrevoked]
      exact ⟨hnone, Or.inl hrevoked⟩

lemma Progress.of_seen (h : Progress i w todo s) (hseen : Seen i s' = Seen i s) :
    Progress i w todo s' := by
  intro n r₀ hr₀ hcov
  obtain ⟨r, hr, hcase⟩ := h n r₀ hr₀ hcov
  exact ⟨r, (congrFun hseen n).trans hr, hcase⟩

/-- When the revocation has come to its end, its commit buries the tokens. -/
lemma Progress.buried (h : Progress i w [] s) (hlin : Linear (Committed w.before)) :
    Buried w (s.commit i) := by
  rintro n ⟨r₀, hr₀, hcov⟩
  obtain ⟨r, hr, hlater, hcase⟩ := h n r₀ hr₀ hcov
  refine ⟨r, hr, ?_⟩
  rcases hcase with hrevoked | htodo | ⟨hnone, hdead⟩
  · obtain rfl := hlater.frozen hrevoked
    refine ⟨Or.inl hrevoked, fun k hk => ?_⟩
    obtain ⟨-, rk, hrk, hfollows⟩ := hlin.successor n r k hr₀ hk
    exact ⟨rk, hrk, (Query.covers_follows hfollows).trans hcov⟩
  · cases htodo
  · refine ⟨hdead.imp_right fun hskip => ⟨hnone, hskip⟩, fun k hk => ?_⟩
    rw [hnone] at hk
    cases hk

/-- Session `i` has written no token that was committed before. -/
def OnlyNew (i : ι) (s : Database ι) : Prop :=
  ∀ n r, s.dirty .refreshTokens n = some (i, r) → Committed s n = none

lemma OnlyNew.frame (h : OnlyNew i s) (hf : Frame i s s') : OnlyNew i s' := by
  intro n r hd
  have hd' := (hf.dirty _ n r).mp hd
  exact (hf.committed _ n r hd').trans (h n r hd')

lemma OnlyNew.seen (h : OnlyNew i s) {r : RefreshToken} (hr : Committed s n = some r) :
    Seen i s n = some r := by
  refine (Db.view_of_not_own fun r' hd => ?_).trans hr
  have hnone : Committed s n = none := h n r' hd
  rw [hr] at hnone
  cases hnone

/-- A revocation begins with the rows that it has read. -/
lemma OnlyNew.progress (h : OnlyNew i s) (hlin : Linear (Committed s)) {p : Query}
    (htodo : ∀ n r, s.view i .refreshTokens n = some r → p.covers n r = true →
      r.revokedAt = none → p.skips r = false → n ∈ todo) : Progress i ⟨s, p⟩ todo s := by
  intro n r₀ hr₀ hcov
  have hseen := h.seen hr₀
  refine ⟨r₀, hseen, .refl r₀, ?_⟩
  by_cases hact : r₀.revokedAt = none
  · have hnone : r₀.replacedBy = none := by
      by_contra hne
      obtain ⟨k, hk⟩ := Option.ne_none_iff_exists'.mp hne
      exact (hlin.successor n r₀ k hr₀ hk).1 hact
    cases hskip : p.skips r₀ with
    | true => exact Or.inr (Or.inr ⟨hnone, Or.inr rfl⟩)
    | false => exact Or.inr (Or.inl (htodo n r₀ hseen hcov hact hskip))
  · exact Or.inl hact

/-- The statement by which a revocation updates a row. -/
def RowUpdate (p : Query) (u : Update) : Prop :=
  (∃ now, u = .revoke now)
    ∨ ∃ userId now, u = .revokeOutstanding userId now ∧ p = .outstanding userId now

/-- What the update of a row leaves: a token that cannot be used. -/
lemma seen_rowUpdate {u : Update} (hu : RowUpdate w.query u) {r : RefreshToken}
    (hready : Db.ready i (.update u n : Sql accounts) s = true) (hr : Seen i s n = some r)
    (hcov : w.query.covers n r = true) (hclear : r.replacedBy = none) :
    ∃ r', Seen i (Db.effect i (.update u n) s) = Function.update (Seen i s) n (some r')
      ∧ r.Later r' ∧ r'.replacedBy = none ∧ (r'.revokedAt ≠ none ∨ w.query.skips r' = true) := by
  have hsame : Function.update (Seen i s) n (some r) = Seen i s :=
    Function.update_eq_self_iff.mpr hr.symm
  have hrevoked : ∀ now : Time, r.revokedAt = none →
      r.Later { r with revokedAt := some now } := fun now hact =>
    ⟨rfl, rfl, rfl, fun h => absurd hact h, fun h => absurd rfl h⟩
  rcases hu with ⟨now, rfl⟩ | ⟨userId, now, rfl, hp⟩
  · cases hw : s.written i (.revoke now : accounts.Update) n with
    | none =>
        have hguard := Db.guard_of_written_eq_none hready hw hr
        refine ⟨r, ?_, .refl r, hclear, Or.inl fun hact => ?_⟩
        · rw [Db.effect_update_of_none hw, hsame]
        · have hact' : r.revokedAt.isNone = false := hguard
          rw [hact] at hact'
          cases hact'
    | some r' =>
        obtain ⟨-, r₁, hr₁, hg, rfl⟩ := Db.written_eq_some.mp hw
        obtain rfl := Option.some.inj (hr.symm.trans hr₁)
        refine ⟨_, ?_, hrevoked now (Option.isNone_iff_eq_none.mp hg), hclear,
          Or.inl (Option.some_ne_none now)⟩
        rw [Db.effect_update hw, Seen, Db.view_write]
        rfl
  · cases hw : s.written i (.revokeOutstanding userId now : accounts.Update) n with
    | none =>
        have hguard : RefreshToken.outstanding userId now r = false :=
          Db.guard_of_written_eq_none hready hw hr
        rw [hp] at hcov
        have huser : r.userId = userId := of_decide_eq_true hcov
        refine ⟨r, by rw [Db.effect_update_of_none hw, hsame], .refl r, hclear, ?_⟩
        by_cases hact : r.revokedAt = none
        · refine Or.inr ?_
          rw [hp]
          simpa [RefreshToken.outstanding, Query.skips, huser, hact] using hguard
        · exact Or.inl hact
    | some r' =>
        obtain ⟨-, r₁, hr₁, hg, rfl⟩ := Db.written_eq_some.mp hw
        obtain rfl := Option.some.inj (hr.symm.trans hr₁)
        have hguard : RefreshToken.outstanding userId now r = true := hg
        simp only [RefreshToken.outstanding, Bool.and_eq_true] at hguard
        refine ⟨_, ?_, hrevoked now (Option.isNone_iff_eq_none.mp hguard.1.2), hclear,
          Or.inl (Option.some_ne_none now)⟩
        rw [Db.effect_update hw, Seen, Db.view_write]
        rfl

/-- **One row** of a revocation. -/
lemma Progress.update {u : Update} {m : ℕ} (h : Progress i w (m :: todo) s)
    (hu : RowUpdate w.query u) (hready : Db.ready i (.update u m : Sql accounts) s = true)
    (hclear : Clear ⟨i, .update u m, s, Db.effect i (.update u m) s⟩) :
    Progress i w todo (Db.effect i (.update u m) s) := by
  intro n r₀ hr₀ hcov
  obtain ⟨r, hr, hlater, hcase⟩ := h n r₀ hr₀ hcov
  by_cases hn : n = m
  · subst hn
    have hnone : r.replacedBy = none := by
      have hview : s.view i .refreshTokens n = some r := hr
      rcases hu with ⟨now, rfl⟩ | ⟨userId, now, rfl, -⟩ <;>
        simpa [Clear, hview] using hclear
    obtain ⟨r', hseen, hlater', hnone', hdead⟩ := seen_rowUpdate hu hready hr
      ((Query.covers_later hlater).trans hcov) hnone
    refine ⟨r', ?_, hlater.trans hlater', Or.inr (Or.inr ⟨hnone', hdead⟩)⟩
    rw [hseen, Function.update_self]
  · refine ⟨r, ?_, hlater, ?_⟩
    · rw [← hr]
      refine Db.view_effect_of_ne (by simp) (fun u' m' heq hne => ?_) fun x heq => by cases heq
      obtain ⟨-, rfl⟩ := Sql.update.inj heq
      exact hn hne.2
    · refine hcase.imp_right (Or.imp_left fun hmem => ?_)
      exact (List.mem_cons.mp hmem).resolve_left hn

end Sweeps

/-! ### The contract -/

section Contract

variable {ι : Type} [DecidableEq ι] {s s' : Database ι} {i : ι} {q : Sql accounts}
  {h : List (Happened ι)} {reqs : ι → Request} {w : Sweep ι}

/-- The bulk read of a revocation of everything a user has. -/
def SweepsUser (userId : ℕ) (w : Sweep ι) : Prop := ∃ now, w.query = .outstanding userId now

/-- The bulk read of a revocation of the family of a token. -/
def SweepsFamily (rawToken : ℕ) (w : Sweep ι) : Prop :=
  ∃ r, Committed w.before rawToken = some r ∧ w.query = .family (r.family rawToken)

/-- The session has read that the account token belongs to user `m`. -/
def HasRead (rawToken m : ℕ) (h : List (Happened ι)) : Prop :=
  ∃ ev ∈ h, ev.stmt = .select .authTokens rawToken
    ∧ (ev.before.view ev.pid .authTokens rawToken).map AuthToken.userId = some m

/-- What the commit of a request is the end of: a revocation by a revoking request, and a rotation
or a revocation by a refresh. -/
def Swept (h : List (Happened ι)) (s s' : Database ι) : Request → Prop
  | .login .. | .verifyMfa .. => True
  | .refresh rawToken => (successorOf rawToken s = none ∧ successorOf rawToken s' ≠ none)
      ∨ ∃ w ∈ openScans h, SweepsFamily rawToken w
  | .logout token | .changePassword token .. | .activateMfa token .. | .disableMfa token .. =>
      ∃ w ∈ openScans h, SweepsUser token.sub w
  | .resetPassword rawToken _ => ∃ w ∈ openScans h, ∃ m, HasRead rawToken m h ∧ SweepsUser m w

/-- The time by which the tokens that a revocation has skipped had expired. -/
def Query.time : Query → ℕ
  | .outstanding _ now => now
  | _ => 0

/-- The contract of the requests: every revocation that is committed has buried its tokens. -/
def sweeps (reqs : ι → Request) : Contract (sql accounts) ι (Database ι) where
  inv := fun _ _ => True
  assume := fun past ev => Undisturbed past ev ∧ Linear (Committed ev.before)
    ∧ Moved ev.before ev.after
  guar := fun i h ev => ev.before.time ≤ ev.after.time ∧ (ev.stmt = .commit →
    (∀ w ∈ openScans h, Buried w ev.after ∧ w.query.time ≤ ev.after.time)
      ∧ Swept h ev.before ev.after (reqs i))
  rely := fun i h s s' => Frame i s s' ∧ Moved s s' ∧ ∀ sc ∈ h, Unrotated sc.stmt s s'

lemma sweeps_compatible : (sweeps reqs).Compatible (postgres ι) where
  refl := fun i _ s => ⟨.refl i s, .refl s, fun _ _ => .of_eq rfl⟩
  trans := fun i _ _ _ _ h h' => ⟨h.1.trans h'.1, h.2.1.trans h'.2.1,
    fun sc hsc => (h.2.2 sc hsc).trans (h'.2.2 sc hsc) h.2.1⟩
  step := fun tr ev j hj _ hC _ heff _ => by
    refine ⟨?_, hC.2.2, fun sc hsc => hC.1.2.unrotated (mem_own.mp hsc).1⟩
    rw [heff]
    exact frame_effect (fun hij => hj hij.symm) ev.stmt ev.before
  hangup := fun tr i s _ _ _ => ⟨trivial, Db.time_effect_le i .rollback s, fun hq => by cases hq⟩

variable {α : Type}

/-- A bulk read that begins a revocation. -/
def BulkRead : Sql accounts → Prop
  | .scan p => p.bulk = true
  | _ => False

omit [DecidableEq ι] in
lemma openScans_eq_nil (hq : ¬ BulkRead q) (h0 : openScans h = []) :
    openScans (h ++ [⟨i, q, s, s'⟩]) = [] := by
  rw [openScans_snoc]
  cases q with
  | scan p =>
      have hp : p.bulk ≠ true := hq
      simp [hp, h0]
  | commit => rfl
  | rollback => rfl
  | _ => exact h0

/-- A statement other than a commit, with whatever the session knows. -/
lemma sweeps_statement {A : List (Happened ι) → Database ι → Prop}
    {B : q.Resp → List (Happened ι) → Database ι → Prop} (hq : q ≠ .commit)
    (hA : ∀ h s s', A h s → (sweeps reqs).rely i h s s' → A h s')
    (hB : ∀ a h s s', B a h s → (sweeps reqs).rely i h s s' → B a h s')
    (hstep : ∀ s, Linear (Committed s) → Db.ready i q s = true →
      Clear ⟨i, q, s, Db.effect i q s⟩ → A h s →
      B (Db.answer i q s) (h ++ [⟨i, q, s, Db.effect i q s⟩]) (Db.effect i q s)) (h0 : A h s) :
    Meets (sweeps reqs) (postgres ι) i (fun h r s => ∀ a, r = .ok a → B a h s)
      (Prog.ask (S := sql accounts) q : Txn.Tx accounts Exn q.Resp) h s := by
  refine (meets_ask (P := fun s => B (Db.answer i q s) (h ++ [⟨i, q, s, Db.effect i q s⟩])
    (Db.effect i q s)) ?_).mono ?_
  · intro tr s₁ _ hr _ hready hC
    refine ⟨trivial, ⟨Db.time_effect_le i q s₁, fun hc => absurd hc hq⟩, ?_⟩
    exact hstep s₁ hC.2.1 hready hC.1.1 (hA h s s₁ h0 hr)
  · rintro h' r s' ⟨s₁, hB₁, rfl, rfl, hr⟩ a ha
    obtain rfl := Except.ok.inj ha
    exact hB _ _ _ s' hB₁ hr

/-! ### Before the bulk read -/

/-- An assertion that the statements of the others and of the session itself keep. -/
structure Steady (i : ι) (C : List (Happened ι) → Database ι → Prop) : Prop where
  others : ∀ h s s', Frame i s s' → Moved s s' → C h s → C h s'
  own : ∀ h q s, Moved s (Db.effect i q s) → C h s →
    C (h ++ [⟨i, q, s, Db.effect i q s⟩]) (Db.effect i q s)

lemma steady_true : Steady i (fun _ _ => True : List (Happened ι) → Database ι → Prop) :=
  ⟨fun _ _ _ _ _ h => h, fun _ _ _ _ h => h⟩

lemma steady_lasts {C : Database ι → Prop} (hC : Lasts C) : Steady i fun _ s => C s :=
  ⟨fun _ s s' _ hm h => hC s s' hm h, fun _ _ s hm h => hC s _ hm h⟩

lemma steady_time (now : ℕ) : Steady i (fun _ s => now ≤ s.time : List (Happened ι) → Database ι → Prop) :=
  ⟨fun _ _ _ hf _ h => h.trans hf.time_le, fun _ q s _ h => h.trans (Db.time_effect_le i q s)⟩

lemma steady_read (rawToken m : ℕ) : Steady i (fun h (_ : Database ι) => HasRead rawToken m h) where
  others := fun _ _ _ _ _ h => h
  own := fun _ _ _ _ h => by
    obtain ⟨ev, hev, hread⟩ := h
    exact ⟨ev, List.mem_append_left _ hev, hread⟩

lemma Steady.and {C D : List (Happened ι) → Database ι → Prop} (hC : Steady i C)
    (hD : Steady i D) : Steady i fun h s => C h s ∧ D h s :=
  ⟨fun h s s' hf hm hs => ⟨hC.others h s s' hf hm hs.1, hD.others h s s' hf hm hs.2⟩,
    fun h q s hm hs => ⟨hC.own h q s hm hs.1, hD.own h q s hm hs.2⟩⟩

variable {C : List (Happened ι) → Database ι → Prop} {p : Query}

/-- A session that has not begun to revoke. -/
def Waiting (i : ι) (C : List (Happened ι) → Database ι → Prop) (h : List (Happened ι))
    (s : Database ι) : Prop := openScans h = [] ∧ OnlyNew i s ∧ C h s

lemma Waiting.rely (hC : Steady i C) (hs : Waiting i C h s) (hr : (sweeps reqs).rely i h s s') :
    Waiting i C h s' := ⟨hs.1, hs.2.1.frame hr.1, hC.others h s s' hr.1 hr.2.1 hs.2.2⟩

/-- A statement that a session may put before and after a revocation. -/
def Idle (q : Sql accounts) : Prop := Spares q ∧ ¬ BulkRead q ∧ q ≠ .commit ∧ q ≠ .rollback

lemma OnlyNew.effect (h : OnlyNew i s) (hq : Spares q) (hcommit : q ≠ .commit) :
    OnlyNew i (Db.effect i q s) := by
  intro n r hd
  rw [Committed, Db.committed_effect hcommit]
  rcases Db.dirty_effect_cases hd with ⟨hold, -⟩ | ⟨-, ⟨u, r₀, rfl, -, -, heq⟩ | ⟨x, rfl, -, -⟩⟩
  · exact h n r hold
  · exact absurd (congrArg Sigma.fst heq) hq
  · cases hq

lemma Waiting.effect (hC : Steady i C) (hs : Waiting i C h s) (hq : Idle q)
    (hm : Moved s (Db.effect i q s)) :
    Waiting i C (h ++ [⟨i, q, s, Db.effect i q s⟩]) (Db.effect i q s) :=
  ⟨openScans_eq_nil hq.2.1 hs.1, hs.2.1.effect hq.1 hq.2.2.1, hC.own h q s hm hs.2.2⟩

/-- A program of idle statements keeps what its session knows. -/
lemma sweeps_idle {A : List (Happened ι) → Database ι → Prop} {p : Tx α} (hp : p.Issues Idle)
    (hA : ∀ h s s', A h s → (sweeps reqs).rely i h s s' → A h s')
    (hstep : ∀ h q s, Idle q → Moved s (Db.effect i q s) → A h s →
      A (h ++ [⟨i, q, s, Db.effect i q s⟩]) (Db.effect i q s)) (h0 : A h s) :
    Meets (sweeps reqs) (postgres ι) i (fun h _ s => A h s) p h s := by
  refine meets_of_issues hp hA ?_ h0
  intro tr q h s _ hq _ hs _ hC
  exact ⟨trivial, ⟨Db.time_effect_le i q s, fun hc => absurd hc hq.2.2.1⟩, hstep h q s hq hC.2.2 hs⟩

lemma sweeps_waiting (hC : Steady i C) {p : Tx α} (hp : p.Issues Idle) (h0 : Waiting i C h s) :
    Meets (sweeps reqs) (postgres ι) i (fun h _ s => Waiting i C h s) p h s :=
  sweeps_idle hp (fun _ _ _ hs hr => hs.rely hC hr) (fun _ _ _ hq hm hs => hs.effect hC hq hm) h0

/-! ### The revocation -/

/-- A session that has the rows `todo` still to update. -/
structure Sweeping (i : ι) (P : Sweep ι → Prop) (C : List (Happened ι) → Database ι → Prop)
    (todo : List ℕ) (h : List (Happened ι)) (s : Database ι) (w : Sweep ι) : Prop where
  scans : openScans h = [w]
  target : P w
  linear : Linear (Committed w.before)
  time : w.query.time ≤ s.time
  progress : Progress i w todo s
  known : C h s

variable {P : Sweep ι → Prop} {todo : List ℕ}

lemma Sweeping.rely (hC : Steady i C) (hs : Sweeping i P C todo h s w)
    (hr : (sweeps reqs).rely i h s s') : Sweeping i P C todo h s' w := by
  obtain ⟨sc, hsc, hstmt, -⟩ := mem_of_mem_openScans (w := w) (h := h) (by simp [hs.scans])
  have hu : Unrotated (.scan w.query) s s' := hstmt ▸ hr.2.2 sc hsc
  exact ⟨hs.scans, hs.target, hs.linear, hs.time.trans hr.1.time_le,
    hs.progress.frame hr.1 hr.2.1 hu, hC.others h s s' hr.1 hr.2.1 hs.known⟩

/-- The bulk read. -/
lemma sweeps_scan (rest : List (ℕ × accounts.Row (accounts.source p)) → List ℕ) (hC : Steady i C)
    (hbulk : p.bulk = true) (hP : ∀ h s, C h s → P ⟨s, p⟩ ∧ p.time ≤ s.time)
    (hrest : ∀ s : Database ι, ∀ n r, s.view i .refreshTokens n = some r → p.covers n r = true →
      r.revokedAt = none → p.skips r = false → n ∈ rest (s.rows i p)) (h0 : Waiting i C h s) :
    Meets (sweeps reqs) (postgres ι) i
      (fun h r s => ∀ rows, r = .ok rows → ∃ w, Sweeping i P C (rest rows) h s w)
      (Tx.scan (S := accounts) p : Txn.Tx accounts Exn _) h s := by
  refine sweeps_statement (q := .scan p) (B := fun rows h s => ∃ w, Sweeping i P C (rest rows) h s w)
    (by simp) (fun _ _ _ hs hr => hs.rely hC hr)
    (fun _ _ _ _ ⟨w, hs⟩ hr => ⟨w, hs.rely hC hr⟩) (fun s hlin _ _ hs => ⟨⟨s, p⟩, ?_⟩) h0
  obtain ⟨hscans, hnew, hknown⟩ := hs
  obtain ⟨htarget, htime⟩ := hP h s hknown
  refine ⟨?_, htarget, hlin, htime, hnew.progress hlin (hrest s), hC.own h _ s (.refl s) hknown⟩
  rw [openScans_snoc, hscans]
  simp [hbulk]

/-- One row. -/
lemma sweeps_revokeRow (hC : Steady i C) {u : Update} {m : ℕ}
    (hu : ∀ w, P w → RowUpdate w.query u) (h0 : ∃ w, Sweeping i P C (m :: todo) h s w) :
    Meets (sweeps reqs) (postgres ι) i
      (fun h r s => ∀ a, r = .ok a → ∃ w, Sweeping i P C todo h s w)
      (RefreshTokenRepository.revokeRow u m) h s := by
  refine (sweeps_statement (q := .update u m) (A := fun h s => ∃ w, Sweeping i P C (m :: todo) h s w)
    (B := fun _ h s => ∃ w, Sweeping i P C todo h s w) (by simp) (fun _ _ _ ⟨w, hs⟩ hr => ⟨w, hs.rely hC hr⟩)
    (fun _ _ _ _ ⟨w, hs⟩ hr => ⟨w, hs.rely hC hr⟩) ?_ h0).bind sweeps_compatible
    (fun h row s hs => ?_) fun _ _ _ _ _ ha => by cases ha
  · rintro s - hready hclear ⟨w, hs⟩
    refine ⟨w, ?_, hs.target, hs.linear, hs.time.trans (Db.time_effect_le i _ s),
      hs.progress.update (hu w hs.target) hready hclear, hC.own h _ s ?_ hs.known⟩
    · rw [openScans_snoc, hs.scans]
    · exact .of_eq (Db.committed_effect (by simp))
  · intro _ s' _ hr _ a _
    obtain ⟨w, hw⟩ := hs row rfl
    exact ⟨w, hw.rely hC hr⟩

/-- All rows. -/
lemma sweeps_rows (hC : Steady i C) {u : Update} (hu : ∀ w, P w → RowUpdate w.query u)
    (rows : List (ℕ × RefreshToken)) (h0 : ∃ w, Sweeping i P C (rows.map Prod.fst) h s w) :
    Meets (sweeps reqs) (postgres ι) i (fun h r s => ∀ a, r = .ok a → ∃ w, Sweeping i P C [] h s w)
      (Prog.tally rows fun row => RefreshTokenRepository.revokeRow u row.1) h s := by
  refine Meets.tally sweeps_compatible
    (J := fun rows h s => ∃ w, Sweeping i P C (rows.map Prod.fst) h s w)
    (fun _ _ _ _ ⟨w, hs⟩ hr => ⟨w, hs.rely hC hr⟩) (fun row rows h s hs => ?_)
    (fun _ _ _ hs _ _ => hs) rows h0
  refine (sweeps_revokeRow hC hu hs).mono fun h r s hs => ?_
  cases r with
  | ok a => exact hs a rfl
  | error e => exact fun _ ha => by cases ha

/-- **The revocation for a user** comes to its end. -/
lemma sweeps_revokeAllForUser {userId : ℕ} {now : Time} (hC : Steady i C)
    (htime : ∀ h s, C h s → now ≤ s.time) (h0 : Waiting i C h s) :
    Meets (sweeps reqs) (postgres ι) i
      (fun h r s => ∀ a, r = .ok a →
        ∃ w, Sweeping i (fun w => w.query = .outstanding userId now) C [] h s w)
      (RefreshTokenRepository.revokeAllForUser userId now) h s := by
  refine (sweeps_scan (P := fun w => w.query = .outstanding userId now)
    (p := .outstanding userId now) (fun rows => rows.map Prod.fst) hC rfl (fun h s hs => ⟨rfl, htime h s hs⟩)
    (fun s n r hv hcov hact hskip => ?_) h0).bind sweeps_compatible (fun h rows s hs => ?_)
    fun _ _ _ _ _ ha => by cases ha
  · refine List.mem_map.mpr ⟨(n, r), Db.mem_rows.mpr ⟨hv, ?_⟩, rfl⟩
    have huser : r.userId = userId := of_decide_eq_true hcov
    show RefreshToken.outstanding userId now r = true
    simpa [RefreshToken.outstanding, Query.skips, huser, hact] using hskip
  · exact sweeps_rows hC (fun w hw => Or.inr ⟨userId, now, rfl, hw⟩) rows (hs rows rfl)

/-- **The revocation of a family** comes to its end. -/
lemma sweeps_revokeFamily (rawToken : ℕ) {familyId : ℕ} {now : Time} (hC : Steady i C)
    (hmem : ∀ h s, C h s → ∃ r, Committed s rawToken = some r ∧ r.family rawToken = familyId)
    (h0 : Waiting i C h s) :
    Meets (sweeps reqs) (postgres ι) i
      (fun h r s => ∀ a, r = .ok a → ∃ w, Sweeping i (SweepsFamily rawToken) C [] h s w)
      (RefreshTokenRepository.revokeFamily familyId now) h s := by
  refine (sweeps_scan (P := SweepsFamily rawToken) (p := .family familyId)
    (fun rows => (rows.filter fun row => row.2.family row.1 = familyId).map Prod.fst)
    hC rfl (fun h s hs => ⟨?_, Nat.zero_le _⟩) (fun s n r hv hcov hact _ => ?_) h0).bind
    sweeps_compatible (fun h rows s hs => ?_) fun _ _ _ _ _ ha => by cases ha
  · obtain ⟨r, hr, hfam⟩ := hmem h s hs
    exact ⟨r, hr, by rw [hfam]⟩
  · have hfam : r.family n = familyId := of_decide_eq_true hcov
    refine List.mem_map.mpr ⟨(n, r), List.mem_filter.mpr ⟨Db.mem_rows.mpr ⟨hv, ?_⟩, ?_⟩, rfl⟩
    · have hid : r.familyId = none ∨ r.familyId = some familyId := by
        cases hid : r.familyId with
        | none => exact Or.inl rfl
        | some f =>
            rw [RefreshToken.family, hid, Option.getD_some] at hfam
            exact Or.inr (congrArg some hfam)
      show (r.revokedAt.isNone && (r.familyId.isNone || r.familyId = some familyId)) = true
      rcases hid with hid | hid <;> simp [hid, hact]
    · exact decide_eq_true hfam
  · exact sweeps_rows hC (fun w hw => Or.inl ⟨now, rfl⟩) _ (hs rows rfl)

/-- A revocation that has come to its end waits for its commit. -/
lemma sweeps_swept (hC : Steady i C) {p : Tx α} (hp : p.Issues Idle)
    (h0 : ∃ w, Sweeping i P C [] h s w) :
    Meets (sweeps reqs) (postgres ι) i (fun h _ s => ∃ w, Sweeping i P C [] h s w) p h s := by
  refine sweeps_idle hp (fun _ _ _ ⟨w, hs⟩ hr => ⟨w, hs.rely hC hr⟩) ?_ h0
  rintro h q s hq hm ⟨w, hs⟩
  refine ⟨w, ?_, hs.target, hs.linear, hs.time.trans (Db.time_effect_le i q s),
    hs.progress.of_seen (hq.1.seen hq.2.2.2 i s), hC.own h q s hm hs.known⟩
  rw [openScans_snoc]
  have hbulk := hq.2.1
  cases q with
  | commit => exact absurd rfl hq.2.2.1
  | rollback => exact absurd rfl hq.2.2.2
  | scan p =>
      have hp : p.bulk ≠ true := hbulk
      simp [hp, hs.scans]
  | _ => exact hs.scans

/-- The commit of a revocation, and no more statements. -/
lemma sweeps_commit {p : Tx α} (hp : p.Issues fun _ => False)
    (hdone : ∀ h s w, openScans h = [w] → P w → C h s → Swept h s (s.commit i) (reqs i))
    (hC : Steady i C) (h0 : ∃ w, Sweeping i P C [] h s w) :
    Meets (sweeps reqs) (postgres ι) i (fun _ _ _ => True) (Txn.Tx.commit.bind fun _ => p) h s := by
  intro tr s₁ _ hr _ _ _
  obtain ⟨w, hs⟩ := h0
  have hs₁ := hs.rely hC hr
  refine ⟨trivial, ⟨le_rfl, fun _ => ⟨fun w' hw' => ?_, hdone h s₁ w hs₁.scans hs₁.target hs₁.known⟩⟩, ?_⟩
  · rw [hs₁.scans] at hw'
    obtain rfl := List.mem_singleton.mp hw'
    exact ⟨hs₁.progress.buried hs₁.linear, hs₁.time⟩
  · exact meets_of_issues (J := fun _ _ => True) hp (fun _ _ _ _ _ => trivial)
      (fun _ _ _ _ _ hq => hq.elim) trivial

end Contract

/-! ### The requests -/

section Programs

variable {ι : Type} [DecidableEq ι] {s s' : Database ι} {i : ι} {h : List (Happened ι)}
  {reqs : ι → Request} {w : Sweep ι} {C : List (Happened ι) → Database ι → Prop} {cfg : Security}
  {α : Type} {userId rawToken : ℕ}

lemma idle_flush {known user : User} : (flush userId known user).Issues Idle :=
  issues_flush fun _ => ⟨by simp [Spares], fun h => h, by simp, by simp⟩

lemma idle_select (t : Table) (n : ℕ) : Idle (.select t n) :=
  ⟨trivial, fun h => h, by simp, by simp⟩

lemma idle_getCurrentUser (token : AccessToken) : (getCurrentUser token).Issues Idle := by
  unfold getCurrentUser
  split_ifs
  · trivial
  · refine Prog.issues_bind ⟨idle_select _ _, fun _ => trivial⟩ fun found => ?_
    unfold checkUser
    split
    · trivial
    · split_ifs <;> trivial

/-- A reading of the clock. -/
lemma sweeps_now (hC : Steady i C) (h0 : Waiting i C h s) :
    Meets (sweeps reqs) (postgres ι) i
      (fun h r s => ∀ now, r = .ok now → Waiting i (fun h s => C h s ∧ now ≤ s.time) h s)
      (Txn.Tx.now : Txn.Tx accounts Exn ℕ) h s := by
  refine sweeps_statement (q := .now) (B := fun now => Waiting i fun h s => C h s ∧ now ≤ s.time)
    (by simp) (fun _ _ _ hs hr => hs.rely hC hr)
    (fun now _ _ _ hs hr => hs.rely (hC.and (steady_time now)) hr) (fun s _ _ _ hs => ?_) h0
  have hs' := hs.effect hC (q := .now) ⟨trivial, fun h => h, by simp, by simp⟩ (.of_eq rfl)
  exact ⟨hs'.1, hs'.2.1, hs'.2.2, Db.time_effect_le i .now s⟩

lemma sweeps_raise (e : Exn) :
    Meets (sweeps reqs) (postgres ι) i (fun _ _ _ => True) (.raise e : Tx α) h s :=
  fun _ _ _ _ _ => trivial

/-- **The end of a revoking operation**: the revocation and its commit. -/
theorem sweeps_revokeSessions {known user : User} {now : Time} (hC : Steady i C)
    (htime : ∀ h s, C h s → now ≤ s.time)
    (hdone : ∀ h s (w : Sweep ι), openScans h = [w] → SweepsUser userId w → C h s →
      Swept h s (s.commit i) (reqs i)) (h0 : Waiting i C h s) :
    Meets (sweeps reqs) (postgres ι) i (fun _ _ _ => True)
      (AuthService.revokeSessions userId known user now) h s := by
  refine (sweeps_waiting hC idle_flush h0).bind sweeps_compatible (fun h _ s hs => ?_)
    fun _ _ _ _ => trivial
  refine (sweeps_revokeAllForUser hC htime hs).bind sweeps_compatible
    (fun h n s hs => ?_) fun _ _ _ _ => trivial
  exact sweeps_commit (p := .ret ()) trivial
    (fun h s w hw hP => hdone h s w hw ⟨now, hP⟩) hC (hs n rfl)

/-- A clock reading, then the end of a revoking operation. -/
lemma sweeps_nowRevoke {known user : User} (hC : Steady i C)
    (hdone : ∀ h s (w : Sweep ι), openScans h = [w] → SweepsUser userId w → C h s →
      Swept h s (s.commit i) (reqs i)) (h0 : Waiting i C h s) :
    Meets (sweeps reqs) (postgres ι) i (fun _ _ _ => True)
      (Txn.Tx.now.bind fun now => AuthService.revokeSessions userId known user now) h s := by
  refine (sweeps_now hC h0).bind sweeps_compatible (fun h now s hs => ?_) fun _ _ _ _ => trivial
  exact sweeps_revokeSessions (hC.and (steady_time now)) (fun _ _ hs => hs.2)
    (fun h s w hw hP hs => hdone h s w hw hP hs.1) (hs now rfl)

/-- What the commit of an operation on the user of an access token has to be the end of. -/
def Revoking (i : ι) (reqs : ι → Request) (userId : ℕ) : Prop :=
  ∀ h s (w : Sweep ι), openScans h = [w] → SweepsUser userId w → Swept h s (s.commit i) (reqs i)

lemma sweeps_logout (hdone : Revoking i reqs userId) {user : User}
    (h0 : Waiting i (fun _ _ => True) h s) :
    Meets (sweeps reqs) (postgres ι) i (fun _ _ _ => True) (AuthService.logout userId user) h s :=
  sweeps_nowRevoke steady_true (fun h s w hw hP _ => hdone h s w hw hP) h0

lemma sweeps_changePassword (hdone : Revoking i reqs userId) {user : User}
    {current newPassword : String} (h0 : Waiting i (fun _ _ => True) h s) :
    Meets (sweeps reqs) (postgres ι) i (fun _ _ _ => True)
      (AuthService.changePassword cfg userId user current newPassword) h s := by
  unfold AuthService.changePassword
  split_ifs
  · exact sweeps_raise _
  · exact sweeps_nowRevoke steady_true (fun h s w hw hP _ => hdone h s w hw hP) h0

lemma sweeps_changeFactor (hdone : Revoking i reqs userId) {known user : User}
    (h0 : Waiting i (fun _ _ => True) h s) :
    Meets (sweeps reqs) (postgres ι) i (fun _ _ _ => True)
      ((flush userId known user).bind fun _ => Txn.Tx.now.bind fun now =>
        AuthService.revokeSessions userId user user now) h s :=
  (sweeps_waiting steady_true idle_flush h0).bind sweeps_compatible
    (fun _ _ _ hs => sweeps_nowRevoke steady_true (fun h s w hw hP _ => hdone h s w hw hP) hs)
    fun _ _ _ _ => trivial

lemma sweeps_activate (hdone : Revoking i reqs userId) {user : User} {code : String}
    (h0 : Waiting i (fun _ _ => True) h s) :
    Meets (sweeps reqs) (postgres ι) i (fun _ _ _ => True)
      (MfaService.activate cfg userId user code) h s := by
  unfold MfaService.activate
  split_ifs
  · exact sweeps_raise _
  · exact sweeps_raise _
  · split
    · exact sweeps_raise _
    · split_ifs
      · exact sweeps_raise _
      · exact sweeps_changeFactor hdone h0

lemma sweeps_disable (hdone : Revoking i reqs userId) {user : User} {code : String}
    {recovered : Bool} (h0 : Waiting i (fun _ _ => True) h s) :
    Meets (sweeps reqs) (postgres ι) i (fun _ _ _ => True)
      (MfaService.disable cfg userId user code recovered) h s := by
  unfold MfaService.disable
  split_ifs
  · exact sweeps_raise _
  · exact sweeps_raise _
  · exact sweeps_raise _
  · exact sweeps_changeFactor hdone h0

lemma sweeps_resetPassword {newPassword : String} (hr : reqs i = .resetPassword rawToken newPassword)
    (h0 : Waiting i (fun _ _ => True) h s) :
    Meets (sweeps reqs) (postgres ι) i (fun _ _ _ => True)
      (AccountSecurityService.resetPassword cfg rawToken newPassword) h s := by
  refine (sweeps_now steady_true h0).bind sweeps_compatible (fun h now s hs => ?_)
    fun _ _ _ _ => trivial
  have h0 := hs now rfl
  have hsteady : ∀ found : Option AuthToken, Steady i fun h (s : Database ι) =>
      (True ∧ now ≤ s.time) ∧ ∀ record, found = some record → HasRead rawToken record.userId h := by
    intro found
    refine (steady_true.and (steady_time now)).and
      ⟨fun _ _ _ _ _ h => h, fun h q s hm hs record hrec => ?_⟩
    exact (steady_read rawToken record.userId).own h q s hm (hs record hrec)
  refine (sweeps_statement (q := .select .authTokens rawToken)
    (A := Waiting i fun _ s => True ∧ now ≤ s.time)
    (B := fun found => Waiting i fun h s =>
      (True ∧ now ≤ s.time) ∧ ∀ record, found = some record → HasRead rawToken record.userId h)
    (by simp) (fun _ _ _ hs hr => hs.rely (steady_true.and (steady_time now)) hr)
    (fun found _ _ _ hs hr => hs.rely (hsteady found) hr) (fun s _ _ _ hs => ?_) h0).bind
    sweeps_compatible (fun h found s hs => ?_) fun _ _ _ _ => trivial
  · have hs' := hs.effect (steady_true.and (steady_time now)) (idle_select .authTokens rawToken)
      (.of_eq rfl)
    refine ⟨hs'.1, hs'.2.1, hs'.2.2, fun record hrec => ?_⟩
    refine ⟨_, List.mem_append_right _ (List.mem_singleton_self _), rfl, ?_⟩
    have hview : s.view i .authTokens rawToken = some record := hrec
    rw [hview]
    rfl
  · have hread := hs found rfl
    cases found with
    | none => exact sweeps_raise _
    | some record =>
        dsimp only
        split_ifs
        · exact sweeps_raise _
        · exact sweeps_raise _
        · refine (sweeps_waiting (p := getUser record.userId) (hsteady _)
            ⟨idle_select _ _, fun _ => trivial⟩ hread).bind sweeps_compatible (fun h found s hs => ?_)
            fun _ _ _ _ => trivial
          split
          · exact sweeps_raise _
          · refine (sweeps_waiting (p := Tx.update (S := accounts) (.claim .passwordReset now) rawToken)
              (hsteady _) ⟨⟨by simp [Spares], fun h => h, by simp, by simp⟩, fun _ => trivial⟩ hs).bind
              sweeps_compatible (fun h claimed s hs => ?_) fun _ _ _ _ => trivial
            cases claimed with
            | none => exact sweeps_raise _
            | some row =>
                refine sweeps_revokeSessions (hsteady _) (fun _ _ hs => hs.1.2)
                  (fun h s w hw hP hs => ?_) hs
                rw [hr]
                exact ⟨w, by simp [hw], record.userId, hs.2 record rfl, hP⟩

/-! ### Rotation -/

/-- Session `i` has added token `k`. -/
def Adding (i : ι) (C : List (Happened ι) → Database ι → Prop) (k : ℕ) (h : List (Happened ι))
    (s : Database ι) : Prop := Waiting i C h s ∧ ∃ r, s.dirty .refreshTokens k = some (i, r)

lemma Adding.rely {k : ℕ} (hC : Steady i C) (hs : Adding i C k h s)
    (hr : (sweeps reqs).rely i h s s') : Adding i C k h s' := by
  obtain ⟨hwait, r, hd⟩ := hs
  exact ⟨hwait.rely hC hr, r, (hr.1.dirty _ k r).mpr hd⟩

/-- Session `i` has claimed the token for a successor. -/
structure Renamed (i : ι) (rawToken : ℕ) (h : List (Happened ι)) (s : Database ι) : Prop where
  scans : openScans h = []
  claimed : ∃ r, s.dirty .refreshTokens rawToken = some (i, r) ∧ r.replacedBy ≠ none
  unnamed : successorOf rawToken s = none

lemma Renamed.rely (hs : Renamed i rawToken h s) (hr : (sweeps reqs).rely i h s s') :
    Renamed i rawToken h s' := by
  obtain ⟨r, hd, hnamed⟩ := hs.claimed
  refine ⟨hs.scans, ⟨r, (hr.1.dirty _ _ r).mpr hd, hnamed⟩, ?_⟩
  have hsame : Committed s' rawToken = Committed s rawToken := hr.1.committed _ _ r hd
  rw [successorOf, hsame]
  exact hs.unnamed

/-- The successor of a token is added. -/
lemma sweeps_issueTokens {familyId : Option ℕ} {known user : User} (hC : Steady i C)
    (h0 : Waiting i C h s) :
    Meets (sweeps reqs) (postgres ι) i (fun h r s => ∀ x, r = .ok x → Adding i C x.refreshToken h s)
      (AuthService.issueTokens cfg userId known user familyId) h s := by
  refine (sweeps_waiting (p := Txn.Tx.now) hC
    ⟨⟨trivial, fun h => h, by simp, by simp⟩, fun _ => trivial⟩ h0).bind sweeps_compatible
    (fun h now s hs => ?_) fun _ _ _ _ _ ha => by cases ha
  refine (sweeps_waiting hC idle_flush hs).bind sweeps_compatible (fun h _ s hs => ?_)
    fun _ _ _ _ _ ha => by cases ha
  refine (sweeps_statement (q := .insert ⟨userId, user.organizationId, familyId,
      now + cfg.refreshTokenExpireDays * day⟩) (B := fun k => Adding i C k) (by simp)
    (fun _ _ _ hs hr => hs.rely hC hr) (fun _ _ _ _ hs hr => hs.rely hC hr) (fun s _ _ _ hs => ?_)
    hs).bind sweeps_compatible (fun h k s hs => ?_) fun _ _ _ _ _ ha => by cases ha
  · obtain ⟨hscans, hnew, hknown⟩ := hs
    have hcom := Db.committed_effect (i := i) (s := s) (q := .insert (⟨userId, user.organizationId,
      familyId, now + cfg.refreshTokenExpireDays * day⟩ : accounts.Insert)) (by simp)
    refine ⟨⟨by rw [openScans_snoc, hscans], fun n r hd => ?_, hC.own h _ s (.of_eq hcom) hknown⟩,
      _, Db.dirty_insert i (S := accounts) _ s⟩
    rw [Committed, hcom]
    rcases Db.dirty_effect_cases hd with ⟨hold, -⟩ | ⟨-, ⟨u, r₀, hu, -⟩ | ⟨x, -, rfl, -⟩⟩
    · exact hnew n r hold
    · cases hu
    · exact (s.alloc .refreshTokens s.fresh le_rfl).1
  · intro _ s' _ hr _ x hx
    obtain rfl := Except.ok.inj hx
    exact (hs k rfl).rely hC hr

/-- What a session knows after a claim. -/
def Claimant (i : ι) (C : List (Happened ι) → Database ι → Prop) (rawToken k : ℕ)
    (h : List (Happened ι)) (s : Database ι) : Bool → Prop
  | true => Renamed i rawToken h s
  | false => Adding i C k h s

lemma Claimant.rely {k : ℕ} {claimed : Bool} (hC : Steady i C)
    (hs : Claimant i C rawToken k h s claimed) (hr : (sweeps reqs).rely i h s s') :
    Claimant i C rawToken k h s' claimed := by
  cases claimed with
  | true => exact Renamed.rely hs hr
  | false => exact Adding.rely hC hs hr

/-- The claim of a committed token. -/
lemma sweeps_markReplaced {k : ℕ} {now : Time} (hC : Steady i C)
    (hmem : ∀ h s, C h s → ∃ r, Committed s rawToken = some r) (h0 : Adding i C k h s) :
    Meets (sweeps reqs) (postgres ι) i
      (fun h r s => ∀ claimed, r = .ok claimed → Claimant i C rawToken k h s claimed)
      (RefreshTokenRepository.markReplaced rawToken k now) h s := by
  refine (sweeps_statement (q := .update (.markReplaced k now) rawToken) (A := Adding i C k)
    (B := fun row h s => Claimant i C rawToken k h s row.isSome) (by simp)
    (fun _ _ _ hs hr => hs.rely hC hr) (fun _ _ _ _ hs hr => hs.rely hC hr) ?_ h0).bind
    sweeps_compatible (fun h row s hs => ?_) fun _ _ _ _ _ ha => by cases ha
  · rintro s hlin - - ⟨⟨hscans, hnew, hknown⟩, hadded⟩
    have hscans' : openScans (h ++ [⟨i, .update (.markReplaced k now) rawToken, s,
        Db.effect i (.update (.markReplaced k now) rawToken) s⟩]) = [] := by
      rw [openScans_snoc, hscans]
    have hcom := Db.committed_effect (i := i) (s := s)
      (q := .update (.markReplaced k now : accounts.Update) rawToken) (by simp)
    show Claimant i C rawToken k _ _
      (s.written i (.markReplaced k now : accounts.Update) rawToken).isSome
    cases hw : s.written i (.markReplaced k now : accounts.Update) rawToken with
    | none =>
        have heff := Db.effect_update_of_none hw
        have hknown' := hC.own h (.update (.markReplaced k now) rawToken) s (.of_eq hcom) hknown
        refine ⟨⟨hscans', ?_, hknown'⟩, ?_⟩
        · rw [heff]
          exact hnew
        · rw [heff]
          exact hadded
    | some r' =>
        obtain ⟨-, r, hv, hg, rfl⟩ := Db.written_eq_some.mp hw
        obtain ⟨rc, hrc⟩ := hmem h s hknown
        have hview : s.view i .refreshTokens rawToken = some rc := hnew.seen hrc
        obtain rfl := Option.some.inj (hview.symm.trans hv)
        refine ⟨hscans', ⟨_, Db.dirty_update hw, Option.some_ne_none k⟩, ?_⟩
        rw [successorOf, Committed, hcom]
        have hrc' : s.committed .refreshTokens rawToken = some rc := hrc
        rw [hrc']
        show rc.replacedBy = none
        by_contra hne
        obtain ⟨m, hm⟩ := Option.ne_none_iff_exists'.mp hne
        exact (hlin.successor rawToken rc m hrc hm).1 (Option.isNone_iff_eq_none.mp hg)
  · intro _ s' _ hr _ claimed hclaimed
    obtain rfl := Except.ok.inj hclaimed
    exact (hs row rfl).rely hC hr

/-- The commit of a rotation, and the answer. -/
lemma sweeps_respond (hr : reqs i = .refresh rawToken) {response : AuthResponse}
    (h0 : Renamed i rawToken h s) :
    Meets (sweeps reqs) (postgres ι) i (fun _ _ _ => True)
      (AuthService.respond userId response) h s := by
  intro tr s₁ _ hrely _ _ _
  have hs := h0.rely hrely
  refine ⟨trivial, ⟨le_rfl, fun _ => ⟨fun w hw => ?_, ?_⟩⟩, ?_⟩
  · rw [hs.scans] at hw
    cases hw
  · rw [hr]
    refine Or.inl ⟨hs.unnamed, ?_⟩
    obtain ⟨r, hd, hnamed⟩ := hs.claimed
    have hview : Committed (s₁.commit i) rawToken = some r := Db.view_of_own hd
    show successorOf rawToken (s₁.commit i) ≠ none
    rw [successorOf, hview]
    exact hnamed
  · intro _ s₂ _ _ _ _ _
    exact ⟨trivial, ⟨le_rfl, fun hc => by cases hc⟩, fun _ _ _ _ _ => trivial⟩

/-- Reuse of a token: the revocation of its family and its commit. -/
lemma sweeps_revokeReused (hr : reqs i = .refresh rawToken) {record : RefreshToken} {now : Time}
    {user : Option User} (h0 : Waiting i
      (fun _ s => Member rawToken record.userId (record.family rawToken) s) h s) :
    Meets (sweeps reqs) (postgres ι) i (fun _ _ _ => True)
      (AuthService.revokeReused rawToken record now user : Tx α) h s := by
  have hC : Steady i fun _ (s : Database ι) =>
      Member rawToken record.userId (record.family rawToken) s := steady_lasts member_lasts
  refine (sweeps_revokeFamily rawToken hC (fun _ _ hs => ?_) h0).bind sweeps_compatible
    (fun h n s hs => ?_) fun _ _ _ _ => trivial
  · obtain ⟨r, hrow, hfam, -⟩ := hs
    exact ⟨r, hrow, hfam⟩
  · have hcommit : ∀ h s, (∃ w, Sweeping i (SweepsFamily rawToken)
        (fun _ s => Member rawToken record.userId (record.family rawToken) s) [] h s w) →
        Meets (sweeps reqs) (postgres ι) i (fun _ _ _ => True)
          (Txn.Tx.commit.bind fun _ => (.raise AuthService.refreshTokenReuse : Tx α)) h s := by
      intro h s hs
      refine sweeps_commit trivial (fun h s w hw hP _ => ?_) hC hs
      rw [hr]
      exact Or.inr ⟨w, by simp [hw], hP⟩
    cases user with
    | none => exact hcommit h s (hs n rfl)
    | some user =>
        exact (sweeps_swept hC idle_flush (hs n rfl)).bind sweeps_compatible
          (fun h _ s hs => hcommit h s hs) fun _ _ _ _ => trivial

/-- The successor of a claim that came too late is revoked: it is the session's own. -/
lemma sweeps_revokeAdded {k : ℕ} {now : Time} (hC : Steady i C) (h0 : Adding i C k h s) :
    Meets (sweeps reqs) (postgres ι) i (fun h r s => ∀ a, r = .ok a → Waiting i C h s)
      (RefreshTokenRepository.revoke k now) h s := by
  refine (sweeps_statement (q := .update (.revoke now) k) (A := Adding i C k)
    (B := fun _ => Waiting i C) (by simp) (fun _ _ _ hs hr => hs.rely hC hr)
    (fun _ _ _ _ hs hr => hs.rely hC hr) ?_ h0).bind sweeps_compatible (fun h row s hs => ?_)
    fun _ _ _ _ _ ha => by cases ha
  · rintro s - - - ⟨⟨hscans, hnew, hknown⟩, r, hd⟩
    have hcom := Db.committed_effect (i := i) (s := s)
      (q := .update (.revoke now : accounts.Update) k) (by simp)
    refine ⟨by rw [openScans_snoc, hscans], fun n r' hd' => ?_, hC.own h _ s (.of_eq hcom) hknown⟩
    rw [Committed, hcom]
    rcases Db.dirty_effect_cases hd' with ⟨hold, -⟩ | ⟨-, ⟨u, r₀, hu, -, -, heq⟩ | ⟨x, hx, -⟩⟩
    · exact hnew n r' hold
    · obtain ⟨-, rfl⟩ := Sql.update.inj hu
      exact hnew _ r hd
    · cases hx
  · intro _ s' _ hr _ a _
    exact (hs row rfl).rely hC hr

/-- **Rotation** commits the successor of a token, or revokes its family. -/
lemma sweeps_rotate (hr : reqs i = .refresh rawToken) {record : RefreshToken} {now : Time}
    {user : User} (h0 : Waiting i
      (fun _ s => Member rawToken record.userId (record.family rawToken) s) h s) :
    Meets (sweeps reqs) (postgres ι) i (fun _ _ _ => True)
      (AuthService.rotate cfg rawToken record now user) h s := by
  have hC : Steady i fun _ (s : Database ι) =>
      Member rawToken record.userId (record.family rawToken) s := steady_lasts member_lasts
  refine (sweeps_issueTokens hC h0).bind sweeps_compatible (fun h response s hs => ?_)
    fun _ _ _ _ => trivial
  refine (sweeps_markReplaced hC (fun _ _ ⟨r, hrow, _⟩ => ⟨r, hrow⟩) (hs response rfl)).bind
    sweeps_compatible (fun h claimed s hs => ?_) fun _ _ _ _ => trivial
  have hclaimed := hs claimed rfl
  cases claimed with
  | true => exact sweeps_respond hr hclaimed
  | false =>
      refine (sweeps_revokeAdded hC hclaimed).bind sweeps_compatible (fun h a s hs => ?_)
        fun _ _ _ _ => trivial
      have hreuse : Meets (sweeps reqs) (postgres ι) i (fun _ _ _ => True)
          (AuthService.revokeReused rawToken record now (some user) : Tx AuthResponse) h s :=
        sweeps_revokeReused hr (hs a rfl)
      exact hreuse

omit [DecidableEq ι] in
lemma Unwritten.onlyNew (h : Unwritten i s) : OnlyNew i s := fun n r hd => absurd hd (h n r)

/-- A session that has written no token. -/
def Fresh (i : ι) (h : List (Happened ι)) (s : Database ι) : Prop := openScans h = [] ∧ Unwritten i s

lemma Fresh.rely (hs : Fresh i h s) (hr : (sweeps reqs).rely i h s s') : Fresh i h s' :=
  ⟨hs.1, hs.2.frame hr.1⟩

lemma Fresh.effect {q : Sql accounts} (hs : Fresh i h s) (hq : Spares q) (hbulk : ¬ BulkRead q) :
    Fresh i (h ++ [⟨i, q, s, Db.effect i q s⟩]) (Db.effect i q s) :=
  ⟨openScans_eq_nil hbulk hs.1, hs.2.effect hq⟩

/-- The read of a token that the session has not written shows what is committed. -/
lemma sweeps_getAny (h0 : Fresh i h s) :
    Meets (sweeps reqs) (postgres ι) i
      (fun h r s => ∀ found, r = .ok found → ∀ record, found = some record →
        Waiting i (fun _ s => Member rawToken record.userId (record.family rawToken) s) h s)
      (RefreshTokenRepository.getAny rawToken) h s := by
  refine (sweeps_statement (q := .select .refreshTokens rawToken) (A := Fresh i)
    (B := fun found h s => ∀ record, found = some record →
      Waiting i (fun _ s => Member rawToken record.userId (record.family rawToken) s) h s)
    (by simp) (fun _ _ _ hs hr => hs.rely hr)
    (fun _ _ _ _ hs hr record hfound => (hs record hfound).rely (steady_lasts member_lasts) hr)
    (fun s _ _ _ hs record hfound => ?_) h0)
  obtain ⟨hscans, hunwritten⟩ := hs.effect (q := .select .refreshTokens rawToken) trivial id
  refine ⟨hscans, hunwritten.onlyNew, record, ?_, rfl, rfl⟩
  show Committed s rawToken = some record
  rw [← hs.2.seen]
  exact hfound

/-- **`refresh`** rotates its token or revokes its family, when it commits at all. -/
theorem sweeps_refresh (hr : reqs i = .refresh rawToken) (h0 : Fresh i h s) :
    Meets (sweeps reqs) (postgres ι) i (fun _ _ _ => True) (AuthService.refresh cfg rawToken) h s := by
  have hnow : Meets (sweeps reqs) (postgres ι) i (fun h _ s => Fresh i h s)
      (Txn.Tx.now : Txn.Tx accounts Exn ℕ) h s :=
    sweeps_idle ⟨⟨trivial, id, by simp, by simp⟩, fun _ => trivial⟩ (fun _ _ _ hs hr => hs.rely hr)
      (fun _ _ _ hq _ hs => hs.effect hq.1 hq.2.1) h0
  refine hnow.bind sweeps_compatible (fun h now s hs => ?_) fun _ _ _ _ => trivial
  refine (sweeps_getAny hs).bind sweeps_compatible (fun h found s hs => ?_) fun _ _ _ _ => trivial
  cases found with
  | none => exact sweeps_raise _
  | some record =>
      have hload : Meets (sweeps reqs) (postgres ι) i (fun h _ s => Waiting i
          (fun _ s => Member rawToken record.userId (record.family rawToken) s) h s)
          (getUser record.userId) h s :=
        sweeps_waiting (steady_lasts member_lasts) ⟨idle_select _ _, fun _ => trivial⟩
          (hs _ rfl record rfl)
      dsimp only
      split_ifs
      · refine hload.bind sweeps_compatible (fun h user s hs => ?_) fun _ _ _ _ => trivial
        exact sweeps_revokeReused hr hs
      · exact sweeps_raise _
      · refine hload.bind sweeps_compatible (fun h found s hs => ?_) fun _ _ _ _ => trivial
        split
        · exact sweeps_raise _
        · split_ifs
          · exact sweeps_raise _
          · exact sweeps_rotate hr hs

/-! ### The requests that revoke nothing -/

/-- A program that reads nothing in bulk. -/
lemma sweeps_free (hfree : ∀ h (s s' : Database ι), Swept h s s' (reqs i)) {p : Tx α}
    (hp : p.Issues fun q => ¬ BulkRead q) (h0 : openScans h = []) :
    Meets (sweeps reqs) (postgres ι) i (fun h _ _ => openScans h = []) p h s := by
  refine meets_of_issues hp (fun _ _ _ hs _ => hs) ?_ h0
  intro tr q h s _ hq _ hscans _ _
  refine ⟨trivial, ⟨Db.time_effect_le i q s, fun _ => ⟨fun w hw => ?_, hfree _ _ _⟩⟩,
    openScans_eq_nil hq hscans⟩
  rw [hscans] at hw
  cases hw

lemma free_flush {known user : User} : (flush userId known user).Issues fun q => ¬ BulkRead q :=
  issues_flush fun _ => id

lemma free_session {known user : User} :
    ((AuthService.issueTokens cfg userId known user none).bind fun response =>
      AuthService.respond userId response).Issues fun q => ¬ BulkRead q := by
  refine Prog.issues_bind (Prog.issues_bind ⟨id, fun _ => trivial⟩ fun now => ?_) fun _ =>
    issues_respond id id
  exact Prog.issues_bind free_flush fun _ => ⟨id, fun _ => trivial⟩

lemma free_login {email password : String} :
    (AuthService.login cfg email password).Issues fun q => ¬ BulkRead q := by
  refine Prog.issues_bind ⟨(by simp [BulkRead, Query.bulk]), fun _ => trivial⟩ fun rows => ?_
  split
  · trivial
  · split
    · trivial
    · refine Prog.issues_bind ⟨id, fun _ => trivial⟩ fun now => ?_
      split_ifs
      · trivial
      · exact Prog.issues_bind free_flush fun _ => ⟨id, fun _ => trivial⟩
      · trivial
      · trivial
      · exact free_session

lemma free_verifyChallenge {challenge : AccessToken} {code : String} {recovered : Bool} :
    (MfaService.verifyChallenge cfg challenge code recovered).Issues fun q => ¬ BulkRead q := by
  unfold MfaService.verifyChallenge
  split_ifs
  · trivial
  · trivial
  · refine Prog.issues_bind ⟨id, fun _ => trivial⟩ fun found => ?_
    split
    · trivial
    · refine Prog.issues_bind ⟨id, fun _ => trivial⟩ fun now => ?_
      split_ifs
      · trivial
      · exact Prog.issues_bind free_flush fun _ => ⟨id, fun _ => trivial⟩
      · exact Prog.issues_bind free_flush fun _ => ⟨id, fun _ => trivial⟩

/-! ### Every request -/

lemma sweeps_authenticated {token : AccessToken} {p : ℕ → User → Tx Unit} (h0 : Fresh i h s)
    (hp : ∀ user h s, Waiting i (fun _ _ => True) h s →
      Meets (sweeps reqs) (postgres ι) i (fun _ _ _ => True) (p token.sub user) h s) :
    Meets (sweeps reqs) (postgres ι) i (fun _ _ _ => True) (authenticated token p) h s := by
  refine (sweeps_waiting steady_true (idle_getCurrentUser token) ⟨h0.1, h0.2.onlyNew, trivial⟩).bind
    sweeps_compatible (fun h user s hs => ?_) fun _ _ _ _ => trivial
  exact (hp user h s hs).bind sweeps_compatible (fun _ _ _ _ _ _ _ _ _ => trivial)
    fun _ _ _ _ => trivial

/-- **Every request** commits no revocation that is not complete. -/
theorem sweeps_request (h0 : Fresh i h s) :
    Meets (sweeps reqs) (postgres ι) i (fun _ _ _ => True) ((reqs i).run cfg) h s := by
  have hwait : Waiting i (fun _ _ => True) h s := ⟨h0.1, h0.2.onlyNew, trivial⟩
  have hrevoking : ∀ token : AccessToken, (∀ h s s', (∃ w ∈ openScans h, SweepsUser token.sub w) →
      Swept h s s' (reqs i)) → Revoking i reqs token.sub :=
    fun token hswept h s w hw hP => hswept h s _ ⟨w, by simp [hw], hP⟩
  have hbody : Meets (sweeps reqs) (postgres ι) i (fun _ _ _ => True) ((reqs i).body cfg) h s := by
    cases hr : reqs i with
    | login email password =>
        have hp : (Request.body cfg (.login email password)).Issues fun q => ¬ BulkRead q :=
          Prog.issues_bind free_login fun _ => trivial
        refine (sweeps_free (fun _ _ _ => ?_) hp h0.1).mono fun _ _ _ _ => trivial
        rw [hr]
        trivial
    | verifyMfa challenge code recovered =>
        have hp : (Request.body cfg (.verifyMfa challenge code recovered)).Issues
            fun q => ¬ BulkRead q :=
          Prog.issues_bind (Prog.issues_bind free_verifyChallenge fun _ => free_session)
            fun _ => trivial
        refine (sweeps_free (fun _ _ _ => ?_) hp h0.1).mono fun _ _ _ _ => trivial
        rw [hr]
        trivial
    | refresh rawToken =>
        exact (sweeps_refresh hr h0).bind sweeps_compatible (fun _ _ _ _ _ _ _ _ _ => trivial)
          fun _ _ _ _ => trivial
    | logout token =>
        refine sweeps_authenticated h0 fun user h s hs => sweeps_logout (hrevoking token ?_) hs
        intro h s s' hw
        rwa [hr]
    | changePassword token current newPassword =>
        refine sweeps_authenticated (p := fun userId user =>
          AuthService.changePassword cfg userId user current newPassword) h0 fun user h s hs =>
          sweeps_changePassword (hrevoking token ?_) hs
        intro h s s' hw
        rwa [hr]
    | resetPassword rawToken newPassword =>
        exact (sweeps_resetPassword hr hwait).bind sweeps_compatible
          (fun _ _ _ _ _ _ _ _ _ => trivial) fun _ _ _ _ => trivial
    | activateMfa token code =>
        refine sweeps_authenticated (p := fun userId user => MfaService.activate cfg userId user code)
          h0 fun user h s hs => sweeps_activate (hrevoking token ?_) hs
        intro h s s' hw
        rwa [hr]
    | disableMfa token code recovered =>
        refine sweeps_authenticated (p := fun userId user =>
          MfaService.disable cfg userId user code recovered) h0 fun user h s hs =>
          sweeps_disable (hrevoking token ?_) hs
        intro h s s' hw
        rwa [hr]
  refine hbody.withSession sweeps_compatible fun h res s tr s' _ _ _ _ _ => ?_
  exact ⟨trivial, ⟨Db.time_effect_le i .rollback s', fun hc => by cases hc⟩, fun _ _ => trivial⟩

end Programs

/-! ### Every run -/

section Main

variable {ι : Type} [DecidableEq ι] {s : Database ι} {reqs : ι → Request} {cfg : Security}
  {c c₁ : Sessions ι (Option AuthResponse)} {w : Sweep ι} {n d : ℕ} {i : ι}

/-- Token `d` descends from token `n` by rotation. -/
def Descends (s : Database ι) (n d : ℕ) : Prop :=
  Relation.ReflTransGen (fun n k => successorOf n s = some k) n d

/-- A refresh of the token is answered with an exception, in whatever session. -/
def Refused (cfg : Security) (rawToken : ℕ) (s : Database ι) : Prop :=
  ∀ i, Unwritten i s → ∃ e, (alone i (AuthService.refresh cfg rawToken) s).1 = .error e

omit [DecidableEq ι] in
/-- What descends from a token that a revocation is for is one itself. -/
lemma Buried.found (h : Buried w s) (hn : w.Found n) (hd : Descends s n d) : w.Found d := by
  induction hd with
  | refl => exact hn
  | @tail m k _ hk ih =>
      obtain ⟨r, hr, -, hclosed⟩ := h m ih
      rw [successorOf, hr] at hk
      exact hclosed k hk

lemma returns_onReuseDetected {α : Type} {rawToken : ℕ} {record : RefreshToken} {now : Time} :
    (AuthService.onReuseDetected none rawToken record now : Tx α).Returns fun _ => False := by
  intro user
  exact returns_revokeReused

/-- A refresh run alone reads the clock and the token. -/
lemma alone_refresh {r : RefreshToken} (hunwritten : Unwritten i s) (hr : Committed s d = some r) :
    (r.revokedAt ≠ none → alone i (AuthService.refresh cfg d) s
        = alone i (AuthService.onReuseDetected none d r s.time) (Db.effect i .now s))
      ∧ (r.revokedAt = none → r.expiresAt ≤ s.time →
        (alone i (AuthService.refresh cfg d) s).1 = .error AuthService.invalidRefresh) := by
  have hview : (Db.effect i .now s).view i .refreshTokens d = some r := by
    have hseen : Seen i s d = some r := by rw [hunwritten.seen, hr]
    exact hseen
  -- the two reads leave the rest of the program with the time and the row
  have hread : ∀ g : Option RefreshToken → Tx AuthResponse,
      alone i ((RefreshTokenRepository.getAny d).bind g) (Db.effect i .now s)
        = alone i (g (some r)) (Db.effect i .now s) := by
    intro g
    rw [← hview]
    rfl
  have hrefresh : alone i (AuthService.refresh cfg d) s
      = alone i ((RefreshTokenRepository.getAny d).bind _) (Db.effect i .now s) := rfl
  rw [hread] at hrefresh
  rw [hrefresh]
  constructor
  · intro hrevoked
    dsimp only
    rw [if_pos (Option.isSome_iff_ne_none.mpr hrevoked)]
    rfl
  · intro hact hexpired
    dsimp only
    rw [if_neg (by simp [hact])]
    exact congrArg (fun p => (alone i p (Db.effect i .now s)).1) (if_pos hexpired)

/-- A revoked token is refused. -/
lemma refused_of_revoked {r : RefreshToken} (hr : Committed s d = some r)
    (hrevoked : r.revokedAt ≠ none) : Refused cfg d s := by
  intro i hunwritten
  cases hres : (alone i (AuthService.refresh cfg d) s).1 with
  | error e => exact ⟨e, rfl⟩
  | ok a =>
      rw [(alone_refresh hunwritten hr).1 hrevoked] at hres
      exact (alone_returns returns_onReuseDetected hres).elim

/-- What is buried is refused. -/
lemma Buried.refused (h : Buried w s) (hd : w.Found d) (htime : w.query.time ≤ s.time) :
    Refused cfg d s := by
  obtain ⟨r, hr, hdead, -⟩ := h d hd
  by_cases hact : r.revokedAt = none
  · obtain ⟨-, hskip⟩ := hdead.resolve_left fun hrevoked => hrevoked hact
    have hexpired : r.expiresAt ≤ s.time := by
      cases hq : w.query with
      | outstanding userId now =>
          rw [hq] at hskip htime
          simp only [Query.skips, Bool.and_eq_true, decide_eq_true_eq] at hskip
          exact hskip.2.trans htime
      | _ =>
          rw [hq] at hskip
          cases hskip
    exact fun i hunwritten => ⟨_, (alone_refresh hunwritten hr).2 hact hexpired⟩
  · exact refused_of_revoked hr hact

omit [DecidableEq ι] in
/-- A buried token is not rotated. -/
lemma Buried.not_rotation {s' : Database ι} {k : ℕ} (h : Buried w s) (hd : w.Found d)
    (hu : Unrotated (.scan w.query) s s') : ¬ Rotation d k s s' := by
  rintro ⟨r, r', hr, hact, hr', -, hname⟩
  obtain ⟨r₀, hr₀, hdead, -⟩ := h d hd
  obtain rfl := Option.some.inj (hr.symm.trans hr₀)
  obtain ⟨hnone, hskip⟩ := hdead.resolve_left fun hrevoked => hrevoked hact
  rw [hu _ rfl d r r' hr hr' hskip hnone] at hname
  cases hname

/-- What the commits of a run have revoked, when rotations and revocations keep out of each other's
way. -/
lemma sweeps_of_run (hs : s.Settled) (hlin : Linear (Committed s))
    (h : Pool.Reach (postgres ι) (.start (fun i => (reqs i).run cfg) s) c)
    (hC : Along Undisturbed c.trace) :
    Along (fun past ev => (sweeps reqs).guar ev.pid (own ev.pid past) ev) c.trace := by
  have hunwritten : ∀ i, Unwritten i s := fun i n r hd => by
    rw [hs] at hd
    cases hd
  obtain ⟨-, hevents, -⟩ := families_of_run hs hlin h
  have hbefore : ∀ ev ∈ c.trace, Linear (Committed ev.before) :=
    (h.held_since (P := fun s => Linear (Committed s)) hlin fun ev hev _ =>
      (hevents ev (Pool.mem_of_mem_since hev)).1).2
  have hassume : Along (sweeps reqs).assume c.trace :=
    hC.and (along_iff_forall_mem.mpr fun ev hev => ⟨hbefore ev hev, (hevents ev hev).2.rows⟩)
  have hmeets : ∀ i, Meets (sweeps reqs) (postgres ι) i (fun _ _ _ => True) ((reqs i).run cfg) [] s :=
    fun i => sweeps_request ⟨rfl, hunwritten i⟩
  exact (h.meets sweeps_compatible trivial hmeets hassume).2.1

/-- **Bulk revocation is complete** in every run in which no row of a revocation meets a token that has
been rotated since the bulk read, and no token that a bulk read has skipped as expired is rotated
later: the commit of a revoking request is the end of a revocation, and from then on no token that
descends from one issued before its bulk read can be used; whoever is answered for one has rotated
it before that commit. -/
theorem revocation_complete (hs : s.Settled) (hlin : Linear (Committed s))
    (h₁ : Pool.Reach (postgres ι) (.start (fun i => (reqs i).run cfg) s) c₁)
    (h₂ : Pool.Reach (postgres ι) c₁ c) (hC : Along Undisturbed c.trace)
    {tr : List (Happened ι)} {ev : Happened ι} (hlast : c₁.trace = tr ++ [ev])
    (hcommit : ev.stmt = .commit) :
    Swept (own ev.pid tr) ev.before ev.after (reqs ev.pid)
      ∧ ∀ w ∈ openScans (own ev.pid tr), ∀ n d, w.Found n → Descends c.store n d →
        Refused cfg d c.store
          ∧ ∀ i x, reqs i = .refresh d → sessionOf c i = some x →
            RotatedIn d x.refreshToken (own i c₁.trace) := by
  have hguar := sweeps_of_run hs hlin (h₁.trans h₂) hC
  obtain ⟨-, hevents, hanswered⟩ := families_of_run hs hlin (h₁.trans h₂)
  obtain ⟨rest, hrest⟩ := h₂.trace_prefix
  have hdone := hguar
  rw [← hrest, hlast, Along, alongFrom_append] at hdone
  obtain ⟨-, hev⟩ := (along_snoc ..).mp hdone.1
  obtain ⟨hburied, hswept⟩ := hev.2 hcommit
  refine ⟨hswept, fun w hw => ?_⟩
  obtain ⟨hb₁, ht₁⟩ := hburied w hw
  obtain ⟨sc, hsc, hstmt, -⟩ := mem_of_mem_openScans hw
  have hunrotated : ∀ ev' ∈ Pool.since c₁ c, Unrotated (.scan w.query) ev'.before ev'.after := by
    intro ev' hev'
    obtain ⟨past, hpast, hU⟩ := h₂.along_since hC hev'
    rw [← hstmt]
    refine hU.2.unrotated (hpast.subset ?_)
    rw [hlast]
    exact List.mem_append_left _ (mem_own.mp hsc).1
  have htimes : ∀ ev' ∈ c.trace, ev'.before.time ≤ ev'.after.time :=
    along_iff_forall_mem.mp (hguar.mono fun _ _ hg => hg.1)
  have hstart : Buried w c₁.store ∧ w.query.time ≤ c₁.store.time := by
    rw [h₁.store_eq hlast]
    exact ⟨hb₁, ht₁⟩
  obtain ⟨⟨hb, ht⟩, hsince⟩ := h₂.held_since
    (P := fun s => Buried w s ∧ w.query.time ≤ s.time) hstart fun ev' hev' hP =>
      have hmem := Pool.mem_of_mem_since hev'
      ⟨hP.1.moved (hevents ev' hmem).2.rows (hunrotated ev' hev'), hP.2.trans (htimes ev' hmem)⟩
  intro n d hn hdesc
  have hd := hb.found hn hdesc
  refine ⟨hb.refused hd ht, fun i x hi hx => ?_⟩
  obtain ⟨ev', hev', hcommit', hrot⟩ := hanswered i d x hi hx
  obtain ⟨hmem, hpid⟩ := mem_own.mp hev'
  refine ⟨ev', mem_own.mpr ⟨?_, hpid⟩, hcommit', hrot⟩
  rcases h₂.mem_trace hmem with hold | hnew
  · exact hold
  · exact absurd hrot ((hsince ev' hnew).1.not_rotation hd (hunrotated ev' hnew))

/-- A login, a refresh of its token, and a logout. -/
def loginRefreshLogout : Fin 3 → Request
  | 0 => .login "a@b.c" "p"
  | 1 => .refresh 2
  | 2 => .logout ⟨0, 0, none⟩

/-- Whether the run has come to the commit of a logout that is for token 2, whose successor is
token 3. -/
def loggedOut (c : Sessions (Fin 3) (Option AuthResponse)) : Bool :=
  c.trace.getLast?.any (fun ev => ev.stmt = .commit && ev.pid = 2)
    && (openScans (own 2 c.trace.dropLast)).any (fun w => (Committed w.before 2).any (w.query.covers 2))
    && successorOf 2 c.store = some 3

lemma loggedOut_eq_true {c : Sessions (Fin 3) (Option AuthResponse)} (h : loggedOut c = true) :
    ∃ tr ev, c.trace = tr ++ [ev] ∧ ev.stmt = .commit ∧ ev.pid = 2
      ∧ (∃ w ∈ openScans (own ev.pid tr), w.Found 2) ∧ Descends c.store 2 3 := by
  simp only [loggedOut, Bool.and_eq_true, Option.any_eq_true, List.any_eq_true,
    decide_eq_true_eq] at h
  obtain ⟨⟨⟨ev, hlast, hcommit, hpid⟩, w, hw, hfound⟩, hsucc⟩ := h
  refine ⟨c.trace.dropLast, ev, (List.dropLast_append_getLast? ev hlast).symm, hcommit, hpid,
    ⟨w, hpid ▸ hw, hfound⟩, Relation.ReflTransGen.single hsucc⟩

/-- The successor of a login token is refused after a logout. -/
theorem revocation_complete_logout :
    ∃ c : Sessions (Fin 3) (Option AuthResponse),
      Pool.Reach (postgres (Fin 3)) (.start (fun i => (loginRefreshLogout i).run plain) oneLogin) c
        ∧ Along Undisturbed c.trace ∧ Descends c.store 2 3 ∧ Refused plain 3 c.store := by
  have hrun : (((Pool.start (fun i => (loginRefreshLogout i).run plain) oneLogin).run
      (postgres (Fin 3)) (List.replicate 8 (.step 0) ++ List.replicate 9 (.step 1)
        ++ List.replicate 6 (.step 2))).any fun c =>
          loggedOut c && decide (Along Undisturbed c.trace)) = true := by
    decide +kernel
  obtain ⟨c, hc, hP⟩ := Pool.exists_of_run hrun
  obtain ⟨hdone, hC⟩ := Bool.and_eq_true_iff.mp hP
  obtain ⟨tr, ev, hlast, hcommit, -, ⟨w, hw, hfound⟩, hdesc⟩ := loggedOut_eq_true hdone
  have hcomplete := revocation_complete (fun _ _ => rfl) (linear_of_none fun _ => rfl) hc .refl
    (of_decide_eq_true hC) hlast hcommit
  exact ⟨c, hc, of_decide_eq_true hC, hdesc, (hcomplete.2 w hw 2 3 hfound hdesc).1⟩

/-- **A logout that waits for a rotation**: its bulk update has begun before the rotation commits, so
the successor of the token that it is for goes on to be accepted. -/
theorem rotation_survives :
    ∃ c : Sessions (Fin 3) (Option AuthResponse),
      Pool.Reach (postgres (Fin 3)) (.start (fun i => (loginRefreshLogout i).run plain) oneLogin) c
        ∧ ∃ tr ev, c.trace = tr ++ [ev] ∧ ev.stmt = .commit
          ∧ loginRefreshLogout ev.pid = .logout ⟨0, 0, none⟩
          ∧ (∃ w ∈ openScans (own ev.pid tr), w.Found 2) ∧ Descends c.store 2 3
          ∧ ¬ Refused plain 3 c.store := by
  have hrun : (((Pool.start (fun i => (loginRefreshLogout i).run plain) oneLogin).run
      (postgres (Fin 3)) (List.replicate 8 (.step 0) ++ List.replicate 6 (.step 1)
        ++ List.replicate 4 (.step 2) ++ List.replicate 3 (.step 1)
        ++ List.replicate 2 (.step 2))).any fun c =>
          loggedOut c && decide (∀ n < c.store.fresh, (c.store.dirty .refreshTokens n).isNone)
            && (alone 0 (AuthService.refresh plain 3) c.store).1.toBool) = true := by
    decide +kernel
  obtain ⟨c, hc, hP⟩ := Pool.exists_of_run hrun
  simp only [Bool.and_eq_true] at hP
  obtain ⟨⟨hdone, hclean⟩, hok⟩ := hP
  obtain ⟨tr, ev, hlast, hcommit, hpid, hfound, hdesc⟩ := loggedOut_eq_true hdone
  have hunwritten : Unwritten 0 c.store := by
    intro n r hd
    have hnone := of_decide_eq_true hclean n (Db.lt_fresh_of_dirty hd)
    rw [hd] at hnone
    cases hnone
  refine ⟨c, hc, tr, ev, hlast, hcommit, by rw [hpid]; rfl, hfound, hdesc, fun hrefused => ?_⟩
  obtain ⟨e, he⟩ := hrefused 0 hunwritten
  rw [he] at hok
  cases hok

end Main

end Accounts
