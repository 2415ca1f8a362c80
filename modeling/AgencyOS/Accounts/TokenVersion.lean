import AgencyOS.Accounts.AuthService
import AgencyOS.Accounts.OwnerSafety

/-!
The token version of a user, which the request guard compares with the one an access token carries.

A revoking operation reads the version when it loads the user and writes it back one higher, by key
alone.  The write is a loss when another session has raised the version in between.

* `Onward`, `Versioned`: versions do not decrease, committed or uncommitted;
* `Timely`: a version is written over the one that was loaded;
* `Done`: what the commit of a request has to do;
* `versions`: the contract of the requests, and `Request.meets_versions`;
* `token_version_increases` (**revocation of access tokens**): in every run whose writes of a version
  are timely, every commit of a revoking operation raises the version, no commit lowers it, and an
  access token issued before such a commit is rejected from then on.
-/

namespace Accounts

open Txn Automation

section Rows

variable {ι : Type} [DecidableEq ι] {s s' s'' : Database ι} {i j : ι} {m : ℕ}
  {q : Sql accounts}

/-- How a row may go on: a version does not decrease, and a token keeps its user. -/
def Onward : (t : Table) → Row t → Row t → Prop
  | .users => fun u u' : User => u.tokenVersion ≤ u'.tokenVersion
  | .refreshTokens => fun r r' : RefreshToken => r'.userId = r.userId
  | .authTokens => fun r r' : AuthToken => r'.userId = r.userId

lemma Onward.refl (t : Table) (r : Row t) : Onward t r r := by
  cases t
  · exact le_refl (User.tokenVersion r)
  · rfl
  · rfl

lemma Onward.trans (t : Table) (r r' r'' : Row t) (h : Onward t r r') (h' : Onward t r' r'') :
    Onward t r r'' := by
  cases t
  · exact le_trans (α := ℕ) h h'
  · exact Eq.trans (α := ℕ) h' h
  · exact Eq.trans (α := ℕ) h' h

/-- The committed version of user `m` is higher afterwards. -/
def VersionLt (m : ℕ) (s s' : Database ι) : Prop :=
  ∃ u u', s.committed .users m = some u ∧ s'.committed .users m = some u'
    ∧ u.tokenVersion < u'.tokenVersion

/-- The committed rows have gone on, and no user was added. -/
structure Forward (s s' : Database ι) : Prop where
  rows : ∀ t n r, s.committed t n = some r → ∃ r', s'.committed t n = some r' ∧ Onward t r r'
  users : ∀ m, s.committed .users m = none → s'.committed .users m = none

omit [DecidableEq ι] in
lemma Forward.of_eq (h : s'.committed = s.committed) : Forward s s' where
  rows := fun t n r hr => ⟨r, by rw [h, hr], .refl t r⟩
  users := fun m hm => by rw [h, hm]

omit [DecidableEq ι] in
lemma Forward.trans (h : Forward s s') (h' : Forward s' s'') : Forward s s'' where
  rows := fun t n r hr => by
    obtain ⟨r', hr', hon⟩ := h.rows t n r hr
    obtain ⟨r'', hr'', hon'⟩ := h'.rows t n r' hr'
    exact ⟨r'', hr'', hon.trans t r r' r'' hon'⟩
  users := fun m hm => h'.users m (h.users m hm)

/-- The uncommitted rows go on from the committed ones, and every uncommitted user has one. -/
structure Versioned (s : Database ι) : Prop where
  ahead : Ahead (S := accounts) Onward s
  based : ∀ m j u, s.dirty .users m = some (j, u) → ∃ rc, s.committed .users m = some rc

omit [DecidableEq ι] in
lemma versioned_of_settled (hs : s.Settled) : Versioned s where
  ahead := hs.ahead _
  based := fun m j u hd => by
    rw [hs] at hd
    cases hd

/-- A flush that changes the version raises it by one. -/
def BumpsByOne (q : Sql accounts) : Prop :=
  ∀ known user m, q = .update (.flush known user) m → user.tokenVersion ≠ known.tokenVersion →
    user.tokenVersion = known.tokenVersion + 1

/-- A flush that changes the version meets the row at the version it was loaded with. -/
def Timely (ev : Happened ι) : Prop :=
  match ev.stmt with
  | .update (.flush known user) m =>
      user.tokenVersion = known.tokenVersion
        ∨ (ev.before.view ev.pid .users m).all (·.tokenVersion = known.tokenVersion) = true
  | _ => True

instance (ev : Happened ι) : Decidable (Timely ev) := by
  unfold Timely
  split <;> infer_instance

/-- The version that a timely flush leaves. -/
lemma Timely.version {known user u : User}
    (ht : Timely ⟨i, .update (.flush known user) m, s, s'⟩)
    (hq : BumpsByOne (.update (.flush known user) m : Sql accounts))
    (hv : s.view i .users m = some u) :
    ((User.flush known user).set u).tokenVersion = u.tokenVersion
        ∧ user.tokenVersion = known.tokenVersion
      ∨ ((User.flush known user).set u).tokenVersion = u.tokenVersion + 1
        ∧ user.tokenVersion ≠ known.tokenVersion := by
  by_cases hsame : user.tokenVersion = known.tokenVersion
  · exact Or.inl ⟨if_pos hsame, hsame⟩
  · refine Or.inr ⟨?_, hsame⟩
    have hall := Or.resolve_left ht hsame
    simp only [hv, Option.all_some, decide_eq_true_eq] at hall
    calc ((User.flush known user).set u).tokenVersion
        = user.tokenVersion := if_neg hsame
      _ = known.tokenVersion + 1 := hq known user m rfl hsame
      _ = u.tokenVersion + 1 := by rw [hall]

/-- A timely statement keeps the versions in order. -/
lemma Versioned.effect (h : Versioned s) (hq : BumpsByOne q)
    (ht : Timely ⟨i, q, s, Db.effect i q s⟩) : Versioned (Db.effect i q s) where
  ahead := by
    refine h.ahead.effect Onward.refl fun u n r hu hv _ rc _ hrc => ?_
    subst hu
    cases u with
    | flush known user =>
        have hle : rc.tokenVersion ≤ r.tokenVersion := hrc
        show rc.tokenVersion ≤ ((User.flush known user).set r).tokenVersion
        rcases ht.version hq hv with ⟨heq, -⟩ | ⟨heq, -⟩ <;> omega
    | _ => exact hrc
  based := by
    intro m j u hd
    rcases Db.dirty_effect_cases hd with
      ⟨hold, hj⟩ | ⟨rfl, ⟨p, r₀, rfl, hv, -, heq⟩ | ⟨x, rfl, -, heq⟩⟩
    · obtain ⟨rc, hrc⟩ := h.based m j u hold
      rcases Db.committed_effect_cases i q s .users m with hsame | ⟨-, r, -, hr⟩
      · exact ⟨rc, hsame.trans hrc⟩
      · exact ⟨r, hr⟩
    · rw [Db.committed_effect (by simp)]
      cases p with
      | flush known user =>
          rcases s.view_cases j .users m with ⟨r, hr, -⟩ | ⟨-, hc⟩
          · exact h.based m j r hr
          · exact ⟨r₀, hc.symm.trans hv⟩
      | _ => cases heq
    · cases heq

/-- The committed rows go on under every statement. -/
lemma Versioned.forward (h : Versioned s) (i : ι) (q : Sql accounts) :
    Forward s (Db.effect i q s) where
  rows := fun _ _ _ hr => h.ahead.committed Onward.refl i q hr
  users := fun m hm => by
    rcases Db.committed_effect_cases i q s .users m with hsame | ⟨-, r, hd, -⟩
    · exact hsame.trans hm
    · obtain ⟨rc, hrc⟩ := h.based m i r hd
      rw [hm] at hrc
      cases hrc

end Rows

/-! ### What lasts -/

section Lasting

variable {ι : Type}

/-- An assertion that goes on with the committed rows. -/
def Lasting (J : Database ι → Prop) : Prop := ∀ s s', Forward s s' → J s → J s'

/-- The user of a refresh token and of an account token. -/
def refreshUser (rawToken : ℕ) (s : Database ι) : Option ℕ :=
  (s.committed .refreshTokens rawToken).map RefreshToken.userId

def authUser (rawToken : ℕ) (s : Database ι) : Option ℕ :=
  (s.committed .authTokens rawToken).map AuthToken.userId

/-- The version `tv` of user `m` has been committed by now. -/
def Reached (m tv : ℕ) (s : Database ι) : Prop :=
  ∃ u, s.committed .users m = some u ∧ tv ≤ u.tokenVersion

lemma reached_lasting (m tv : ℕ) : Lasting (Reached m tv : Database ι → Prop) := by
  rintro s s' hs ⟨u, hu, hle⟩
  obtain ⟨u', hu', hon⟩ := hs.rows .users m u hu
  exact ⟨u', hu', le_trans (α := ℕ) hle hon⟩

lemma lasting_true : Lasting (fun _ : Database ι => True) := fun _ _ _ h => h

lemma Lasting.and {J J' : Database ι → Prop} (hJ : Lasting J) (hJ' : Lasting J') :
    Lasting fun s => J s ∧ J' s :=
  fun s s' hs h => ⟨hJ s s' hs h.1, hJ' s s' hs h.2⟩

lemma refreshUser_lasting (rawToken m : ℕ) :
    Lasting fun s : Database ι => refreshUser rawToken s = some m := by
  intro s s' hs h
  obtain ⟨r, hr, rfl⟩ := Option.map_eq_some_iff.mp h
  obtain ⟨r', hr', hon⟩ := hs.rows .refreshTokens rawToken r hr
  exact Option.map_eq_some_iff.mpr ⟨r', hr', hon⟩

lemma authUser_lasting (rawToken m : ℕ) :
    Lasting fun s : Database ι => authUser rawToken s = some m := by
  intro s s' hs h
  obtain ⟨r, hr, rfl⟩ := Option.map_eq_some_iff.mp h
  obtain ⟨r', hr', hon⟩ := hs.rows .authTokens rawToken r hr
  exact Option.map_eq_some_iff.mpr ⟨r', hr', hon⟩

lemma missing_lasting (m : ℕ) : Lasting fun s : Database ι => s.committed .users m = none :=
  fun _ _ hs h => hs.users m h

end Lasting

/-! ### Revoking requests -/

section Requests

variable {ι : Type} [DecidableEq ι] {s s' s'' : Database ι} {i j : ι} {m : ℕ}

/-- The commit rotates the refresh token. -/
def Rotated (rawToken : ℕ) (s s' : Database ι) : Prop :=
  ∃ r r', s.committed .refreshTokens rawToken = some r ∧ r.revokedAt = none
    ∧ s'.committed .refreshTokens rawToken = some r' ∧ r'.replacedBy ≠ none

/-- What the commit of a request has done: a revoking request has raised the version of its user,
and `refresh` has when it has not rotated the token. -/
def Done (s s' : Database ι) : Request → Prop
  | .login .. | .verifyMfa .. => True
  | .refresh rawToken => Rotated rawToken s s'
      ∨ ∃ m, refreshUser rawToken s = some m
        ∧ (s.committed .users m = none ∨ VersionLt m s s')
  | .logout token | .changePassword token .. | .activateMfa token .. | .disableMfa token .. =>
      VersionLt token.sub s s'
  | .resetPassword rawToken _ => ∃ m, authUser rawToken s = some m ∧ VersionLt m s s'

/-- The contract of the requests. -/
def versions (reqs : ι → Request) : Contract (sql accounts) ι (Database ι) where
  inv := fun _ s => Versioned s
  assume := fun _ ev => Timely ev
  guar := fun i _ ev =>
    Forward ev.before ev.after ∧ (ev.stmt = .commit → Done ev.before ev.after (reqs i))
  rely := fun i _ s s' => Frame i s s' ∧ Forward s s'

variable {reqs : ι → Request} {h : List (Happened ι)} {q : Sql accounts}

/-- Every timely statement keeps the contract, a commit if it has done its part. -/
lemma versions_step (reqs : ι → Request) (h : List (Happened ι)) (hI : Versioned s) (hq : BumpsByOne q)
    (hc : q = .commit → Done s (s.commit i) (reqs i))
    (ht : Timely ⟨i, q, s, Db.effect i q s⟩) :
    Versioned (Db.effect i q s)
      ∧ (versions reqs).guar i h ⟨i, q, s, Db.effect i q s⟩ := by
  refine ⟨hI.effect hq ht, hI.forward i q, fun hcommit => ?_⟩
  have hq' : q = .commit := hcommit
  subst hq'
  exact hc rfl

lemma versions_compatible : (versions reqs).Compatible (postgres ι) where
  refl := fun i _ s => ⟨.refl i s, .of_eq rfl⟩
  trans := fun i _ _ _ _ h h' => ⟨h.1.trans h'.1, h.2.trans h'.2⟩
  step := fun tr ev j hj hI ht _ heff hg => by
    refine ⟨?_, hg.1⟩
    rw [heff]
    exact frame_effect (fun hij => hj hij.symm) ev.stmt ev.before
  hangup := fun tr i s hI _ ht =>
    versions_step reqs (own i tr) (q := .rollback) hI (fun _ _ _ hq => by cases hq) (fun hq => by cases hq) ht

/-- Session `i` has written nothing. -/
def Clean (i : ι) (s : Database ι) : Prop := ∀ t n r, s.dirty t n ≠ some (i, r)

lemma Clean.view (hc : Clean i s) (t : Table) (n : ℕ) : s.view i t n = s.committed t n :=
  Db.view_of_not_own fun r => hc t n r

lemma Clean.frame (hc : Clean i s) (hf : Frame i s s') : Clean i s' :=
  fun t n r hd => hc t n r ((hf.dirty t n r).mp hd)

/-- A statement that only reads. -/
def Reads : Sql accounts → Prop
  | .select .. | .scan _ | .now => True
  | _ => False

lemma Reads.effect (hq : Reads q) (i : ι) (s : Database ι) :
    (Db.effect i q s).committed = s.committed ∧ (Db.effect i q s).dirty = s.dirty := by
  cases q with
  | select t n => exact ⟨rfl, rfl⟩
  | scan p => exact ⟨rfl, rfl⟩
  | now => exact ⟨rfl, rfl⟩
  | _ => cases hq

lemma Reads.bumpsByOne (hq : Reads q) : BumpsByOne q := by
  rintro known user m rfl
  cases hq

lemma Reads.ne_commit (hq : Reads q) : q ≠ .commit := by
  rintro rfl
  cases hq

variable {α : Type}

/-- A read of a session that has written nothing shows what is committed. -/
lemma meets_read {J : Database ι → Prop} (hJ : Lasting J) (hq : Reads q) (hclean : Clean i s)
    (h0 : J s) :
    Meets (versions reqs) (postgres ι) i (fun _ r s' => Clean i s' ∧ J s'
        ∧ ∃ s₁, Clean i s₁ ∧ r = .ok (Db.answer i q s₁) ∧ Forward s₁ s')
      (Prog.ask (S := sql accounts) q : Txn.Tx accounts Exn (Sql.Resp q)) h s := by
  refine (meets_ask (P := fun s₁ => Clean i s₁ ∧ J s₁) ?_).mono ?_
  · intro tr s₁ _ hr hI _ ht
    obtain ⟨h₁, h₂⟩ := versions_step reqs h hI hq.bumpsByOne
      (fun hc => absurd hc hq.ne_commit) ht
    exact ⟨h₁, h₂, hclean.frame hr.1, hJ _ _ hr.2 h0⟩
  · rintro h' r s' ⟨s₁, ⟨hclean₁, hJ₁⟩, -, rfl, hframe, hforward⟩
    obtain ⟨hcom, hdirty⟩ := hq.effect i s₁
    have hclean' : Clean i (Db.effect i q s₁) := fun t n r hd => hclean₁ t n r (by rwa [← hdirty])
    have hforward' : Forward s₁ s' := (Forward.of_eq hcom).trans hforward
    exact ⟨hclean'.frame hframe, hJ _ _ hforward' hJ₁, s₁, hclean₁, rfl, hforward'⟩

/-- A statement of a request, which commits only when the request may. -/
def Allowed (J : Database ι → Prop) (r : Request) (q : Sql accounts) : Prop :=
  BumpsByOne q ∧ (q = .commit → ∀ s s', J s → Done s s' r)

omit [DecidableEq ι] in
lemma Reads.allowed {J : Database ι → Prop} {r : Request} (hq : Reads q) : Allowed J r q :=
  ⟨hq.bumpsByOne, fun hc => absurd hc hq.ne_commit⟩

/-- A program of allowed statements keeps an assertion on the committed rows. -/
lemma meets_lasting {J : Database ι → Prop} (hJ : Lasting J) {p : Tx α}
    (hp : p.Issues (Allowed J (reqs i))) (h0 : J s) :
    Meets (versions reqs) (postgres ι) i (fun _ _ s => J s) p h s := by
  refine meets_of_issues hp (fun _ s s' h hr => hJ s s' hr.2 h) ?_ h0
  intro tr q h s _ hq hI hJs _ ht
  obtain ⟨h₁, h₂⟩ := versions_step reqs h hI hq.1 (fun hc => hq.2 hc _ _ hJs) ht
  exact ⟨h₁, h₂, hJ _ _ h₂.1 hJs⟩

/-! ### A version raised -/

/-- A statement that neither ends the transaction nor writes a user. -/
def Aside (q : Sql accounts) : Prop :=
  q ≠ .commit ∧ q ≠ .rollback ∧ ∀ known user m, q ≠ .update (.flush known user) m

lemma Aside.bumpsByOne (hq : Aside q) : BumpsByOne q :=
  fun known user m h => absurd h (hq.2.2 known user m)

lemma Aside.dirty (hq : Aside q) (i : ι) (s : Database ι) :
    (Db.effect i q s).dirty .users = s.dirty .users := by
  funext n
  cases q with
  | update u m =>
      rw [Db.effect]
      split
      · cases u with
        | flush known user => exact absurd rfl (hq.2.2 known user m)
        | _ =>
            rw [Db.dirty_write]
            exact put_of_ne_table _ _ _ _ (by simp)
      · rfl
  | insert x =>
      rw [Db.effect, Db.dirty_write]
      exact put_of_ne_table _ _ _ _ (by simp)
  | commit => exact absurd rfl hq.1
  | rollback => exact absurd rfl hq.2.1
  | _ => rfl

/-- Session `i` has raised the version of user `m`. -/
def Raised (i : ι) (m : ℕ) (s : Database ι) : Prop :=
  ∃ u rc, s.dirty .users m = some (i, u) ∧ s.committed .users m = some rc
    ∧ rc.tokenVersion < u.tokenVersion

lemma Raised.frame (hup : Raised i m s) (hf : Frame i s s') : Raised i m s' := by
  obtain ⟨u, rc, hd, hc, hlt⟩ := hup
  exact ⟨u, rc, (hf.dirty _ m u).mpr hd, (hf.committed _ m u hd).trans hc, hlt⟩

lemma Raised.aside (hup : Raised i m s) (hq : Aside q) : Raised i m (Db.effect i q s) := by
  obtain ⟨u, rc, hd, hc, hlt⟩ := hup
  exact ⟨u, rc, (congrFun (hq.dirty i s) m).trans hd, by rw [Db.committed_effect hq.1, hc], hlt⟩

lemma Raised.commit (hup : Raised i m s) : VersionLt m s (s.commit i) := by
  obtain ⟨u, rc, hd, hc, hlt⟩ := hup
  exact ⟨rc, u, hc, Db.view_of_own hd, hlt⟩

/-- A flush that raises the version. -/
lemma meets_bump {J : Database ι → Prop} (hJ : Lasting J) {known user : User}
    (hsame : user.tokenVersion = known.tokenVersion) (h0 : J s) :
    Meets (versions reqs) (postgres ι) i (fun _ r s => ∀ a, r = .ok a → J s ∧ Raised i m s)
      (flush m known user.bumped) h s := by
  have hne : user.bumped.tokenVersion ≠ known.tokenVersion := by
    show user.tokenVersion + 1 ≠ known.tokenVersion
    omega
  have hq : BumpsByOne (.update (.flush known user.bumped) m) := by
    rintro known' user' m' heq -
    obtain ⟨hu, -⟩ := Sql.update.inj heq
    obtain ⟨rfl, rfl⟩ := Update.flush.inj hu
    exact congrArg (· + 1) hsame
  unfold flush
  rw [if_neg fun h => hne (congrArg User.tokenVersion h)]
  have hask : Meets (versions reqs) (postgres ι) i
      (fun _ r s => J s ∧ ∀ u, r = .ok (some u) → Raised i m s)
      (Tx.update (S := accounts) (.flush known user.bumped) m : Txn.Tx accounts Exn (Option User))
      h s := by
    refine (meets_ask (P := fun s₁ => Versioned s₁
      ∧ J (Db.effect i (.update (.flush known user.bumped) m) s₁)
      ∧ Timely ⟨i, .update (.flush known user.bumped) m, s₁,
          Db.effect i (.update (.flush known user.bumped) m) s₁⟩) ?_).mono ?_
    · intro tr s₁ _ hr hI _ ht
      obtain ⟨h₁, h₂⟩ := versions_step reqs h hI hq (fun hc => by cases hc) ht
      exact ⟨h₁, h₂, hI, hJ _ _ h₂.1 (hJ _ _ hr.2 h0), ht⟩
    · rintro h' r s' ⟨s₁, ⟨hI, hJ₁, ht⟩, -, rfl, hframe, hforward⟩
      refine ⟨hJ _ _ hforward hJ₁, fun u hu => ?_⟩
      have hw : s₁.written i (.flush known user.bumped : accounts.Update) m = some u :=
        Except.ok.inj hu
      obtain ⟨-, u₀, hv, -, rfl⟩ := Db.written_eq_some.mp hw
      have hversion : ((User.flush known user.bumped).set u₀).tokenVersion = u₀.tokenVersion + 1 :=
        ((ht.version hq hv).resolve_left fun h => hne h.2).1
      have hrc : ∃ rc, s₁.committed .users m = some rc := by
        rcases s₁.view_cases i .users m with ⟨r, hd, -⟩ | ⟨-, hc⟩
        · exact hI.based m i r hd
        · exact ⟨u₀, hc.symm.trans hv⟩
      obtain ⟨rc, hrc⟩ := hrc
      have hle : rc.tokenVersion ≤ u₀.tokenVersion := hI.ahead.view Onward.refl hv hrc
      refine Raised.frame ⟨_, rc, Db.dirty_update hw, ?_, ?_⟩ hframe
      · rw [Db.committed_effect (by simp), hrc]
      · show rc.tokenVersion < ((User.flush known user.bumped).set u₀).tokenVersion
        omega
  refine hask.bind versions_compatible ?_ ?_
  · rintro h r s ⟨hJs, hraised⟩
    cases r with
    | none => exact fun _ _ _ _ _ a ha => by cases ha
    | some u => exact fun tr s' _ hr _ a _ => ⟨hJ _ _ hr.2 hJs, (hraised u rfl).frame hr.1⟩
  · rintro h e s ⟨-, -⟩ a ha
    cases ha

/-- A program that neither ends the transaction nor writes a user keeps a raised version. -/
lemma meets_aside {J : Database ι → Prop} (hJ : Lasting J) {p : Tx α} (hp : p.Issues Aside)
    (h0 : J s) (hup : Raised i m s) :
    Meets (versions reqs) (postgres ι) i (fun _ _ s => J s ∧ Raised i m s) p h s := by
  refine meets_of_issues hp (fun _ s s' hs hr => ⟨hJ s s' hr.2 hs.1, hs.2.frame hr.1⟩) ?_ ⟨h0, hup⟩
  intro tr q h s _ hq hI hs _ ht
  obtain ⟨h₁, h₂⟩ := versions_step reqs h hI hq.bumpsByOne
    (fun hc => absurd hc hq.1) ht
  exact ⟨h₁, h₂, hJ _ _ h₂.1 hs.1, hs.2.aside hq⟩

/-- The commit of a session whose own writes are what the request has to do. -/
lemma meets_commit {J A : Database ι → Prop} {p : Tx α} (hJ : Lasting J) (hp : p.Issues Reads)
    (hA : ∀ s s', A s → Frame i s s' → A s')
    (hdone : ∀ s, J s → A s → Done s (s.commit i) (reqs i)) (h0 : J s) (hAs : A s) :
    Meets (versions reqs) (postgres ι) i (fun _ _ s => J s) (Txn.Tx.commit.bind fun _ => p) h s := by
  intro tr s₁ _ hr hI _ ht
  have hJ₁ := hJ _ _ hr.2 h0
  obtain ⟨h₁, h₂⟩ := versions_step reqs h hI (q := .commit)
    (fun _ _ _ hc => by cases hc) (fun _ => hdone _ hJ₁ (hA _ _ hAs hr.1)) ht
  exact ⟨h₁, h₂, meets_lasting hJ (Prog.issues_mono hp fun _ hq => hq.allowed) (hJ _ _ h₂.1 hJ₁)⟩

lemma aside_revoke (u : Update) (n : ℕ) (hu : ∀ known user, u ≠ .flush known user) :
    Aside (.update u n) := by
  refine ⟨by simp, by simp, fun known user m h => ?_⟩
  obtain ⟨h, -⟩ := Sql.update.inj h
  exact hu known user h

lemma aside_scan (p : Query) : Aside (.scan p) := ⟨by simp, by simp, by simp⟩

lemma aside_revokeAllForUser (userId : ℕ) (now : Time) :
    (RefreshTokenRepository.revokeAllForUser userId now).Issues Aside :=
  issues_revokeAllForUser (aside_scan _) fun n => aside_revoke _ n (by simp)

lemma aside_revokeFamily (familyId : ℕ) (now : Time) :
    (RefreshTokenRepository.revokeFamily familyId now).Issues Aside :=
  issues_revokeFamily (aside_scan _) fun n => aside_revoke _ n (by simp)

/-- **The end of a revoking operation** raises the version of its user and commits. -/
theorem meets_revokeSessions {J : Database ι → Prop} (hJ : Lasting J) {known user : User} {now : Time}
    (hsame : user.tokenVersion = known.tokenVersion)
    (hdone : ∀ s s', J s → VersionLt m s s' → Done s s' (reqs i)) (h0 : J s) :
    Meets (versions reqs) (postgres ι) i (fun _ _ _ => True)
      (AuthService.revokeSessions m known user now) h s := by
  refine (meets_bump hJ hsame h0).bind versions_compatible (fun h _ s hs => ?_)
    fun _ _ _ _ => trivial
  obtain ⟨hJs, hup⟩ := hs () rfl
  refine (meets_aside hJ (aside_revokeAllForUser m now) hJs hup).bind versions_compatible
    (fun h _ s hs => ?_) fun _ _ _ _ => trivial
  exact (meets_commit (p := .ret ()) hJ trivial (fun _ _ h hf => h.frame hf)
    (fun s hJs hup => hdone _ _ hJs hup.commit) hs.1 hs.2).mono fun _ _ _ _ => trivial

/-! ### The requests -/

variable {cfg : Security}

lemma not_flush {q : Sql accounts} (hq : ∀ known user m, q ≠ .update (.flush known user) m) :
    BumpsByOne q := fun known user m h => absurd h (hq known user m)

omit [DecidableEq ι] in
/-- A flush that leaves the version alone. -/
lemma allowed_flush {J : Database ι → Prop} {r : Request} {known user : User}
    (hsame : user.tokenVersion = known.tokenVersion) :
    (flush m known user).Issues (Allowed J r) := by
  refine issues_flush fun _ => ⟨?_, fun h => by cases h⟩
  rintro known' user' m' heq hne
  obtain ⟨hu, -⟩ := Sql.update.inj heq
  obtain ⟨rfl, rfl⟩ := Update.flush.inj hu
  exact absurd hsame hne

lemma reads_getCurrentUser (token : AccessToken) : (getCurrentUser token).Issues Reads := by
  unfold getCurrentUser
  split_ifs
  · trivial
  · refine Prog.issues_bind ⟨trivial, fun _ => trivial⟩ fun found => ?_
    unfold checkUser
    split
    · trivial
    · split_ifs <;> trivial

/-- What a request ends in: an access token carries a version that has been committed. -/
def Issued : Post (sql accounts) ι (Database ι) Exn (Option AuthResponse) :=
  fun _ r s => ∀ x, r = .ok (some x) → Reached x.accessToken.sub x.accessToken.tv s

/-- A program that goes on with no session to answer. -/
lemma meets_none {p : Tx Unit}
    (hp : Meets (versions reqs) (postgres ι) i (fun _ _ _ => True) p h s) :
    Meets (versions reqs) (postgres ι) i Issued (p.bind fun _ => .ret none) h s := by
  refine hp.bind versions_compatible (fun _ _ _ _ => ?_) fun _ _ _ _ x hx => by cases hx
  exact fun _ _ _ _ _ x hx => by cases hx

/-- A program that only reads. -/
lemma meets_reads {J : Database ι → Prop} (hJ : Lasting J) {p : Tx α} (hp : p.Issues Reads)
    (h0 : J s) : Meets (versions reqs) (postgres ι) i (fun _ _ s => J s) p h s :=
  meets_lasting hJ (Prog.issues_mono hp fun _ hq => hq.allowed) h0

/-- An authenticated request whose operation raises the version of the user of its token. -/
lemma meets_authenticated {token : AccessToken} {p : ℕ → User → Tx Unit}
    (hp : ∀ user h s, Meets (versions reqs) (postgres ι) i (fun _ _ _ => True)
      (p token.sub user) h s) :
    Meets (versions reqs) (postgres ι) i Issued (authenticated token p) h s := by
  refine (meets_reads lasting_true (reads_getCurrentUser token) trivial).bind versions_compatible
    (fun h user s _ => meets_none (hp user h s)) fun _ _ _ _ x hx => by cases hx

lemma meets_logout (hdone : ∀ s s' : Database ι, VersionLt m s s' → Done s s' (reqs i)) (user : User) :
    Meets (versions reqs) (postgres ι) i (fun _ _ _ => True) (AuthService.logout m user) h s := by
  refine (meets_reads (p := Txn.Tx.now) lasting_true ⟨trivial, fun _ => trivial⟩ trivial).bind
    versions_compatible (fun h now s _ => ?_) fun _ _ _ _ => trivial
  exact meets_revokeSessions lasting_true rfl (fun s s' _ => hdone s s') trivial

lemma meets_raise_true (e : Exn) :
    Meets (versions reqs) (postgres ι) i (fun _ _ _ => True) (.raise e : Tx α) h s :=
  fun _ _ _ _ _ => trivial

lemma meets_changePassword (hdone : ∀ s s' : Database ι, VersionLt m s s' → Done s s' (reqs i)) (user : User)
    (current newPassword : String) :
    Meets (versions reqs) (postgres ι) i (fun _ _ _ => True)
      (AuthService.changePassword cfg m user current newPassword) h s := by
  unfold AuthService.changePassword
  split_ifs
  · exact meets_raise_true _
  · refine (meets_reads (p := Txn.Tx.now) lasting_true ⟨trivial, fun _ => trivial⟩ trivial).bind
      versions_compatible (fun h now s _ => ?_) fun _ _ _ _ => trivial
    exact meets_revokeSessions lasting_true rfl (fun s s' _ => hdone s s') trivial

/-- The end of the changes of the second factor: a first flush, then the revocation. -/
lemma meets_changeFactor (hdone : ∀ s s' : Database ι, VersionLt m s s' → Done s s' (reqs i))
    {known user : User} (hsame : user.tokenVersion = known.tokenVersion) :
    Meets (versions reqs) (postgres ι) i (fun _ _ _ => True)
      ((flush m known user).bind fun _ => Txn.Tx.now.bind fun now =>
        AuthService.revokeSessions m user user now) h s := by
  refine (meets_lasting lasting_true (allowed_flush hsame) trivial).bind versions_compatible
    (fun h _ s _ => ?_) fun _ _ _ _ => trivial
  refine (meets_reads (p := Txn.Tx.now) lasting_true ⟨trivial, fun _ => trivial⟩ trivial).bind
    versions_compatible (fun h now s _ => ?_) fun _ _ _ _ => trivial
  exact meets_revokeSessions lasting_true rfl (fun s s' _ => hdone s s') trivial

lemma meets_activate (hdone : ∀ s s' : Database ι, VersionLt m s s' → Done s s' (reqs i)) (user : User)
    (code : String) :
    Meets (versions reqs) (postgres ι) i (fun _ _ _ => True) (MfaService.activate cfg m user code)
      h s := by
  unfold MfaService.activate
  split_ifs
  · exact meets_raise_true _
  · exact meets_raise_true _
  · split
    · exact meets_raise_true _
    · split_ifs
      · exact meets_raise_true _
      · exact meets_changeFactor hdone rfl

lemma meets_disable (hdone : ∀ s s' : Database ι, VersionLt m s s' → Done s s' (reqs i)) (user : User)
    (code : String) (recovered : Bool) :
    Meets (versions reqs) (postgres ι) i (fun _ _ _ => True)
      (MfaService.disable cfg m user code recovered) h s := by
  unfold MfaService.disable
  split_ifs
  · exact meets_raise_true _
  · exact meets_raise_true _
  · exact meets_raise_true _
  · exact meets_changeFactor hdone rfl

/-- A password reset raises the version of the user of its token. -/
lemma meets_resetPassword {rawToken : ℕ} {newPassword : String}
    (hr : reqs i = .resetPassword rawToken newPassword) (hclean : Clean i s) :
    Meets (versions reqs) (postgres ι) i (fun _ _ _ => True)
      (AccountSecurityService.resetPassword cfg rawToken newPassword) h s := by
  refine (meets_read (q := .now) lasting_true trivial hclean trivial).bind versions_compatible
    ?_ fun _ _ _ _ => trivial
  rintro h now s ⟨hclean, -, -⟩
  refine (meets_read (q := .select .authTokens rawToken) lasting_true trivial hclean trivial).bind
    versions_compatible ?_ fun _ _ _ _ => trivial
  rintro h found s ⟨-, -, s₁, hclean₁, hfound, hforward⟩
  obtain rfl := Except.ok.inj hfound
  cases hrec : Db.answer i (.select .authTokens rawToken : Sql accounts) s₁ with
  | none => exact meets_raise_true _
  | some record =>
      have hcom : s₁.committed .authTokens rawToken = some record :=
        (hclean₁.view _ _).symm.trans hrec
      have huser₁ : authUser rawToken s₁ = some record.userId := by
        rw [authUser, hcom]
        rfl
      have huser : authUser rawToken s = some record.userId :=
        authUser_lasting _ _ _ _ hforward huser₁
      have hlast : Lasting fun s : Database ι => authUser rawToken s = some record.userId :=
        authUser_lasting _ _
      dsimp only
      split_ifs
      · exact meets_raise_true _
      · exact meets_raise_true _
      · refine (meets_reads (p := getUser record.userId) hlast ⟨trivial, fun _ => trivial⟩ huser).bind
          versions_compatible (fun h found s huser => ?_) fun _ _ _ _ => trivial
        split
        · exact meets_raise_true _
        · refine (meets_lasting (p := Tx.update (S := accounts) (.claim .passwordReset now) rawToken)
            hlast ⟨⟨not_flush (by simp), fun h => by cases h⟩, fun _ => trivial⟩ huser).bind
            versions_compatible (fun h claimed s huser => ?_) fun _ _ _ _ => trivial
          cases claimed with
          | none => exact meets_raise_true _
          | some row =>
              refine meets_revokeSessions hlast rfl (fun s s' huser hlt => ?_) huser
              rw [hr]
              exact ⟨record.userId, huser, hlt⟩

/-! ### Rotation -/

/-- Session `i` has claimed the refresh token for its successor. -/
def Claimed (i : ι) (rawToken : ℕ) (s : Database ι) : Prop :=
  ∃ r rc, s.dirty .refreshTokens rawToken = some (i, r)
    ∧ s.committed .refreshTokens rawToken = some rc ∧ rc.revokedAt = none ∧ r.replacedBy ≠ none

lemma Claimed.frame {rawToken : ℕ} (h : Claimed i rawToken s) (hf : Frame i s s') :
    Claimed i rawToken s' := by
  obtain ⟨r, rc, hd, hc, hlive, hnamed⟩ := h
  exact ⟨r, rc, (hf.dirty _ _ r).mpr hd, (hf.committed _ _ r hd).trans hc, hlive, hnamed⟩

lemma Claimed.commit {rawToken : ℕ} (h : Claimed i rawToken s) : Rotated rawToken s (s.commit i) := by
  obtain ⟨r, rc, hd, hc, hlive, hnamed⟩ := h
  exact ⟨rc, r, hc, hlive, Db.view_of_own hd, hnamed⟩

/-- Session `i` has not written the refresh token, which is committed. -/
def Untouched (i : ι) (rawToken : ℕ) (s : Database ι) : Prop :=
  (∀ r, s.dirty .refreshTokens rawToken ≠ some (i, r))
    ∧ ∃ rc, s.committed .refreshTokens rawToken = some rc

lemma Untouched.frame {rawToken : ℕ} (h : Untouched i rawToken s) (hf : Frame i s s')
    (hfor : Forward s s') : Untouched i rawToken s' := by
  obtain ⟨hfree, rc, hrc⟩ := h
  obtain ⟨r', hr', -⟩ := hfor.rows .refreshTokens rawToken rc hrc
  exact ⟨fun r hd => hfree r ((hf.dirty _ _ r).mp hd), r', hr'⟩

omit [DecidableEq ι] in
lemma Clean.untouched {rawToken : ℕ} (hc : Clean i s)
    {rc : RefreshToken} (hrc : s.committed .refreshTokens rawToken = some rc) :
    Untouched i rawToken s := ⟨fun r => hc _ _ r, rc, hrc⟩

/-- The successor of a token is inserted. -/
lemma meets_issueTokens {J : Database ι → Prop} (hJ : Lasting J) {rawToken userId : ℕ} {user : User}
    {familyId : Option ℕ} (h0 : J s) (hfree : Untouched i rawToken s) :
    Meets (versions reqs) (postgres ι) i (fun _ r s => (J s ∧ Untouched i rawToken s)
        ∧ ∀ x, r = .ok x → x.accessToken = createAccessToken userId user)
      (AuthService.issueTokens cfg userId user user familyId) h s := by
  have hprog : AuthService.issueTokens cfg userId user user familyId
      = Txn.Tx.now.bind fun now => (Tx.insert (S := accounts)
          ⟨userId, user.organizationId, familyId, now + cfg.refreshTokenExpireDays * day⟩).bind
            fun token => .ret ⟨createAccessToken userId user, token⟩ := by
    unfold AuthService.issueTokens flush
    rw [if_pos rfl]
    rfl
  have hp : (AuthService.issueTokens cfg userId user user familyId).Issues
      fun q : Sql accounts => q = .now ∨ ∃ x, q = .insert x := by
    rw [hprog]
    exact ⟨Or.inl rfl, fun _ => ⟨Or.inr ⟨_, rfl⟩, fun _ => trivial⟩⟩
  have hret : (AuthService.issueTokens cfg userId user user familyId).Returns
      fun x => x.accessToken = createAccessToken userId user := by
    rw [hprog]
    exact fun _ _ => rfl
  have hkeep : Meets (versions reqs) (postgres ι) i (fun _ _ s => J s ∧ Untouched i rawToken s)
      (AuthService.issueTokens cfg userId user user familyId) h s := by
    refine meets_of_issues (J := fun _ s => J s ∧ Untouched i rawToken s) hp
      (fun _ s s' hs hr => ⟨hJ s s' hr.2 hs.1, hs.2.frame hr.1 hr.2⟩) ?_ ⟨h0, hfree⟩
    intro tr q h s _ hq hI hs _ ht
    obtain ⟨h₁, h₂⟩ := versions_step reqs h hI
      (not_flush (by rcases hq with rfl | ⟨x, rfl⟩ <;> simp))
      (fun hc => by rcases hq with rfl | ⟨x, rfl⟩ <;> cases hc) ht
    refine ⟨h₁, h₂, hJ _ _ h₂.1 hs.1, ?_⟩
    obtain ⟨hfree, rc, hrc⟩ := hs.2
    rcases hq with rfl | ⟨x, rfl⟩
    · exact ⟨hfree, rc, hrc⟩
    · refine ⟨fun r hd => ?_, rc, hrc⟩
      have hlt : rawToken < s.fresh := Db.lt_fresh_of_committed hrc
      change put s.dirty .refreshTokens s.fresh _ .refreshTokens rawToken = _ at hd
      rw [put_of_ne_id _ _ _ (Nat.ne_of_lt hlt)] at hd
      exact hfree r hd
  exact hkeep.returns hret

/-- The claim of a token: it was active, and is replaced when the session commits. -/
lemma meets_markReplaced {J : Database ι → Prop} (hJ : Lasting J) {rawToken replacedBy : ℕ}
    {now : Time} (h0 : J s) (hfree : Untouched i rawToken s) :
    Meets (versions reqs) (postgres ι) i
      (fun _ r s => J s ∧ (r = .ok true → Claimed i rawToken s))
      (RefreshTokenRepository.markReplaced rawToken replacedBy now) h s := by
  have hask : Meets (versions reqs) (postgres ι) i
      (fun _ r s => J s ∧ ∀ u, r = .ok (some u) → Claimed i rawToken s)
      (Tx.update (S := accounts) (.markReplaced replacedBy now) rawToken :
        Txn.Tx accounts Exn (Option RefreshToken)) h s := by
    refine (meets_ask (P := fun s₁ => Untouched i rawToken s₁
      ∧ J (Db.effect i (.update (.markReplaced replacedBy now) rawToken) s₁)) ?_).mono ?_
    · intro tr s₁ _ hr hI _ ht
      obtain ⟨h₁, h₂⟩ := versions_step reqs h
        (q := .update (.markReplaced replacedBy now) rawToken) hI (not_flush (by simp))
        (fun hc => by cases hc) ht
      exact ⟨h₁, h₂, hfree.frame hr.1 hr.2, hJ _ _ h₂.1 (hJ _ _ hr.2 h0)⟩
    · rintro h' r s' ⟨s₁, ⟨⟨hfree₁, rc, hrc⟩, hJ₁⟩, -, rfl, hframe, hforward⟩
      refine ⟨hJ _ _ hforward hJ₁, fun u hu => ?_⟩
      have hw : s₁.written i (.markReplaced replacedBy now : accounts.Update) rawToken = some u :=
        Except.ok.inj hu
      obtain ⟨-, u₀, hv, hg, rfl⟩ := Db.written_eq_some.mp hw
      have hview : s₁.view i .refreshTokens rawToken = s₁.committed .refreshTokens rawToken :=
        Db.view_of_not_own hfree₁
      obtain rfl := Option.some.inj (hrc.symm.trans (hview.symm.trans hv))
      refine Claimed.frame ⟨_, rc, Db.dirty_update hw, ?_, ?_, ?_⟩ hframe
      · rw [Db.committed_effect (by simp), hrc]
      · exact Option.isNone_iff_eq_none.mp hg
      · exact fun h => by cases h
  refine hask.bind versions_compatible ?_ ?_
  · rintro h r s ⟨hJs, hclaimed⟩
    refine fun tr s' _ hr _ => ⟨hJ _ _ hr.2 hJs, fun htrue => ?_⟩
    cases r with
    | none => cases htrue
    | some u => exact (hclaimed u rfl).frame hr.1
  · rintro h e s ⟨hJs, -⟩
    exact ⟨hJs, fun h => by cases h⟩

/-- What a program that always raises ends in. -/
def Raises : Post (sql accounts) ι (Database ι) Exn α := fun _ r _ => ∀ a, r ≠ .ok a

/-- Reuse of a token: the version of its user is raised, unless there is no such user. -/
lemma meets_revokeReused {rawToken : ℕ} {record : RefreshToken} {now : Time} {user : Option User}
    (hr : reqs i = .refresh rawToken) (h0 : refreshUser rawToken s = some record.userId)
    (hnone : user = none → s.committed .users record.userId = none) :
    Meets (versions reqs) (postgres ι) i Raises
      (AuthService.revokeReused rawToken record now user : Tx α) h s := by
  have hlast : Lasting fun s : Database ι => refreshUser rawToken s = some record.userId :=
    refreshUser_lasting _ _
  have hfamily : (RefreshTokenRepository.revokeFamily (record.family rawToken) now).Issues
      BumpsByOne := Prog.issues_mono (aside_revokeFamily _ _) fun _ hq => hq.bumpsByOne
  have hend : ∀ (h : List (Happened ι)) (r : Except Exn α) (s : Database ι) (P : Prop),
      P ∧ (∀ a, r = .ok a → False) → Raises h r s := fun _ _ _ _ h a ha => h.2 a ha
  cases user with
  | none =>
      have hJ := hlast.and (missing_lasting record.userId)
      refine (meets_lasting hJ (Prog.issues_mono (aside_revokeFamily _ _) fun q hq =>
        ⟨hq.bumpsByOne, fun hc => absurd hc hq.1⟩) ⟨h0, hnone rfl⟩).bind versions_compatible
          (fun h _ s hs => ?_) fun _ _ _ _ _ ha => by cases ha
      refine ((meets_commit (p := .raise AuthService.refreshTokenReuse) (A := fun _ => True) hJ trivial
        (fun _ _ _ _ => trivial) (fun s hs _ => ?_) hs trivial).returns (ψ := fun _ => False)
          fun _ => trivial).mono fun h r s hs => hend h r s _ hs
      rw [hr]
      exact Or.inr ⟨record.userId, hs.1, Or.inl hs.2⟩
  | some user =>
      refine (meets_lasting hlast (Prog.issues_mono (aside_revokeFamily _ _) fun q hq =>
        ⟨hq.bumpsByOne, fun hc => absurd hc hq.1⟩) h0).bind versions_compatible
          (fun h _ s hs => ?_) fun _ _ _ _ _ ha => by cases ha
      refine (meets_bump hlast rfl hs).bind versions_compatible (fun h _ s hs => ?_)
        fun _ _ _ _ _ ha => by cases ha
      obtain ⟨hJs, hup⟩ := hs () rfl
      refine ((meets_commit (p := .raise AuthService.refreshTokenReuse) hlast trivial
        (fun _ _ h hf => h.frame hf) (fun s hs hup => ?_) hJs hup).returns (ψ := fun _ => False)
          fun _ => trivial).mono fun h r s hs => hend h r s _ hs
      rw [hr]
      exact Or.inr ⟨record.userId, hs, Or.inr hup.commit⟩

/-- A program that always raises has any postcondition on results. -/
lemma Raises.meets {P : α → Database ι → Prop} {p : Tx α}
    (hp : Meets (versions reqs) (postgres ι) i Raises p h s) :
    Meets (versions reqs) (postgres ι) i (fun _ r s => ∀ a, r = .ok a → P a s) p h s :=
  hp.mono fun _ _ _ hraise a ha => absurd ha (hraise a)

/-- The access token answered carries a version that has been committed. -/
def Carries (x : AuthResponse) (s : Database ι) : Prop := Reached x.accessToken.sub x.accessToken.tv s

lemma meets_raise_any {P : α → Database ι → Prop} (e : Exn) :
    Meets (versions reqs) (postgres ι) i (fun _ r s => ∀ a, r = .ok a → P a s) (.raise e) h s :=
  fun _ _ _ _ _ a ha => by cases ha

lemma meets_rotate {rawToken : ℕ} {record : RefreshToken} {now : Time} {user : User}
    (hr : reqs i = .refresh rawToken) (hclean : Clean i s)
    (hrc : ∃ rc, s.committed .refreshTokens rawToken = some rc)
    (huser : refreshUser rawToken s = some record.userId)
    (hseen : Reached record.userId user.tokenVersion s) :
    Meets (versions reqs) (postgres ι) i (fun _ r s => ∀ x, r = .ok x → Carries x s)
      (AuthService.rotate cfg rawToken record now user) h s := by
  have huserLasts : Lasting fun s : Database ι => refreshUser rawToken s = some record.userId :=
    refreshUser_lasting _ _
  have hJ := huserLasts.and (reached_lasting record.userId user.tokenVersion)
  obtain ⟨rc, hrc⟩ := hrc
  refine (meets_issueTokens hJ ⟨huser, hseen⟩ (hclean.untouched hrc)).bind versions_compatible
    (fun h response s hs => ?_) fun _ _ _ _ _ ha => by cases ha
  obtain ⟨⟨hJs, hfree⟩, hresponse⟩ := hs
  have haccess := hresponse response rfl
  refine (meets_markReplaced hJ hJs hfree).bind versions_compatible (fun h claimed s hs => ?_)
    fun _ _ _ _ _ ha => by cases ha
  cases claimed with
  | true =>
      have hret : (AuthService.respond record.userId response).Returns (· = response) :=
        fun _ _ => rfl
      refine Meets.mono ((meets_commit (A := Claimed i rawToken) hJ
        (show ((getUser record.userId).bind fun _ => .ret response : Tx AuthResponse).Issues Reads
          from ⟨trivial, fun _ => trivial⟩) (fun _ _ h hf => h.frame hf) (fun s _ hclaimed => ?_)
        hs.1 (hs.2 rfl)).returns hret) fun h r s hs x hx => ?_
      · rw [hr]
        exact Or.inl hclaimed.commit
      · obtain rfl := hs.2 x hx
        rw [Carries, haccess]
        exact hs.1.2
  | false =>
      refine (meets_lasting (p := RefreshTokenRepository.revoke response.refreshToken now) hJ
        ⟨⟨not_flush (by simp), fun h => by cases h⟩, fun _ => trivial⟩ hs.1).bind versions_compatible
        (fun h _ s hs => ?_) fun _ _ _ _ _ ha => by cases ha
      have hloaded : some user = none → s.committed .users record.userId = none := fun h => by cases h
      exact Raises.meets (meets_revokeReused hr hs.1 hloaded)

/-- A read of a user by a session that has written nothing. -/
lemma meets_getUser {J : Database ι → Prop} (hJ : Lasting J) (hclean : Clean i s) (h0 : J s) :
    Meets (versions reqs) (postgres ι) i (fun _ r s => Clean i s ∧ J s ∧ ∀ found, r = .ok found →
        (∀ user, found = some user → Reached m user.tokenVersion s)
          ∧ (found = none → s.committed .users m = none)) (getUser m) h s := by
  refine (meets_read (q := .select .users m) hJ trivial hclean h0).mono ?_
  rintro h r s ⟨hclean, hJs, s₁, hclean₁, rfl, hforward⟩
  refine ⟨hclean, hJs, ?_⟩
  rintro found hfound
  obtain rfl := Except.ok.inj hfound
  have hview : Db.answer i (.select .users m : Sql accounts) s₁ = s₁.committed .users m :=
    hclean₁.view _ _
  rw [hview]
  exact ⟨fun user hu => reached_lasting m _ _ _ hforward ⟨user, hu, le_rfl⟩,
    fun hnone => hforward.users m hnone⟩

/-- **`refresh`** either rotates the token or raises the version of its user when it commits. -/
theorem meets_refresh {rawToken : ℕ} (hr : reqs i = .refresh rawToken) (hclean : Clean i s) :
    Meets (versions reqs) (postgres ι) i (fun _ r s => ∀ x, r = .ok x → Carries x s)
      (AuthService.refresh cfg rawToken) h s := by
  refine (meets_read (q := .now) lasting_true trivial hclean trivial).bind versions_compatible
    ?_ fun _ _ _ _ _ ha => by cases ha
  rintro h now s ⟨hclean, -⟩
  refine (meets_read (q := .select .refreshTokens rawToken) lasting_true trivial hclean trivial).bind
    versions_compatible ?_ fun _ _ _ _ _ ha => by cases ha
  rintro h found s ⟨hclean, -, s₁, hclean₁, hfound, hforward⟩
  obtain rfl := Except.ok.inj hfound
  cases hrec : Db.answer i (.select .refreshTokens rawToken : Sql accounts) s₁ with
  | none => exact meets_raise_any _
  | some record =>
      have hcom : s₁.committed .refreshTokens rawToken = some record :=
        (hclean₁.view _ _).symm.trans hrec
      have huser₁ : refreshUser rawToken s₁ = some record.userId := by
        rw [refreshUser, hcom]
        rfl
      have hlast : Lasting fun s : Database ι => refreshUser rawToken s = some record.userId :=
        refreshUser_lasting _ _
      have huser := hlast _ _ hforward huser₁
      dsimp only
      split_ifs
      · refine Raises.meets ((meets_getUser hlast hclean huser).bind versions_compatible
          (fun h found s hs => ?_) fun _ _ _ _ _ ha => by cases ha)
        exact meets_revokeReused hr hs.2.1 fun hnone => (hs.2.2 found rfl).2 hnone
      · exact meets_raise_any _
      · refine (meets_getUser hlast hclean huser).bind versions_compatible (fun h found s hs => ?_)
          fun _ _ _ _ _ ha => by cases ha
        obtain ⟨hclean, huser, hfound⟩ := hs
        split
        · exact meets_raise_any _
        · rename_i user hactive
          obtain ⟨huserEq, -⟩ := Option.filter_eq_some_iff.mp hactive
          split_ifs
          · exact meets_raise_any _
          · obtain ⟨rc, hrc, -⟩ := Option.map_eq_some_iff.mp huser
            exact meets_rotate hr hclean ⟨rc, hrc⟩ huser ((hfound found rfl).1 user huserEq)

/-! ### Logins -/

omit [DecidableEq ι] in
/-- A statement of a login, which has nothing to do at its commit. -/
lemma allowed_login {J : Database ι → Prop} {r : Request} (hr : ∀ s s' : Database ι, Done s s' r)
    {q : Sql accounts} (hq : ∀ known user m, q ≠ .update (.flush known user) m) : Allowed J r q :=
  ⟨not_flush hq, fun _ s s' _ => hr s s'⟩

omit [DecidableEq ι] in
lemma allowed_issueTokens {J : Database ι → Prop} {r : Request} (hr : ∀ s s' : Database ι, Done s s' r)
    {known user : User} {familyId : Option ℕ} (hsame : user.tokenVersion = known.tokenVersion) :
    (AuthService.issueTokens cfg m known user familyId).Issues (Allowed J r) := by
  refine Prog.issues_bind ⟨allowed_login hr (by simp), fun _ => trivial⟩ fun now => ?_
  refine Prog.issues_bind (allowed_flush hsame) fun _ => ?_
  exact ⟨allowed_login hr (by simp), fun _ => trivial⟩

omit [DecidableEq ι] in
lemma allowed_respond {J : Database ι → Prop} {r : Request} (hr : ∀ s s' : Database ι, Done s s' r)
    {response : AuthResponse} : (AuthService.respond m response).Issues (Allowed J r) :=
  issues_respond (allowed_login hr (by simp)) (allowed_login hr (by simp))

/-- A flush returns whatever it is answered. -/
lemma returns_flush (known user : User) : (flush m known user).Returns fun _ => True := by
  unfold flush
  split_ifs
  · trivial
  · intro r
    cases r <;> trivial

/-- Tokens for a user: the access token carries its version. -/
lemma returns_issueTokens {known user : User} {familyId : Option ℕ} :
    (AuthService.issueTokens cfg m known user familyId).Returns
      fun x => x.accessToken = createAccessToken m user := by
  intro now
  show Prog.Returns _ ((flush m known user).bind _)
  exact Prog.returns_bind (returns_flush known user) fun _ _ _ => rfl

lemma returns_respond {P : AuthResponse → Prop} {response : AuthResponse} (h : P response) :
    (AuthService.respond m response).Returns P := fun _ _ => h

lemma meets_loginUser (hr : ∀ s s' : Database ι, Done s s' (reqs i)) {password passwordHash : String}
    {user : User} (hseen : Reached m user.tokenVersion s) :
    Meets (versions reqs) (postgres ι) i (fun _ r s => ∀ x, r = .ok x → Carries x s)
      (AuthService.loginUser cfg password m user passwordHash) h s := by
  have hlast : Lasting (Reached m user.tokenVersion : Database ι → Prop) := reached_lasting _ _
  have hp : (AuthService.loginUser cfg password m user passwordHash).Issues
      (Allowed (Reached m user.tokenVersion : Database ι → Prop) (reqs i)) := by
    refine Prog.issues_bind ⟨allowed_login hr (by simp), fun _ => trivial⟩ fun now => ?_
    split_ifs
    · trivial
    · refine Prog.issues_bind (allowed_flush rfl) fun _ => ?_
      exact ⟨allowed_login hr (by simp), fun _ => trivial⟩
    · trivial
    · trivial
    · exact Prog.issues_bind (allowed_issueTokens hr rfl) fun _ => allowed_respond hr
  have hret : (AuthService.loginUser cfg password m user passwordHash).Returns
      fun x => x.accessToken = ⟨m, user.tokenVersion, none⟩ := by
    intro now
    show Prog.Returns _ (ite _ _ _)
    split_ifs
    · trivial
    · exact Prog.returns_bind (returns_flush _ _) fun _ _ _ => trivial
    · trivial
    · trivial
    · exact Prog.returns_bind returns_issueTokens fun _ hx => returns_respond hx
  refine ((meets_lasting hlast hp hseen).returns hret).mono fun h r s hs x hx => ?_
  rw [Carries, hs.2 x hx]
  exact hs.1

lemma meets_login (hr : ∀ s s' : Database ι, Done s s' (reqs i)) {email password : String}
    (hclean : Clean i s) :
    Meets (versions reqs) (postgres ι) i (fun _ r s => ∀ x, r = .ok x → Carries x s)
      (AuthService.login cfg email password) h s := by
  refine (meets_read (q := .scan (.activeByEmail email)) lasting_true trivial hclean trivial).bind
    versions_compatible ?_ fun _ _ _ _ _ ha => by cases ha
  rintro h rows s ⟨-, -, s₁, hclean₁, hrows, hforward⟩
  obtain rfl := Except.ok.inj hrows
  split
  · exact meets_raise_any _
  · rename_i userId user hhead
    split
    · exact meets_raise_any _
    · refine meets_loginUser hr (reached_lasting _ _ _ _ hforward ⟨user, ?_, le_rfl⟩)
      have hmem := Db.mem_rows.mp (List.mem_of_mem_head? hhead)
      exact (hclean₁.view _ _).symm.trans hmem.1

omit [DecidableEq ι] in
lemma allowed_verifyLoaded {J : Database ι → Prop} {r : Request}
    (hr : ∀ s s' : Database ι, Done s s' r) {user : User} {code : String} {recovered : Bool} :
    (MfaService.verifyLoaded cfg m user code recovered).Issues (Allowed J r) := by
  have hcommit : ∀ p : Tx User, p.Issues (Allowed J r) →
      (Txn.Tx.commit.bind fun _ => p : Tx User).Issues (Allowed J r) :=
    fun p hp => ⟨allowed_login hr (by simp), fun _ => hp⟩
  refine Prog.issues_bind ⟨allowed_login hr (by simp), fun _ => trivial⟩ fun now => ?_
  split_ifs
  · trivial
  · exact Prog.issues_bind (allowed_flush rfl) fun _ => hcommit _ trivial
  · exact Prog.issues_bind (allowed_flush rfl) fun _ => hcommit _ trivial

lemma returns_verifyLoaded {user : User} {code : String} {recovered : Bool} :
    (MfaService.verifyLoaded cfg m user code recovered).Returns
      fun verified => verified.tokenVersion = user.tokenVersion := by
  intro now
  show Prog.Returns _ (ite _ _ _)
  split_ifs
  · trivial
  · exact Prog.returns_bind (returns_flush _ _) fun _ _ _ => trivial
  · exact Prog.returns_bind (returns_flush _ _) fun _ _ _ => rfl

lemma meets_verifyMfa (hr : ∀ s s' : Database ι, Done s s' (reqs i)) {challenge : AccessToken}
    {code : String} {recovered : Bool} (hclean : Clean i s) :
    Meets (versions reqs) (postgres ι) i (fun _ r s => ∀ x, r = .ok x → Carries x s)
      ((MfaService.verifyChallenge cfg challenge code recovered).bind fun user =>
        AuthService.sessionForUser cfg challenge.sub user) h s := by
  have hverify : Meets (versions reqs) (postgres ι) i
      (fun _ r s => ∀ user, r = .ok user → Reached challenge.sub user.tokenVersion s)
      (MfaService.verifyChallenge cfg challenge code recovered) h s := by
    unfold MfaService.verifyChallenge
    split_ifs
    · exact meets_raise_any _
    · exact meets_raise_any _
    · refine (meets_getUser lasting_true hclean trivial).bind versions_compatible
        (fun h found s hs => ?_) fun _ _ _ _ _ ha => by cases ha
      split
      · exact meets_raise_any _
      · rename_i user hactive
        obtain ⟨huserEq, -⟩ := Option.filter_eq_some_iff.mp hactive
        have hseen := (hs.2.2 found rfl).1 user huserEq
        have hlast : Lasting (Reached challenge.sub user.tokenVersion : Database ι → Prop) :=
          reached_lasting _ _
        refine ((meets_lasting hlast (allowed_verifyLoaded hr) hseen).returns returns_verifyLoaded).mono
          fun h r s hs verified hverified => ?_
        rw [hs.2 verified hverified]
        exact hs.1
  refine hverify.bind versions_compatible (fun h user s hseen => ?_) fun _ _ _ _ _ ha => by cases ha
  have hlast : Lasting (Reached challenge.sub user.tokenVersion : Database ι → Prop) :=
    reached_lasting _ _
  have hp : (AuthService.sessionForUser cfg challenge.sub user).Issues
      (Allowed (Reached challenge.sub user.tokenVersion : Database ι → Prop) (reqs i)) :=
    Prog.issues_bind (allowed_issueTokens hr rfl) fun _ => allowed_respond hr
  have hret : (AuthService.sessionForUser cfg challenge.sub user).Returns
      fun x => x.accessToken = createAccessToken challenge.sub user :=
    Prog.returns_bind returns_issueTokens fun _ hx => returns_respond hx
  refine ((meets_lasting hlast hp (hseen user rfl)).returns hret).mono fun h r s hs x hx => ?_
  rw [Carries, hs.2 x hx]
  exact hs.1

/-! ### Every request -/

lemma meets_answered {p : Tx AuthResponse}
    (hp : Meets (versions reqs) (postgres ι) i (fun _ r s => ∀ x, r = .ok x → Carries x s) p h s) :
    Meets (versions reqs) (postgres ι) i Issued (answered p) h s := by
  refine hp.bind versions_compatible (fun h x s hx => ?_) fun _ _ _ _ x hx => by cases hx
  intro _ s' _ hrely _ y hy
  obtain rfl := Option.some.inj (Except.ok.inj hy)
  exact reached_lasting _ _ _ _ hrely.2 (hx x rfl)

/-- **Every request** keeps the contract. -/
theorem meets_request (hclean : Clean i s) :
    Meets (versions reqs) (postgres ι) i Issued ((reqs i).run cfg) h s := by
  have hbody : Meets (versions reqs) (postgres ι) i Issued ((reqs i).body cfg) h s := by
    cases hr : reqs i with
    | login email password =>
        exact meets_answered (meets_login (fun _ _ => by rw [hr]; trivial) hclean)
    | verifyMfa challenge code recovered =>
        exact meets_answered (meets_verifyMfa (fun _ _ => by rw [hr]; trivial) hclean)
    | refresh rawToken => exact meets_answered (meets_refresh hr hclean)
    | logout token =>
        have hdone : ∀ s s' : Database ι, VersionLt token.sub s s' → Done s s' (reqs i) := by
          rw [hr]
          exact fun _ _ hlt => hlt
        exact meets_authenticated (p := AuthService.logout) fun user _ _ => meets_logout hdone user
    | changePassword token current newPassword =>
        have hdone : ∀ s s' : Database ι, VersionLt token.sub s s' → Done s s' (reqs i) := by
          rw [hr]
          exact fun _ _ hlt => hlt
        exact meets_authenticated (p := fun userId user =>
            AuthService.changePassword cfg userId user current newPassword) fun user _ _ =>
          meets_changePassword hdone user current newPassword
    | resetPassword rawToken newPassword => exact meets_none (meets_resetPassword hr hclean)
    | activateMfa token code =>
        have hdone : ∀ s s' : Database ι, VersionLt token.sub s s' → Done s s' (reqs i) := by
          rw [hr]
          exact fun _ _ hlt => hlt
        exact meets_authenticated (p := fun userId user => MfaService.activate cfg userId user code)
          fun user _ _ => meets_activate hdone user code
    | disableMfa token code recovered =>
        have hdone : ∀ s s' : Database ι, VersionLt token.sub s s' → Done s s' (reqs i) := by
          rw [hr]
          exact fun _ _ hlt => hlt
        exact meets_authenticated (p := fun userId user =>
            MfaService.disable cfg userId user code recovered) fun user _ _ =>
          meets_disable hdone user code recovered
  refine hbody.withSession versions_compatible fun h r s tr s' hQ _ hr hI ht => ?_
  obtain ⟨h₁, h₂⟩ := versions_step reqs h (q := .rollback) hI
    (fun _ _ _ hq => by cases hq) (fun hc => by cases hc) ht
  refine ⟨h₁, h₂, fun s'' hr'' x hx => ?_⟩
  have hforward : Forward s s'' := hr.2.trans (h₂.1.trans hr''.2)
  exact reached_lasting _ _ _ _ hforward (hQ x hx)

end Requests

/-! ### Revoked access tokens -/

section Main

variable {ι : Type} [DecidableEq ι] {s : Database ι} {reqs : ι → Request} {cfg : Security}
  {c c₁ : Sessions ι (Option AuthResponse)} {j : ι}

/-- The session that client `i` has been answered with. -/
def sessionOf (c : Sessions ι (Option AuthResponse)) (i : ι) : Option AuthResponse :=
  match c.procs i with
  | some (.ret x) => x
  | _ => none

omit [DecidableEq ι] in
lemma procs_of_sessionOf {i : ι} {x : AuthResponse} (h : sessionOf c i = some x) :
    c.procs i = some (.ret (some x)) := by
  unfold sessionOf at h
  split at h
  · rename_i heq
    rw [heq, h]
  · cases h

/-- An access token that a client was answered by now, or that was issued before the run. -/
def InUse (a : AccessToken) (s : Database ι) (c : Sessions ι (Option AuthResponse)) : Prop :=
  Reached a.sub a.tv s ∨ ∃ i x, sessionOf c i = some x ∧ x.accessToken = a

/-- The request guard does not let the access token pass. -/
def Rejected (a : AccessToken) (s : Database ι) : Prop :=
  ∀ j, Clean j s → ∃ e, (alone j (getCurrentUser a) s).1 = .error e

/-- A token of an older version is rejected. -/
lemma rejected_of_version {a : AccessToken} {u : User} (hu : s.committed .users a.sub = some u)
    (hlt : a.tv < u.tokenVersion) : Rejected a s := by
  intro j hclean
  have hcheck : ∃ e, checkUser a (some u) = .raise e := by
    unfold checkUser
    dsimp only
    split_ifs with _ _ hne
    · exact ⟨_, rfl⟩
    · exact ⟨_, rfl⟩
    · exact ⟨_, rfl⟩
    · exact absurd hlt (by omega)
  obtain ⟨e, he⟩ := hcheck
  have hload : alone j (getUser a.sub) s = (.ok (some u), s) := by
    show (Except.ok (s.view j .users a.sub), s) = _
    rw [hclean.view, hu]
  unfold getCurrentUser
  split_ifs
  · exact ⟨_, rfl⟩
  · refine ⟨e, ?_⟩
    rw [Prog.bind_eq, alone_bind, hload]
    dsimp only
    rw [he]
    rfl

/-- What a run has kept: the versions, and what its clients were answered. -/
lemma versions_of_run (hs : s.Settled)
    (h : Pool.Reach (postgres ι) (.start (fun i => (reqs i).run cfg) s) c)
    (hC : ∀ ev ∈ c.trace, Timely ev) :
    (∀ ev ∈ c.trace, Forward ev.before ev.after
        ∧ (ev.stmt = .commit → Done ev.before ev.after (reqs ev.pid)))
      ∧ ∀ i x, sessionOf c i = some x →
        Reached x.accessToken.sub x.accessToken.tv c.store := by
  have hclean : ∀ i, Clean i s := fun i t n r hd => by
    rw [hs] at hd
    cases hd
  have hC' : Along (versions reqs).assume c.trace := along_iff_forall_mem.mpr hC
  have hmeets : ∀ i, Meets (versions reqs) (postgres ι) i Issued ((reqs i).run cfg) [] s :=
    fun i => meets_request (hclean i)
  obtain ⟨-, hguar, -⟩ := h.meets versions_compatible (versioned_of_settled hs) hmeets hC'
  refine ⟨along_iff_forall_mem.mp hguar, fun i x hi => ?_⟩
  exact h.post versions_compatible (versioned_of_settled hs) hmeets hC' (procs_of_sessionOf hi) rfl x rfl

/-- **Revocation of access tokens**: when every write of a version meets the version it was loaded
with, no event lowers a version, every commit of a revoking request raises the version of its user,
and an access token in use before such a commit is rejected from then on. -/
theorem token_version_increases (hs : s.Settled)
    (h : Pool.Reach (postgres ι) (.start (fun i => (reqs i).run cfg) s) c)
    (hC : ∀ ev ∈ c.trace, Timely ev) :
    (∀ ev ∈ c.trace, Forward ev.before ev.after
        ∧ (ev.stmt = .commit → Done ev.before ev.after (reqs ev.pid)))
      ∧ ∀ (c₁ : Sessions ι (Option AuthResponse)) (a : AccessToken),
        Pool.Reach (postgres ι) (.start (fun i => (reqs i).run cfg) s) c₁ →
        Pool.Reach (postgres ι) c₁ c → InUse a s c₁ →
        (∃ ev ∈ Pool.since c₁ c, VersionLt a.sub ev.before ev.after) → Rejected a c.store := by
  obtain ⟨hevents, -⟩ := versions_of_run hs h hC
  refine ⟨hevents, fun c₁ a h₁ h₂ hused hraised => ?_⟩
  have hC₁ : ∀ ev ∈ c₁.trace, Timely ev := fun ev hev => hC ev (h₂.trace_prefix.subset hev)
  have hkeep : ∀ tv, ∀ ev ∈ c.trace, Reached a.sub tv ev.before → Reached a.sub tv ev.after :=
    fun tv ev hev => reached_lasting a.sub tv _ _ (hevents ev hev).1
  obtain ⟨hevents₁, hanswered⟩ := versions_of_run hs h₁ hC₁
  have hreached : Reached a.sub a.tv c₁.store := by
    rcases hused with hstart | ⟨i, x, hi, rfl⟩
    · refine (h₁.held_since (c := .start _ s) hstart fun ev hev => ?_).1
      exact hkeep a.tv ev (h₂.trace_prefix.subset (Pool.mem_of_mem_since hev))
    · exact hanswered i x hi
  obtain ⟨ev, hev, u, u', hu, hu', hlt⟩ := hraised
  obtain ⟨u₀, hu₀, hle⟩ := (h₂.held_since hreached fun ev hev =>
    hkeep a.tv ev (Pool.mem_of_mem_since hev)).2 ev hev
  obtain rfl := Option.some.inj (hu.symm.trans hu₀)
  obtain ⟨u'', hu'', hle'⟩ := h.stays (hkeep (a.tv + 1)) (Pool.mem_of_mem_since hev)
    ⟨u', hu', by omega⟩
  exact rejected_of_version hu'' hle'

/-! ### Small runs -/

/-- The committed version of a user. -/
def version (m : ℕ) (s : Database ι) : Option ℕ := (s.committed .users m).map User.tokenVersion

omit [DecidableEq ι] in
lemma versionLt_of_version {s' : Database ι} {m v v' : ℕ} (h : version m s = some v)
    (h' : version m s' = some v') (hlt : v < v') : VersionLt m s s' := by
  obtain ⟨u, hu, rfl⟩ := Option.map_eq_some_iff.mp h
  obtain ⟨u', hu', rfl⟩ := Option.map_eq_some_iff.mp h'
  exact ⟨u, u', hu, hu', hlt⟩

omit [DecidableEq ι] in
lemma version_ne_of_versionLt {s' : Database ι} {m : ℕ} (h : VersionLt m s s') :
    version m s ≠ version m s' := by
  obtain ⟨u, u', hu, hu', hlt⟩ := h
  rw [version, version, hu, hu']
  exact fun heq => Nat.ne_of_lt hlt (Option.some.inj heq)

/-- Passwords in the clear, and no second factor. -/
def plain : Security where
  refreshTokenExpireDays := 30
  mfaEnabled := false
  mfaMaxAttempts := 5
  hashPassword := id
  verifyPassword := fun password passwordHash => password = passwordHash
  decryptMfaSecret := fun _ => none
  verifyCode := fun _ _ => false

/-- Two users, the first one with a password. -/
def oneLogin : Database ι :=
  twoUsers { someUser .member true with passwordHash := some "p" }
    { someUser .member true with email := "d@e.f" }

/-- Two logouts of user 0, and a login. -/
def twoLogouts : Fin 3 → Request
  | 0 => .logout ⟨0, 0, none⟩
  | 1 => .logout ⟨0, 0, none⟩
  | 2 => .login "a@b.c" "p"

/-- A logout rejects the access tokens of before. -/
theorem token_version_increases_logout :
    ∃ c : Sessions (Fin 3) (Option AuthResponse),
      Pool.Reach (postgres (Fin 3)) (.start (fun i => (twoLogouts i).run plain) oneLogin) c
        ∧ version 0 c.store = some 1 ∧ Rejected ⟨0, 0, none⟩ c.store := by
  have hrun : (((Pool.start (fun i => (twoLogouts i).run plain) oneLogin).run (postgres (Fin 3))
      (List.replicate 6 (.step 0))).any fun c =>
        decide (version 0 c.store = some 1) && decide (∀ ev ∈ c.trace, Timely ev)
          && c.trace.any fun ev => decide (version 0 ev.before = some 0)
            && decide (version 0 ev.after = some 1)) = true := by
    decide +kernel
  obtain ⟨c, hc, hP⟩ := Pool.exists_of_run hrun
  simp only [Bool.and_eq_true, decide_eq_true_eq, List.any_eq_true] at hP
  obtain ⟨⟨hversion, htimely⟩, ev, hev, hbefore, hafter⟩ := hP
  have hs : (oneLogin : Database (Fin 3)).Settled := fun _ _ => rfl
  have hstart : InUse ⟨0, 0, none⟩ (oneLogin : Database (Fin 3))
      (.start (fun i => (twoLogouts i).run plain) oneLogin) := Or.inl ⟨_, rfl, le_rfl⟩
  refine ⟨c, hc, hversion, ?_⟩
  exact (token_version_increases hs hc htimely).2 _ _ .refl hc hstart
    ⟨ev, by simpa [Pool.since, Pool.start] using hev, versionLt_of_version hbefore hafter (by decide)⟩

/-- Two logouts load version 0, and one commits.  Then a login is answered with a token of version 1;
the other logout commits, the version stays 1, and the token is accepted. -/
theorem lost_bump :
    ∃ c₁ c : Sessions (Fin 3) (Option AuthResponse),
      Pool.Reach (postgres (Fin 3)) (.start (fun i => (twoLogouts i).run plain) oneLogin) c₁
        ∧ Pool.Reach (postgres (Fin 3)) c₁ c ∧ InUse ⟨0, 1, none⟩ oneLogin c₁
        ∧ (∃ ev ∈ Pool.since c₁ c, ev.pid = 1 ∧ ev.stmt = .commit ∧ ¬ VersionLt 0 ev.before ev.after)
        ∧ (alone 0 (getCurrentUser ⟨0, 1, none⟩) c.store).1.toBool = true := by
  have hrun : (((Pool.start (fun i => (twoLogouts i).run plain) oneLogin).run (postgres (Fin 3))
      ([.step 0, .step 1] ++ List.replicate 5 (.step 0) ++ List.replicate 8 (.step 2))).any fun c₁ =>
        decide ((sessionOf c₁ 2).map AuthResponse.accessToken = some ⟨0, 1, none⟩)
          && (c₁.run (postgres (Fin 3)) (List.replicate 6 (.step 1))).any fun c =>
            ((Pool.since c₁ c).any fun ev => decide (ev.pid = 1) && decide (ev.stmt = .commit)
                && decide (version 0 ev.before = version 0 ev.after))
              && (alone 0 (getCurrentUser ⟨0, 1, none⟩) c.store).1.toBool) = true := by
    decide +kernel
  obtain ⟨c₁, hc₁, hP⟩ := Pool.exists_of_run hrun
  obtain ⟨hanswered, hP⟩ := Bool.and_eq_true_iff.mp hP
  obtain ⟨c, hc, hP⟩ := Pool.exists_of_run hP
  simp only [Bool.and_eq_true, decide_eq_true_eq, List.any_eq_true] at hP
  obtain ⟨⟨ev, hev, ⟨hpid, hstmt⟩, hsame⟩, haccepted⟩ := hP
  obtain ⟨x, hx, haccess⟩ := Option.map_eq_some_iff.mp (of_decide_eq_true hanswered)
  exact ⟨c₁, c, hc₁, hc, Or.inr ⟨2, x, hx, haccess⟩,
    ⟨ev, hev, hpid, hstmt, fun hlt => version_ne_of_versionLt hlt hsame⟩, haccepted⟩

end Main

end Accounts
