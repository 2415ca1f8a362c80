import AgencyOS.Members.Requests

/-!
A ceiling over the roles of an organization, and the operations that stay under it.

The users of the organization whose role was at a level or above it at the start are shielded: they
keep role and status.  All others stay below the level, and so do the pending invites.

* `Ceiling`: an organization, a level, and the users who are shielded;
* `UserHolds`, `InviteHolds`, `charter`: what holds of the rows; `accountsCharter`, `securityCharter`,
  `teamCharter` say it of a part of the tables;
* `within_ofAccounts`, `within_ofSecurity`, `within_ofTeam`: a program within the charter of a part is
  within the whole one;
* `Plain`, `plain_body`: the requests of account sessions change neither role nor status.
-/

namespace Members

open Txn Accounts

/-! ### The charter -/

/-- An organization, a level, and the users who are at the level or above with role and status; ids from
`first` on are new. -/
structure Ceiling where
  organizationId : ℕ
  level : ℕ
  first : ℕ
  shield : ℕ → Option (UserRole × Bool)
  organization_lt : organizationId < first
  shield_lt : ∀ n standing, shield n = some standing → n < first
  level_le : ∀ n standing, shield n = some standing → level ≤ standing.1.level

namespace Ceiling

variable (w : Ceiling)

/-- A shielded user keeps role and status, and a user of the organization who is not is below the level. -/
structure UserHolds (n : ℕ) (r : User) : Prop where
  keeps : ∀ standing, w.shield n = some standing →
    r.organizationId = w.organizationId ∧ (r.role, r.isActive) = standing
  below : w.shield n = none → r.organizationId = w.organizationId → r.role.level < w.level

/-- A pending invite of the organization is below the level. -/
def InviteHolds (v : Team.TeamInvite) : Prop :=
  v.organizationId = w.organizationId → v.status = .pending → v.role.level < w.level

def accountsCharter : Charter accounts ℕ where
  holds
    | .users => w.UserHolds
    | _ => fun _ _ => True
  fixed
    | .users => User.organizationId
    | _ => fun _ => 0
  first := w.first

def securityCharter : Charter accountSecurity ℕ where
  holds
    | .users => w.UserHolds
    | _ => fun _ _ => True
  fixed
    | .users => User.organizationId
    | _ => fun _ => 0
  first := w.first

def teamCharter : Charter Team.team ℕ where
  holds
    | .users => w.UserHolds
    | .teamInvites => fun _ => w.InviteHolds
  fixed
    | .users => User.organizationId
    | .teamInvites => fun _ => 0
  first := w.first

def charter : Charter members ℕ where
  holds
    | .inl .users => w.UserHolds
    | .inr .teamInvites => fun _ => w.InviteHolds
    | _ => fun _ _ => True
  fixed
    | .inl .users => User.organizationId
    | _ => fun _ => 0
  first := w.first

variable {w} {α : Type}

/-! ### Programs on a part of the tables -/

/-- A fact about a row of an account table, of all tables. -/
def whole : Accounts.Table × ℕ × ℕ → members.Table × ℕ × ℕ := Prod.map Sum.inl id

/-- A program on the account tables is one on them with the further statements. -/
lemma within_embed {Q : Set (Accounts.Table × ℕ × ℕ) → α → Prop} {p : Accounts.Tx α}
    {known : Set (Accounts.Table × ℕ × ℕ)} (hp : p.Within w.accountsCharter.terms Q known) :
    (embed p).Within w.securityCharter.terms Q known := by
  induction p generalizing known with
  | ret a => exact hp
  | raise e => trivial
  | call q k ih =>
      cases q with
      | select t n =>
          cases t with
          | users => exact ⟨trivial, fun a ha => ih a (hp.2 a ha)⟩
          | refreshTokens => exact ⟨trivial, fun a ha => ih a (hp.2 a fun _ _ => trivial)⟩
          | authTokens => exact ⟨trivial, fun a ha => ih a (hp.2 a fun _ _ => trivial)⟩
      | scan q => exact ⟨trivial, fun a ha => ih a (hp.2 a ha)⟩
      | update u n => exact ⟨hp.1, fun a ha => ih a (hp.2 a ha)⟩
      | insert x => exact ⟨hp.1, fun a ha => ih a (hp.2 a ha)⟩
      | now => exact ⟨trivial, fun a ha => ih a (hp.2 a ha)⟩
      | commit => exact ⟨trivial, fun a ha => ih a (hp.2 a ha)⟩
      | rollback => exact ⟨trivial, fun a ha => ih a (hp.2 a ha)⟩

/-- A program on the account tables and its statements is one on all tables. -/
lemma within_ofSecurity {Q : Set (Accounts.Table × ℕ × ℕ) → α → Prop} {p : SecurityTx α}
    {known : Set (members.Table × ℕ × ℕ)}
    (hQ : ∀ known known' a, known ⊆ known' → Q known a → Q known' a)
    (hp : p.Within w.securityCharter.terms Q (Set.preimage whole known)) :
    (ofSecurity p).Within w.charter.indexedTerms (fun known a => Q (Set.preimage whole known) a)
      known := by
  refine Prog.Within.raising ?_
  refine Prog.Within.translate w.charter.terms whole ?_ ?_ ?_ hQ hp
  · intro q known' hq
    cases q with
    | update u n =>
        intro r hr hknown hguard
        cases u with
        | account u => cases u <;> exact hq r hr hknown hguard
        | invalidate => exact hq r hr hknown hguard
    | insert x => cases x <;> exact hq
    | select | scan | now | commit | rollback => trivial
  · intro q a ha
    cases q with
    | select t n => cases t <;> exact ha
    | scan q =>
        cases q with
        | account q => cases q <;> exact ha
        | unused => exact ha
    | insert x => exact ha
    | update | now | commit | rollback => trivial
  · intro q a x hx
    cases q with
    | select t n =>
        obtain ⟨r, hr, rfl⟩ := hx
        cases t <;> exact ⟨r, hr, rfl⟩
    | scan q =>
        obtain ⟨y, hy, rfl⟩ := hx
        cases q with
        | account q => cases q <;> exact ⟨y, hy, rfl⟩
        | unused => exact ⟨y, hy, rfl⟩
    | update | insert | now | commit | rollback => exact hx.elim

lemma within_ofAccounts {Q : Set (Accounts.Table × ℕ × ℕ) → α → Prop} {p : Accounts.Tx α}
    {known : Set (members.Table × ℕ × ℕ)}
    (hQ : ∀ known known' a, known ⊆ known' → Q known a → Q known' a)
    (hp : p.Within w.accountsCharter.terms Q (Set.preimage whole known)) :
    (ofAccounts p).Within w.charter.indexedTerms (fun known a => Q (Set.preimage whole known) a)
      known :=
  within_ofSecurity hQ (within_embed hp)

def teamTable : Team.Table → members.Table
  | .users => users
  | .teamInvites => teamInvites

/-- A fact about a row of a team table, of all tables. -/
def ofTeamTable : Team.Table × ℕ × ℕ → members.Table × ℕ × ℕ := Prod.map teamTable id

/-- A program on the team tables is one on all tables. -/
lemma within_ofTeam {P : α → Prop} {p : Team.TeamTx α} {known : Set (members.Table × ℕ × ℕ)}
    (hp : p.Within w.teamCharter.indexedTerms (fun _ => P) ∅) :
    (ofTeam p).Within w.charter.indexedTerms (fun _ => P) known := by
  refine Prog.Within.mapError ?_
  refine Prog.Within.translate w.charter.indexedTerms ofTeamTable ?_ ?_ ?_
    (fun _ _ _ _ h => h) (hp.mono (Set.empty_subset _) fun _ _ _ _ h => h)
  · intro q known' hq
    cases q with
    | select t n => cases t <;> trivial
    | scan q => cases q <;> trivial
    | update u n => exact fun r hr hknown hguard => hq r hr hknown hguard
    | insert x => cases x <;> exact hq
    | now | commit | rollback => trivial
  · intro q a ha
    cases q with
    | select t n => cases t <;> cases a <;> exact ha
    | scan q => cases q <;> cases a <;> exact ha
    | insert x => cases x <;> cases a <;> exact ha
    | update u n => cases a <;> trivial
    | now | commit | rollback => cases a <;> trivial
  · intro q a x hx
    cases q with
    | select t n =>
        cases t <;> cases a with
        | error v => exact hx.elim
        | ok a =>
            obtain ⟨r, hr, rfl⟩ := hx
            exact ⟨r, hr, rfl⟩
    | scan q =>
        cases q <;> cases a with
        | error v => exact hx.elim
        | ok a =>
            obtain ⟨y, hy, rfl⟩ := hx
            exact ⟨y, hy, rfl⟩
    | insert x => cases x <;> cases a <;> exact hx.elim
    | update u n => cases a <;> exact hx.elim
    | now | commit | rollback => cases a <;> exact hx.elim

/-! ### The requests of account sessions -/

/-- A statement that changes neither the organization nor the standing of a user. -/
def Plain : Sql accounts → Prop
  | .update (.flush known new) _ => new.organizationId = known.organizationId ∧
      new.role = known.role ∧ new.isActive = known.isActive
  | _ => True

lemma UserHolds.congr {n : ℕ} {r r' : User} (horganization : r'.organizationId = r.organizationId)
    (hrole : r'.role = r.role) (hactive : r'.isActive = r.isActive) (h : w.UserHolds n r) :
    w.UserHolds n r' where
  keeps := by
    rw [horganization, hrole, hactive]
    exact h.keeps
  below := by
    rw [horganization, hrole]
    exact h.below

lemma grants_of_plain {known : Set (Accounts.Table × ℕ × ℕ)} {q : Sql accounts} (hq : Plain q) :
    w.accountsCharter.Grants known q := by
  cases q with
  | update u n =>
      intro r hr hknown hguard
      cases u with
      | flush loaded new =>
          obtain ⟨horganization, hrole, hactive⟩ := hq
          have hsame : ((User.flush loaded new).set r).organizationId = r.organizationId ∧
              ((User.flush loaded new).set r).role = r.role ∧
              ((User.flush loaded new).set r).isActive = r.isActive := by
            simp [User.flush, horganization, hrole, hactive]
          refine ⟨UserHolds.congr hsame.1 hsame.2.1 hsame.2.2 hr, hsame.1⟩
      | markReplaced | revoke | revokeOutstanding | claim => exact ⟨trivial, rfl⟩
  | insert x => exact fun _ _ => trivial
  | select | scan | now | commit | rollback => trivial

lemma plain_ask {q : Sql accounts} {f : (sql accounts).Resp q → Accounts.Tx α} (hq : Plain q)
    (hf : ∀ a, (f a).Issues Plain) :
    ((Prog.call (S := sql accounts) q .ret).bind f : Accounts.Tx α).Issues Plain := ⟨hq, hf⟩

lemma plain_getUser (userId : ℕ) : (getUser userId).Issues Plain := ⟨trivial, fun _ => trivial⟩

lemma plain_flush {userId : ℕ} {known user : User} (horganization : user.organizationId = known.organizationId)
    (hrole : user.role = known.role) (hactive : user.isActive = known.isActive) :
    (flush userId known user).Issues Plain :=
  issues_flush fun _ => ⟨horganization, hrole, hactive⟩

lemma plain_checkUser (token : AccessToken) (user : Option User) :
    (checkUser token user).Issues Plain := by
  cases user with
  | none => trivial
  | some user =>
      unfold checkUser
      dsimp only
      split_ifs <;> trivial

lemma plain_getCurrentUser (token : AccessToken) : (getCurrentUser token).Issues Plain := by
  unfold getCurrentUser
  split_ifs
  · trivial
  · exact Prog.issues_bind (plain_getUser _) fun user => plain_checkUser token user

variable {cfg : Security}

lemma plain_issueTokens {userId : ℕ} {known user : User} {familyId : Option ℕ}
    (horganization : user.organizationId = known.organizationId) (hrole : user.role = known.role)
    (hactive : user.isActive = known.isActive) :
    (AuthService.issueTokens cfg userId known user familyId).Issues Plain := by
  refine plain_ask trivial fun now => ?_
  refine Prog.issues_bind (plain_flush horganization hrole hactive) fun _ => ?_
  exact ⟨trivial, fun _ => trivial⟩

lemma plain_respond {userId : ℕ} {response : AuthResponse} :
    (AuthService.respond userId response).Issues Plain := issues_respond trivial trivial

lemma plain_sessionForUser {userId : ℕ} {user : User} :
    (AuthService.sessionForUser cfg userId user).Issues Plain :=
  Prog.issues_bind (plain_issueTokens rfl rfl rfl) fun _ => plain_respond

lemma plain_login (email password : String) : (AuthService.login cfg email password).Issues Plain := by
  refine plain_ask trivial fun rows => ?_
  cases rows.head? with
  | none => trivial
  | some row =>
      obtain ⟨userId, user⟩ := row
      cases hhash : user.passwordHash with
      | none => simp only [hhash]; trivial
      | some passwordHash =>
          simp only [hhash]
          refine plain_ask trivial fun now => ?_
          split_ifs
          · trivial
          · refine Prog.issues_bind (plain_flush rfl rfl rfl) fun _ => ⟨trivial, fun _ => trivial⟩
          · trivial
          · trivial
          · exact Prog.issues_bind (plain_issueTokens rfl rfl rfl) fun _ => plain_respond

lemma plain_revokeReused {rawToken : ℕ} {record : RefreshToken} {now : Automation.Time}
    (user : Option User) :
    (AuthService.revokeReused rawToken record now user : Accounts.Tx α).Issues Plain := by
  refine Prog.issues_bind (issues_revokeFamily trivial fun _ => trivial) fun _ => ?_
  cases user with
  | none => exact ⟨trivial, fun _ => trivial⟩
  | some user =>
      exact Prog.issues_bind (plain_flush rfl rfl rfl) fun _ => ⟨trivial, fun _ => trivial⟩

lemma plain_onReuseDetected {rawToken : ℕ} {record : RefreshToken} {now : Automation.Time}
    (loaded : Option User) :
    (AuthService.onReuseDetected loaded rawToken record now : Accounts.Tx α).Issues Plain := by
  cases loaded with
  | some user => exact plain_revokeReused (some user)
  | none => exact Prog.issues_bind (plain_getUser _) fun user => plain_revokeReused user

lemma plain_rotate {rawToken : ℕ} {record : RefreshToken} {now : Automation.Time} {user : User} :
    (AuthService.rotate cfg rawToken record now user).Issues Plain := by
  refine Prog.issues_bind (plain_issueTokens rfl rfl rfl) fun response => ?_
  refine plain_ask trivial fun claimed => ?_
  dsimp only [Prog.ret_bind]
  split_ifs
  · exact plain_respond
  · exact Prog.issues_bind ⟨trivial, fun _ => trivial⟩ fun _ => plain_onReuseDetected _

lemma plain_refresh (rawToken : ℕ) : (AuthService.refresh cfg rawToken).Issues Plain := by
  refine plain_ask trivial fun now => plain_ask trivial fun record => ?_
  cases record with
  | none => trivial
  | some record =>
      dsimp only
      split_ifs
      · exact plain_onReuseDetected none
      · trivial
      · refine Prog.issues_bind (plain_getUser _) fun user => ?_
        cases Option.filter (fun u : User => u.isActive) user with
        | none => trivial
        | some user =>
            dsimp only
            split_ifs
            · trivial
            · exact plain_rotate

lemma plain_revokeSessions {userId : ℕ} {known user : User} {now : Automation.Time}
    (horganization : user.organizationId = known.organizationId) (hrole : user.role = known.role)
    (hactive : user.isActive = known.isActive) :
    (AuthService.revokeSessions userId known user now).Issues Plain := by
  refine Prog.issues_bind (plain_flush horganization hrole hactive) fun _ => ?_
  exact Prog.issues_bind (issues_revokeAllForUser trivial fun _ => trivial) fun _ => ⟨trivial, fun _ => trivial⟩

lemma plain_changePassword {userId : ℕ} {user : User} {current newPassword : String} :
    (AuthService.changePassword cfg userId user current newPassword).Issues Plain := by
  unfold AuthService.changePassword
  split_ifs
  · trivial
  · exact plain_ask trivial fun now => plain_revokeSessions rfl rfl rfl

lemma plain_resetPassword (rawToken : ℕ) (newPassword : String) :
    (AccountSecurityService.resetPassword cfg rawToken newPassword).Issues Plain := by
  refine plain_ask trivial fun now => plain_ask trivial fun record => ?_
  cases record with
  | none => trivial
  | some record =>
      dsimp only
      split_ifs
      · trivial
      · trivial
      · refine Prog.issues_bind (plain_getUser _) fun user => ?_
        cases Option.filter (fun u : User => u.isActive) user with
        | none => trivial
        | some user =>
            refine plain_ask trivial fun claimed => ?_
            cases claimed with
            | none => trivial
            | some _ => exact plain_revokeSessions rfl rfl rfl

lemma plain_activate {userId : ℕ} {user : User} {code : String} :
    (MfaService.activate cfg userId user code).Issues Plain := by
  unfold MfaService.activate
  split_ifs
  · trivial
  · trivial
  · cases MfaService.pendingSecret cfg user with
    | none => trivial
    | some secret =>
        dsimp only
        split_ifs
        · trivial
        · refine Prog.issues_bind (plain_flush rfl rfl rfl) fun _ => plain_ask trivial fun now => ?_
          exact plain_revokeSessions rfl rfl rfl

lemma plain_disable {userId : ℕ} {user : User} {code : String} {recovered : Bool} :
    (MfaService.disable cfg userId user code recovered).Issues Plain := by
  unfold MfaService.disable
  split_ifs
  · trivial
  · trivial
  · trivial
  · refine Prog.issues_bind (plain_flush rfl rfl rfl) fun _ => plain_ask trivial fun now => ?_
    exact plain_revokeSessions rfl rfl rfl

lemma plain_verifyChallenge (challenge : AccessToken) (code : String) (recovered : Bool) :
    (MfaService.verifyChallenge cfg challenge code recovered).Issues Plain := by
  unfold MfaService.verifyChallenge
  split_ifs
  · trivial
  · trivial
  · refine Prog.issues_bind (plain_getUser _) fun user => ?_
    cases Option.filter (fun u : User => u.isActive && u.mfaEnabled) user with
    | none => trivial
    | some user =>
        refine plain_ask trivial fun now => ?_
        dsimp only
        split_ifs
        · trivial
        · exact Prog.issues_bind (plain_flush rfl rfl rfl) fun _ => ⟨trivial, fun _ => trivial⟩
        · exact Prog.issues_bind (plain_flush rfl rfl rfl) fun _ => ⟨trivial, fun _ => trivial⟩

lemma plain_authenticated {token : AccessToken} {p : ℕ → User → Accounts.Tx Unit}
    (hp : ∀ userId user, (p userId user).Issues Plain) : (authenticated token p).Issues Plain :=
  Prog.issues_bind (plain_getCurrentUser token) fun _ =>
    Prog.issues_bind (hp _ _) fun _ => trivial

/-- **No request of an account session changes a role or a status.** -/
theorem plain_body (r : Accounts.Request) : (r.body cfg).Issues Plain := by
  cases r with
  | login email password => exact Prog.issues_bind (plain_login email password) fun _ => trivial
  | verifyMfa challenge code recovered =>
      refine Prog.issues_bind (Prog.issues_bind (plain_verifyChallenge challenge code recovered) ?_)
        fun _ => trivial
      exact fun _ => plain_sessionForUser
  | refresh rawToken => exact Prog.issues_bind (plain_refresh rawToken) fun _ => trivial
  | logout token =>
      refine plain_authenticated fun userId user => ?_
      exact plain_ask trivial fun now => plain_revokeSessions rfl rfl rfl
  | changePassword token current newPassword =>
      show (authenticated token fun userId user =>
        AuthService.changePassword cfg userId user current newPassword).Issues Plain
      exact plain_authenticated fun _ _ => plain_changePassword
  | resetPassword rawToken newPassword =>
      exact Prog.issues_bind (plain_resetPassword rawToken newPassword) fun _ => trivial
  | activateMfa token code =>
      show (authenticated token fun userId user => MfaService.activate cfg userId user code).Issues Plain
      exact plain_authenticated fun _ _ => plain_activate
  | disableMfa token code recovered =>
      show (authenticated token fun userId user =>
        MfaService.disable cfg userId user code recovered).Issues Plain
      exact plain_authenticated fun _ _ => plain_disable

lemma plain_verifyEmail (rawToken : ℕ) : (AccountSecurityService.verifyEmail rawToken).Issues Plain := by
  refine plain_ask trivial fun now => plain_ask trivial fun record => ?_
  cases AccountSecurityService.usable record .emailVerification now with
  | none => trivial
  | some record =>
      refine Prog.issues_bind (plain_getUser _) fun user => ?_
      cases Option.filter (fun u : User => u.isActive) user with
      | none => trivial
      | some user =>
          refine plain_ask trivial fun claimed => ?_
          cases claimed with
          | none => trivial
          | some _ =>
              exact Prog.issues_bind (plain_flush rfl rfl rfl) fun _ => ⟨trivial, fun _ => trivial⟩

end Ceiling

end Members
