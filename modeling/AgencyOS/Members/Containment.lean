import AgencyOS.Members.Ceiling

/-!
Privilege containment.

A user who manages members gives no role that he could not manage himself, and touches nobody whom he
could not manage; so roles above those of the users who act come from nowhere, in any interleaving.

* `within_security`: the requests of account sessions, within the charter of a ceiling;
* `Fits`, `within_update`: a change of a user by a user under the ceiling;
* `within_createInvite`, `within_acceptInvite`: the invites;
* `within_body`: every request of a user who is not shielded, or may not manage members;
* `ceilingOf`, `privilege_contained`: **at or above a level an organization keeps the users that it has,
  with their roles and statuses, unless one of them manages members**.
-/

namespace Members

open Txn Accounts

namespace Ceiling

variable {w : Ceiling} {d : Deployment} {α : Type} {known known' : Set (Accounts.Table × ℕ × ℕ)}

/-! ### The requests of account sessions -/

lemma within_plain {p : Accounts.Tx α} (hp : p.Issues Plain) :
    p.Within w.accountsCharter.terms (fun _ _ => True) known :=
  Prog.within_of_issues (Prog.issues_mono hp fun _ hq => grants_of_plain hq)

/-- To issue account tokens touches no user. -/
lemma issues_issue {settings : TokenSettings} {userId : ℕ} {purpose : Purpose} {now : Automation.Time} :
    (AccountSecurityService.issue settings userId purpose now).Issues (w.securityCharter.Grants ∅) := by
  have hinvalidate : ∀ n, w.securityCharter.Grants ∅
      (.update (SecurityUpdate.invalidate userId purpose now) n) := fun _ _ _ _ _ => ⟨trivial, rfl⟩
  refine Prog.issues_bind ⟨trivial, fun rows => ?_⟩ fun _ => ?_
  · refine Prog.issues_tally (f := fun row => AuthTokenRepository.invalidateRow userId purpose now row.1)
      (fun row => ?_) rows
    exact ⟨hinvalidate row.1, fun _ => trivial⟩
  · refine Prog.issues_bind ⟨trivial, fun now => ⟨fun _ _ => trivial, fun _ => trivial⟩⟩ fun rawToken => ?_
    exact ⟨trivial, fun _ => trivial⟩

/-- The requests of account sessions are within every ceiling. -/
theorem within_security (r : SecurityRequest) {cfg : Security} {settings : TokenSettings} :
    (r.body cfg settings).Within w.securityCharter.terms (fun _ _ => True) known := by
  cases r with
  | account r => exact (within_embed (within_plain (plain_body r))).bind fun _ _ _ _ => trivial
  | verifyEmail rawToken =>
      exact (within_embed (within_plain (plain_verifyEmail rawToken))).bind fun _ _ _ _ => trivial
  | resendVerification userId allowed =>
      refine Prog.within_of_issues ?_
      unfold SecurityRequest.body AccountSecurityService.resendVerification
      dsimp only
      split_ifs
      · trivial
      · exact ⟨trivial, fun now => issues_issue⟩
  | resendVerificationByEmail email allowed =>
      refine Prog.within_of_issues ?_
      unfold SecurityRequest.body AccountSecurityService.resendVerificationByEmail
      dsimp only
      split_ifs
      · trivial
      · refine ⟨trivial, fun now => ⟨trivial, fun rows => ?_⟩⟩
        dsimp only [Prog.ret_bind]
        cases rows.head? with
        | none => trivial
        | some row =>
            obtain ⟨userId, user⟩ := row
            dsimp only
            split_ifs
            · trivial
            · exact issues_issue
  | requestPasswordReset email =>
      refine Prog.within_of_issues ⟨trivial, fun now => ⟨trivial, fun rows => ?_⟩⟩
      dsimp only [Prog.ret_bind]
      cases rows.head? with
      | none => trivial
      | some row =>
          obtain ⟨userId, user⟩ := row
          dsimp only
          split_ifs
          · trivial
          · exact issues_issue

/-! ### Changes of a user -/

/-- The user is known to belong to another organization. -/
def Foreign (w : Ceiling) (known : Set (Accounts.Table × ℕ × ℕ)) (n : ℕ) : Prop :=
  ∃ organizationId, organizationId ≠ w.organizationId ∧ (Table.users, n, organizationId) ∈ known

/-- What may be made of a user that the unit of work knows as `loaded`. -/
structure Fits (w : Ceiling) (known : Set (Accounts.Table × ℕ × ℕ)) (n : ℕ) (loaded new : User) :
    Prop where
  organization : new.organizationId = loaded.organizationId
  shielded : w.shield n ≠ none → new.role = loaded.role ∧ new.isActive = loaded.isActive
  role : new.role = loaded.role ∨ new.role.level < w.level ∨ w.Foreign known n

variable {n : ℕ} {loaded user : User}

lemma fits_refl (user : User) : w.Fits known n user user :=
  ⟨rfl, fun _ => ⟨rfl, rfl⟩, Or.inl rfl⟩

lemma Fits.mono (h : w.Fits known n loaded user) (hle : known ⊆ known') : w.Fits known' n loaded user where
  organization := h.organization
  shielded := h.shielded
  role := h.role.imp_right fun h => h.imp_right fun ⟨b, hb, hmem⟩ => ⟨b, hb, hle hmem⟩

/-- The flush of what fits stays under the ceiling. -/
lemma grants_flush (h : w.Fits known n loaded user) :
    w.accountsCharter.Grants known (.update (.flush loaded user) n) := by
  intro r hr hknown _
  have horganization : ((User.flush loaded user).set r).organizationId = r.organizationId := by
    simp [User.flush, h.organization]
  refine ⟨⟨fun standing hs => ?_, fun hn ho => ?_⟩, horganization⟩
  · obtain ⟨hrole, hactive⟩ := h.shielded (by simp [hs])
    have hsame : ((User.flush loaded user).set r).role = r.role ∧
        ((User.flush loaded user).set r).isActive = r.isActive := by
      simp [User.flush, hrole, hactive]
    exact (UserHolds.congr horganization hsame.1 hsame.2 hr).keeps standing hs
  · have hro : r.organizationId = w.organizationId := horganization.symm.trans ho
    show (column loaded.role user.role r.role).level < w.level
    unfold column
    split_ifs with hsame
    · exact hr.below hn hro
    · rcases h.role with heq | hlt | ⟨b, hb, hmem⟩
      · exact absurd heq hsame
      · exact hlt
      · exact absurd ((hknown b hmem).symm.trans hro) hb

lemma within_flush {Q : Set (Accounts.Table × ℕ × ℕ) → Unit → Prop}
    (h : w.Fits known n loaded user) (hQ : ∀ known', known ⊆ known' → Q known' ()) :
    (flush n loaded user).Within w.accountsCharter.terms Q known := by
  unfold flush
  split_ifs
  · exact hQ known subset_rfl
  · refine ⟨grants_flush h, fun row _ => ?_⟩
    cases row with
    | none => trivial
    | some _ => exact hQ _ Set.subset_union_left

/-- The owner check returns the user as the unit of work has written it last. -/
lemma within_ensureOwnerSafety {organizationId : ℕ} {newRole : Option UserRole} {activating : Option Bool}
    (h : w.Fits known n loaded user) :
    (UserService.ensureOwnerSafety organizationId n loaded user newRole activating).Within
      w.accountsCharter.terms (fun _ a => a = loaded ∨ a = user) known := by
  unfold UserService.ensureOwnerSafety
  split_ifs
  · exact Or.inl rfl
  · exact Or.inl rfl
  · refine (within_flush (Q := fun _ _ => True) h fun _ _ => trivial).bind fun known' _ _ _ => ?_
    refine ⟨trivial, fun owners _ => ?_⟩
    show Prog.Within _ _ (if owners.length < 2 then _ else _) _
    split_ifs
    · trivial
    · exact Or.inr rfl

/-- Who is below a level manages roles below it only. -/
lemma level_lt_of_canManage {actor target : UserRole} {level : ℕ} (h : actor.canManage target = true)
    (hlevel : actor.level < level) : target.level < level := by
  unfold UserRole.canManage at h
  split_ifs at h with howner
  · have hle : target.level ≤ 4 := by cases target <;> decide
    have hactor : actor.level = 4 := by rw [howner]; rfl
    omega
  · exact (of_decide_eq_true h).trans hlevel

/-- An actor under the ceiling, whose organization is known. -/
structure Under (w : Ceiling) (known : Set (Accounts.Table × ℕ × ℕ)) (actorId : ℕ) (actor : User) :
    Prop where
  holds : w.UserHolds actorId actor
  free : w.shield actorId = none
  known : (Table.users, actorId, actor.organizationId) ∈ known

variable {actorId : ℕ} {actor : User}

lemma Under.mono (h : w.Under known actorId actor) (hle : known ⊆ known') : w.Under known' actorId actor :=
  ⟨h.holds, h.free, hle h.known⟩

/-- A role that the actor manages is below the level, in the organization. -/
lemma Under.level_lt (h : w.Under known actorId actor) {role : UserRole}
    (hrole : actor.role.canManage role = true) (horganization : actor.organizationId = w.organizationId) :
    role.level < w.level :=
  level_lt_of_canManage hrole (h.holds.below h.free horganization)

/-- A user whom the actor manages is not shielded. -/
lemma Under.unshielded (h : w.Under known actorId actor)
    (hloaded : w.UserHolds n loaded) (horganization : loaded.organizationId = actor.organizationId)
    (hrole : actor.role.canManage loaded.role = true) : w.shield n = none := by
  cases hs : w.shield n with
  | none => rfl
  | some standing =>
      obtain ⟨ho, heq⟩ := hloaded.keeps standing hs
      have hlevel : w.level ≤ loaded.role.level := by
        have := w.level_le n standing hs
        rwa [← heq] at this
      have hlt := h.level_lt hrole (horganization.symm.trans ho)
      omega

lemma within_getOr404 (h : w.Under known actorId actor) (userId : ℕ) :
    (getOr404 actor.organizationId actorId actor userId).Within w.accountsCharter.terms
      (fun known' loaded => w.UserHolds userId loaded ∧ loaded.organizationId = actor.organizationId ∧
        (Table.users, userId, loaded.organizationId) ∈ known') known := by
  unfold getOr404
  by_cases hself : userId = actorId
  · subst hself
    rw [if_pos rfl]
    refine Prog.Within.bind (Q := fun _ found => found = some actor) rfl fun known' found hle hfound => ?_
    subst hfound
    simp only [Option.filter, decide_true, if_true]
    exact ⟨h.holds, rfl, hle h.known⟩
  · rw [if_neg hself]
    refine ⟨trivial, fun found hfound => ?_⟩
    cases found with
    | none => trivial
    | some r =>
        by_cases ho : r.organizationId = actor.organizationId
        · simp only [Prog.bind, Option.filter, ho, decide_true, if_true]
          exact ⟨hfound r rfl, ho, Or.inr ⟨r, rfl, rfl⟩⟩
        · simp only [Prog.bind, Option.filter, ho, decide_false, Bool.false_eq_true, if_false]
          trivial

/-- What a validated update may do to the role. -/
lemma validateRole_ok {isSelf : Bool} {actor target : UserRole} {role : Option (Option UserRole)}
    (h : UserService.validateRole isSelf actor target role = .ok ()) :
    ∀ newRole, role.join = some newRole →
      actor.canManage newRole = true ∧ actor.canManage target = true := by
  intro newRole hrole
  obtain rfl : role = some (some newRole) := Option.join_eq_some_iff.mp hrole
  simp only [UserService.validateRole] at h
  split_ifs at h with hself hnew htarget
  exact ⟨by simpa using hnew, by simpa using htarget⟩

/-- What a validated update may do to the status. -/
lemma validateStatus_ok {isSelf : Bool} {actor target : UserRole} {status : Option (Option Bool)}
    (h : UserService.validateStatus isSelf actor target status = .ok ()) (hstatus : status ≠ none) :
    actor.canManage target = true := by
  cases status with
  | none => exact absurd rfl hstatus
  | some active =>
      simp only [UserService.validateStatus] at h
      split_ifs at h with hself htarget
      simpa using htarget

lemma validateActor_ok {isSelf : Bool} {actor target : UserRole} {data : UserUpdate}
    (h : UserService.validateActor isSelf actor target data = .ok ()) :
    UserService.validateRole isSelf actor target data.role = .ok () ∧
      UserService.validateStatus isSelf actor target data.isActive = .ok () := by
  unfold UserService.validateActor at h
  cases hrole : UserService.validateRole isSelf actor target data.role with
  | error e =>
      rw [hrole] at h
      cases h
  | ok u =>
      rw [hrole] at h
      exact ⟨rfl, h⟩

/-- The target of an update, as it was loaded. -/
structure Target (w : Ceiling) (known : Set (Accounts.Table × ℕ × ℕ)) (actor : User) (n : ℕ)
    (loaded : User) : Prop where
  holds : w.UserHolds n loaded
  organization : loaded.organizationId = actor.organizationId
  known : (Table.users, n, loaded.organizationId) ∈ known

lemma within_changeRole (h : w.Under known actorId actor) (ht : w.Target known actor n loaded)
    {organizationId : ℕ} {newRole : Option UserRole}
    (hrole : ∀ role, newRole = some role → actor.role.canManage role = true ∧
      actor.role.canManage loaded.role = true) :
    (UserService.changeRole organizationId n loaded newRole).Within w.accountsCharter.terms
      (fun known' user => w.Fits known' n loaded user) known := by
  cases newRole with
  | none => exact fits_refl loaded
  | some role =>
      unfold UserService.changeRole
      dsimp only
      split_ifs with hsame
      · exact fits_refl loaded
      · refine (within_ensureOwnerSafety (fits_refl loaded)).bind fun known' _ hle _ => ?_
        obtain ⟨hnew, htarget⟩ := hrole role rfl
        have hfree := h.unshielded ht.holds ht.organization htarget
        refine ⟨rfl, fun hs => absurd hfree hs, ?_⟩
        by_cases ho : actor.organizationId = w.organizationId
        · exact Or.inr (Or.inl (h.level_lt hnew ho))
        · exact Or.inr (Or.inr ⟨_, ht.organization ▸ ho, hle ht.known⟩)

lemma within_changeStatus (h : w.Under known actorId actor) (ht : w.Target known actor n loaded)
    {organizationId : ℕ} {isActive : Option Bool} (hfits : w.Fits known n loaded user)
    (hstatus : isActive ≠ none → actor.role.canManage loaded.role = true) :
    (UserService.changeStatus organizationId n loaded user isActive).Within w.accountsCharter.terms
      (fun known' state => w.Fits known' n state.1 state.2) known := by
  cases isActive with
  | none => exact hfits
  | some active =>
      unfold UserService.changeStatus
      dsimp only
      split_ifs with hsame
      · exact hfits
      · refine (within_ensureOwnerSafety hfits).bind fun known' knownUser hle hknown => ?_
        have hfree := h.unshielded ht.holds ht.organization (hstatus (by simp))
        rcases hknown with rfl | rfl
        · exact ⟨hfits.organization, fun hs => absurd hfree hs, (hfits.mono hle).role⟩
        · exact ⟨rfl, fun hs => absurd hfree hs, Or.inl rfl⟩

lemma within_finish {data : UserUpdate} (hfits : w.Fits known n loaded user) :
    (UserService.finish n data loaded user).Within w.accountsCharter.terms (fun _ _ => True) known := by
  refine Prog.Within.bind (Q := fun _ _ => True)
    (within_flush ⟨hfits.organization, hfits.shielded, hfits.role⟩ fun _ _ => trivial) fun _ _ _ _ => ?_
  exact ⟨trivial, fun _ _ => trivial⟩

/-- **An update by a user under the ceiling stays under it.** -/
theorem within_update (h : w.Under known actorId actor) (userId : ℕ) (data : UserUpdate) :
    (UserService.update actor.organizationId actorId actor userId data).Within w.accountsCharter.terms
      (fun _ _ => True) known := by
  refine (within_getOr404 h userId).bind fun known₁ loaded hle ht => ?_
  obtain ⟨hloaded, horganization, hmem⟩ := ht
  have ht : w.Target known₁ actor userId loaded := ⟨hloaded, horganization, hmem⟩
  cases hvalid : UserService.validateActor (userId = actorId) actor.role loaded.role data with
  | error e => trivial
  | ok u =>
      obtain ⟨hrole, hstatus⟩ := validateActor_ok hvalid
      refine (within_changeRole (h.mono hle) ht (validateRole_ok hrole)).bind fun known₂ user hle₂ hfits => ?_
      have ht₂ : w.Target known₂ actor userId loaded := ⟨hloaded, horganization, hle₂ hmem⟩
      have hfits₂ : w.Fits known₂ userId loaded
          { user with fullName := data.fullName.getD user.fullName } :=
        ⟨hfits.organization, hfits.shielded, hfits.role⟩
      refine (within_changeStatus (h.mono (hle.trans hle₂)) ht₂ hfits₂ fun hne => ?_).bind
        fun known₃ state hle₃ hfits₃ => within_finish hfits₃
      refine validateStatus_ok hstatus fun hnone => hne ?_
      rw [UserUpdate.newStatus, hnone]
      rfl

/-! ### Invites -/

section Invites

variable {env : Team.Env} {known : Set (Team.Table × ℕ × ℕ)}

/-- To close an invite keeps it from being pending again. -/
lemma grants_flushInvite {inviteId : ℕ} {loaded new : Team.TeamInvite}
    (horganization : new.organizationId = loaded.organizationId) (hrole : new.role = loaded.role)
    (hstatus : new.status ≠ .pending) :
    w.teamCharter.Grants known (.update (Team.Update.flush loaded new) inviteId) := by
  intro r hr _ _
  have hsame : ((Team.TeamInvite.flush loaded new).set r).organizationId = r.organizationId ∧
      ((Team.TeamInvite.flush loaded new).set r).role = r.role := ⟨if_pos horganization, if_pos hrole⟩
  have hpending : ((Team.TeamInvite.flush loaded new).set r).status = .pending →
      r.status = .pending := by
    show column loaded.status new.status r.status = .pending → r.status = .pending
    unfold column
    split_ifs with hnew
    · exact id
    · exact fun h => absurd h hstatus
  refine ⟨fun ho hp => ?_, rfl⟩
  show ((Team.TeamInvite.flush loaded new).set r).role.level < w.level
  rw [hsame.2]
  exact hr (hsame.1.symm.trans ho) (hpending hp)

lemma within_close {inviteId : ℕ} {loaded new : Team.TeamInvite} {f : Unit → Team.TeamTx α}
    {Q : Set (Team.Table × ℕ × ℕ) → α → Prop}
    (horganization : new.organizationId = loaded.organizationId) (hrole : new.role = loaded.role)
    (hstatus : new.status ≠ .pending)
    (hf : ∀ known', (f ()).Within w.teamCharter.indexedTerms Q known') :
    ((Team.flush inviteId loaded new).bind f).Within w.teamCharter.indexedTerms Q known := by
  unfold Team.flush
  split_ifs
  · exact hf known
  · rw [Prog.bind_eq, Prog.bind_assoc]
    refine within_execute (grants_flushInvite horganization hrole hstatus) fun known' row _ => ?_
    cases row with
    | none => trivial
    | some _ => exact hf known'

lemma within_scalarOneOrNone {ρ : Type} (rows : List (ℕ × ρ)) :
    (Team.scalarOneOrNone rows).Within w.teamCharter.indexedTerms
      (fun _ r => ∀ x, r = some x → x ∈ rows) known := by
  rcases rows with - | ⟨row, - | ⟨row', rows⟩⟩
  · exact fun x hx => by cases hx
  · exact fun x hx => by
      obtain rfl := Option.some.inj hx
      exact List.mem_singleton_self _
  · trivial

lemma within_getByEmail (email : String) :
    (Team.getByEmail env email).Within w.teamCharter.indexedTerms (fun _ _ => True) known :=
  within_execute trivial fun _ rows _ =>
    (within_scalarOneOrNone rows).mono subset_rfl fun _ _ _ _ _ => trivial

lemma within_getPendingByEmail (organizationId : ℕ) (email : String) :
    (Team.getPendingByEmail organizationId email).Within w.teamCharter.indexedTerms (fun _ _ => True)
      known :=
  within_execute trivial fun _ rows _ =>
    (within_scalarOneOrNone rows).mono subset_rfl fun _ _ _ _ _ => trivial

/-- An invite of a role that is below the level, in the organization. -/
theorem within_createInvite {organizationId actorId : ℕ} {actorRole role : UserRole} {email : String}
    {fullName : Option String} {rawToken : String}
    (hrole : actorRole.canManage role = true → organizationId = w.organizationId →
      role.level < w.level) :
    (Team.createInvite env organizationId actorId actorRole email fullName role rawToken).Within
      w.teamCharter.indexedTerms (fun _ _ => True) known := by
  unfold Team.createInvite
  dsimp only
  split_ifs with hinvite
  · trivial
  · have hmanage : actorRole.canManage role = true := by
      simp only [Team.roleCanInvite, Bool.and_eq_false_iff, not_or, Bool.not_eq_false] at hinvite
      exact hinvite.2
    refine (within_getByEmail _).bind fun known₁ found _ _ => ?_
    cases found with
    | some _ => trivial
    | none =>
        refine (within_getPendingByEmail organizationId _).bind fun known₂ found _ _ => ?_
        cases found with
        | some _ => trivial
        | none =>
            refine within_execute trivial fun _ now _ => ?_
            refine Prog.Within.bind (Q := fun _ _ => True) ?_ fun _ _ _ _ => trivial
            refine Prog.Within.tryCatch ?_ fun known₄ e _ => ?_
            · refine within_execute (fun n _ ho _ => hrole hmanage ho) fun _ inviteId _ => ?_
              exact within_execute trivial fun _ _ _ => trivial
            · cases e with
              | integrityError => exact within_execute trivial fun _ _ _ => trivial
              | app | multipleResultsFound | staleDataError => trivial

theorem within_listInvites (organizationId : ℕ) :
    (Team.listInvites organizationId).Within w.teamCharter.indexedTerms (fun _ _ => True) known := by
  refine within_execute trivial fun _ now _ => ?_
  refine Prog.Within.bind (Q := fun _ _ => True) ?_ fun _ _ _ _ => ?_
  · refine within_execute trivial fun _ invites _ => ?_
    refine Prog.within_tally fun row _ known' _ => ?_
    obtain ⟨inviteId, invite⟩ := row
    exact within_close rfl rfl (by simp) fun _ => trivial
  · exact within_execute trivial fun _ _ _ => within_last trivial fun _ _ _ => trivial

theorem within_revokeInvite (organizationId inviteId : ℕ) :
    (Team.revokeInvite organizationId inviteId).Within w.teamCharter.indexedTerms (fun _ _ => True)
      known := by
  unfold Team.revokeInvite
  refine Prog.Within.bind (Q := fun _ _ => True) ?_ fun _ invite _ _ => ?_
  · exact within_execute trivial fun _ _ _ => trivial
  · cases invite with
    | none => trivial
    | some invite =>
        dsimp only
        split_ifs
        · trivial
        · refine within_execute trivial fun _ now _ => ?_
          refine within_close rfl rfl (by simp) fun _ => ?_
          exact within_execute trivial fun _ _ _ => trivial

/-- An invite that is looked up is pending, and below the level if it is of the organization. -/
theorem within_lookupInvite (token : String) :
    (Team.lookupInvite env token).Within w.teamCharter.indexedTerms
      (fun _ r => r.2.status = .pending ∧ w.InviteHolds r.2) known := by
  unfold Team.lookupInvite
  refine Prog.Within.bind (Q := fun _ r => ∀ x, r = some x → w.InviteHolds x.2) ?_
    fun _ found _ hfound => ?_
  · refine within_execute trivial fun _ rows hrows => ?_
    exact (within_scalarOneOrNone rows).mono subset_rfl fun _ _ r _ hr x hx => hrows x (hr x hx)
  · cases found with
    | none => trivial
    | some row =>
        obtain ⟨inviteId, invite⟩ := row
        dsimp only
        split_ifs with hstatus
        · trivial
        · refine within_execute trivial fun _ now _ => ?_
          dsimp only
          split_ifs
          · refine within_close rfl rfl (by simp) fun _ => ?_
            exact within_execute trivial fun _ _ _ => trivial
          · exact ⟨not_not.mp hstatus, hfound _ rfl⟩

/-- An accepted invite brings in a user below the level, if it is of the organization. -/
theorem within_acceptInvite (token fullName password : String) :
    (Team.acceptInvite env token fullName password).Within w.teamCharter.indexedTerms (fun _ _ => True)
      known := by
  unfold Team.acceptInvite
  refine (within_lookupInvite token).bind fun _ row _ hrow => ?_
  obtain ⟨inviteId, invite⟩ := row
  obtain ⟨hpending, hinvite⟩ := hrow
  refine (within_getByEmail invite.email).bind fun _ found _ _ => ?_
  cases found with
  | some _ =>
      refine within_close rfl rfl (by simp) fun _ => ?_
      exact within_execute trivial fun _ _ _ => trivial
  | none =>
      refine Prog.Within.bind (Q := fun _ _ => True) (Prog.Within.tryCatch ?_ fun _ e _ => ?_)
        fun _ userId _ _ => ?_
      · unfold Team.addUser
        split_ifs with hname
        · refine within_last (fun n hn => ⟨fun standing hs => ?_, fun _ ho => ?_⟩) fun _ _ _ => trivial
          · exact absurd (w.shield_lt n standing hs) (not_lt.mpr hn)
          · exact hinvite ho hpending
        · trivial
      · cases e with
        | integrityError => exact within_execute trivial fun _ _ _ => trivial
        | app | multipleResultsFound | staleDataError => trivial
      · refine within_execute trivial fun _ now _ => ?_
        refine within_close rfl rfl (by simp) fun _ => ?_
        exact within_execute trivial fun _ _ _ => trivial

end Invites

/-! ### Endpoints -/

section Endpoints

variable {known : Set (members.Table × ℕ × ℕ)}

/-- The user of a token, who is known by its row. -/
lemma within_getCurrentUser (token : AccessToken) {known : Set (Accounts.Table × ℕ × ℕ)} :
    (getCurrentUser token).Within w.accountsCharter.terms
      (fun known' user => w.UserHolds token.sub user ∧
        (Table.users, token.sub, user.organizationId) ∈ known') known := by
  unfold getCurrentUser
  split_ifs
  · trivial
  · refine ⟨trivial, fun row hrow => ?_⟩
    cases row with
    | none => trivial
    | some user =>
        show Prog.Within _ _ (checkUser token (some user)) _
        unfold checkUser
        dsimp only
        split_ifs
        · trivial
        · trivial
        · trivial
        · exact ⟨hrow user rfl, Or.inr ⟨user, rfl, rfl⟩⟩

/-- The guards let through who is not shielded, if no shielded user has the permission. -/
lemma within_currentUser {permission : Brain.Permission} {token : AccessToken}
    {f : User → MembersTx α} {Q : Set (members.Table × ℕ × ℕ) → α → Prop}
    (hactor : ∀ standing, w.shield token.sub = some standing →
      hasPermission standing.1 permission = false)
    (hf : ∀ known' actor, w.Under (Set.preimage whole known') token.sub actor →
      (f actor).Within w.charter.indexedTerms Q known') :
    ((currentUser permission token).bind f).Within w.charter.indexedTerms Q known := by
  unfold currentUser
  rw [Prog.bind_eq, Prog.bind_assoc]
  refine (within_ofAccounts (fun _ _ _ hle h => ⟨h.1, hle h.2⟩) (within_getCurrentUser token)).bind
    fun known₁ actor _ hactor' => ?_
  obtain ⟨hholds, hmem⟩ := hactor'
  unfold requirePermission
  split_ifs with hpermission
  · refine hf known₁ actor ⟨hholds, ?_, hmem⟩
    cases hs : w.shield token.sub with
    | none => rfl
    | some standing =>
        have hrole : actor.role = standing.1 := congrArg Prod.fst (hholds.keeps standing hs).2
        rw [hrole, hactor standing hs] at hpermission
        cases hpermission
  · trivial

lemma within_orRollback {p handler : MembersTx α} {Q : Set (members.Table × ℕ × ℕ) → α → Prop}
    (hp : p.Within w.charter.indexedTerms Q known)
    (hh : ∀ known', handler.Within w.charter.indexedTerms Q known') :
    (orRollback p handler).Within w.charter.indexedTerms Q known := by
  refine hp.tryCatch fun known' e _ => ?_
  split_ifs
  · exact within_execute trivial fun known'' _ _ => hh known''
  · trivial

/-- A new user is not shielded, and below the level if it is of the organization. -/
lemma within_addUser {organizationId : ℕ} {email fullName : String} {role : UserRole} {isActive : Bool}
    {passwordHash : Option String} (hrole : organizationId = w.organizationId → role.level < w.level) :
    (addUser organizationId email fullName role isActive passwordHash).Within w.charter.indexedTerms
      (fun _ r => r.2.organizationId = organizationId ∧ r.2.role = role ∧ w.shield r.1 = none) known := by
  unfold addUser
  split_ifs with hname
  · have hnew : ∀ n, w.first ≤ n → w.shield n = none := by
      intro n hn
      cases hs : w.shield n with
      | none => rfl
      | some standing => exact absurd (w.shield_lt n standing hs) (not_lt.mpr hn)
    refine within_execute (fun n hn => ⟨fun standing hs => ?_, fun _ ho => hrole ho⟩)
      fun known' userId huserId => ⟨rfl, rfl, hnew userId huserId⟩
    rw [hnew n hn] at hs
    cases hs
  · trivial

lemma within_getBySlug (slug : String) :
    (getBySlug slug).Within w.charter.indexedTerms (fun _ _ => True) known := by
  refine within_execute trivial fun known' rows _ => ?_
  rcases rows with - | ⟨row, - | ⟨row', rows⟩⟩ <;> trivial

lemma within_emailTaken {Q : Set (members.Table × ℕ × ℕ) → α → Prop} :
    (emailTaken : MembersTx α).Within w.charter.indexedTerms Q known := trivial

lemma within_resolveRegisterConflict {email slug : String} {Q : Set (members.Table × ℕ × ℕ) → α → Prop} :
    (resolveRegisterConflict d email slug : MembersTx α).Within w.charter.indexedTerms Q known := by
  refine (within_ofTeam (P := fun _ => True) (within_getByEmail email)).bind fun _ found _ _ => ?_
  cases found with
  | some _ => trivial
  | none =>
      refine (within_getBySlug slug).bind fun _ found _ _ => ?_
      cases found <;> trivial

/-- A registration brings in the owner of a new organization. -/
theorem within_register (payload : RegisterRequest) :
    (Members.register d payload).Within w.charter.indexedTerms (fun _ _ => True) known := by
  refine (within_getBySlug payload.organizationSlug).bind fun _ found _ _ => ?_
  cases found with
  | some _ => trivial
  | none =>
      refine Prog.Within.bind (Q := fun _ organizationId => organizationId ≠ w.organizationId) ?_
        fun _ organizationId _ hnew => ?_
      · unfold addOrganization
        split_ifs
        · refine within_last (fun _ _ => trivial) fun _ organizationId hfirst => ?_
          have hfirst : w.first ≤ organizationId := hfirst
          have := w.organization_lt
          omega
        · trivial
      · refine (within_orRollback (within_addUser fun ho => absurd ho hnew) fun _ =>
          within_resolveRegisterConflict).bind fun known' account _ haccount => ?_
        obtain ⟨userId, user⟩ := account
        obtain ⟨horganization, -, hfree⟩ := haccount
        refine within_ofSecurity (Q := fun _ _ => True) (fun _ _ _ _ h => h) ?_
        have hfits : ∀ known, w.Fits known userId user
            { user with emailVerificationRequired := d.emailVerificationEnabled } :=
          fun _ => ⟨rfl, fun h => absurd hfree h, Or.inl rfl⟩
        refine Prog.Within.bind (Q := fun _ _ => True)
          (within_embed (within_flush (hfits _) fun _ _ => trivial)) fun _ _ _ _ => ?_
        have hfinish : ∀ known, Prog.Within w.securityCharter.terms (fun _ _ => True)
            ((embed (AuthService.issueTokens d.security userId
              { user with emailVerificationRequired := d.emailVerificationEnabled }
              { user with emailVerificationRequired := d.emailVerificationEnabled } none)).bind
              fun response => (embed (AuthService.respond userId response)).bind fun _ => .ret ())
            known := fun _ => by
          refine (within_embed (within_plain (plain_issueTokens rfl rfl rfl))).bind fun _ _ _ _ => ?_
          exact (within_embed (within_plain plain_respond)).bind fun _ _ _ _ => trivial
        split_ifs
        · refine Prog.Within.bind (Q := fun _ _ => True) ?_ fun _ _ _ _ => hfinish _
          exact ⟨trivial, fun now _ => ⟨fun _ _ => trivial, fun _ _ => trivial⟩⟩
        · exact hfinish _

theorem within_createUser {token : AccessToken} {data : UserCreate}
    (hactor : ∀ standing, w.shield token.sub = some standing →
      hasPermission standing.1 .teamManage = false) :
    (Members.createUser d token data).Within w.charter.indexedTerms (fun _ _ => True) known := by
  refine within_currentUser hactor fun known' actor hunder => ?_
  refine (within_ofTeam (P := fun _ => True) (within_getByEmail _)).bind fun _ found _ _ => ?_
  cases found with
  | some _ => trivial
  | none =>
      dsimp only
      split_ifs with hrole
      · trivial
      · refine (within_orRollback (within_addUser fun ho => hunder.level_lt (by simpa using hrole) ho)
          fun _ => within_emailTaken).bind fun _ _ _ _ => ?_
        exact within_last trivial fun _ _ _ => trivial

theorem within_updateUser {token : AccessToken} {userId : ℕ} {data : UserUpdate}
    (hactor : ∀ standing, w.shield token.sub = some standing →
      hasPermission standing.1 .teamManage = false) :
    (Members.updateUser token userId data).Within w.charter.indexedTerms (fun _ _ => True) known := by
  refine within_currentUser hactor fun known' actor hunder => ?_
  refine (within_ofAccounts (Q := fun _ _ => True) (fun _ _ _ _ h => h)
    (within_update hunder userId data)).bind fun _ _ _ _ => trivial

theorem within_inviteMember {token : AccessToken} {email : String} {fullName : Option String}
    {role : UserRole} {rawToken : String}
    (hactor : ∀ standing, w.shield token.sub = some standing →
      hasPermission standing.1 .inviteManage = false) :
    (Members.inviteMember d token email fullName role rawToken).Within w.charter.indexedTerms
      (fun _ _ => True) known := by
  refine within_currentUser hactor fun known' actor hunder => ?_
  refine (within_ofTeam (P := fun _ => True) (within_createInvite fun hrole ho => ?_)).bind
    fun _ _ _ _ => trivial
  exact hunder.level_lt hrole ho

end Endpoints

/-! ### Runs -/

/-- A request that no shielded user with the permission to manage members makes. -/
def Spares (w : Ceiling) (r : Request) : Prop :=
  ∀ n, r.actor = some n → ∀ standing, w.shield n = some standing →
    hasPermission standing.1 .teamManage = false ∧ hasPermission standing.1 .inviteManage = false

/-- **Every such request stays under the ceiling.** -/
theorem within_body {r : Request} (h : w.Spares r) {known : Set (members.Table × ℕ × ℕ)} :
    (r.body d).Within w.charter.indexedTerms (fun _ _ => True) known := by
  -- to list and to revoke invites needs no condition on the actor
  have hguarded : ∀ (token : AccessToken) (f : User → MembersTx Unit),
      (∀ known' actor, (f actor).Within w.charter.indexedTerms (fun _ _ => True) known') →
      ((currentUser .inviteManage token).bind f).Within w.charter.indexedTerms (fun _ _ => True) known := by
    intro token f hf
    refine Prog.Within.bind (Q := fun _ _ => True) ?_ fun known' actor _ _ => hf known' actor
    refine (within_ofAccounts (Q := fun _ _ => True) (fun _ _ _ _ h => h)
      (within_plain (plain_getCurrentUser token))).bind fun _ user _ _ => ?_
    unfold requirePermission
    split_ifs <;> trivial
  cases r with
  | account r =>
      exact (within_ofSecurity (Q := fun _ _ => True) (fun _ _ _ _ h => h) (within_security r)).bind
        fun _ _ _ _ => trivial
  | register payload => exact within_register payload
  | createUser token data => exact within_createUser fun standing hs => (h _ rfl standing hs).1
  | updateUser token userId data => exact within_updateUser fun standing hs => (h _ rfl standing hs).1
  | inviteMember token email fullName role rawToken =>
      exact within_inviteMember fun standing hs => (h _ rfl standing hs).2
  | listInvites token =>
      refine hguarded token _ fun _ actor => ?_
      exact (within_ofTeam (P := fun _ => True) (within_listInvites _)).bind fun _ _ _ _ => trivial
  | revokeInvite token inviteId =>
      refine hguarded token _ fun _ actor => ?_
      exact (within_ofTeam (P := fun _ => True) (within_revokeInvite _ _)).bind fun _ _ _ _ => trivial
  | lookupInvite rawToken =>
      refine Prog.Within.bind (Q := fun _ _ => True) ?_ fun _ _ _ _ => trivial
      refine (within_ofTeam (P := fun _ => True)
        ((within_lookupInvite rawToken).mono subset_rfl fun _ _ _ _ _ => trivial)).bind fun _ row _ _ => ?_
      exact within_execute trivial fun _ _ _ => trivial
  | acceptInvite rawToken fullName password =>
      exact (within_ofTeam (P := fun _ => True) (within_acceptInvite rawToken fullName password)).bind
        fun _ _ _ _ => trivial

theorem within_run {r : Request} (h : w.Spares r) {known : Set (members.Table × ℕ × ℕ)} :
    (r.run d).Within w.charter.indexedTerms (fun _ _ => True) known := by
  refine Prog.Within.tryCatch ((within_body h).bind fun _ _ _ _ => ?_) fun _ e _ => ?_
  · exact within_execute trivial fun _ _ _ => trivial
  · exact within_execute trivial fun _ _ _ => trivial

end Ceiling

section Runs

variable {ι : Type} [DecidableEq ι] (start : Database ι) (organizationId level : ℕ)

/-- The users of the organization that are at the level or above, with role and status. -/
def standings (n : ℕ) : Option (UserRole × Bool) :=
  (start.committed users n).bind fun r : User =>
    if r.organizationId = organizationId ∧ level ≤ r.role.level then some (r.role, r.isActive) else none

variable {start organizationId level} {n : ℕ}

omit [DecidableEq ι] in
lemma standings_eq_some {standing : UserRole × Bool} :
    standings start organizationId level n = some standing ↔ ∃ r : User,
      start.committed users n = some r ∧ r.organizationId = organizationId ∧ level ≤ r.role.level ∧
        (r.role, r.isActive) = standing := by
  constructor
  · intro h
    obtain ⟨r, hr, hs⟩ := Option.bind_eq_some_iff.mp h
    split_ifs at hs with hlevel
    exact ⟨r, hr, hlevel.1, hlevel.2, Option.some.inj hs⟩
  · rintro ⟨r, hr, ho, hlevel, rfl⟩
    exact Option.bind_eq_some_iff.mpr ⟨r, hr, if_pos ⟨ho, hlevel⟩⟩

omit [DecidableEq ι] in
lemma standings_lt (n : ℕ) (standing : UserRole × Bool)
    (h : standings start organizationId level n = some standing) : n < start.fresh := by
  obtain ⟨r, hr, -⟩ := standings_eq_some.mp h
  exact Db.lt_fresh_of_committed hr

omit [DecidableEq ι] in
lemma level_le_standings (n : ℕ) (standing : UserRole × Bool)
    (h : standings start organizationId level n = some standing) : level ≤ standing.1.level := by
  obtain ⟨r, -, -, hlevel, rfl⟩ := standings_eq_some.mp h
  exact hlevel

/-- The ceiling of a store at a level. -/
def ceilingOf (start : Database ι) (organizationId level : ℕ) (h : organizationId < start.fresh) :
    Ceiling where
  organizationId := organizationId
  level := level
  first := start.fresh
  shield := standings start organizationId level
  organization_lt := h
  shield_lt := standings_lt
  level_le := level_le_standings

omit [DecidableEq ι] in
lemma kept_ceilingOf (h : organizationId < start.fresh) (hsettled : start.Settled)
    (hinvites : ∀ n (v : Team.TeamInvite), start.committed teamInvites n = some v →
      v.organizationId = organizationId → v.status = .pending → v.role.level < level) :
    (ceilingOf start organizationId level h).charter.Kept start where
  first := le_rfl
  ahead := hsettled.ahead _
  rows := by
    refine ⟨fun t n r hr => ?_, fun t n j r hd => ?_⟩
    · rcases t with (- | - | -) | (- | -)
      · refine ⟨fun standing hs => ?_, fun hs ho => ?_⟩
        · obtain ⟨r', hr', ho, -, heq⟩ := standings_eq_some.mp hs
          obtain rfl := Option.some.inj (hr.symm.trans hr')
          exact ⟨ho, heq⟩
        · by_contra hlevel
          have hsome := standings_eq_some.mpr ⟨r, hr, ho, not_lt.mp hlevel, rfl⟩
          cases hs.symm.trans hsome
      · trivial
      · trivial
      · trivial
      · exact hinvites n r hr
    · rw [hsettled] at hd
      cases hd

/-- **Privilege containment**: in any interleaving of requests, an organization has at a level or above
the users that it had at the start, with the roles and statuses that they had, unless one of them who may
manage members does, or an invite to such a role was pending. -/
theorem privilege_contained (d : Deployment) (requests : ι → Request) (start : Database ι)
    (organizationId level : ℕ) (horganization : organizationId < start.fresh) (hsettled : start.Settled)
    (hinvites : ∀ n (v : Team.TeamInvite), start.committed teamInvites n = some v →
      v.organizationId = organizationId → v.status = .pending → v.role.level < level)
    (hactors : ∀ i n, (requests i).actor = some n → ∀ r : User, start.committed users n = some r →
      r.organizationId = organizationId → level ≤ r.role.level →
      hasPermission r.role .teamManage = false ∧ hasPermission r.role .inviteManage = false)
    (c : Pool (indexedSql members) ι (Database ι) Exn Unit)
    (h : Pool.Reach (postgres ι) (.start (fun i => (requests i).run d) start) c) :
    ∀ n, standings c.store organizationId level n = standings start organizationId level n := by
  let w := ceilingOf start organizationId level horganization
  have hspares : ∀ i, w.Spares (requests i) := by
    intro i n hn standing hs
    obtain ⟨r, hr, ho, hlevel, rfl⟩ := standings_eq_some.mp hs
    exact hactors i n hn r hr ho hlevel
  obtain ⟨hkept, hstays⟩ := Pool.Reach.within (C := w.charter) h
    (fun i => Ceiling.within_run (hspares i)) (kept_ceilingOf horganization hsettled hinvites)
  intro n
  -- who is shielded is still there with his standing, and nobody else is at the level
  cases hs : standings start organizationId level n with
  | some standing =>
      obtain ⟨r, hr, ho, hlevel, rfl⟩ := standings_eq_some.mp hs
      obtain ⟨r', hr', -⟩ := hstays users n r hr
      obtain ⟨ho', heq⟩ := (hkept.rows.1 users n r' hr').keeps _ hs
      have hrole : User.role r' = r.role := congrArg Prod.fst heq
      exact standings_eq_some.mpr ⟨r', hr', ho', hrole ▸ hlevel, heq⟩
  | none =>
      cases hs' : standings c.store organizationId level n with
      | none => rfl
      | some standing =>
          obtain ⟨r, hr, ho, hlevel, -⟩ := standings_eq_some.mp hs'
          exact absurd hlevel (not_le.mpr ((hkept.rows.1 users n r hr).below hs ho))

end Runs

/-! ### An admin promotes a member -/

lemma hasName : ("A".toList.any fun c => c ≠ ' ') = true := by decide

/-- A user of organization 0, without a password. -/
def person (email : String) (role : UserRole) : User := newUser 0 email ⟨"A", hasName⟩ role true none

/-- An organization with an owner, an admin and a member. -/
def threeUsers : (t : members.Table) → ℕ → Option (members.Row t)
  | .inl .users, 1 => some (person "owner@a" .owner)
  | .inl .users, 2 => some (person "admin@a" .admin)
  | .inl .users, 3 => some (person "member@a" .member)
  | .inr .organizations, 0 => some ⟨"A", "a"⟩
  | _, _ => none

lemma threeUsers_fresh (t : members.Table) (n : ℕ) (hn : 4 ≤ n) : threeUsers t n = none := by
  obtain ⟨m, rfl⟩ := Nat.exists_eq_add_of_le' hn
  rcases t with (- | - | -) | (- | -) <;> rfl

def agency : Database (Fin 2) := Db.init threeUsers 4 (Clock.still 0) threeUsers_fresh

def deployment : Deployment where
  security := ⟨30, false, 5, id, fun _ _ => true, fun _ => none, fun _ _ => false⟩
  tokens := ⟨60, 30, true⟩
  env := ⟨id, id, id, id, id⟩
  emailVerificationEnabled := false

/-- The admin promotes the member, and tries to promote himself. -/
def promotions : Fin 2 → Request
  | 0 => .updateUser ⟨2, 0, none⟩ 3 ⟨some (some .manager), none, none, none⟩
  | 1 => .updateUser ⟨2, 0, none⟩ 2 ⟨some (some .owner), none, none, none⟩

lemma promotions_run : ((Pool.start (fun i => (promotions i).run deployment) agency).run
    (postgres (Fin 2)) (List.replicate 5 (.step 0) ++ List.replicate 2 (.step 1))).any (fun c =>
      (c.store.committed users 3).any fun r : User => r.role = .manager) = true := by
  decide +kernel

theorem privilege_contained_promotions :
    ∃ c, Pool.Reach (postgres (Fin 2)) (.start (fun i => (promotions i).run deployment) agency) c ∧
      ((c.store.committed users 3).any fun r : User => r.role = .manager) = true ∧
        ∀ n, standings c.store 0 4 n = standings agency 0 4 n := by
  obtain ⟨c, hc, hrole⟩ := Pool.exists_of_run promotions_run
  refine ⟨c, hc, hrole, privilege_contained deployment promotions agency 0 4 (by decide)
    (Db.settled_init _ _ _ _) (fun n v hv => ?_) (fun i n hn r hr ho hlevel => ?_) c hc⟩
  · have hnone : threeUsers teamInvites n = none := rfl
    rw [show agency.committed teamInvites n = threeUsers teamInvites n from rfl, hnone] at hv
    cases hv
  · have hactor : n = 2 := by
      fin_cases i
      · exact (Option.some.inj hn).symm
      · exact (Option.some.inj hn).symm
    subst hactor
    obtain rfl : person "admin@a" .admin = r := Option.some.inj hr
    exact absurd hlevel (by decide)

end Members
