import AgencyOS.Accounts.Enrolments
import AgencyOS.Accounts.OwnerSafety

/-!
Recovery codes are used once.

* `Onwards`: a code keeps its user and its hash, and stays spent;
* `claims`: the contract of the sessions that claim a code, and `meets_claimFirst`;
* `AcceptsCode`: the commit by which a request claims a code;
* `recovery_codes_one_time`: **the unused codes are always those of one enrolment, and a request that is
  let in without the authenticator has claimed a code that no other commit claims**.
-/

namespace Accounts

open Txn Automation

namespace RecoveryCode

/-- A code that can no longer be claimed. -/
def spent (r : RecoveryCode) : Bool := r.usedAt.isSome || r.deleted

lemma spent_act (u : CodeUpdate) (r : RecoveryCode) : (u.act.set r).spent = true := by
  cases u <;> simp [CodeUpdate.act, markUsed, delete, spent]

lemma not_spent_of_isUnused {m : ℕ} {r : RecoveryCode} (h : r.isUnused m = true) :
    r.spent = false := by
  obtain ⟨-, hused, hdeleted⟩ := isUnused_eq_true.1 h
  simp [spent, hused, hdeleted]

/-- How a code may go on. -/
structure Onwards (r r' : RecoveryCode) : Prop where
  userId : r'.userId = r.userId
  codeHash : r'.codeHash = r.codeHash
  spent : r.spent = true → r'.spent = true

lemma Onwards.refl (r : RecoveryCode) : Onwards r r := ⟨rfl, rfl, id⟩

lemma Onwards.trans {r r' r'' : RecoveryCode} (h : Onwards r r') (h' : Onwards r' r'') :
    Onwards r r'' :=
  ⟨h'.userId.trans h.userId, h'.codeHash.trans h.codeHash, fun hr => h'.spent (h.spent hr)⟩

lemma Onwards.act {r r' : RecoveryCode} (h : Onwards r r') (u : CodeUpdate) :
    Onwards r (u.act.set r') := by
  refine h.trans ⟨?_, ?_, fun _ => spent_act u r'⟩
  · cases u <;> rfl
  · cases u <;> rfl

end RecoveryCode

section Claims

variable {ι : Type} [DecidableEq ι] {cfg : Mfa.Settings} {m : ℕ} {cleaned code : String} {i j : ι}
  {s s' s'' : MfaStore ι} {h tr : List (MfaEvent ι)} {q : Sql twoFactor}

/-- Codes go on; of the other rows nothing is said. -/
def CodeOnward : (t : twoFactor.Table) → twoFactor.Row t → twoFactor.Row t → Prop
  | .inl _, _, _ => True
  | .inr _, r, r' => RecoveryCode.Onwards r r'

lemma CodeOnward.refl (t : twoFactor.Table) (r : twoFactor.Row t) : CodeOnward t r r :=
  match t, r with
  | .inl _, _ => trivial
  | .inr _, r => RecoveryCode.Onwards.refl r

/-- Every statement moves codes onwards. -/
lemma codeOnward_effect (hs : Ahead CodeOnward s) (i : ι) (q : Sql twoFactor) :
    Ahead CodeOnward (Db.effect i q s) := by
  refine hs.effect CodeOnward.refl fun u n r _ _ _ rc _ hrc => ?_
  cases u with
  | inl u => trivial
  | inr u => exact RecoveryCode.Onwards.act hrc u

/-- The committed codes have gone on. -/
def CodesMoved (s s' : MfaStore ι) : Prop :=
  ∀ n r, s.committed codesTable n = some r →
    ∃ r', s'.committed codesTable n = some r' ∧ RecoveryCode.Onwards r r'

omit [DecidableEq ι] in
lemma CodesMoved.trans (h : CodesMoved s s') (h' : CodesMoved s' s'') : CodesMoved s s'' := by
  intro n r hr
  obtain ⟨r', hr', hon⟩ := h n r hr
  obtain ⟨r'', hr'', hon'⟩ := h' n r' hr'
  exact ⟨r'', hr'', hon.trans hon'⟩

lemma codesMoved_effect (hs : Ahead CodeOnward s) (i : ι) (q : Sql twoFactor) :
    CodesMoved s (Db.effect i q s) :=
  fun _ _ hr => hs.committed CodeOnward.refl i q hr

/-- Codes go on, and sessions leave each other's writes alone. -/
def claims : Contract (sql twoFactor) ι (MfaStore ι) where
  inv := fun _ s => Ahead CodeOnward s
  assume := fun _ _ => True
  guar := fun _ _ _ => True
  rely := fun i _ s s' => Frame i s s' ∧ CodesMoved s s'

lemma claims_compatible : (claims : Contract (sql twoFactor) ι (MfaStore ι)).Compatible
    (mfaServer ι) where
  refl := fun i _ s => ⟨.refl i s, fun _ r hr => ⟨r, hr, .refl r⟩⟩
  trans := fun i _ s₁ s₂ s₃ h h' => ⟨h.1.trans h'.1, h.2.trans h'.2⟩
  step := by
    intro tr ev j hj hI _ _ hafter _
    rw [hafter]
    exact ⟨frame_effect hj.symm ev.stmt ev.before, codesMoved_effect hI ev.pid ev.stmt⟩
  hangup := fun _ i _ hI _ _ => ⟨codeOnward_effect hI i .rollback, trivial⟩

/-! ### Claiming a code -/

/-- Session `i` has claimed a code of user `m`, and not yet committed. -/
def Redeemed (cfg : Mfa.Settings) (m : ℕ) (cleaned : String) (i : ι) (n : ℕ) (s : MfaStore ι) : Prop :=
  ∃ r rc, s.dirty codesTable n = some (i, r) ∧ r.spent = true ∧ s.committed codesTable n = some rc
    ∧ rc.isUnused m = true ∧ cfg.verifyPassword cleaned rc.codeHash = true

variable {n : ℕ}

lemma Redeemed.frame (hcl : Redeemed cfg m cleaned i n s) (hf : Frame i s s') :
    Redeemed cfg m cleaned i n s' := by
  obtain ⟨r, rc, hd, hr, hc, hrc⟩ := hcl
  exact ⟨r, rc, (hf.dirty _ n r).2 hd, hr, (hf.committed _ n r hd).trans hc, hrc⟩

lemma Redeemed.effect (hcl : Redeemed cfg m cleaned i n s) (hc : q ≠ .commit) (hr : q ≠ .rollback) :
    Redeemed cfg m cleaned i n (Db.effect i q s) := by
  obtain ⟨r, rc, hd, hspent, hcom, hrc⟩ := hcl
  obtain ⟨r', hd', hcases⟩ := Db.dirty_effect_own hd hc hr
  refine ⟨r', rc, hd', ?_, by rw [Db.committed_effect hc, hcom], hrc⟩
  rcases hcases with rfl | ⟨u, r₀, rfl, -, -, hset⟩
  · exact hspent
  · cases u with
    | inl u => cases hset
    | inr u =>
        cases hset
        exact RecoveryCode.spent_act u _

/-- Session `i` has written no code, and the codes listed are still there. -/
def Listed (m : ℕ) (i : ι) (records : List (ℕ × RecoveryCode)) (s : MfaStore ι) : Prop :=
  (∀ n r, s.dirty codesTable n ≠ some (i, r)) ∧ ∀ record ∈ records,
    ∃ rc, s.committed codesTable record.1 = some rc ∧ rc.userId = m ∧ rc.codeHash = record.2.codeHash

variable {records : List (ℕ × RecoveryCode)}

lemma Listed.rely (hl : Listed m i records s)
    (hr : (claims : Contract (sql twoFactor) ι (MfaStore ι)).rely i h s s') :
    Listed m i records s' := by
  refine ⟨fun n r hd => hl.1 n r ((hr.1.dirty _ n r).1 hd), fun record hrec => ?_⟩
  obtain ⟨rc, hc, huser, hhash⟩ := hl.2 record hrec
  obtain ⟨rc', hc', hon⟩ := hr.2 _ rc hc
  exact ⟨rc', hc', hon.userId.trans huser, hon.codeHash.trans hhash⟩

/-- A session that has written no code claims the one it updates. -/
lemma Listed.redeem {record : ℕ × RecoveryCode} {now : Time} {r : RecoveryCode}
    (hl : Listed m i (record :: records) s)
    (hverify : cfg.verifyPassword cleaned record.2.codeHash = true)
    (hw : s.written (S := twoFactor) i (.inr (.markUsed now)) record.1 = some r) :
    Redeemed cfg m cleaned i record.1 (Db.effect i (.update (.inr (.markUsed now)) record.1) s) := by
  obtain ⟨rc, hc, huser, hhash⟩ := hl.2 record List.mem_cons_self
  obtain ⟨-, r₀, hv, hg, hset⟩ := Db.written_eq_some.1 hw
  have hview : s.view i codesTable record.1 = some rc :=
    (Db.view_of_not_own (hl.1 record.1)).trans hc
  obtain rfl : rc = r₀ := Option.some.inj (hview.symm.trans hv)
  have hspent : r.spent = true := hset ▸ RecoveryCode.spent_act (.markUsed now) rc
  have hunused : rc.isUnused m = true := by
    have hguard : rc.usedAt.isNone = true ∧ (!rc.deleted) = true := by
      simpa [CodeUpdate.act, RecoveryCode.markUsed] using hg
    simp [RecoveryCode.isUnused, huser, hguard.1, hguard.2]
  refine ⟨r, rc, Db.dirty_update hw, hspent, ?_, hunused, by rw [hhash]; exact hverify⟩
  rw [Db.committed_effect (by simp)]
  exact hc

/-- `mark_used` claims the code, or leaves everything as it was. -/
lemma meets_markUsed {record : ℕ × RecoveryCode} {now : Time} (hl : Listed m i (record :: records) s)
    (hverify : cfg.verifyPassword cleaned record.2.codeHash = true) :
    Meets claims (mfaServer ι) i (fun _ r s => (r = .ok true → ∃ n, Redeemed cfg m cleaned i n s)
      ∧ (r = .ok false → Listed m i (record :: records) s))
      (UserRecoveryCodeRepository.markUsed record.1 now) h s := by
  refine Meets.bind claims_compatible (meets_ask (P := Listed m i (record :: records)) ?_) ?_ ?_
  · intro tr s₁ _ hr hI _ _
    exact ⟨codeOnward_effect hI i _, trivial, hl.rely hr⟩
  · rintro h' row s' ⟨s₁, hl₁, -, hrow, hr₁⟩ tr s₂ _ hr₂ _
    have hw : s₁.written (S := twoFactor) i (.inr (.markUsed now)) record.1 = row :=
      (Except.ok.inj hrow).symm
    cases row with
    | none =>
        have heffect : Db.effect i (.update (S := twoFactor) (.inr (.markUsed now)) record.1) s₁ = s₁ :=
          Db.effect_update_of_none hw
        refine ⟨fun htrue => ?_, fun _ => ?_⟩
        · cases htrue
        · have hsame : Listed m i (record :: records)
              (Db.effect i (.update (.inr (.markUsed now)) record.1) s₁) := by rwa [heffect]
          exact (hsame.rely hr₁).rely hr₂
    | some r =>
        refine ⟨fun _ => ⟨record.1, ?_⟩, fun hfalse => ?_⟩
        · exact ((hl₁.redeem hverify hw).frame hr₁.1).frame hr₂.1
        · cases hfalse
  · rintro h' e s' ⟨_, -, -, he, -⟩
    cases he

/-- The loop over the codes returns true only with a code claimed. -/
lemma meets_claimFirst : ∀ (records : List (ℕ × RecoveryCode)) (h : List (MfaEvent ι)) (s : MfaStore ι),
    Listed m i records s →
    Meets claims (mfaServer ι) i (fun _ r s => r = .ok true → ∃ n, Redeemed cfg m cleaned i n s)
      (Mfa.claimFirst cfg cleaned records) h s := by
  intro records
  induction records with
  | nil => exact fun h s _ tr s' _ _ _ htrue => by cases htrue
  | cons record records ih =>
      intro h s hl
      have hrest : ∀ {s : MfaStore ι}, Listed m i (record :: records) s → Listed m i records s :=
        fun hl => ⟨hl.1, fun x hx => hl.2 x (List.mem_cons_of_mem record hx)⟩
      rw [Mfa.claimFirst]
      split_ifs with hverify
      · refine Meets.bind claims_compatible (meets_ask (P := Listed m i (record :: records)) ?_) ?_ ?_
        · intro tr s₁ _ hr hI _ _
          exact ⟨codeOnward_effect hI i .now, trivial, hl.rely hr⟩
        · rintro h' now s' ⟨s₁, hl₁, -, -, hr⟩
          have hl' : Listed m i (record :: records) s' :=
            Listed.rely (s := Db.effect i .now s₁) ⟨hl₁.1, hl₁.2⟩ hr
          refine (meets_markUsed hl' hverify).bind claims_compatible (fun h₂ claimed s₂ hQ => ?_)
            fun h₂ e s₂ _ htrue => by cases htrue
          cases claimed
          · exact ih h₂ s₂ (hrest (hQ.2 rfl))
          · intro tr s₃ _ hr' _ _
            obtain ⟨n, hn⟩ := hQ.1 rfl
            exact ⟨n, hn.frame hr'.1⟩
        · rintro h' e s' ⟨_, -, -, he, -⟩
          cases he
      · exact ih h s (hrest hl)

/-! ### Letting a request in -/

/-- The commit by which a request claims code `n` of user `m`. -/
structure AcceptsCode (cfg : Mfa.Settings) (m : ℕ) (cleaned : String) (n : ℕ) (ev : MfaEvent ι) :
    Prop where
  stmt : ev.stmt = .commit
  unused : ∃ r, ev.before.committed codesTable n = some r ∧ r.isUnused m = true
    ∧ cfg.verifyPassword cleaned r.codeHash = true
  spent : (ev.after.committed codesTable n).any RecoveryCode.spent = true

/-- The request has loaded the user, whose authenticator gives the code. -/
def ByTotp (cfg : Mfa.Settings) (m : ℕ) (code : String) (i : ι) (h : List (MfaEvent ι)) : Prop :=
  ∃ ev ∈ h, ev.stmt = .select usersTable m ∧ ∃ user : User,
    ev.before.view i usersTable m = some user ∧ Mfa.verifiesTotp cfg user code = true

/-- The code that a request was given has been found right. -/
def Passed (cfg : Mfa.Settings) (m : ℕ) (code : String) (i : ι) (h : List (MfaEvent ι))
    (s : MfaStore ι) : Prop :=
  ByTotp cfg m code i h ∨ ∃ n, Redeemed cfg m (cfg.clean code) i n s

/-- The request was let in by its code. -/
def LetIn (cfg : Mfa.Settings) (m : ℕ) (code : String) (i : ι) (h : List (MfaEvent ι)) : Prop :=
  ByTotp cfg m code i h ∨ ∃ n, ∃ ev ∈ h, AcceptsCode cfg m (cfg.clean code) n ev

lemma ByTotp.append (ht : ByTotp cfg m code i h) (h' : List (MfaEvent ι)) :
    ByTotp cfg m code i (h ++ h') := by
  obtain ⟨ev, hev, hload⟩ := ht
  exact ⟨ev, List.mem_append_left h' hev, hload⟩

lemma LetIn.append (hin : LetIn cfg m code i h) (h' : List (MfaEvent ι)) :
    LetIn cfg m code i (h ++ h') := by
  rcases hin with ht | ⟨n, ev, hev, hacc⟩
  · exact .inl (ht.append h')
  · exact .inr ⟨n, ev, List.mem_append_left h' hev, hacc⟩

lemma Passed.rely (hp : Passed cfg m code i h s) (hf : Frame i s s') : Passed cfg m code i h s' :=
  hp.imp_right fun ⟨n, hn⟩ => ⟨n, hn.frame hf⟩

/-- The commit of a request that has passed lets it in. -/
lemma Passed.commit (hp : Passed cfg m code i h s) :
    LetIn cfg m code i (h ++ [⟨i, .commit, s, s.commit i⟩]) := by
  rcases hp with ht | ⟨n, r, rc, hd, hspent, hcom, hunused, hverify⟩
  · exact .inl (ht.append _)
  · refine .inr ⟨n, _, List.mem_append_right h List.mem_cons_self, rfl, ⟨rc, hcom, hunused, hverify⟩, ?_⟩
    show (s.view i codesTable n).any RecoveryCode.spent = true
    rw [Db.view_of_own hd]
    exact hspent

variable {α : Type}

/-- A statement that does not end the transaction. -/
def Unended : Sql twoFactor → Prop
  | .commit | .rollback => False
  | _ => True

omit [DecidableEq ι] in
lemma Unended.ne_end (hq : Unended q) : q ≠ .commit ∧ q ≠ .rollback := by
  constructor
  · rintro rfl
    exact hq
  · rintro rfl
    exact hq

/-- Until the transaction ends a request that has passed goes on so. -/
lemma meets_passed {p : MfaTx α} (hp : p.Issues Unended)
    (hpass : Passed cfg m code i h s) :
    Meets claims (mfaServer ι) i (fun h _ s => Passed cfg m code i h s) p h s := by
  refine meets_of_issues hp (fun _ _ _ hJ hr => hJ.rely hr.1) ?_ hpass
  intro tr q h s _ hq hI hJ _ _
  refine ⟨codeOnward_effect hI i q, trivial, ?_⟩
  rcases hJ with ht | ⟨n, hn⟩
  · exact .inl (ht.append _)
  · exact .inr ⟨n, hn.effect hq.ne_end.1 hq.ne_end.2⟩

/-- The check of a code that the authenticator does not give claims a recovery code. -/
lemma meets_verifyFactor {user : User} (hclean : ∀ n r, s.dirty codesTable n ≠ some (i, r))
    (htotp : Mfa.verifiesTotp cfg user code = true → ByTotp cfg m code i h) :
    Meets claims (mfaServer ι) i (fun h r s => r = .ok true → Passed cfg m code i h s)
      (Mfa.verifyFactor cfg m user code) h s := by
  unfold Mfa.verifyFactor Mfa.consumeRecoveryCode
  split_ifs with hok hempty
  · exact fun tr s' _ _ _ _ => .inl (htotp hok)
  · exact fun tr s' _ _ _ hfalse => (by cases hfalse)
  · refine Meets.bind claims_compatible (meets_ask (P := fun s₁ =>
      ∀ n r, s₁.dirty codesTable n ≠ some (i, r)) ?_) ?_ ?_
    · intro tr s₁ _ hr hI _ _
      exact ⟨codeOnward_effect hI i _, trivial, fun n r hd => hclean n r ((hr.1.dirty _ n r).1 hd)⟩
    · rintro h' records s' ⟨s₁, hclean₁, -, hrecords, hr⟩
      obtain rfl := Except.ok.inj hrecords
      have hl : Listed m i (s₁.rows i (.inr (.unused m))) s₁ := by
        refine ⟨hclean₁, fun record hrec => ?_⟩
        obtain ⟨hv, hmatch⟩ := Db.mem_rows.1 (show (record.1, record.2) ∈ _ from hrec)
        rw [Db.view_of_not_own (hclean₁ record.1)] at hv
        exact ⟨record.2, hv, (RecoveryCode.isUnused_eq_true.1 hmatch).1, rfl⟩
      have hclaim : Meets claims (mfaServer ι) i
          (fun _ r s => r = .ok true → ∃ n, Redeemed cfg m (cfg.clean code) i n s)
          (Mfa.claimFirst cfg (cfg.clean code) (s₁.rows i (.inr (.unused m)))) h' s' :=
        meets_claimFirst _ h' s' (hl.rely hr)
      exact hclaim.mono fun _ _ _ hQ htrue => .inr (hQ htrue)
    · rintro h' e s' ⟨_, -, -, he, -⟩
      cases he

/-- The user that a session has loaded. -/
def Loaded (m : ℕ) (i : ι) (user : User) (h : List (MfaEvent ι)) : Prop :=
  ∃ ev ∈ h, ev.stmt = .select usersTable m ∧ ev.before.view i usersTable m = some user

lemma Loaded.byTotp {user : User} (hl : Loaded m i user h)
    (htotp : Mfa.verifiesTotp cfg user code = true) : ByTotp cfg m code i h := by
  obtain ⟨ev, hev, hstmt, hv⟩ := hl
  exact ⟨ev, hev, hstmt, user, hv, htotp⟩

/-- What a session finds out first: the user, before it has written anything. -/
def Found (m : ℕ) (i : ι) (user : User) (h : List (MfaEvent ι)) (s : MfaStore ι) : Prop :=
  Loaded m i user h ∧ ∀ n r, s.dirty codesTable n ≠ some (i, r)

lemma meets_getUser_found (hclean : ∀ n r, s.dirty codesTable n ≠ some (i, r)) :
    Meets claims (mfaServer ι) i (fun h r s => ∀ user, r = .ok (some user) → Found m i user h s)
      (Tx.lift recoveryCodes (getUser m)) h s := by
  show Meets claims _ _ _ (Prog.ask (S := sql twoFactor) (.select usersTable m)) h s
  refine (meets_ask (P := fun s₁ => ∀ n r, s₁.dirty codesTable n ≠ some (i, r)) ?_).mono ?_
  · intro tr s₁ _ hr hI _ _
    exact ⟨codeOnward_effect hI i _, trivial, fun n r hd => hclean n r ((hr.1.dirty _ n r).1 hd)⟩
  · rintro h' r s' ⟨s₁, hclean₁, rfl, rfl, hr⟩ user huser
    refine ⟨⟨_, List.mem_append_right h List.mem_cons_self, rfl, Except.ok.inj huser⟩, ?_⟩
    exact fun n r hd => hclean₁ n r ((hr.1.dirty _ n r).1 hd)

/-- The guard of a request returns the user that the session has loaded. -/
lemma meets_getCurrentUser {token : AccessToken} (hsub : token.sub = m)
    (hclean : ∀ n r, s.dirty codesTable n ≠ some (i, r)) :
    Meets claims (mfaServer ι) i (fun h r s => ∀ user, r = .ok user → Found m i user h s)
      (Tx.lift recoveryCodes (getCurrentUser token)) h s := by
  unfold getCurrentUser
  split_ifs
  · exact fun _ _ _ _ _ user huser => by cases huser
  · subst hsub
    show Meets claims (mfaServer ι) i (fun h r s => ∀ user, r = .ok user → Found token.sub i user h s)
      ((Tx.lift recoveryCodes (getUser token.sub)).bind fun found =>
        Tx.lift recoveryCodes (checkUser token found)) h s
    refine (meets_getUser_found hclean).bind claims_compatible (fun h found s hfound => ?_)
      fun _ e _ _ user huser => by cases huser
    cases found with
    | none => exact fun _ _ _ _ _ user huser => by cases huser
    | some user =>
        have hraise : ∀ e : Exn, Meets claims (mfaServer ι) i
            (fun h r s => ∀ user, r = .ok user → Found token.sub i user h s)
            (.raise e : MfaTx User) h s :=
          fun e _ _ _ _ _ user huser => by cases huser
        have hret : Meets claims (mfaServer ι) i
            (fun h r s => ∀ user, r = .ok user → Found token.sub i user h s)
            (.ret user : MfaTx User) h s := by
          intro tr s' _ hr _ user' huser
          obtain rfl := Except.ok.inj huser
          obtain ⟨hloaded, hclean⟩ := hfound user rfl
          exact ⟨hloaded, fun n r hd => hclean n r ((hr.1.dirty _ n r).1 hd)⟩
        unfold checkUser
        dsimp only
        split_ifs
        · exact hraise _
        · exact hraise _
        · exact hraise _
        · exact hret

lemma unended_flush {userId : ℕ} {known user : User} :
    (Tx.lift recoveryCodes (flush userId known user)).Issues Unended :=
  Prog.issues_translate (issues_flush fun _ => trivial)

/-- Every program keeps the contract. -/
lemma meets_claims (p : MfaTx α) : Meets claims (mfaServer ι) i (fun _ _ _ => True) p h s := by
  refine meets_of_issues p.issues_true (J := fun _ _ => True) (fun _ _ _ _ _ => trivial) ?_ trivial
  exact fun _ _ _ _ _ _ hI _ _ _ => ⟨codeOnward_effect hI i _, trivial, trivial⟩

/-- A result is returned only to a request that is let in. -/
def OnlyLetIn (cfg : Mfa.Settings) (m : ℕ) (code : String) (i : ι) :
    Post (sql twoFactor) ι (MfaStore ι) Exn α :=
  fun h r _ => ∀ a, r = .ok a → LetIn cfg m code i h

lemma onlyLetIn_raise (e : Exn) :
    Meets claims (mfaServer ι) i (OnlyLetIn cfg m code i) (.raise e : MfaTx α) h s :=
  fun _ _ _ _ _ a ha => by cases ha

/-- The commit of a request that has passed. -/
lemma meets_commit_passed (hpass : Passed cfg m code i h s) :
    Meets claims (mfaServer ι) i (OnlyLetIn cfg m code i) (Tx.commit : MfaTx Unit) h s := by
  intro tr s₁ _ hr hI _ _
  exact ⟨codeOnward_effect hI i .commit, trivial, fun _ _ _ _ _ _ _ => (hpass.rely hr.1).commit⟩

/-- A program that has passed goes on to its next part. -/
lemma Meets.passed {β : Type} {p : MfaTx β} {f : β → MfaTx α} (hp : p.Issues Unended)
    (hpass : Passed cfg m code i h s)
    (hf : ∀ h b s, Passed cfg m code i h s →
      Meets claims (mfaServer ι) i (OnlyLetIn cfg m code i) (f b) h s) :
    Meets claims (mfaServer ι) i (OnlyLetIn cfg m code i) (p.bind f) h s :=
  (meets_passed hp hpass).bind claims_compatible hf fun _ e _ _ a ha => by cases ha

lemma meets_register (hpass : Passed cfg m code i h s) (known user : User) :
    Meets claims (mfaServer ι) i (OnlyLetIn cfg m code i) (Mfa.register m known user) h s :=
  Meets.passed unended_flush hpass fun _ _ _ hpass => meets_commit_passed hpass

lemma meets_replace (hpass : Passed cfg m code i h s) (known user : User) (hashes : List String) :
    Meets claims (mfaServer ι) i (OnlyLetIn cfg m code i) (Mfa.replaceCodes m known user hashes) h
      s := by
  have hdelete : (UserRecoveryCodeRepository.deleteAllForUser m).Issues Unended := by
    refine Prog.issues_bind ⟨trivial, fun _ => trivial⟩ fun rows => Prog.issues_tally (fun row => ?_) rows
    exact ⟨trivial, fun _ => trivial⟩
  have hadd : (UserRecoveryCodeRepository.addAll m hashes).Issues Unended := by
    refine Prog.issues_tally (fun codeHash => ?_) hashes
    exact ⟨trivial, fun _ => trivial⟩
  have hrevoke : ∀ now : Time,
      (Tx.lift recoveryCodes (RefreshTokenRepository.revokeAllForUser m now)).Issues Unended :=
    fun now => Prog.issues_translate (issues_revokeAllForUser trivial fun _ => trivial)
  refine Meets.passed unended_flush hpass fun _ _ _ hpass => ?_
  refine Meets.passed hdelete hpass fun _ _ _ hpass => ?_
  refine Meets.passed ⟨trivial, fun _ => trivial⟩ hpass fun _ now _ hpass => ?_
  refine Meets.passed unended_flush hpass fun _ _ _ hpass => ?_
  refine Meets.passed (hrevoke now) hpass fun _ _ _ hpass => ?_
  exact Meets.passed hadd hpass fun _ _ _ hpass => meets_commit_passed hpass

/-- The check of the factor, and what follows when it is right or wrong. -/
lemma meets_checked {user : User} {f : Bool → MfaTx α} (hfound : Found m i user h s)
    (htrue : ∀ h s, Passed cfg m code i h s →
      Meets claims (mfaServer ι) i (OnlyLetIn cfg m code i) (f true) h s)
    (hfalse : ∀ h s, Meets claims (mfaServer ι) i (OnlyLetIn cfg m code i) (f false) h s) :
    Meets claims (mfaServer ι) i (OnlyLetIn cfg m code i)
      ((Mfa.verifyFactor cfg m user code).bind f) h s := by
  refine (meets_verifyFactor hfound.2 hfound.1.byTotp).bind claims_compatible
    (fun h verified s hpass => ?_) fun _ e _ _ a ha => by cases ha
  cases verified
  · exact hfalse h s
  · exact htrue h s (hpass rfl)

/-- `verify_challenge` lets in who gives a right code. -/
lemma meets_verifyLoaded {user : User} (hfound : Found m i user h s) :
    Meets claims (mfaServer ι) i (OnlyLetIn cfg m code i) (Mfa.verifyLoaded cfg m user code) h s := by
  refine Meets.bind claims_compatible (meets_ask (P := fun s₁ => Found m i user h s₁) ?_) ?_ ?_
  · intro tr s₁ _ hr hI _ _
    exact ⟨codeOnward_effect hI i .now, trivial, hfound.1,
      fun n r hd => hfound.2 n r ((hr.1.dirty _ n r).1 hd)⟩
  · rintro h' now s' ⟨s₁, hfound₁, rfl, -, hr⟩
    obtain ⟨ev, hev, hload⟩ := hfound₁.1
    have hfound' : Found m i user (h ++ [⟨i, .now, s₁, Db.effect i .now s₁⟩]) s' :=
      ⟨⟨ev, List.mem_append_left _ hev, hload⟩,
        fun n r hd => hfound₁.2 n r ((hr.1.dirty _ n r).1 hd)⟩
    dsimp only
    split_ifs
    · exact onlyLetIn_raise _
    · refine meets_checked hfound' (fun h s hpass => ?_) fun h s => ?_
      · exact (meets_register hpass _ _).bind claims_compatible
          (fun h _ s hin tr s' _ _ _ _ _ => hin () rfl) fun _ e _ _ a ha => by cases ha
      · exact (meets_claims _).bind claims_compatible (fun _ _ _ _ => onlyLetIn_raise _)
          fun _ e _ _ a ha => by cases ha
  · rintro h' e s' ⟨_, -, -, he, -⟩
    cases he

/-! ### Requests -/

/-- A request that checks a code was let in by it. -/
def MfaRequest.Admitted (cfg : Mfa.Settings) (i : ι) (h : List (MfaEvent ι)) : MfaRequest → Prop
  | activate .. => True
  | disable token code => LetIn cfg token.sub code i h
  | verify challenge code => LetIn cfg challenge.sub code i h

lemma MfaRequest.Admitted.append {r : MfaRequest} (hr : r.Admitted cfg i h)
    (h' : List (MfaEvent ι)) : r.Admitted cfg i (h ++ h') := by
  cases r with
  | activate => trivial
  | disable token code => exact LetIn.append hr h'
  | verify challenge code => exact LetIn.append hr h'

/-- `verify_challenge` lets in who gives a right code. -/
lemma meets_verifyChallenge {challenge : AccessToken} (hsub : challenge.sub = m)
    (hclean : ∀ n r, s.dirty codesTable n ≠ some (i, r)) :
    Meets claims (mfaServer ι) i (OnlyLetIn cfg m code i) (Mfa.verifyChallenge cfg challenge code) h
      s := by
  subst hsub
  unfold Mfa.verifyChallenge
  split_ifs
  · exact onlyLetIn_raise _
  · exact onlyLetIn_raise _
  · refine (meets_getUser_found hclean).bind claims_compatible (fun h found s hfound => ?_)
      fun _ e _ _ a ha => by cases ha
    cases found with
    | none => exact onlyLetIn_raise _
    | some user =>
        rw [Option.filter_some]
        split_ifs
        · exact meets_verifyLoaded (hfound user rfl)
        · exact onlyLetIn_raise _

/-- `disable` is done for who gives a right code. -/
lemma meets_disableMfa {user : User} (hfound : Found m i user h s) :
    Meets claims (mfaServer ι) i (OnlyLetIn cfg m code i) (Mfa.disable cfg m user code) h s := by
  unfold Mfa.disable
  split_ifs
  · exact onlyLetIn_raise _
  · exact onlyLetIn_raise _
  · exact meets_checked hfound (fun h s hpass => meets_replace hpass _ _ _)
      fun _ _ => onlyLetIn_raise _

/-- **A request that checks a code is answered only when it was let in.** -/
theorem MfaRequest.meets_admitted (r : MfaRequest)
    (hclean : ∀ n r, s.dirty codesTable n ≠ some (i, r)) :
    Meets claims (mfaServer ι) i (fun h res _ => ∀ a, res = .ok a → r.Admitted cfg i h) (r.run cfg) h
      s := by
  have hbody : Meets claims (mfaServer ι) i (fun h res _ => ∀ a, res = .ok a → r.Admitted cfg i h)
      (r.body cfg) h s := by
    cases r with
    | activate token code codes => exact (meets_claims _).mono fun _ _ _ _ _ _ => trivial
    | disable token code =>
        refine (meets_getCurrentUser rfl hclean).bind claims_compatible (fun h user s hfound => ?_)
          fun _ e _ _ a ha => by cases ha
        refine (meets_disableMfa (hfound user rfl)).bind claims_compatible
          (fun h _ s hin tr s' _ _ _ _ _ => ?_) fun _ e _ _ a ha => by cases ha
        exact hin () rfl
    | verify challenge code =>
        refine (meets_verifyChallenge rfl hclean).bind claims_compatible
          (fun h user s hin tr s' _ _ _ _ _ => ?_) fun _ e _ _ a ha => by cases ha
        exact hin user rfl
  refine Meets.withSession claims_compatible hbody ?_
  intro h res s tr s' hQ _ _ hI _
  exact ⟨codeOnward_effect hI i .rollback, trivial, fun _ _ a ha => (hQ a ha).append _⟩

end Claims

section Runs

variable {ι : Type} [DecidableEq ι] {cfg : Mfa.Settings} {reqs : ι → MfaRequest} {m : ℕ}
  {s : MfaStore ι}

/-- A code is spent by one commit at most. -/
lemma acceptsCode_unique {c : Pool (sql twoFactor) ι (MfaStore ι) Exn MfaAnswer} (hs : s.Settled)
    (hc : Pool.Reach (mfaServer ι) (.start (fun i => (reqs i).run cfg) s) c) {n : ℕ}
    {cleaned cleaned' : String} {ev ev' : MfaEvent ι} (hev : ev ∈ c.trace) (hev' : ev' ∈ c.trace)
    (hacc : AcceptsCode cfg m cleaned n ev) (hacc' : AcceptsCode cfg m cleaned' n ev') : ev = ev' := by
  have hinv := Pool.Reach.issues (fun _ _ => True) (fun s : MfaStore ι => Ahead CodeOnward s)
    (fun i q s _ _ hI => codeOnward_effect hI i q) (fun _ => trivial)
    (fun i => Prog.issues_true _) (hs.ahead _) hc
  have hkeep : ∀ ev ∈ c.trace, (ev.before.committed codesTable n).any RecoveryCode.spent = true →
      (ev.after.committed codesTable n).any RecoveryCode.spent = true := by
    intro ev hev hspent
    obtain ⟨-, hahead, -, -, hafter⟩ := hinv.2 ev hev
    obtain ⟨r, hr, hrspent⟩ := (Option.any_eq_true _ _).1 hspent
    obtain ⟨r', hr', hon⟩ := codesMoved_effect hahead ev.pid ev.stmt n r hr
    rw [hafter]
    exact (Option.any_eq_true _ _).2 ⟨r', hr', hon.spent hrspent⟩
  have hunspent : ∀ {cleaned : String} {ev : MfaEvent ι}, AcceptsCode cfg m cleaned n ev →
      ¬ (ev.before.committed codesTable n).any RecoveryCode.spent = true := by
    intro cleaned ev hacc
    obtain ⟨r, hr, hunused, -⟩ := hacc.unused
    rw [hr]
    intro hspent
    have hfalse : RecoveryCode.spent r = false := RecoveryCode.not_spent_of_isUnused hunused
    exact absurd (hspent.symm.trans hfalse) (by simp)
  exact Pool.flip_unique
    (P := fun s : MfaStore ι => (s.committed codesTable n).any RecoveryCode.spent = true)
    (hc.flips_le_one hkeep) hev hev' (hunspent hacc) hacc.spent (hunspent hacc') hacc'.spent

/-- **Recovery codes are used once, and belong to one enrolment.** -/
theorem recovery_codes_one_time (cfg : Mfa.Settings) (reqs : ι → MfaRequest) (m : ℕ)
    (s : MfaStore ι) (hs : s.Settled)
    (hbefore : ∀ n r, s.committed codesTable n = some r → r.isUnused m = true → MfaOn m s)
    (c : Pool (sql twoFactor) ι (MfaStore ι) Exn MfaAnswer)
    (hc : Pool.Reach (mfaServer ι) (.start (fun i => (reqs i).run cfg) s) c) :
    Enrolment reqs m cfg s c.trace c.store
      ∧ (∀ i, c.returned i = true → (reqs i).Admitted cfg i (own i c.trace))
      ∧ ∀ n cleaned cleaned' ev ev', ev ∈ c.trace → ev' ∈ c.trace → AcceptsCode cfg m cleaned n ev →
          AcceptsCode cfg m cleaned' n ev' → ev = ev' := by
  refine ⟨enrolment_of_reach hs hbefore hc, fun i hret => ?_, ?_⟩
  · obtain ⟨a, ha⟩ := Pool.returned_iff.1 hret
    have hclean : ∀ i n r, s.dirty codesTable n ≠ some (i, r) := by
      intro i n r hd
      rw [hs] at hd
      cases hd
    exact hc.post claims_compatible (hs.ahead _)
      (fun i => MfaRequest.meets_admitted (reqs i) (hclean i))
      (along_iff_forall_mem.2 fun _ _ => trivial) ha rfl a rfl
  · exact fun n cleaned cleaned' ev ev' hev hev' => acceptsCode_unique hs hc hev hev'

/-- Codes in the clear. -/
def plainCodes : Mfa.Settings where
  refreshTokenExpireDays := 30
  mfaEnabled := true
  mfaMaxAttempts := 5
  hashPassword := id
  verifyPassword := fun code codeHash => code = codeHash
  decryptMfaSecret := some
  verifyCode := fun secret code => code = secret
  clean := id

/-- One user, who has started the enrollment. -/
def enrolling : MfaStore (Fin 3) :=
  Db.init (S := twoFactor) (fun t n => match t, n with
    | .inl .users, 0 => some { someUser .member true with mfaSecretEnc := some "123456" }
    | _, _ => none) 1 (.still 0) fun t n hn => by
      match n with
      | 0 => omega
      | n + 1 => rcases t with (_ | _) | _ <;> rfl

/-- The user activates the second factor, and both of two challenges give the same recovery code. -/
def oneCodeTwice : Fin 3 → MfaRequest
  | 0 => .activate ⟨0, 0, none⟩ "123456" ["AAAA-1111", "BBBB-2222"]
  | 1 => .verify ⟨0, 0, some "mfa"⟩ "AAAA-1111"
  | 2 => .verify ⟨0, 0, some "mfa"⟩ "AAAA-1111"

/-- Both challenges list the code, and the one that claims it is let in; the other one is not. -/
theorem recovery_codes_one_time_twice :
    ∃ c : Pool (sql twoFactor) (Fin 3) (MfaStore (Fin 3)) Exn MfaAnswer,
      Pool.Reach (mfaServer (Fin 3)) (.start (fun i => (oneCodeTwice i).run plainCodes) enrolling) c
        ∧ c.returned 1 = false ∧ c.returned 2 = true
        ∧ Enrolment oneCodeTwice 0 plainCodes enrolling c.trace c.store
        ∧ LetIn plainCodes 0 "AAAA-1111" 2 (own 2 c.trace) := by
  have hrun : ((Pool.start (fun i => (oneCodeTwice i).run plainCodes) enrolling).run
      (mfaServer (Fin 3)) (List.replicate 10 (.step 0) ++ List.replicate 4 (.step 1)
        ++ List.replicate 7 (.step 2) ++ List.replicate 4 (.step 1))).any fun c =>
          !c.returned 1 && c.returned 2 := by
    decide +kernel
  obtain ⟨c, hc, hP⟩ := Pool.exists_of_run hrun
  obtain ⟨hone, htwo⟩ := Bool.and_eq_true_iff.mp hP
  have hs : (enrolling : MfaStore (Fin 3)).Settled := Db.settled_init _ _ _ _
  have hbefore : ∀ n r, (enrolling : MfaStore (Fin 3)).committed codesTable n = some r →
      r.isUnused 0 = true → MfaOn 0 (enrolling : MfaStore (Fin 3)) := fun n r hr => nomatch hr
  have hall := recovery_codes_one_time plainCodes oneCodeTwice 0 enrolling hs hbefore c hc
  exact ⟨c, hc, by simpa using hone, htwo, hall.1, hall.2.1 2 htwo⟩

end Runs

end Accounts
