import AgencyOS.Accounts.RecoveryCodes
import AgencyOS.Txn.Guarded

/-!
The recovery codes of a user belong to one enrolment.

An operation that replaces the codes of a user has written the user before, and holds its lock until the
commit; so the codes that come in are those of one session, which has found and deleted all others.

* `codeSet`: the unused codes of a user, guarded by its row;
* `enroller`, `Enrolment`: the last activation that was committed, and the unused codes as its codes;
* `Harmless`, `Modest`: the statements that bring in no code, and what their session has written;
* `Switched`, `SeesOnly`, `Issuing`: a session that replaces the codes, and what it sees of them;
* `enrolments`: the contract, and `MfaRequest.meets_enrolments`;
* `enrolment_of_reach`: **at every point the unused codes of a user are codes of the last activation that
  was committed, and there are none without the second factor**.
-/

namespace Accounts

open Txn Automation

abbrev MfaEvent (ι : Type) : Type := Event (sql twoFactor) ι (MfaStore ι)

abbrev mfaServer (ι : Type) [DecidableEq ι] : Server (sql twoFactor) ι (MfaStore ι) :=
  server twoFactor ι

/-- The unused codes of user `m`, guarded by the user. -/
def codeSet (m : ℕ) : Guardian twoFactor where
  table := usersTable
  row := m
  inside
    | .inl _ => fun _ => false
    | .inr _ => fun r : RecoveryCode => r.isUnused m

namespace RecoveryCode

variable {m : ℕ} {r : RecoveryCode}

lemma isUnused_eq_true :
    r.isUnused m = true ↔ r.userId = m ∧ r.usedAt = none ∧ r.deleted = false := by
  simp [isUnused, and_assoc]

/-- No `UPDATE` leaves a code unused. -/
lemma isUnused_act (u : CodeUpdate) : (u.act.set r).isUnused m = false := by
  cases u with
  | markUsed now => simp [CodeUpdate.act, markUsed, isUnused]
  | delete userId => simp [CodeUpdate.act, delete, isUnused]

/-- A row whose deletion was tried is deleted, or no code of the user. -/
lemma isUnused_step_delete (r : RecoveryCode) : ((delete m).step r).isUnused m = false := by
  by_cases hg : (delete m).guard r = true
  · rw [GuardedUpdate.step_of_guard hg]
    exact isUnused_act (.delete m)
  · rw [GuardedUpdate.step_of_not_guard (by simpa using hg)]
    by_contra hunused
    obtain ⟨huser, -, hdeleted⟩ := isUnused_eq_true.1 (by simpa using hunused)
    exact hg (by simp [delete, huser, hdeleted])

end RecoveryCode

section Enrolment

variable {ι : Type} [DecidableEq ι] (reqs : ι → MfaRequest) (m : ℕ)

/-- The request activates the second factor of user `m`. -/
def MfaRequest.activates : MfaRequest → Bool
  | activate token _ _ => token.sub = m
  | _ => false

/-- The recovery codes that the request draws. -/
def MfaRequest.drawn : MfaRequest → List String
  | activate _ _ codes => codes
  | _ => []

/-- The session of the last activation that was committed. -/
def enroller (tr : List (MfaEvent ι)) : Option ι :=
  ((tr.filter fun ev => decide (ev.stmt = .commit) && (reqs ev.pid).activates m).getLast?).map (·.pid)

/-- The code `n` with that hash was inserted by session `i`. -/
def InsertedBy (i : ι) (n : ℕ) (codeHash : String) (tr : List (MfaEvent ι)) : Prop :=
  ∃ ev ∈ tr, ev.pid = i ∧ ev.stmt = .insert (.inr ⟨m, codeHash⟩) ∧ ev.before.fresh = n

/-- The second factor of user `m` is on. -/
def MfaOn (s : MfaStore ι) : Prop := (s.committed usersTable m).any (·.mfaEnabled) = true

/-- Code `n` was issued by the last activation that was committed, or it was there before. -/
def IssuedLast (cfg : Mfa.Settings) (before : MfaStore ι) (tr : List (MfaEvent ι)) (n : ℕ)
    (codeHash : String) : Prop :=
  match enroller reqs m tr with
  | none => (before.committed codesTable n).any (·.isUnused m) = true
  | some i => InsertedBy m i n codeHash tr ∧ codeHash ∈ (reqs i).drawn.map cfg.hashPassword

/-- The unused codes are those of one enrolment, and the second factor is on if there are any. -/
def Enrolment (cfg : Mfa.Settings) (before : MfaStore ι) (tr : List (MfaEvent ι))
    (s : MfaStore ι) : Prop :=
  ∀ n r, s.committed codesTable n = some r → r.isUnused m = true →
    MfaOn m s ∧ IssuedLast reqs m cfg before tr n r.codeHash

variable {reqs m} {cfg : Mfa.Settings} {i j : ι} {s s' before : MfaStore ι} {tr : List (MfaEvent ι)}
  {h : List (MfaEvent ι)} {q : Sql twoFactor}

omit [DecidableEq ι] in
lemma enroller_snoc (tr : List (MfaEvent ι)) (ev : MfaEvent ι) :
    enroller reqs m (tr ++ [ev])
      = if ev.stmt = .commit ∧ (reqs ev.pid).activates m = true then some ev.pid
        else enroller reqs m tr := by
  rw [enroller, List.filter_append]
  split_ifs with hev
  · simp [hev.1, hev.2]
  · have hnone : ([ev].filter fun ev => decide (ev.stmt = .commit) && (reqs ev.pid).activates m)
        = [] := by
      simpa using hev
    rw [hnone, List.append_nil]
    rfl

omit [DecidableEq ι] in
lemma InsertedBy.snoc {n : ℕ} {codeHash : String} (hins : InsertedBy m i n codeHash tr)
    (ev : MfaEvent ι) : InsertedBy m i n codeHash (tr ++ [ev]) := by
  obtain ⟨ev', hmem, hev'⟩ := hins
  exact ⟨ev', List.mem_append_left _ hmem, hev'⟩

omit [DecidableEq ι] in
/-- What was issued last stays so until another activation is committed. -/
lemma IssuedLast.snoc {n : ℕ} {codeHash : String} (hlast : IssuedLast reqs m cfg before tr n codeHash)
    {ev : MfaEvent ι} (hev : ¬ (ev.stmt = .commit ∧ (reqs ev.pid).activates m = true)) :
    IssuedLast reqs m cfg before (tr ++ [ev]) n codeHash := by
  rw [IssuedLast, enroller_snoc, if_neg hev]
  rw [IssuedLast] at hlast
  split at hlast
  · exact hlast
  · exact ⟨hlast.1.snoc ev, hlast.2⟩

/-! ### Harmless statements -/

/-- A statement that brings in no code of user `m`, does not switch its second factor, and commits no
activation. -/
def Harmless (r : MfaRequest) (m : ℕ) : Sql twoFactor → Prop
  | .update (.inl (.flush known user)) n => n = m → user.mfaEnabled = known.mfaEnabled
  | .insert (.inr x) => x.userId ≠ m
  | .commit => r.activates m = false
  | _ => True

/-- Session `i` has not brought in a code of user `m`, nor switched its second factor. -/
structure Modest (m : ℕ) (i : ι) (s : MfaStore ι) : Prop where
  codes : ∀ n r, s.dirty codesTable n = some (i, r) → r.isUnused m = false
  user : ∀ u, s.dirty usersTable m = some (i, u) →
    (s.committed usersTable m).any (·.mfaEnabled = u.mfaEnabled) = true

lemma Modest.frame (hmod : Modest m i s) (hf : Frame i s s') : Modest m i s' where
  codes := fun n r hd => hmod.codes n r ((hf.dirty _ _ r).1 hd)
  user := fun u hd => by
    have hd₀ := (hf.dirty _ _ u).1 hd
    rw [hf.committed _ _ u hd₀]
    exact hmod.user u hd₀

omit [DecidableEq ι] in
lemma modest_of_settled (hs : s.Settled) : Modest m i s where
  codes := fun n r hd => by
    rw [hs] at hd
    cases hd
  user := fun u hd => by
    rw [hs] at hd
    cases hd

omit [DecidableEq ι] in
lemma flush_mfaEnabled {known user r : User} (hsame : user.mfaEnabled = known.mfaEnabled) :
    ((User.flush known user).set r).mfaEnabled = r.mfaEnabled := if_pos hsame

/-- What a modest session sees of the user says of the second factor what is committed. -/
lemma Modest.view_user (hmod : Modest m i s) {u : User} (hv : s.view i usersTable m = some u) :
    (s.committed usersTable m).any (·.mfaEnabled = u.mfaEnabled) = true := by
  rcases s.view_cases i usersTable m with ⟨u', hd, hv'⟩ | ⟨-, hv'⟩
  · obtain rfl := Option.some.inj (hv.symm.trans hv')
    exact hmod.user u hd
  · rw [← hv', hv]
    simp

/-- A code that a modest session sees unused is committed so. -/
lemma Modest.view_code (hmod : Modest m i s) {n : ℕ} {r : RecoveryCode}
    (hv : s.view i codesTable n = some r) (hr : r.isUnused m = true) :
    s.committed codesTable n = some r := by
  rcases s.view_cases i codesTable n with ⟨r', hd, hv'⟩ | ⟨-, hv'⟩
  · obtain rfl := Option.some.inj (hv.symm.trans hv')
    rw [hmod.codes n r hd] at hr
    cases hr
  · exact hv'.symm.trans hv

/-- A harmless statement leaves its session modest. -/
lemma Modest.effect (hmod : Modest m i s) {r : MfaRequest} (hq : Harmless r m q) :
    Modest m i (Db.effect i q s) where
  codes := by
    intro n row hd
    rcases Db.dirty_effect_cases hd with
      ⟨hold, -⟩ | ⟨-, ⟨u, r₀, rfl, -, -, heq⟩ | ⟨x, rfl, -, heq⟩⟩
    · exact hmod.codes n row hold
    · cases u with
      | inl u => cases heq
      | inr u =>
          cases heq
          exact RecoveryCode.isUnused_act u
    · cases x with
      | inl x => cases heq
      | inr x =>
          cases heq
          simp [NewCode.row, RecoveryCode.isUnused, show x.userId ≠ m from hq]
  user := by
    intro user hd
    rcases Db.dirty_effect_cases hd with
      ⟨hold, hend⟩ | ⟨-, ⟨u, r₀, rfl, hv, -, heq⟩ | ⟨x, rfl, -, heq⟩⟩
    · rw [Db.committed_effect fun hc => hend (.inl hc) rfl]
      exact hmod.user user hold
    · rw [Db.committed_effect (by simp)]
      cases u with
      | inl u =>
          cases u with
          | flush known new =>
              cases heq
              have hseen := hmod.view_user hv
              have hset : ((User.flush known new).set r₀).mfaEnabled = r₀.mfaEnabled :=
                flush_mfaEnabled (hq rfl)
              show (s.committed usersTable m).any
                (·.mfaEnabled = ((User.flush known new).set r₀).mfaEnabled) = true
              rwa [hset]
          | _ => cases heq
      | inr u => cases heq
    · cases x with
      | inl x => cases heq
      | inr x => cases heq

/-- Without a commit the committed codes are as before. -/
lemma Enrolment.effect (henr : Enrolment reqs m cfg before tr s) (hq : q ≠ .commit) :
    Enrolment reqs m cfg before (tr ++ [⟨i, q, s, Db.effect i q s⟩]) (Db.effect i q s) := by
  intro n r hc hr
  rw [Db.committed_effect hq] at hc
  obtain ⟨hon, hlast⟩ := henr n r hc hr
  refine ⟨?_, hlast.snoc fun hev => hq hev.1⟩
  rw [MfaOn, Db.committed_effect hq]
  exact hon

/-- The commit of a modest session leaves the enrolment as it is. -/
lemma Enrolment.commit (henr : Enrolment reqs m cfg before tr s) (hmod : Modest m i s)
    (hi : (reqs i).activates m = false) :
    Enrolment reqs m cfg before (tr ++ [⟨i, .commit, s, s.commit i⟩]) (s.commit i) := by
  intro n r hc hr
  obtain ⟨hon, hlast⟩ := henr n r (hmod.view_code hc hr) hr
  refine ⟨?_, hlast.snoc fun hev => by simp [hi] at hev⟩
  rw [MfaOn, Db.committed_commit]
  obtain ⟨rc, hrc, hon⟩ := (Option.any_eq_true _ _).1 hon
  rcases s.view_cases i usersTable m with ⟨u, hd, hv⟩ | ⟨-, hv⟩
  · have hsame := hmod.user u hd
    rw [hrc] at hsame
    have heq : rc.mfaEnabled = u.mfaEnabled := of_decide_eq_true hsame
    rw [hv, Option.any_some, ← heq]
    exact hon
  · rw [hv, hrc]
    exact hon

/-! ### The contract -/

/-- A statement keeps the set guarded, if a session that inserts codes of the user holds its lock. -/
lemma guarded_effect (hg : Guarded (codeSet m) s)
    (hinsert : ∀ x, q = .insert (.inr x) → x.userId = m → (codeSet m).HeldBy i s) :
    Guarded (codeSet m) (Db.effect i q s) := by
  refine hg.effect (fun u n r _ hin => ?_) fun x hx hin => ?_
  · cases u with
    | inl u => cases hin
    | inr u =>
        have hunused : (u.act.set r).isUnused m = false := RecoveryCode.isUnused_act u
        exact absurd (hunused.symm.trans hin) (by simp)
  · cases x with
    | inl x => cases hin
    | inr x => exact hinsert x hx (RecoveryCode.isUnused_eq_true.1 hin).1

variable (reqs m cfg before) in
/-- Codes come in under the lock of the user, and the unused ones are those of one enrolment. -/
def enrolments : Contract (sql twoFactor) ι (MfaStore ι) where
  inv := fun tr s => Guarded (codeSet m) s ∧ Enrolment reqs m cfg before tr s
  assume := fun _ _ => True
  guar := fun _ _ _ => True
  rely := fun i _ s s' => Frame i s s' ∧ ((codeSet m).HeldBy i s → Unextended (codeSet m) s s')

lemma enrolments_compatible : (enrolments reqs m cfg before).Compatible (mfaServer ι) where
  refl := fun i _ s => ⟨.refl i s, fun _ => .refl _ s⟩
  trans := fun i _ s₁ s₂ s₃ h h' =>
    ⟨h.1.trans h'.1, fun hheld => (h.2 hheld).trans (h'.2 (hheld.frame h.1))⟩
  step := by
    intro tr ev j hj hI _ _ hafter _
    rw [hafter]
    exact ⟨frame_effect hj.symm ev.stmt ev.before,
      fun hheld => hI.1.unextended hheld hj.symm ev.stmt⟩
  hangup := by
    intro tr i s hI _ _
    have hguard : Guarded (codeSet m) (Db.effect i .rollback s) :=
      guarded_effect hI.1 fun _ hq => by cases hq
    exact ⟨⟨hguard, hI.2.effect (q := .rollback) (by simp)⟩, trivial⟩

/-- A harmless statement of a modest session keeps the contract. -/
lemma enrolments_harmless (hI : (enrolments reqs m cfg before).inv tr s) (hmod : Modest m i s)
    (hq : Harmless (reqs i) m q) :
    (enrolments reqs m cfg before).inv (tr ++ [⟨i, q, s, Db.effect i q s⟩]) (Db.effect i q s) := by
  refine ⟨guarded_effect hI.1 ?_, ?_⟩
  · rintro x rfl hx
    exact absurd hx hq
  · by_cases hc : q = .commit
    · subst hc
      exact hI.2.commit hmod hq
    · exact hI.2.effect hc

variable {α : Type}

/-- A program of harmless statements. -/
lemma meets_harmless {p : MfaTx α} (hp : p.Issues (Harmless (reqs i) m)) (hmod : Modest m i s) :
    Meets (enrolments reqs m cfg before) (mfaServer ι) i (fun _ _ s => Modest m i s) p h s := by
  refine meets_of_issues hp (fun _ _ _ hJ hr => hJ.frame hr.1) ?_ hmod
  intro tr q h s _ hq hI hJ _ _
  exact ⟨enrolments_harmless hI hJ hq, trivial, hJ.effect hq⟩

/-! ### Replacing the codes -/

/-- Session `i` has switched the second factor of user `m`. -/
def Switched (m : ℕ) (enabled : Bool) (i : ι) (s : MfaStore ι) : Prop :=
  ∃ u, s.dirty usersTable m = some (i, u) ∧ u.mfaEnabled = enabled

/-- A statement of a session that has switched the second factor: it neither ends the transaction nor
switches again. -/
def Settling (m : ℕ) : Sql twoFactor → Prop
  | .update (.inl (.flush known user)) n => n = m → user.mfaEnabled = known.mfaEnabled
  | .commit | .rollback => False
  | _ => True

variable {enabled : Bool}

omit [DecidableEq ι] in
lemma Switched.heldBy (hsw : Switched m enabled i s) : (codeSet m).HeldBy i s := by
  obtain ⟨u, hd, -⟩ := hsw
  exact ⟨u, hd⟩

lemma Switched.frame (hsw : Switched m enabled i s) (hf : Frame i s s') : Switched m enabled i s' := by
  obtain ⟨u, hd, hu⟩ := hsw
  exact ⟨u, (hf.dirty _ _ u).2 hd, hu⟩

lemma Settling.ne_end (hq : Settling m q) : q ≠ .commit ∧ q ≠ .rollback := by
  constructor
  · rintro rfl
    exact hq
  · rintro rfl
    exact hq

lemma Switched.effect (hsw : Switched m enabled i s) (hq : Settling m q) :
    Switched m enabled i (Db.effect i q s) := by
  obtain ⟨u, hd, hu⟩ := hsw
  obtain ⟨u', hd', hcases⟩ := Db.dirty_effect_own hd hq.ne_end.1 hq.ne_end.2
  refine ⟨u', hd', ?_⟩
  rcases hcases with rfl | ⟨p, r₀, rfl, hrow, -, hset⟩
  · exact hu
  · cases p with
    | inl p =>
        cases p with
        | flush known new =>
            cases hrow
            cases hset
            exact (flush_mfaEnabled (hq rfl)).trans hu
        | _ => cases hrow
    | inr p => cases hrow

/-- Every unused code that session `i` sees of user `m` satisfies `P`. -/
def SeesOnly (m : ℕ) (i : ι) (P : ℕ → RecoveryCode → Prop) (s : MfaStore ι) : Prop :=
  ∀ n r, s.view i codesTable n = some r → r.isUnused m = true → P n r

variable {P P' : ℕ → RecoveryCode → Prop}

lemma SeesOnly.mono (hsees : SeesOnly m i P s) (hP : ∀ n r, P n r → P' n r) : SeesOnly m i P' s :=
  fun n r hv hr => hP n r (hsees n r hv hr)

/-- What comes in is the work of the holder of the lock, who goes on seeing the same codes. -/
lemma SeesOnly.rely {P : ℕ → Prop} (hsees : SeesOnly m i (fun n _ => P n) s)
    (hsw : Switched m enabled i s) (hr : (enrolments reqs m cfg before).rely i h s s') :
    SeesOnly m i (fun n _ => P n) s' := by
  intro n r hv hunused
  obtain ⟨r', hv', hr'⟩ := (Option.any_eq_true _ _).1 ((hr.2 hsw.heldBy).view hr.1 hv hunused)
  exact hsees n r' hv' hr'

/-- A statement that writes no code leaves what is seen of the codes. -/
def NoCodes : Sql twoFactor → Prop
  | .update (.inr _) _ | .insert (.inr _) | .rollback => False
  | _ => True

lemma view_codes_effect {n : ℕ} (hq : NoCodes q) :
    (Db.effect i q s).view i codesTable n = s.view i codesTable n := by
  refine Db.view_effect_of_ne ?_ ?_ ?_
  · rintro rfl
    exact hq
  · rintro u k rfl ⟨ht, -⟩
    cases u with
    | inl u => cases ht
    | inr u => exact hq
  · rintro x rfl ⟨ht, -⟩
    cases x with
    | inl x => cases ht
    | inr x => exact hq

lemma SeesOnly.effect (hsees : SeesOnly m i P s) (hq : NoCodes q) :
    SeesOnly m i P (Db.effect i q s) := by
  intro n r hv hr
  rw [view_codes_effect hq] at hv
  exact hsees n r hv hr

/-- A settling statement that brings in no code keeps the contract. -/
lemma enrolments_settling (hI : (enrolments reqs m cfg before).inv tr s) (hq : Settling m q)
    (hinsert : ∀ x, q = .insert (.inr x) → (codeSet m).HeldBy i s) :
    (enrolments reqs m cfg before).inv (tr ++ [⟨i, q, s, Db.effect i q s⟩]) (Db.effect i q s) :=
  ⟨guarded_effect hI.1 fun x hx _ => hinsert x hx, hI.2.effect hq.ne_end.1⟩

/-- A flush of a changed user is one `UPDATE`. -/
lemma lift_flush {known user : User} (hne : user ≠ known) :
    Tx.lift recoveryCodes (flush m known user)
      = Prog.bind (Prog.ask (S := sql twoFactor) (.update (.inl (.flush known user)) m))
          fun row : Option User =>
            match row with
            | none => .raise (.other "StaleDataError")
            | some _ => .ret () := by
  unfold flush
  rw [if_neg hne]
  refine congrArg (Prog.call (S := sql twoFactor) _) (funext fun row => ?_)
  cases row <;> rfl

/-- The flush by which the second factor is switched takes the lock of the user. -/
lemma meets_switch {known user : User} (hne : user.mfaEnabled ≠ known.mfaEnabled) :
    Meets (enrolments reqs m cfg before) (mfaServer ι) i
      (fun _ r s => ∀ a, r = .ok a → Switched m user.mfaEnabled i s)
      (Tx.lift recoveryCodes (flush m known user)) h s := by
  rw [lift_flush fun heq => hne (congrArg User.mfaEnabled heq)]
  refine Meets.bind enrolments_compatible (meets_ask (P := fun _ => True) ?_) ?_ ?_
  · intro tr s₁ _ _ hI _ _
    have hguard : Guarded (codeSet m) (Db.effect i (.update (.inl (.flush known user)) m) s₁) :=
      guarded_effect hI.1 fun _ hq => by cases hq
    exact ⟨⟨hguard, hI.2.effect (by simp)⟩, trivial, trivial⟩
  · rintro h' row s' ⟨s₁, -, -, hrow, hr⟩
    have hw : s₁.written (S := twoFactor) i (.inl (.flush known user)) m = row :=
      (Except.ok.inj hrow).symm
    cases row with
    | none => exact fun _ _ _ _ _ _ ha => by cases ha
    | some u =>
        intro tr s₂ _ hr' _ a _
        obtain ⟨-, u₀, -, -, hset⟩ := Db.written_eq_some.1 hw
        have henabled : u.mfaEnabled = user.mfaEnabled := by
          rw [← hset]
          exact if_neg hne
        have hsw : Switched m user.mfaEnabled i
            (Db.effect i (.update (.inl (.flush known user)) m) s₁) :=
          ⟨u, Db.dirty_update hw, henabled⟩
        exact (hsw.frame hr.1).frame hr'.1
  · rintro h' e s' ⟨_, -, -, he, -⟩
    cases he

/-- Of a row whose deletion was tried no unused code is left. -/
lemma SeesOnly.delete {k : ℕ} {xs : List ℕ} (hsees : SeesOnly m i (fun n _ => n ∈ k :: xs) s)
    (hready : Db.ready i (.update (S := twoFactor) (.inr (.delete m)) k) s = true) :
    SeesOnly m i (fun n _ => n ∈ xs) (Db.effect i (.update (.inr (.delete m)) k) s) := by
  intro n r hv hr
  by_cases hn : n = k
  · subst hn
    rw [Db.view_update hready] at hv
    obtain ⟨r₀, -, rfl⟩ := Option.map_eq_some_iff.1 hv
    have hstep : ((RecoveryCode.delete m).step r₀).isUnused m = false :=
      RecoveryCode.isUnused_step_delete r₀
    exact absurd (hstep.symm.trans hr) (by simp)
  · rw [Db.view_effect_of_ne (by simp) ?_ (by simp)] at hv
    · exact (List.mem_cons.1 (hsees n r hv hr)).resolve_left hn
    · rintro u k' heq ⟨-, rfl⟩
      exact hn (Sql.update.inj heq).2.symm

/-- The deletion of the codes leaves none that the session sees unused. -/
lemma meets_deleteAllForUser (hsw : Switched m enabled i s) :
    Meets (enrolments reqs m cfg before) (mfaServer ι) i
      (fun _ _ s => Switched m enabled i s ∧ SeesOnly m i (fun _ _ => False) s)
      (UserRecoveryCodeRepository.deleteAllForUser m) h s := by
  refine Meets.bind enrolments_compatible (meets_ask (P := Switched m enabled i) ?_) ?_ ?_
  · intro tr s₁ _ hr hI _ _
    have hsw₁ := hsw.frame hr.1
    exact ⟨enrolments_settling (q := .scan (.inr (.ofUser m))) hI trivial (by simp), trivial, hsw₁⟩
  · rintro h' rows s' ⟨s₁, hsw₁, -, hrows, hr⟩
    obtain rfl := Except.ok.inj hrows
    have hfound : SeesOnly m i (fun n _ => n ∈ (s₁.rows i (.inr (.ofUser m))).map Prod.fst) s₁ := by
      intro n r hv hunused
      obtain ⟨huser, -, hdeleted⟩ := RecoveryCode.isUnused_eq_true.1 hunused
      have hmatch : CodeQuery.matching (.ofUser m) r = true := by
        simp [CodeQuery.matching, huser, hdeleted]
      exact List.mem_map.2 ⟨(n, r), Db.mem_rows.2 ⟨hv, hmatch⟩, rfl⟩
    refine Meets.tally enrolments_compatible
      (J := fun xs _ s => Switched m enabled i s ∧ SeesOnly m i (fun n _ => n ∈ xs.map Prod.fst) s)
      ?_ ?_ ?_ _ ⟨hsw₁.frame hr.1, SeesOnly.rely hfound hsw₁ hr⟩
    · exact fun xs h s s' hJ hr => ⟨hJ.1.frame hr.1, SeesOnly.rely hJ.2 hJ.1 hr⟩
    · intro x xs h s hJ
      refine Meets.bind enrolments_compatible (meets_ask (P := fun s₁ => Switched m enabled i s₁ ∧
        SeesOnly m i (fun n _ => n ∈ (x :: xs).map Prod.fst) s₁ ∧
        Db.ready i (.update (S := twoFactor) (.inr (.delete m)) x.1) s₁ = true) ?_) ?_ ?_
      · intro tr s₁ _ hr hI hready _
        exact ⟨enrolments_settling (q := .update (.inr (.delete m)) x.1) hI trivial (by simp), trivial,
          hJ.1.frame hr.1, SeesOnly.rely hJ.2 hJ.1 hr, hready⟩
      · rintro h' row s' ⟨s₁, ⟨hsw₁, hsees₁, hready⟩, -, -, hr⟩ tr s₂ _ hr' _
        have hsw₂ := hsw₁.effect (q := .update (.inr (.delete m)) x.1) trivial
        have hsees₂ := hsees₁.delete hready
        have hsw₃ := hsw₂.frame hr.1
        exact ⟨hsw₃.frame hr'.1, SeesOnly.rely (SeesOnly.rely hsees₂ hsw₂ hr) hsw₃ hr'⟩
      · rintro h' e s' ⟨_, -, -, he, -⟩
        cases he
    · exact fun n h s hJ => ⟨hJ.1, hJ.2.mono fun n r hn => by cases hn⟩
  · rintro h' e s' ⟨_, -, -, he, -⟩
    cases he

/-- A program of settling statements that write no code. -/
lemma meets_settling {p : MfaTx α} (hp : p.Issues fun q => Settling m q ∧ NoCodes q)
    (hsw : Switched m enabled i s) (hsees : SeesOnly m i (fun _ _ => False) s) :
    Meets (enrolments reqs m cfg before) (mfaServer ι) i
      (fun _ _ s => Switched m enabled i s ∧ SeesOnly m i (fun _ _ => False) s) p h s := by
  refine meets_of_issues hp (fun _ s s' hJ hr => ⟨hJ.1.frame hr.1, hJ.2.rely hJ.1 hr⟩) ?_ ⟨hsw, hsees⟩
  intro tr q h s _ hq hI hJ _ _
  refine ⟨enrolments_settling hI hq.1 ?_, trivial, hJ.1.effect hq.1, hJ.2.effect hq.2⟩
  rintro x rfl
  exact absurd hq.2 id

/-- The unused codes that session `i` sees are those it has inserted. -/
def Issuing (m : ℕ) (hashes : List String) (i : ι) (h : List (MfaEvent ι)) (s : MfaStore ι) : Prop :=
  ∀ n r, s.view i codesTable n = some r → r.isUnused m = true →
    s.dirty codesTable n = some (i, r) ∧ InsertedBy m i n r.codeHash h ∧ r.codeHash ∈ hashes

variable {hashes : List String}

lemma Issuing.rely (hiss : Issuing m hashes i h s) (hsw : Switched m enabled i s)
    (hr : (enrolments reqs m cfg before).rely i h s s') : Issuing m hashes i h s' := by
  intro n r hv hunused
  obtain ⟨r', hv', hr'⟩ := (Option.any_eq_true _ _).1 ((hr.2 hsw.heldBy).view hr.1 hv hunused)
  obtain ⟨hd, hins⟩ := hiss n r' hv' hr'
  have hd' := (hr.1.dirty _ _ r').2 hd
  obtain rfl : r' = r := Option.some.inj ((Db.view_of_own hd').symm.trans hv)
  exact ⟨hd', hins⟩

/-- A code that is inserted is one of those issued. -/
lemma Issuing.insert (hiss : Issuing m hashes i h s) {codeHash : String} (hmem : codeHash ∈ hashes) :
    Issuing m hashes i
      (h ++ [⟨i, .insert (.inr ⟨m, codeHash⟩), s, Db.effect i (.insert (.inr ⟨m, codeHash⟩)) s⟩])
      (Db.effect i (.insert (.inr ⟨m, codeHash⟩)) s) := by
  intro n r hv hunused
  by_cases hn : n = s.fresh
  · subst hn
    have hd : (Db.effect i (.insert (S := twoFactor) (.inr ⟨m, codeHash⟩)) s).dirty codesTable s.fresh
        = some (i, NewCode.row ⟨m, codeHash⟩) := Db.dirty_insert (S := twoFactor) i _ s
    obtain rfl : NewCode.row ⟨m, codeHash⟩ = r := Option.some.inj ((Db.view_of_own hd).symm.trans hv)
    exact ⟨hd, ⟨_, List.mem_append_right _ List.mem_cons_self, rfl, rfl, rfl⟩, hmem⟩
  · rw [Db.view_effect_of_ne (by simp) (by simp) fun _ _ h => hn h.2] at hv
    obtain ⟨hd, hins, hhash⟩ := hiss n r hv hunused
    obtain ⟨r', hd', hcases⟩ := Db.dirty_effect_own
      (q := .insert (S := twoFactor) (.inr ⟨m, codeHash⟩)) hd (by simp) (by simp)
    rcases hcases with rfl | ⟨u, r₀, hq, -⟩
    · exact ⟨hd', hins.snoc _, hhash⟩
    · cases hq

lemma meets_addAll (hsw : Switched m enabled i s) (hsees : SeesOnly m i (fun _ _ => False) s) :
    Meets (enrolments reqs m cfg before) (mfaServer ι) i
      (fun h _ s => Switched m enabled i s ∧ Issuing m hashes i h s)
      (UserRecoveryCodeRepository.addAll m hashes) h s := by
  refine Meets.tally enrolments_compatible
    (J := fun xs h s => (∀ x ∈ xs, x ∈ hashes) ∧ Switched m enabled i s ∧ Issuing m hashes i h s)
    ?_ ?_ ?_ _ ⟨fun x hx => hx, hsw, fun n r hv hr => (hsees n r hv hr).elim⟩
  · exact fun xs h s s' hJ hr => ⟨hJ.1, hJ.2.1.frame hr.1, hJ.2.2.rely hJ.2.1 hr⟩
  · intro x xs h s hJ
    refine Meets.bind enrolments_compatible (meets_ask (P := fun s₁ => Switched m enabled i s₁ ∧
      Issuing m hashes i h s₁) ?_) ?_ ?_
    · intro tr s₁ _ hr hI _ _
      have hsw₁ := hJ.2.1.frame hr.1
      exact ⟨enrolments_settling (q := .insert (.inr ⟨m, x⟩)) hI trivial fun _ _ => hsw₁.heldBy,
        trivial, hsw₁, hJ.2.2.rely hJ.2.1 hr⟩
    · rintro h' n s' ⟨s₁, ⟨hsw₁, hiss₁⟩, rfl, -, hr⟩ tr s₂ _ hr' _
      have hsw₂ := hsw₁.effect (q := .insert (.inr ⟨m, x⟩)) trivial
      have hiss₂ := hiss₁.insert (hJ.1 x List.mem_cons_self)
      have hsw₃ := hsw₂.frame hr.1
      exact ⟨fun y hy => hJ.1 y (List.mem_cons_of_mem x hy), hsw₃.frame hr'.1,
        (hiss₂.rely hsw₂ hr).rely hsw₃ hr'⟩
    · rintro h' e s' ⟨_, -, -, he, -⟩
      cases he
  · exact fun n h s hJ => hJ.2

/-- **The commit that replaces the codes** leaves those that its session has issued. -/
lemma Enrolment.replace (hsw : Switched m enabled i s) (hiss : Issuing m hashes i (own i tr) s)
    (hact : ∀ x ∈ hashes, enabled = true ∧ (reqs i).activates m = true ∧
      x ∈ (reqs i).drawn.map cfg.hashPassword) :
    Enrolment reqs m cfg before (tr ++ [⟨i, .commit, s, s.commit i⟩]) (s.commit i) := by
  intro n r hc hr
  obtain ⟨-, ⟨ev, hev, hins⟩, hmem⟩ := hiss n r hc hr
  obtain ⟨rfl, hactivates, hdrawn⟩ := hact _ hmem
  obtain ⟨u, hd, hu⟩ := hsw
  constructor
  · rw [MfaOn, Db.committed_commit, Db.view_of_own hd]
    exact hu
  · rw [IssuedLast, enroller_snoc, if_pos ⟨rfl, hactivates⟩]
    have hinserted : InsertedBy m i n r.codeHash tr := ⟨ev, (mem_own.1 hev).1, hins⟩
    exact ⟨hinserted.snoc _, hdrawn⟩

/-- Replacing the codes keeps the contract. -/
lemma meets_replaceCodes {known user : User} (hne : user.mfaEnabled ≠ known.mfaEnabled)
    (hact : ∀ x ∈ hashes, user.mfaEnabled = true ∧ (reqs i).activates m = true ∧
      x ∈ (reqs i).drawn.map cfg.hashPassword) :
    Meets (enrolments reqs m cfg before) (mfaServer ι) i (fun _ _ _ => True)
      (Mfa.replaceCodes m known user hashes) h s := by
  have hnow : (Tx.now : MfaTx Time).Issues fun q => Settling m q ∧ NoCodes q :=
    ⟨⟨trivial, trivial⟩, fun _ => trivial⟩
  have hflush : (Tx.lift recoveryCodes (flush m user user.bumped)).Issues
      fun q => Settling m q ∧ NoCodes q :=
    Prog.issues_translate (issues_flush fun _ => ⟨fun _ => rfl, trivial⟩)
  have hrevoke : ∀ now : Time,
      (Tx.lift recoveryCodes (RefreshTokenRepository.revokeAllForUser m now)).Issues
        fun q => Settling m q ∧ NoCodes q := fun now =>
    Prog.issues_translate (issues_revokeAllForUser ⟨trivial, trivial⟩ fun _ => ⟨trivial, trivial⟩)
  refine (meets_switch hne).bind enrolments_compatible (fun h _ s hsw => ?_) fun _ _ _ _ => trivial
  refine (meets_deleteAllForUser (hsw () rfl)).bind enrolments_compatible (fun h _ s hJ => ?_)
    fun _ _ _ _ => trivial
  refine (meets_settling hnow hJ.1 hJ.2).bind enrolments_compatible (fun h now s hJ => ?_)
    fun _ _ _ _ => trivial
  refine (meets_settling hflush hJ.1 hJ.2).bind enrolments_compatible (fun h _ s hJ => ?_)
    fun _ _ _ _ => trivial
  refine (meets_settling (hrevoke now) hJ.1 hJ.2).bind enrolments_compatible (fun h _ s hJ => ?_)
    fun _ _ _ _ => trivial
  refine (meets_addAll hJ.1 hJ.2).bind enrolments_compatible (fun h _ s hJ => ?_)
    fun _ _ _ _ => trivial
  intro tr s₁ hown hr hI _ _
  have hguard : Guarded (codeSet m) (Db.effect i .commit s₁) :=
    guarded_effect hI.1 fun _ hq => by cases hq
  have hiss : Issuing m hashes i (own i tr) s₁ := hown ▸ hJ.2.rely hJ.1 hr
  exact ⟨⟨hguard, Enrolment.replace (hJ.1.frame hr.1) hiss hact⟩, trivial,
    fun _ _ _ _ _ => trivial⟩

/-! ### The requests -/

omit [DecidableEq ι] in
/-- The guard of a request is harmless. -/
lemma harmless_getCurrentUser (r : MfaRequest) (token : AccessToken) :
    (Tx.lift recoveryCodes (getCurrentUser token)).Issues (Harmless r m) := by
  refine Prog.issues_translate ?_
  unfold getCurrentUser
  split_ifs
  · trivial
  · refine Prog.issues_bind ⟨trivial, fun _ => trivial⟩ fun found => ?_
    unfold checkUser
    cases found with
    | none => trivial
    | some user =>
        dsimp only
        split_ifs <;> trivial

lemma issues_verifyFactor {φ : Sql twoFactor → Prop} (hscan : ∀ p, φ (.scan p)) (hnow : φ .now)
    (hmark : ∀ now n, φ (.update (.inr (.markUsed now)) n)) (userId : ℕ) (user : User)
    (code : String) : (Mfa.verifyFactor cfg userId user code).Issues φ := by
  have hclaim : ∀ (cleaned : String) (records : List (ℕ × RecoveryCode)),
      (Mfa.claimFirst cfg cleaned records).Issues φ := by
    intro cleaned records
    induction records with
    | nil => trivial
    | cons record records ih =>
        rw [Mfa.claimFirst]
        split_ifs
        · refine Prog.issues_bind ⟨hnow, fun _ => trivial⟩ fun now => ?_
          refine Prog.issues_bind ⟨hmark now record.1, fun _ => trivial⟩ fun claimed => ?_
          cases claimed
          · exact ih
          · trivial
        · exact ih
  unfold Mfa.verifyFactor Mfa.consumeRecoveryCode
  split_ifs
  · trivial
  · trivial
  · exact Prog.issues_bind ⟨hscan _, fun _ => trivial⟩ fun records => hclaim _ records

omit [DecidableEq ι] in
lemma harmless_verifyFactor (r : MfaRequest) (userId : ℕ) (user : User) (code : String) :
    (Mfa.verifyFactor cfg userId user code).Issues (Harmless r m) :=
  issues_verifyFactor (fun _ => trivial) trivial (fun _ _ => trivial) userId user code

/-- Replacing the codes of another user is harmless. -/
lemma harmless_replaceCodes {r : MfaRequest} {userId : ℕ} (hne : userId ≠ m)
    (hr : r.activates m = false) (known user : User) :
    (Mfa.replaceCodes userId known user hashes).Issues (Harmless r m) := by
  have hflush : ∀ known user : User,
      (Tx.lift recoveryCodes (flush userId known user)).Issues (Harmless r m) :=
    fun known user => Prog.issues_translate (issues_flush fun _ heq => absurd heq hne)
  have hdelete : (UserRecoveryCodeRepository.deleteAllForUser userId).Issues (Harmless r m) :=
    Prog.issues_bind ⟨trivial, fun _ => trivial⟩ fun rows => by
      refine Prog.issues_tally (fun row => ?_) rows
      exact ⟨trivial, fun _ => trivial⟩
  have hrevoke : ∀ now : Time,
      (Tx.lift recoveryCodes (RefreshTokenRepository.revokeAllForUser userId now)).Issues
        (Harmless r m) := fun now =>
    Prog.issues_translate (issues_revokeAllForUser trivial fun _ => trivial)
  have hadd : (UserRecoveryCodeRepository.addAll userId hashes).Issues (Harmless r m) := by
    refine Prog.issues_tally (fun codeHash => ?_) hashes
    exact ⟨hne, fun _ => trivial⟩
  refine Prog.issues_bind (hflush known user) fun _ => Prog.issues_bind hdelete fun _ => ?_
  refine Prog.issues_bind ⟨trivial, fun _ => trivial⟩ fun now => ?_
  refine Prog.issues_bind (hflush user user.bumped) fun _ => Prog.issues_bind (hrevoke now) fun _ => ?_
  exact Prog.issues_bind hadd fun _ => ⟨hr, fun _ => trivial⟩

lemma harmless_register {r : MfaRequest} {userId : ℕ} (hr : r.activates m = false) {known user : User}
    (hsame : user.mfaEnabled = known.mfaEnabled) :
    (Mfa.register userId known user).Issues (Harmless r m) :=
  Prog.issues_bind (Prog.issues_translate (issues_flush fun _ _ => hsame)) fun _ =>
    ⟨hr, fun _ => trivial⟩

/-- A challenge is harmless. -/
lemma harmless_verifyChallenge {r : MfaRequest} (hr : r.activates m = false)
    (challenge : AccessToken) (code : String) :
    (Mfa.verifyChallenge cfg challenge code).Issues (Harmless r m) := by
  unfold Mfa.verifyChallenge
  split_ifs
  · trivial
  · trivial
  · refine Prog.issues_bind ⟨trivial, fun _ => trivial⟩ fun found => ?_
    split
    · trivial
    · rename_i user _
      refine Prog.issues_bind ⟨trivial, fun _ => trivial⟩ fun now => ?_
      dsimp only
      split_ifs
      · trivial
      · refine Prog.issues_bind (harmless_verifyFactor r _ _ _) fun verified => ?_
        cases verified
        · exact Prog.issues_bind (harmless_register hr rfl) fun _ => trivial
        · exact Prog.issues_bind (harmless_register hr rfl) fun _ => trivial

/-- `activate` for the user. -/
lemma meets_switchOn {user : User} {code : String} {codes : List String} {token : AccessToken}
    (hi : reqs i = .activate token code codes) (hsub : token.sub = m) :
    Meets (enrolments reqs m cfg before) (mfaServer ι) i (fun _ _ _ => True)
      (Mfa.activate cfg codes m user code) h s := by
  unfold Mfa.activate
  split_ifs with hcfg henabled
  · exact fun _ _ _ _ _ => trivial
  · exact fun _ _ _ _ _ => trivial
  · split
    · exact fun _ _ _ _ _ => trivial
    · split_ifs
      · exact fun _ _ _ _ _ => trivial
      · refine Meets.bind enrolments_compatible
          (meets_replaceCodes (by simpa using Ne.symm henabled) fun x hx => ?_)
          (fun _ _ _ _ _ _ _ _ _ => trivial) fun _ _ _ _ => trivial
        rw [hi]
        exact ⟨rfl, by simp [MfaRequest.activates, hsub], hx⟩

/-- `disable` for the user. -/
lemma meets_switchOff {user : User} {code : String} (hmod : Modest m i s) :
    Meets (enrolments reqs m cfg before) (mfaServer ι) i (fun _ _ _ => True)
      (Mfa.disable cfg m user code) h s := by
  unfold Mfa.disable
  split_ifs with hcfg hdisabled
  · exact fun _ _ _ _ _ => trivial
  · exact fun _ _ _ _ _ => trivial
  · refine (meets_harmless (harmless_verifyFactor (reqs i) m user code) hmod).bind
      enrolments_compatible (fun h verified s _ => ?_) fun _ _ _ _ => trivial
    cases verified
    · exact fun _ _ _ _ _ => trivial
    · exact meets_replaceCodes (by simpa using hdisabled) fun x hx => by cases hx

/-- **The requests keep the contract.** -/
theorem MfaRequest.meets_enrolments (hmod : Modest m i s) :
    Meets (enrolments reqs m cfg before) (mfaServer ι) i (fun _ _ _ => True) ((reqs i).run cfg) h
      s := by
  have hguard : ∀ token, Meets (enrolments reqs m cfg before) (mfaServer ι) i
      (fun _ _ s => Modest m i s) (Tx.lift recoveryCodes (getCurrentUser token)) h s :=
    fun token => meets_harmless (harmless_getCurrentUser (reqs i) token) hmod
  have hbody : Meets (enrolments reqs m cfg before) (mfaServer ι) i (fun _ _ _ => True)
      ((reqs i).body cfg) h s := by
    cases hi : reqs i with
    | activate token code codes =>
        refine (hguard token).bind enrolments_compatible (fun h user s hmod => ?_)
          fun _ _ _ _ => trivial
        suffices hswitch : Meets (enrolments reqs m cfg before) (mfaServer ι) i (fun _ _ _ => True)
            (Mfa.activate cfg codes token.sub user code) h s from
          hswitch.bind enrolments_compatible (fun _ _ _ _ _ _ _ _ _ => trivial) fun _ _ _ _ => trivial
        by_cases hsub : token.sub = m
        · rw [hsub]
          exact meets_switchOn hi hsub
        · have hact : (reqs i).activates m = false := by simp [hi, activates, hsub]
          refine (meets_harmless ?_ hmod).mono fun _ _ _ _ => trivial
          unfold Mfa.activate
          split_ifs
          · trivial
          · trivial
          · split
            · trivial
            · split_ifs
              · trivial
              · exact Prog.issues_bind (harmless_replaceCodes hsub hact _ _) fun _ => trivial
    | disable token code =>
        refine (hguard token).bind enrolments_compatible (fun h user s hmod => ?_)
          fun _ _ _ _ => trivial
        suffices hswitch : Meets (enrolments reqs m cfg before) (mfaServer ι) i (fun _ _ _ => True)
            (Mfa.disable cfg token.sub user code) h s from
          hswitch.bind enrolments_compatible (fun _ _ _ _ _ _ _ _ _ => trivial) fun _ _ _ _ => trivial
        by_cases hsub : token.sub = m
        · rw [hsub]
          exact meets_switchOff hmod
        · have hact : (reqs i).activates m = false := by simp [hi, activates]
          refine (meets_harmless ?_ hmod).mono fun _ _ _ _ => trivial
          unfold Mfa.disable
          split_ifs
          · trivial
          · trivial
          · refine Prog.issues_bind (harmless_verifyFactor (reqs i) _ _ _) fun verified => ?_
            cases verified
            · trivial
            · exact harmless_replaceCodes hsub hact _ _
    | verify challenge code =>
        have hact : (reqs i).activates m = false := by simp [hi, activates]
        refine (meets_harmless ?_ hmod).mono fun _ _ _ _ => trivial
        exact Prog.issues_bind (harmless_verifyChallenge hact challenge code) fun _ => trivial
  refine Meets.withSession enrolments_compatible hbody ?_
  intro h r s tr s' _ _ _ hI _
  have hguard : Guarded (codeSet m) (Db.effect i .rollback s') :=
    guarded_effect hI.1 fun _ hq => by cases hq
  exact ⟨⟨hguard, hI.2.effect (q := .rollback) (by simp)⟩, trivial, fun _ _ => trivial⟩

/-- **The unused codes are always those of one enrolment.** -/
theorem enrolment_of_reach (hs : s.Settled)
    (hbefore : ∀ n r, s.committed codesTable n = some r → r.isUnused m = true → MfaOn m s)
    {c : Pool (sql twoFactor) ι (MfaStore ι) Exn MfaAnswer}
    (hc : Pool.Reach (mfaServer ι) (.start (fun i => (reqs i).run cfg) s) c) :
    Enrolment reqs m cfg s c.trace c.store := by
  have hstart : (enrolments reqs m cfg s).inv [] s := by
    refine ⟨guarded_of_settled hs, fun n r hr hunused => ⟨hbefore n r hr hunused, ?_⟩⟩
    rw [IssuedLast, enroller]
    simp only [List.filter_nil, List.getLast?_nil, Option.map_none]
    rw [hr]
    exact hunused
  exact (hc.meets enrolments_compatible hstart
    (fun i => MfaRequest.meets_enrolments (modest_of_settled hs))
    (along_iff_forall_mem.2 fun _ _ => trivial)).1.2

end Enrolment

end Accounts
