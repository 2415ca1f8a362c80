import AgencyOS.Accounts.OneTimeCodes

/-!
How many wrong codes a user may give.

`verify_challenge` refuses every code while the lock of the second factor is in force, and counts a
wrong one in a write of the counter that it has loaded; `disable` checks codes as well, but neither
looks at the lock nor counts.

* `Locked`, `Strike`, `Counted`: the lock, the commit that counts a wrong code, and a request whose
  only trace on counter and lock is such a commit;
* `Heeded`: the condition on a step: nothing that the request has loaded is outdated where it
  matters, and `disable` is given right codes outside the lock;
* `guesses`: the contract, and `meets_guesses`;
* `guesses_bounded`: **in a run of such steps no code is checked under the lock, and every rejected
  code is counted once**.
-/

namespace Accounts

open Txn Automation

/-- The lock of the second factor is in force. -/
def User.mfaLockedAt (u : User) (now : Time) : Bool := u.mfaLockedUntil.any (now < ·)

/-- The wrong codes counted, and the lock. -/
def User.strikes (u : User) : ℕ × Option Time := (u.mfaFailedAttempts, u.mfaLockedUntil)

namespace MfaRequest

/-- The request checks a code of user `m`, whose second factor is on. -/
def guesses (m : ℕ) : MfaRequest → Bool
  | activate .. => false
  | disable token _ => token.sub = m
  | verify challenge _ => challenge.sub = m

/-- The statement of the request after which it checks its code. -/
def looks (m : ℕ) : MfaRequest → Sql twoFactor → Bool
  | verify .., .now => true
  | disable .., .select (.inl .users) n => n = m
  | _, _ => false

end MfaRequest

section Guesses

variable {ι : Type} [DecidableEq ι] (cfg : Mfa.Settings) (reqs : ι → MfaRequest) (m : ℕ)

/-- The list of the unused codes of the user. -/
abbrev listing : Sql twoFactor := .scan (.inr (.unused m))

def Locked (s : MfaStore ι) : Prop := (s.committed usersTable m).any (·.mfaLockedAt s.time) = true

/-- Counter and lock of the user are left as they are. -/
def StrikesKept (ev : MfaEvent ι) : Prop :=
  (ev.after.committed usersTable m).map User.strikes
    = (ev.before.committed usersTable m).map User.strikes

/-- The commit that counts a wrong code checked at `now`: one more, and locked when they are too
many. -/
structure Strike (now : Time) (ev : MfaEvent ι) : Prop where
  stmt : ev.stmt = .commit
  counted : ∃ r r' : User, ev.before.committed usersTable m = some r
    ∧ ev.after.committed usersTable m = some r'
    ∧ r'.strikes = (MfaService.registerFailedAttempt cfg.toSecurity r now).strikes

/-- One of the events counts a wrong code, and the others leave counter and lock alone. -/
def Counted (now : Time) (h : List (MfaEvent ι)) : Prop :=
  ∃ h₁ ev h₂, h = h₁ ++ ev :: h₂ ∧ Strike cfg m now ev ∧ ∀ ev' ∈ h₁ ++ h₂, StrikesKept m ev'

/-- The event after which the request checks its code. -/
def lookOf (r : MfaRequest) (h : List (MfaEvent ι)) : Option (MfaEvent ι) :=
  h.find? fun ev => r.looks m ev.stmt

/-- What a request may do, having executed `h`: it checks no code under the lock, and leaves the
counters of others alone. -/
structure Careful (r : MfaRequest) (h : List (MfaEvent ι)) (ev : MfaEvent ι) : Prop where
  look : r.guesses m = true → ev.stmt ≠ .rollback → ∀ look, lookOf m r h = some look →
    ¬ Locked m look.before
  list : r.guesses m = true → ev.stmt = listing m → ¬ Locked m ev.before
  others : r.userId ≠ m → StrikesKept m ev

/-- A rejected code is counted. -/
def RejectionCounted {α : Type} (r : MfaRequest) (h : List (MfaEvent ι)) (res : Except Exn α) :
    Prop :=
  r.guesses m = true → res = .error MfaService.invalidCode →
    ∃ look, lookOf m r h = some look ∧ Counted cfg m look.before.time h

/-- A listed code that the given one matches. -/
def matchesCode (cleaned : String) (record : ℕ × RecoveryCode) : Bool :=
  cfg.verifyPassword cleaned record.2.codeHash

/-- The codes that the listing finds. -/
def listed (i : ι) (s : MfaStore ι) : List (ℕ × RecoveryCode) :=
  s.rows i (S := twoFactor) (.inr (.unused m))

/-- The last listed code that matches the given one. -/
def lastMatch (cleaned : String) (records : List (ℕ × RecoveryCode)) : Option ℕ :=
  ((records.filter (matchesCode cfg cleaned)).getLast?).map Prod.fst

/-- A `disable` of user `m` is made outside the lock, with a right code: one of the authenticator, or
a recovery code that is still unused when the last match is claimed. -/
structure RightDisable (token : AccessToken) (code : String) (h : List (MfaEvent ι))
    (ev : MfaEvent ι) : Prop where
  look : ev.stmt = .select usersTable m → ∀ user, ev.before.view ev.pid usersTable m = some user →
    checkUser token (some user) = .ret user → cfg.mfaEnabled = true → user.mfaEnabled = true →
    user.mfaLockedAt ev.before.time = false
      ∧ (Mfa.verifiesTotp cfg user code = true ∨ cfg.clean code ≠ "")
  list : ev.stmt = listing m →
    ∃ record ∈ listed m ev.pid ev.before, matchesCode cfg (cfg.clean code) record = true
  claim : ∀ n now, ev.stmt = .update (.inr (.markUsed now)) n → ∀ list ∈ h, list.stmt = listing m →
    lastMatch cfg (cfg.clean code) (listed m ev.pid list.before) = some n →
    (ev.before.view ev.pid codesTable n).any (RecoveryCode.markUsed now).guard = true

/-- The condition on a step, made after the run `past`. -/
structure Heeded (past : List (MfaEvent ι)) (ev : MfaEvent ι) : Prop where
  lock : (reqs ev.pid).guesses m = true →
    (reqs ev.pid).looks m ev.stmt = true ∧ lookOf m (reqs ev.pid) (own ev.pid past) = none
      ∨ ev.stmt = listing m →
    Locked m ev.before → ∀ user, Loaded m ev.pid user (own ev.pid past) →
      user.mfaLockedAt ev.before.time = true
  count : ∀ known user : User, ev.stmt = .update (.inl (.flush known user)) m →
    user.mfaFailedAttempts = known.mfaFailedAttempts + 1 →
    ∀ r, ev.before.committed usersTable m = some r → r.mfaFailedAttempts = known.mfaFailedAttempts
  disable : ∀ token code, reqs ev.pid = .disable token code → token.sub = m →
    RightDisable cfg m token code (own ev.pid past) ev

variable {cfg reqs m} {i j : ι} {r : MfaRequest} {user : User} {look : MfaEvent ι}
  {s s' : MfaStore ι} {h tr : List (MfaEvent ι)} {q : Sql twoFactor}

omit [DecidableEq ι] in
lemma lookOf_append (hlook : lookOf m r h = some look) (h' : List (MfaEvent ι)) :
    lookOf m r (h ++ h') = some look := by
  rw [lookOf, List.find?_append, show h.find? _ = some look from hlook]
  rfl

/-! ### Counter and lock -/

/-- Session `i` has not written the user. -/
def UserClean (m : ℕ) (i : ι) (s : MfaStore ι) : Prop := ∀ u, s.dirty usersTable m ≠ some (i, u)

lemma UserClean.frame (hclean : UserClean m i s) (hf : Frame i s s') : UserClean m i s' :=
  fun u hd => hclean u ((hf.dirty _ m u).1 hd)

/-- Statements that neither load the user nor write it. -/
def Still (m : ℕ) : Sql twoFactor → Prop
  | .select (.inl .users) n => n ≠ m
  | .update (.inl (.flush ..)) n => n ≠ m
  | _ => True

lemma UserClean.effect (hclean : UserClean m i s) (hq : Still m q) : UserClean m i (Db.effect i q s) := by
  intro u hd
  rcases Db.dirty_effect_cases hd with
    ⟨hold, -⟩ | ⟨-, ⟨v, r₀, rfl, -, -, heq⟩ | ⟨x, rfl, -, heq⟩⟩
  · exact hclean u hold
  · cases v with
    | inl v =>
        cases v with
        | flush known new => exact hq rfl
        | _ => cases heq
    | inr v => cases heq
  · cases x with
    | inl x => cases heq
    | inr x => cases heq

lemma strikesKept_of_ne_commit (hq : q ≠ .commit) :
    StrikesKept m ⟨i, q, s, Db.effect i q s⟩ := by
  rw [StrikesKept, Db.committed_effect hq]

/-- A session that has not written the user leaves its counter alone. -/
lemma UserClean.strikesKept (hclean : UserClean m i s) (q : Sql twoFactor) :
    StrikesKept m ⟨i, q, s, Db.effect i q s⟩ := by
  by_cases hq : q = .commit
  · subst hq
    show (s.view i usersTable m).map User.strikes = (s.committed usersTable m).map User.strikes
    rw [Db.view_of_not_own hclean]
  · exact strikesKept_of_ne_commit hq

omit [DecidableEq ι] in
lemma Counted.append {now : Time} (hc : Counted cfg m now h) {ev : MfaEvent ι}
    (hev : StrikesKept m ev) : Counted cfg m now (h ++ [ev]) := by
  obtain ⟨h₁, strike, h₂, rfl, hstrike, hkept⟩ := hc
  refine ⟨h₁, strike, h₂ ++ [ev], by simp, hstrike, fun ev' hev' => ?_⟩
  rw [← List.append_assoc, List.mem_append, List.mem_singleton] at hev'
  rcases hev' with hev' | rfl
  · exact hkept ev' hev'
  · exact hev

/-! ### The contract -/

variable (cfg reqs m) in
/-- Requests are careful, provided that their steps are heeded. -/
def guesses : Contract (sql twoFactor) ι (MfaStore ι) where
  inv := fun _ _ => True
  assume := Heeded cfg reqs m
  guar := fun i h ev => Careful m (reqs i) h ev
  rely := fun i _ s s' => Frame i s s'

omit [DecidableEq ι] in
lemma MfaRequest.userId_of_guesses (hr : r.guesses m = true) : r.userId = m := by
  cases r with
  | activate token code codes => cases hr
  | disable token code => exact of_decide_eq_true hr
  | verify challenge code => exact of_decide_eq_true hr

/-- A rollback is careful. -/
lemma careful_rollback : Careful m r h ⟨i, .rollback, s, Db.effect i .rollback s⟩ where
  look := fun _ hne => absurd rfl hne
  list := fun _ heq => by cases heq
  others := fun _ => strikesKept_of_ne_commit (by simp)

lemma guesses_compatible : (guesses cfg reqs m : Contract (sql twoFactor) ι (MfaStore ι)).Compatible
    (mfaServer ι) where
  refl := fun i _ s => .refl i s
  trans := fun _ _ _ _ _ h h' => h.trans h'
  step := by
    intro tr ev j hj _ _ _ hafter _
    rw [hafter]
    exact frame_effect hj.symm ev.stmt ev.before
  hangup := fun _ _ _ _ _ _ => ⟨trivial, careful_rollback⟩

variable {α : Type}

/-- A session leaves the counters of other users alone. -/
lemma meets_others {p : MfaTx α} (hi : (reqs i).userId ≠ m) (hp : p.Issues (Still m))
    (hclean : UserClean m i s) :
    Meets (guesses cfg reqs m) (mfaServer ι) i (fun _ _ _ => True) p h s := by
  have hr : (reqs i).guesses m = true → False := fun hr => hi (MfaRequest.userId_of_guesses hr)
  have hall : Meets (guesses cfg reqs m) (mfaServer ι) i (fun _ _ s => UserClean m i s) p h s := by
    refine meets_of_issues hp (fun _ _ _ hJ hf => hJ.frame hf) ?_ hclean
    intro tr q h s _ hq _ hJ _ _
    exact ⟨trivial, ⟨fun h => absurd h hr, fun h => absurd h hr, fun _ => hJ.strikesKept q⟩,
      hJ.effect hq⟩
  exact hall.mono fun _ _ _ _ => trivial

/-- Nothing is asked of an activation. -/
lemma meets_own {p : MfaTx α} (hi : (reqs i).userId = m) (hr : (reqs i).guesses m = false) :
    Meets (guesses cfg reqs m) (mfaServer ι) i (fun _ _ _ => True) p h s := by
  refine meets_of_issues p.issues_true (J := fun _ _ => True) (fun _ _ _ _ _ => trivial) ?_ trivial
  intro tr q h s _ _ _ _ _ _
  refine ⟨trivial, ⟨fun h => ?_, fun h => ?_, fun h => absurd hi h⟩, trivial⟩
  · rw [hr] at h
    cases h
  · rw [hr] at h
    cases h

/-! ### A session that has looked -/

/-- The session has loaded the user, found no lock, and written nothing of it since. -/
structure Looked (m : ℕ) (r : MfaRequest) (i : ι) (user : User) (look : MfaEvent ι)
    (h : List (MfaEvent ι)) (s : MfaStore ι) : Prop where
  found : lookOf m r h = some look
  unlocked : ¬ Locked m look.before
  past : look.before.time ≤ s.time
  free : user.mfaLockedAt look.before.time = false
  loaded : Loaded m i user h
  kept : ∀ ev ∈ h, StrikesKept m ev
  clean : UserClean m i s

lemma Looked.frame (hl : Looked m r i user look h s) (hf : Frame i s s') :
    Looked m r i user look h s' where
  found := hl.found
  unlocked := hl.unlocked
  past := hl.past.trans hf.time_le
  free := hl.free
  loaded := hl.loaded
  kept := hl.kept
  clean := hl.clean.frame hf

lemma Looked.effect (hl : Looked m r i user look h s) (hq : Still m q) :
    Looked m r i user look (h ++ [⟨i, q, s, Db.effect i q s⟩]) (Db.effect i q s) where
  found := lookOf_append hl.found _
  unlocked := hl.unlocked
  past := hl.past.trans (Db.time_effect_le i q s)
  free := hl.free
  loaded := by
    obtain ⟨ev, hev, hload⟩ := hl.loaded
    exact ⟨ev, List.mem_append_left _ hev, hload⟩
  kept := by
    intro ev hev
    rcases List.mem_append.1 hev with hev | hev
    · exact hl.kept ev hev
    · rw [List.mem_singleton.1 hev]
      exact hl.clean.strikesKept q
  clean := hl.clean.effect hq

/-- A lock that was not in force when the session looked is not in force now. -/
lemma Looked.not_locked (hl : Looked m r i user look h s) : user.mfaLockedAt s.time = false := by
  have hfree := hl.free
  rw [User.mfaLockedAt] at hfree ⊢
  cases hlock : user.mfaLockedUntil with
  | none => rfl
  | some until_ =>
      rw [hlock] at hfree
      have hle : (until_ : ℕ) ≤ look.before.time := not_lt.1 (of_decide_eq_false hfree)
      exact decide_eq_false (not_lt.2 (hle.trans hl.past))

/-- A session that has looked lists the codes outside the lock. -/
lemma Looked.careful (hl : Looked m (reqs i) i user look h s) (hi : (reqs i).guesses m = true)
    (hh : own i tr = h)
    (hheed : Heeded cfg reqs m tr ⟨i, q, s, Db.effect i q s⟩) :
    Careful m (reqs i) h ⟨i, q, s, Db.effect i q s⟩ where
  look := by
    rintro - - look' hlook'
    obtain rfl := Option.some.inj (hl.found.symm.trans hlook')
    exact hl.unlocked
  list := by
    intro _ hlist hlocked
    have huser := hheed.lock hi (.inr hlist) hlocked user (by
      rw [show own i tr = h from hh]
      exact hl.loaded)
    rw [hl.not_locked] at huser
    cases huser
  others := fun hne => absurd (MfaRequest.userId_of_guesses hi) hne

/-- Statements that leave the user alone keep what the session has found. -/
lemma meets_looked {p : MfaTx α} (hi : (reqs i).guesses m = true) (hp : p.Issues (Still m))
    (hl : Looked m (reqs i) i user look h s) :
    Meets (guesses cfg reqs m) (mfaServer ι) i
      (fun h _ s => Looked m (reqs i) i user look h s) p h s := by
  refine meets_of_issues hp (fun _ _ _ hJ hf => hJ.frame hf) ?_ hl
  intro tr q h s hh hq _ hJ _ hheed
  exact ⟨trivial, hJ.careful hi hh hheed, hJ.effect hq⟩

omit [DecidableEq ι] in
/-- A session that has looked and lists no code is careful. -/
lemma careful_of_found {ev : MfaEvent ι} (hr : r.guesses m = true) (hfound : lookOf m r h = some look)
    (hunlocked : ¬ Locked m look.before) (hne : ev.stmt ≠ listing m) : Careful m r h ev where
  look := by
    rintro - - look' hlook'
    obtain rfl := Option.some.inj (hfound.symm.trans hlook')
    exact hunlocked
  list := fun _ heq => absurd heq hne
  others := fun hother => absurd (MfaRequest.userId_of_guesses hr) hother

/-- Once the code has been found right, the session lists no more codes. -/
lemma meets_seen {p : MfaTx α} (hi : (reqs i).guesses m = true) (hp : p.Issues (· ≠ listing m))
    (hlook : lookOf m (reqs i) h = some look) (hunlocked : ¬ Locked m look.before) :
    Meets (guesses cfg reqs m) (mfaServer ι) i (fun _ _ _ => True) p h s := by
  have hall : Meets (guesses cfg reqs m) (mfaServer ι) i
      (fun h _ _ => lookOf m (reqs i) h = some look) p h s := by
    refine meets_of_issues hp (fun _ _ _ hJ _ => hJ) ?_ hlook
    intro tr q h s _ hq _ hJ _ _
    exact ⟨trivial, careful_of_found hi hJ hunlocked hq, lookOf_append hJ _⟩
  exact hall.mono fun _ _ _ _ => trivial

/-! ### Rejecting a code -/

/-- The session has written the count of the wrong code checked at `now`, and not yet committed. -/
def Counting (cfg : Mfa.Settings) (m : ℕ) (now : Time) (i : ι) (s : MfaStore ι) : Prop :=
  ∃ r r' : User, s.committed usersTable m = some r ∧ s.dirty usersTable m = some (i, r')
    ∧ r'.strikes = (MfaService.registerFailedAttempt cfg.toSecurity r now).strikes

lemma Counting.frame {now : Time} (hc : Counting cfg m now i s) (hf : Frame i s s') :
    Counting cfg m now i s' := by
  obtain ⟨r, r', hr, hr', hstrikes⟩ := hc
  exact ⟨r, r', (hf.committed usersTable m r' hr').trans hr, (hf.dirty usersTable m r').2 hr',
    hstrikes⟩

lemma Counting.strike {now : Time} (hc : Counting cfg m now i s) :
    Strike cfg m now ⟨i, .commit, s, s.commit i⟩ := by
  obtain ⟨r, r', hr, hr', hstrikes⟩ := hc
  exact ⟨rfl, r, r', hr, Db.view_of_own hr', hstrikes⟩

omit [DecidableEq ι] in
/-- A lock that is not in force is none that begins now. -/
lemma ne_mfaLockedUntil {known : User} {now : Time} {delay : ℕ} (hfree : known.mfaLockedAt now = false)
    (hpos : 0 < delay) : (some (now + delay) : Option Time) ≠ known.mfaLockedUntil := by
  intro heq
  rw [User.mfaLockedAt, ← heq] at hfree
  have hle : now + delay ≤ now := not_lt.1 (of_decide_eq_false hfree)
  exact absurd hle (Nat.not_le.2 (Nat.lt_add_of_pos_right hpos))

omit [DecidableEq ι] in
lemma lockSeconds_pos (excess : ℕ) : 0 < AuthService.lockSeconds excess :=
  lt_min (by positivity) (by norm_num)

omit [DecidableEq ι] in
/-- The write of a counter that is still as it was loaded counts the wrong code. -/
lemma strikes_flush {known r : User} {now : Time} (hfree : known.mfaLockedAt now = false)
    (hsame : r.mfaFailedAttempts = known.mfaFailedAttempts) :
    ((User.flush known (MfaService.registerFailedAttempt cfg.toSecurity known now)).set r).strikes
      = (MfaService.registerFailedAttempt cfg.toSecurity r now).strikes := by
  have hattempts : ∀ k : ℕ, column k (k + 1) k = k + 1 := fun k => if_neg (Nat.succ_ne_self k)
  have hlock : ∀ delay lock, 0 < delay →
      column known.mfaLockedUntil (some (now + delay)) lock = some (now + delay) :=
    fun delay _ hpos => if_neg (ne_mfaLockedUntil hfree hpos)
  have hpos : ∀ excess, 0 < AuthService.lockSeconds excess * second := fun excess =>
    Nat.mul_pos (lockSeconds_pos excess) (by decide)
  by_cases hmax : cfg.mfaMaxAttempts ≤ known.mfaFailedAttempts + 1
  · simp only [User.strikes, User.flush, MfaService.registerFailedAttempt, hattempts, hsame,
      if_pos hmax, hlock _ _ (hpos _)]
  · simp only [User.strikes, User.flush, MfaService.registerFailedAttempt, hattempts, hsame,
      if_neg hmax, column_self]

/-- The write of the count. -/
lemma meets_count (hi : (reqs i).guesses m = true) (hl : Looked m (reqs i) i user look h s)
    {new : User}
    (hnew : new = MfaService.registerFailedAttempt cfg.toSecurity user look.before.time) :
    Meets (guesses cfg reqs m) (mfaServer ι) i
      (fun h res s => ∀ a, res = .ok a → lookOf m (reqs i) h = some look
        ∧ (∀ ev ∈ h, StrikesKept m ev) ∧ Counting cfg m look.before.time i s)
      (Tx.lift recoveryCodes (flush m user new)) h s := by
  have hattempts : new.mfaFailedAttempts = user.mfaFailedAttempts + 1 := by rw [hnew]; rfl
  have hne : new ≠ user := by
    intro heq
    rw [heq] at hattempts
    omega
  rw [lift_flush hne]
  refine Meets.bind guesses_compatible (meets_ask (P := fun s₁ => Looked m (reqs i) i user look h s₁
    ∧ ∀ r : User, s₁.committed usersTable m = some r →
        r.mfaFailedAttempts = user.mfaFailedAttempts) ?_) ?_ ?_
  · intro tr s₁ hh hr _ _ hheed
    have hl₁ := hl.frame hr
    exact ⟨trivial, hl₁.careful hi hh hheed, hl₁, hheed.count _ _ rfl hattempts⟩
  · rintro h' row s' ⟨s₁, ⟨hl₁, hcount⟩, rfl, hrow, hr⟩
    have hw : s₁.written (S := twoFactor) i (.inl (.flush user new)) m = row :=
      (Except.ok.inj hrow).symm
    cases row with
    | none => exact fun _ _ _ _ _ _ ha => by cases ha
    | some u =>
        intro tr s₂ _ hr' _ _ _
        obtain ⟨-, r, hv, -, hset⟩ := Db.written_eq_some.1 hw
        have hcom : s₁.committed usersTable m = some r :=
          (Db.view_of_not_own hl₁.clean).symm.trans hv
        have hcounting : Counting cfg m look.before.time i
            (Db.effect i (.update (.inl (.flush user new)) m) s₁) := by
          refine ⟨r, u, ?_, Db.dirty_update hw, ?_⟩
          · rw [Db.committed_effect (by simp)]
            exact hcom
          · rw [← hset, hnew]
            exact strikes_flush hl₁.free (hcount r hcom)
        refine ⟨lookOf_append hl₁.found _, fun ev hev => ?_, (hcounting.frame hr).frame hr'⟩
        rcases List.mem_append.1 hev with hev | hev
        · exact hl₁.kept ev hev
        · rw [List.mem_singleton.1 hev]
          exact strikesKept_of_ne_commit (by simp)
  · rintro h' e s' ⟨_, -, -, he, -⟩
    cases he

/-- `verify_challenge` of a wrong code: the count is written and committed. -/
lemma meets_reject (hi : (reqs i).guesses m = true) (hl : Looked m (reqs i) i user look h s) :
    Meets (guesses cfg reqs m) (mfaServer ι) i
      (fun h res _ => ∀ a, res = .ok a →
        lookOf m (reqs i) h = some look ∧ Counted cfg m look.before.time h)
      (Mfa.register m user (MfaService.registerFailedAttempt cfg.toSecurity user look.before.time)) h
      s := by
  refine (meets_count hi hl rfl).bind guesses_compatible (fun h _ s hQ => ?_)
    fun _ e _ _ a ha => by cases ha
  obtain ⟨hfound, hkept, hcounting⟩ := hQ () rfl
  intro tr s₁ hh hr _ _ hheed
  refine ⟨trivial, careful_of_found hi hfound hl.unlocked (by simp), fun _ _ _ _ _ _ _ => ?_⟩
  exact ⟨lookOf_append hfound _, h, _, [], rfl, (hcounting.frame hr).strike, by simpa using hkept⟩

/-! ### Requests -/

variable (cfg reqs m i) in
/-- The postcondition of a request: a rejected code is counted. -/
def Counts : Post (sql twoFactor) ι (MfaStore ι) Exn α :=
  fun h res _ => RejectionCounted cfg m (reqs i) h res

lemma meets_raised {e : Exn} (he : e ≠ MfaService.invalidCode) :
    Meets (guesses cfg reqs m) (mfaServer ι) i (Counts cfg reqs m i) (.raise e : MfaTx α) h s := by
  intro tr s' _ _ _ _ heq
  exact absurd (Except.error.inj heq) he

lemma issues_register (known user : User) (userId : ℕ) :
    (Mfa.register userId known user).Issues (· ≠ listing m) := by
  refine Prog.issues_bind (Prog.issues_translate (issues_flush fun _ => ?_)) fun _ => ⟨?_, fun _ => trivial⟩
  · simp [Sql.lift]
  · simp

lemma throws_flush (known user : User) (userId : ℕ) :
    (Tx.lift recoveryCodes (flush userId known user)).Throws (· ≠ MfaService.invalidCode) := by
  refine Prog.throws_translate ?_
  unfold flush
  split_ifs
  · trivial
  · intro row
    cases row with
    | none => exact fun heq => by cases heq
    | some u => trivial

/-- The end of a request whose code was right. -/
lemma meets_right {p : MfaTx α} (hi : (reqs i).guesses m = true) (hp : p.Issues (· ≠ listing m))
    (hthrows : p.Throws (· ≠ MfaService.invalidCode)) (hfound : lookOf m (reqs i) h = some look)
    (hunlocked : ¬ Locked m look.before) :
    Meets (guesses cfg reqs m) (mfaServer ι) i (Counts cfg reqs m i) p h s := by
  refine ((meets_seen hi hp hfound hunlocked).throws hthrows).mono ?_
  rintro h res s ⟨-, hne⟩ - heq
  exact absurd rfl (hne _ heq)

/-- A session that has loaded the user, and has not yet looked at the clock. -/
structure Arrived (m : ℕ) (r : MfaRequest) (i : ι) (user : User) (h : List (MfaEvent ι))
    (s : MfaStore ι) : Prop where
  found : lookOf m r h = none
  loaded : Loaded m i user h
  kept : ∀ ev ∈ h, StrikesKept m ev
  clean : UserClean m i s

omit [DecidableEq ι] in
/-- A session that has not looked yet, and lists no code, is careful. -/
lemma careful_of_none {ev : MfaEvent ι} (hr : r.userId = m) (hfound : lookOf m r h = none)
    (hne : ev.stmt ≠ listing m) : Careful m r h ev where
  look := by
    rintro - - look hlook
    rw [hfound] at hlook
    cases hlook
  list := fun _ heq => absurd heq hne
  others := fun hother => absurd hr hother

omit [DecidableEq ι] in
lemma still_verifyFactor (code : String) : (Mfa.verifyFactor cfg m user code).Issues (Still m) :=
  issues_verifyFactor (fun _ => trivial) trivial (fun _ _ => trivial) m user code

lemma throws_verifyFactor {F : Exn → Prop} (userId : ℕ) (user : User) (code : String) :
    (Mfa.verifyFactor cfg userId user code).Throws F := by
  have hclaim : ∀ (cleaned : String) (records : List (ℕ × RecoveryCode)),
      (Mfa.claimFirst cfg cleaned records).Throws F := by
    intro cleaned records
    induction records with
    | nil => trivial
    | cons record records ih =>
        rw [Mfa.claimFirst]
        split_ifs
        · refine Prog.throws_bind (fun _ => trivial) fun now => ?_
          refine Prog.throws_bind (Prog.throws_bind (fun _ => trivial) fun _ => trivial) fun claimed => ?_
          cases claimed
          · exact ih
          · trivial
        · exact ih
  unfold Mfa.verifyFactor Mfa.consumeRecoveryCode
  split_ifs
  · trivial
  · trivial
  · exact Prog.throws_bind (fun _ => trivial) fun records => hclaim _ records

lemma throws_register (known user : User) (userId : ℕ) :
    (Mfa.register userId known user).Throws (· ≠ MfaService.invalidCode) :=
  Prog.throws_bind (throws_flush known user userId) fun _ _ => trivial

lemma Arrived.frame (harr : Arrived m r i user h s) (hf : Frame i s s') : Arrived m r i user h s' where
  found := harr.found
  loaded := harr.loaded
  kept := harr.kept
  clean := harr.clean.frame hf

/-- The check of the code, once the session has looked. -/
lemma meets_check {code : String} {f : Bool → MfaTx α} (hi : (reqs i).guesses m = true)
    (hl : Looked m (reqs i) i user look h s)
    (htrue : ∀ h s, Looked m (reqs i) i user look h s →
      Meets (guesses cfg reqs m) (mfaServer ι) i (Counts cfg reqs m i) (f true) h s)
    (hfalse : ∀ h s, Looked m (reqs i) i user look h s →
      Meets (guesses cfg reqs m) (mfaServer ι) i (Counts cfg reqs m i) (f false) h s) :
    Meets (guesses cfg reqs m) (mfaServer ι) i (Counts cfg reqs m i)
      ((Mfa.verifyFactor cfg m user code).bind f) h s := by
  refine ((meets_looked hi (still_verifyFactor code) hl).throws (throws_verifyFactor ..)).bind
    guesses_compatible (fun h right s hl => ?_) fun _ e _ hne _ heq =>
      absurd (Except.error.inj heq) (hne.2 e rfl)
  cases right
  · exact hfalse h s hl.1
  · exact htrue h s hl.1

/-- The end of `verify_challenge` of a wrong code. -/
lemma meets_rejected {now : Time} (hi : (reqs i).guesses m = true)
    (hl : Looked m (reqs i) i user look h s) (hnow : look.before.time = now) :
    Meets (guesses cfg reqs m) (mfaServer ι) i (Counts cfg reqs m i)
      ((Mfa.register m user (MfaService.registerFailedAttempt cfg.toSecurity user now)).bind fun _ =>
        (.raise MfaService.invalidCode : MfaTx α)) h s := by
  subst hnow
  refine ((meets_reject hi hl).throws (throws_register ..)).bind guesses_compatible
    (fun h _ s hcount => ?_) fun _ e _ hne _ heq => absurd (Except.error.inj heq) (hne.2 e rfl)
  intro tr s' _ _ _ _ _
  exact ⟨look, hcount.1 () rfl⟩

/-- `verify_challenge` of a user that has been loaded. -/
lemma meets_verify {challenge : AccessToken} {code : String} (hi : reqs i = .verify challenge code)
    (hsub : challenge.sub = m) (harr : Arrived m (reqs i) i user h s) :
    Meets (guesses cfg reqs m) (mfaServer ι) i (Counts cfg reqs m i)
      (Mfa.verifyLoaded cfg m user code) h s := by
  have hguess : (reqs i).guesses m = true := by simp [hi, MfaRequest.guesses, hsub]
  have hlooks : (reqs i).looks m .now = true := by simp [hi, MfaRequest.looks]
  refine Meets.bind guesses_compatible (meets_ask (P := fun s₁ => UserClean m i s₁
    ∧ (Locked m s₁ → user.mfaLockedAt s₁.time = true)) ?_) ?_ ?_
  · intro tr s₁ hh hr _ _ hheed
    refine ⟨trivial, careful_of_none (MfaRequest.userId_of_guesses hguess) harr.found (by simp),
      harr.clean.frame hr, fun hlocked => ?_⟩
    have hown : own i tr = h := hh
    refine hheed.lock hguess (.inl ⟨hlooks, ?_⟩) hlocked user ?_
    · rw [hown]
      exact harr.found
    · rw [hown]
      exact harr.loaded
  · rintro h' now s' ⟨s₁, ⟨hclean, hlock⟩, rfl, hnow, hr⟩
    obtain rfl : now = s₁.time := Except.ok.inj hnow
    dsimp only
    split_ifs with hlocked
    · exact meets_raised (by decide)
    · have hl : Looked m (reqs i) i user ⟨i, .now, s₁, Db.effect i .now s₁⟩
          (h ++ [⟨i, .now, s₁, Db.effect i .now s₁⟩]) (Db.effect i .now s₁) :=
        { found := by
            rw [lookOf, List.find?_append, show h.find? _ = none from harr.found]
            simp [hlooks]
          unlocked := fun h => hlocked (hlock h)
          past := Db.time_effect_le i .now s₁
          free := Bool.eq_false_iff.2 hlocked
          loaded := by
            obtain ⟨ev, hev, hload⟩ := harr.loaded
            exact ⟨ev, List.mem_append_left _ hev, hload⟩
          kept := by
            intro ev hev
            rcases List.mem_append.1 hev with hev | hev
            · exact harr.kept ev hev
            · rw [List.mem_singleton.1 hev]
              exact hclean.strikesKept .now
          clean := hclean.effect trivial }
      refine meets_check hguess (hl.frame hr) (fun h s hl => ?_) fun h s hl => ?_
      · exact meets_right hguess (Prog.issues_bind (issues_register ..) fun _ => trivial)
          (Prog.throws_bind (throws_register ..) fun _ => trivial) hl.found hl.unlocked
      · exact meets_rejected hguess hl rfl
  · rintro h' e s' ⟨_, -, -, he, -⟩
    cases he

/-! ### `disable` -/

omit [DecidableEq ι] in
lemma lastMatch_append {cleaned : String} {record : ℕ × RecoveryCode} (front : List (ℕ × RecoveryCode))
    {records : List (ℕ × RecoveryCode)} (hrecord : matchesCode cfg cleaned record = true)
    (hnone : ∀ x ∈ records, matchesCode cfg cleaned x = false) :
    lastMatch cfg cleaned (front ++ record :: records) = some record.1 := by
  have htail : records.filter (matchesCode cfg cleaned) = [] := by
    simpa [List.filter_eq_nil_iff] using hnone
  rw [lastMatch, List.filter_append, List.filter_cons_of_pos hrecord, htail, List.getLast?_concat]
  rfl

/-- `mark_used` of the last match claims it. -/
lemma meets_markUsed_last {token : AccessToken} {code : String} (hi : reqs i = .disable token code)
    (hsub : token.sub = m) {list : MfaEvent ι} (hlist : list.stmt = listing m) (hmem : list ∈ h)
    {n : ℕ} {now : Time} (hl : Looked m (reqs i) i user look h s) :
    Meets (guesses cfg reqs m) (mfaServer ι) i
      (fun h res s => Looked m (reqs i) i user look h s ∧ list ∈ h ∧ (res = .ok true ∨ res = .ok false
        ∧ lastMatch cfg (cfg.clean code) (listed m i list.before) ≠ some n))
      (UserRecoveryCodeRepository.markUsed n now) h s := by
  have hguess : (reqs i).guesses m = true := by simp [hi, MfaRequest.guesses, hsub]
  refine Meets.bind guesses_compatible (meets_ask (P := fun s₁ => Looked m (reqs i) i user look h s₁
    ∧ (s₁.written (S := twoFactor) i (.inr (.markUsed now)) n = none →
        lastMatch cfg (cfg.clean code) (listed m i list.before) ≠ some n)) ?_) ?_ ?_
  · intro tr s₁ hh hr _ hready hheed
    have hown : own i tr = h := hh
    refine ⟨trivial, (hl.frame hr).careful hguess hh hheed, hl.frame hr, fun hnone hlast => ?_⟩
    have hguard := (hheed.disable token code hi hsub).claim n now rfl list (by rw [hown]; exact hmem)
      hlist hlast
    obtain ⟨r, hr, hopen⟩ := (Option.any_eq_true _ _).1 hguard
    have hclosed := Db.guard_of_written_eq_none hready hnone hr
    exact absurd (hopen.symm.trans hclosed) (by simp)
  · rintro h' row s' ⟨s₁, ⟨hl₁, hlast⟩, rfl, hrow, hr₁⟩ tr s₂ _ hr₂ _
    have hw : s₁.written (S := twoFactor) i (.inr (.markUsed now)) n = row :=
      (Except.ok.inj hrow).symm
    have hl₂ := ((hl₁.effect (q := .update (.inr (.markUsed now)) n) trivial).frame hr₁).frame hr₂
    refine ⟨hl₂, List.mem_append_left _ hmem, ?_⟩
    cases row with
    | none => exact .inr ⟨rfl, hlast hw⟩
    | some r => exact .inl rfl
  · rintro h' e s' ⟨_, -, -, he, -⟩
    cases he

/-- `claimFirst` of a `disable` claims the last match at the latest. -/
lemma meets_claims_right {token : AccessToken} {code : String} (hi : reqs i = .disable token code)
    (hsub : token.sub = m) {list : MfaEvent ι} (hlist : list.stmt = listing m) :
    ∀ (records : List (ℕ × RecoveryCode)) (h : List (MfaEvent ι)) (s : MfaStore ι),
      Looked m (reqs i) i user look h s → list ∈ h →
      (∃ front, listed m i list.before = front ++ records) →
      (∃ record ∈ records, matchesCode cfg (cfg.clean code) record = true) →
      Meets (guesses cfg reqs m) (mfaServer ι) i
        (fun h res s => Looked m (reqs i) i user look h s ∧ res = .ok true)
        (Mfa.claimFirst cfg (cfg.clean code) records) h s := by
  have hguess : (reqs i).guesses m = true := by simp [hi, MfaRequest.guesses, hsub]
  intro records
  induction records with
  | nil =>
      rintro h s - - - ⟨record, hmem, -⟩
      cases hmem
  | cons record records ih =>
      rintro h s hl hmem ⟨front, hfront⟩ ⟨other, hother, hmatches⟩
      have hfront' : ∃ front', listed m i list.before = front' ++ records :=
        ⟨front ++ [record], by rw [hfront, List.append_assoc]; rfl⟩
      rw [Mfa.claimFirst]
      split_ifs with hverify
      · refine Meets.bind guesses_compatible
          (meets_ask (P := Looked m (reqs i) i user look h) ?_) ?_ ?_
        · intro tr s₁ hh hr _ _ hheed
          exact ⟨trivial, (hl.frame hr).careful hguess hh hheed, hl.frame hr⟩
        · rintro h' now s' ⟨s₁, hl₁, rfl, -, hr₁⟩
          refine (meets_markUsed_last hi hsub hlist (List.mem_append_left _ hmem)
            ((hl₁.effect (q := .now) trivial).frame hr₁)).bind guesses_compatible
              (fun h claimed s hclaimed => ?_) ?_
          · obtain ⟨hl, hmem, hclaimed⟩ := hclaimed
            cases claimed
            · rcases hclaimed with hclaimed | ⟨-, hlast⟩
              · cases hclaimed
              -- The code was not the last match, so another one follows.
              · refine ih h s hl hmem hfront' ?_
                by_contra hnone
                push Not at hnone
                refine hlast ?_
                rw [hfront]
                exact lastMatch_append front hverify fun x hx => Bool.eq_false_iff.2 (hnone x hx)
            · intro tr s' _ hr _
              exact ⟨hl.frame hr, rfl⟩
          · rintro h e s ⟨-, -, he | ⟨he, -⟩⟩
            · cases he
            · cases he
        · rintro h' e s' ⟨_, -, -, he, -⟩
          cases he
      · refine ih h s hl hmem hfront' ?_
        rcases List.mem_cons.1 hother with rfl | hother
        · exact absurd hmatches hverify
        · exact ⟨other, hother, hmatches⟩

/-- A right code given outside the lock is found right. -/
lemma meets_factor_right {token : AccessToken} {code : String} (hi : reqs i = .disable token code)
    (hsub : token.sub = m) (hl : Looked m (reqs i) i user look h s)
    (hright : Mfa.verifiesTotp cfg user code = true ∨ cfg.clean code ≠ "") :
    Meets (guesses cfg reqs m) (mfaServer ι) i
      (fun h res s => Looked m (reqs i) i user look h s ∧ res = .ok true)
      (Mfa.verifyFactor cfg m user code) h s := by
  have hguess : (reqs i).guesses m = true := by simp [hi, MfaRequest.guesses, hsub]
  unfold Mfa.verifyFactor Mfa.consumeRecoveryCode
  split_ifs with htotp hempty
  · exact fun tr s' _ hr _ => ⟨hl.frame hr, rfl⟩
  · rcases hright with hright | hright
    · exact absurd hright htotp
    · exact absurd hempty hright
  · refine Meets.bind guesses_compatible (meets_ask (P := fun s₁ => Looked m (reqs i) i user look h s₁
      ∧ ∃ record ∈ listed m i s₁, matchesCode cfg (cfg.clean code) record = true) ?_) ?_ ?_
    · intro tr s₁ hh hr _ _ hheed
      exact ⟨trivial, (hl.frame hr).careful hguess hh hheed, hl.frame hr,
        (hheed.disable token code hi hsub).list rfl⟩
    · rintro h' records s' ⟨s₁, ⟨hl₁, hmatch⟩, rfl, hrecords, hr₁⟩
      obtain rfl : records = listed m i s₁ := Except.ok.inj hrecords
      exact meets_claims_right hi hsub rfl _ _ _ ((hl₁.effect (q := listing m) trivial).frame hr₁)
        (List.mem_append_right h List.mem_cons_self) ⟨[], rfl⟩ hmatch
    · rintro h' e s' ⟨_, -, -, he, -⟩
      cases he

omit [DecidableEq ι] in
lemma checkUser_cases (token : AccessToken) (user : User) : checkUser token (some user) = .ret user
    ∨ ∃ e, checkUser token (some user) = .raise e ∧ e ≠ MfaService.invalidCode := by
  unfold checkUser
  dsimp only
  split_ifs
  · exact .inr ⟨_, rfl, by decide⟩
  · exact .inr ⟨_, rfl, by decide⟩
  · exact .inr ⟨_, rfl, by decide⟩
  · exact .inl rfl

/-- The guard of a `disable`: the user that it loads is not locked, and the code is right. -/
lemma meets_guard_right {token : AccessToken} {code : String} (hi : reqs i = .disable token code)
    (hsub : token.sub = m) (hclean : UserClean m i s) :
    Meets (guesses cfg reqs m) (mfaServer ι) i
      (fun h res s => (∀ user, res = .ok user → cfg.mfaEnabled = true → user.mfaEnabled = true →
          ∃ look, Looked m (reqs i) i user look h s
            ∧ (Mfa.verifiesTotp cfg user code = true ∨ cfg.clean code ≠ ""))
        ∧ res ≠ .error MfaService.invalidCode)
      (Tx.lift recoveryCodes (getCurrentUser token)) [] s := by
  have hguess : (reqs i).guesses m = true := by simp [hi, MfaRequest.guesses, hsub]
  have hlooks : (reqs i).looks m (.select usersTable m) = true := by simp [hi, MfaRequest.looks]
  have hraise : ∀ {h : List (MfaEvent ι)} {s : MfaStore ι} (e : Exn), e ≠ MfaService.invalidCode →
      Meets (guesses cfg reqs m) (mfaServer ι) i
        (fun h res s => (∀ user, res = .ok user → cfg.mfaEnabled = true → user.mfaEnabled = true →
            ∃ look, Looked m (reqs i) i user look h s
              ∧ (Mfa.verifiesTotp cfg user code = true ∨ cfg.clean code ≠ ""))
          ∧ res ≠ .error MfaService.invalidCode)
        (.raise e : MfaTx User) h s :=
    fun e he _ _ _ _ _ => ⟨fun _ heq => (by cases heq), fun heq => he (Except.error.inj heq)⟩
  subst hsub
  unfold getCurrentUser
  split_ifs
  · exact hraise _ (by decide)
  · show Meets _ _ _ _ (Prog.bind (Prog.ask (S := sql twoFactor) (.select usersTable token.sub))
      fun found : Option User => Tx.lift recoveryCodes (checkUser token found)) [] s
    refine Meets.bind guesses_compatible (meets_ask (P := fun s₁ => UserClean token.sub i s₁
      ∧ RightDisable cfg token.sub token code [] ⟨i, .select usersTable token.sub, s₁, s₁⟩) ?_) ?_ ?_
    · intro tr s₁ hh hr _ _ hheed
      have hright := hheed.disable token code hi rfl
      rw [show own i tr = [] from hh] at hright
      exact ⟨trivial, careful_of_none (MfaRequest.userId_of_guesses hguess) rfl (by simp),
        hclean.frame hr, hright⟩
    · rintro h' found s' ⟨s₁, ⟨hclean, hright⟩, rfl, hfound, hr⟩
      have hv : s₁.view i usersTable token.sub = found := (Except.ok.inj hfound).symm
      change Option User at found
      cases found with
      | none => exact hraise _ (by decide)
      | some user =>
          rcases checkUser_cases token user with hret | ⟨e, he, hne⟩
          · rw [hret]
            intro tr s₂ _ hr' _
            refine ⟨fun user' huser hcfg henabled => ?_, fun heq => (by cases heq)⟩
            obtain rfl := Except.ok.inj huser
            obtain ⟨hfree, hcode⟩ := hright.look rfl user hv hret hcfg henabled
            have hcom : s₁.committed usersTable token.sub = some user :=
              (Db.view_of_not_own hclean).symm.trans hv
            have hl : Looked token.sub (reqs i) i user ⟨i, .select usersTable token.sub, s₁, s₁⟩
                [⟨i, .select usersTable token.sub, s₁, s₁⟩] s₁ :=
              { found := by simp [lookOf, hlooks]
                unlocked := by
                  rw [Locked, hcom]
                  exact Bool.eq_false_iff.1 hfree
                past := le_rfl
                free := hfree
                loaded := ⟨_, List.mem_cons_self, rfl, hv⟩
                kept := fun ev hev => by
                  rw [List.mem_singleton.1 hev]
                  exact rfl
                clean := hclean }
            exact ⟨_, (hl.frame hr).frame hr', hcode⟩
          · rw [he]
            exact hraise e hne
    · rintro h' e s' ⟨_, -, -, he, -⟩
      cases he

/-- Statements that neither load or write users nor list unused codes. -/
def Apart : Sql twoFactor → Prop
  | .select .. => False
  | .scan (.inr (.unused _)) => False
  | .update (.inl (.flush ..)) _ => False
  | _ => True

lemma Apart.still (hq : Apart q) : Still m q := by
  cases q with
  | select t n => exact hq.elim
  | update u n =>
      cases u with
      | inl u =>
          cases u with
          | flush known new => exact hq.elim
          | _ => trivial
      | inr u => trivial
  | _ => trivial

lemma Apart.ne_listing (hq : Apart q) : q ≠ listing m := by
  rintro rfl
  exact hq

/-- Besides the flushes of the user, the replacement of the codes issues statements apart. -/
lemma issues_replaceCodes {φ : Sql twoFactor → Prop} {userId : ℕ}
    (hflush : ∀ known user, φ (.update (.inl (.flush known user)) userId))
    (hrest : ∀ q, Apart q → φ q) (known user : User) (hashes : List String) :
    (Mfa.replaceCodes userId known user hashes).Issues φ := by
  have hwrite : ∀ known user : User, (Tx.lift recoveryCodes (flush userId known user)).Issues φ :=
    fun known user => Prog.issues_translate (issues_flush fun _ => hflush known user)
  have hdelete : (UserRecoveryCodeRepository.deleteAllForUser userId).Issues φ := by
    refine Prog.issues_bind ⟨hrest _ trivial, fun _ => trivial⟩ fun rows => ?_
    refine Prog.issues_tally (fun row => ?_) rows
    exact ⟨hrest _ trivial, fun _ => trivial⟩
  have hrevoke : ∀ now : Time,
      (Tx.lift recoveryCodes (RefreshTokenRepository.revokeAllForUser userId now)).Issues φ :=
    fun now => Prog.issues_translate (issues_revokeAllForUser (hrest _ trivial)
      fun _ => hrest _ trivial)
  have hadd : (UserRecoveryCodeRepository.addAll userId hashes).Issues φ := by
    refine Prog.issues_tally (fun codeHash => ?_) hashes
    exact ⟨hrest _ trivial, fun _ => trivial⟩
  refine Prog.issues_bind (hwrite known user) fun _ => Prog.issues_bind hdelete fun _ => ?_
  refine Prog.issues_bind ⟨hrest _ trivial, fun _ => trivial⟩ fun now => ?_
  refine Prog.issues_bind (hwrite _ _) fun _ => Prog.issues_bind (hrevoke now) fun _ => ?_
  exact Prog.issues_bind hadd fun _ => ⟨hrest _ trivial, fun _ => trivial⟩

lemma throws_replaceCodes (userId : ℕ) (known user : User) (hashes : List String) :
    (Mfa.replaceCodes userId known user hashes).Throws (· ≠ MfaService.invalidCode) := by
  have hdelete : (UserRecoveryCodeRepository.deleteAllForUser userId).Throws
      (· ≠ MfaService.invalidCode) := by
    refine Prog.throws_bind (fun _ => trivial) fun rows => Prog.throws_tally (fun row => ?_) rows
    exact fun _ => trivial
  have hrevoke : ∀ now : Time, (RefreshTokenRepository.revokeAllForUser userId now).Throws
      (· ≠ MfaService.invalidCode) := by
    intro now
    refine Prog.throws_bind (fun _ => trivial) fun rows => Prog.throws_tally (fun row => ?_) rows
    exact fun _ => trivial
  have hadd : (UserRecoveryCodeRepository.addAll userId hashes).Throws
      (· ≠ MfaService.invalidCode) := by
    refine Prog.throws_tally (fun codeHash => ?_) hashes
    exact fun _ => trivial
  refine Prog.throws_bind (throws_flush ..) fun _ => Prog.throws_bind hdelete fun _ => ?_
  refine Prog.throws_bind (fun _ => trivial) fun now => ?_
  refine Prog.throws_bind (throws_flush ..) fun _ => ?_
  refine Prog.throws_bind (Prog.throws_translate (hrevoke now)) fun _ => ?_
  exact Prog.throws_bind hadd fun _ _ => trivial

/-- `disable` of a user whose guard was passed. -/
lemma meets_disable_right {token : AccessToken} {code : String} (hi : reqs i = .disable token code)
    (hsub : token.sub = m)
    (hright : cfg.mfaEnabled = true → user.mfaEnabled = true → ∃ look,
      Looked m (reqs i) i user look h s
        ∧ (Mfa.verifiesTotp cfg user code = true ∨ cfg.clean code ≠ "")) :
    Meets (guesses cfg reqs m) (mfaServer ι) i (Counts cfg reqs m i) (Mfa.disable cfg m user code) h
      s := by
  have hguess : (reqs i).guesses m = true := by simp [hi, MfaRequest.guesses, hsub]
  unfold Mfa.disable
  split_ifs with hcfg henabled
  · exact meets_raised (by decide)
  · exact meets_raised (by decide)
  · obtain ⟨look, hl, hcode⟩ := hright (by simpa using hcfg) (by simpa using henabled)
    refine (meets_factor_right hi hsub hl hcode).bind guesses_compatible (fun h right s hQ => ?_)
      fun _ e _ hQ => (by cases hQ.2)
    obtain ⟨hl, hright⟩ := hQ
    obtain rfl := Except.ok.inj hright
    exact meets_right hguess
      (issues_replaceCodes (fun _ _ => by simp) (fun q hq => hq.ne_listing) _ _ _)
      (throws_replaceCodes ..) hl.found hl.unlocked

/-- Requests about another user leave this one alone. -/
lemma MfaRequest.issues_still (hr : r.userId ≠ m) : (r.body cfg).Issues (Still m) := by
  have hguard : ∀ token : AccessToken, token.sub ≠ m →
      (Tx.lift recoveryCodes (getCurrentUser token)).Issues (Still m) := by
    intro token hne
    refine Prog.issues_translate ?_
    unfold getCurrentUser
    split_ifs
    · trivial
    · refine Prog.issues_bind ⟨hne, fun _ => trivial⟩ fun found => ?_
      unfold checkUser
      cases found with
      | none => trivial
      | some user =>
          dsimp only
          split_ifs <;> trivial
  have hreplace : ∀ {userId : ℕ} (known user : User) (hashes : List String), userId ≠ m →
      (Mfa.replaceCodes userId known user hashes).Issues (Still m) := fun known user hashes hne =>
    issues_replaceCodes (fun _ _ => hne) (fun _ hq => hq.still) known user hashes
  have hregister : ∀ {userId : ℕ} (known user : User), userId ≠ m →
      (Mfa.register userId known user).Issues (Still m) := fun known user hne =>
    Prog.issues_bind (Prog.issues_translate (issues_flush fun _ => hne)) fun _ =>
      ⟨trivial, fun _ => trivial⟩
  have hcheck : ∀ (userId : ℕ) (user : User) (code : String),
      (Mfa.verifyFactor cfg userId user code).Issues (Still m) := fun userId user code =>
    issues_verifyFactor (fun _ => trivial) trivial (fun _ _ => trivial) userId user code
  cases r with
  | activate token code codes =>
      refine Prog.issues_bind (hguard token hr) fun user => Prog.issues_bind ?_ fun _ => trivial
      unfold Mfa.activate
      split_ifs
      · trivial
      · trivial
      · split
        · trivial
        · split_ifs
          · trivial
          · exact Prog.issues_bind (hreplace _ _ _ hr) fun _ => trivial
  | disable token code =>
      refine Prog.issues_bind (hguard token hr) fun user => Prog.issues_bind ?_ fun _ => trivial
      unfold Mfa.disable
      split_ifs
      · trivial
      · trivial
      · refine Prog.issues_bind (hcheck _ _ _) fun right => ?_
        cases right
        · trivial
        · exact hreplace _ _ _ hr
  | verify challenge code =>
      refine Prog.issues_bind ?_ fun _ => trivial
      unfold Mfa.verifyChallenge
      split_ifs
      · trivial
      · trivial
      · refine Prog.issues_bind ⟨hr, fun _ => trivial⟩ fun found => ?_
        split
        · trivial
        · refine Prog.issues_bind ⟨trivial, fun _ => trivial⟩ fun now => ?_
          dsimp only
          split_ifs
          · trivial
          · refine Prog.issues_bind (hcheck _ _ _) fun right => ?_
            cases right
            · exact Prog.issues_bind (hregister _ _ hr) fun _ => trivial
            · exact Prog.issues_bind (hregister _ _ hr) fun _ => trivial

/-- `verify_challenge`, from the load of the user on. -/
lemma meets_challenge {challenge : AccessToken} {code : String}
    (hi : reqs i = .verify challenge code) (hsub : challenge.sub = m) (hclean : UserClean m i s) :
    Meets (guesses cfg reqs m) (mfaServer ι) i (Counts cfg reqs m i)
      (Mfa.verifyChallenge cfg challenge code) [] s := by
  have hguess : (reqs i).guesses m = true := by simp [hi, MfaRequest.guesses, hsub]
  have hlooks : (reqs i).looks m (.select usersTable m) = false := by simp [hi, MfaRequest.looks]
  subst hsub
  unfold Mfa.verifyChallenge
  split_ifs
  · exact meets_raised (by decide)
  · exact meets_raised (by decide)
  · refine Meets.bind guesses_compatible (meets_ask (S := sql twoFactor)
      (q := .select usersTable challenge.sub) (P := UserClean challenge.sub i) ?_) ?_ ?_
    · intro tr s₁ _ hr _ _ _
      exact ⟨trivial, careful_of_none (MfaRequest.userId_of_guesses hguess) rfl (by simp),
        hclean.frame hr⟩
    · rintro h' found s' ⟨s₁, hclean, rfl, hfound, hr⟩
      have hv : s₁.view i usersTable challenge.sub = found := (Except.ok.inj hfound).symm
      split
      · exact meets_raised (by decide)
      · rename_i user huser
        have hfound : found = some user := (Option.filter_eq_some_iff.1 huser).1
        refine meets_verify hi rfl (Arrived.frame ⟨?_, ?_, ?_, hclean⟩ hr)
        · simp [lookOf, hlooks]
        · exact ⟨_, List.mem_cons_self, rfl, hv.trans hfound⟩
        · intro ev hev
          rw [List.mem_singleton.1 hev]
          exact rfl
    · rintro h' e s' ⟨_, -, -, he, -⟩
      cases he

/-- **The requests keep the contract.** -/
theorem meets_guesses (hclean : UserClean m i s) :
    Meets (guesses cfg reqs m) (mfaServer ι) i (Counts cfg reqs m i) ((reqs i).run cfg) [] s := by
  have hfree : ∀ {h : List (MfaEvent ι)} {s : MfaStore ι} {p : MfaTx MfaAnswer},
      (reqs i).guesses m = false →
      Meets (guesses cfg reqs m) (mfaServer ι) i (fun _ _ _ => True) p h s →
      Meets (guesses cfg reqs m) (mfaServer ι) i (Counts cfg reqs m i) p h s := by
    intro h s p hguess hp
    refine hp.mono fun h res s _ hr => ?_
    rw [hguess] at hr
    cases hr
  have hbody : Meets (guesses cfg reqs m) (mfaServer ι) i (Counts cfg reqs m i) ((reqs i).body cfg) []
      s := by
    by_cases hne : (reqs i).userId = m
    · cases hi : reqs i with
      | activate token code codes =>
          have hguess : (reqs i).guesses m = false := by simp [hi, MfaRequest.guesses]
          exact hfree hguess (meets_own hne hguess)
      | disable token code =>
          have hsub : token.sub = m := by simpa [hi, MfaRequest.userId] using hne
          subst hsub
          refine (meets_guard_right hi rfl hclean).bind guesses_compatible (fun h user s hQ => ?_)
            fun _ e _ hQ _ heq => absurd heq fun heq => hQ.2 (congrArg _ (Except.error.inj heq))
          refine (meets_disable_right hi rfl (hQ.1 user rfl)).bind guesses_compatible
            (fun h _ s _ tr s' _ _ _ _ heq => by cases heq) fun h e s hQ hr heq => ?_
          exact hQ hr (congrArg _ (Except.error.inj heq))
      | verify challenge code =>
          have hsub : challenge.sub = m := by simpa [hi, MfaRequest.userId] using hne
          refine (meets_challenge hi hsub hclean).bind guesses_compatible
            (fun h _ s _ tr s' _ _ _ _ heq => by cases heq) fun h e s hQ hr heq => ?_
          exact hQ hr (congrArg _ (Except.error.inj heq))
    · have hguess : (reqs i).guesses m = false :=
        Bool.eq_false_iff.2 fun hr => hne (MfaRequest.userId_of_guesses hr)
      exact hfree hguess (meets_others hne (MfaRequest.issues_still hne) hclean)
  refine Meets.withSession guesses_compatible hbody fun h res s tr s' hQ _ _ _ _ =>
    ⟨trivial, careful_rollback, fun _ _ hr heq => ?_⟩
  obtain ⟨look, hfound, hcounted⟩ := hQ hr heq
  exact ⟨look, lookOf_append hfound _, hcounted.append (strikesKept_of_ne_commit (by simp))⟩

end Guesses

section Main

variable {ι : Type} [DecidableEq ι]

/-- **Guesses are bounded**: in every run whose steps are all heeded, no code of user `m` is checked
while its lock is in force, every rejected code raises the counter by exactly one and locks the user
at the limit, and requests about other users leave counter and lock alone. -/
theorem guesses_bounded (cfg : Mfa.Settings) (reqs : ι → MfaRequest) (m : ℕ) (s : MfaStore ι)
    (hs : s.Settled) (c : Pool (sql twoFactor) ι (MfaStore ι) Exn MfaAnswer)
    (hc : Pool.Reach (mfaServer ι) (.start (fun i => (reqs i).run cfg) s) c)
    (hheed : Along (Heeded cfg reqs m) c.trace) :
    Along (fun past ev => Careful m (reqs ev.pid) (own ev.pid past) ev) c.trace
      ∧ ∀ i res, (c.procs i).bind Prog.result? = some res →
          RejectionCounted cfg m (reqs i) (own i c.trace) res := by
  have hclean : ∀ i, UserClean m i s := by
    intro i u hd
    rw [hs] at hd
    cases hd
  have hmeets : ∀ i, Meets (guesses cfg reqs m) (mfaServer ι) i (Counts cfg reqs m i)
      ((reqs i).run cfg) [] s := fun i => meets_guesses (hclean i)
  refine ⟨(hc.meets guesses_compatible trivial hmeets hheed).2.1, fun i res hres => ?_⟩
  obtain ⟨p, hp, hres⟩ := Option.bind_eq_some_iff.1 hres
  exact hc.post guesses_compatible trivial hmeets hheed hp hres

/-- A user with the second factor on, who is locked until `until_`. -/
def enrolled (until_ : Option Time) : MfaStore (Fin 2) :=
  Db.init (S := twoFactor) (fun t n => match t, n with
    | .inl .users, 0 => some { someUser .member true with
        mfaEnabled := true, mfaSecretEnc := some "123456", mfaLockedUntil := until_ }
    | _, _ => none) 1 (.still 0) fun t n hn => by
      match n with
      | 0 => omega
      | n + 1 => rcases t with (_ | _) | _ <;> rfl

/-- Two challenges with empty codes. -/
def emptyCodes : Fin 2 → MfaRequest := fun _ => .verify ⟨0, 0, some "mfa"⟩ ""

/-- There is no lock, and a counter that is written is as it was loaded. -/
def freshStep (ev : MfaEvent (Fin 2)) : Bool :=
  !(ev.before.committed usersTable 0).any (·.mfaLockedAt ev.before.time)
    && match ev.stmt with
      | .update (.inl (.flush known _)) _ => (ev.before.committed usersTable 0).all
          fun r : User => r.mfaFailedAttempts = known.mfaFailedAttempts
      | _ => true

omit [DecidableEq ι] in
lemma heeded_of_freshStep {past : List (MfaEvent (Fin 2))} {ev : MfaEvent (Fin 2)}
    (hfresh : freshStep ev = true) : Heeded plainCodes emptyCodes 0 past ev := by
  obtain ⟨hfree, hcount⟩ := Bool.and_eq_true_iff.mp hfresh
  refine ⟨fun _ _ hlocked => ?_, fun known user hstmt _ r hr => ?_, nofun⟩
  · rw [hlocked] at hfree
    cases hfree
  · rw [hstmt, hr] at hcount
    exact of_decide_eq_true hcount

/-- Both challenges are rejected, one after the other, and counted. -/
theorem guesses_bounded_twice :
    ∃ c : Pool (sql twoFactor) (Fin 2) (MfaStore (Fin 2)) Exn MfaAnswer,
      Pool.Reach (mfaServer (Fin 2)) (.start (fun i => (emptyCodes i).run plainCodes) (enrolled none)) c
        ∧ (c.store.committed usersTable 0).any (·.mfaFailedAttempts = 2) = true
        ∧ ∀ i, RejectionCounted plainCodes 0 (emptyCodes i) (own i c.trace)
            (.error MfaService.invalidCode : Except Exn MfaAnswer) := by
  have hrun : ((Pool.start (fun i => (emptyCodes i).run plainCodes) (enrolled none)).run
      (mfaServer (Fin 2)) (List.replicate 5 (.step 0) ++ List.replicate 5 (.step 1))).any fun c =>
        (c.store.committed usersTable 0).any (·.mfaFailedAttempts = 2)
          && (decide (∀ i, (c.procs i).bind Prog.result? = some (.error MfaService.invalidCode))
          && c.trace.all freshStep) := by
    decide +kernel
  obtain ⟨c, hc, hP⟩ := Pool.exists_of_run hrun
  obtain ⟨htwo, hP⟩ := Bool.and_eq_true_iff.mp hP
  obtain ⟨hrejected, hfresh⟩ := Bool.and_eq_true_iff.mp hP
  have hheed : Along (Heeded plainCodes emptyCodes 0) c.trace :=
    (along_iff_forall_mem.2 (List.all_eq_true.1 hfresh)).mono fun _ _ h => heeded_of_freshStep h
  exact ⟨c, hc, htwo, fun i => (guesses_bounded plainCodes emptyCodes 0 (enrolled none)
    (Db.settled_init _ _ _ _) c hc hheed).2 i _ (of_decide_eq_true hrejected i)⟩

/-- A `disable` with a wrong code. -/
def freeGuess : Fin 2 → MfaRequest := fun _ => .disable ⟨0, 0, none⟩ "000000"

/-- A user who is locked gives wrong codes to `disable`: they are checked and rejected, but not
counted. -/
theorem guesses_free :
    ∃ c : Pool (sql twoFactor) (Fin 2) (MfaStore (Fin 2)) Exn MfaAnswer,
      Pool.Reach (mfaServer (Fin 2)) (.start (fun i => (freeGuess i).run plainCodes)
          (enrolled (some 900))) c
        ∧ (∀ i, (c.procs i).bind Prog.result? = some (.error MfaService.invalidCode))
        ∧ (∀ ev ∈ c.trace, Locked 0 ev.before ∧ ev.stmt ≠ .commit)
        ∧ ∀ i, ¬ RejectionCounted plainCodes 0 (freeGuess i) (own i c.trace)
            (.error MfaService.invalidCode : Except Exn MfaAnswer) := by
  have hrun : ((Pool.start (fun i => (freeGuess i).run plainCodes) (enrolled (some 900))).run
      (mfaServer (Fin 2)) (List.replicate 3 (.step 0) ++ List.replicate 3 (.step 1))).any fun c =>
        decide (∀ i, (c.procs i).bind Prog.result? = some (.error MfaService.invalidCode))
          && c.trace.all fun ev => (ev.before.committed usersTable 0).any (·.mfaLockedAt ev.before.time)
            && decide (ev.stmt ≠ .commit) := by
    decide +kernel
  obtain ⟨c, hc, hP⟩ := Pool.exists_of_run hrun
  obtain ⟨hrejected, hP⟩ := Bool.and_eq_true_iff.mp hP
  have hall : ∀ ev ∈ c.trace, Locked 0 ev.before ∧ ev.stmt ≠ .commit := by
    intro ev hev
    obtain ⟨hlocked, hne⟩ := Bool.and_eq_true_iff.mp (List.all_eq_true.1 hP ev hev)
    exact ⟨hlocked, of_decide_eq_true hne⟩
  refine ⟨c, hc, of_decide_eq_true hrejected, hall, fun i hcounted => ?_⟩
  obtain ⟨look, -, h₁, ev, h₂, hown, hstrike, -⟩ := hcounted rfl rfl
  have hmem : ev ∈ own i c.trace := by
    rw [hown]
    exact List.mem_append_right h₁ List.mem_cons_self
  exact (hall ev (mem_own.1 hmem).1).2 hstrike.stmt

end Main

end Accounts
