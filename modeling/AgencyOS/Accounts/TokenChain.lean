import AgencyOS.Accounts.Model

/-!
Families of refresh tokens as chains.

The committed refresh tokens are a table that every commit moves on.  A token of a family is the
login token, or it was inserted as the successor of one of the family and is named by it, or it was
revoked before it was committed.

* `RefreshToken.Later`: how a commit may change a token;
* `Linear`: the families are chains with at most one active token, the last one;
* `Advance`: what one commit does to the table, and `Linear.advance`: it keeps the chains;
* `Advance.refl`, `Advance.revoke`, `Advance.insert`, `Advance.successor`: the commits that the
  operations make.
-/

namespace Accounts

open Automation

/-- A table of refresh tokens. -/
abbrev Tokens : Type := ℕ → Option RefreshToken

/-- How a commit may change a token: an active one may be revoked and replaced. -/
structure RefreshToken.Later (r r' : RefreshToken) : Prop where
  userId : r'.userId = r.userId
  familyId : r'.familyId = r.familyId
  expiresAt : r'.expiresAt = r.expiresAt
  frozen : r.revokedAt ≠ none → r' = r
  replaced : r'.replacedBy ≠ r.replacedBy → r'.revokedAt ≠ none

namespace RefreshToken

variable {r r' r'' : RefreshToken}

lemma Later.refl (r : RefreshToken) : r.Later r where
  userId := rfl
  familyId := rfl
  expiresAt := rfl
  frozen := fun _ => rfl
  replaced := fun h => absurd rfl h

lemma Later.revoked (h : r.Later r') (hr : r.revokedAt ≠ none) : r'.revokedAt ≠ none := by
  rwa [h.frozen hr]

/-- An active token was active before. -/
lemma Later.active (h : r.Later r') (hr : r'.revokedAt = none) : r.revokedAt = none := by
  by_contra hne
  exact h.revoked hne hr

lemma Later.trans (h : r.Later r') (h' : r'.Later r'') : r.Later r'' where
  userId := h'.userId.trans h.userId
  familyId := h'.familyId.trans h.familyId
  expiresAt := h'.expiresAt.trans h.expiresAt
  frozen := fun hr => (h'.frozen (h.revoked hr)).trans (h.frozen hr)
  replaced := fun hne => by
    by_cases hsame : r''.replacedBy = r'.replacedBy
    · exact h'.revoked (h.replaced (hsame ▸ hne))
    · exact h'.replaced hsame

lemma Later.family (h : r.Later r') (n : ℕ) : r'.family n = r.family n := by
  rw [RefreshToken.family, RefreshToken.family, h.familyId]

/-- `rk` belongs to the family and to the user of token `n`. -/
structure Follows (rk : RefreshToken) (n : ℕ) (r : RefreshToken) : Prop where
  familyId : rk.familyId = some (r.family n)
  userId : rk.userId = r.userId

lemma Follows.later {n : ℕ} {rk rk' : RefreshToken} (h : rk.Follows n r) (hk : rk.Later rk')
    (hr : r.Later r') : rk'.Follows n r' where
  familyId := by rw [hk.familyId, h.familyId, hr.family]
  userId := by rw [hk.userId, h.userId, hr.userId]

end RefreshToken

/-- The families are chains: at most one token of a family is active, no two tokens have the same
successor, a successor is a token of the family, every token that is neither a login token nor a
successor is revoked, and a family starts with its login token. -/
structure Linear (tokens : Tokens) : Prop where
  active : ∀ n m r r', tokens n = some r → tokens m = some r' → r.family n = r'.family m →
    r.revokedAt = none → r'.revokedAt = none → n = m
  named : ∀ n m r r' k, tokens n = some r → tokens m = some r' → r.replacedBy = some k →
    r'.replacedBy = some k → n = m
  successor : ∀ n r k, tokens n = some r → r.replacedBy = some k →
    r.revokedAt ≠ none ∧ ∃ rk, tokens k = some rk ∧ rk.Follows n r
  spare : ∀ n r, tokens n = some r → r.familyId ≠ none →
    (∀ m rm, tokens m = some rm → rm.replacedBy ≠ some n) → r.revokedAt ≠ none
  login : ∀ n r f, tokens n = some r → r.familyId = some f →
    ∃ rf, tokens f = some rf ∧ rf.familyId = none

/-- Before the first login there are no families. -/
lemma linear_of_none {tokens : Tokens} (h : ∀ n, tokens n = none) : Linear tokens where
  active := fun n m r r' hn => by
    rw [h] at hn
    cases hn
  named := fun n m r r' k hn => by
    rw [h] at hn
    cases hn
  successor := fun n r k hn => by
    rw [h] at hn
    cases hn
  spare := fun n r hn => by
    rw [h] at hn
    cases hn
  login := fun n r f hn => by
    rw [h] at hn
    cases hn

/-- A family starts with its login token. -/
lemma Linear.root {tokens : Tokens} (h : Linear tokens) {n : ℕ} {r : RefreshToken}
    (hr : tokens n = some r) : ∃ rf, tokens (r.family n) = some rf ∧ rf.familyId = none := by
  cases hid : r.familyId with
  | none => exact ⟨r, by rw [RefreshToken.family, hid, Option.getD_none, hr], hid⟩
  | some f =>
      rw [RefreshToken.family, hid, Option.getD_some]
      exact h.login n r f hr hid

/-- What the row `r` added under `n` by a commit may be: a login token, a token revoked already, or
the successor of a token that was active. -/
def Joins (tokens tokens' : Tokens) (n : ℕ) (r : RefreshToken) : Prop :=
  r.familyId = none ∨ r.revokedAt ≠ none
    ∨ ∃ m rm rm', tokens m = some rm ∧ rm.revokedAt = none ∧ tokens' m = some rm'
        ∧ rm'.replacedBy = some n ∧ r.Follows m rm

/-- What one commit does to the table: tokens move on, at most one is added, and only a token added
becomes a successor. -/
structure Advance (tokens tokens' : Tokens) : Prop where
  rows : ∀ n r, tokens n = some r → ∃ r', tokens' n = some r' ∧ r.Later r'
  fresh : ∀ n r, tokens n = none → tokens' n = some r →
    r.replacedBy = none ∧ ∀ f, r.familyId = some f → ∃ rf, tokens f = some rf ∧ rf.familyId = none
  joins : ∀ n r, tokens n = none → tokens' n = some r → Joins tokens tokens' n r
  renamed : ∀ n r r', tokens n = some r → tokens' n = some r' → r'.replacedBy ≠ r.replacedBy →
    ∃ k rk, r'.replacedBy = some k ∧ tokens k = none ∧ tokens' k = some rk
      ∧ rk.Follows n r
  one : ∀ n m r r', tokens n = none → tokens m = none → tokens' n = some r → tokens' m = some r' →
    n = m

section Advance

variable {tokens tokens' : Tokens}

/-- A token of the new table is a later state of an old one, or was added. -/
lemma Advance.cases (ha : Advance tokens tokens') {n : ℕ} {r' : RefreshToken}
    (h : tokens' n = some r') : (∃ r, tokens n = some r ∧ r.Later r') ∨ tokens n = none := by
  cases hn : tokens n with
  | none => exact Or.inr rfl
  | some r =>
      obtain ⟨r₁, hr₁, hlater⟩ := ha.rows n r hn
      obtain rfl := Option.some.inj (hr₁.symm.trans h)
      exact Or.inl ⟨r, rfl, hlater⟩

/-- An added token shares its family with an old active one only as its successor. -/
lemma Linear.active_added (h : Linear tokens) (ha : Advance tokens tokens') {n m : ℕ}
    {r r' rm : RefreshToken} (hn : tokens n = none) (hr : tokens' n = some r)
    (hm : tokens m = some rm) (hr' : tokens' m = some r') (hlater : rm.Later r')
    (hfam : r.family n = r'.family m) (hlive : r.revokedAt = none) : r'.revokedAt ≠ none := by
  intro hlive'
  rcases ha.joins n r hn hr with hroot | hrevoked | ⟨m', rm₁, rm₂, hm₁, hact, hm₂, hname, hf⟩
  · -- a login token starts a family of its own
    have hfam' : rm.family m = n := by
      rw [← hlater.family, ← hfam, RefreshToken.family, hroot, Option.getD_none]
    cases hid : rm.familyId with
    | none =>
        rw [RefreshToken.family, hid, Option.getD_none] at hfam'
        rw [hfam', hn] at hm
        cases hm
    | some f =>
        rw [RefreshToken.family, hid, Option.getD_some] at hfam'
        obtain ⟨rf, hrf, -⟩ := h.login m rm f hm hid
        rw [hfam', hn] at hrf
        cases hrf
  · exact hrevoked hlive
  · have hsame : m = m' := by
      refine h.active m m' rm rm₁ hm hm₁ ?_ (hlater.active hlive') hact
      rw [← hlater.family, ← hfam, RefreshToken.family, hf.familyId, Option.getD_some]
    subst hsame
    obtain rfl := Option.some.inj (hm.symm.trans hm₁)
    obtain rfl := Option.some.inj (hr'.symm.trans hm₂)
    -- the token whose successor was added has been revoked with it
    by_cases hk : rm.replacedBy = some n
    · exact (h.successor m rm n hm hk).1 hact
    · exact hlater.replaced (by rwa [hname, ne_comm]) hlive'

/-- Whom a token of the new table names: the successor it had, or the token just added. -/
lemma Advance.named_cases (ha : Advance tokens tokens') {n k : ℕ} {r : RefreshToken}
    (hn : tokens' n = some r) (hk : r.replacedBy = some k) :
    ∃ rn, tokens n = some rn ∧ rn.Later r
      ∧ (rn.replacedBy = some k
        ∨ rn.revokedAt = none ∧ tokens k = none
          ∧ ∃ rk, tokens' k = some rk ∧ rk.Follows n rn) := by
  rcases ha.cases hn with ⟨rn, hrn, hlater⟩ | hnone
  · refine ⟨rn, hrn, hlater, ?_⟩
    by_cases hsame : r.replacedBy = rn.replacedBy
    · exact Or.inl (hsame ▸ hk)
    · obtain ⟨k', rk, hk', hfree, hrk, hfam⟩ := ha.renamed n rn r hrn hn hsame
      obtain rfl := Option.some.inj (hk.symm.trans hk')
      refine Or.inr ⟨?_, hfree, rk, hrk, hfam⟩
      by_contra hrevoked
      exact hsame (by rw [hlater.frozen hrevoked])
  · rw [(ha.fresh n r hnone hn).1] at hk
    cases hk

/-- **A commit keeps the chains.** -/
theorem Linear.advance (h : Linear tokens) (ha : Advance tokens tokens') : Linear tokens' where
  active := by
    intro n m r r' hn hm hfam hlive hlive'
    rcases ha.cases hn with ⟨rn, hrn, hlater⟩ | hnone
    · rcases ha.cases hm with ⟨rm, hrm, hlater'⟩ | hnone'
      · refine h.active n m rn rm hrn hrm ?_ (hlater.active hlive) (hlater'.active hlive')
        rw [← hlater.family, hfam, hlater'.family]
      · exact absurd hlive (h.active_added ha hnone' hm hrn hn hlater hfam.symm hlive')
    · rcases ha.cases hm with ⟨rm, hrm, hlater'⟩ | hnone'
      · exact absurd hlive' (h.active_added ha hnone hn hrm hm hlater' hfam hlive)
      · exact ha.one n m r r' hnone hnone' hn hm
  named := by
    intro n m r r' k hn hm hk hk'
    obtain ⟨rn, hrn, -, hold | ⟨hact, hfree, rk, hrk, hfam⟩⟩ := ha.named_cases hn hk
    · obtain ⟨rm, hrm, -, hold' | ⟨-, hfree, -⟩⟩ := ha.named_cases hm hk'
      · exact h.named n m rn rm k hrn hrm hold hold'
      · obtain ⟨-, rk, hrk, -⟩ := h.successor n rn k hrn hold
        rw [hfree] at hrk
        cases hrk
    · obtain ⟨rm, hrm, -, hold' | ⟨hact', -, rk', hrk', hfam'⟩⟩ := ha.named_cases hm hk'
      · obtain ⟨-, rk, hrk, -⟩ := h.successor m rm k hrm hold'
        rw [hfree] at hrk
        cases hrk
      · -- both have just been rotated: they were the active token of the family
        obtain rfl := Option.some.inj (hrk.symm.trans hrk')
        exact h.active n m rn rm hrn hrm 
          (Option.some.inj (hfam.familyId.symm.trans hfam'.familyId)) hact hact'
  successor := by
    intro n r k hn hk
    obtain ⟨rn, hrn, hlater, hold | ⟨hact, hfree, rk, hrk, hfam⟩⟩ := ha.named_cases hn hk
    · obtain ⟨hrevoked, rk, hrk, hfam⟩ := h.successor n rn k hrn hold
      obtain ⟨rk', hrk', hlater'⟩ := ha.rows k rk hrk
      exact ⟨hlater.revoked hrevoked, rk', hrk', hfam.later hlater' hlater⟩
    · refine ⟨hlater.replaced fun hsame => ?_, rk, hrk, hfam.later (.refl rk) hlater⟩
      exact (h.successor n rn k hrn (hsame ▸ hk)).1 hact
  spare := by
    intro n r hn hid hnone
    rcases ha.cases hn with ⟨rn, hrn, hlater⟩ | hfree
    · refine hlater.revoked (h.spare n rn hrn (hlater.familyId ▸ hid) fun m rm hrm hname => ?_)
      obtain ⟨rm', hrm', hlater'⟩ := ha.rows m rm hrm
      have hsame : rm' = rm := hlater'.frozen (h.successor m rm n hrm hname).1
      exact hnone m rm' hrm' (hsame ▸ hname)
    · rcases ha.joins n r hfree hn with hroot | hrevoked | ⟨m, -, rm', -, -, hrm', hname, -⟩
      · exact absurd hroot hid
      · exact hrevoked
      · exact absurd hname (hnone m rm' hrm')
  login := by
    intro n r f hn hf
    have hroot : ∃ rf, tokens f = some rf ∧ rf.familyId = none := by
      rcases ha.cases hn with ⟨rn, hrn, hlater⟩ | hfree
      · exact h.login n rn f hrn (hlater.familyId ▸ hf)
      · exact (ha.fresh n r hfree hn).2 f hf
    obtain ⟨rf, hrf, hid⟩ := hroot
    obtain ⟨rf', hrf', hlater⟩ := ha.rows f rf hrf
    exact ⟨rf', hrf', hlater.familyId.trans hid⟩

/-! ### The commits of the operations -/

lemma Advance.refl (tokens : Tokens) : Advance tokens tokens where
  rows := fun n r hr => ⟨r, hr, .refl r⟩
  fresh := fun n r hn hr => by
    rw [hn] at hr
    cases hr
  joins := fun n r hn hr => by
    rw [hn] at hr
    cases hr
  renamed := fun n r r' hr hr' hne => by
    obtain rfl := Option.some.inj (hr.symm.trans hr')
    exact absurd rfl hne
  one := fun n m r r' hn _ hr => by
    rw [hn] at hr
    cases hr

/-- A token is revoked as well. -/
lemma Advance.revoke (ha : Advance tokens tokens') {n : ℕ} {r : RefreshToken} (now : Time)
    (hr : tokens' n = some r) (hact : r.revokedAt = none) :
    Advance tokens (Function.update tokens' n (some { r with revokedAt := some now })) := by
  have hlater : r.Later { r with revokedAt := some now } :=
    ⟨rfl, rfl, rfl, fun h => absurd hact h, fun h => absurd rfl h⟩
  -- every token of the table stands there as before, but for its revocation
  have hold : ∀ m rm, Function.update tokens' n (some { r with revokedAt := some now }) m = some rm →
      ∃ rm₀, tokens' m = some rm₀ ∧ rm.replacedBy = rm₀.replacedBy ∧ rm.familyId = rm₀.familyId
        ∧ (rm = rm₀ ∨ rm.revokedAt ≠ none) := by
    intro m rm hm
    by_cases hmn : m = n
    · subst hmn
      rw [Function.update_self] at hm
      obtain rfl := Option.some.inj hm
      exact ⟨r, hr, rfl, rfl, Or.inr (by simp)⟩
    · rw [Function.update_of_ne hmn] at hm
      exact ⟨rm, hm, rfl, rfl, Or.inl rfl⟩
  have hnew : ∀ m rm, tokens' m = some rm → ∃ rm₁,
      Function.update tokens' n (some { r with revokedAt := some now }) m = some rm₁
        ∧ rm₁.replacedBy = rm.replacedBy ∧ rm.Later rm₁ := by
    intro m rm hm
    by_cases hmn : m = n
    · subst hmn
      obtain rfl := Option.some.inj (hr.symm.trans hm)
      exact ⟨_, Function.update_self .., rfl, hlater⟩
    · exact ⟨rm, by rw [Function.update_of_ne hmn, hm], rfl, .refl rm⟩
  constructor
  · intro m rm hm
    obtain ⟨rm', hrm', hl⟩ := ha.rows m rm hm
    obtain ⟨rm₁, hrm₁, -, hl'⟩ := hnew m rm' hrm'
    exact ⟨rm₁, hrm₁, hl.trans hl'⟩
  · intro m rm hm hrm
    obtain ⟨rm₀, hrm₀, hname, hfam, -⟩ := hold m rm hrm
    rw [hname, hfam]
    exact ha.fresh m rm₀ hm hrm₀
  · intro m rm hm hrm
    obtain ⟨rm₀, hrm₀, -, hfam, hsame | hrevoked⟩ := hold m rm hrm
    · subst hsame
      refine (ha.joins m rm hm hrm₀).imp_right (Or.imp_right ?_)
      rintro ⟨m', r₁, r₂, hr₁, hact₁, hr₂, hname, hf⟩
      obtain ⟨r₃, hr₃, hname', -⟩ := hnew m' r₂ hr₂
      exact ⟨m', r₁, r₃, hr₁, hact₁, hr₃, hname'.trans hname, hf⟩
    · exact Or.inr (Or.inl hrevoked)
  · intro m rm rm' hm hrm' hne
    obtain ⟨rm₀, hrm₀, hname, -, -⟩ := hold m rm' hrm'
    obtain ⟨k, rk, hk, hfree, hrk, hfam⟩ := ha.renamed m rm rm₀ hm hrm₀ (hname ▸ hne)
    obtain ⟨rk', hrk', -, hl⟩ := hnew k rk hrk
    exact ⟨k, rk', hname.trans hk, hfree, hrk', hfam.later hl (.refl rm)⟩
  · intro m m' rm rm' hm hm' hrm hrm'
    obtain ⟨rm₀, hrm₀, -⟩ := hold m rm hrm
    obtain ⟨rm₁, hrm₁, -⟩ := hold m' rm' hrm'
    exact ha.one m m' rm₀ rm₁ hm hm' hrm₀ hrm₁

/-- A row of a table with one row added. -/
lemma added_cases {n k : ℕ} {x r : RefreshToken}
    (h : Function.update tokens k (some x) n = some r) :
    n = k ∧ r = x ∨ n ≠ k ∧ tokens n = some r := by
  by_cases hnk : n = k
  · subst hnk
    rw [Function.update_self] at h
    exact Or.inl ⟨rfl, (Option.some.inj h).symm⟩
  · rw [Function.update_of_ne hnk] at h
    exact Or.inr ⟨hnk, h⟩

/-- A login token is added, or a token that is revoked already. -/
lemma Advance.insert {k : ℕ} {x : RefreshToken} (hfree : tokens k = none)
    (hnone : x.replacedBy = none) (hspare : x.familyId = none ∨ x.revokedAt ≠ none)
    (hlogin : ∀ f, x.familyId = some f → ∃ rf, tokens f = some rf ∧ rf.familyId = none) :
    Advance tokens (Function.update tokens k (some x)) := by
  have hnew : ∀ n r, tokens n = none → Function.update tokens k (some x) n = some r →
      n = k ∧ r = x := by
    intro n r hn hr
    refine (added_cases hr).resolve_right fun h => ?_
    rw [hn] at h
    cases h.2
  have hsome : ∀ n r, tokens n = some r → Function.update tokens k (some x) n = some r := by
    intro n r hr
    rw [Function.update_of_ne, hr]
    rintro rfl
    rw [hfree] at hr
    cases hr
  constructor
  · exact fun n r hr => ⟨r, hsome n r hr, .refl r⟩
  · intro n r hn hr
    obtain ⟨-, rfl⟩ := hnew n r hn hr
    exact ⟨hnone, hlogin⟩
  · intro n r hn hr
    obtain ⟨-, rfl⟩ := hnew n r hn hr
    exact hspare.imp_right Or.inl
  · intro n r r' hr hr' hne
    obtain rfl := Option.some.inj (hr'.symm.trans (hsome n r hr))
    exact absurd rfl hne
  · intro n m r r' hn hm hr hr'
    rw [(hnew n r hn hr).1, (hnew m r' hm hr').1]

/-- An active token is rotated: its successor is added, and the token is revoked and names it. -/
lemma Advance.successor {n k : ℕ} {r x : RefreshToken} (now : Time) (h : Linear tokens)
    (hfree : tokens k = none) (hr : tokens n = some r) (hact : r.revokedAt = none)
    (hnone : x.replacedBy = none) (hfam : x.Follows n r) :
    Advance tokens (Function.update (Function.update tokens k (some x)) n
      (some { r with revokedAt := some now, replacedBy := some k })) := by
  have hkn : k ≠ n := by
    rintro rfl
    rw [hfree] at hr
    cases hr
  have hlater : r.Later { r with revokedAt := some now, replacedBy := some k } :=
    ⟨rfl, rfl, rfl, fun hne => absurd hact hne, fun _ => by simp⟩
  have hnewRow : Function.update (Function.update tokens k (some x)) n
      (some { r with revokedAt := some now, replacedBy := some k }) k = some x := by
    rw [Function.update_of_ne hkn, Function.update_self]
  have hcases : ∀ m rm, Function.update (Function.update tokens k (some x)) n
      (some { r with revokedAt := some now, replacedBy := some k }) m = some rm →
      (m = n ∧ rm = { r with revokedAt := some now, replacedBy := some k }) ∨ (m = k ∧ rm = x)
        ∨ m ≠ n ∧ tokens m = some rm := by
    intro m rm hm
    rcases added_cases hm with h | ⟨hmn, hm⟩
    · exact Or.inl h
    · exact Or.inr ((added_cases hm).imp_right fun h => ⟨hmn, h.2⟩)
  have hnew : ∀ m rm, tokens m = none → Function.update (Function.update tokens k (some x)) n
      (some { r with revokedAt := some now, replacedBy := some k }) m = some rm →
      m = k ∧ rm = x := by
    intro m rm hm hrm
    rcases hcases m rm hrm with ⟨rfl, -⟩ | h | ⟨-, hold⟩
    · rw [hr] at hm
      cases hm
    · exact h
    · rw [hm] at hold
      cases hold
  constructor
  · intro m rm hm
    by_cases hmn : m = n
    · subst hmn
      obtain rfl := Option.some.inj (hr.symm.trans hm)
      exact ⟨_, Function.update_self .., hlater⟩
    · refine ⟨rm, ?_, .refl rm⟩
      rw [Function.update_of_ne hmn, Function.update_of_ne, hm]
      rintro rfl
      rw [hfree] at hm
      cases hm
  · intro m rm hm hrm
    obtain ⟨-, rfl⟩ := hnew m rm hm hrm
    refine ⟨hnone, fun f hf => ?_⟩
    rw [hfam.familyId] at hf
    rw [← Option.some.inj hf]
    exact h.root hr
  · intro m rm hm hrm
    obtain ⟨rfl, rfl⟩ := hnew m rm hm hrm
    exact Or.inr (Or.inr ⟨n, r, _, hr, hact, Function.update_self .., rfl, hfam⟩)
  · intro m rm rm' hm hrm' hne
    rcases hcases m rm' hrm' with ⟨rfl, rfl⟩ | ⟨rfl, -⟩ | ⟨-, hold⟩
    · obtain rfl := Option.some.inj (hr.symm.trans hm)
      exact ⟨k, x, rfl, hfree, hnewRow, hfam⟩
    · rw [hfree] at hm
      cases hm
    · obtain rfl := Option.some.inj (hm.symm.trans hold)
      exact absurd rfl hne
  · intro m m' rm rm' hm hm' hrm hrm'
    rw [(hnew m rm hm hrm).1, (hnew m' rm' hm' hrm').1]

/-- What a session is about to commit is still one commit after others have committed, if they have
left alone the rows it has written. -/
lemma Advance.frame {seen seen' : Tokens} (ha : Advance tokens seen) (h : Linear tokens)
    (hrows : ∀ n r, tokens n = some r → ∃ r', tokens' n = some r' ∧ r.Later r')
    (hseen : ∀ n, (seen' n = seen n ∧ tokens' n = tokens n)
      ∨ (seen n = tokens n ∧ seen' n = tokens' n)) : Advance tokens' seen' := by
  have hown : ∀ n r, tokens' n = none → seen' n = some r → tokens n = none ∧ seen n = some r := by
    intro n r hn hr
    rcases hseen n with ⟨hs, ht⟩ | ⟨-, hs⟩
    · exact ⟨ht ▸ hn, hs ▸ hr⟩
    · rw [hs, hn] at hr
      cases hr
  constructor
  · intro n r hr
    rcases hseen n with ⟨hs, ht⟩ | ⟨-, hs⟩
    · rw [hs]
      exact ha.rows n r (ht ▸ hr)
    · exact ⟨r, hs.trans hr, .refl r⟩
  · intro n r hn hr
    obtain ⟨hn', hr'⟩ := hown n r hn hr
    obtain ⟨hnone, hlogin⟩ := ha.fresh n r hn' hr'
    refine ⟨hnone, fun f hf => ?_⟩
    obtain ⟨rf, hrf, hid⟩ := hlogin f hf
    obtain ⟨rf', hrf', hlater⟩ := hrows f rf hrf
    exact ⟨rf', hrf', hlater.familyId.trans hid⟩
  · intro n r hn hr
    obtain ⟨hn', hr'⟩ := hown n r hn hr
    refine (ha.joins n r hn' hr').imp_right (Or.imp_right ?_)
    rintro ⟨m, rm, rm', hrm, hact, hrm', hname, hfam⟩
    rcases hseen m with ⟨hs, ht⟩ | ⟨hs, -⟩
    · exact ⟨m, rm, rm', ht.trans hrm, hact, hs.trans hrm', hname, hfam⟩
    · obtain rfl := Option.some.inj (hrm'.symm.trans (hs.trans hrm))
      exact absurd hact (h.successor m rm' n hrm hname).1
  · intro n r r' hr hr' hne
    rcases hseen n with ⟨hs, ht⟩ | ⟨-, hs⟩
    · obtain ⟨k, rk, hk, hfree, hrk, hfam⟩ := ha.renamed n r r' (ht ▸ hr) (hs ▸ hr') hne
      rcases hseen k with ⟨hs', ht'⟩ | ⟨hs', -⟩
      · exact ⟨k, rk, hk, ht'.trans hfree, hs'.trans hrk, hfam⟩
      · rw [hs', hfree] at hrk
        cases hrk
    · obtain rfl := Option.some.inj (hr.symm.trans (hs ▸ hr'))
      exact absurd rfl hne
  · intro n m r r' hn hm hr hr'
    obtain ⟨hn', hrn⟩ := hown n r hn hr
    obtain ⟨hm', hrm⟩ := hown m r' hm hr'
    exact ha.one n m r r' hn' hm' hrn hrm

end Advance

end Accounts
