import AgencyOS.Accounts.AccountSecurity
import AgencyOS.Accounts.TokenVersion

/-!
Account tokens under concurrent issues and claims.

A claim is one guarded `UPDATE`, so no token is consumed twice.  To issue a token is a bulk `UPDATE` of
the outstanding ones and an `INSERT`: the bulk read does not see a token that another session is about
to commit, and nothing else keeps that one from staying live.

* `AuthToken.Later`, `tokens_ahead`: how the rows of tokens move on;
* `Consumes`, `consumptions`: the commits of claims, and how many there are of a token;
* `Latest`: only the token issued last is live;
* `issuing`, `Undivided`: what an open transaction issues, and issues that do not overlap;
* `Sound`, `oneLive`: the invariant and the contract of the requests, and `oneLive_request`;
* `one_live_token`: every run whose issues do not overlap.
-/

namespace Accounts

open Txn Automation

/-! ### The rows of tokens -/

/-- The user and the purpose that a token is for. -/
def AuthToken.key (r : AuthToken) : ℕ × Purpose := (r.userId, r.purpose)

/-- The later version of a token: it may have been used. -/
structure AuthToken.Later (r r' : AuthToken) : Prop where
  key : r'.key = r.key
  expiresAt : r'.expiresAt = r.expiresAt
  used : r.usedAt ≠ none → r'.usedAt ≠ none

lemma AuthToken.Later.refl (r : AuthToken) : r.Later r := ⟨rfl, rfl, id⟩

lemma AuthToken.Later.trans {r r' r'' : AuthToken} (h : r.Later r') (h' : r'.Later r'') :
    r.Later r'' :=
  ⟨h'.key.trans h.key, h'.expiresAt.trans h.expiresAt, h'.used ∘ h.used⟩

/-- The later version of a row; only tokens are followed. -/
def LaterRow : (t : Table) → Row t → Row t → Prop
  | .authTokens, r, r' => r.Later r'
  | _, _, _ => True

lemma LaterRow.refl : ∀ (t : Table) (r : Row t), LaterRow t r r
  | .authTokens, r => AuthToken.Later.refl r
  | .users, _ => trivial
  | .refreshTokens, _ => trivial

lemma LaterRow.trans : ∀ {t : Table} {r r' r'' : Row t}, LaterRow t r r' → LaterRow t r' r'' →
    LaterRow t r r''
  | .authTokens, _, _, _, h, h' => AuthToken.Later.trans h h'
  | .users, _, _, _, _, _ => trivial
  | .refreshTokens, _, _, _, _, _ => trivial

lemma AuthToken.later_used (r : AuthToken) (now : Time) : r.Later { r with usedAt := some now } :=
  ⟨rfl, rfl, fun _ => Option.some_ne_none now⟩

lemma laterRow_set (u : SecurityUpdate) (r : Row u.target) : LaterRow u.target r (u.act.set r) := by
  cases u with
  | account u =>
      cases u with
      | claim purpose now => exact AuthToken.later_used r now
      | flush loaded new => trivial
      | markReplaced replacedBy now => trivial
      | revoke now => trivial
      | revokeOutstanding userId now => trivial
  | invalidate userId purpose now => exact AuthToken.later_used r now

/-- A statement writes a token that is not used, and marks it as used. -/
lemma used_of_set {u : SecurityUpdate} {r : Row u.target} {r' : AuthToken}
    (hg : u.act.guard r = true) (hset : (⟨u.target, u.act.set r⟩ : Σ t, Row t) = ⟨.authTokens, r'⟩) :
    ∃ r₀ : AuthToken, (⟨u.target, r⟩ : Σ t, Row t) = ⟨.authTokens, r₀⟩ ∧ r₀.usedAt = none ∧
      r'.usedAt ≠ none ∧ r₀.Later r' := by
  cases u with
  | account u =>
      cases u with
      | claim purpose now =>
          cases hset
          simp only [SecurityUpdate.act, Update.act, AuthToken.claim, Bool.and_eq_true,
            Option.isNone_iff_eq_none] at hg
          exact ⟨r, rfl, hg.1.2, Option.some_ne_none now, AuthToken.later_used r now⟩
      | flush loaded new => cases hset
      | markReplaced replacedBy now => cases hset
      | revoke now => cases hset
      | revokeOutstanding userId now => cases hset
  | invalidate userId purpose now =>
      cases hset
      simp only [SecurityUpdate.act, AuthToken.invalidate, Bool.and_eq_true,
        Option.isNone_iff_eq_none] at hg
      exact ⟨r, rfl, hg.2, Option.some_ne_none now, AuthToken.later_used r now⟩

variable {ι : Type} [DecidableEq ι] {s s' : SecurityDb ι} {i j : ι} {q : Sql accountSecurity}
  {n m : ℕ} {tr h : List (SecurityEvent ι)}

/-- The committed version of a token. -/
abbrev Token (s : SecurityDb ι) (n : ℕ) : Option AuthToken := s.committed .authTokens n

/-- The version of a token that session `i` sees. -/
abbrev TokenSeen (i : ι) (s : SecurityDb ι) (n : ℕ) : Option AuthToken := s.view i .authTokens n

/-- The uncommitted version of a token. -/
abbrev TokenHeld (s : SecurityDb ι) (n : ℕ) : Option (ι × AuthToken) := s.dirty .authTokens n

/-- A token that a session sees and that is not committed is its own. -/
lemma held_of_seen {r : AuthToken} (hv : TokenSeen i s n = some r) (hc : Token s n = none) :
    TokenHeld s n = some (i, r) := by
  rcases s.view_cases i .authTokens n with ⟨r₀, hd, hv'⟩ | ⟨-, hv'⟩
  · obtain rfl := Option.some.inj (hv'.symm.trans hv)
    exact hd
  · cases hc.symm.trans (hv'.symm.trans hv)

/-- Where an uncommitted version of a token comes from. -/
lemma tokenHeld_cases {r : AuthToken} (h : TokenHeld (Db.effect i q s) n = some (j, r)) :
    (TokenHeld s n = some (j, r) ∧ (q = .commit ∨ q = .rollback → j ≠ i)) ∨
      j = i ∧ ((∃ u r₀, q = .update u n ∧ TokenSeen i s n = some r₀ ∧ r₀.usedAt = none ∧
          r.usedAt ≠ none ∧ r₀.Later r) ∨
        ∃ x, q = .insert (.authToken x) ∧ n = s.fresh ∧ r = x.row) := by
  rcases Db.dirty_effect_cases h with
    hold | ⟨rfl, ⟨u, r₀, rfl, hv, hg, heq⟩ | ⟨x, rfl, hn, heq⟩⟩
  · exact Or.inl hold
  · obtain ⟨r₁, hr₁, hunused, hused, hlater⟩ := used_of_set hg heq
    refine Or.inr ⟨rfl, Or.inl ⟨u, r₁, rfl, ?_, hunused, hused, hlater⟩⟩
    have hsigma : (⟨u.target, s.view j u.target n⟩ : Σ t, Option (Row t)) =
        ⟨.authTokens, some r₁⟩ := by
      have hmap := congrArg (fun x : Σ t, Row t => (⟨x.1, some x.2⟩ : Σ t, Option (Row t))) hr₁
      rw [show s.view j u.target n = some r₀ from hv]
      exact hmap
    have htarget : u.target = .authTokens := congrArg Sigma.fst hsigma
    revert hsigma
    rw [htarget]
    intro hsigma
    exact eq_of_heq (Sigma.mk.inj hsigma).2
  · cases x with
    | authToken x =>
        cases heq
        exact Or.inr ⟨rfl, Or.inr ⟨x, rfl, hn, rfl⟩⟩
    | refreshToken x => cases heq

/-- Every uncommitted version of a token is later than the committed one. -/
def TokensAhead (s : SecurityDb ι) : Prop := Ahead (S := accountSecurity) LaterRow s

/-- Every statement keeps uncommitted versions of tokens ahead. -/
lemma TokensAhead.effect (h : TokensAhead s) (i : ι) (q : Sql accountSecurity) :
    TokensAhead (Db.effect i q s) := by
  refine Ahead.effect h LaterRow.refl fun u n r _ _ _ rc _ hlater => ?_
  exact LaterRow.trans hlater (laterRow_set u r)

/-- Committed tokens stay, and are at most used. -/
def TokensMoved (s s' : SecurityDb ι) : Prop :=
  ∀ n r, Token s n = some r → ∃ r', Token s' n = some r' ∧ r.Later r'

omit [DecidableEq ι] in
lemma TokensMoved.refl (s : SecurityDb ι) : TokensMoved s s :=
  fun _ r hr => ⟨r, hr, AuthToken.Later.refl r⟩

omit [DecidableEq ι] in
lemma TokensMoved.trans {s'' : SecurityDb ι} (h : TokensMoved s s') (h' : TokensMoved s' s'') :
    TokensMoved s s'' := by
  intro n r hr
  obtain ⟨r', hr', hlater⟩ := h n r hr
  obtain ⟨r'', hr'', hlater'⟩ := h' n r' hr'
  exact ⟨r'', hr'', hlater.trans hlater'⟩

lemma TokensAhead.moved (h : TokensAhead s) (i : ι) (q : Sql accountSecurity) :
    TokensMoved s (Db.effect i q s) :=
  fun _ _ hr => Ahead.committed (t := .authTokens) h LaterRow.refl i q hr

/-- What a session sees of a committed token is later. -/
lemma TokensAhead.seen (h : TokensAhead s) {r rc : AuthToken} (hr : TokenSeen i s n = some r)
    (hc : Token s n = some rc) : rc.Later r :=
  Ahead.view (t := .authTokens) h LaterRow.refl hr hc

/-! ### A token is consumed once -/

/-- The token has been used. -/
def Used (n : ℕ) (s : SecurityDb ι) : Prop := (Token s n).any (fun r => r.usedAt.isSome) = true

omit [DecidableEq ι] in
instance (n : ℕ) : DecidablePred (Used n : SecurityDb ι → Prop) :=
  fun s => inferInstanceAs (Decidable ((Token s n).any _ = true))

omit [DecidableEq ι] in
lemma used_iff : Used n s ↔ ∃ r, Token s n = some r ∧ r.usedAt ≠ none := by
  simp [Used, Option.any_eq_true, Option.isSome_iff_ne_none]

omit [DecidableEq ι] in
lemma Used.moved (h : Used n s) (hm : TokensMoved s s') : Used n s' := by
  obtain ⟨r, hr, hused⟩ := used_iff.mp h
  obtain ⟨r', hr', hlater⟩ := hm n r hr
  exact used_iff.mpr ⟨r', hr', hlater.used hused⟩

/-- The tokens that the open transaction of a session with the events `h` has claimed. -/
def claimed (h : List (SecurityEvent ι)) : List ℕ :=
  h.foldl (fun ns ev => match ev.stmt with
    | .commit | .rollback => []
    | .update (.account (.claim purpose now)) n =>
        if (ev.before.written ev.pid (.account (.claim purpose now)) n).isSome then ns ++ [n]
        else ns
    | _ => ns) []

lemma claimed_snoc (h : List (SecurityEvent ι)) (ev : SecurityEvent ι) :
    claimed (h ++ [ev]) = match ev.stmt with
      | .commit | .rollback => []
      | .update (.account (.claim purpose now)) n =>
          if (ev.before.written ev.pid (.account (.claim purpose now)) n).isSome then
            claimed h ++ [n]
          else claimed h
      | _ => claimed h := by
  rw [claimed, List.foldl_append]
  rfl

/-- The event is the commit of a session that has claimed the token. -/
def Consumes (n : ℕ) (past : List (SecurityEvent ι)) (ev : SecurityEvent ι) : Prop :=
  ev.stmt = .commit ∧ n ∈ claimed (own ev.pid past)

instance (n : ℕ) (past : List (SecurityEvent ι)) (ev : SecurityEvent ι) :
    Decidable (Consumes n past ev) := inferInstanceAs (Decidable (_ ∧ _))

/-- How many of the events, after those before, consume the token. -/
def consumptionsFrom (n : ℕ) : List (SecurityEvent ι) → List (SecurityEvent ι) → ℕ
  | _, [] => 0
  | past, ev :: tr => (if Consumes n past ev then 1 else 0) + consumptionsFrom n (past ++ [ev]) tr

def consumptions (n : ℕ) (tr : List (SecurityEvent ι)) : ℕ := consumptionsFrom n [] tr

/-- Tokens that were claimed are held as used ones, and are not used yet. -/
def ClaimsHeld (tr : List (SecurityEvent ι)) (s : SecurityDb ι) : Prop :=
  ∀ i n, n ∈ claimed (own i tr) →
    (∃ r, TokenHeld s n = some (i, r) ∧ r.usedAt ≠ none) ∧ ¬ Used n s

/-- A token that is held as a used one stays so until the transaction ends. -/
lemma held_used {r : AuthToken} (hd : TokenHeld s n = some (i, r)) (hused : r.usedAt ≠ none)
    (hc : q ≠ .commit) (hroll : q ≠ .rollback) :
    ∃ r', TokenHeld (Db.effect i q s) n = some (i, r') ∧ r'.usedAt ≠ none := by
  obtain ⟨r', hd', rfl | ⟨u, r₀, -, -, hg, hset⟩⟩ := Db.dirty_effect_own hd hc hroll
  · exact ⟨r', hd', hused⟩
  · obtain ⟨-, -, -, hused', -⟩ := used_of_set hg hset
    exact ⟨r', hd', hused'⟩

lemma not_used_effect (hc : q ≠ .commit) (h : ¬ Used n s) : ¬ Used n (Db.effect i q s) := by
  rw [Used, Token, Db.committed_effect hc]
  exact h

lemma ClaimsHeld.effect (h : ClaimsHeld tr s) (ha : TokensAhead s) (i : ι)
    (q : Sql accountSecurity) : ClaimsHeld (tr ++ [⟨i, q, s, Db.effect i q s⟩]) (Db.effect i q s) := by
  intro j n hn
  rw [own_append] at hn
  by_cases hj : j = i
  · subst hj
    have hkeep : q ≠ .commit → q ≠ .rollback → n ∈ claimed (own j tr) →
        (∃ r, TokenHeld (Db.effect j q s) n = some (j, r) ∧ r.usedAt ≠ none) ∧
          ¬ Used n (Db.effect j q s) := by
      intro hc hroll hmem
      obtain ⟨⟨r, hd, hused⟩, hnot⟩ := h j n hmem
      exact ⟨held_used hd hused hc hroll, not_used_effect hc hnot⟩
    rw [own_self, claimed_snoc] at hn
    dsimp only at hn
    split at hn
    · exact absurd hn List.not_mem_nil
    · exact absurd hn List.not_mem_nil
    · rename_i purpose now m
      split_ifs at hn with hw
      · rcases List.mem_append.mp hn with hmem | hmem
        · exact hkeep (by simp) (by simp) hmem
        · obtain rfl := List.mem_singleton.mp hmem
          obtain ⟨r', hw⟩ := Option.isSome_iff_exists.mp hw
          obtain ⟨-, r₀, hv, hg, rfl⟩ := Db.written_eq_some.mp hw
          have hunused : AuthToken.usedAt r₀ = none := by
            simp only [SecurityUpdate.act, Update.act, AuthToken.claim, Bool.and_eq_true,
              Option.isNone_iff_eq_none] at hg
            exact hg.1.2
          refine ⟨⟨_, Db.dirty_update hw, Option.some_ne_none now⟩, not_used_effect (by simp) ?_⟩
          intro hused
          obtain ⟨rc, hrc, hne⟩ := used_iff.mp hused
          exact (ha.seen hv hrc).used hne hunused
      · exact hkeep (by simp) (by simp) hn
    · rename_i hc hroll _
      exact hkeep (fun h => hc (by rw [h])) (fun h => hroll (by rw [h])) hn
  · rw [own_other (fun h : i = j => hj h.symm), List.append_nil] at hn
    obtain ⟨⟨r, hd, hused⟩, hnot⟩ := h j n hn
    have hf : Frame j s (Db.effect i q s) := frame_effect (fun h => hj h.symm) q s
    refine ⟨⟨r, (hf.dirty .authTokens n r).mpr hd, hused⟩, ?_⟩
    rw [Used, Token, hf.committed .authTokens n r hd]
    exact hnot

/-- The commit of a claim uses the token. -/
lemma ClaimsHeld.consumes (h : ClaimsHeld tr s)
    (hev : Consumes n tr ⟨i, q, s, Db.effect i q s⟩) : ¬ Used n s ∧ Used n (Db.effect i q s) := by
  obtain ⟨rfl, hn⟩ := hev
  obtain ⟨⟨r, hd, hused⟩, hnot⟩ := h i n hn
  exact ⟨hnot, used_iff.mpr ⟨r, Db.view_of_own hd, hused⟩⟩

/-- There are no more consumptions than events that use the token. -/
lemma consumptionsFrom_le {past : List (SecurityEvent ι)}
    (h : AlongFrom (fun past ev => Consumes n past ev → ¬ Used n ev.before ∧ Used n ev.after)
      past tr) : consumptionsFrom n past tr ≤ (Pool.flips (Used n) tr).length := by
  induction tr generalizing past with
  | nil => exact le_rfl
  | cons ev tr ih =>
      have hrest := ih h.2
      rw [consumptionsFrom, Pool.flips, List.filter_cons]
      split_ifs with hconsumes hflip hflip
      · rw [List.length_cons, Nat.add_comm]
        exact Nat.succ_le_succ hrest
      · exact absurd (by simpa using h.1 hconsumes) hflip
      · rw [List.length_cons, Nat.zero_add]
        exact hrest.trans (Nat.le_succ _)
      · rw [Nat.zero_add]
        exact hrest

/-! ### Issues that do not overlap -/

/-- Only the token issued last for a user and a purpose is live. -/
def Latest (s : SecurityDb ι) : Prop :=
  ∀ n r, Token s n = some r → r.usedAt = none → s.time < r.expiresAt →
    ∀ m r', Token s m = some r' → r'.key = r.key → m ≤ n

/-- What the open transaction of a session with the events `h` issues: the bulk `UPDATE`s of
outstanding tokens. -/
def issuing (h : List (SecurityEvent ι)) : List (ℕ × Purpose) :=
  h.foldl (fun keys ev => match ev.stmt with
    | .commit | .rollback => []
    | .scan (.unused userId purpose) => keys ++ [(userId, purpose)]
    | _ => keys) []

omit [DecidableEq ι] in
lemma issuing_snoc (h : List (SecurityEvent ι)) (ev : SecurityEvent ι) :
    issuing (h ++ [ev]) = match ev.stmt with
      | .commit | .rollback => []
      | .scan (.unused userId purpose) => issuing h ++ [(userId, purpose)]
      | _ => issuing h := by
  rw [issuing, List.foldl_append]
  rfl

/-- No session begins to issue a token while another one is issuing a token for the same user and
purpose. -/
def Undivided (past : List (SecurityEvent ι)) (ev : SecurityEvent ι) : Prop :=
  match ev.stmt with
  | .scan (.unused userId purpose) =>
      ∀ ev' ∈ past, ev'.pid ≠ ev.pid → (userId, purpose) ∉ issuing (own ev'.pid past)
  | _ => True

instance (past : List (SecurityEvent ι)) (ev : SecurityEvent ι) :
    Decidable (Undivided past ev) := by
  unfold Undivided
  split <;> infer_instance

omit [DecidableEq ι] in
/-- A transaction issues what it has issued, until it ends. -/
lemma issuing_mono {ev : SecurityEvent ι} {k : ℕ × Purpose} (hc : ev.stmt ≠ .commit)
    (hroll : ev.stmt ≠ .rollback) (hk : k ∈ issuing h) : k ∈ issuing (h ++ [ev]) := by
  rw [issuing_snoc]
  split
  · exact absurd ‹_› hc
  · exact absurd ‹_› hroll
  · exact List.mem_append_left _ hk
  · exact hk

omit [DecidableEq ι] in
lemma issuing_cases {ev : SecurityEvent ι} {k : ℕ × Purpose} (hk : k ∈ issuing (h ++ [ev])) :
    k ∈ issuing h ∨ ev.stmt = .scan (.unused k.1 k.2) := by
  rw [issuing_snoc] at hk
  split at hk
  · exact absurd hk List.not_mem_nil
  · exact absurd hk List.not_mem_nil
  · rename_i userId purpose hstmt
    rcases List.mem_append.mp hk with hk | hk
    · exact Or.inl hk
    · obtain rfl := List.mem_singleton.mp hk
      exact Or.inr hstmt
  · exact Or.inl hk

/-- A session that issues has executed something. -/
lemma exists_event_of_issuing {k : ℕ × Purpose} (hk : k ∈ issuing (own i tr)) :
    ∃ ev ∈ tr, ev.pid = i := by
  cases hown : own i tr with
  | nil =>
      rw [hown] at hk
      exact absurd hk List.not_mem_nil
  | cons ev rest =>
      have hmem : ev ∈ own i tr := by rw [hown]; exact List.mem_cons_self
      exact ⟨ev, mem_own.mp hmem⟩

/-- What holds of the tokens while issues do not overlap. -/
structure Sound (tr : List (SecurityEvent ι)) (s : SecurityDb ι) : Prop where
  ahead : TokensAhead s
  alone : ∀ i j k, k ∈ issuing (own i tr) → k ∈ issuing (own j tr) → i = j
  added : ∀ i n r, TokenHeld s n = some (i, r) → Token s n = none → r.key ∈ issuing (own i tr)
  latest : Latest s

/-- The new tokens of session `i` are the last ones of their user and purpose, and the only ones that
are not used. -/
def Ready (i : ι) (s : SecurityDb ι) : Prop :=
  ∀ n r, TokenHeld s n = some (i, r) → Token s n = none → ∀ m r', TokenSeen i s m = some r' →
    r'.key = r.key → m = n ∨ (r'.usedAt ≠ none ∧ m < n)

/-- A commit keeps the last token the only live one, if the new tokens are ready. -/
lemma Latest.commit (h : Latest s) (ha : TokensAhead s) (hready : Ready i s) :
    Latest (s.commit i) := by
  intro n r hn hunused hlive m r' hm hkey
  have hn' : TokenSeen i s n = some r := hn
  have hm' : TokenSeen i s m = some r' := hm
  cases hcn : Token s n with
  | none =>
      rcases hready n r (held_of_seen hn' hcn) hcn m r' hm' hkey with rfl | ⟨-, hlt⟩
      · exact le_rfl
      · exact hlt.le
  | some rc =>
      have hlater := ha.seen hn' hcn
      have hrc : rc.usedAt = none := by
        by_contra hused
        exact hlater.used hused hunused
      have hrclive : s.time < rc.expiresAt := by
        rw [← hlater.expiresAt]
        exact hlive
      cases hcm : Token s m with
      | some rm =>
          refine h n rc hcn hrc hrclive m rm hcm ?_
          calc rm.key = r'.key := (ha.seen hm' hcm).key.symm
            _ = r.key := hkey
            _ = rc.key := hlater.key
      | none =>
          rcases hready m r' (held_of_seen hm' hcm) hcm n r hn' hkey.symm with rfl | ⟨hused, -⟩
          · exact le_rfl
          · exact absurd hunused hused

/-- Nothing that session `i` has written and not committed is a new token. -/
def NoNew (i : ι) (s : SecurityDb ι) : Prop :=
  ∀ n r, TokenHeld s n = some (i, r) → Token s n ≠ none

lemma NoNew.ready (h : NoNew i s) : Ready i s := fun n r hd hc => absurd hc (h n r hd)

/-- A session that issues nothing has no new token. -/
lemma Sound.noNew (hs : Sound tr s) (hi : issuing (own i tr) = []) : NoNew i s := by
  intro n r hd hc
  have hk := hs.added i n r hd hc
  rw [hi] at hk
  exact absurd hk List.not_mem_nil

/-- **Every statement keeps the tokens sound**, if issues do not overlap, new tokens are of what the
transaction issues, and they are ready when it commits. -/
lemma Sound.effect (hs : Sound tr s) (has : Undivided tr ⟨i, q, s, Db.effect i q s⟩)
    (hinsert : ∀ x, q = .insert (.authToken x) → (x.userId, x.purpose) ∈ issuing (own i tr))
    (hcommit : q = .commit → Ready i s) :
    Sound (tr ++ [⟨i, q, s, Db.effect i q s⟩]) (Db.effect i q s) where
  ahead := hs.ahead.effect i q
  alone := by
    intro j l k hj hl
    -- one of the two issued before, and the statement does not begin what the other issues
    have hold : ∀ j, k ∈ issuing (own j (tr ++ [⟨i, q, s, Db.effect i q s⟩])) →
        k ∈ issuing (own j tr) ∨ j = i ∧ q = .scan (.unused k.1 k.2) := by
      intro j hj
      rw [own_append] at hj
      by_cases hji : j = i
      · subst hji
        rw [own_self] at hj
        exact (issuing_cases hj).imp_right fun h => ⟨rfl, h⟩
      · rw [own_other (fun h : i = j => hji h.symm), List.append_nil] at hj
        exact Or.inl hj
    have hnew : ∀ j, k ∈ issuing (own j tr) → q = .scan (.unused k.1 k.2) → j = i := by
      intro j hk hq
      by_contra hji
      obtain ⟨ev, hev, hpid⟩ := exists_event_of_issuing hk
      have hfree : k ∉ issuing (own ev.pid tr) := by
        rw [Undivided, hq] at has
        exact has ev hev (by rw [hpid]; exact hji)
      rw [hpid] at hfree
      exact hfree hk
    rcases hold j hj with hj' | ⟨hji, hq⟩
    · rcases hold l hl with hl' | ⟨hli, hq⟩
      · exact hs.alone j l k hj' hl'
      · exact (hnew j hj' hq).trans hli.symm
    · rcases hold l hl with hl' | ⟨hli, -⟩
      · exact hji.trans (hnew l hl' hq).symm
      · exact hji.trans hli.symm
  added := by
    intro j n r hd hc
    have hc' : Token s n = none := by
      by_contra hne
      obtain ⟨rc, hrc⟩ := Option.ne_none_iff_exists'.mp hne
      obtain ⟨r', hr', -⟩ := hs.ahead.moved i q n rc hrc
      cases hc.symm.trans hr'
    rw [own_append]
    rcases tokenHeld_cases hd with ⟨hold, hend⟩ | ⟨rfl, hwritten⟩
    · have hk := hs.added j n r hold hc'
      by_cases hji : j = i
      · subst hji
        rw [own_self]
        exact issuing_mono (fun h => hend (Or.inl h) rfl) (fun h => hend (Or.inr h) rfl) hk
      · rw [own_other (fun h : i = j => hji h.symm), List.append_nil]
        exact hk
    · rw [own_self]
      rcases hwritten with ⟨u, r₀, rfl, hv, -, -, hlater⟩ | ⟨x, rfl, rfl, rfl⟩
      · rw [hlater.key]
        exact issuing_mono (by simp) (by simp) (hs.added j n r₀ (held_of_seen hv hc') hc')
      · exact issuing_mono (by simp) (by simp) (hinsert x rfl)
  latest := by
    by_cases hq : q = .commit
    · subst hq
      exact hs.latest.commit hs.ahead (hcommit rfl)
    · intro n r hn hunused hlive m r' hm hkey
      rw [Token, Db.committed_effect hq] at hn hm
      exact hs.latest n r hn hunused ((Db.time_effect_le i q s).trans_lt hlive) m r' hm hkey

/-- A new token is committed by the session that issues it. -/
lemma Sound.commits (hs : Sound tr s) {r : AuthToken} (hc : Token s n = none)
    (hr : Token (Db.effect i q s) n = some r) : r.key ∈ issuing (own i tr) := by
  rcases Db.committed_effect_cases i q s .authTokens n with hsame | ⟨-, r', hd, hr'⟩
  · cases hc.symm.trans (hsame.symm.trans hr)
  · obtain rfl := Option.some.inj (hr.symm.trans hr')
    exact hs.added i n r hd hc

/-! ### The contract -/

/-- The contract of the requests. -/
def oneLive : Contract (sql accountSecurity) ι (SecurityDb ι) where
  inv := Sound
  assume := Undivided
  guar := fun _ h ev => ∀ n r, Token ev.before n = none → Token ev.after n = some r →
    r.key ∈ issuing h
  rely := fun i h s s' => Frame i s s' ∧ TokensMoved s s' ∧
    ∀ n r, Token s' n = some r → r.key ∈ issuing h → Token s n ≠ none

lemma Sound.guar (hs : Sound tr s) (i : ι) (q : Sql accountSecurity) :
    (oneLive : Contract (sql accountSecurity) ι (SecurityDb ι)).guar i (own i tr)
      ⟨i, q, s, Db.effect i q s⟩ := fun _ _ hc hr => hs.commits hc hr

lemma oneLive_compatible :
    (oneLive : Contract (sql accountSecurity) ι (SecurityDb ι)).Compatible (securityServer ι) where
  refl := fun i h s => ⟨.refl i s, .refl s, fun n r hr _ hnone => by cases hnone.symm.trans hr⟩
  trans := by
    rintro i h s₁ s₂ s₃ ⟨hf, hm, hold⟩ ⟨hf', hm', hold'⟩
    refine ⟨hf.trans hf', hm.trans hm', fun n r hr hk => ?_⟩
    obtain ⟨r₂, hr₂⟩ := Option.ne_none_iff_exists'.mp (hold' n r hr hk)
    obtain ⟨r₃, hr₃, hlater⟩ := hm' n r₂ hr₂
    obtain rfl := Option.some.inj (hr.symm.trans hr₃)
    rw [hlater.key] at hk
    exact hold n r₂ hr₂ hk
  step := by
    rintro tr ⟨i, q, s, s'⟩ j hj hI - - hafter hg
    obtain rfl : s' = Db.effect i q s := hafter
    refine ⟨frame_effect (fun h => hj h.symm) q s, hI.ahead.moved i q, fun n r hr hk hnone => ?_⟩
    exact hj (hI.alone j i r.key hk (hg n r hnone hr))
  hangup := by
    intro tr i s hI _ has
    exact ⟨hI.effect has (fun x hx => by cases hx) (fun hc => by cases hc), hI.guar i _⟩

/-! ### The programs -/

variable {α : Type}

omit [DecidableEq ι] in
lemma issuing_embedStmt {q : Sql accounts} (hh : issuing h = []) :
    issuing (h ++ [⟨i, embedStmt q, s, s'⟩]) = [] := by
  rw [issuing_snoc, hh]
  cases q <;> rfl

/-- A program on the account tables leaves the tokens sound, and issues nothing. -/
lemma oneLive_embed (p : Tx α) (hh : issuing h = []) :
    Meets oneLive (securityServer ι) i (fun h _ _ => issuing h = []) (embed p) h s := by
  refine meets_of_issues (φ := fun q => ∃ q₀, q = embedStmt q₀) (J := fun h _ => issuing h = [])
    (issues_embed (fun q => ⟨q, rfl⟩) p) (fun _ _ _ hJ _ => hJ) ?_ hh
  rintro tr - h s rfl ⟨q₀, rfl⟩ hI hJ - has
  refine ⟨hI.effect has (fun x hx => ?_) (fun _ => (hI.noNew hJ).ready), hI.guar i _,
    issuing_embedStmt hJ⟩
  cases q₀ <;> cases hx

/-- Session `i` issues a token for user and purpose `k`: it has no new token yet, and all outstanding
ones that it sees are still to be updated. -/
structure Invalidating (i : ι) (k : ℕ × Purpose) (todo : List ℕ) (h : List (SecurityEvent ι))
    (s : SecurityDb ι) : Prop where
  issuing : issuing h = [k]
  noNew : NoNew i s
  used : ∀ n r, TokenSeen i s n = some r → r.key = k → r.usedAt ≠ none ∨ n ∈ todo

/-- Session `i` has inserted the token that it issues. -/
structure LastIssued (i : ι) (k : ℕ × Purpose) (h : List (SecurityEvent ι)) (s : SecurityDb ι) :
    Prop where
  issuing : issuing h = [k]
  keys : ∀ n r, TokenHeld s n = some (i, r) → Token s n = none → r.key = k
  ready : Ready i s

/-- What a session sees of the tokens that it issues is what it has seen before, or has been used
since. -/
lemma seen_before {k : ℕ × Purpose} {r : AuthToken} (hh : issuing h = [k])
    (hr : (oneLive : Contract (sql accountSecurity) ι (SecurityDb ι)).rely i h s s')
    (hv : TokenSeen i s' n = some r) (hk : r.key = k) :
    ∃ r₀, TokenSeen i s n = some r₀ ∧ r₀.Later r := by
  obtain ⟨hf, hm, hold⟩ := hr
  rcases hf.view_cases .authTokens n with ⟨hsame, -⟩ | ⟨hview, hview'⟩
  · exact ⟨r, hsame.symm.trans hv, .refl r⟩
  · have hc : Token s' n = some r := hview'.symm.trans hv
    have hmem : r.key ∈ Accounts.issuing h := by
      rw [hh, hk]
      exact List.mem_cons_self
    obtain ⟨r₀, hr₀⟩ := Option.ne_none_iff_exists'.mp (hold n r hc hmem)
    obtain ⟨r', hr', hlater⟩ := hm n r₀ hr₀
    obtain rfl := Option.some.inj (hc.symm.trans hr')
    exact ⟨r₀, hview.trans hr₀, hlater⟩

lemma NoNew.frame (h : NoNew i s) (hf : Frame i s s') : NoNew i s' := by
  intro n r hd
  have hd' := (hf.dirty .authTokens n r).mp hd
  have hc : Token s' n = Token s n := hf.committed .authTokens n r hd'
  rw [hc]
  exact h n r hd'

lemma Invalidating.rely {k : ℕ × Purpose} {todo : List ℕ} (hs : Invalidating i k todo h s)
    (hr : (oneLive : Contract (sql accountSecurity) ι (SecurityDb ι)).rely i h s s') :
    Invalidating i k todo h s' where
  issuing := hs.issuing
  noNew := hs.noNew.frame hr.1
  used := by
    intro n r hv hk
    obtain ⟨r₀, hv₀, hlater⟩ := seen_before hs.issuing hr hv hk
    exact (hs.used n r₀ hv₀ (hlater.key.symm.trans hk)).imp_left hlater.used

lemma LastIssued.rely {k : ℕ × Purpose} (hs : LastIssued i k h s)
    (hr : (oneLive : Contract (sql accountSecurity) ι (SecurityDb ι)).rely i h s s') :
    LastIssued i k h s' := by
  have hback : ∀ n r, TokenHeld s' n = some (i, r) → Token s' n = none →
      TokenHeld s n = some (i, r) ∧ Token s n = none := by
    intro n r hd hc
    have hd' : TokenHeld s n = some (i, r) := (hr.1.dirty .authTokens n r).mp hd
    have hc' : Token s' n = Token s n := hr.1.committed .authTokens n r hd'
    exact ⟨hd', hc'.symm.trans hc⟩
  refine ⟨hs.issuing, fun n r hd hc => ?_, fun n r hd hc m r' hv hkey => ?_⟩
  · obtain ⟨hd', hc'⟩ := hback n r hd hc
    exact hs.keys n r hd' hc'
  · obtain ⟨hd', hc'⟩ := hback n r hd hc
    obtain ⟨r₀, hv₀, hlater⟩ := seen_before hs.issuing hr hv (hkey.trans (hs.keys n r hd' hc'))
    exact (hs.ready n r hd' hc' m r₀ hv₀ (hlater.key.symm.trans hkey)).imp_right
      fun h => ⟨hlater.used h.1, h.2⟩

section Issue

variable {userId : ℕ} {purpose : Purpose} {todo : List ℕ}

/-- The bulk `UPDATE` begins with the outstanding tokens that the session sees. -/
lemma oneLive_scan (hh : issuing h = []) :
    Meets oneLive (securityServer ι) i
      (fun h r s => ∃ rows : List (ℕ × AuthToken), r = .ok rows ∧
        Invalidating i (userId, purpose) (rows.map Prod.fst) h s)
      (Tx.scan (S := accountSecurity) (ε := Exn) (.unused userId purpose)) h s := by
  refine (meets_ask (P := NoNew i) ?_).mono ?_
  · rintro tr s₁ rfl - hI - has
    exact ⟨hI.effect has (fun x hx => by cases hx) (fun hc => by cases hc), hI.guar i _,
      hI.noNew hh⟩
  · rintro h' r s' ⟨s₁, hnew, rfl, rfl, hr⟩
    refine ⟨_, rfl, Invalidating.rely ⟨?_, hnew, fun n r hv hk => ?_⟩ hr⟩
    · rw [issuing_snoc, hh]
      rfl
    · by_cases hused : r.usedAt = none
      · refine Or.inr (List.mem_map.mpr ⟨(n, r), ?_, rfl⟩)
        refine Db.mem_rows.mpr ⟨hv, ?_⟩
        obtain ⟨huser, hpurpose⟩ := Prod.mk.inj hk
        simp [SecurityQuery.matching, huser, hpurpose, hused]
      · exact Or.inl hused

/-- One row of the bulk `UPDATE`. -/
lemma Invalidating.update {now : Time} (hs : Invalidating i (userId, purpose) (n :: todo) h s)
    (hready : Db.ready i (.update (.invalidate userId purpose now) n : Sql accountSecurity) s
      = true) :
    Invalidating i (userId, purpose) todo
      (h ++ [⟨i, .update (.invalidate userId purpose now) n, s,
        Db.effect i (.update (.invalidate userId purpose now) n) s⟩])
      (Db.effect i (.update (.invalidate userId purpose now) n) s) where
  issuing := by
    rw [issuing_snoc]
    exact hs.issuing
  noNew := by
    intro m r hd hc
    have hc' : Token s m = none := by
      rw [← hc, Token, Token, Db.committed_effect (by simp)]
    rcases tokenHeld_cases hd with ⟨hold, -⟩ | ⟨-, ⟨u, r₀, -, hv, -⟩ | ⟨x, hx, -⟩⟩
    · exact hs.noNew m r hold hc'
    · exact hs.noNew m r₀ (held_of_seen hv hc') hc'
    · cases hx
  used := by
    intro m r hv hk
    by_cases hm : m = n
    · subst hm
      have hview := Db.view_update (S := accountSecurity) (u := .invalidate userId purpose now) hready
      obtain ⟨r₀, -, hstep⟩ := Option.map_eq_some_iff.mp (hview.symm.trans hv)
      refine Or.inl ?_
      cases hg : (accountSecurity.act (.invalidate userId purpose now)).guard r₀ with
      | true =>
          rw [GuardedUpdate.step_of_guard hg] at hstep
          rw [← hstep]
          exact Option.some_ne_none now
      | false =>
          rw [GuardedUpdate.step_of_not_guard hg] at hstep
          subst hstep
          obtain ⟨huser, hpurpose⟩ := Prod.mk.inj hk
          intro hunused
          simp [SecurityUpdate.act, AuthToken.invalidate, huser, hpurpose, hunused] at hg
    · have hsame : TokenSeen i s m = some r := by
        rw [← hv]
        refine (Db.view_effect_of_ne (by simp) (fun u m' heq hne => ?_) fun x heq => by cases heq).symm
        obtain ⟨-, rfl⟩ := Sql.update.inj heq
        exact hm hne.2
      refine (hs.used m r hsame hk).imp_right fun hmem => ?_
      exact (List.mem_cons.mp hmem).resolve_left hm

/-- The bulk `UPDATE` of the outstanding tokens. -/
lemma oneLive_invalidateOutstanding {now : Time} (hh : issuing h = []) :
    Meets oneLive (securityServer ι) i
      (fun h r s => (∃ count, r = .ok count) ∧ Invalidating i (userId, purpose) [] h s)
      (AuthTokenRepository.invalidateOutstanding userId purpose now) h s := by
  refine (oneLive_scan hh).bind oneLive_compatible ?_ ?_
  · rintro h rows s ⟨rows', hrows, hs⟩
    obtain rfl := Except.ok.inj hrows
    refine Meets.tally oneLive_compatible
      (J := fun rows h s => Invalidating i (userId, purpose) (rows.map Prod.fst) h s)
      (fun _ _ _ _ hs hr => hs.rely hr) ?_ (fun n _ _ hs => ⟨⟨n, rfl⟩, hs⟩) rows hs
    rintro ⟨n, row⟩ rows h s hs tr s₁ rfl hr hI hready has
    have hs₁ := hs.rely hr
    exact ⟨hI.effect has (fun x hx => by cases hx) (fun hc => by cases hc), hI.guar i _,
      fun _ _ _ hr' _ => (hs₁.update hready).rely hr'⟩
  · rintro h e s ⟨rows, hrows, -⟩
    cases hrows

/-- The new token is the last one, and the only one that is not used. -/
lemma Invalidating.insert {x : NewAuthToken} (hs : Invalidating i (x.userId, x.purpose) [] h s) :
    LastIssued i (x.userId, x.purpose)
      (h ++ [⟨i, .insert (.authToken x), s, Db.effect i (.insert (.authToken x)) s⟩])
      (Db.effect i (.insert (.authToken x)) s) := by
  have hfresh : ∀ n r, TokenHeld (Db.effect i (.insert (.authToken x)) s) n = some (i, r) →
      Token (Db.effect i (.insert (.authToken x)) s) n = none → n = s.fresh ∧ r = x.row := by
    intro n r hd hc
    rw [Token, Db.committed_effect (by simp)] at hc
    rcases tokenHeld_cases hd with ⟨hold, -⟩ | ⟨-, ⟨u, r₀, hu, -⟩ | ⟨x', hx', hn, hrow⟩⟩
    · exact absurd hc (hs.noNew n r hold)
    · cases hu
    · obtain rfl := SecurityInsert.authToken.inj (Sql.insert.inj hx')
      exact ⟨hn, hrow⟩
  refine ⟨?_, fun n r hd hc => ?_, fun n r hd hc m r' hv hkey => ?_⟩
  · rw [issuing_snoc]
    exact hs.issuing
  · obtain ⟨-, rfl⟩ := hfresh n r hd hc
    rfl
  · obtain ⟨rfl, rfl⟩ := hfresh n r hd hc
    by_cases hm : m = s.fresh
    · exact Or.inl hm
    · have hsame : TokenSeen i s m = some r' := by
        rw [← hv]
        refine (Db.view_effect_of_ne (by simp) (fun u m' heq => by cases heq) ?_).symm
        intro x' _ hne
        exact hm hne.2
      rcases hs.used m r' hsame hkey with hused | hmem
      · exact Or.inr ⟨hused, Db.lt_fresh_of_view hsame⟩
      · exact absurd hmem List.not_mem_nil

/-- The new token is inserted after the outstanding ones have been used. -/
lemma oneLive_createToken {settings : TokenSettings} (hs : Invalidating i (userId, purpose) [] h s) :
    Meets oneLive (securityServer ι) i
      (fun h r s => (∃ n, r = .ok n) ∧ LastIssued i (userId, purpose) h s)
      (AccountSecurityService.createToken settings userId purpose) h s := by
  rintro tr s₁ rfl hr hI _ has
  have hs₁ := hs.rely hr
  have hnow : Invalidating i (userId, purpose) [] (own i tr ++ [⟨i, .now, s₁, Db.effect i .now s₁⟩])
      (Db.effect i .now s₁) := by
    refine ⟨?_, hs₁.noNew, hs₁.used⟩
    rw [issuing_snoc]
    exact hs₁.issuing
  refine ⟨hI.effect has (fun x hx => by cases hx) (fun hc => by cases hc), hI.guar i _, ?_⟩
  intro tr' s₂ htr' hr' hI' _ has'
  have hs₂ : Invalidating i (userId, purpose) [] (own i tr') s₂ := by
    rw [htr']
    exact hnow.rely hr'
  rw [← htr']
  refine ⟨hI'.effect has' (fun x hx => ?_) (fun hc => by cases hc), hI'.guar i _,
    fun _ s₃ _ hr'' _ => ⟨⟨_, rfl⟩, (Invalidating.insert (x := ⟨userId, purpose, _⟩) hs₂).rely hr''⟩⟩
  obtain rfl := SecurityInsert.authToken.inj (Sql.insert.inj hx)
  rw [hs₂.issuing]
  exact List.mem_cons_self

/-- **A token is issued**: the commit leaves it the only live one. -/
lemma oneLive_issue {settings : TokenSettings} {now : Time} (hh : issuing h = []) :
    Meets oneLive (securityServer ι) i (fun h _ _ => issuing h = [])
      (AccountSecurityService.issue settings userId purpose now) h s := by
  refine (oneLive_invalidateOutstanding hh).bind oneLive_compatible ?_ ?_
  · rintro h count s ⟨-, hs⟩
    refine (oneLive_createToken hs).bind oneLive_compatible ?_ ?_
    · rintro h rawToken s ⟨-, hs⟩ tr s₁ rfl hr hI _ has
      have hs₁ := hs.rely hr
      refine ⟨hI.effect has (fun x hx => by cases hx) (fun _ => hs₁.ready), hI.guar i _,
        fun _ _ _ _ _ => ?_⟩
      exact issuing_snoc ..
    · rintro h e s ⟨⟨n, hn⟩, -⟩
      cases hn
  · rintro h e s ⟨⟨n, hn⟩, -⟩
    cases hn

end Issue

/-! ### Requests -/

/-- A statement that issues nothing and writes no row. -/
lemma oneLive_reads {q : Sql accountSecurity} {β : Type} {k : (sql accountSecurity).Resp q → SecurityTx β}
    {Q : Post (sql accountSecurity) ι (SecurityDb ι) Exn β}
    (hq : q = .now ∨ ∃ q₀, q = .scan (.account q₀)) (hh : issuing h = [])
    (hk : ∀ r h s, issuing h = [] → Meets oneLive (securityServer ι) i Q (k r) h s) :
    Meets oneLive (securityServer ι) i Q (.call q k) h s := by
  rintro tr s₁ rfl hr hI _ has
  have hne : q ≠ .commit ∧ ∀ x, q ≠ .insert x := by
    rcases hq with rfl | ⟨q₀, rfl⟩ <;> exact ⟨by simp, by simp⟩
  refine ⟨hI.effect has (fun x hx => absurd hx (hne.2 _)) (fun hc => absurd hc hne.1),
    hI.guar i _, hk _ _ _ ?_⟩
  rw [issuing_snoc, hh]
  rcases hq with rfl | ⟨q₀, rfl⟩ <;> rfl

variable {cfg : Security} {settings : TokenSettings}

lemma oneLive_ret {β : Type} {b : β} (hh : issuing h = []) :
    Meets oneLive (securityServer ι) i (fun h _ _ => issuing h = []) (.ret b : SecurityTx β) h s :=
  fun _ _ _ _ _ => hh

/-- What a request runs leaves the tokens sound. -/
lemma oneLive_body (r : SecurityRequest) (hh : issuing h = []) :
    Meets oneLive (securityServer ι) i (fun h _ _ => issuing h = []) (r.body cfg settings) h s := by
  cases r with
  | account r =>
      exact (oneLive_embed _ hh).bind oneLive_compatible (fun _ _ _ hh => oneLive_ret hh)
        fun _ _ _ hh => hh
  | verifyEmail rawToken =>
      exact (oneLive_embed _ hh).bind oneLive_compatible (fun _ _ _ hh => oneLive_ret hh)
        fun _ _ _ hh => hh
  | resendVerification userId allowed =>
      cases allowed with
      | false => exact oneLive_ret hh
      | true => exact oneLive_reads (Or.inl rfl) hh fun now _ _ hh => oneLive_issue hh
  | resendVerificationByEmail email allowed =>
      cases allowed with
      | false => exact oneLive_ret hh
      | true =>
          refine oneLive_reads (Or.inl rfl) hh fun now _ _ hh => ?_
          refine oneLive_reads (Or.inr ⟨_, rfl⟩) hh fun rows _ _ hh => ?_
          rw [Prog.ret_bind]
          split
          · exact oneLive_ret hh
          · rename_i userId user _
            split_ifs
            · exact oneLive_ret hh
            · exact oneLive_issue hh
  | requestPasswordReset email =>
      refine oneLive_reads (Or.inl rfl) hh fun now _ _ hh => ?_
      refine oneLive_reads (Or.inr ⟨_, rfl⟩) hh fun rows _ _ hh => ?_
      rw [Prog.ret_bind]
      split
      · exact oneLive_ret hh
      · rename_i userId user _
        split_ifs
        · exact oneLive_ret hh
        · exact oneLive_issue hh

/-- **Every request leaves the tokens sound.** -/
theorem oneLive_request (r : SecurityRequest) (hh : issuing h = []) :
    Meets oneLive (securityServer ι) i (fun _ _ _ => True) (r.run cfg settings) h s := by
  refine Meets.withSession oneLive_compatible (oneLive_body r hh) ?_
  rintro h res s tr s' hh rfl hr hI has
  exact ⟨hI.effect (q := .rollback) has (fun x hx => by cases hx) (fun hc => by cases hc),
    hI.guar i .rollback, fun _ _ => trivial⟩

/-! ### Every run -/

/-- The user and the purpose have at most one live token, which is the one issued last. -/
def OneLive (s : SecurityDb ι) : Prop :=
  ∀ n r, Token s n = some r → r.usedAt = none → s.time < r.expiresAt →
    (∀ m r', Token s m = some r' → r'.key = r.key → m ≤ n) ∧
    ∀ m r', Token s m = some r' → r'.key = r.key → r'.usedAt = none → s.time < r'.expiresAt → m = n

omit [DecidableEq ι] in
lemma Latest.oneLive (h : Latest s) : OneLive s := by
  intro n r hn hunused hlive
  refine ⟨h n r hn hunused hlive, fun m r' hm hkey hunused' hlive' => ?_⟩
  exact le_antisymm (h n r hn hunused hlive m r' hm hkey) (h m r' hm hunused' hlive' n r hn hkey.symm)

variable {reqs : ι → SecurityRequest} {c : SecurityPool ι (Option ℕ)}

/-- No token is consumed twice, however the requests run. -/
lemma consumptions_le_one (hs : s.Settled)
    (h : Pool.Reach (securityServer ι) (.start (fun i => (reqs i).run cfg settings) s) c) (n : ℕ) :
    consumptions n c.trace ≤ 1 := by
  have hI := h.invariant (fun _ _ => True) (fun _ _ => True)
    (fun tr s => TokensAhead s ∧ ClaimsHeld tr s)
    (fun tr i q s _ _ _ hI => ⟨hI.1.effect i q, hI.2.effect hI.1 i q⟩) (fun _ => trivial)
    (fun i => Prog.issues_true _) ⟨hs.ahead _, fun i m hm => absurd hm List.not_mem_nil⟩
    (along_iff_forall_mem.mpr fun _ _ => trivial)
  have hconsumes : Along (fun past ev => Consumes n past ev →
      ¬ Used n ev.before ∧ Used n ev.after) c.trace := by
    refine hI.2.mono ?_
    rintro past ⟨i, q, s, s'⟩ ⟨-, ⟨-, hheld⟩, -, -, hafter⟩ hev
    obtain rfl : s' = Db.effect i q s := hafter
    exact hheld.consumes hev
  have hkeep : ∀ ev ∈ c.trace, Used n ev.before → Used n ev.after := by
    refine along_iff_forall_mem.mp (hI.2.mono ?_)
    rintro past ⟨i, q, s, s'⟩ ⟨-, ⟨hahead, -⟩, -, -, hafter⟩ hused
    obtain rfl : s' = Db.effect i q s := hafter
    exact hused.moved (hahead.moved i q)
  exact (consumptionsFrom_le hconsumes).trans (h.flips_le_one hkeep)

/-- **One live token**: in every run no token is consumed twice, and if no issue begins while another
one for the same user and purpose is under way, every user has at most one live token of a purpose at
every point, the one issued last. -/
theorem one_live_token (hs : s.Settled) (hlatest : Latest s)
    (h : Pool.Reach (securityServer ι) (.start (fun i => (reqs i).run cfg settings) s) c) :
    (∀ n, consumptions n c.trace ≤ 1) ∧ (Along Undivided c.trace → OneLive c.store) := by
  refine ⟨consumptions_le_one hs h, fun hC => ?_⟩
  have hsound : Sound [] s :=
    { ahead := hs.ahead _
      alone := fun i j k hk => absurd hk List.not_mem_nil
      added := fun i n r hd => by
        rw [TokenHeld, hs] at hd
        cases hd
      latest := hlatest }
  have hmeets : ∀ i, Meets oneLive (securityServer ι) i (fun _ _ _ => True)
      ((reqs i).run cfg settings) [] s := fun i => oneLive_request _ rfl
  exact (h.meets oneLive_compatible hsound hmeets hC).1.latest.oneLive

/-- A user with a password, and no tokens. -/
def oneAccount : SecurityDb ι :=
  Db.init (S := accountSecurity) (fun t n => match t, n with
    | .users, 0 => some { someUser .member true with passwordHash := some "p" }
    | _, _ => none) 1 (.still 0) (by
      intro t n hn
      cases t
      · cases n
        · omega
        · rfl
      · rfl
      · rfl)

/-- Tokens that live for an hour. -/
def oneHour : TokenSettings := ⟨60, 60, true⟩

/-- Two requests of a password reset, and a reset with the second token. -/
def twoResets : Fin 3 → SecurityRequest
  | 0 => .requestPasswordReset "a@b.c"
  | 1 => .requestPasswordReset "a@b.c"
  | 2 => .account (.resetPassword 2 "q")

/-- The requests one after the other: the first token is used, the second one live and then consumed. -/
theorem one_live_token_two :
    ∃ c : SecurityPool (Fin 3) (Option ℕ),
      Pool.Reach (securityServer (Fin 3)) (.start (fun i => (twoResets i).run plain oneHour)
          oneAccount) c ∧
        consumptions 2 c.trace = 1 ∧ (∀ n, consumptions n c.trace ≤ 1) ∧ OneLive c.store := by
  have hrun : (((Pool.start (fun i => (twoResets i).run plain oneHour) oneAccount).run
      (securityServer (Fin 3)) (List.replicate 7 (.step 0) ++ List.replicate 8 (.step 1) ++
        List.replicate 8 (.step 2))).any fun c =>
          decide (consumptions 2 c.trace = 1) && decide (Along Undivided c.trace)) = true := by
    decide +kernel
  obtain ⟨c, hc, hP⟩ := Pool.exists_of_run hrun
  obtain ⟨hconsumed, hC⟩ := Bool.and_eq_true_iff.mp hP
  have hlive := one_live_token (fun _ _ => rfl) (fun n r hr => by cases hr) hc
  exact ⟨c, hc, of_decide_eq_true hconsumed, hlive.1, hlive.2 (of_decide_eq_true hC)⟩

/-- **Two requests of a password reset at once**: the bulk `UPDATE` of the second one does not see the
token of the first, and both tokens are live. -/
theorem two_live_tokens :
    ∃ c : SecurityPool (Fin 3) (Option ℕ),
      Pool.Reach (securityServer (Fin 3)) (.start (fun i => (twoResets i).run plain oneHour)
          oneAccount) c ∧
        ∃ r r' : AuthToken, Token c.store 1 = some r ∧ Token c.store 2 = some r' ∧
          r.key = (0, .passwordReset) ∧ r'.key = (0, .passwordReset) ∧
          (r.usedAt = none ∧ c.store.time < r.expiresAt) ∧
          (r'.usedAt = none ∧ c.store.time < r'.expiresAt) ∧ ¬ OneLive c.store := by
  have hrun : (((Pool.start (fun i => (twoResets i).run plain oneHour) oneAccount).run
      (securityServer (Fin 3)) (List.replicate 3 (.step 0) ++ List.replicate 3 (.step 1) ++
        List.replicate 4 (.step 0) ++ List.replicate 4 (.step 1))).any fun c =>
          decide (Token c.store 1 = some ⟨0, .passwordReset, 60 * minute, none⟩) &&
            decide (Token c.store 2 = some ⟨0, .passwordReset, 60 * minute, none⟩) &&
            decide (c.store.time = 0)) = true := by
    decide +kernel
  obtain ⟨c, hc, hP⟩ := Pool.exists_of_run hrun
  simp only [Bool.and_eq_true, decide_eq_true_eq] at hP
  obtain ⟨⟨hfirst, hsecond⟩, htime⟩ := hP
  have hlive : c.store.time < 60 * minute := by
    rw [htime]
    decide
  refine ⟨c, hc, _, _, hfirst, hsecond, rfl, rfl, ⟨rfl, hlive⟩, ⟨rfl, hlive⟩, fun hone => ?_⟩
  exact absurd ((hone 1 _ hfirst rfl hlive).2 2 _ hsecond rfl rfl hlive) (by decide)

end Accounts
