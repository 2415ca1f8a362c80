import Mathlib.Tactic

/-!
The API client of the browser page, and the refresh its calls share.

A call that is answered 401 waits for a refresh and is sent once more when that succeeds.  The page
keeps the promise of a refresh while it is under way, so that the calls answered in the meantime wait
for the same one; the request itself is an exchange with the server, which rotates the refresh token
that it accepts and revokes the family of one already rotated.

* `Page.performRefresh`, `Page.respond`, `Page.settle`: what the page does at each answer;
* `Page.step`, `run`: an answer of a call, the server at work, an answer of a refresh, in any order;
* `Safe`, `Inv.run`: **one refresh at a time, one retry for each call, and never a rotated token**;
* `single_flight_iff`: **the token is rotated exactly once when no 401 of a first request comes after the
  answer of a refresh.**
-/

namespace Frontend

/-! ### The server -/

/-- The refresh tokens of one family, numbered: all before the current one have been rotated. -/
structure Server where
  current : ℕ
  revoked : Bool
  rotations : ℕ
  deriving DecidableEq, Repr

/-- The answer to a refresh: a new pair of tokens, or a status. -/
inductive RefreshResponse where
  | tokens (refresh access : ℕ)
  | refused (status : ℕ)
  deriving DecidableEq, Repr

/-- `POST /auth/refresh`: a rotated token revokes the family; a current one is rotated, unless the
server refuses for another reason. -/
def Server.refresh (s : Server) (presented : ℕ) (refusal : Option ℕ) : Server × RefreshResponse :=
  if presented ≠ s.current ∨ s.revoked then
    ({ s with revoked := true }, .refused 401)
  else
    match refusal with
    | some status => (s, .refused status)
    | none =>
        ({ s with current := s.current + 1, rotations := s.rotations + 1 },
          .tokens (s.current + 1) (s.current + 1))

lemma Server.refresh_none {s : Server} (h : s.revoked = false) : s.refresh s.current none
    = ({ s with current := s.current + 1, rotations := s.rotations + 1 },
        .tokens (s.current + 1) (s.current + 1)) := by
  simp [Server.refresh, h]

lemma Server.refresh_some {s : Server} (h : s.revoked = false) (status : ℕ) :
    s.refresh s.current (some status) = (s, .refused status) := by
  simp [Server.refresh, h]

/-! ### The page -/

/-- Where a call of `apiFetch` stands: its first request under way, waiting for a refresh, its second
request under way, or ended with a status. -/
inductive Call where
  | sent (token : Option ℕ)
  | waiting (promise : ℕ)
  | retried (token : Option ℕ)
  | done (status : ℕ)
  deriving DecidableEq, Repr

inductive Stage where
  | requested (presented : ℕ)
  | answered (response : RefreshResponse)
  deriving DecidableEq, Repr

/-- A refresh request under way, and the promise it settles. -/
structure Exchange where
  promise : ℕ
  stage : Stage
  deriving DecidableEq, Repr

structure Page (ι : Type) where
  accessToken : Option ℕ
  /-- the refresh token in the cookie jar -/
  cookie : ℕ
  inFlightRefresh : Option ℕ
  /-- the promises made so far -/
  promises : ℕ
  exchanges : List Exchange
  calls : ι → Call
  /-- the requests each call has sent -/
  sends : ι → ℕ
  server : Server

variable {ι : Type}

namespace Page

/-- `performRefresh`: the promise under way, or a new one and its request. -/
def performRefresh (s : Page ι) : Page ι × ℕ :=
  match s.inFlightRefresh with
  | some promise => (s, promise)
  | none =>
      ({ s with
          inFlightRefresh := some s.promises
          promises := s.promises + 1
          exchanges := s.exchanges ++ [⟨s.promises, .requested s.cookie⟩] }, s.promises)

/-- The answer to a request of a call: a 401 to the first one is a reason to refresh. -/
def respond [DecidableEq ι] (s : Page ι) (i : ι) (status : ℕ) : Option (Page ι) :=
  match s.calls i with
  | .sent _ =>
      if status = 401 then
        let (s, promise) := s.performRefresh
        some { s with calls := Function.update s.calls i (.waiting promise) }
      else
        some { s with calls := Function.update s.calls i (.done status) }
  | .retried _ => some { s with calls := Function.update s.calls i (.done status) }
  | _ => none

/-- The calls that wait for a promise go on: with a second request, or with the 401 as their error. -/
def resume (s : Page ι) (promise : ℕ) (ok : Bool) : Page ι :=
  { s with
    calls := fun i =>
      if s.calls i = .waiting promise then
        if ok then .retried s.accessToken else .done 401
      else s.calls i
    sends := fun i => if s.calls i = .waiting promise ∧ ok then s.sends i + 1 else s.sends i }

/-- The answer to a refresh request: `doRefresh` stores the session or, when the refusal is definitive,
clears it; the promise is forgotten and then settled. -/
def settle (s : Page ι) (j : ℕ) : Option (Page ι) :=
  match s.exchanges[j]? with
  | some ⟨promise, .answered response⟩ =>
      let s := { s with exchanges := s.exchanges.eraseIdx j, inFlightRefresh := none }
      match response with
      | .tokens refresh access =>
          some (resume { s with cookie := refresh, accessToken := some access } promise true)
      | .refused status =>
          if status = 401 ∨ status = 403 then
            some (resume { s with accessToken := none } promise false)
          else
            some (s.resume promise false)
  | _ => none

/-- The server answers a refresh request. -/
def serve (s : Page ι) (j : ℕ) (refusal : Option ℕ) : Option (Page ι) :=
  match s.exchanges[j]? with
  | some ⟨promise, .requested presented⟩ =>
      let (server, response) := s.server.refresh presented refusal
      some { s with server := server, exchanges := s.exchanges.set j ⟨promise, .answered response⟩ }
  | _ => none

end Page

/-! ### Runs -/

inductive Move (ι : Type) where
  | respond (i : ι) (status : ℕ)
  | serve (j : ℕ) (refusal : Option ℕ)
  | settle (j : ℕ)
  deriving DecidableEq, Repr

def Page.step [DecidableEq ι] (s : Page ι) : Move ι → Option (Page ι)
  | .respond i status => s.respond i status
  | .serve j refusal => s.serve j refusal
  | .settle j => s.settle j

/-- What a page comes to, when each move is possible. -/
def run [DecidableEq ι] (s : Page ι) : List (Move ι) → Option (Page ι)
  | [] => some s
  | move :: moves => (s.step move).bind fun s' => run s' moves

/-- All calls sent with one access token, no refresh under way. -/
def start (token current : ℕ) : Page ι where
  accessToken := some token
  cookie := current
  inFlightRefresh := none
  promises := 0
  exchanges := []
  calls _ := .sent (some token)
  sends _ := 1
  server := ⟨current, false, 0⟩

/-! ### One refresh at a time -/

/-- The page has one refresh under way at most, no request of it presents a rotated token, and no call
has been sent more than twice. -/
structure Safe (s : Page ι) : Prop where
  one_refresh : s.exchanges.length ≤ 1
  fresh : ∀ e ∈ s.exchanges, ∀ presented, e.stage = .requested presented → presented = s.server.current
  family : s.server.revoked = false
  one_retry : ∀ i, s.sends i ≤ 2

/-- The cookie, or the token on its way into the jar, is the current one. -/
def Stage.Current (current cookie : ℕ) : Stage → Prop
  | .requested presented => presented = current ∧ cookie = current
  | .answered (.tokens refresh _) => refresh = current
  | .answered (.refused _) => cookie = current

/-- How often a call has been sent. -/
def Call.Sends (n : ℕ) : Call → Prop
  | .sent _ | .waiting _ => n = 1
  | .retried _ => n = 2
  | .done _ => n ≤ 2

/-- The promise that is kept is the one of the only exchange. -/
structure Inv (s : Page ι) : Prop where
  idle : s.inFlightRefresh = none → s.exchanges = [] ∧ s.cookie = s.server.current
  busy : ∀ promise, s.inFlightRefresh = some promise → ∃ stage, s.exchanges = [⟨promise, stage⟩]
    ∧ stage.Current s.server.current s.cookie
  family : s.server.revoked = false
  waiting : ∀ i promise, s.calls i = .waiting promise → s.inFlightRefresh = some promise
  sends : ∀ i, (s.calls i).Sends (s.sends i)
  promised : s.exchanges.length ≤ s.promises

variable {s s' : Page ι} {move : Move ι} {moves : List (Move ι)}

lemma Inv.safe (h : Inv s) : Safe s := by
  have hsends : ∀ i, s.sends i ≤ 2 := by
    intro i
    have hi := h.sends i
    cases hcall : s.calls i <;> rw [hcall] at hi <;> simp only [Call.Sends] at hi <;> omega
  cases hflight : s.inFlightRefresh with
  | none => exact ⟨by simp [(h.idle hflight).1], by simp [(h.idle hflight).1], h.family, hsends⟩
  | some promise =>
      obtain ⟨stage, hexchanges, hcurrent⟩ := h.busy promise hflight
      refine ⟨by simp [hexchanges], ?_, h.family, hsends⟩
      intro e he presented hstage
      rw [hexchanges, List.mem_singleton] at he
      subst he
      obtain rfl : stage = _ := hstage
      exact hcurrent.1

lemma inv_start (token current : ℕ) : Inv (start token current : Page ι) where
  idle _ := ⟨rfl, rfl⟩
  busy _ h := nomatch h
  family := rfl
  waiting _ _ h := nomatch h
  sends _ := rfl
  promised := le_rfl

/-- A call whose request was answered ends, or waits for the promise that is kept. -/
lemma Inv.update [DecidableEq ι] (h : Inv s) {i : ι} {call : Call}
    (hwaiting : ∀ promise, call = .waiting promise → s.inFlightRefresh = some promise)
    (hsends : call.Sends (s.sends i)) : Inv { s with calls := Function.update s.calls i call } := by
  refine ⟨h.idle, h.busy, h.family, ?_, ?_, h.promised⟩
  · intro k promise hk
    by_cases hki : k = i
    · subst hki
      exact hwaiting promise (by simpa using hk)
    · exact h.waiting k promise (by simpa [hki] using hk)
  · intro k
    by_cases hki : k = i
    · subst hki
      simpa using hsends
    · simpa [hki] using h.sends k

lemma Inv.performRefresh (h : Inv s) : Inv s.performRefresh.1
    ∧ s.performRefresh.1.inFlightRefresh = some s.performRefresh.2
    ∧ s.performRefresh.1.sends = s.sends := by
  rw [Page.performRefresh]
  cases hflight : s.inFlightRefresh with
  | some promise => exact ⟨h, hflight, rfl⟩
  | none =>
      obtain ⟨hexchanges, hcookie⟩ := h.idle hflight
      refine ⟨⟨nofun, ?_, h.family, ?_, h.sends, ?_⟩, rfl, rfl⟩
      · intro promise hpromise
        obtain rfl := Option.some.inj hpromise
        exact ⟨.requested s.cookie, by simp [hexchanges], hcookie, hcookie⟩
      · intro i promise hi
        rw [h.waiting i promise hi] at hflight
        cases hflight
      · simp [hexchanges]

lemma Inv.respond [DecidableEq ι] {i : ι} {status : ℕ} (h : Inv s)
    (hstep : s.respond i status = some s') : Inv s' := by
  rw [Page.respond] at hstep
  have hi := h.sends i
  cases hcall : s.calls i with
  | sent token =>
      rw [hcall] at hstep hi
      have hone : s.sends i = 1 := hi
      dsimp only at hstep
      split_ifs at hstep with hstatus
      · obtain ⟨hinv, hflight, hsends⟩ := h.performRefresh
        obtain rfl := Option.some.inj hstep
        refine hinv.update (fun promise heq => ?_) ?_
        · rw [hflight, Call.waiting.inj heq]
        · rw [hsends]
          exact hone
      · obtain rfl := Option.some.inj hstep
        exact h.update nofun (by change s.sends i ≤ 2; omega)
  | waiting promise =>
      rw [hcall] at hstep
      cases hstep
  | retried token =>
      rw [hcall] at hstep hi
      obtain rfl := Option.some.inj hstep
      have htwo : s.sends i = 2 := hi
      exact h.update nofun (by change s.sends i ≤ 2; omega)
  | done status =>
      rw [hcall] at hstep
      cases hstep

/-- The calls that waited for the exchange that ended go on. -/
lemma Inv.resume {promise : ℕ} {ok : Bool} {t : Page ι} (h : Inv s)
    (hflight : s.inFlightRefresh = some promise) (hidle : t.inFlightRefresh = none)
    (hexchanges : t.exchanges = []) (hcookie : t.cookie = t.server.current)
    (hserver : t.server.revoked = false) (hcalls : t.calls = s.calls) (hsends : t.sends = s.sends) :
    Inv (t.resume promise ok) := by
  refine ⟨fun _ => ⟨hexchanges, hcookie⟩, ?_, hserver, ?_, ?_, ?_⟩
  · intro promise' h'
    exact absurd (hidle.symm.trans h') nofun
  · intro i promise' hi
    simp only [Page.resume, hcalls] at hi
    split_ifs at hi with hwait
    have hsame := hflight.symm.trans (h.waiting i promise' hi)
    rw [← Option.some.inj hsame] at hi
    exact absurd hi hwait
  · intro i
    have hi := h.sends i
    simp only [Page.resume, hcalls, hsends]
    by_cases hwait : s.calls i = .waiting promise
    · rw [hwait] at hi
      have hone : s.sends i = 1 := hi
      cases ok <;> simp [hwait, Call.Sends, hone]
    · simpa [hwait] using hi
  · change t.exchanges.length ≤ _
    rw [hexchanges]
    exact Nat.zero_le _

/-- The only exchange is the one of the promise that is kept. -/
lemma Inv.exchange {e : Exchange} {j : ℕ} (h : Inv s) (he : s.exchanges[j]? = some e) :
    j = 0 ∧ s.exchanges = [e] ∧ s.inFlightRefresh = some e.promise
      ∧ e.stage.Current s.server.current s.cookie := by
  cases hflight : s.inFlightRefresh with
  | none => simp [(h.idle hflight).1] at he
  | some promise =>
      obtain ⟨stage, hexchanges, hcurrent⟩ := h.busy promise hflight
      rw [hexchanges] at he
      obtain ⟨rfl, rfl⟩ : j = 0 ∧ e = ⟨promise, stage⟩ := by
        cases j with
        | zero => exact ⟨rfl, (Option.some.inj he).symm⟩
        | succ j => simp at he
      exact ⟨rfl, hexchanges, rfl, hcurrent⟩

lemma Inv.settle {j : ℕ} (h : Inv s) (hstep : s.settle j = some s') : Inv s' := by
  rw [Page.settle] at hstep
  cases he : s.exchanges[j]? with
  | none =>
      rw [he] at hstep
      cases hstep
  | some e =>
      obtain ⟨rfl, hexchanges, hflight, hcurrent⟩ := h.exchange he
      obtain ⟨promise, stage⟩ := e
      rw [he] at hstep
      match stage, hcurrent, hstep with
      | .requested presented, _, hstep => cases hstep
      | .answered (.tokens refresh access), hcurrent, hstep =>
          obtain rfl := Option.some.inj hstep
          exact h.resume hflight rfl (by simp [hexchanges]) hcurrent h.family rfl rfl
      | .answered (.refused status), hcurrent, hstep =>
          dsimp only at hstep
          split_ifs at hstep <;> obtain rfl := Option.some.inj hstep <;>
            exact h.resume hflight rfl (by simp [hexchanges]) hcurrent h.family rfl rfl

lemma Inv.serve {j : ℕ} {refusal : Option ℕ} (h : Inv s) (hstep : s.serve j refusal = some s') :
    Inv s' := by
  rw [Page.serve] at hstep
  cases he : s.exchanges[j]? with
  | none =>
      rw [he] at hstep
      cases hstep
  | some e =>
      obtain ⟨rfl, hexchanges, hflight, hcurrent⟩ := h.exchange he
      obtain ⟨promise, stage⟩ := e
      rw [he] at hstep
      match stage, hcurrent, hstep with
      | .answered response, _, hstep => cases hstep
      | .requested presented, ⟨hpresented, hcookie⟩, hstep =>
          subst hpresented
          have hbusy : ∀ {server : Server} {response : RefreshResponse},
              (Stage.answered response).Current server.current s.cookie →
              server.revoked = false →
              Inv { s with
                server := server
                exchanges := s.exchanges.set 0 ⟨promise, .answered response⟩ } := by
            intro server response hresponse hfamily
            refine ⟨fun hnone => ?_, fun promise' hpromise => ?_, hfamily, h.waiting, h.sends, ?_⟩
            · exact absurd (hflight.symm.trans hnone) nofun
            · obtain rfl := Option.some.inj (hflight.symm.trans hpromise)
              exact ⟨.answered response, by simp [hexchanges], hresponse⟩
            · rw [List.length_set]
              exact h.promised
          cases refusal with
          | none =>
              simp only [Server.refresh_none h.family, Option.some.injEq] at hstep
              exact hstep ▸ hbusy rfl h.family
          | some status =>
              simp only [Server.refresh_some h.family, Option.some.injEq] at hstep
              exact hstep ▸ hbusy hcookie h.family

theorem Inv.step [DecidableEq ι] (h : Inv s) (hstep : s.step move = some s') : Inv s' := by
  cases move with
  | respond i status => exact h.respond hstep
  | serve j refusal => exact h.serve hstep
  | settle j => exact h.settle hstep

theorem Inv.run [DecidableEq ι] (h : Inv s) (hrun : run s moves = some s') : Inv s' := by
  induction moves generalizing s with
  | nil =>
      obtain rfl := Option.some.inj hrun
      exact h
  | cons move moves ih =>
      obtain ⟨t, hstep, hrest⟩ := Option.bind_eq_some_iff.1 hrun
      exact ih (h.step hstep) hrest

/-! ### One rotation -/

/-- A 401 to the first request of a call. -/
def FirstUnauthorized (s : Page ι) (move : Move ι) : Prop :=
  ∃ i token, move = .respond i 401 ∧ s.calls i = .sent token

/-- The refreshes whose answers the page has had. -/
def Page.settled (s : Page ι) : ℕ := s.promises - s.exchanges.length

def Exchange.unserved (e : Exchange) : Bool :=
  match e.stage with
  | .requested _ => true
  | .answered _ => false

/-- The refreshes that the server has rotated the token for, or has still to serve. -/
def Page.rotated (s : Page ι) : ℕ := s.server.rotations + s.exchanges.countP Exchange.unserved

section Rotation

variable [DecidableEq ι]

/-- Some call is answered 401 at its first request. -/
def SomeExpired : List (Move ι) → Page ι → Prop
  | [], _ => False
  | move :: moves, s => FirstUnauthorized s move ∨ ∃ s', s.step move = some s' ∧ SomeExpired moves s'

/-- No call is answered 401 at its first request once a refresh has been answered. -/
def InTime : List (Move ι) → Page ι → Prop
  | [], _ => True
  | move :: moves, s =>
      (FirstUnauthorized s move → s.settled = 0) ∧ ∀ s', s.step move = some s' → InTime moves s'

/-- The server accepts each refresh that presents the current token. -/
def Accepting (moves : List (Move ι)) : Prop := ∀ j refusal, .serve j refusal ∈ moves → refusal = none

/-- A 401 to a first request starts a refresh when none is under way; nothing else does. -/
lemma Inv.counts (h : Inv s) (hstep : s.step move = some s') :
    (FirstUnauthorized s move ∧ s.exchanges = [] ∧ s'.promises = s.promises + 1
        ∧ s'.exchanges.length = 1)
      ∨ (s'.promises = s.promises ∧ s'.exchanges.length ≤ s.exchanges.length
        ∧ (FirstUnauthorized s move → s.exchanges.length = 1)) := by
  cases move with
  | respond i status =>
      have hstep : s.respond i status = some s' := hstep
      rw [Page.respond] at hstep
      cases hcall : s.calls i with
      | sent token =>
          rw [hcall] at hstep
          dsimp only at hstep
          split_ifs at hstep with hstatus
          · obtain rfl := Option.some.inj hstep
            subst hstatus
            rw [Page.performRefresh]
            cases hflight : s.inFlightRefresh with
            | none =>
                have hexchanges := (h.idle hflight).1
                exact Or.inl ⟨⟨i, token, rfl, hcall⟩, hexchanges, rfl, by simp [hexchanges]⟩
            | some promise =>
                obtain ⟨stage, hexchanges, -⟩ := h.busy promise hflight
                exact Or.inr ⟨rfl, le_rfl, fun _ => by simp [hexchanges]⟩
          · obtain rfl := Option.some.inj hstep
            refine Or.inr ⟨rfl, le_rfl, ?_⟩
            rintro ⟨k, token', heq, -⟩
            obtain ⟨-, rfl⟩ := Move.respond.inj heq
            exact absurd rfl hstatus
      | waiting promise =>
          rw [hcall] at hstep
          cases hstep
      | retried token =>
          rw [hcall] at hstep
          obtain rfl := Option.some.inj hstep
          refine Or.inr ⟨rfl, le_rfl, ?_⟩
          rintro ⟨k, token', heq, hk⟩
          obtain ⟨rfl, -⟩ := Move.respond.inj heq
          rw [hcall] at hk
          cases hk
      | done status =>
          rw [hcall] at hstep
          cases hstep
  | serve j refusal =>
      have hstep : s.serve j refusal = some s' := hstep
      rw [Page.serve] at hstep
      refine Or.inr ?_
      split at hstep
      · obtain rfl := Option.some.inj hstep
        exact ⟨rfl, (List.length_set ..).le, by rintro ⟨k, token, heq, -⟩; cases heq⟩
      · cases hstep
  | settle j =>
      have hstep : s.settle j = some s' := hstep
      rw [Page.settle] at hstep
      refine Or.inr ?_
      have hless : (s.exchanges.eraseIdx j).length ≤ s.exchanges.length := List.length_eraseIdx_le ..
      have hnot : FirstUnauthorized s (.settle j) → s.exchanges.length = 1 := by
        rintro ⟨k, token, heq, -⟩
        cases heq
      split at hstep
      · split at hstep
        · obtain rfl := Option.some.inj hstep
          exact ⟨rfl, hless, hnot⟩
        · split_ifs at hstep <;> obtain rfl := Option.some.inj hstep <;> exact ⟨rfl, hless, hnot⟩
      · cases hstep

/-- A second refresh is started when a call is answered 401 after the first one's answer. -/
lemma promises_le_one_iff (h : Inv s) (hrun : run s moves = some s') :
    s'.promises ≤ 1 ↔ s.promises ≤ 1 ∧ InTime moves s := by
  induction moves generalizing s with
  | nil =>
      obtain rfl := Option.some.inj hrun
      simp [InTime]
  | cons move moves ih =>
      obtain ⟨t, hstep, hrest⟩ := Option.bind_eq_some_iff.1 hrun
      have hcounts := h.counts hstep
      have hone := h.safe.one_refresh
      have hpromised := h.promised
      have hsettled : s.settled = s.promises - s.exchanges.length := rfl
      have hlater : (∀ t', s.step move = some t' → InTime moves t') ↔ InTime moves t :=
        ⟨fun hall => hall t hstep, fun ht t' ht' => Option.some.inj (hstep.symm.trans ht') ▸ ht⟩
      rw [ih (h.step hstep) hrest, InTime, hlater]
      rcases hcounts with ⟨hfirst, hnone, hpromises, -⟩ | ⟨hpromises, -, hfirst⟩
      · rw [hnone, List.length_nil, Nat.sub_zero] at hsettled
        constructor
        · rintro ⟨hle, hin⟩
          exact ⟨by omega, fun _ => by omega, hin⟩
        · rintro ⟨-, hzero, hin⟩
          have hzero := hzero hfirst
          exact ⟨by omega, hin⟩
      · constructor
        · rintro ⟨hle, hin⟩
          refine ⟨by omega, fun hunauthorized => ?_, hin⟩
          have hlength := hfirst hunauthorized
          omega
        · rintro ⟨hle, -, hin⟩
          exact ⟨by omega, hin⟩

/-- A refresh is started when some call is answered 401. -/
lemma one_le_promises_iff (h : Inv s) (hrun : run s moves = some s') :
    1 ≤ s'.promises ↔ 1 ≤ s.promises ∨ SomeExpired moves s := by
  induction moves generalizing s with
  | nil =>
      obtain rfl := Option.some.inj hrun
      simp [SomeExpired]
  | cons move moves ih =>
      obtain ⟨t, hstep, hrest⟩ := Option.bind_eq_some_iff.1 hrun
      have hpromised := h.promised
      have hlater : (∃ t', s.step move = some t' ∧ SomeExpired moves t') ↔ SomeExpired moves t :=
        ⟨fun ⟨t', ht', hsome⟩ => Option.some.inj (hstep.symm.trans ht') ▸ hsome,
          fun hsome => ⟨t, hstep, hsome⟩⟩
      rw [ih (h.step hstep) hrest, SomeExpired, hlater]
      rcases h.counts hstep with ⟨hfirst, -, hpromises, -⟩ | ⟨hpromises, -, hfirst⟩
      · exact iff_of_true (Or.inl (by omega)) (Or.inr (Or.inl hfirst))
      · rw [hpromises]
        constructor
        · rintro (hle | hsome)
          · exact Or.inl hle
          · exact Or.inr (Or.inr hsome)
        · rintro (hle | hunauthorized | hsome)
          · exact Or.inl hle
          · have hlength := hfirst hunauthorized
            exact Or.inl (by omega)
          · exact Or.inr hsome

/-- With a server that accepts, each refresh started is a rotation, made or to come. -/
lemma Inv.rotated_step (h : Inv s) (hstep : s.step move = some s')
    (haccept : ∀ j refusal, move = .serve j refusal → refusal = none)
    (hrotated : s.rotated = s.promises) : s'.rotated = s'.promises := by
  rw [Page.rotated] at hrotated ⊢
  cases move with
  | respond i status =>
      have hstep : s.respond i status = some s' := hstep
      rw [Page.respond] at hstep
      split at hstep
      · split_ifs at hstep
        · obtain rfl := Option.some.inj hstep
          cases hflight : s.inFlightRefresh with
          | some promise => simpa [Page.performRefresh, hflight] using hrotated
          | none =>
              rw [List.countP_append]
              rw [← Nat.add_assoc, hrotated]
              rfl
        · obtain rfl := Option.some.inj hstep
          exact hrotated
      · obtain rfl := Option.some.inj hstep
        exact hrotated
      · cases hstep
  | serve j refusal =>
      obtain rfl := haccept j refusal rfl
      have hstep : s.serve j none = some s' := hstep
      rw [Page.serve] at hstep
      cases he : s.exchanges[j]? with
      | none =>
          rw [he] at hstep
          cases hstep
      | some e =>
          obtain ⟨rfl, hexchanges, -, hcurrent⟩ := h.exchange he
          obtain ⟨promise, stage⟩ := e
          rw [he] at hstep
          match stage, hcurrent, hstep with
          | .answered response, _, hstep => cases hstep
          | .requested presented, ⟨hpresented, _⟩, hstep =>
              subst hpresented
              simp only [Server.refresh_none h.family, Option.some.injEq] at hstep
              subst hstep
              simpa [hexchanges, Exchange.unserved] using hrotated
  | settle j =>
      have hstep : s.settle j = some s' := hstep
      rw [Page.settle] at hstep
      cases he : s.exchanges[j]? with
      | none =>
          rw [he] at hstep
          cases hstep
      | some e =>
          obtain ⟨rfl, hexchanges, -, hcurrent⟩ := h.exchange he
          obtain ⟨promise, stage⟩ := e
          rw [hexchanges] at hrotated
          rw [he] at hstep
          match stage, hexchanges, hrotated, hstep with
          | .requested presented, _, _, hstep => cases hstep
          | .answered (.tokens refresh access), hexchanges, hrotated, hstep =>
              obtain rfl := Option.some.inj hstep
              simpa [Page.resume, hexchanges, Exchange.unserved] using hrotated
          | .answered (.refused status), hexchanges, hrotated, hstep =>
              dsimp only at hstep
              split_ifs at hstep <;> obtain rfl := Option.some.inj hstep <;>
                simpa [Page.resume, hexchanges, Exchange.unserved] using hrotated

lemma rotated_run (h : Inv s) (hrun : run s moves = some s') (haccept : Accepting moves)
    (hrotated : s.rotated = s.promises) : s'.rotated = s'.promises := by
  induction moves generalizing s with
  | nil =>
      obtain rfl := Option.some.inj hrun
      exact hrotated
  | cons move moves ih =>
      obtain ⟨t, hstep, hrest⟩ := Option.bind_eq_some_iff.1 hrun
      refine ih (h.step hstep) hrest (fun j refusal hmem => ?_) ?_
      · exact haccept j refusal (List.mem_cons_of_mem move hmem)
      · refine h.rotated_step hstep (fun j refusal heq => ?_) hrotated
        exact haccept j refusal (heq ▸ List.mem_cons_self)

/-- The calls of the burst have ended and every refresh has been answered. -/
def Page.Finished (s : Page ι) : Prop := s.exchanges = [] ∧ ∀ i, ∃ status, s.calls i = .done status

/-- **The refresh of a burst**: in every order of the answers there is one refresh at a time, no call
is sent more than twice and no rotated token is presented; and with a server that accepts the token is
rotated exactly once when some call expires and no 401 of a first request comes after the answer of a
refresh. -/
theorem single_flight_iff {token current : ℕ} (hrun : run (start token current) moves = some s) :
    Safe s ∧ (Accepting moves → s.Finished →
      (s.server.rotations = 1 ↔
        SomeExpired moves (start token current) ∧ InTime moves (start token current))) := by
  have hinv : Inv (start token current : Page ι) := inv_start token current
  refine ⟨(hinv.run hrun).safe, fun haccept hfinished => ?_⟩
  have hrotated : s.server.rotations = s.promises := by
    have hcount := rotated_run hinv hrun haccept rfl
    rwa [Page.rotated, hfinished.1, List.countP_nil, Nat.add_zero] at hcount
  have hmost := promises_le_one_iff hinv hrun
  have hleast := one_le_promises_iff hinv hrun
  have hstart : (start token current : Page ι).promises = 0 := rfl
  rw [hstart] at hmost hleast
  rw [hrotated]
  constructor
  · intro hone
    exact ⟨(hleast.1 (by omega)).resolve_left (by omega), (hmost.1 (by omega)).2⟩
  · rintro ⟨hsome, hin⟩
    exact le_antisymm (hmost.2 ⟨by omega, hin⟩) (hleast.2 (Or.inr hsome))

/-- Two calls, the second answered while the refresh of the first is under way. -/
def prompt : List (Move (Fin 2)) :=
  [.respond 0 401, .serve 0 none, .respond 1 401, .settle 0, .respond 0 200, .respond 1 200]

theorem single_flight_iff_prompt : SomeExpired prompt (start 7 0) ∧ InTime prompt (start 7 0) :=
  ((single_flight_iff rfl).2 (by simp [Accepting, prompt]) ⟨rfl, by
    intro i
    exact ⟨200, by fin_cases i <;> rfl⟩⟩).1 rfl

/-- Two calls, the second answered after that refresh. -/
def late : List (Move (Fin 2)) :=
  [.respond 0 401, .serve 0 none, .settle 0, .respond 1 401, .serve 0 none, .settle 0,
    .respond 0 200, .respond 1 200]

/-- The token is rotated twice. -/
theorem single_flight_late : ∃ s, run (start 7 0) late = some s ∧ Accepting late ∧ s.Finished
    ∧ s.server.rotations = 2 := by
  refine ⟨_, rfl, by simp [Accepting, late], ⟨rfl, fun i => ⟨200, ?_⟩⟩, rfl⟩
  fin_cases i <;> rfl

end Rotation

end Frontend
