import AgencyOS.Python.Collections
import AgencyOS.Python.Exceptions
import AgencyOS.Python.Text
import AgencyOS.Reservation.Store

/-!
The cooldown of verification mails (`services/resend_cooldown.py`).

An attempt reserves a key made from the address for the length of the cooldown, in Redis or, in a local
environment, in the memory of the process; who cannot reserve sends nothing.

* `Settings.validate`: the checks at startup that concern it, and `getDefaultBackend`;
* `redis`, `memory`: the two stores, and `memory_eq_redis`: they give the same answers, however often
  the memory is swept;
* `memory_bounded`: the memory does not grow beyond the sweep threshold and what runs;
* `resends`: the attempts that send a mail, through either door;
* `resends_spaced`: in a deployed environment two mails to one address are a minute apart at least.
-/

namespace Accounts.ResendCooldown

open Reservation Python

/-! ### Settings -/

/-- The settings that the checks of `validate_runtime` on account security and on Redis read. -/
structure Settings where
  appEnv : String
  redisUrl : String
  emailVerificationTokenTtlMinutes : ℤ
  emailVerificationResendCooldownSeconds : ℤ
  passwordResetTokenTtlMinutes : ℤ
  mfaChallengeTtlMinutes : ℤ
  mfaMaxAttempts : ℤ
  smtpHost : String
  smtpFromEmail : String
  smtpPort : ℤ

def localAppEnvs : List String := ["development", "dev", "local", "test", "testing", "ci"]

section Settings

variable (lower : List Char → List Char) (shown : String → String) (settings : Settings)

def Settings.isLocalEnvironment : Bool :=
  localAppEnvs.any fun env => lower (Python.strip settings.appEnv.toList) = env.toList

/-- A check that raises when it fails. -/
def check (fails : Bool) (message : String) : Except String Unit :=
  if fails then .error message else .ok ()

/-- `_validate_account_security`. -/
def Settings.validateAccountSecurity : Except String Unit := do
  check (settings.emailVerificationTokenTtlMinutes < 5) "EMAIL_VERIFICATION_TOKEN_TTL_MINUTES must be >= 5"
  check (settings.emailVerificationResendCooldownSeconds < 0)
    "EMAIL_VERIFICATION_RESEND_COOLDOWN_SECONDS must be >= 0"
  check (!settings.isLocalEnvironment lower && settings.emailVerificationResendCooldownSeconds < 60)
    ("EMAIL_VERIFICATION_RESEND_COOLDOWN_SECONDS must be >= 60 outside " ++
      "development/test: the per-email resend cooldown is a security " ++
      "control in every deployed environment")
  check (settings.passwordResetTokenTtlMinutes < 5) "PASSWORD_RESET_TOKEN_TTL_MINUTES must be >= 5"
  check (settings.mfaChallengeTtlMinutes < 1) "MFA_CHALLENGE_TTL_MINUTES must be >= 1"
  check (settings.mfaMaxAttempts < 1) "MFA_MAX_ATTEMPTS must be >= 1"
  check (settings.smtpFromEmail ≠ "" && !settings.smtpFromEmail.toList.contains '@')
    "SMTP_FROM_EMAIL must be a valid email address"
  check (settings.smtpHost ≠ "" && !(0 < settings.smtpPort && settings.smtpPort ≤ 65535))
    "SMTP_PORT must be between 1 and 65535"

/-- `_validate_redis_url`. -/
def Settings.validateRedisUrl : Except String Unit :=
  if settings.redisUrl ≠ "" then
    if "redis://".toList.isPrefixOf settings.redisUrl.toList ||
        "rediss://".toList.isPrefixOf settings.redisUrl.toList then
      .ok ()
    else .error "REDIS_URL must use the redis:// or rediss:// scheme"
  else if !settings.isLocalEnvironment lower then
    .error ("REDIS_URL must be set when APP_ENV=" ++ shown settings.appEnv ++ ": shared " ++
      "Redis is required outside development/test for the auth rate " ++
      "limiter and the per-email resend cooldown, otherwise each " ++
      "instance keeps its own state and the controls are silently " ++
      "diluted")
  else .ok ()

/-- What `validate_runtime` asks of them. -/
def Settings.validate : Except String Unit := do
  settings.validateRedisUrl lower shown
  settings.validateAccountSecurity lower

inductive Backend where
  | redis | memory | unavailable
  deriving DecidableEq, Repr

def getDefaultBackend : Backend :=
  if settings.redisUrl ≠ "" then .redis
  else if settings.isLocalEnvironment lower then .memory
  else .unavailable

variable {lower shown settings}

/-- A deployed environment that starts has the shared store and a cooldown of a minute. -/
theorem of_validate (hvalid : settings.validate lower shown = .ok ())
    (hdeployed : settings.isLocalEnvironment lower = false) :
    getDefaultBackend lower settings = .redis ∧
      60 ≤ settings.emailVerificationResendCooldownSeconds := by
  obtain ⟨_, hredis, haccount⟩ := bind_eq_ok.mp hvalid
  constructor
  · by_cases hurl : settings.redisUrl = ""
    · simp [Settings.validateRedisUrl, hurl, hdeployed] at hredis
    · simp [getDefaultBackend, hurl]
  · obtain ⟨_, -, haccount⟩ := bind_eq_ok.mp haccount
    obtain ⟨_, -, haccount⟩ := bind_eq_ok.mp haccount
    obtain ⟨_, hcooldown, -⟩ := bind_eq_ok.mp haccount
    by_contra hshort
    simp [check, hdeployed, not_le.mp hshort] at hcooldown

end Settings

/-! ### The stores -/

section Stores

variable {κ : Type} [DecidableEq κ]

/-- `SET key 1 NX EX ttl`: what is stored of each key is the time it runs out. -/
def redis : Store (κ → Option ℚ) κ ℚ where
  acquire s r :=
    if (s r.key).any (r.now < ·) then (false, s)
    else (true, Function.update s r.key (some r.expiry))
  Holds s key later := ∃ expiry, s key = some expiry ∧ later < expiry
  granted_iff s r := by
    cases hstored : s r.key with
    | none => simp
    | some expiry => by_cases hlt : r.now < expiry <;> simp [hlt]
  holds_acquire s r key later hlater := by
    by_cases hheld : (s r.key).any (r.now < ·) = true
    · simp [hheld]
    · by_cases hkey : r.key = key
      · subst hkey
        cases hstored : s r.key with
        | none => simp
        | some expiry =>
            have hexpired : expiry ≤ r.now := by simpa [hstored] using hheld
            have hout : ¬ later < expiry := not_lt.mpr (hexpired.trans hlater)
            simp [not_lt.mpr hexpired, hout]
      · simp [hheld, hkey, Function.update_of_ne (Ne.symm hkey)]

/-- `_MEMORY_SWEEP_THRESHOLD`. -/
def memorySweepThreshold : ℕ := 1024

abbrev Expiries (κ : Type) := Python.OrderedDict κ ℚ

/-- The reservations that still run. -/
def Expiries.sweep (expiries : Expiries κ) (now : ℚ) : Expiries κ where
  items := expiries.items.filter fun item => now < item.2
  nodup := (expiries.nodup).sublist (List.filter_sublist.map Prod.fst)

/-- The reservations with one more, swept when there are many. -/
def Expiries.store (expiries : Expiries κ) (r : Request κ ℚ) : Expiries κ :=
  let stored := expiries.update r.expiry (fun _ => r.expiry) r.key
  if memorySweepThreshold < stored.items.length then Expiries.sweep stored r.now else stored

omit [DecidableEq κ] in
/-- What a sweep leaves runs as it did. -/
theorem mem_sweep_iff {expiries : Expiries κ} {now later : ℚ} (hlater : now ≤ later) {key : κ} :
    (∃ expiry, (key, expiry) ∈ (expiries.sweep now).items ∧ later < expiry) ↔
      ∃ expiry, (key, expiry) ∈ expiries.items ∧ later < expiry := by
  simp only [Expiries.sweep, List.mem_filter, decide_eq_true_eq]
  constructor
  · rintro ⟨expiry, ⟨hmem, -⟩, hlt⟩
    exact ⟨expiry, hmem, hlt⟩
  · rintro ⟨expiry, hmem, hlt⟩
    exact ⟨expiry, ⟨hmem, hlater.trans_lt hlt⟩, hlt⟩

theorem mem_update_iff {expiries : Expiries κ} {expiry value : ℚ} {key key' : κ} :
    (key', value) ∈ (expiries.update expiry (fun _ => expiry) key).items ↔
      if key' = key then value = expiry else (key', value) ∈ expiries.items := by
  rw [mem_iff_lookup (expiries.update expiry (fun _ => expiry) key).nodup,
    mem_iff_lookup expiries.nodup]
  simp only [OrderedDict.update, lookup_upsert]
  split <;> simp [eq_comm]

/-- The memory of a process. -/
def memory : Store (Expiries κ) κ ℚ where
  acquire s r :=
    if (s.items.lookup r.key).any (r.now < ·) then (false, s) else (true, s.store r)
  Holds s key later := ∃ expiry, (key, expiry) ∈ s.items ∧ later < expiry
  granted_iff s r := by
    simp only [mem_iff_lookup s.nodup]
    cases hstored : s.items.lookup r.key with
    | none => simp
    | some expiry => by_cases hlt : r.now < expiry <;> simp [hlt]
  holds_acquire s r key later hlater := by
    by_cases hheld : (s.items.lookup r.key).any (r.now < ·) = true
    · simp [hheld]
    · have hexpired : ∀ expiry, (r.key, expiry) ∈ s.items → expiry ≤ r.now := by
        intro expiry hmem
        by_contra hlt
        exact hheld (by simp [(mem_iff_lookup s.nodup _).mp hmem, not_le.mp hlt])
      have hupdate : (∃ expiry, (key, expiry) ∈ (s.update r.expiry (fun _ => r.expiry) r.key).items ∧
            later < expiry) ↔
          (r.key = key ∧ later < r.expiry) ∨ ∃ expiry, (key, expiry) ∈ s.items ∧ later < expiry := by
        simp only [mem_update_iff]
        by_cases hkey : key = r.key
        · subst hkey
          have hnone : ¬ ∃ expiry, (r.key, expiry) ∈ s.items ∧ later < expiry := by
            rintro ⟨expiry, hmem, hlt⟩
            exact absurd ((hexpired expiry hmem).trans hlater) (not_le.mpr hlt)
          simp [hnone]
        · simp [hkey, Ne.symm hkey]
      rw [if_neg hheld, Expiries.store]
      simp only [true_and]
      split_ifs
      · exact (mem_sweep_iff hlater).trans hupdate
      · exact hupdate

/-- A second request before the first reservation has run out, and a third one after. -/
def threeRequests : List (Request Bool ℚ) := [⟨true, 0, 60⟩, ⟨true, 59, 119⟩, ⟨true, 60, 120⟩]

/-- What is stored was granted, and where that is much, it all ran at the last grant. -/
structure Expiries.Trim (s : Expiries κ) (made : List (Request κ ℚ)) : Prop where
  granted : ∀ item ∈ s.items, ∃ r ∈ made, (r.key, r.expiry) = item
  swept : memorySweepThreshold < s.items.length →
    ∃ last ∈ made.getLast?, ∀ item ∈ s.items, last.now < item.2

lemma Expiries.Trim.store {s : Expiries κ} {made : List (Request κ ℚ)} (h : s.Trim made)
    (r : Request κ ℚ) : (s.store r).Trim (made ++ [r]) := by
  have hstored : ∀ item ∈ (s.update r.expiry (fun _ => r.expiry) r.key).items,
      ∃ r' ∈ made ++ [r], (r'.key, r'.expiry) = item := by
    rintro ⟨key, expiry⟩ hitem
    rw [mem_update_iff] at hitem
    split_ifs at hitem with hkey
    · exact ⟨r, by simp, by rw [hkey, hitem]⟩
    · obtain ⟨r', hr', heq⟩ := h.granted _ hitem
      exact ⟨r', List.mem_append_left _ hr', heq⟩
  simp only [Expiries.store]
  split_ifs with hmany
  · refine ⟨fun item hitem => hstored item (List.mem_of_mem_filter hitem), fun _ => ⟨r, by simp, ?_⟩⟩
    exact fun item hitem => of_decide_eq_true (List.mem_filter.mp hitem).2
  · exact ⟨hstored, fun hlt => absurd hlt hmany⟩

lemma Expiries.trim_after (requests : List (Request κ ℚ)) :
    Expiries.Trim (after memory OrderedDict.empty requests)
      (grants memory OrderedDict.empty requests) := by
  refine after_induction (P := Expiries.Trim) (fun s made r h hr => ?_) (fun s made r h hr => ?_)
    (by constructor <;> simp [OrderedDict.empty]) requests
  · simp only [memory] at hr ⊢
    split_ifs at hr ⊢
    exact h.store r
  · simp only [memory] at hr ⊢
    split_ifs at hr ⊢
    exact h

/-- How many reservations ran when the last one was made. -/
def running (made : List (Request κ ℚ)) : ℕ :=
  made.countP fun r => made.getLast?.any (·.now < r.expiry)

/-- **Bounded memory**: the memory of a process never holds more than 1024 reservations, or than ran when
the last one was made. -/
theorem memory_bounded (requests : List (Request κ ℚ)) :
    (after memory OrderedDict.empty requests).items.length ≤
      max memorySweepThreshold (running (grants memory OrderedDict.empty requests)) := by
  have h := Expiries.trim_after requests
  refine le_max_iff.mpr (or_iff_not_imp_left.mpr fun hmany => ?_)
  obtain ⟨last, hlast, hran⟩ := h.swept (not_le.mp hmany)
  rw [running, List.countP_eq_length_filter,
    ← List.length_map (fun r : Request κ ℚ => (r.key, r.expiry))]
  refine (List.subperm_of_subset (List.Nodup.of_map _ (after memory _ requests).nodup) ?_).length_le
  intro item hitem
  obtain ⟨r, hr, rfl⟩ := h.granted item hitem
  refine List.mem_map.mpr ⟨r, List.mem_filter.mpr ⟨hr, ?_⟩, rfl⟩
  rw [Option.mem_def.mp hlast]
  exact decide_eq_true (hran _ hitem)

end Stores

/-! ### The service -/

/-- How the store's answer gets back: it may be lost after the store has worked, and the store may be out
of reach. -/
inductive Reply where
  | delivered | lost | unreachable
  deriving DecidableEq, Repr

/-- The two doors: a signed-in user, whose address is stored, and anyone with an address. -/
inductive Door where
  | user (email : List Char)
  | email (email : List Char)
  deriving DecidableEq, Repr

/-- An attempt; behind the second door an account may be found that is to be verified. -/
structure Attempt where
  door : Door
  now : ℚ
  reply : Reply
  found : Bool
  deriving DecidableEq

section Service

variable {κ σ : Type} (lower : List Char → List Char) (digest : List Char → κ) (settings : Settings)

/-- `normalize_email`. -/
def normalizeEmail (email : List Char) : List Char := lower (Python.strip email)

/-- `storage_key`: the digest is keyed, with a label of its own. -/
def storageKey (email : List Char) : κ := digest (normalizeEmail lower email)

/-- The address the mail of a door goes to: the stored one is looked up in its normal form. -/
def Door.address : Door → List Char
  | .user address => address
  | .email address => normalizeEmail lower address

/-- What the door asks the store for. -/
def Attempt.request (a : Attempt) : Request κ ℚ where
  key := storageKey lower digest (normalizeEmail lower (a.door.address lower))
  now := a.now
  expiry := a.now + settings.emailVerificationResendCooldownSeconds

/-- `acquire` of each backend: `none` where the store is unavailable, and the state it is left in. -/
def acquire (backend : Backend) (store : Store σ κ ℚ) (s : σ) (r : Request κ ℚ) (reply : Reply) :
    Option Bool × σ :=
  match backend, reply with
  | .unavailable, _ => (none, s)
  | .redis, .unreachable => (none, s)
  | .redis, .lost => (none, (store.acquire s r).2)
  | .redis, .delivered | .memory, _ => (some (store.acquire s r).1, (store.acquire s r).2)

/-- `_resend_attempt_allowed`: without an answer nothing is sent. -/
def resendAttemptAllowed (backend : Backend) (store : Store σ κ ℚ) (s : σ) (a : Attempt) : Bool × σ :=
  if 0 < settings.emailVerificationResendCooldownSeconds then
    let answer := acquire backend store s (a.request lower digest settings) a.reply
    (answer.1.getD false, answer.2)
  else (true, s)

/-- `resend_verification` and `resend_verification_by_email`: whether a mail is sent. -/
def Attempt.sends (a : Attempt) (allowed : Bool) : Bool :=
  match a.door with
  | .user _ => allowed
  | .email _ => allowed && a.found

/-- The attempts of a run that send a mail. -/
def resends (backend : Backend) (store : Store σ κ ℚ) (s : σ) : List Attempt → List Attempt
  | [] => []
  | a :: attempts =>
      let allowed := resendAttemptAllowed lower digest settings backend store s a
      if a.sends allowed.1 then a :: resends backend store allowed.2 attempts
      else resends backend store allowed.2 attempts

/-- Whether an attempt gets to the store. -/
def Attempt.reaches (backend : Backend) (a : Attempt) : Bool :=
  match backend with
  | .unavailable => false
  | .redis => a.reply ≠ .unreachable
  | .memory => true

variable {lower digest settings} {backend : Backend} {store : Store σ κ ℚ}

theorem Attempt.sends_imp {a : Attempt} {allowed : Bool} (h : a.sends allowed = true) :
    allowed = true := by
  unfold Attempt.sends at h
  split at h
  · exact h
  · exact (Bool.and_eq_true_iff.mp h).1

variable (store) in
/-- What an attempt is told that gets to the store. -/
theorem acquire_of_reaches {a : Attempt} (h : a.reaches backend = true) (s : σ) (r : Request κ ℚ) :
    ∃ answer, acquire backend store s r a.reply = (answer, (store.acquire s r).2) ∧
      (answer.getD false = true → (store.acquire s r).1 = true) := by
  cases backend <;> cases hreply : a.reply <;> simp_all [acquire, Attempt.reaches]

/-- What sends a mail was granted. -/
theorem resends_sublist (hcooldown : 0 < settings.emailVerificationResendCooldownSeconds) (s : σ)
    (attempts : List Attempt) :
    ((resends lower digest settings backend store s attempts).map
        (Attempt.request lower digest settings)).Sublist
      (grants store s ((attempts.filter (Attempt.reaches backend)).map
        (Attempt.request lower digest settings))) := by
  induction attempts generalizing s with
  | nil => simp [resends]
  | cons a attempts ih =>
      rw [resends, resendAttemptAllowed, if_pos hcooldown]
      dsimp only
      by_cases hreaches : a.reaches backend = true
      · obtain ⟨answer, hacquire, hgranted⟩ :=
          acquire_of_reaches store hreaches s (a.request lower digest settings)
        rw [List.filter_cons_of_pos hreaches, List.map_cons, grants, hacquire]
        split_ifs with hsends hstored hstored
        · exact (ih _).cons_cons _
        · exact absurd (hgranted (Attempt.sends_imp hsends)) hstored
        · exact (ih _).cons _
        · exact ih _
      · have hnone : acquire backend store s (a.request lower digest settings) a.reply = (none, s) := by
          cases backend <;> cases hreply : a.reply <;> simp_all [acquire, Attempt.reaches]
        have hsilent : ¬ a.sends false = true := fun hsends => by
          simpa using Attempt.sends_imp hsends
        rw [List.filter_cons_of_neg hreaches, hnone]
        simpa [hsilent] using ih s

/-- **The cooldown**: on a clock that does not go back, and whatever the store holds at first, two mails to
addresses with one normal form are the cooldown apart. -/
theorem resends_pairwise (hcooldown : 0 < settings.emailVerificationResendCooldownSeconds) (s : σ)
    {attempts : List Attempt} (hclock : attempts.Pairwise fun a a' => a.now ≤ a'.now) :
    (resends lower digest settings backend store s attempts).Pairwise fun a a' =>
      normalizeEmail lower (a.door.address lower) = normalizeEmail lower (a'.door.address lower) →
        a.now + (settings.emailVerificationResendCooldownSeconds : ℚ) ≤ a'.now := by
  have hrequests : (((attempts.filter (Attempt.reaches backend)).map
      (Attempt.request lower digest settings)).Pairwise fun r r' => r.now ≤ r'.now) :=
    List.pairwise_map.mpr (hclock.sublist List.filter_sublist)
  have hspaced := (spaced store s hrequests).sublist (resends_sublist hcooldown s attempts)
  refine (List.pairwise_map.mp hspaced).imp fun hpair hsame => hpair ?_
  simp [Attempt.request, storageKey, hsame]

/-- **A deployed environment**: one that passes the checks at startup sends two mails to addresses with one
normal form a minute apart at least, through whichever doors, whatever answers of the store get lost. -/
theorem resends_spaced (lower : List Char → List Char) (shown : String → String)
    (digest : List Char → κ) (settings : Settings) (store : Store σ κ ℚ) (s : σ)
    (attempts : List Attempt) (hvalid : settings.validate lower shown = .ok ())
    (hdeployed : settings.isLocalEnvironment lower = false)
    (hclock : attempts.Pairwise fun a a' => a.now ≤ a'.now) :
    getDefaultBackend lower settings = .redis ∧
      (resends lower digest settings (getDefaultBackend lower settings) store s attempts).Pairwise
        fun a a' => normalizeEmail lower (a.door.address lower) =
          normalizeEmail lower (a'.door.address lower) → a.now + 60 ≤ a'.now := by
  obtain ⟨hbackend, hcooldown⟩ := of_validate hvalid hdeployed
  refine ⟨hbackend, (resends_pairwise (by omega) s hclock).imp fun hspaced hsame => ?_⟩
  have hsixty : (60 : ℚ) ≤ settings.emailVerificationResendCooldownSeconds := by exact_mod_cast hcooldown
  linarith [hspaced hsame]

/-- A production environment, and attempts through both doors. -/
def production : Settings :=
  ⟨"production", "redis://cache", 60, 60, 60, 5, 5, "", "", 25⟩

def attempts : List Attempt :=
  [⟨.email ['A'], 0, .delivered, true⟩, ⟨.user ['a'], 30, .lost, false⟩, ⟨.user ['a'], 61, .delivered, false⟩]

theorem resends_spaced_production :
    getDefaultBackend (fun cs => cs.map Char.toLower) production = .redis ∧
      (resends (fun cs => cs.map Char.toLower) id production
        (getDefaultBackend (fun cs => cs.map Char.toLower) production) redis (fun _ => none)
        attempts).Pairwise fun a a' =>
          normalizeEmail (fun cs => cs.map Char.toLower) (a.door.address fun cs => cs.map Char.toLower) =
            normalizeEmail (fun cs => cs.map Char.toLower)
              (a'.door.address fun cs => cs.map Char.toLower) → a.now + 60 ≤ a'.now :=
  resends_spaced _ id id production redis (fun _ => none) attempts (by decide +kernel) (by decide +kernel)
    (by simp [attempts]; norm_num)

end Service

end Accounts.ResendCooldown
