import AgencyOS.Intelligence.TriageService

/-!
What a triage sweep is for: the founder's board.

A board says how the one live signal of each content hash stands.  A sweep puts the hashes it
emits on the board, as active where they are not there, and takes down the active ones that it
does not emit; what the founder has acknowledged or dismissed stays.

* `Board`, `Board.upsert`, `Board.prune`, `Board.sweep`: the board and the sweep of it;
* `Board.sweep_sweep`, `Board.sweep_settles_iff`: sweeping again for the same hashes changes
  nothing, and for which hashes the second sweep finds nothing to do;
* `Shows`, `solo_attemptSync`, `solo_triageOrg`: **the sweep of the code, run alone on the table of
  signals, sweeps the board that the table shows**, and its counters say what changed.
-/

namespace Intelligence

open Python Txn

/-! ### The board -/

/-- How a live signal stands. -/
inductive Standing where
  | active | acknowledged | dismissed
  deriving DecidableEq, Repr

def Standing.status : Standing → IntelligenceSignalStatus
  | active => .active
  | acknowledged => .acknowledged
  | dismissed => .dismissed

lemma Standing.status_injective : Function.Injective Standing.status := by
  intro m m' h
  cases m <;> cases m' <;> first | rfl | cases h

/-- A signal is live if it stands somehow. -/
lemma live_iff {r : IntelligenceSignal} : r.live = true ↔ ∃ m : Standing, r.status = m.status := by
  simp only [IntelligenceSignal.live, decide_eq_true_eq]
  cases r.status with
  | active => exact ⟨fun _ => ⟨.active, rfl⟩, fun _ => by simp⟩
  | acknowledged => exact ⟨fun _ => ⟨.acknowledged, rfl⟩, fun _ => by simp⟩
  | dismissed => exact ⟨fun _ => ⟨.dismissed, rfl⟩, fun _ => by simp⟩
  | superseded =>
      refine ⟨fun h => absurd rfl h, ?_⟩
      rintro ⟨m, hm⟩
      cases m <;> cases hm

/-- How the live signal of each hash stands, if there is one. -/
abbrev Board (η : Type) : Type := η → Option Standing

namespace Board

variable {η : Type} [DecidableEq η] (b : Board η) (h : η) (emitted : List η)

/-- A hash put on the board. -/
def upsert : Board η := Function.update b h (some ((b h).getD .active))

/-- The active hashes that are not emitted, taken down. -/
def prune : Board η := fun h => if b h = some .active ∧ h ∉ emitted then none else b h

/-- The board after a sweep. -/
def sweep : Board η := (emitted.foldl upsert b).prune emitted

/-- The founder has acknowledged or dismissed the signal. -/
def Held : Prop := b h = some .acknowledged ∨ b h = some .dismissed

variable {b h emitted}

lemma upsert_of_some {m : Standing} (hm : b h = some m) : b.upsert h = b := by
  rw [upsert, hm, Option.getD_some, ← hm, Function.update_eq_self]

lemma upsert_of_ne {h' : η} (hne : h' ≠ h) : b.upsert h h' = b h' := Function.update_of_ne hne _ _

lemma foldl_upsert (b : Board η) (emitted : List η) (h : η) :
    emitted.foldl upsert b h = if h ∈ emitted then some ((b h).getD .active) else b h := by
  induction emitted generalizing b with
  | nil => simp
  | cons e es ih =>
      rw [List.foldl_cons, ih]
      by_cases he : h = e
      · subst he
        by_cases hes : h ∈ es <;> simp [hes, upsert]
      · rw [upsert_of_ne he]
        simp [he]

/-- The board after a sweep, hash by hash. -/
theorem sweep_eq (b : Board η) (emitted : List η) (h : η) :
    b.sweep emitted h = if h ∈ emitted then some ((b h).getD .active)
      else if b h = some .active then none else b h := by
  by_cases hmem : h ∈ emitted
  · simp [sweep, prune, foldl_upsert, hmem]
  · simp [sweep, prune, foldl_upsert, hmem]

lemma sweep_eq_none_iff : b.sweep emitted h = none ↔ h ∉ emitted ∧ ¬ b.Held h := by
  rw [sweep_eq, Held]
  by_cases hmem : h ∈ emitted
  · simp [hmem]
  · cases hb : b h with
    | none => simp [hmem]
    | some m => cases m <;> simp [hmem]

lemma sweep_eq_active_iff :
    b.sweep emitted h = some .active ↔ h ∈ emitted ∧ ¬ b.Held h := by
  rw [sweep_eq, Held]
  by_cases hmem : h ∈ emitted
  · cases hb : b h with
    | none => simp [hmem]
    | some m => cases m <;> simp [hmem]
  · cases hb : b h with
    | none => simp [hmem]
    | some m => cases m <;> simp [hmem]

/-- **A sweep for the same hashes again changes nothing.** -/
theorem sweep_sweep (b : Board η) (emitted : List η) :
    (b.sweep emitted).sweep emitted = b.sweep emitted := by
  funext h
  rw [sweep_eq, sweep_eq]
  by_cases hmem : h ∈ emitted
  · simp [hmem]
  · cases hb : b h with
    | none => simp [hmem]
    | some m => cases m <;> simp [hmem]

/-- **When a second sweep finds nothing to do**: it emits the hashes of the first one, up to those
that the founder holds. -/
theorem sweep_settles_iff {emitted₁ emitted₂ : List η} :
    ((∀ h ∈ emitted₂, b.sweep emitted₁ h ≠ none)
        ∧ ∀ h, b.sweep emitted₁ h = some .active → h ∈ emitted₂)
      ↔ ∀ h, ¬ b.Held h → (h ∈ emitted₁ ↔ h ∈ emitted₂) := by
  constructor
  · rintro ⟨hcreated, hsuperseded⟩ h hfree
    constructor
    · exact fun h₁ => hsuperseded h (sweep_eq_active_iff.mpr ⟨h₁, hfree⟩)
    · intro h₂
      by_contra h₁
      exact hcreated h h₂ (sweep_eq_none_iff.mpr ⟨h₁, hfree⟩)
  · intro hsame
    constructor
    · intro h h₂ hnone
      obtain ⟨h₁, hfree⟩ := sweep_eq_none_iff.mp hnone
      exact h₁ ((hsame h hfree).mpr h₂)
    · intro h hactive
      obtain ⟨h₁, hfree⟩ := sweep_eq_active_iff.mp hactive
      exact (hsame h hfree).mp h₁

end Board

/-! ### The board that a table shows -/

/-- The table shows the board of an organization: a hash stands as its live signal does. -/
def Shows (v : ℕ → Option IntelligenceSignal) (organizationId : ℕ) (b : Board Text) : Prop :=
  ∀ h m, b h = some m ↔ ∃ n r, v n = some r ∧ r.organizationId = organizationId
    ∧ r.contentHash = h ∧ r.status = m.status

section Shows

variable {v : ℕ → Option IntelligenceSignal} {organizationId : ℕ} {b : Board Text} {h : Text}

/-- A hash is not on the board if no live signal has it. -/
lemma Shows.eq_none_iff (hv : Shows v organizationId b) :
    b h = none ↔ ∀ n r, v n = some r → r.organizationId = organizationId → r.contentHash = h →
      r.live = false := by
  constructor
  · intro hb n r hn horg hh
    by_contra hlive
    obtain ⟨m, hm⟩ := live_iff.mp (by simpa using hlive)
    rw [(hv h m).mpr ⟨n, r, hn, horg, hh, hm⟩] at hb
    cases hb
  · intro hall
    cases hb : b h with
    | none => rfl
    | some m =>
        obtain ⟨n, r, hn, horg, hh, hm⟩ := (hv h m).mp hb
        have := hall n r hn horg hh
        rw [live_iff.mpr ⟨m, hm⟩] at this
        cases this

/-- A signal rewritten with its status, hash and organization leaves the board as it is. -/
lemma Shows.rewrite (hv : Shows v organizationId b) {n : ℕ} {r r' : IntelligenceSignal}
    (hn : v n = some r) (horg : r'.organizationId = r.organizationId)
    (hh : r'.contentHash = r.contentHash) (hs : r'.status = r.status) :
    Shows (Function.update v n (some r')) organizationId b := by
  intro h m
  rw [hv h m]
  constructor
  · rintro ⟨n₁, r₁, hn₁, hrest⟩
    by_cases heq : n₁ = n
    · subst heq
      obtain rfl := Option.some.inj (hn.symm.trans hn₁)
      exact ⟨n₁, r', by simp, by rwa [horg, hh, hs]⟩
    · exact ⟨n₁, r₁, by rwa [Function.update_of_ne heq], hrest⟩
  · rintro ⟨n₁, r₁, hn₁, hrest⟩
    by_cases heq : n₁ = n
    · subst heq
      rw [Function.update_self] at hn₁
      obtain rfl := Option.some.inj hn₁
      exact ⟨n₁, r, hn, by rwa [horg, hh, hs] at hrest⟩
    · exact ⟨n₁, r₁, by rwa [Function.update_of_ne heq] at hn₁, hrest⟩

/-- A new active signal of a hash that is not on the board puts it there. -/
lemma Shows.insert (hv : Shows v organizationId b) {n : ℕ} {r : IntelligenceSignal}
    (hn : v n = none) (horg : r.organizationId = organizationId) (hs : r.status = .active)
    (hb : b r.contentHash = none) :
    Shows (Function.update v n (some r)) organizationId (b.upsert r.contentHash) := by
  intro h m
  constructor
  · intro hm
    by_cases hh : h = r.contentHash
    · subst hh
      simp only [Board.upsert, Function.update_self, hb, Option.getD_none, Option.some.injEq] at hm
      subst hm
      exact ⟨n, r, by simp, horg, rfl, hs⟩
    · rw [Board.upsert_of_ne hh] at hm
      obtain ⟨n₁, r₁, hn₁, hrest⟩ := (hv h m).mp hm
      have hne : n₁ ≠ n := by
        rintro rfl
        rw [hn] at hn₁
        cases hn₁
      exact ⟨n₁, r₁, by rwa [Function.update_of_ne hne], hrest⟩
  · rintro ⟨n₁, r₁, hn₁, horg₁, rfl, hs₁⟩
    by_cases heq : n₁ = n
    · subst heq
      rw [Function.update_self] at hn₁
      obtain rfl := Option.some.inj hn₁
      have hm : m = .active := Standing.status_injective (hs₁.symm.trans hs)
      simp [Board.upsert, hb, hm]
    · rw [Function.update_of_ne heq] at hn₁
      have hm := (hv r₁.contentHash m).mpr ⟨n₁, r₁, hn₁, horg₁, rfl, hs₁⟩
      have hne : r₁.contentHash ≠ r.contentHash := by
        intro hh
        rw [hh, hb] at hm
        cases hm
      rwa [Board.upsert_of_ne hne]

/-- Superseding the stale signals takes their hashes down. -/
lemma Shows.prune (hv : Shows v organizationId b) (emitted : List Text) :
    Shows (fun n => (v n).map (IntelligenceSignal.supersede organizationId emitted).step)
      organizationId (b.prune emitted) := by
  intro h m
  constructor
  · intro hm
    rw [Board.prune] at hm
    split_ifs at hm with hdown
    obtain ⟨n, r, hn, horg, rfl, hs⟩ := (hv h m).mp hm
    have hguard : (IntelligenceSignal.supersede organizationId emitted).guard r = false := by
      by_contra hg
      have hstale : r.stale organizationId emitted = true := Bool.not_eq_false _ ▸ hg
      simp only [IntelligenceSignal.stale, Bool.and_eq_true, decide_eq_true_eq, Bool.not_eq_true',
        List.contains_eq_mem, decide_eq_false_iff_not] at hstale
      have hactive : m = .active := Standing.status_injective (hs.symm.trans hstale.1.2)
      exact hdown ⟨hactive ▸ hm, hstale.2⟩
    exact ⟨n, r, by simp [hn, GuardedUpdate.step_of_not_guard hguard], horg, rfl, hs⟩
  · rintro ⟨n, r, hn, horg, hh, hs⟩
    obtain ⟨r₀, hn₀, hstep⟩ := Option.map_eq_some_iff.mp hn
    by_cases hg : (IntelligenceSignal.supersede organizationId emitted).guard r₀ = true
    · -- a superseded signal stands nowhere
      rw [GuardedUpdate.step_of_guard hg] at hstep
      subst hstep
      have hdead : IntelligenceSignalStatus.superseded = m.status := hs
      cases m <;> cases hdead
    · rw [GuardedUpdate.step_of_not_guard (by simpa using hg)] at hstep
      subst hstep
      have hm := (hv h m).mpr ⟨n, r₀, hn₀, horg, hh, hs⟩
      rw [Board.prune, if_neg, hm]
      rintro ⟨hactive, hout⟩
      obtain rfl := Option.some.inj (hm.symm.trans hactive)
      refine hg ?_
      have hs' : r₀.status = .active := hs
      simp [IntelligenceSignal.supersede, IntelligenceSignal.stale, horg, hs', hh, hout]

end Shows

/-! ### Statements of a session that is alone -/

section Solo

variable {ι : Type} [DecidableEq ι] {s : FeedDb ι} {i : ι} {organizationId : ℕ} {b : Board Text}
  {α : Type} {sha256 : Text → Text} {score : SignalCandidate → ℤ → ℚ} {settings : Settings} {now : ℤ}

/-- Session `i` is alone on the store, and sees the board `b`. -/
structure Sees (i : ι) (organizationId : ℕ) (b : Board Text) (s : FeedDb ι) : Prop where
  quiet : Quiet i s
  unique : Unique liveKey s
  shows : Shows (s.view i ()) organizationId b

/-- A statement whose key is not taken is executed. -/
lemma solo_execute {q : Sql intelligence} (hfree : Db.refuses liveKey i q s = false)
    (f : q.Resp → Tx α) :
    (feedServer ι).solo i ((execute q).bind f) s
      = (feedServer ι).solo i (f (Db.answer i q s)) (Db.effect i q s) := by
  simp [execute, indexedServer, hfree]

/-- A session that is alone never waits. -/
lemma feed_ready (h : Quiet i s) (q : Sql intelligence) :
    (feedServer ι).ready i q s = true := by
  have hawaits : Db.awaits liveKey i q s = false := by
    by_contra hw
    rw [Bool.not_eq_false, Db.awaits, Option.any_eq_true] at hw
    obtain ⟨w, -, hw⟩ := hw
    obtain ⟨k, m, j, r, -, -, hd, hj, -⟩ := Db.contested_eq_true.mp hw
    exact hj (h _ _ _ _ hd)
  simp [indexedServer, h.ready q, hawaits]

/-- A statement that is executed keeps its session alone and the keys apart. -/
lemma Sees.effect (h : Sees i organizationId b s) {q : Sql intelligence}
    (hfree : Db.refuses liveKey i q s = false) {b' : Board Text}
    (hshows : Shows ((Db.effect i q s).view i ()) organizationId b') :
    Sees i organizationId b' (Db.effect i q s) where
  quiet := h.quiet.effect q
  unique := by
    have := h.unique.effect (feed_ready h.quiet q)
    simpa [indexedServer, hfree] using this
  shows := hshows

/-- **`get_live_by_hash`** finds no signal if the hash is not on the board, and otherwise the one
live signal; two are never found. -/
lemma solo_getLiveByHash (h : Sees i organizationId b s) (hash : Text) (f : Option ℕ → Tx α) :
    (b hash = none ∧ (feedServer ι).solo i ((getLiveByHash organizationId hash).bind f) s
        = (feedServer ι).solo i (f none) s)
      ∨ ∃ m n r, b hash = some m ∧ s.view i () n = some r ∧ r.organizationId = organizationId
        ∧ r.contentHash = hash ∧ r.status = m.status
        ∧ (feedServer ι).solo i ((getLiveByHash organizationId hash).bind f) s
          = (feedServer ι).solo i (f (some n)) s := by
  have hrow : ∀ n r, (n, r) ∈ s.rows i (Query.liveByHash organizationId hash)
      ↔ s.view i () n = some r ∧ r.organizationId = organizationId ∧ r.contentHash = hash
        ∧ r.live = true := by
    intro n r
    rw [Db.mem_rows]
    simp [Query.matching, and_assoc]
  -- what becomes of no row, and of one
  obtain ⟨k, hk, hnone, hone⟩ : ∃ k : List (ℕ × IntelligenceSignal) → Tx (Option ℕ),
      getLiveByHash organizationId hash = (execute (.scan (Query.liveByHash organizationId hash))).bind k
        ∧ k [] = .ret none ∧ ∀ row, k [row] = .ret (some row.1) := ⟨_, rfl, rfl, fun _ => rfl⟩
  have hrun : (feedServer ι).solo i ((getLiveByHash organizationId hash).bind f) s
      = (feedServer ι).solo i ((k (s.rows i (Query.liveByHash organizationId hash))).bind f) s := by
    rw [hk, Prog.bind_assoc, solo_execute rfl]
    rfl
  have hnodup := s.nodup_rows i (Query.liveByHash organizationId hash)
  rw [hrun]
  cases hrows : s.rows i (Query.liveByHash organizationId hash) with
  | nil =>
      refine Or.inl ⟨h.shows.eq_none_iff.mpr fun n r hn horg hh => ?_, by rw [hnone, Prog.ret_bind]⟩
      by_contra hlive
      have := (hrow n r).mpr ⟨hn, horg, hh, by simpa using hlive⟩
      rw [hrows] at this
      cases this
  | cons row rest =>
      obtain ⟨hn, horg, hh, hlive⟩ := (hrow row.1 row.2).mp (hrows ▸ List.mem_cons_self)
      cases rest with
      | nil =>
          obtain ⟨m, hm⟩ := live_iff.mp hlive
          exact Or.inr ⟨m, row.1, row.2, (h.shows hash m).mpr ⟨_, _, hn, horg, hh, hm⟩, hn, horg,
            hh, hm, by rw [hone, Prog.ret_bind]⟩
      | cons row' rest =>
          -- two live signals of one hash: the index keeps them apart
          obtain ⟨hn', horg', hh', hlive'⟩ := (hrow row'.1 row'.2).mp
            (hrows ▸ List.mem_cons_of_mem _ List.mem_cons_self)
          have hsame := h.unique.view (k := (organizationId, hash)) hn hn'
            (liveKey_eq_some.mpr ⟨hlive, horg, hh⟩) (liveKey_eq_some.mpr ⟨hlive', horg', hh'⟩)
          rw [hrows] at hnodup
          simp [hsame] at hnodup

/-- **The upsert of one candidate** puts its hash on the board, and creates a signal if it was not
there. -/
lemma solo_syncOne (sha256 : Text → Text) (now : ℤ) (h : Sees i organizationId b s) (x : SignalCandidate × ℚ) :
    ∃ s', (feedServer ι).solo i (syncOne sha256 organizationId now x) s
        = (.ok (b (x.1.contentHash sha256)).isNone, s')
      ∧ Sees i organizationId (b.upsert (x.1.contentHash sha256)) s' := by
  rcases solo_getLiveByHash h (x.1.contentHash sha256) (writeSignal sha256 organizationId now x)
    with ⟨hb, hrun⟩ | ⟨m, n, r, hb, hn, horg, hh, hm, hrun⟩
  · have hfree : Db.refuses liveKey i
        (.insert (newSignal sha256 organizationId x.1 x.2 now) : Sql intelligence) s = false := by
      by_contra ht
      rw [Bool.not_eq_false, Db.refuses, Db.attempt, Option.any_some] at ht
      obtain ⟨k, m, r, hk, -, hv, hr⟩ := Db.taken_eq_true.mp ht
      obtain ⟨-, horg, hh⟩ := liveKey_eq_some.mp hk
      obtain ⟨hlive, horg', hh'⟩ := liveKey_eq_some.mp hr
      have := h.shows.eq_none_iff.mp hb m r hv (horg'.trans horg.symm) (hh'.trans hh.symm)
      rw [hlive] at this
      cases this
    rw [syncOne, hrun, writeSignal, solo_execute hfree]
    refine ⟨_, by rw [hb]; rfl, h.effect hfree ?_⟩
    have hfresh : s.view i () s.fresh = none := by
      cases hv : s.view i () s.fresh with
      | none => rfl
      | some r => exact absurd (Db.lt_fresh_of_view hv) (lt_irrefl _)
    have hview : (Db.effect i (.insert (newSignal sha256 organizationId x.1 x.2 now)) s).view i ()
        = Function.update (s.view i ()) s.fresh
          (some (newSignal sha256 organizationId x.1 x.2 now)) := s.view_write i () _ _
    rw [hview]
    exact h.shows.insert hfresh rfl rfl hb
  · have hw : s.written i (Update.refresh x.1 x.2 now) n
        = some ((IntelligenceSignal.refresh x.1 x.2 now).set r) :=
      Db.written_eq_some.mpr ⟨h.quiet.heldByOther _ _, r, hn, rfl, rfl⟩
    have hfree : Db.refuses liveKey i (.update (Update.refresh x.1 x.2 now) n : Sql intelligence) s
        = false := by
      by_contra ht
      rw [Bool.not_eq_false, Db.refuses, Db.attempt, hw, Option.map_some, Option.any_some] at ht
      obtain ⟨k, n', r', hk, hne, hv, hr'⟩ := Db.taken_eq_true.mp ht
      exact hne (h.unique.view hv hn hr' hk)
    rw [syncOne, hrun, writeSignal, solo_execute hfree]
    refine ⟨_, by rw [hb]; rfl, h.effect hfree ?_⟩
    have hview : (Db.effect i (.update (Update.refresh x.1 x.2 now) n) s).view i ()
        = Function.update (s.view i ()) n
          (some ((IntelligenceSignal.refresh x.1 x.2 now).set r)) := by
      rw [Db.effect_update hw]
      exact s.view_write i () _ _
    rw [hview, Board.upsert_of_some hb]
    exact h.shows.rewrite hn rfl rfl rfl

/-- **`_sync_once`** puts every hash on the board, and creates a signal for each that was not
there. -/
lemma solo_syncOnce (sha256 : Text → Text) (now : ℤ) (h : Sees i organizationId b s)
    (xs : List (SignalCandidate × ℚ))
    (hn : (xs.map fun x => x.1.contentHash sha256).Nodup) :
    ∃ updated s', (feedServer ι).solo i (syncOnce sha256 organizationId now xs) s
        = (.ok (((xs.map fun x => x.1.contentHash sha256).filter fun e => (b e).isNone).length,
            updated), s')
      ∧ Sees i organizationId ((xs.map fun x => x.1.contentHash sha256).foldl Board.upsert b) s' := by
  induction xs generalizing b s with
  | nil => exact ⟨0, s, rfl, h⟩
  | cons x xs ih =>
      obtain ⟨s₁, hrun₁, h₁⟩ := solo_syncOne sha256 now h x
      rw [List.map_cons, List.nodup_cons] at hn
      obtain ⟨updated, s₂, hrun₂, h₂⟩ := ih h₁ hn.2
      -- the hashes still to come are other ones, so their place on the board has not changed
      have hsame : ((xs.map fun x => x.1.contentHash sha256).filter fun e =>
            (b.upsert (x.1.contentHash sha256) e).isNone)
          = (xs.map fun x => x.1.contentHash sha256).filter fun e => (b e).isNone := by
        refine List.filter_congr fun e he => ?_
        rw [Board.upsert_of_ne]
        rintro rfl
        exact hn.1 he
      rw [hsame] at hrun₂
      cases hb : b (x.1.contentHash sha256) with
      | none =>
          refine ⟨updated, s₂, ?_, h₂⟩
          rw [syncOnce, Server.solo_bind_of_ok _ _ hrun₁, Server.solo_bind_of_ok _ _ hrun₂]
          simp [hb]
      | some m =>
          refine ⟨updated + 1, s₂, ?_, h₂⟩
          rw [syncOnce, Server.solo_bind_of_ok _ _ hrun₁, Server.solo_bind_of_ok _ _ hrun₂]
          simp [hb]

/-- The rows that the bulk `UPDATE` has picked are superseded one by one; nothing has changed them
since. -/
lemma solo_supersedeRows {emitted : List Text} (rows : List (ℕ × IntelligenceSignal))
    (hquiet : Quiet i s) (hunique : Unique liveKey s) (hn : (rows.map Prod.fst).Nodup)
    (hrows : ∀ row ∈ rows, s.view i () row.1 = some row.2
      ∧ row.2.stale organizationId emitted = true) :
    ∃ s', (feedServer ι).solo i (Prog.tally rows fun row =>
          (execute (.update (Update.supersede organizationId emitted) row.1)).bind fun r =>
            .ret (if r.isSome then 1 else 0)) s = (.ok rows.length, s')
      ∧ Quiet i s' ∧ Unique liveKey s'
      ∧ ∀ n, s'.view i () n = if n ∈ rows.map Prod.fst then
          (s.view i () n).map (IntelligenceSignal.supersede organizationId emitted).step
        else s.view i () n := by
  induction rows generalizing s with
  | nil => exact ⟨s, rfl, hquiet, hunique, fun n => by simp⟩
  | cons row rows ih =>
      rw [List.map_cons, List.nodup_cons] at hn
      obtain ⟨hv, hstale⟩ := hrows row List.mem_cons_self
      have hw : s.written i (Update.supersede organizationId emitted) row.1
          = some ((IntelligenceSignal.supersede organizationId emitted).set row.2) :=
        Db.written_eq_some.mpr ⟨hquiet.heldByOther _ _, row.2, hv, hstale, rfl⟩
      have hfree : Db.refuses liveKey i
          (.update (Update.supersede organizationId emitted) row.1 : Sql intelligence) s = false := by
        by_contra ht
        rw [Bool.not_eq_false, Db.refuses, Db.attempt, hw, Option.map_some, Option.any_some] at ht
        obtain ⟨k, n', r', hk, -⟩ := Db.taken_eq_true.mp ht
        exact Bool.false_ne_true (liveKey_eq_some.mp hk).1
      have hview : (Db.effect i (.update (Update.supersede organizationId emitted) row.1) s).view i ()
          = Function.update (s.view i ()) row.1
            (some ((IntelligenceSignal.supersede organizationId emitted).set row.2)) := by
        rw [Db.effect_update hw]
        exact s.view_write i () _ _
      obtain ⟨s', hrun, hquiet', hunique', hview'⟩ :=
        ih (s := Db.effect i (.update (Update.supersede organizationId emitted) row.1) s)
          (hquiet.effect _) (by
            have := hunique.effect (feed_ready hquiet
              (.update (Update.supersede organizationId emitted) row.1))
            simpa [indexedServer, hfree] using this) hn.2 fun row' hrow' => by
            obtain ⟨hv', hstale'⟩ := hrows row' (List.mem_cons_of_mem _ hrow')
            have hne : row'.1 ≠ row.1 := fun h => hn.1 (h ▸ List.mem_map_of_mem hrow')
            exact ⟨by rw [hview, Function.update_of_ne hne, hv'], hstale'⟩
      refine ⟨s', ?_, hquiet', hunique', fun n => ?_⟩
      · rw [Prog.tally_cons, Prog.bind_assoc, solo_execute hfree]
        have hanswer : Db.answer i (.update (Update.supersede organizationId emitted) row.1) s
            = some ((IntelligenceSignal.supersede organizationId emitted).set row.2) := hw
        rw [hanswer, Prog.ret_bind, Server.solo_bind_of_ok _ _ hrun, Server.solo_ret]
        simp [Nat.add_comm]
      · rw [hview' n, hview]
        by_cases hrow : n = row.1
        · subst hrow
          simp [hn.1, hv, GuardedUpdate.step_of_guard (u :=
            IntelligenceSignal.supersede organizationId emitted) hstale]
        · have hmem : n ∈ (row :: rows).map Prod.fst ↔ n ∈ rows.map Prod.fst := by
            rw [List.map_cons, List.mem_cons, or_iff_right hrow]
          simp only [Function.update_of_ne hrow, hmem]

/-- **`supersede_stale`** takes the hashes that are not emitted down, and counts none if there was
nothing to take down. -/
lemma solo_supersedeStale (h : Sees i organizationId b s) (emitted : List Text) :
    ∃ superseded s', (feedServer ι).solo i (supersedeStale organizationId emitted) s
        = (.ok superseded, s')
      ∧ Sees i organizationId (b.prune emitted) s'
      ∧ (superseded = 0 ↔ ∀ e, b e = some .active → e ∈ emitted) := by
  have hrow : ∀ n r, (n, r) ∈ s.rows i (Query.stale organizationId emitted)
      ↔ s.view i () n = some r ∧ r.stale organizationId emitted = true := fun n r => Db.mem_rows
  obtain ⟨s', hrun, hquiet, hunique, hview⟩ := solo_supersedeRows
    (s.rows i (Query.stale organizationId emitted)) h.quiet h.unique
    (s.nodup_rows i _) fun row hmem => (hrow row.1 row.2).mp hmem
  refine ⟨(s.rows i (Query.stale organizationId emitted)).length, s', ?_,
    ⟨hquiet, hunique, ?_⟩, ?_⟩
  · rw [supersedeStale, solo_execute rfl]
    exact hrun
  · have hstep : s'.view i () = fun n => (s.view i () n).map
        (IntelligenceSignal.supersede organizationId emitted).step := by
      funext n
      rw [hview n]
      split_ifs with hmem
      · rfl
      · cases hv : s.view i () n with
        | none => rfl
        | some r =>
            have hfresh : (IntelligenceSignal.supersede organizationId emitted).guard r = false := by
              by_contra hg
              refine hmem (List.mem_map_of_mem ((hrow n r).mpr ⟨hv, ?_⟩))
              exact Bool.not_eq_false _ ▸ hg
            rw [Option.map_some, GuardedUpdate.step_of_not_guard hfresh]
    rw [hstep]
    exact h.shows.prune emitted
  · rw [List.length_eq_zero_iff, List.eq_nil_iff_forall_not_mem]
    constructor
    · intro hnil e he
      obtain ⟨n, r, hn, horg, hh, hs⟩ := (h.shows e .active).mp he
      by_contra hout
      refine hnil (n, r) ((hrow n r).mpr ⟨hn, ?_⟩)
      have hs' : r.status = .active := hs
      simp [IntelligenceSignal.stale, horg, hs', hh, hout]
    · rintro hall ⟨n, r⟩ hmem
      obtain ⟨hn, hstale⟩ := (hrow n r).mp hmem
      simp only [IntelligenceSignal.stale, Bool.and_eq_true, decide_eq_true_eq, Bool.not_eq_true',
        List.contains_eq_mem, decide_eq_false_iff_not] at hstale
      exact hstale.2 (hall r.contentHash ((h.shows _ .active).mpr
        ⟨n, r, hn, hstale.1.1, rfl, hstale.1.2⟩))

end Solo

/-! ### The hashes emitted -/

section Emitted

variable {sha256 : Text → Text} {score : SignalCandidate → ℤ → ℚ} {settings : Settings}
  {collected : List SignalCandidate} {now : ℤ} {e : Text}

/-- The dictionary of a sweep has each candidate under its content hash. -/
lemma byHash_items (collected : List SignalCandidate) :
    ∀ item ∈ (byHash sha256 collected).items, item.1 = item.2.contentHash sha256 := by
  have hstep : ∀ (items : List (Text × SignalCandidate)) (c : SignalCandidate),
      (∀ item ∈ items, item.1 = item.2.contentHash sha256) →
      ∀ item ∈ upsert c id (c.contentHash sha256) items,
        item.1 = item.2.contentHash sha256 := by
    intro items c hitems
    induction items with
    | nil => simp [upsert]
    | cons first items ih =>
        intro item hitem
        rw [upsert] at hitem
        split_ifs at hitem with hkey
        · rcases List.mem_cons.mp hitem with rfl | hmem
          · exact hkey.symm.trans (hitems first List.mem_cons_self)
          · exact hitems item (List.mem_cons_of_mem _ hmem)
        · rcases List.mem_cons.mp hitem with rfl | hmem
          · exact hitems _ List.mem_cons_self
          · exact ih (fun item h => hitems item (List.mem_cons_of_mem _ h)) item hmem
  have hfold : ∀ (l : List SignalCandidate) (d : OrderedDict Text SignalCandidate),
      (∀ item ∈ d.items, item.1 = item.2.contentHash sha256) →
      ∀ item ∈ (l.foldl (fun d c => d.update c id (c.contentHash sha256)) d).items,
        item.1 = item.2.contentHash sha256 := by
    intro l
    induction l with
    | nil => exact fun d hd => hd
    | cons c l ih => exact fun d hd => ih _ (hstep d.items c hd)
  refine hfold collected .empty fun item hitem => ?_
  cases hitem

lemma map_contentHash_sweepCandidates (collected : List SignalCandidate) :
    (sweepCandidates sha256 settings collected).map (SignalCandidate.contentHash sha256)
      = ((byHash sha256 collected).items.map Prod.fst).take settings.maxSignalsPerOrg := by
  rw [sweepCandidates, List.map_take, List.map_map]
  congr 1
  exact List.map_congr_left fun item hitem => (byHash_items collected item hitem).symm

/-- The hashes emitted are those of the candidates of the sweep, in the order of the scores. -/
lemma liveHashes_perm (collected : List SignalCandidate) (now : ℤ) :
    (liveHashes sha256 score settings collected now).Perm
      ((sweepCandidates sha256 settings collected).map (SignalCandidate.contentHash sha256)) := by
  have h := (sortedBy_perm (fun x : SignalCandidate × ℚ => OrderDual.toDual x.2)
    ((sweepCandidates sha256 settings collected).map fun c => (c, score c now))).map
    fun x => x.1.contentHash sha256
  rw [List.map_map] at h
  exact h

lemma mem_liveHashes : e ∈ liveHashes sha256 score settings collected now
    ↔ ∃ c ∈ sweepCandidates sha256 settings collected, c.contentHash sha256 = e := by
  rw [(liveHashes_perm collected now).mem_iff, List.mem_map]

/-- Each hash is emitted once. -/
lemma nodup_liveHashes (collected : List SignalCandidate) (now : ℤ) :
    (liveHashes sha256 score settings collected now).Nodup := by
  rw [(liveHashes_perm collected now).nodup_iff, map_contentHash_sweepCandidates]
  exact (List.take_sublist _ _).nodup (byHash sha256 collected).nodup

end Emitted

/-! ### The sweep -/

section Sweep

variable {ι : Type} [DecidableEq ι] {s : FeedDb ι} {i : ι} {organizationId : ℕ} {b : Board Text}
  (sha256 : Text → Text) (score : SignalCandidate → ℤ → ℚ) (settings : Settings)
  (collected : List SignalCandidate) (now : ℤ)

/-- **The sweep of the code is the sweep of the board**, with one signal created for each emitted
hash that was not on it, and none superseded exactly if it had no other active hash. -/
theorem solo_attemptSync (h : Sees i organizationId b s) :
    ∃ counters s', (feedServer ι).solo i
        (attemptSync sha256 score settings organizationId collected now) s = (.ok counters, s')
      ∧ Sees i organizationId (b.sweep (liveHashes sha256 score settings collected now)) s'
      ∧ counters.created = ((liveHashes sha256 score settings collected now).filter fun e =>
          (b e).isNone).length
      ∧ (counters.superseded = 0
        ↔ ∀ e, b e = some .active → e ∈ liveHashes sha256 score settings collected now) := by
  obtain ⟨updated, s₁, hrun₁, h₁⟩ := solo_syncOnce sha256 now h
    (scored score (sweepCandidates sha256 settings collected) now)
    (nodup_liveHashes collected now : (liveHashes sha256 score settings collected now).Nodup)
  obtain ⟨superseded, s₂, hrun₂, h₂, hzero⟩ :=
    solo_supersedeStale h₁ (liveHashes sha256 score settings collected now)
  have hrun : (feedServer ι).solo i
      (attemptSync sha256 score settings organizationId collected now) s = _ :=
    (Server.solo_bind_of_ok _ _ hrun₁).trans (Server.solo_bind_of_ok _ _ hrun₂)
  refine ⟨_, s₂, hrun, h₂, rfl, ?_⟩
  · refine hzero.trans (forall_congr' fun e => ?_)
    change (List.foldl Board.upsert b (liveHashes sha256 score settings collected now) e
      = some .active → _) ↔ _
    rw [Board.foldl_upsert]
    by_cases he : e ∈ liveHashes sha256 score settings collected now
    · simp [he]
    · simp [he]

/-- A sweep that is alone never has to retry. -/
lemma solo_runSweepForOrg {counters : Counters} {s' : FeedDb ι}
    (h : (feedServer ι).solo i (attemptSync sha256 score settings organizationId collected now) s
      = (.ok counters, s')) :
    (feedServer ι).solo i (runSweepForOrg sha256 score settings organizationId collected now) s
      = (.ok counters, s') := by
  unfold runSweepForOrg
  exact Server.solo_tryCatch_of_ok _ _ h

/-- The sweep committed by its caller: the store is settled again, and shows the swept board. -/
theorem solo_triageOrg (hs : s.Settled) (hunique : Unique liveKey s)
    (hb : Shows (s.committed ()) organizationId b) (i : ι) :
    ∃ counters s', (feedServer ι).solo i
        (triageOrg sha256 score settings organizationId collected now) s = (.ok counters, s')
      ∧ s'.Settled ∧ Unique liveKey s'
      ∧ Shows (s'.committed ()) organizationId
          (b.sweep (liveHashes sha256 score settings collected now))
      ∧ counters.created = ((liveHashes sha256 score settings collected now).filter fun e =>
          (b e).isNone).length
      ∧ (counters.superseded = 0
        ↔ ∀ e, b e = some .active → e ∈ liveHashes sha256 score settings collected now) := by
  have hview : s.view i () = s.committed () := funext fun n => Db.view_settled hs i () n
  obtain ⟨counters, s₁, hrun, h₁, hcounters⟩ := solo_attemptSync sha256 score settings collected now
    (⟨hs.quiet i, hunique, hview ▸ hb⟩ : Sees i organizationId b s)
  refine ⟨counters, s₁.commit i, ?_, fun t n => ?_, h₁.unique.commit, h₁.shows, hcounters⟩
  · refine Server.solo_tryCatch_of_ok _ _ ?_
    have hsweep := solo_runSweepForOrg sha256 score settings collected now hrun
    rw [Server.solo_bind_of_ok _ _ hsweep, solo_execute rfl]
    rfl
  · cases hd : (s₁.commit i).dirty t n with
    | none => rfl
    | some d =>
        obtain ⟨hne, hd'⟩ := Db.release_eq_some.mp hd
        exact absurd (h₁.quiet t n d.1 d.2 hd') hne

end Sweep

end Intelligence
