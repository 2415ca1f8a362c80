import AgencyOS.Intelligence.Reproducible
import AgencyOS.Intelligence.TriageScorer
import AgencyOS.Txn.Onward

/-!
Whether the cap keeps the candidates of the highest scores.

A sweep cuts the candidates at its cap in the order in which they were collected, and sorts by score
what is left.  What it keeps are the highest scores only if the order of collection agrees with them
at the cut; a signal whose source is cut off is superseded although nothing has changed about it.

* `Keeps`, `solo_superseded`: an active signal is superseded by a sweep exactly if its hash is not
  emitted;
* `KeepsTop`: what is promised of the cap;
* `Ranked`, `keepsTop_iff`: **the promise is kept exactly if nothing that is cut off outranks the
  first candidates collected**;
* `not_keepsTop_mixed`: a low recommendation that displaces a critical insight.
-/

namespace Intelligence

open Python Txn

/-! ### The signals that a sweep supersedes -/

/-- What the statements of a sweep do to a signal: it stays the signal of its organization and
hash, and an active one that is emitted stays active. -/
structure Keeps (organizationId : ℕ) (emitted : List Text) (r r' : IntelligenceSignal) : Prop where
  sameOrganization : r'.organizationId = r.organizationId
  sameHash : r'.contentHash = r.contentHash
  status : r'.status = r.status ∨ r'.status = .superseded ∧ r.status = .active
    ∧ r.organizationId = organizationId ∧ r.contentHash ∉ emitted

section Superseded

variable {organizationId : ℕ} {emitted : List Text}

lemma Keeps.refl (r : IntelligenceSignal) : Keeps organizationId emitted r r := ⟨rfl, rfl, Or.inl rfl⟩

lemma Keeps.trans {r r' r'' : IntelligenceSignal} (h : Keeps organizationId emitted r r')
    (h' : Keeps organizationId emitted r' r'') : Keeps organizationId emitted r r'' where
  sameOrganization := h'.sameOrganization.trans h.sameOrganization
  sameHash := h'.sameHash.trans h.sameHash
  status := by
    rcases h'.status with heq | ⟨hs'', hs', horg, hout⟩
    · rcases h.status with heq' | ⟨hs', hs, horg, hout⟩
      · exact Or.inl (heq.trans heq')
      · exact Or.inr ⟨heq.trans hs', hs, horg, hout⟩
    · rcases h.status with heq' | ⟨hs, -⟩
      · exact Or.inr ⟨hs'', heq'.symm.trans hs', h.sameOrganization ▸ horg, h.sameHash ▸ hout⟩
      · rw [hs'] at hs
        cases hs

/-- The statements of a sweep: refreshes, and bulk updates of what is stale. -/
def SweepStmt (organizationId : ℕ) (emitted : List Text) : Sql intelligence → Prop
  | .update (.setStatus ..) _ => False
  | .update (.supersede organizationId' emitted') _ =>
      organizationId' = organizationId ∧ emitted' = emitted
  | _ => True

lemma SweepStmt.advances {q : Sql intelligence} (hq : SweepStmt organizationId emitted q) :
    q.Advances (fun _ => Keeps organizationId emitted) := by
  cases q with
  | update u n =>
      cases u with
      | refresh candidate score now => exact fun r _ => ⟨rfl, rfl, Or.inl rfl⟩
      | setStatus organizationId' status => exact hq.elim
      | supersede organizationId' emitted' =>
          obtain ⟨rfl, rfl⟩ := hq
          intro r hstale
          have hstale' : r.stale organizationId' emitted' = true := hstale
          simp only [IntelligenceSignal.stale, Bool.and_eq_true, decide_eq_true_eq,
            Bool.not_eq_true', List.contains_eq_mem, decide_eq_false_iff_not] at hstale'
          exact ⟨rfl, rfl, Or.inr ⟨rfl, hstale'.1.2, hstale'.1.1, hstale'.2⟩⟩
  | _ => trivial

lemma issues_execute {φ : Sql intelligence → Prop} {q : Sql intelligence} (hq : φ q) :
    (execute q).Issues φ := by
  refine ⟨hq, fun answer => ?_⟩
  cases answer <;> trivial

variable (sha256 : Text → Text) (score : SignalCandidate → ℤ → ℚ) (settings : Settings)
  (collected : List SignalCandidate) (now : ℤ)

lemma issues_syncOnce (xs : List (SignalCandidate × ℚ)) :
    (syncOnce sha256 organizationId now xs).Issues (SweepStmt organizationId emitted) := by
  induction xs with
  | nil => trivial
  | cons x xs ih =>
      have hget : (getLiveByHash organizationId (x.1.contentHash sha256)).Issues
          (SweepStmt organizationId emitted) := by
        refine Prog.issues_bind (issues_execute trivial) fun rows => ?_
        rcases rows with _ | ⟨row, _ | ⟨row', rest⟩⟩ <;> trivial
      have hwrite : ∀ found, (writeSignal sha256 organizationId now x found).Issues
          (SweepStmt organizationId emitted) := by
        intro found
        cases found with
        | none => exact Prog.issues_bind (issues_execute trivial) fun _ => trivial
        | some n => exact Prog.issues_bind (issues_execute trivial) fun _ => trivial
      exact Prog.issues_bind (Prog.issues_bind hget hwrite) fun _ =>
        Prog.issues_bind ih fun _ => trivial

lemma issues_supersedeStale : (supersedeStale organizationId emitted).Issues
    (SweepStmt organizationId emitted) := by
  refine Prog.issues_bind (issues_execute trivial) fun rows => ?_
  refine Prog.issues_tally (fun row => ?_) rows
  exact Prog.issues_bind (issues_execute ⟨rfl, rfl⟩) fun _ => Prog.issues_ret _

/-- A sweep puts only such statements. -/
lemma issues_triageOrg : (triageOrg sha256 score settings organizationId collected now).Issues
    (SweepStmt organizationId (liveHashes sha256 score settings collected now)) := by
  have hattempt : (attemptSync sha256 score settings organizationId collected now).Issues
      (SweepStmt organizationId (liveHashes sha256 score settings collected now)) :=
    Prog.issues_bind (issues_syncOnce _ _ _) fun _ =>
      Prog.issues_bind issues_supersedeStale fun _ => trivial
  have hrun : (runSweepForOrg sha256 score settings organizationId collected now).Issues
      (SweepStmt organizationId (liveHashes sha256 score settings collected now)) := by
    refine Prog.issues_tryCatch hattempt fun e => ?_
    cases e with
    | integrityError =>
        refine Prog.issues_bind (issues_execute trivial) fun _ =>
          Prog.issues_tryCatch hattempt fun e => ?_
        cases e with
        | integrityError => exact Prog.issues_bind (issues_execute trivial) fun _ => trivial
        | _ => trivial
    | _ => trivial
  exact Prog.issues_tryCatch (Prog.issues_bind hrun fun _ =>
    Prog.issues_bind (issues_execute trivial) fun _ => trivial) fun _ =>
      Prog.issues_bind (issues_execute trivial) fun _ => trivial

/-- **An active signal is superseded by a sweep exactly if its hash is not emitted.** -/
theorem solo_superseded {ι : Type} [DecidableEq ι] (organizationId : ℕ) (feed : Feed) (i : ι) :
    ∃ counters s₁, (feedServer ι).solo i
        (triageOrg sha256 score settings organizationId collected now) feed.db = (.ok counters, s₁)
      ∧ ∀ n (r : IntelligenceSignal), feed.signals n = some r → r.organizationId = organizationId →
          r.status = .active → ∃ r' : IntelligenceSignal, s₁.committed () n = some r'
            ∧ (r'.status = .superseded
              ↔ r.contentHash ∉ liveHashes sha256 score settings collected now) := by
  obtain ⟨counters, s₁, hrun, hactive, -⟩ :=
    sweep_exact sha256 score settings organizationId now feed collected i
  have honward : Onward (fun _ => Keeps organizationId
      (liveHashes sha256 score settings collected now)) feed.db s₁ := by
    have h : Onward (fun _ => Keeps organizationId
        (liveHashes sha256 score settings collected now)) (feed.db : FeedDb ι)
        ((indexedServer liveKey ι).solo i
          (triageOrg sha256 score settings organizationId collected now) feed.db).2 := by
      refine Server.solo_onward ?_ ?_ feed.settled i ?_
      · exact fun _ => Keeps.refl
      · exact fun _ _ _ _ => Keeps.trans
      · exact Prog.issues_mono (issues_triageOrg sha256 score settings collected now)
          fun _ => SweepStmt.advances
    rwa [show (indexedServer liveKey ι).solo i _ (feed.db : FeedDb ι) = _ from hrun] at h
  refine ⟨counters, s₁, hrun, fun n r hn horg hs => ?_⟩
  obtain ⟨r', hn', hkeeps⟩ := honward.committed () n r hn
  refine ⟨r', hn', ?_, fun hout => ?_⟩
  · intro hs'
    rcases hkeeps.status with heq | ⟨-, -, -, hout⟩
    · rw [hs'] at heq
      rw [hs] at heq
      cases heq
    · exact hout
  · rcases hkeeps.status with heq | ⟨hs', -⟩
    · refine absurd ?_ hout
      rw [← hkeeps.sameHash]
      exact hactive n r' hn' (hkeeps.sameOrganization.trans horg) (heq.trans hs)
    · exact hs'

end Superseded

/-! ### What is promised of the cap -/

section Cap

variable (sha256 : Text → Text) (score : SignalCandidate → ℤ → ℚ) {settings : Settings}
  {src : Sources} {organizationId : ℕ} {now : ℤ}
  (orders : Orders settings src organizationId now)

/-- The candidates that a sweep keeps, and those signals that it supersedes although their source
still stands for them. -/
structure KeepsTop (ι : Type) [DecidableEq ι] : Prop where
  /-- A candidate is dropped only if the cap is filled, and none that is kept scores less. -/
  top : ∀ d ∈ collectCandidates orders,
    d ∉ sweepCandidates sha256 settings (collectCandidates orders) →
    (sweepCandidates sha256 settings (collectCandidates orders)).length = settings.maxSignalsPerOrg
      ∧ ∀ k ∈ sweepCandidates sha256 settings (collectCandidates orders), score d now ≤ score k now
  /-- From every feed, an active signal whose source row still stands for it is superseded only in
  favour of as many candidates as the cap allows, of equal or higher score. -/
  superseded : ∀ (feed : Feed) (i : ι) (counters : Counters) (s₁ : FeedDb ι),
    (feedServer ι).solo i (triageOrg sha256 score settings organizationId
        (collectCandidates orders) now) feed.db = (.ok counters, s₁) →
    ∀ n (r r' : IntelligenceSignal), feed.signals n = some r → r.organizationId = organizationId →
      r.status = .active → s₁.committed () n = some r' → r'.status = .superseded →
      ∀ x ∈ src.rows settings organizationId now, ∀ c ∈ x.candidate now,
        c.contentHash sha256 = r.contentHash →
        settings.maxSignalsPerOrg
          ≤ ((sweepCandidates sha256 settings (collectCandidates orders)).filter fun k =>
              score c now ≤ score k now).length

/-- **The condition**: a candidate of a row that is not among the first `cap` collected, because of
the cap or of the `LIMIT` of a query, finds that many collected, and scores no higher than the first
of them. -/
def Ranked : Prop :=
  ∀ x ∈ src.rows settings organizationId now, ∀ c ∈ x.candidate now,
    c ∉ (collectCandidates orders).take settings.maxSignalsPerOrg →
    settings.maxSignalsPerOrg ≤ (collectCandidates orders).length
      ∧ ∀ k ∈ (collectCandidates orders).take settings.maxSignalsPerOrg, score c now ≤ score k now

instance : Decidable (Ranked score orders) := by
  unfold Ranked
  infer_instance

variable {sha256 score orders}

/-- What is kept is the beginning of what is collected. -/
lemma sweepCandidates_eq_take (hsha : CollisionFree sha256 settings src organizationId now) :
    sweepCandidates sha256 settings (collectCandidates orders)
      = (collectCandidates orders).take settings.maxSignalsPerOrg := by
  rw [sweepCandidates_eq hsha, take_collectCandidates]

/-- What is collected comes from a row of the sources. -/
lemma exists_row_of_mem_collectCandidates {c : SignalCandidate} (hc : c ∈ collectCandidates orders) :
    ∃ x ∈ src.rows settings organizationId now, x.candidate now = some c := by
  rw [collectCandidates_eq, List.mem_filterMap] at hc
  obtain ⟨x, hx, hxc⟩ := hc
  exact ⟨x, orders.limited_subset hx, hxc⟩

/-- The hash of a row is emitted exactly if its candidate is among the first collected. -/
lemma contentHash_mem_liveHashes_iff (hsha : CollisionFree sha256 settings src organizationId now)
    {x : SourceRow} {c : SignalCandidate} (hx : x ∈ src.rows settings organizationId now)
    (hc : x.candidate now = some c) :
    c.contentHash sha256 ∈ liveHashes sha256 score settings (collectCandidates orders) now
      ↔ c ∈ (collectCandidates orders).take settings.maxSignalsPerOrg := by
  rw [mem_liveHashes, sweepCandidates_eq_take hsha]
  constructor
  · rintro ⟨k, hk, hhash⟩
    obtain ⟨y, hy, hyk⟩ := exists_row_of_mem_collectCandidates (List.mem_of_mem_take hk)
    obtain rfl := row_of_contentHash hsha hx hy hc hyk hhash.symm
    obtain rfl := Option.some.inj (hc.symm.trans hyk)
    exact hk
  · exact fun hk => ⟨c, hk, rfl⟩

/-- A list within a bound that fills it with elements passing a test has no others. -/
lemma filter_fills {α : Type} {l : List α} {n : ℕ} (p : α → Bool) (hl : l.length ≤ n) :
    n ≤ (l.filter p).length ↔ l.length = n ∧ ∀ a ∈ l, p a = true := by
  have hle := List.length_filter_le p l
  rw [← List.length_filter_eq_length_iff]
  omega

/-- The first candidates, counted as in the promise. -/
lemma fills_iff (c : SignalCandidate) :
    settings.maxSignalsPerOrg ≤ (((collectCandidates orders).take settings.maxSignalsPerOrg).filter
        fun k => score c now ≤ score k now).length
      ↔ settings.maxSignalsPerOrg ≤ (collectCandidates orders).length
        ∧ ∀ k ∈ (collectCandidates orders).take settings.maxSignalsPerOrg,
            score c now ≤ score k now := by
  rw [filter_fills _ (List.length_take_le _ _), List.length_take]
  simp only [decide_eq_true_eq]
  refine and_congr_left' ?_
  omega

lemma single_alloc (signal : IntelligenceSignal) (n : ℕ) (hn : 1 ≤ n) :
    (if n = 0 then some signal else none) = none := if_neg (by omega)

lemma single_unique (signal : IntelligenceSignal) (m n : ℕ) (r r' : IntelligenceSignal)
    (hm : (if m = 0 then some signal else none) = some r)
    (hn : (if n = 0 then some signal else none) = some r') (_ : r.live = true) (_ : r'.live = true)
    (_ : r.organizationId = r'.organizationId) (_ : r.contentHash = r'.contentHash) : m = n := by
  have h₀ : ∀ k (q : IntelligenceSignal), (if k = 0 then some signal else none) = some q → k = 0 := by
    intro k q hk
    by_contra hne
    rw [if_neg hne] at hk
    cases hk
  rw [h₀ m r hm, h₀ n r' hn]

/-- A feed with one signal. -/
def Feed.single (signal : IntelligenceSignal) : Feed where
  signals := fun n => if n = 0 then some signal else none
  fresh := 1
  alloc := single_alloc signal
  unique := single_unique signal

/-- A feed with one active signal, that of the candidate. -/
def feedOf (sha256 : Text → Text) (organizationId : ℕ) (c : SignalCandidate) : Feed :=
  .single (newSignal sha256 organizationId c 0 0)

lemma ranked_of_keepsTop {ι : Type} [DecidableEq ι] [Inhabited ι]
    (hsha : CollisionFree sha256 settings src organizationId now)
    (h : KeepsTop sha256 score orders ι) : Ranked score orders := by
  intro x hx c hc hout
  have hxc : x.candidate now = some c := hc
  obtain ⟨counters, s₁, hrun, hsuperseded⟩ := solo_superseded sha256 score settings
    (collectCandidates orders) now organizationId (feedOf sha256 organizationId c) (default : ι)
  obtain ⟨r', hn', hiff⟩ := hsuperseded 0 _ rfl rfl rfl
  have hstale : c.contentHash sha256
      ∉ liveHashes sha256 score settings (collectCandidates orders) now := fun hlive =>
    hout ((contentHash_mem_liveHashes_iff hsha hx hxc).mp hlive)
  have hfills := h.superseded (feedOf sha256 organizationId c) default counters s₁ hrun 0 _ r' rfl
    rfl rfl hn' (hiff.mpr hstale) x hx c hc rfl
  rw [sweepCandidates_eq_take hsha] at hfills
  exact (fills_iff c).mp hfills

lemma keepsTop_of_ranked {ι : Type} [DecidableEq ι]
    (hsha : CollisionFree sha256 settings src organizationId now) (h : Ranked score orders) :
    KeepsTop sha256 score orders ι where
  top := by
    rw [sweepCandidates_eq_take hsha]
    intro d hd hout
    obtain ⟨x, hx, hxd⟩ := exists_row_of_mem_collectCandidates hd
    obtain ⟨hfull, hscores⟩ := h x hx d hxd hout
    exact ⟨by rw [List.length_take]; omega, hscores⟩
  superseded := by
    intro feed i counters s₁ hrun n r r' hn horg hs hn' hs' x hx c hc hhash
    obtain ⟨counters', s₁', hrun', hsuperseded⟩ := solo_superseded sha256 score settings
      (collectCandidates orders) now organizationId feed i
    rw [hrun] at hrun'
    obtain ⟨-, rfl⟩ := Prod.mk.inj hrun'
    obtain ⟨r'', hn'', hiff⟩ := hsuperseded n r hn horg hs
    obtain rfl := Option.some.inj (hn'.symm.trans hn'')
    have hstale := hiff.mp hs'
    rw [← hhash, contentHash_mem_liveHashes_iff hsha hx hc] at hstale
    rw [sweepCandidates_eq_take hsha]
    exact (fills_iff c).mpr (h x hx c hc hstale)

/-- **The cap keeps the highest scores exactly if nothing that is cut off outranks the first
candidates collected.** -/
theorem keepsTop_iff {ι : Type} [DecidableEq ι] [Inhabited ι]
    (hsha : CollisionFree sha256 settings src organizationId now) :
    KeepsTop sha256 score orders ι ↔ Ranked score orders :=
  ⟨ranked_of_keepsTop hsha, keepsTop_of_ranked hsha⟩

end Cap

/-! ### A low recommendation and a critical insight -/

lemma one_lt_ids : 1 < 2 ^ 128 := by norm_num

lemma two_lt_ids : 2 < 2 ^ 128 := by norm_num

lemma nodup_ids_nil {ρ κ : Type} (id : ρ → κ) : (([] : List ρ).map id).Nodup := .nil

def tidyUp : GrowthRecommendation where
  id := ⟨1, one_lt_ids⟩
  organizationId := 1
  priority := .low
  status := .active
  title := "Tidy up".toList
  summary := "Two leads have no owner.".toList
  createdAt := 0

def revenueAtRisk : BusinessInsight where
  id := ⟨2, two_lt_ids⟩
  organizationId := 1
  status := .active
  title := "Revenue at risk".toList
  summary := "The largest deal is quiet.".toList
  createdAt := 0

lemma nodup_tidyUp : ([tidyUp].map GrowthRecommendation.id).Nodup := by decide

lemma nodup_revenueAtRisk : ([revenueAtRisk].map BusinessInsight.id).Nodup := by decide

/-- An organization with a recommendation and an insight. -/
def mixed : Sources where
  recommendations := [tidyUp]
  insights := [revenueAtRisk]
  analyses := []
  leads := []
  recommendationIds := nodup_tidyUp
  insightIds := nodup_revenueAtRisk
  analysisIds := nodup_ids_nil GrowthAnalysis.id
  leadIds := nodup_ids_nil Lead.id

/-- The one order in which they are answered. -/
def mixedOrders (settings : Settings) : Orders settings mixed 1 0 where
  recommendations := [tidyUp]
  insights := [revenueAtRisk]
  analyses := []
  leads := []
  recommendationsOrdered := ⟨.refl _, List.pairwise_singleton _ _⟩
  insightsOrdered := ⟨.refl _, List.pairwise_singleton _ _⟩
  analysesOrdered := ⟨.refl _, .nil⟩
  leadsOrdered := ⟨.refl _, .nil⟩

/-- SHA-256 on the two texts hashed. -/
def mixedDigest (text : Text) : Text :=
  if text = (normalizeRecommendation tidyUp).hashedText then
    "1646b883bc4c94b72f23b1f9978a68892a8bf788d8f8d719e589833792f84649".toList
  else if text = (normalizeInsight revenueAtRisk).hashedText then
    "3efeaa5393bd7b3dbebac5da31483764d686d56e8b68b30b816f42b99176a6a2".toList
  else []

/-- What is scored of the two: a recommendation of low priority and confidence with a next step, and
a critical insight, neither of them with a figure. -/
def mixedFields (c : SignalCandidate) : ScoredFields :=
  if c.sourceType = .growthRecommendation then
    { severity := .low, confidence := .low, businessImpact := ⟨none, none⟩,
      recommendedNextStep := some "Assign owners".toList, urgency := some (3 / 10),
      sourceSeenAt := 0 }
  else
    { severity := .critical, confidence := .high, businessImpact := ⟨none, none⟩,
      recommendedNextStep := none, urgency := some (8 / 10), sourceSeenAt := 0 }

/-- The scorer of the code on the two candidates. -/
def mixedScore (c : SignalCandidate) (now : ℤ) : ℚ := TriageScorer.score (mixedFields c) now

lemma collisionFree_mixed (settings : Settings) : CollisionFree mixedDigest settings mixed 1 0 := by
  have hrows : mixed.rows settings 1 0
      = [.recommendation tidyUp, .insight revenueAtRisk] := by rfl
  rw [CollisionFree, hrows]
  decide +kernel

/-- With room for both, the cap keeps the highest scores. -/
theorem keepsTop_mixed : KeepsTop mixedDigest mixedScore (mixedOrders ⟨500, 90⟩) ℕ :=
  (keepsTop_iff (collisionFree_mixed _)).mpr (by decide +kernel)

/-- With room for one, the critical insight is dropped for the low recommendation. -/
theorem not_keepsTop_mixed : ¬ KeepsTop mixedDigest mixedScore (mixedOrders ⟨1, 90⟩) ℕ := fun h =>
  absurd (ranked_of_keepsTop (collisionFree_mixed _) h) (by decide +kernel)

end Intelligence
