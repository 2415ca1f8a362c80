import AgencyOS.Intelligence.Board

/-!
When triage sweeps are idempotent.

A second sweep over unchanged sources finds nothing to do if it emits the hashes of the first one.
The queries of a sweep leave ties open (none of them orders by the id), and their `LIMIT`s and the
cap on signals cut their answers; a sweep can be repeated only if no cut falls within a tie.

* `SourceRow`, `Sources.rows`: the rows that a sweep may read, with their candidates;
* `collectCandidates_eq`, `take_collectCandidates`: the candidates collected, and those kept under
  the cap, as the candidates of the rows that the cuts let through;
* `mem_liveHashes_iff`: a row has its hash emitted exactly if the cuts let it through;
* `Feed`, `Reproducible`: the signals an organization starts from, and the condition on the ties;
* `ExactSweeps`, `exactSweeps_iff`: **what is promised of the sweeps holds exactly under that
  condition**; what a single sweep leaves, and that no two live signals have one hash in any run,
  hold in every state.
-/

namespace Intelligence

open Python Txn

/-! ### The rows of a sweep -/

/-- A row that a sweep reads. -/
inductive SourceRow where
  | recommendation (r : GrowthRecommendation)
  | insight (r : BusinessInsight)
  | analysis (r : GrowthAnalysis)
  | lead (r : Lead)
  deriving DecidableEq

namespace SourceRow

def sourceType : SourceRow → SignalSourceType
  | recommendation _ => .growthRecommendation
  | insight _ => .businessInsight
  | analysis _ => .growthAnalysis
  | lead _ => .pipelineFact

def id : SourceRow → UUID
  | recommendation r => r.id
  | insight r => r.id
  | analysis r => r.id
  | lead r => r.id

/-- The candidate that a row stands for, if it stands for one. -/
def candidate (now : ℤ) : SourceRow → Option SignalCandidate
  | recommendation r => some (normalizeRecommendation r)
  | insight r => some (normalizeInsight r)
  | analysis r => some (normalizeAnalysis r)
  | lead r => pipelineFact now r

/-- A candidate says which row it stands for. -/
lemma source_of_candidate {now : ℤ} {x : SourceRow} {c : SignalCandidate}
    (h : x.candidate now = some c) : c.sourceType = x.sourceType ∧ c.sourceRowId = some x.id := by
  cases x with
  | recommendation r =>
      obtain rfl := Option.some.inj h
      exact ⟨rfl, rfl⟩
  | insight r =>
      obtain rfl := Option.some.inj h
      exact ⟨rfl, rfl⟩
  | analysis r =>
      obtain rfl := Option.some.inj h
      exact ⟨rfl, rfl⟩
  | lead r =>
      simp only [candidate, pipelineFact] at h
      split_ifs at h <;>
      · obtain rfl := Option.some.inj h
        exact ⟨rfl, rfl⟩

/-- The rows of four lists, one after the other. -/
def ofLists (recommendations : List GrowthRecommendation) (insights : List BusinessInsight)
    (analyses : List GrowthAnalysis) (leads : List Lead) : List SourceRow :=
  recommendations.map recommendation ++ (insights.map insight ++ (analyses.map analysis
    ++ leads.map lead))

variable {recommendations : List GrowthRecommendation} {insights : List BusinessInsight}
  {analyses : List GrowthAnalysis} {leads : List Lead}

@[simp] lemma recommendation_mem_ofLists {r : GrowthRecommendation} :
    recommendation r ∈ ofLists recommendations insights analyses leads ↔ r ∈ recommendations := by
  simp [ofLists]

@[simp] lemma insight_mem_ofLists {r : BusinessInsight} :
    insight r ∈ ofLists recommendations insights analyses leads ↔ r ∈ insights := by
  simp [ofLists]

@[simp] lemma analysis_mem_ofLists {r : GrowthAnalysis} :
    analysis r ∈ ofLists recommendations insights analyses leads ↔ r ∈ analyses := by
  simp [ofLists]

@[simp] lemma lead_mem_ofLists {r : Lead} :
    lead r ∈ ofLists recommendations insights analyses leads ↔ r ∈ leads := by
  simp [ofLists]

lemma nodup_ofLists (h₁ : recommendations.Nodup) (h₂ : insights.Nodup) (h₃ : analyses.Nodup)
    (h₄ : leads.Nodup) : (ofLists recommendations insights analyses leads).Nodup := by
  have hmap : ∀ {α : Type} {l : List α} {f : α → SourceRow}, (∀ a b, f a = f b → a = b) →
      l.Nodup → (l.map f).Nodup := fun hf hl => hl.map fun a b => hf a b
  refine List.nodup_append.mpr ⟨hmap (fun a b h => by simpa using h) h₁,
    List.nodup_append.mpr ⟨hmap (fun a b h => by simpa using h) h₂,
      List.nodup_append.mpr ⟨hmap (fun a b h => by simpa using h) h₃,
        hmap (fun a b h => by simpa using h) h₄, ?_⟩, ?_⟩, ?_⟩ <;>
    simp only [List.mem_append, List.mem_map]
  · rintro _ ⟨r, -, rfl⟩ _ ⟨r', -, rfl⟩ h
    cases h
  · rintro _ ⟨r, -, rfl⟩ _ (⟨r', -, rfl⟩ | ⟨r', -, rfl⟩) h <;> cases h
  · rintro _ ⟨r, -, rfl⟩ _ (⟨r', -, rfl⟩ | ⟨r', -, rfl⟩ | ⟨r', -, rfl⟩) h <;> cases h

end SourceRow

open SourceRow

/-- The rows that the queries of a sweep match. -/
def Sources.rows (settings : Settings) (src : Sources) (organizationId : ℕ) (now : ℤ) :
    List SourceRow :=
  ofLists (activeRecommendations src organizationId) (activeInsights src organizationId)
    (completedAnalyses settings src organizationId now) (highValueLeads src organizationId)

section Rows

variable {settings : Settings} {src : Sources} {organizationId : ℕ} {now : ℤ}

/-- A row is the only one with its id and type. -/
lemma Sources.row_unique {x x' : SourceRow} (hx : x ∈ src.rows settings organizationId now)
    (hx' : x' ∈ src.rows settings organizationId now) (htype : x.sourceType = x'.sourceType)
    (hid : x.id = x'.id) : x = x' := by
  cases x with
  | recommendation r =>
      cases x' with
      | recommendation r' =>
          simp only [Sources.rows, recommendation_mem_ofLists] at hx hx'
          exact congrArg _ (List.inj_on_of_nodup_map src.recommendationIds
            (List.mem_of_mem_filter hx) (List.mem_of_mem_filter hx') hid)
      | _ => cases htype
  | insight r =>
      cases x' with
      | insight r' =>
          simp only [Sources.rows, insight_mem_ofLists] at hx hx'
          exact congrArg _ (List.inj_on_of_nodup_map src.insightIds
            (List.mem_of_mem_filter hx) (List.mem_of_mem_filter hx') hid)
      | _ => cases htype
  | analysis r =>
      cases x' with
      | analysis r' =>
          simp only [Sources.rows, analysis_mem_ofLists] at hx hx'
          exact congrArg _ (List.inj_on_of_nodup_map src.analysisIds
            (List.mem_of_mem_filter hx) (List.mem_of_mem_filter hx') hid)
      | _ => cases htype
  | lead r =>
      cases x' with
      | lead r' =>
          simp only [Sources.rows, lead_mem_ofLists] at hx hx'
          exact congrArg _ (List.inj_on_of_nodup_map src.leadIds
            (List.mem_of_mem_filter hx) (List.mem_of_mem_filter hx') hid)
      | _ => cases htype

lemma Sources.nodup_recommendations : (activeRecommendations src organizationId).Nodup :=
  (src.recommendationIds.of_map _).filter _

lemma Sources.nodup_insights : (activeInsights src organizationId).Nodup :=
  (src.insightIds.of_map _).filter _

lemma Sources.nodup_analyses : (completedAnalyses settings src organizationId now).Nodup :=
  (src.analysisIds.of_map _).filter _

lemma Sources.nodup_leads : (highValueLeads src organizationId).Nodup :=
  (src.leadIds.of_map _).filter _

/-! ### The rows that the cuts let through -/

/-- The room that is left under the cap for the insights. -/
def insightRoom (settings : Settings) (src : Sources) (organizationId : ℕ) : ℕ :=
  settings.maxSignalsPerOrg - (activeRecommendations src organizationId).length

/-- The room that is left under the cap for the analyses. -/
def analysisRoom (settings : Settings) (src : Sources) (organizationId : ℕ) : ℕ :=
  insightRoom settings src organizationId - (activeInsights src organizationId).length

/-- The room that is left under the cap for the leads. -/
def leadRoom (settings : Settings) (src : Sources) (organizationId : ℕ) (now : ℤ) : ℕ :=
  analysisRoom settings src organizationId
    - (completedAnalyses settings src organizationId now).length

/-- Whether one of the rules fits a lead. -/
def detected (now : ℤ) (lead : Lead) : Bool := (pipelineFact now lead).isSome

variable (orders : Orders settings src organizationId now)

/-- The rows within the `LIMIT`s. -/
def Orders.limited : List SourceRow :=
  ofLists (orders.recommendations.take settings.maxSignalsPerOrg)
    (orders.insights.take settings.maxSignalsPerOrg)
    (orders.analyses.take settings.maxSignalsPerOrg) (orders.leads.take pipelineLeadScanCap)

/-- The rows within the `LIMIT`s and the cap. -/
def Orders.kept : List SourceRow :=
  ofLists
    (cut settings.maxSignalsPerOrg (fun _ => true) settings.maxSignalsPerOrg orders.recommendations)
    (cut settings.maxSignalsPerOrg (fun _ => true) (insightRoom settings src organizationId)
      orders.insights)
    (cut settings.maxSignalsPerOrg (fun _ => true) (analysisRoom settings src organizationId)
      orders.analyses)
    (cut pipelineLeadScanCap (detected now) (leadRoom settings src organizationId now) orders.leads)

lemma filterMap_candidate_ofLists (recommendations : List GrowthRecommendation)
    (insights : List BusinessInsight) (analyses : List GrowthAnalysis) (leads : List Lead) :
    (ofLists recommendations insights analyses leads).filterMap (candidate now)
      = recommendations.map normalizeRecommendation ++ (insights.map normalizeInsight
        ++ (analyses.map normalizeAnalysis ++ leads.filterMap (pipelineFact now))) := by
  have hmap : ∀ {α : Type} (l : List α) (f : α → SourceRow) (g : α → SignalCandidate),
      (∀ a, candidate now (f a) = some (g a)) →
      (l.map f).filterMap (candidate now) = l.map g := by
    intro α l f g hfg
    rw [List.filterMap_map, ← List.filterMap_eq_map]
    exact List.filterMap_congr fun a _ => hfg a
  rw [ofLists, List.filterMap_append, List.filterMap_append, List.filterMap_append,
    hmap _ _ normalizeRecommendation fun _ => rfl, hmap _ _ normalizeInsight fun _ => rfl,
    hmap _ _ normalizeAnalysis fun _ => rfl, List.filterMap_map]
  rfl

/-- The candidates collected are those of the rows within the `LIMIT`s. -/
lemma collectCandidates_eq :
    collectCandidates orders = orders.limited.filterMap (candidate now) := by
  rw [Orders.limited, filterMap_candidate_ofLists]
  rfl

/-- The first results of a partial function are those of the first elements that have one. -/
lemma take_filterMap {α β : Type} (f : α → Option β) (l : List α) (n : ℕ) :
    (l.filterMap f).take n = ((l.filter fun a => (f a).isSome).take n).filterMap f := by
  induction l generalizing n with
  | nil => simp
  | cons a l ih =>
      cases hf : f a with
      | none => rw [List.filterMap_cons_none hf, List.filter_cons_of_neg (by simp [hf]), ih]
      | some b =>
          rw [List.filterMap_cons_some hf, List.filter_cons_of_pos (by simp [hf])]
          cases n with
          | zero => simp
          | succ n => rw [List.take_succ_cons, List.take_succ_cons, List.filterMap_cons_some hf, ih]

/-- The first candidates collected, up to the cap, are those of the rows within the cuts. -/
lemma take_collectCandidates :
    (collectCandidates orders).take settings.maxSignalsPerOrg
      = orders.kept.filterMap (candidate now) := by
  have hcut : ∀ {α : Type} (limit room : ℕ) (l : List α),
      cut limit (fun _ => true) room l = (l.take limit).take room := by
    intro α limit room l
    rw [cut, List.filter_true]
  have h₁ : (orders.recommendations.take settings.maxSignalsPerOrg).length
      = min settings.maxSignalsPerOrg (activeRecommendations src organizationId).length := by
    rw [List.length_take, orders.recommendationsOrdered.perm.length_eq]
  have h₂ : (orders.insights.take settings.maxSignalsPerOrg).length
      = min settings.maxSignalsPerOrg (activeInsights src organizationId).length := by
    rw [List.length_take, orders.insightsOrdered.perm.length_eq]
  have h₃ : (orders.analyses.take settings.maxSignalsPerOrg).length
      = min settings.maxSignalsPerOrg (completedAnalyses settings src organizationId now).length := by
    rw [List.length_take, orders.analysesOrdered.perm.length_eq]
  have hroom₂ : settings.maxSignalsPerOrg
        - min settings.maxSignalsPerOrg (activeRecommendations src organizationId).length
      = insightRoom settings src organizationId := by
    rw [insightRoom]
    omega
  have hroom₃ : insightRoom settings src organizationId
        - min settings.maxSignalsPerOrg (activeInsights src organizationId).length
      = analysisRoom settings src organizationId := by
    rw [analysisRoom, insightRoom]
    omega
  have hroom₄ : analysisRoom settings src organizationId - min settings.maxSignalsPerOrg
        (completedAnalyses settings src organizationId now).length
      = leadRoom settings src organizationId now := by
    rw [leadRoom, analysisRoom, insightRoom]
    omega
  rw [Orders.kept, filterMap_candidate_ofLists, collectCandidates, List.take_append,
    List.take_append, List.take_append, List.length_map, List.length_map, List.length_map,
    h₁, h₂, h₃, hroom₂, hroom₃, hroom₄, ← List.map_take, ← List.map_take, ← List.map_take,
    take_filterMap, hcut, hcut, hcut]
  rfl

lemma Orders.limited_subset : orders.limited ⊆ src.rows settings organizationId now := by
  intro x hx
  cases x with
  | recommendation r =>
      simp only [Orders.limited, recommendation_mem_ofLists] at hx
      exact recommendation_mem_ofLists.mpr
        (orders.recommendationsOrdered.perm.mem_iff.mp (List.mem_of_mem_take hx))
  | insight r =>
      simp only [Orders.limited, insight_mem_ofLists] at hx
      exact insight_mem_ofLists.mpr
        (orders.insightsOrdered.perm.mem_iff.mp (List.mem_of_mem_take hx))
  | analysis r =>
      simp only [Orders.limited, analysis_mem_ofLists] at hx
      exact analysis_mem_ofLists.mpr
        (orders.analysesOrdered.perm.mem_iff.mp (List.mem_of_mem_take hx))
  | lead r =>
      simp only [Orders.limited, lead_mem_ofLists] at hx
      exact lead_mem_ofLists.mpr
        (orders.leadsOrdered.perm.mem_iff.mp (List.mem_of_mem_take hx))

lemma Orders.kept_subset : orders.kept ⊆ src.rows settings organizationId now := by
  have hcut : ∀ {α : Type} {limit room : ℕ} {p : α → Bool} {l : List α} {a : α},
      a ∈ cut limit p room l → a ∈ l := fun h =>
    List.mem_of_mem_take (List.mem_of_mem_filter (List.mem_of_mem_take h))
  intro x hx
  cases x with
  | recommendation r =>
      simp only [Orders.kept, recommendation_mem_ofLists] at hx
      exact recommendation_mem_ofLists.mpr (orders.recommendationsOrdered.perm.mem_iff.mp (hcut hx))
  | insight r =>
      simp only [Orders.kept, insight_mem_ofLists] at hx
      exact insight_mem_ofLists.mpr (orders.insightsOrdered.perm.mem_iff.mp (hcut hx))
  | analysis r =>
      simp only [Orders.kept, analysis_mem_ofLists] at hx
      exact analysis_mem_ofLists.mpr (orders.analysesOrdered.perm.mem_iff.mp (hcut hx))
  | lead r =>
      simp only [Orders.kept, lead_mem_ofLists] at hx
      exact lead_mem_ofLists.mpr (orders.leadsOrdered.perm.mem_iff.mp (hcut hx))

lemma Orders.nodup_limited : orders.limited.Nodup := by
  have htake : ∀ {α : Type} {l rows : List α} (n : ℕ), l.Perm rows → rows.Nodup →
      (l.take n).Nodup := fun n hl hr => (List.take_sublist _ _).nodup (hl.nodup_iff.mpr hr)
  exact nodup_ofLists (htake _ orders.recommendationsOrdered.perm Sources.nodup_recommendations)
    (htake _ orders.insightsOrdered.perm Sources.nodup_insights)
    (htake _ orders.analysesOrdered.perm Sources.nodup_analyses)
    (htake _ orders.leadsOrdered.perm Sources.nodup_leads)

end Rows

/-! ### The hashes emitted -/

section Hashes

variable {sha256 : Text → Text} {score : SignalCandidate → ℤ → ℚ} {settings : Settings}
  {src : Sources} {organizationId : ℕ} {now : ℤ}

/-- No two of the texts that the rows may be hashed over have one digest. -/
def CollisionFree (sha256 : Text → Text) (settings : Settings) (src : Sources)
    (organizationId : ℕ) (now : ℤ) : Prop :=
  ∀ x ∈ src.rows settings organizationId now, ∀ x' ∈ src.rows settings organizationId now,
    ∀ c ∈ x.candidate now, ∀ c' ∈ x'.candidate now,
      sha256 c.hashedText = sha256 c'.hashedText → c.hashedText = c'.hashedText

/-- Distinct rows have distinct content hashes. -/
lemma row_of_contentHash (hsha : CollisionFree sha256 settings src organizationId now)
    {x x' : SourceRow} {c c' : SignalCandidate} (hx : x ∈ src.rows settings organizationId now)
    (hx' : x' ∈ src.rows settings organizationId now) (hc : x.candidate now = some c)
    (hc' : x'.candidate now = some c') (h : c.contentHash sha256 = c'.contentHash sha256) :
    x = x' := by
  have htext : c.hashedText = c'.hashedText := hsha x hx x' hx' c hc c' hc' h
  obtain ⟨htype, hid⟩ := source_of_candidate hc
  obtain ⟨htype', hid'⟩ := source_of_candidate hc'
  obtain ⟨hsame, hsameId⟩ := source_of_hashedText hid hid' htext
  exact Sources.row_unique hx hx' (htype.symm.trans (hsame.trans htype')) hsameId

/-- Candidates of distinct hashes are kept as they were collected. -/
lemma items_byHash {collected : List SignalCandidate}
    (hn : (collected.map (SignalCandidate.contentHash sha256)).Nodup) :
    (byHash sha256 collected).items.map Prod.snd = collected := by
  have hfold : ∀ (l : List SignalCandidate) (d : OrderedDict Text SignalCandidate),
      (d.items.map Prod.fst ++ l.map (SignalCandidate.contentHash sha256)).Nodup →
      (l.foldl (fun d c => d.update c id (c.contentHash sha256)) d).items.map Prod.snd
        = d.items.map Prod.snd ++ l := by
    intro l
    induction l with
    | nil => simp
    | cons c l ih =>
        intro d hd
        have hnew : c.contentHash sha256 ∉ d.items.map Prod.fst := by
          rw [List.map_cons, List.nodup_append] at hd
          exact fun hmem => hd.2.2 _ hmem _ List.mem_cons_self rfl
        have hitems : (d.update c id (c.contentHash sha256)).items
            = d.items ++ [(c.contentHash sha256, c)] := OrderedDict.upsert_of_notMem _ _ hnew
        rw [List.foldl_cons, ih _ (by simpa [hitems] using hd), hitems]
        simp
  exact hfold collected .empty (by simpa [OrderedDict.empty] using hn)

/-- The candidates of a sweep are those of the rows that the cuts let through. -/
lemma sweepCandidates_eq (hsha : CollisionFree sha256 settings src organizationId now)
    (orders : Orders settings src organizationId now) :
    sweepCandidates sha256 settings (collectCandidates orders)
      = orders.kept.filterMap (candidate now) := by
  have hn : ((collectCandidates orders).map (SignalCandidate.contentHash sha256)).Nodup := by
    rw [collectCandidates_eq, List.Nodup, List.pairwise_map, List.pairwise_filterMap]
    refine orders.nodup_limited.imp_of_mem fun {x x'} hx hx' hne c hc c' hc' h => hne ?_
    exact row_of_contentHash hsha (orders.limited_subset hx) (orders.limited_subset hx') hc hc' h
  rw [sweepCandidates, items_byHash hn, take_collectCandidates]

/-- **The hash of a row is emitted exactly if the cuts let the row through.** -/
theorem mem_liveHashes_iff (hsha : CollisionFree sha256 settings src organizationId now)
    (orders : Orders settings src organizationId now) {x : SourceRow} {c : SignalCandidate}
    (hx : x ∈ src.rows settings organizationId now) (hc : x.candidate now = some c) :
    c.contentHash sha256 ∈ liveHashes sha256 score settings (collectCandidates orders) now
      ↔ x ∈ orders.kept := by
  rw [mem_liveHashes, sweepCandidates_eq hsha]
  constructor
  · rintro ⟨c', hmem, hhash⟩
    obtain ⟨x', hx', hc'⟩ := List.mem_filterMap.mp hmem
    rwa [row_of_contentHash hsha hx (orders.kept_subset hx') hc hc' hhash.symm]
  · exact fun hkept => ⟨c, List.mem_filterMap.mpr ⟨x, hkept, hc⟩, rfl⟩

/-- What is emitted comes from a row that the cuts let through. -/
lemma exists_row_of_mem_liveHashes (hsha : CollisionFree sha256 settings src organizationId now)
    (orders : Orders settings src organizationId now) {e : Text}
    (he : e ∈ liveHashes sha256 score settings (collectCandidates orders) now) :
    ∃ x ∈ orders.kept, ∃ c, x.candidate now = some c ∧ c.contentHash sha256 = e := by
  obtain ⟨c, hmem, hhash⟩ := mem_liveHashes.mp he
  rw [sweepCandidates_eq hsha] at hmem
  obtain ⟨x, hx, hc⟩ := List.mem_filterMap.mp hmem
  exact ⟨x, hx, c, hc, hhash⟩

end Hashes

/-! ### The condition -/

/-- The signals from which an organization starts, under the partial unique index. -/
structure Feed where
  signals : ℕ → Option IntelligenceSignal
  fresh : ℕ
  alloc : ∀ n, fresh ≤ n → signals n = none
  unique : ∀ m n r r', signals m = some r → signals n = some r' → r.live = true →
    r'.live = true → r.organizationId = r'.organizationId → r.contentHash = r'.contentHash → m = n

namespace Feed

variable (feed : Feed)

/-- The store with these signals, and no transaction open. -/
def db {ι : Type} : FeedDb ι :=
  Db.init (fun _ => feed.signals) feed.fresh (Clock.still 0) fun _ => feed.alloc

/-- The founder has acknowledged or dismissed the signal of a hash. -/
def Held (organizationId : ℕ) (h : Text) : Prop :=
  ∃ n r, feed.signals n = some r ∧ r.organizationId = organizationId ∧ r.contentHash = h
    ∧ (r.status = .acknowledged ∨ r.status = .dismissed)

lemma settled {ι : Type} : (feed.db : FeedDb ι).Settled := fun _ _ => rfl

lemma unique_db {ι : Type} : Unique liveKey (feed.db : FeedDb ι) := by
  refine feed.settled.unique fun t m n r r' k hm hn hr hr' => ?_
  obtain ⟨hlive, horg, hh⟩ := liveKey_eq_some.mp hr
  obtain ⟨hlive', horg', hh'⟩ := liveKey_eq_some.mp hr'
  exact feed.unique m n r r' hm hn hlive hlive' (horg.trans horg'.symm) (hh.trans hh'.symm)

open Classical in
/-- The board that the signals show. -/
noncomputable def board (organizationId : ℕ) : Board Text := fun h =>
  if hm : ∃ m : Standing, ∃ n r, feed.signals n = some r ∧ r.organizationId = organizationId
      ∧ r.contentHash = h ∧ r.status = m.status then some hm.choose else none

lemma shows (organizationId : ℕ) : Shows feed.signals organizationId (feed.board organizationId) := by
  intro h m
  rw [board]
  constructor
  · intro hm
    split_ifs at hm with hex
    obtain rfl := Option.some.inj hm
    exact hex.choose_spec
  · rintro ⟨n, r, hn, horg, hh, hs⟩
    have hex : ∃ m : Standing, ∃ n r, feed.signals n = some r ∧ r.organizationId = organizationId
        ∧ r.contentHash = h ∧ r.status = m.status := ⟨m, n, r, hn, horg, hh, hs⟩
    rw [dif_pos hex]
    obtain ⟨n', r', hn', horg', hh', hs'⟩ := hex.choose_spec
    -- the index leaves one live signal of the hash, which stands in one way
    obtain rfl := feed.unique n n' r r' hn hn' (live_iff.mpr ⟨_, hs⟩) (live_iff.mpr ⟨_, hs'⟩)
      (horg.trans horg'.symm) (hh.trans hh'.symm)
    obtain rfl := Option.some.inj (hn.symm.trans hn')
    exact congrArg some (Standing.status_injective (hs'.symm.trans hs))

lemma held_board (organizationId : ℕ) (h : Text) :
    (feed.board organizationId).Held h ↔ feed.Held organizationId h := by
  rw [Board.Held, feed.shows organizationId h .acknowledged, feed.shows organizationId h .dismissed]
  constructor
  · rintro (⟨n, r, hn, horg, hh, hs⟩ | ⟨n, r, hn, horg, hh, hs⟩)
    · exact ⟨n, r, hn, horg, hh, Or.inl hs⟩
    · exact ⟨n, r, hn, horg, hh, Or.inr hs⟩
  · rintro ⟨n, r, hn, horg, hh, hs | hs⟩
    · exact Or.inl ⟨n, r, hn, horg, hh, hs⟩
    · exact Or.inr ⟨n, r, hn, horg, hh, hs⟩

end Feed

section Condition

variable (sha256 : Text → Text) (score : SignalCandidate → ℤ → ℚ) (settings : Settings)
  (src : Sources) (organizationId : ℕ) (now : ℤ) (feed : Feed)

/-- Whether the cut of its query treats a row the same in every order. -/
def SourceRow.Settled : SourceRow → Prop
  | recommendation r => Untied recommendationKey (activeRecommendations src organizationId)
      settings.maxSignalsPerOrg (fun _ => true) settings.maxSignalsPerOrg r
  | insight r => Untied insightKey (activeInsights src organizationId)
      settings.maxSignalsPerOrg (fun _ => true) (insightRoom settings src organizationId) r
  | analysis r => Untied analysisKey (completedAnalyses settings src organizationId now)
      settings.maxSignalsPerOrg (fun _ => true) (analysisRoom settings src organizationId) r
  | lead r => Untied leadKey (highValueLeads src organizationId)
      pipelineLeadScanCap (detected now) (leadRoom settings src organizationId now) r

instance (x : SourceRow) : Decidable (x.Settled settings src organizationId now) := by
  cases x <;> exact inferInstanceAs (Decidable (Untied ..))

/-- **The condition**: no cut falls within a tie, but for rows whose signals the founder holds. -/
def Reproducible : Prop :=
  ∀ x ∈ src.rows settings organizationId now, ∀ c ∈ x.candidate now,
    ¬ feed.Held organizationId (c.contentHash sha256) → x.Settled settings src organizationId now

/-- What is promised of the sweeps of an organization from one state of its feed. -/
structure ExactSweeps (ι : Type) [DecidableEq ι] : Prop where
  /-- A second sweep of the same sources at the same time creates and supersedes nothing. -/
  idempotent : ∀ (orders₁ orders₂ : Orders settings src organizationId now) (i j : ι)
    (counters₁ : Counters) (s₁ : FeedDb ι),
    (feedServer ι).solo i (triageOrg sha256 score settings organizationId
        (collectCandidates orders₁) now) feed.db = (.ok counters₁, s₁) →
    ∃ counters₂ s₂, (feedServer ι).solo j (triageOrg sha256 score settings organizationId
        (collectCandidates orders₂) now) s₁ = (.ok counters₂, s₂)
      ∧ counters₂.created = 0 ∧ counters₂.superseded = 0
  /-- A sweep leaves active signals only of the hashes it emitted, and one live signal of each. -/
  exact : ∀ (orders : Orders settings src organizationId now) (i : ι), ∃ counters s₁,
    (feedServer ι).solo i (triageOrg sha256 score settings organizationId
        (collectCandidates orders) now) feed.db = (.ok counters, s₁)
      ∧ (∀ n (r : IntelligenceSignal), s₁.committed () n = some r →
          r.organizationId = organizationId → r.status = .active →
          r.contentHash ∈ liveHashes sha256 score settings (collectCandidates orders) now)
      ∧ ∀ e ∈ liveHashes sha256 score settings (collectCandidates orders) now,
          ∃! n, ∃ r : IntelligenceSignal, s₁.committed () n = some r
            ∧ r.organizationId = organizationId ∧ r.contentHash = e ∧ r.live = true
  /-- However many requests run concurrently, no hash ever has two live signals. -/
  oneLive : ∀ (requests : ι → FeedRequest) (c : FeedPool ι Unit),
    Pool.Reach (feedServer ι)
      (.start (fun i => (requests i).program sha256 score settings) feed.db) c →
    ∀ m n (r r' : IntelligenceSignal), c.store.committed () m = some r →
      c.store.committed () n = some r' → r.live = true → r'.live = true →
      r.organizationId = r'.organizationId → r.contentHash = r'.contentHash → m = n

end Condition

/-! ### What holds in every state -/

section Exact

variable {ι : Type} [DecidableEq ι] (sha256 : Text → Text) (score : SignalCandidate → ℤ → ℚ)
  (settings : Settings) (src : Sources) (organizationId : ℕ) (now : ℤ) (feed : Feed)

lemma sweep_exact (collected : List SignalCandidate) (i : ι) : ∃ counters s₁,
    (feedServer ι).solo i (triageOrg sha256 score settings organizationId collected now) feed.db
        = (.ok counters, s₁)
      ∧ (∀ n (r : IntelligenceSignal), s₁.committed () n = some r →
          r.organizationId = organizationId → r.status = .active →
          r.contentHash ∈ liveHashes sha256 score settings collected now)
      ∧ ∀ e ∈ liveHashes sha256 score settings collected now,
          ∃! n, ∃ r : IntelligenceSignal, s₁.committed () n = some r
            ∧ r.organizationId = organizationId ∧ r.contentHash = e ∧ r.live = true := by
  obtain ⟨counters, s₁, hrun, -, hunique, hshows, -⟩ := solo_triageOrg sha256 score settings
    collected now feed.settled feed.unique_db (feed.shows organizationId) i
  refine ⟨counters, s₁, hrun, fun n r hn horg hs => ?_, fun e he => ?_⟩
  · have hactive := (hshows r.contentHash .active).mpr ⟨n, r, hn, horg, rfl, hs⟩
    exact (Board.sweep_eq_active_iff.mp hactive).1
  · obtain ⟨m, hm⟩ : ∃ m, (feed.board organizationId).sweep
        (liveHashes sha256 score settings collected now) e = some m := by
      rw [Board.sweep_eq, if_pos he]
      exact ⟨_, rfl⟩
    obtain ⟨n, r, hn, horg, hh, hs⟩ := (hshows e m).mp hm
    refine ⟨n, ⟨r, hn, horg, hh, live_iff.mpr ⟨m, hs⟩⟩, ?_⟩
    rintro n' ⟨r', hn', horg', hh', hlive'⟩
    exact hunique.committed () n' n r' r (organizationId, e) hn' hn
      (liveKey_eq_some.mpr ⟨hlive', horg', hh'⟩)
      (liveKey_eq_some.mpr ⟨live_iff.mpr ⟨m, hs⟩, horg, hh⟩)

lemma one_live (requests : ι → FeedRequest) {c : FeedPool ι Unit}
    (hc : Pool.Reach (feedServer ι)
      (.start (fun i => (requests i).program sha256 score settings) feed.db) c)
    {m n : ℕ} {r r' : IntelligenceSignal} (hm : c.store.committed () m = some r)
    (hn : c.store.committed () n = some r') (hlive : r.live = true) (hlive' : r'.live = true)
    (horg : r.organizationId = r'.organizationId) (hh : r.contentHash = r'.contentHash) : m = n :=
  (Pool.Reach.unique feed.unique_db hc).committed () m n r r' (r'.organizationId, r'.contentHash)
    hm hn (liveKey_eq_some.mpr ⟨hlive, horg, hh⟩) (liveKey_eq_some.mpr ⟨hlive', rfl, rfl⟩)

/-- A second sweep finds nothing to do exactly if it emits the hashes of the first one, up to those
that the founder holds. -/
lemma second_sweep_iff (collected₁ collected₂ : List SignalCandidate) (i j : ι) :
    (∀ (counters₁ : Counters) (s₁ : FeedDb ι),
      (feedServer ι).solo i (triageOrg sha256 score settings organizationId collected₁ now) feed.db
        = (.ok counters₁, s₁) →
      ∃ counters₂ s₂, (feedServer ι).solo j
          (triageOrg sha256 score settings organizationId collected₂ now) s₁ = (.ok counters₂, s₂)
        ∧ counters₂.created = 0 ∧ counters₂.superseded = 0)
      ↔ ∀ e, ¬ feed.Held organizationId e →
          (e ∈ liveHashes sha256 score settings collected₁ now
            ↔ e ∈ liveHashes sha256 score settings collected₂ now) := by
  obtain ⟨counters₁, s₁, hrun₁, hsettled, hunique, hshows, -⟩ := solo_triageOrg sha256 score
    settings collected₁ now feed.settled feed.unique_db (feed.shows organizationId) i
  obtain ⟨counters₂, s₂, hrun₂, -, -, -, hcreated, hsuperseded⟩ := solo_triageOrg sha256 score
    settings collected₂ now hsettled hunique hshows j
  have hboard := @Board.sweep_settles_iff Text _ (feed.board organizationId)
    (liveHashes sha256 score settings collected₁ now)
    (liveHashes sha256 score settings collected₂ now)
  simp only [feed.held_board] at hboard
  have hzero : counters₂.created = 0 ↔ ∀ e ∈ liveHashes sha256 score settings collected₂ now,
      (feed.board organizationId).sweep (liveHashes sha256 score settings collected₁ now) e
        ≠ none := by
    rw [hcreated, List.length_eq_zero_iff, List.filter_eq_nil_iff]
    simp
  rw [← hboard, ← hzero, ← hsuperseded]
  constructor
  · intro h
    obtain ⟨counters, s, hrun, hc, hs⟩ := h counters₁ s₁ hrun₁
    rw [hrun₂] at hrun
    obtain rfl := Except.ok.inj (Prod.mk.inj hrun).1
    exact ⟨hc, hs⟩
  · rintro ⟨hc, hs⟩ counters s hrun
    rw [hrun₁] at hrun
    obtain ⟨-, rfl⟩ := Prod.mk.inj hrun
    exact ⟨counters₂, s₂, hrun₂, hc, hs⟩

end Exact

/-! ### Orders and ties -/

section Ties

variable {sha256 : Text → Text} {score : SignalCandidate → ℤ → ℚ} {settings : Settings}
  {src : Sources} {organizationId : ℕ} {now : ℤ} {feed : Feed}

/-- Some orders in which the queries may be answered. -/
lemma exists_orders (settings : Settings) (src : Sources) (organizationId : ℕ) (now : ℤ) :
    Nonempty (Orders settings src organizationId now) := by
  obtain ⟨l₁, h₁⟩ := exists_orderedBy recommendationKey (activeRecommendations src organizationId)
  obtain ⟨l₂, h₂⟩ := exists_orderedBy insightKey (activeInsights src organizationId)
  obtain ⟨l₃, h₃⟩ := exists_orderedBy analysisKey
    (completedAnalyses settings src organizationId now)
  obtain ⟨l₄, h₄⟩ := exists_orderedBy leadKey (highValueLeads src organizationId)
  exact ⟨⟨l₁, l₂, l₃, l₄, h₁, h₂, h₃, h₄⟩⟩

/-- A row is settled exactly if any two orders let it through together. -/
lemma settled_iff {x : SourceRow} {c : SignalCandidate}
    (hx : x ∈ src.rows settings organizationId now) (hc : x.candidate now = some c) :
    x.Settled settings src organizationId now
      ↔ ∀ orders orders' : Orders settings src organizationId now,
          x ∈ orders.kept → x ∈ orders'.kept := by
  obtain ⟨o⟩ := exists_orders settings src organizationId now
  cases x with
  | recommendation r =>
      simp only [Sources.rows, recommendation_mem_ofLists] at hx
      simp only [Orders.kept, recommendation_mem_ofLists]
      refine (untied_iff Sources.nodup_recommendations hx rfl).trans ⟨fun h orders orders' =>
        h _ _ orders.recommendationsOrdered orders'.recommendationsOrdered, fun h l l' hl hl' => ?_⟩
      exact h { o with recommendations := l, recommendationsOrdered := hl }
        { o with recommendations := l', recommendationsOrdered := hl' }
  | insight r =>
      simp only [Sources.rows, insight_mem_ofLists] at hx
      simp only [Orders.kept, insight_mem_ofLists]
      refine (untied_iff Sources.nodup_insights hx rfl).trans ⟨fun h orders orders' =>
        h _ _ orders.insightsOrdered orders'.insightsOrdered, fun h l l' hl hl' => ?_⟩
      exact h { o with insights := l, insightsOrdered := hl }
        { o with insights := l', insightsOrdered := hl' }
  | analysis r =>
      simp only [Sources.rows, analysis_mem_ofLists] at hx
      simp only [Orders.kept, analysis_mem_ofLists]
      refine (untied_iff Sources.nodup_analyses hx rfl).trans ⟨fun h orders orders' =>
        h _ _ orders.analysesOrdered orders'.analysesOrdered, fun h l l' hl hl' => ?_⟩
      exact h { o with analyses := l, analysesOrdered := hl }
        { o with analyses := l', analysesOrdered := hl' }
  | lead r =>
      simp only [Sources.rows, lead_mem_ofLists] at hx
      simp only [Orders.kept, lead_mem_ofLists]
      have hdetected : detected now r = true := by
        change (pipelineFact now r).isSome = true
        rw [show pipelineFact now r = some c from hc, Option.isSome_some]
      refine (untied_iff Sources.nodup_leads hx hdetected).trans ⟨fun h orders orders' =>
        h _ _ orders.leadsOrdered orders'.leadsOrdered, fun h l l' hl hl' => ?_⟩
      exact h { o with leads := l, leadsOrdered := hl } { o with leads := l', leadsOrdered := hl' }

/-- The hashes emitted do not depend on the orders, up to those that the founder holds, exactly if
no cut falls within a tie. -/
lemma reproducible_iff (hsha : CollisionFree sha256 settings src organizationId now) :
    (∀ (orders₁ orders₂ : Orders settings src organizationId now) (e : Text),
      ¬ feed.Held organizationId e →
        (e ∈ liveHashes sha256 score settings (collectCandidates orders₁) now
          ↔ e ∈ liveHashes sha256 score settings (collectCandidates orders₂) now))
      ↔ Reproducible sha256 settings src organizationId now feed := by
  constructor
  · intro h x hx c hc hheld
    refine (settled_iff hx hc).mpr fun orders orders' hkept => ?_
    refine (mem_liveHashes_iff hsha orders' hx hc).mp ((h orders orders' _ hheld).mp ?_)
    exact (mem_liveHashes_iff hsha orders hx hc).mpr hkept
  · intro h
    have himp : ∀ (orders₁ orders₂ : Orders settings src organizationId now) (e : Text),
        ¬ feed.Held organizationId e →
        e ∈ liveHashes sha256 score settings (collectCandidates orders₁) now →
        e ∈ liveHashes sha256 score settings (collectCandidates orders₂) now := by
      intro orders₁ orders₂ e hheld he
      obtain ⟨x, hkept, c, hc, rfl⟩ := exists_row_of_mem_liveHashes hsha orders₁ he
      have hx := orders₁.kept_subset hkept
      refine (mem_liveHashes_iff hsha orders₂ hx hc).mpr ?_
      exact (settled_iff hx hc).mp (h x hx c hc hheld) orders₁ orders₂ hkept
    exact fun orders₁ orders₂ e hheld =>
      ⟨himp orders₁ orders₂ e hheld, himp orders₂ orders₁ e hheld⟩

/-- Sweeps are idempotent exactly if no cut falls within a tie. -/
lemma idempotent_iff {ι : Type} [DecidableEq ι] [Inhabited ι]
    (hsha : CollisionFree sha256 settings src organizationId now) :
    (∀ (orders₁ orders₂ : Orders settings src organizationId now) (i j : ι)
      (counters₁ : Counters) (s₁ : FeedDb ι),
      (feedServer ι).solo i (triageOrg sha256 score settings organizationId
          (collectCandidates orders₁) now) feed.db = (.ok counters₁, s₁) →
      ∃ counters₂ s₂, (feedServer ι).solo j (triageOrg sha256 score settings organizationId
          (collectCandidates orders₂) now) s₁ = (.ok counters₂, s₂)
        ∧ counters₂.created = 0 ∧ counters₂.superseded = 0)
      ↔ Reproducible sha256 settings src organizationId now feed := by
  rw [← @reproducible_iff sha256 score settings src organizationId now feed hsha]
  constructor
  · intro h orders₁ orders₂
    exact (second_sweep_iff sha256 score settings organizationId now feed _ _ default default).mp
      (h orders₁ orders₂ default default)
  · intro h orders₁ orders₂ i j
    exact (second_sweep_iff sha256 score settings organizationId now feed _ _ i j).mpr
      (h orders₁ orders₂)

/-- **Sweeps keep what is promised of them exactly if no cut falls within a tie.** -/
theorem exactSweeps_iff {ι : Type} [DecidableEq ι] [Inhabited ι]
    (hsha : CollisionFree sha256 settings src organizationId now) :
    ExactSweeps sha256 score settings src organizationId now feed ι
      ↔ Reproducible sha256 settings src organizationId now feed := by
  constructor
  · exact fun h => (idempotent_iff hsha).mp h.idempotent
  · intro h
    exact {
      idempotent := (idempotent_iff hsha).mpr h
      exact := fun orders i => sweep_exact sha256 score settings organizationId now feed
        (collectCandidates orders) i
      oneLive := fun requests c hc m n r r' hm hn hlive hlive' horg hh =>
        one_live sha256 score settings feed requests hc hm hn hlive hlive' horg hh }

end Ties

/-! ### Two recommendations of one batch -/

/-- A recommendation of a batch: the rows of a batch have one creation time. -/
def batchRow (id : UUID) : GrowthRecommendation where
  id := id
  organizationId := 1
  priority := .high
  status := .active
  title := "Call back".toList
  summary := "A lead waits.".toList
  createdAt := 0

/-- An organization with two recommendations of one batch. -/
def batch : Sources where
  recommendations := [batchRow ⟨1, by norm_num⟩, batchRow ⟨2, by norm_num⟩]
  insights := []
  analyses := []
  leads := []
  recommendationIds := by decide
  insightIds := .nil
  analysisIds := .nil
  leadIds := .nil

/-- SHA-256 on the two texts hashed. -/
def batchDigest (text : Text) : Text :=
  if text = (normalizeRecommendation (batchRow ⟨1, by norm_num⟩)).hashedText then
    "81c8db70e3b4925f9d676f0148bcb31bc5f1e7970fe086a05ab173d3d6e2e4a8".toList
  else if text = (normalizeRecommendation (batchRow ⟨2, by norm_num⟩)).hashedText then
    "4e88d0e7f1ba6291133ad6050a35f363ffd4c1c42a0873405524b9ea38af4488".toList
  else []

/-- A feed without signals. -/
def emptyFeed : Feed where
  signals := fun _ => none
  fresh := 0
  alloc := fun _ _ => rfl
  unique := fun m n r r' hm => by cases hm

lemma collisionFree_batch (settings : Settings) :
    CollisionFree batchDigest settings batch 1 0 := by
  have hrows : batch.rows settings 1 0 = [.recommendation (batchRow ⟨1, by norm_num⟩),
      .recommendation (batchRow ⟨2, by norm_num⟩)] := by rfl
  rw [CollisionFree, hrows]
  decide +kernel

/-- With room for both, the sweeps are exact. -/
theorem exactSweeps_batch :
    ExactSweeps batchDigest (fun _ _ => 0) ⟨500, 90⟩ batch 1 0 emptyFeed ℕ := by
  refine (exactSweeps_iff (collisionFree_batch _)).mpr fun x hx c hc hheld => ?_
  have hall : ∀ x ∈ batch.rows ⟨500, 90⟩ 1 0, x.Settled ⟨500, 90⟩ batch 1 0 := by decide +kernel
  exact hall x hx

/-- With room for one, the second sweep may take the other. -/
theorem not_exactSweeps_batch :
    ¬ ExactSweeps batchDigest (fun _ _ => 0) ⟨1, 90⟩ batch 1 0 emptyFeed ℕ := by
  intro h
  have hrep := (idempotent_iff (collisionFree_batch _)).mp h.idempotent
  have hsettled := hrep (.recommendation (batchRow ⟨1, by norm_num⟩)) List.mem_cons_self _ rfl
    (by rintro ⟨n, r, hn, -⟩; cases hn)
  exact absurd hsettled (by decide +kernel)

end Intelligence
