import AgencyOS.Leads.Model
import AgencyOS.Python.Format
import AgencyOS.Python.Text
import AgencyOS.Txn.OrderBy
import AgencyOS.Txn.UniqueIndex

/-!
The sources and the signals of the founder intelligence feed.

A triage sweep reads the growth recommendations, business insights, growth analyses and high-value
leads of an organization, and writes its signals.  Times are in microseconds, amounts in cents.
The fields that are shown to the founder and decide nothing are left out: category, severity,
confidence, evidence, impact, urgency and next step.

* `GrowthRecommendation`, `BusinessInsight`, `GrowthAnalysis`, `Lead`, `Sources`: the rows read;
* `SignalCandidate`, `computeContentHash`, `normalizeRecommendation` and the other normalizers: the
  signal that a row stands for;
* `IntelligenceSignal`, `intelligence`, `liveKey`: the signals, the statements put to them, and the
  partial unique index on the content hashes of the live ones;
* `source_of_hashedText`: the text that is hashed determines the source row.
-/

namespace Intelligence

open Python Txn

abbrev Text := List Char

/-! ### The rows read -/

inductive RecommendationPriority where
  | high | medium | low
  deriving DecidableEq, Repr

/-- The place in the enum of the database, by which rows are ordered. -/
def RecommendationPriority.rank : RecommendationPriority → ℕ
  | high => 0
  | medium => 1
  | low => 2

inductive RecommendationStatus where
  | active | acknowledged | applied | dismissed
  deriving DecidableEq, Repr

def RecommendationStatus.rank : RecommendationStatus → ℕ
  | active => 0
  | acknowledged => 1
  | applied => 2
  | dismissed => 3

inductive InsightStatus where
  | active | acknowledged | dismissed
  deriving DecidableEq, Repr

inductive GrowthAnalysisStatus where
  | completed | failed
  deriving DecidableEq, Repr

inductive GrowthAnalysisType where
  | health | kpis | pipeline | funnel | conversion | revenue | activity | bottlenecks
  | opportunities | trends
  deriving DecidableEq, Repr

def GrowthAnalysisType.value : GrowthAnalysisType → Text
  | health => "health".toList
  | kpis => "kpis".toList
  | pipeline => "pipeline".toList
  | funnel => "funnel".toList
  | conversion => "conversion".toList
  | revenue => "revenue".toList
  | activity => "activity".toList
  | bottlenecks => "bottlenecks".toList
  | opportunities => "opportunities".toList
  | trends => "trends".toList

structure GrowthRecommendation where
  id : UUID
  organizationId : ℕ
  priority : RecommendationPriority
  status : RecommendationStatus
  title : Text
  summary : Text
  createdAt : ℤ
  deriving DecidableEq

structure BusinessInsight where
  id : UUID
  organizationId : ℕ
  status : InsightStatus
  title : Text
  summary : Text
  createdAt : ℤ
  deriving DecidableEq

structure GrowthAnalysis where
  id : UUID
  organizationId : ℕ
  analysisType : GrowthAnalysisType
  status : GrowthAnalysisStatus
  summary : Text
  periodStart : ℤ
  createdAt : ℤ
  deriving DecidableEq

structure Lead where
  id : UUID
  organizationId : ℕ
  status : Leads.LeadStatus
  deletedAt : Option ℤ
  dealValue : Option ℕ
  company : Option Text
  email : Option Text
  updatedAt : ℤ
  deriving DecidableEq

/-- The tables that a sweep reads, each with its primary key. -/
structure Sources where
  recommendations : List GrowthRecommendation
  insights : List BusinessInsight
  analyses : List GrowthAnalysis
  leads : List Lead
  recommendationIds : (recommendations.map GrowthRecommendation.id).Nodup
  insightIds : (insights.map BusinessInsight.id).Nodup
  analysisIds : (analyses.map GrowthAnalysis.id).Nodup
  leadIds : (leads.map Lead.id).Nodup

/-- The settings of the triage. -/
structure Settings where
  maxSignalsPerOrg : ℕ
  windowDays : ℕ
  deriving DecidableEq, Repr

/-! ### Signal candidates -/

inductive SignalSourceType where
  | growthRecommendation | businessInsight | growthAnalysis | pipelineFact | briefing
  deriving DecidableEq, Repr

def SignalSourceType.value : SignalSourceType → Text
  | growthRecommendation => "growth_recommendation".toList
  | businessInsight => "business_insight".toList
  | growthAnalysis => "growth_analysis".toList
  | pipelineFact => "pipeline_fact".toList
  | briefing => "briefing".toList

/-- A normalized signal unit, before scoring. -/
structure SignalCandidate where
  organizationId : ℕ
  sourceType : SignalSourceType
  sourceRowId : Option UUID
  title : Text
  summary : Text
  deriving DecidableEq

/-- What an f-string makes of the id of a source row. -/
def rowIdText : Option UUID → Text
  | some id => id.str
  | none => "None".toList

/-- The text over which the content hash is computed. -/
def hashedText (sourceType : SignalSourceType) (sourceRowId : Option UUID) (title summary : Text) :
    Text :=
  sourceType.value ++ '|' :: (rowIdText sourceRowId ++ '|' :: (strip title ++ '|' :: strip summary))

def SignalCandidate.hashedText (c : SignalCandidate) : Text :=
  Intelligence.hashedText c.sourceType c.sourceRowId c.title c.summary

variable (sha256 : Text → Text)

/-- The dedup key: `sha256(..).hexdigest()`, of the text in UTF-8. -/
def computeContentHash (sourceType : SignalSourceType) (sourceRowId : Option UUID)
    (title summary : Text) : Text :=
  sha256 (hashedText sourceType sourceRowId title summary)

def SignalCandidate.contentHash (c : SignalCandidate) : Text :=
  computeContentHash sha256 c.sourceType c.sourceRowId c.title c.summary

def normalizeRecommendation (recommendation : GrowthRecommendation) : SignalCandidate where
  organizationId := recommendation.organizationId
  sourceType := .growthRecommendation
  sourceRowId := some recommendation.id
  title := recommendation.title
  summary := recommendation.summary

def normalizeInsight (insight : BusinessInsight) : SignalCandidate where
  organizationId := insight.organizationId
  sourceType := .businessInsight
  sourceRowId := some insight.id
  title := insight.title
  summary := insight.summary

def normalizeAnalysis (analysis : GrowthAnalysis) : SignalCandidate where
  organizationId := analysis.organizationId
  sourceType := .growthAnalysis
  sourceRowId := some analysis.id
  title := "Growth analysis: ".toList ++ analysis.analysisType.value
  summary := analysis.summary

/-- `a or b`, of texts that may be absent: an empty one counts as absent. -/
def orElse : Option Text → Text → Text
  | some (c :: cs), _ => c :: cs
  | _, other => other

inductive PipelineRule where
  | stuckHighValue | freshHighValueProposal
  deriving DecidableEq, Repr

def pipelineStuckDays : ℕ := 7

def pipelineFreshDays : ℕ := 7

def normalizePipelineFact (lead : Lead) (rule : PipelineRule) : SignalCandidate where
  organizationId := lead.organizationId
  sourceType := .pipelineFact
  sourceRowId := some lead.id
  title :=
    let name := orElse lead.company (orElse lead.email lead.id.str)
    match rule with
    | .stuckHighValue => "High-value deal stuck: ".toList ++ name
    | .freshHighValueProposal => "High-value proposal in flight: ".toList ++ name
  summary :=
    let value := thousands (lead.dealValue.getD 0)
    match rule with
    | .stuckHighValue => orElse lead.company "This deal".toList ++ " (value $".toList ++ value
        ++ ") has not moved in ".toList ++ Nat.toDigits 10 pipelineStuckDays
        ++ "+ days. Review next steps to avoid slippage.".toList
    | .freshHighValueProposal => orElse lead.company "A deal".toList ++ " (value $".toList ++ value
        ++ ") has a proposal sent recently. Follow up to keep momentum.".toList

/-! ### Signals -/

inductive IntelligenceSignalStatus where
  | active | acknowledged | dismissed | superseded
  deriving DecidableEq, Repr

structure IntelligenceSignal where
  organizationId : ℕ
  sourceType : SignalSourceType
  sourceRowId : Option UUID
  title : Text
  summary : Text
  priorityScore : ℚ
  status : IntelligenceSignalStatus
  contentHash : Text
  lastTriagedAt : ℤ
  deriving DecidableEq

/-- A signal that is not superseded. -/
def IntelligenceSignal.live (r : IntelligenceSignal) : Bool := r.status ≠ .superseded

/-- A new signal, as a sweep adds it. -/
def newSignal (organizationId : ℕ) (candidate : SignalCandidate) (score : ℚ) (now : ℤ) :
    IntelligenceSignal where
  organizationId := organizationId
  sourceType := candidate.sourceType
  sourceRowId := candidate.sourceRowId
  title := candidate.title
  summary := candidate.summary
  priorityScore := score
  status := .active
  contentHash := candidate.contentHash sha256
  lastTriagedAt := now

/-- The new values that a sweep gives a signal it finds, flushed by primary key.  The status and
the content hash are not among them. -/
def IntelligenceSignal.refresh (candidate : SignalCandidate) (score : ℚ) (now : ℤ) :
    GuardedUpdate IntelligenceSignal where
  guard := fun _ => true
  set := fun r => { r with
    sourceRowId := candidate.sourceRowId
    title := candidate.title
    summary := candidate.summary
    priorityScore := score
    lastTriagedAt := now }

/-- The rows that `supersede_stale` picks; with no hash emitted, `NOT IN` bars nothing. -/
def IntelligenceSignal.stale (organizationId : ℕ) (liveHashes : List Text)
    (r : IntelligenceSignal) : Bool :=
  r.organizationId = organizationId && r.status = .active && !liveHashes.contains r.contentHash

/-- What `supersede_stale` does to a row. -/
def IntelligenceSignal.supersede (organizationId : ℕ) (liveHashes : List Text) :
    GuardedUpdate IntelligenceSignal where
  guard := stale organizationId liveHashes
  set := fun r => { r with status := .superseded }

/-- What `set_status` does to a row. -/
def IntelligenceSignal.setStatus (organizationId : ℕ) (status : IntelligenceSignalStatus) :
    GuardedUpdate IntelligenceSignal where
  guard := fun r => r.organizationId = organizationId
  set := fun r => { r with status := status }

inductive Update where
  | refresh (candidate : SignalCandidate) (score : ℚ) (now : ℤ)
  | supersede (organizationId : ℕ) (liveHashes : List Text)
  | setStatus (organizationId : ℕ) (status : IntelligenceSignalStatus)

def Update.act : Update → GuardedUpdate IntelligenceSignal
  | refresh candidate score now => IntelligenceSignal.refresh candidate score now
  | supersede organizationId liveHashes => IntelligenceSignal.supersede organizationId liveHashes
  | setStatus organizationId status => IntelligenceSignal.setStatus organizationId status

inductive Query where
  | liveByHash (organizationId : ℕ) (contentHash : Text)
  | stale (organizationId : ℕ) (liveHashes : List Text)

def Query.matching : Query → IntelligenceSignal → Bool
  | liveByHash organizationId contentHash => fun r =>
      r.organizationId = organizationId && r.contentHash = contentHash && r.live
  | stale organizationId liveHashes => fun r => r.stale organizationId liveHashes

/-- The table of signals and the statements put to it. -/
@[reducible] def intelligence : Schema where
  Table := Unit
  Row := fun _ => IntelligenceSignal
  Update := Update
  target := fun _ => ()
  act := Update.act
  Insert := IntelligenceSignal
  into := fun _ => ()
  new := fun x => x
  Query := Query
  source := fun _ => ()
  matching := Query.matching

/-- `UNIQUE (organization_id, content_hash) WHERE status <> 'superseded'`. -/
def liveKey : Index intelligence (ℕ × Text) := fun _ (r : IntelligenceSignal) =>
  if r.live then some (r.organizationId, r.contentHash) else none

lemma liveKey_eq_some {r : IntelligenceSignal} {k : ℕ × Text} :
    liveKey () r = some k ↔ r.live = true ∧ r.organizationId = k.1 ∧ r.contentHash = k.2 := by
  rw [liveKey]
  split_ifs with h
  · simp [h, Prod.ext_iff]
  · simp [h]

/-! ### The texts hashed -/

lemma SignalSourceType.bar_notMem_value (t : SignalSourceType) : '|' ∉ t.value := by
  cases t <;> decide

lemma SignalSourceType.value_injective : Function.Injective SignalSourceType.value := by
  intro t t' h
  cases t <;> cases t' <;> first | rfl | exact absurd h (by decide)

/-- A separator that does not occur before it is found again. -/
lemma append_cons_inj {sep : Char} {a a' b b' : Text} (ha : sep ∉ a) (ha' : sep ∉ a')
    (h : a ++ sep :: b = a' ++ sep :: b') : a = a' ∧ b = b' := by
  induction a generalizing a' with
  | nil =>
      cases a' with
      | nil => simpa using h
      | cons c cs =>
          simp only [List.nil_append, List.cons_append, List.cons.injEq] at h
          exact absurd (h.1 ▸ List.mem_cons_self) ha'
  | cons c cs ih =>
      cases a' with
      | nil =>
          simp only [List.nil_append, List.cons_append, List.cons.injEq] at h
          exact absurd (h.1 ▸ List.mem_cons_self) ha
      | cons d ds =>
          simp only [List.cons_append, List.cons.injEq] at h
          obtain ⟨rfl, h⟩ := h
          obtain ⟨rfl, rfl⟩ := ih (fun hm => ha (List.mem_cons_of_mem _ hm))
            (fun hm => ha' (List.mem_cons_of_mem _ hm)) h
          exact ⟨rfl, rfl⟩

/-- **The text hashed determines the source row.** -/
theorem source_of_hashedText {c c' : SignalCandidate} {id id' : UUID}
    (hid : c.sourceRowId = some id) (hid' : c'.sourceRowId = some id')
    (h : c.hashedText = c'.hashedText) : c.sourceType = c'.sourceType ∧ id = id' := by
  unfold SignalCandidate.hashedText hashedText at h
  rw [hid, hid'] at h
  obtain ⟨htype, hrest⟩ := append_cons_inj (SignalSourceType.bar_notMem_value _)
    (SignalSourceType.bar_notMem_value _) h
  obtain ⟨hrow, -⟩ := append_cons_inj id.bar_notMem_str id'.bar_notMem_str hrest
  exact ⟨SignalSourceType.value_injective htype, UUID.str_injective hrow⟩

end Intelligence
