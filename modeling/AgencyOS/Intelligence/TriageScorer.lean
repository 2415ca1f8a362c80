import AgencyOS.Intelligence.Model
import AgencyOS.Python.Rounding

/-!
The priority score of a signal candidate.

The score is a weighted sum of six components, each between 0 and 1.  The floats of the code are
taken as the decimal numbers that they stand for, and times are in microseconds.

* `ScoredFields`: what the scorer reads of a candidate;
* `TriageScorer.components`, `TriageScorer.missing`: the components, and the names of those that
  had no input;
* `TriageScorer.score`, `TriageScorer.priorityComponents`: the score, and what is stored with it;
* `TriageScorer.component_mem_unit`, `TriageScorer.score_mem_unit`: the components and the score are
  numbers between 0 and 1.
-/

namespace Intelligence

open Python

inductive IntelligenceSignalSeverity where
  | info | low | medium | high | critical
  deriving DecidableEq, Repr

inductive IntelligenceConfidence where
  | low | medium | high
  deriving DecidableEq, Repr

/-- The entries of `business_impact` that count for the score. -/
structure BusinessImpact where
  amount : Option ℚ
  dimension : Option Text
  deriving DecidableEq

/-- The fields of a candidate that are scored. -/
structure ScoredFields where
  severity : IntelligenceSignalSeverity
  confidence : IntelligenceConfidence
  businessImpact : BusinessImpact
  recommendedNextStep : Option Text
  urgency : Option ℚ
  sourceSeenAt : ℤ
  deriving DecidableEq

namespace TriageScorer

def neutral : ℚ := 5 / 10

def persistenceWindowDays : ℕ := 30

def impactAmountHigh : ℚ := 25000

def severityScore : IntelligenceSignalSeverity → ℚ
  | .info => 2 / 10
  | .low => 4 / 10
  | .medium => 6 / 10
  | .high => 8 / 10
  | .critical => 1

def confidenceScore : IntelligenceConfidence → ℚ
  | .low => 35 / 100
  | .medium => 6 / 10
  | .high => 85 / 100

/-- The truth value of a text that may be absent. -/
def given : Option Text → Bool
  | some (_ :: _) => true
  | _ => false

def businessImpactScore (impact : BusinessImpact) : ℚ :=
  match impact.amount with
  | some amount => if impactAmountHigh ≤ amount then 8 / 10 else 6 / 10
  | none => if given impact.dimension then 5 / 10 else neutral

def urgencyScore : Option ℚ → ℚ
  | some urgency => min 1 (max 0 urgency)
  | none => neutral

def actionabilityScore (recommendedNextStep : Option Text) : ℚ :=
  if given recommendedNextStep then 8 / 10 else 4 / 10

/-- A day, in microseconds. -/
def dayMicros : ℚ := 86400 * 1000000

def persistenceScore (sourceSeenAt now : ℤ) : ℚ :=
  min 1 (max 0 ((now - sourceSeenAt : ℤ) / dayMicros) / persistenceWindowDays)

/-- A component of the score with its weight. -/
structure Component where
  name : String
  weight : ℚ
  value : ℚ
  deriving DecidableEq

/-- The components, in the order of `WEIGHTS`. -/
def components (fields : ScoredFields) (now : ℤ) : List Component :=
  [⟨"severity", 30 / 100, severityScore fields.severity⟩,
   ⟨"business_impact", 25 / 100, businessImpactScore fields.businessImpact⟩,
   ⟨"urgency", 15 / 100, urgencyScore fields.urgency⟩,
   ⟨"confidence", 10 / 100, confidenceScore fields.confidence⟩,
   ⟨"actionability", 10 / 100, actionabilityScore fields.recommendedNextStep⟩,
   ⟨"persistence", 10 / 100, persistenceScore fields.sourceSeenAt now⟩]

/-- The names of the components that had no input and are neutral. -/
def missing (fields : ScoredFields) : List String :=
  (if fields.businessImpact.amount.isNone && !given fields.businessImpact.dimension then
    ["business_impact"] else [])
  ++ if fields.urgency.isNone then ["urgency"] else []

/-- The weighted sum, before it is bounded and rounded. -/
def weighted (fields : ScoredFields) (now : ℤ) : ℚ :=
  ((components fields now).map fun c => c.weight * c.value).sum

/-- What is stored with a score. -/
structure PriorityComponents where
  version : ℕ
  components : List (String × ℚ)
  missing : List String
  deriving DecidableEq

/-- The priority score. -/
def score (fields : ScoredFields) (now : ℤ) : ℚ := roundTo (min 1 (max 0 (weighted fields now))) 4

def priorityComponents (fields : ScoredFields) (now : ℤ) : PriorityComponents where
  version := 1
  components := (components fields now).map fun c => (c.name, roundTo c.value 4)
  missing := missing fields

/-- `band`. -/
inductive Band where
  | high | medium | low
  deriving DecidableEq, Repr

def band (score : ℚ) : Band :=
  if 7 / 10 ≤ score then .high else if 45 / 100 ≤ score then .medium else .low

/-! ### The score is in the unit interval -/

lemma severityScore_mem_unit (severity : IntelligenceSignalSeverity) :
    0 ≤ severityScore severity ∧ severityScore severity ≤ 1 := by
  cases severity <;> norm_num [severityScore]

lemma confidenceScore_mem_unit (confidence : IntelligenceConfidence) :
    0 ≤ confidenceScore confidence ∧ confidenceScore confidence ≤ 1 := by
  cases confidence <;> norm_num [confidenceScore]

lemma businessImpactScore_mem_unit (impact : BusinessImpact) :
    0 ≤ businessImpactScore impact ∧ businessImpactScore impact ≤ 1 := by
  unfold businessImpactScore neutral
  split <;> split_ifs <;> norm_num

lemma urgencyScore_mem_unit (urgency : Option ℚ) :
    0 ≤ urgencyScore urgency ∧ urgencyScore urgency ≤ 1 := by
  cases urgency with
  | none => norm_num [urgencyScore, neutral]
  | some q => exact ⟨le_min zero_le_one (le_max_left _ _), min_le_left _ _⟩

lemma actionabilityScore_mem_unit (recommendedNextStep : Option Text) :
    0 ≤ actionabilityScore recommendedNextStep ∧ actionabilityScore recommendedNextStep ≤ 1 := by
  unfold actionabilityScore
  split_ifs <;> norm_num

lemma persistenceScore_mem_unit (sourceSeenAt now : ℤ) :
    0 ≤ persistenceScore sourceSeenAt now ∧ persistenceScore sourceSeenAt now ≤ 1 := by
  refine ⟨le_min zero_le_one ?_, min_le_left _ _⟩
  exact div_nonneg (le_max_left _ _) (Nat.cast_nonneg _)

/-- Every component is a number between 0 and 1. -/
theorem component_mem_unit (fields : ScoredFields) (now : ℤ) :
    ∀ c ∈ components fields now, 0 ≤ c.value ∧ c.value ≤ 1 := by
  intro c hc
  simp only [components, List.mem_cons, List.not_mem_nil, or_false] at hc
  rcases hc with rfl | rfl | rfl | rfl | rfl | rfl
  · exact severityScore_mem_unit _
  · exact businessImpactScore_mem_unit _
  · exact urgencyScore_mem_unit _
  · exact confidenceScore_mem_unit _
  · exact actionabilityScore_mem_unit _
  · exact persistenceScore_mem_unit _ _

/-- The weights add up to 1, so the weighted sum needs no bounds. -/
theorem weighted_mem_unit (fields : ScoredFields) (now : ℤ) :
    0 ≤ weighted fields now ∧ weighted fields now ≤ 1 := by
  have h := component_mem_unit fields now
  simp only [components, List.mem_cons, List.not_mem_nil, or_false, forall_eq_or_imp,
    forall_eq] at h
  obtain ⟨⟨h₁, h₁'⟩, ⟨h₂, h₂'⟩, ⟨h₃, h₃'⟩, ⟨h₄, h₄'⟩, ⟨h₅, h₅'⟩, h₆, h₆'⟩ := h
  simp only [weighted, components, List.map_cons, List.map_nil, List.sum_cons, List.sum_nil]
  constructor <;> linarith

/-- The score is the weighted sum, rounded. -/
theorem score_eq (fields : ScoredFields) (now : ℤ) :
    score fields now = roundTo (weighted fields now) 4 := by
  obtain ⟨h₀, h₁⟩ := weighted_mem_unit fields now
  rw [score, max_eq_right h₀, min_eq_right h₁]

/-- **The score is a number between 0 and 1.** -/
theorem score_mem_unit (fields : ScoredFields) (now : ℤ) :
    0 ≤ score fields now ∧ score fields now ≤ 1 := by
  obtain ⟨h₀, h₁⟩ := weighted_mem_unit fields now
  rw [score_eq]
  exact roundTo_mem_unit h₀ h₁ 4

end TriageScorer

end Intelligence
