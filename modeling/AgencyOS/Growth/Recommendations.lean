import AgencyOS.Growth.Bottleneck
import AgencyOS.Growth.Rates

/-!
The recommendations that a full analysis ends with.

Six rules read the results of the engines, and each adds at most two recommendations; a result that is
missing is read as an empty one.  Where no rule applies, one recommendation says so.

* `Results`, `Recommendation`: what the rules read, and what they add;
* `recommendBottlenecks`, .., `recommendHealth`: the rules;
* `generateRecommendations`, `generateRecommendations_ne_nil`: all of them, and **there is always one**.
-/

namespace Growth

/-- The results of the engines that have not failed. -/
structure Results where
  bottlenecks : Option Bottlenecks
  conversion : Option Conversion
  activity : Option Activity
  trends : Option Trends
  revenue : Option Revenue
  health : Option Health

inductive RecommendationPriority where
  | high | medium | low
  deriving DecidableEq, Repr

inductive RecommendationStatus where
  | active | acknowledged | applied | dismissed
  deriving DecidableEq, Repr

/-- A recommendation; the time at which it is generated is not read. -/
structure Recommendation where
  type : String
  priority : RecommendationPriority
  status : RecommendationStatus
  summary : String
  description : String
  action : String
  metricTarget : String
  deriving DecidableEq, Repr

section Rules

variable (round : ℚ → ℕ → ℚ) (text : ℚ → String) (results : Results)

/-- A stage at which leads stall. -/
def stalls (item : Bottleneck) (priority : RecommendationPriority) : Recommendation where
  type := "bottleneck"
  priority := priority
  status := .active
  summary := "Leads stall at '" ++ item.stage ++ "'."
  description := toString item.dropoff ++ " of " ++ toString item.entered
    ++ " leads dropped before " ++ item.stage ++ " (dropoff ratio "
    ++ text (round (item.dropoffRatio * 100) 1) ++ "%)."
  action := "Review the " ++ item.stage ++ " workflow and follow-up cadence; "
    ++ "re-run the growth analysis after changes."
  metricTarget := "stage:" ++ toString item.stageId

/-- `_recommend_bottlenecks`. -/
def recommendBottlenecks : List Recommendation :=
  ((results.bottlenecks.elim [] fun r => r.bottlenecks).take 2).flatMap fun item =>
    match item.severity with
    | .high => [stalls round text item .high]
    | .medium => [stalls round text item .medium]
    | .low => []

/-- The win rate of `_recommend_conversion`. -/
def recommendWinRate : List Recommendation :=
  let winRate := results.conversion.elim 0 fun r => r.winRate
  if winRate ≠ 0 ∧ winRate < 2 / 10 then
    [{ type := "conversion"
       priority := .high
       status := .active
       summary := "Win rate is below 20%."
       description := "Historical win rate is " ++ text (round (winRate * 100) 1)
        ++ "%; review deal qualification and proposal quality."
       action := "Audit lost deals and tighten qualification criteria."
       metricTarget := "win_rate" }]
  else []

/-- The reply rate of `_recommend_conversion`: the engine of conversions gives none, that of the activity
does. -/
def recommendReplyRate : List Recommendation :=
  match results.activity with
  | none => []
  | some activity =>
      if activity.replyRate < 5 / 100 then
        [{ type := "conversion"
           priority := .medium
           status := .active
           summary := "Outreach reply rate is very low."
           description := "Reply rate is " ++ text (round (activity.replyRate * 100) 1)
            ++ "%; messaging may need a sequence refresh."
           action := "Refresh outreach templates and test new angles."
           metricTarget := "reply_rate" }]
      else []

/-- `_recommend_activity`. -/
def recommendActivity : List Recommendation :=
  if (results.activity.elim 0 fun r => r.sent) = 0 then
    [{ type := "activity"
       priority := .high
       status := .active
       summary := "No outreach was sent this period."
       description := "The pipeline depends on fresh outreach to stay full."
       action := "Launch a new outreach campaign immediately."
       metricTarget := "outreach_sent" }]
  else []

/-- `_recommend_trends`. -/
def recommendTrends : List Recommendation :=
  match results.trends with
  | none => []
  | some trends =>
      (if trends.revenueTrend = "down" then
        [{ type := "trend"
           priority := .high
           status := .active
           summary := "Revenue is trending downward."
           description := "Revenue slope is " ++ text trends.revenueSlope ++ " over "
            ++ toString trends.revenueSeries.length ++ " periods."
           action := "Investigate root cause and prioritize recovery initiatives."
           metricTarget := "revenue" }]
      else [])
      ++ if trends.leadTrend = "down" then
        [{ type := "trend"
           priority := .medium
           status := .active
           summary := "Inbound lead volume is declining."
           description := "Lead slope is " ++ text trends.leadSlope ++ "; acquisition is slowing."
           action := "Boost lead generation and refresh acquisition channels."
           metricTarget := "new_leads" }]
      else []

/-- `_recommend_pipeline`. -/
def recommendPipeline : List Recommendation :=
  match results.revenue with
  | none => []
  | some revenue =>
      if revenue.pipelineCoverage < 3 then
        [{ type := "pipeline"
           priority := .medium
           status := .active
           summary := "Pipeline coverage is below 3x."
           description := "Weighted pipeline is " ++ text (round revenue.pipelineCoverage 2)
            ++ "x current revenue; deal flow may not sustain targets."
           action := "Increase outreach volume and stage advancement."
           metricTarget := "pipeline_coverage" }]
      else []

/-- `_recommend_health`. -/
def recommendHealth : List Recommendation :=
  match results.health with
  | none => []
  | some health =>
      if health.score < 40 then
        [{ type := "health"
           priority := .high
           status := .active
           summary := "Growth health score is critically low."
           description := "Composite growth health is " ++ text health.score
            ++ " out of 100; address the weakest dimension first."
           action := "Run a full growth analysis and act on its recommendations."
           metricTarget := "growth_score" }]
      else []

/-- What is recommended where no rule applies. -/
def maintain : Recommendation where
  type := "maintain"
  priority := .low
  status := .active
  summary := "No urgent growth blockers detected."
  description := "Current funnel, conversion, and activity metrics are within healthy bounds."
  action := "Continue current cadence and re-run the growth analysis next period."
  metricTarget := "growth_score"

/-- `generate_recommendations`. -/
def generateRecommendations : List Recommendation :=
  let recommendations := recommendBottlenecks round text results ++ recommendWinRate round text results
    ++ recommendReplyRate round text results ++ recommendActivity results
    ++ recommendTrends text results ++ recommendPipeline round text results
    ++ recommendHealth text results
  if recommendations = [] then [maintain] else recommendations

/-- **There is always a recommendation.** -/
lemma generateRecommendations_ne_nil : generateRecommendations round text results ≠ [] := by
  rw [generateRecommendations.eq_def]
  dsimp only
  split_ifs with hnone
  · simp
  · exact hnone

end Rules

end Growth
