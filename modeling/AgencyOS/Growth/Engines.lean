import AgencyOS.Growth.Model
import Mathlib.Data.String.Basic
import Mathlib.Data.Prod.Lex

/-!
The growth engines: pure functions of the snapshot.

* `computeKpis`, `computePipeline`, `computeRevenue`: the indicators, the open pipeline by stage,
  and the recorded and expected revenue;
* `computeForecast`: the forecast of the next period by one of four methods;
* `computeHealth`: the health score and its dimensions;
* `computeTrends`: the monthly series of leads and revenue.

Each takes the rounding of its results, `round value digits`.
-/

namespace Growth

open Python

variable (round : ℚ → ℕ → ℚ) (context : GrowthContext)

/-! ### Indicators -/

structure Kpis where
  periodStart : Datetime
  periodEnd : Datetime
  totalLeads : ℕ
  activeLeads : ℕ
  wonLeads : ℕ
  lostLeads : ℕ
  unassignedLeads : ℕ
  openPipelineValue : ℚ
  weightedPipelineValue : ℚ
  wonValue : ℚ
  winRate : ℚ
  conversionRate : ℚ
  averageDealValue : ℚ
  averageCycleDays : ℚ
  newInPeriod : ℕ
  wonInPeriod : ℕ
  lostInPeriod : ℕ
  sentAttempts : ℕ
  replies : ℕ
  replyRate : ℚ
  revenueMetrics : Dict String ℚ
  deriving DecidableEq

/-- The days from creation to the win, of a lead with both times. -/
def cycleDays (lead : LeadPoint) : Option ℚ :=
  match lead.wonAt, lead.createdAt with
  | some wonAt, some createdAt =>
      let days := Datetime.secondsFrom createdAt wonAt / 86400
      if 0 ≤ days then some days else none
  | _, _ => none

/-- The weighted value that the loop over the open leads adds up. -/
def kpisWeightedValue (openLeads : List LeadPoint) : ℚ :=
  openLeads.foldl (fun weightedValue lead => match lead.dealValue with
    | none => weightedValue
    | some dealValue =>
        let position := ((context.stages.find? fun stage => some stage.id = lead.stageId).map
          StagePoint.position).getD 0
        weightedValue + dealValue * stageWeight position (maxPosition (openStages context.stages))) 0

/-- The last value of each revenue metric. -/
def kpisRevenueMetrics : Dict String ℚ :=
  context.metrics.foldl (fun revenueMetrics metric =>
    if metric.isRevenue then revenueMetrics.insert metric.metricType metric.value
    else revenueMetrics) ∅

def computeKpis : Kpis :=
  let openLeads := context.leads.filter (·.isIn (openStageIds context))
  let wonLeads := context.leads.filter (·.status = "won")
  let lostLeads := context.leads.filter (·.status = "lost")
  let wonValue := sumDecimal (wonLeads.map (·.dealValue))
  let wonCount := wonLeads.length
  let decided := wonCount + lostLeads.length
  let cycles := wonLeads.filterMap cycleDays
  let sent := context.attempts.countP (·.status ∈ sentStatuses)
  let replied := context.attempts.countP (·.status = "replied")
  let replyRate : ℚ := if sent = 0 then 0 else replied / sent
  let totalLeads := context.leads.length
  let conversionRate : ℚ := if totalLeads = 0 then 0 else wonCount / totalLeads
  let winRate : ℚ := if decided = 0 then 0 else wonCount / decided
  { periodStart := context.periodStart
    periodEnd := context.periodEnd
    totalLeads := totalLeads
    activeLeads := openLeads.length
    wonLeads := wonCount
    lostLeads := lostLeads.length
    unassignedLeads := context.leads.countP (·.ownerUserId = none)
    openPipelineValue := sumDecimal (openLeads.map (·.dealValue))
    weightedPipelineValue := kpisWeightedValue context openLeads
    wonValue := wonValue
    winRate := round winRate 4
    conversionRate := round conversionRate 4
    averageDealValue := if wonCount = 0 then 0 else wonValue / wonCount
    averageCycleDays := if cycles = [] then 0 else round (cycles.sum / cycles.length) 1
    newInPeriod := context.leads.countP fun lead => within context lead.createdAt
    wonInPeriod := context.leads.countP fun lead => within context lead.wonAt
    lostInPeriod := context.leads.countP fun lead => within context lead.lostAt
    sentAttempts := sent
    replies := replied
    replyRate := round replyRate 4
    revenueMetrics := kpisRevenueMetrics context }

/-! ### Pipeline -/

/-- What the leads of a stage add up to. -/
structure PipelineRow where
  count : ℕ
  value : ℚ
  weighted : ℚ
  deriving DecidableEq, Repr

structure StageRow where
  stageId : ℕ
  name : String
  position : ℤ
  count : ℕ
  value : ℚ
  weightedValue : ℚ
  deriving DecidableEq, Repr

structure Pipeline where
  totalOpen : ℕ
  openValue : ℚ
  weightedValue : ℚ
  expectedValue : ℚ
  byStage : List StageRow
  deriving DecidableEq, Repr

/-- `{stage.id: stage.position for stage in stages}`. -/
def positionsOf (stages : List StagePoint) : Dict ℕ ℤ :=
  Dict.ofItems (stages.map fun stage => (stage.id, stage.position))

/-- A lead goes into the row of its stage. -/
def PipelineRow.add (row : PipelineRow) (lead : LeadPoint) (probability : ℚ) : PipelineRow :=
  match lead.dealValue with
  | none => { row with count := row.count + 1 }
  | some dealValue =>
      { count := row.count + 1
        value := row.value + dealValue
        weighted := row.weighted + dealValue * probability }

/-- The loop over the open leads. -/
def pipelineRows (rows : Dict ℕ PipelineRow) (openLeads : List LeadPoint) : Dict ℕ PipelineRow :=
  openLeads.foldl (fun rows lead => match lead.stageId with
    | none => rows
    | some stageId => match rows.lookup stageId with
      | none => rows
      | some row =>
          let probability := stageWeight ((positionsOf context.stages).getD stageId 0)
            (maxPosition (openStages context.stages))
          rows.insert stageId (row.add lead probability)) rows

def computePipeline : Pipeline :=
  let sorted := openStages (sortedBy (fun stage => toLex (stage.position, stage.name)) context.stages)
  let openLeads := context.leads.filter (·.isIn (openStageIds context))
  let rows := pipelineRows context
    (Dict.ofItems (sorted.map fun stage => (stage.id, ⟨0, 0, 0⟩))) openLeads
  let rowOf := fun stage : StagePoint => rows.getD stage.id ⟨0, 0, 0⟩
  let weightedValue := (rows.entries.map fun entry => entry.2.weighted).sum
  { totalOpen := openLeads.length
    openValue := sumDecimal (openLeads.map (·.dealValue))
    weightedValue := round weightedValue 2
    expectedValue := round weightedValue 2
    byStage := sorted.map fun stage =>
      { stageId := stage.id
        name := stage.name
        position := stage.position
        count := (rowOf stage).count
        value := (rowOf stage).value
        weightedValue := round (rowOf stage).weighted 2 } }

/-! ### Revenue -/

structure Revenue where
  wonRevenuePeriod : ℚ
  openPipelineValue : ℚ
  weightedPipelineValue : ℚ
  expectedValue : ℚ
  pipelineCoverage : ℚ
  averageDealValue : ℚ
  monthlyRevenue : List (String × ℚ)
  revenueMetrics : Dict String ℚ
  latestRecordedRevenue : Option ℚ
  deriving DecidableEq

/-- The position of the stage of a lead, 0 when unknown. -/
def positionOf (lead : LeadPoint) : ℤ :=
  match context.stages.find? fun stage => some stage.id = lead.stageId with
  | some stage => stage.position
  | none => 0

/-- The month and the deal of a won lead. -/
def wonDeal (lead : LeadPoint) : Option (Datetime × ℚ) :=
  match lead.wonAt, lead.dealValue with
  | some wonAt, some deal => some (wonAt, deal)
  | _, _ => none

/-- The revenue of each month, from the won leads in the order of their wins. -/
def monthly (wonInPeriod : List LeadPoint) : OrderedDict String ℚ :=
  OrderedDict.tally (fun won : Datetime × ℚ => Datetime.month won.1) 0 (fun total won => total + won.2)
    (sortedBy Prod.fst (wonInPeriod.filterMap wonDeal))

/-- The recorded revenue: the last value of each metric, and the last of all. -/
def recordedRevenue (metrics : List MetricPoint) : Dict String ℚ × Option ℚ :=
  metrics.foldl (fun (revenueMetrics, latest) metric =>
    if metric.isRevenue then (revenueMetrics.insert metric.metricType metric.value, some metric.value)
    else (revenueMetrics, latest)) (∅, none)

def computeRevenue : Revenue :=
  let wonInPeriod := context.leads.filter fun lead => within context lead.wonAt
  let wonValuePeriod := sumDecimal (wonInPeriod.map (·.dealValue))
  let openLeads := context.leads.filter (·.isIn (openStageIds context))
  let weightedValue := sumDecimal ((openLeads.filter (·.dealValue ≠ none)).map fun lead =>
    lead.dealValue.map fun dealValue =>
      dealValue * stageWeight (positionOf context lead) (maxPosition (openStages context.stages)))
  let won := context.leads.filter (·.status = "won")
  let recorded := recordedRevenue (sortedBy (·.periodEnd) context.metrics)
  let coverage := if wonValuePeriod = 0 then 0 else weightedValue / wonValuePeriod
  { wonRevenuePeriod := wonValuePeriod
    openPipelineValue := sumDecimal (openLeads.map (·.dealValue))
    weightedPipelineValue := weightedValue
    expectedValue := weightedValue
    pipelineCoverage := round coverage 4
    averageDealValue :=
      if won.length = 0 then 0 else sumDecimal (won.map (·.dealValue)) / won.length
    monthlyRevenue := (monthly wonInPeriod).items
    revenueMetrics := recorded.1
    latestRecordedRevenue := recorded.2 }

/-! ### Forecast -/

def supportedMethods : List String :=
  ["linear_trend", "moving_average", "pipeline_weighted", "seasonal_naive"]

def defaultWindow : ℕ := 3

def defaultConfidence : ℚ := 2 / 10

structure ForecastResult where
  method : String
  pointEstimate : ℚ
  lowerBound : ℚ
  upperBound : ℚ
  series : List (String × ℚ)
  errors : List String
  deriving DecidableEq, Repr

/-- `_revenue_series`: the first metric of each month, in the order of the period ends. -/
def revenueSeries : List (String × ℚ) :=
  ((sortedBy (·.periodEnd) (context.metrics.filter (·.isRevenue))).foldl (fun series metric =>
    let key := Datetime.month metric.periodEnd
    if key ∈ series.map Prod.fst then series else series ++ [(key, metric.value)]) [])

def forecastLinearTrend (series : List (String × ℚ)) : ℚ :=
  let values := series.map Prod.snd
  if series.length < 2 then values.getLast?.getD 0
  else
    values.getLast?.getD 0 + (linearFit ((List.range values.length).map Nat.cast) values).slope

def forecastMovingAverage (series : List (String × ℚ)) (window : ℕ) : ℚ :=
  let values := series.map Prod.snd
  -- `values[-0:]` is the whole list
  let recent := if window = 0 then values else values.drop (values.length - window)
  if values = [] then 0 else recent.sum / recent.length

def forecastPipelineWeighted : ℚ :=
  round (context.leads.foldl (fun total lead => match lead.stageId, lead.dealValue with
    | some stageId, some dealValue =>
        if stageId ∈ openStageIds context then
          total + dealValue * stageWeight ((positionsOf context.stages).getD stageId 0)
            (maxPosition (openStages context.stages))
        else total
    | _, _ => total) 0) 2

def forecastSeasonalNaive (series : List (String × ℚ)) : ℚ := (series.map Prod.snd).getLast?.getD 0

def computeForecast (method : Option String) : ForecastResult :=
  -- the empty name counts as none
  let asked := if method = none ∨ method = some "" then "linear_trend" else method.getD ""
  let supported := asked ∈ supportedMethods
  let method := if supported then asked else "linear_trend"
  let series := revenueSeries context
  let point :=
    if method = "linear_trend" then forecastLinearTrend series
    else if method = "moving_average" then forecastMovingAverage series defaultWindow
    else if method = "pipeline_weighted" then forecastPipelineWeighted round context
    else forecastSeasonalNaive series
  let point := max 0 point
  let band := max (point * defaultConfidence) 1
  { method := method
    pointEstimate := round point 2
    lowerBound := max 0 (round (point - band) 2)
    upperBound := round (point + band) 2
    series := series ++ [("next", round point 2)]
    errors :=
      (if supported then [] else ["unsupported method '" ++ asked ++ "'; using 'linear_trend'"]) ++
      (if series.length < 2 ∧ method ≠ "pipeline_weighted" then
        ["fewer than two revenue periods; forecast is a naive repetition"] else []) }

/-! ### Health -/

structure Dimension where
  name : String
  score : ℚ
  label : String
  deriving DecidableEq, Repr

structure Health where
  score : ℚ
  dimensions : List Dimension
  weights : Dict String ℚ
  deriving DecidableEq

def defaultWeights : List (String × ℚ) :=
  [("pipeline_health", 25 / 100), ("activity_level", 20 / 100), ("conversion_health", 20 / 100),
    ("revenue_health", 25 / 100), ("coverage_health", 10 / 100)]

/-- `_clamp`. -/
def clamp (value : ℚ) : ℚ := max 0 (min 1 value)

/-- `_effective_weights`. -/
def effectiveWeights : Dict String ℚ :=
  Dict.ofItems (defaultWeights ++ context.healthWeights.map fun weight => (weight.dimension, weight.weight))

/-- The `weighted_open` of the health engine. -/
def weightedOpen : ℚ :=
  let stages := (OrderedDict.ofItems
    ((openStages context.stages).map fun stage => (stage.id, stage))).items.map Prod.snd
  let positions := positionsOf stages
  let openLeads := context.leads.filter (·.isIn (openStageIds context))
  (openLeads.filterMap fun lead => match lead.dealValue, lead.stageId with
    | some dealValue, some stageId =>
        some (dealValue * stageWeight (positions.getD stageId 0) (maxPosition stages))
    | _, _ => none).sum

/-- The recorded revenues, as the rows come. -/
def revenueValues : List ℚ := (context.metrics.filter (·.isRevenue)).map MetricPoint.value

/-- The `latest_revenue` of the health engine. -/
def latestRevenue : ℚ := (revenueValues context).getLast?.getD 0

/-- The dimensions before they are clamped, with their labels. -/
def dimensions : List (String × ℚ × String) :=
  let avgRevenue := if revenueValues context = [] then 0 else mean (revenueValues context)
  let openLeads := context.leads.filter (·.isIn (openStageIds context))
  let decided := context.leads.filter fun lead => lead.status = "won" || lead.status = "lost"
  let won := decided.countP (·.status = "won")
  let winRate : ℚ := if decided.length = 0 then 0 else won / decided.length
  let sent := context.attempts.countP (·.status ∈ sentStatuses)
  let replied := context.attempts.countP (·.status = "replied")
  let replyRate : ℚ := if sent = 0 then 0 else replied / sent
  let attemptsAndEvents := context.attempts.length + context.activity.length
  let latest := latestRevenue context
  let coverage := if latest = 0 then 0 else weightedOpen context / latest
  [("pipeline_health", clamp coverage, "Weighted open pipeline value vs. last recorded revenue."),
    ("activity_level", clamp ((attemptsAndEvents : ℚ) / (max openLeads.length 1 : ℕ)),
      "Outreach attempts plus logged events per open lead."),
    ("conversion_health", clamp (winRate * 2 + replyRate * (5 / 10)),
      "Historical win rate and outreach reply rate blend."),
    ("revenue_health", clamp (if avgRevenue = 0 then 0 else latest / avgRevenue),
      "Latest revenue vs. average period revenue."),
    ("coverage_health", clamp coverage, "Pipeline coverage ratio (weighted pipeline / revenue).")]

def computeHealth : Health :=
  let weights := effectiveWeights context
  let score := ((dimensions context).map fun dimension =>
    clamp dimension.2.1 * weights.getD dimension.1 0).sum
  { score := round (score * 100) 1
    dimensions := (dimensions context).map fun (name, value, label) =>
      ⟨name, round (clamp value * 100) 1, label⟩
    weights := Dict.ofItems ((defaultWeights.map Prod.fst ++
      context.healthWeights.map HealthWeightPoint.dimension).map fun name =>
        (name, round (weights.getD name 0) 4)) }

/-! ### Trends -/

structure Trends where
  leadSeries : List (String × ℕ)
  leadSlope : ℚ
  leadTrend : String
  revenueSeries : List (String × ℚ)
  revenueSlope : ℚ
  revenueTrend : String
  growthPct : ℚ
  latest : ℚ
  deriving DecidableEq, Repr

def trendLabel (slope : ℚ) : String :=
  if 5 / 100 < slope then "up" else if slope < -(5 / 100) then "down" else "flat"

/-- The slope of a series over its index. -/
def seriesSlope (values : List ℚ) : ℚ :=
  if 2 ≤ values.length then (linearFit ((List.range values.length).map Nat.cast) values).slope else 0

/-- The leads of each month that has some, by month. -/
def leadMonths : List (String × ℕ) :=
  let months := context.leads.filterMap fun lead => lead.createdAt.map Datetime.month
  sortedBy Prod.fst (OrderedDict.tally id 0 (fun count _ => count + 1) months).items

/-- The recorded revenues by month. -/
def revenueMonths : List (String × ℚ) :=
  sortedBy Prod.fst ((context.metrics.filter (·.isRevenue)).map fun metric =>
    (Datetime.month metric.periodEnd, metric.value))

def computeTrends : Trends :=
  let leadSeries := leadMonths context
  let leadSlope := seriesSlope (leadSeries.map fun item => (item.2 : ℚ))
  let revenueSeries := revenueMonths context
  let revenueValues := revenueSeries.map Prod.snd
  let revenueSlope := seriesSlope revenueValues
  let last := revenueValues.getLast?.getD 0
  let previous := if 2 ≤ revenueValues.length then revenueValues.dropLast.getLast?.getD 0 else 0
  { leadSeries := leadSeries
    leadSlope := round leadSlope 4
    leadTrend := trendLabel leadSlope
    revenueSeries := revenueSeries
    revenueSlope := round revenueSlope 4
    revenueTrend := trendLabel revenueSlope
    growthPct := round (pctChange previous last) 4
    latest := last }

end Growth
