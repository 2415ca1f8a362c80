import AgencyOS.Python.Calendar
import AgencyOS.Python.Collections
import Mathlib.Tactic

/-!
The snapshot that the growth engines read, and their statistics.

Amounts are exact: a `Decimal` and a `float` are the rational that they stand for.  What an engine
rounds goes through a rounding of its own, which is a parameter of the engines.  The mean and the fit
are those of any field.

* `GrowthContext`: the snapshot of an organization;
* `mean`, `pctChange`, `linearFit`, `sumDecimal`: the statistics;
* `openStageIds`, `stageWeight`: the open stages, and the odds of a stage by its position.
-/

namespace Growth

open Python

/-! ### The snapshot -/

structure StagePoint where
  id : ℕ
  name : String
  position : ℤ
  lifecycle : String
  deriving DecidableEq, Repr

structure LeadPoint where
  id : ℕ
  status : String
  stageId : Option ℕ
  dealValue : Option ℚ
  wonAt : Option Datetime
  lostAt : Option Datetime
  createdAt : Option Datetime
  ownerUserId : Option ℕ
  name : String
  deriving DecidableEq, Repr

structure MetricPoint where
  metricType : String
  periodStart : Datetime
  periodEnd : Datetime
  value : ℚ
  deriving DecidableEq, Repr

structure AttemptPoint where
  status : String
  channel : String
  createdAt : Datetime
  deriving DecidableEq, Repr

structure TaskPoint where
  status : String
  createdAt : Datetime
  completedAt : Option Datetime
  deriving DecidableEq, Repr

structure ActivityPoint where
  eventType : String
  createdAt : Datetime
  deriving DecidableEq, Repr

structure HealthWeightPoint where
  dimension : String
  weight : ℚ
  position : ℤ
  deriving DecidableEq, Repr

structure GrowthContext where
  organizationId : ℕ
  periodStart : Datetime
  periodEnd : Datetime
  stages : List StagePoint
  leads : List LeadPoint
  metrics : List MetricPoint
  attempts : List AttemptPoint
  tasks : List TaskPoint
  activity : List ActivityPoint
  healthWeights : List HealthWeightPoint
  deriving DecidableEq, Repr

/-! ### Statistics -/

def mean {K : Type} [Field K] (xs : List K) : K := if xs = [] then 0 else xs.sum / xs.length

/-- The relative change, 0 from 0. -/
def pctChange (old new : ℚ) : ℚ := if old = 0 then 0 else (new - old) / |old|

/-- The slope, the intercept, the determination and the residuals. -/
structure LinearFit (K : Type) where
  slope : K
  intercept : K
  rSquared : K
  residuals : List K
  deriving DecidableEq, Repr

/-- The line of least squares. -/
def linearFit {K : Type} [Field K] [DecidableEq K] (xs ys : List K) : LinearFit K :=
  let n := xs.length
  if n < 2 ∨ n ≠ ys.length then
    ⟨0, mean ys, 0, []⟩
  else
    let xMean := mean xs
    let yMean := mean ys
    let sxx := (xs.map fun x => (x - xMean) ^ 2).sum
    if sxx = 0 then
      ⟨0, yMean, 0, []⟩
    else
      let sxy := (List.zipWith (fun x y => (x - xMean) * (y - yMean)) xs ys).sum
      let slope := sxy / sxx
      let intercept := yMean - slope * xMean
      let residuals := List.zipWith (fun x y => y - (slope * x + intercept)) xs ys
      let yVar := (ys.map fun y => (y - yMean) ^ 2).sum
      let ssRes := (residuals.map fun r => r * r).sum
      ⟨slope, intercept, if yVar = 0 then 0 else 1 - ssRes / yVar, residuals⟩

/-- The sum of the values that are there. -/
def sumDecimal (values : List (Option ℚ)) : ℚ :=
  values.foldl (fun total value => match value with
    | none => total
    | some value => total + value) 0

lemma sum_map_filter {α M : Type} [AddCommMonoid M] (p : α → Bool) (f : α → M) (l : List α) :
    ((l.filter p).map f).sum = (l.map fun a => if p a then f a else 0).sum := by
  induction l with
  | nil => rfl
  | cons a l ih => by_cases ha : p a <;> simp [ha, ih]

lemma sum_filterMap {α : Type} (f : α → Option ℚ) (l : List α) :
    (l.filterMap f).sum = (l.map fun a => (f a).getD 0).sum := by
  induction l with
  | nil => rfl
  | cons a l ih => cases ha : f a <;> simp [ha, ih]

lemma foldl_add_eq_sum {α : Type} {step : ℚ → α → ℚ} {f : α → ℚ}
    (hstep : ∀ total a, step total a = total + f a) (l : List α) (total : ℚ) :
    l.foldl step total = total + (l.map f).sum := by
  induction l generalizing total with
  | nil => simp
  | cons a l ih => rw [List.foldl_cons, ih, hstep, List.map_cons, List.sum_cons, add_assoc]

@[simp] lemma sumDecimal_eq (values : List (Option ℚ)) :
    sumDecimal values = (values.map fun value => value.getD 0).sum := by
  rw [sumDecimal, foldl_add_eq_sum (f := fun value => value.getD 0), zero_add]
  intro total value
  cases value <;> simp

/-! ### Stages -/

/-- The stages of the open lifecycle. -/
def openStages (stages : List StagePoint) : List StagePoint :=
  stages.filter fun stage => stage.lifecycle = "open"

/-- `open_stage_ids`. -/
def openStageIds (context : GrowthContext) : Finset ℕ :=
  ((openStages context.stages).map StagePoint.id).toFinset

/-- `max(..., default=0)` over the positions of the stages. -/
def maxPosition (stages : List StagePoint) : ℤ := ((stages.map StagePoint.position).max?).getD 0

/-- The odds of a stage ramp from 0.15 to 1 by position. -/
def stageWeight (position maxPosition : ℤ) : ℚ :=
  if maxPosition ≤ 0 then 1 / 2 else 15 / 100 + 85 / 100 * (position / maxPosition)

/-- `lead.stage_id in ids`. -/
def LeadPoint.isIn (lead : LeadPoint) (ids : Finset ℕ) : Bool := lead.stageId.any (· ∈ ids)

/-- `start <= t <= stop`, of a time that is there. -/
def within (context : GrowthContext) (t : Option Datetime) : Bool :=
  t.any fun t => context.periodStart ≤ t && t ≤ context.periodEnd

def revenueMetricTypes : List String := ["revenue", "mrr", "arr"]

def sentStatuses : List String := ["sent", "delivered", "manually_sent"]

def MetricPoint.isRevenue (metric : MetricPoint) : Bool := metric.metricType ∈ revenueMetricTypes

end Growth
