import AgencyOS.Growth.Weighted

/-!
What the figures of the growth engines owe to the order of the rows.

The revenue engine and the forecast sort the metrics by the end of their period, and sums and counts
do not depend on an order.  The indicators keep the last value of each metric as the rows come, the
health engine takes the last row for the latest revenue, and the trends sort by month only.

* `Reordered`, `SameFigures`, `LatestByPeriodEnd`: the property;
* `computeRevenue_reordered`, `computeForecast_reordered`: the engines that sort;
* `latestRevenue_last`: any recorded revenue becomes the latest one of the health engine;
* `rowOrder_iff`: the figures are independent of the order exactly when all the recorded revenues
  are equal.
-/

namespace Growth

open Python

/-- The rows of a snapshot in another order. -/
structure Reordered (context context' : GrowthContext) : Prop where
  organizationId : context'.organizationId = context.organizationId
  periodStart : context'.periodStart = context.periodStart
  periodEnd : context'.periodEnd = context.periodEnd
  stages : context'.stages = context.stages
  healthWeights : context'.healthWeights = context.healthWeights
  leads : context'.leads.Perm context.leads
  metrics : context'.metrics.Perm context.metrics
  attempts : context'.attempts.Perm context.attempts
  tasks : context'.tasks.Perm context.tasks
  activity : context'.activity.Perm context.activity

/-- No figure of the five engines differs. -/
structure SameFigures (round : ℚ → ℕ → ℚ) (context context' : GrowthContext) : Prop where
  kpis : computeKpis round context' = computeKpis round context
  revenue : computeRevenue round context' = computeRevenue round context
  health : computeHealth round context' = computeHealth round context
  trends : computeTrends round context' = computeTrends round context
  forecast : ∀ method, computeForecast round context' method = computeForecast round context method

/-- The latest revenue of the health engine, and that of each metric in the indicators, is the one
with the greatest end of its period. -/
structure LatestByPeriodEnd (context : GrowthContext) : Prop where
  health : ∀ metric ∈ context.metrics, metric.isRevenue →
    (∀ other ∈ context.metrics, other.isRevenue → other.periodEnd ≤ metric.periodEnd) →
    latestRevenue context = metric.value
  kpis : ∀ round, ∀ metric ∈ context.metrics, metric.isRevenue →
    (∀ other ∈ context.metrics, other.metricType = metric.metricType →
      other.periodEnd ≤ metric.periodEnd) →
    (computeKpis round context).revenueMetrics.lookup metric.metricType = some metric.value

/-- However the rows come, the figures are the same and the latest revenue is the right one. -/
def RowOrderIndependent (round : ℚ → ℕ → ℚ) (context : GrowthContext) : Prop :=
  ∀ context', Reordered context context' →
    SameFigures round context context' ∧ LatestByPeriodEnd context'

variable {round : ℚ → ℕ → ℚ} {context context' : GrowthContext}

/-! ### Sums and counts -/

section Sums

variable {α : Type} {l l' : List α} (hp : l.Perm l')

include hp

lemma sumDecimal_perm (p : α → Bool) (f : α → Option ℚ) :
    sumDecimal ((l.filter p).map f) = sumDecimal ((l'.filter p).map f) := by
  rw [sumDecimal_eq, sumDecimal_eq]
  exact (((hp.filter p).map f).map _).sum_eq

lemma sum_filterMap_perm (p : α → Bool) (f : α → Option ℚ) :
    ((l.filter p).filterMap f).sum = ((l'.filter p).filterMap f).sum :=
  ((hp.filter p).filterMap f).sum_eq

lemma length_filterMap_perm {β : Type} (p : α → Bool) (f : α → Option β) :
    ((l.filter p).filterMap f).length = ((l'.filter p).filterMap f).length :=
  ((hp.filter p).filterMap f).length_eq

lemma filterMap_eq_nil_perm {β : Type} (p : α → Bool) (f : α → Option β) :
    (l.filter p).filterMap f = [] ↔ (l'.filter p).filterMap f = [] := by
  rw [← List.length_eq_zero_iff, ← List.length_eq_zero_iff, length_filterMap_perm hp]

end Sums

/-! ### What the stages and the window decide -/

namespace Reordered

variable (h : Reordered context context')

include h

lemma openStageIds : openStageIds context' = Growth.openStageIds context := by
  rw [Growth.openStageIds, h.stages, ← Growth.openStageIds]

lemma within : within context' = Growth.within context := by
  funext t
  rw [Growth.within, h.periodStart, h.periodEnd, ← Growth.within]

lemma positionOf : positionOf context' = Growth.positionOf context := by
  funext lead
  rw [Growth.positionOf, h.stages, ← Growth.positionOf]

end Reordered

/-! ### Sorted engines -/

section Sorted

lemma metric_of_periodEnd (hdistinct : (context.metrics.map MetricPoint.periodEnd).Nodup)
    {metric other : MetricPoint} (hmetric : metric ∈ context.metrics)
    (hother : other ∈ context.metrics) (hend : metric.periodEnd = other.periodEnd) :
    metric = other :=
  List.inj_on_of_nodup_map hdistinct hmetric hother hend

/-- The months of the wins come in the order of the wins. -/
lemma monthly_perm {leads leads' : List LeadPoint} (hp : leads.Perm leads') :
    monthly leads = monthly leads' := by
  have hwon := hp.filterMap wonDeal
  refine @OrderedDict.tally_congr _ _ _ _ _ _ _ ⟨fun total won won' => by ring⟩ _ _
    ((sortedBy_perm _ _).trans (hwon.trans (sortedBy_perm _ _).symm)) ?_
  have hkeys := congrArg (List.map Datetime.month) (map_sortedBy_congr Prod.fst hwon)
  simpa [List.map_map, Function.comp_def] using hkeys

/-- The revenue engine does not depend on the order of the rows. -/
theorem computeRevenue_reordered (hdistinct : (context.metrics.map MetricPoint.periodEnd).Nodup)
    (h : Reordered context context') : computeRevenue round context' = computeRevenue round context := by
  have hsorted : sortedBy (·.periodEnd) context'.metrics = sortedBy (·.periodEnd) context.metrics :=
    (sortedBy_congr _ h.metrics.symm fun _ ha _ hb => metric_of_periodEnd hdistinct ha hb).symm
  have hsum := fun p f => sumDecimal_perm h.leads p f
  simp only [computeRevenue, hsorted, h.openStageIds, h.within, h.positionOf, h.stages,
    List.filter_filter, hsum, (h.leads.filter _).length_eq, monthly_perm (h.leads.filter _)]

/-- The forecast does not depend on the order of the rows. -/
theorem computeForecast_reordered (hdistinct : (context.metrics.map MetricPoint.periodEnd).Nodup)
    (h : Reordered context context') (method : Option String) :
    computeForecast round context' method = computeForecast round context method := by
  have hseries : revenueSeries context' = revenueSeries context := by
    rw [revenueSeries, revenueSeries, sortedBy_congr _ (h.metrics.filter _) fun a ha b hb hend => ?_]
    refine metric_of_periodEnd hdistinct (h.metrics.mem_iff.1 (List.mem_of_mem_filter ha))
      (h.metrics.mem_iff.1 (List.mem_of_mem_filter hb)) hend
  have hpipeline : forecastPipelineWeighted round context' = forecastPipelineWeighted round context := by
    rw [forecastPipelineWeighted_eq, forecastPipelineWeighted_eq, h.stages, h.openStageIds,
      ((h.leads.filter _).map _).sum_eq]
  simp only [computeForecast, hseries, hpipeline]

end Sorted

/-! ### Engines that take the last row -/

lemma kpisRevenueMetrics_eq (context : GrowthContext) :
    kpisRevenueMetrics context = Dict.ofItems ((context.metrics.filter (·.isRevenue)).map fun metric =>
      (metric.metricType, metric.value)) := by
  rw [kpisRevenueMetrics, Dict.ofItems, List.foldl_map, List.foldl_filter]

/-- Each metric has the value of its last row. -/
lemma kpisRevenueMetrics_lookup (context : GrowthContext) (metricType : String) :
    (kpisRevenueMetrics context).lookup metricType
      = ((context.metrics.filter (·.isRevenue)).reverse.find? fun metric =>
          metric.metricType = metricType).map MetricPoint.value := by
  rw [kpisRevenueMetrics_eq, Dict.lookup_ofItems, ← List.map_reverse, List.find?_map, Option.map_map]
  rfl

section Equal

variable (hvalues : ∀ metric ∈ context.metrics, ∀ other ∈ context.metrics, metric.isRevenue →
  other.isRevenue → metric.value = other.value)

lemma map_find?_perm {α β : Type} {p : α → Bool} {f : α → β} {l l' : List α} (hp : l.Perm l')
    (hf : ∀ a ∈ l, ∀ b ∈ l, f a = f b) : (l.find? p).map f = (l'.find? p).map f := by
  cases hfind : l.find? p with
  | none =>
      rw [List.find?_eq_none] at hfind
      have hfind' : l'.find? p = none :=
        List.find?_eq_none.2 fun a ha => hfind a (hp.mem_iff.2 ha)
      rw [hfind']
  | some a =>
      have ha := List.mem_of_find?_eq_some hfind
      cases hfind' : l'.find? p with
      | none =>
          rw [List.find?_eq_none] at hfind'
          exact absurd (List.find?_some hfind) (hfind' a (hp.mem_iff.1 ha))
      | some b => simp [hf a ha b (hp.mem_iff.2 (List.mem_of_find?_eq_some hfind'))]

/-- A list of one repeated value has only one order. -/
lemma eq_of_perm_of_forall_eq {α : Type} {l l' : List α} (hp : l.Perm l')
    (hl : ∀ a ∈ l, ∀ b ∈ l, a = b) : l = l' := by
  have htrivial (m : List α) : m.Pairwise fun _ _ => True :=
    List.pairwise_of_forall fun _ _ => True.intro
  refine List.Perm.eq_of_pairwise ?_ (htrivial l) (htrivial l') hp
  intro a b ha hb _ _
  exact hl a ha b (hp.mem_iff.2 hb)

include hvalues

lemma revenueValues_reordered (h : Reordered context context') :
    revenueValues context' = revenueValues context := by
  refine (eq_of_perm_of_forall_eq ((h.metrics.symm.filter _).map _) fun value hvalue other hother => ?_).symm
  obtain ⟨metric, hmetric, rfl⟩ := List.mem_map.1 hvalue
  obtain ⟨metric', hmetric', rfl⟩ := List.mem_map.1 hother
  rw [List.mem_filter] at hmetric hmetric'
  exact hvalues metric hmetric.1 metric' hmetric'.1 hmetric.2 hmetric'.2

lemma kpisRevenueMetrics_reordered (h : Reordered context context') :
    kpisRevenueMetrics context' = kpisRevenueMetrics context := by
  refine Finmap.ext_lookup fun metricType => ?_
  rw [kpisRevenueMetrics_lookup, kpisRevenueMetrics_lookup]
  refine (map_find?_perm ?_ fun metric hmetric other hother => ?_).symm
  · exact (List.reverse_perm _).trans ((h.metrics.symm.filter _).trans (List.reverse_perm _).symm)
  · rw [List.mem_reverse, List.mem_filter] at hmetric hother
    exact hvalues metric hmetric.1 other hother.1 hmetric.2 hother.2

lemma computeKpis_reordered (h : Reordered context context') :
    computeKpis round context' = computeKpis round context := by
  have hsum := fun p f => sumDecimal_perm h.leads p f
  have hcount := fun p => h.leads.countP_eq p
  have hweighted : kpisWeightedValue context' (context'.leads.filter (·.isIn (openStageIds context)))
      = kpisWeightedValue context (context.leads.filter (·.isIn (openStageIds context))) := by
    rw [kpisWeightedValue_eq, kpisWeightedValue_eq, h.stages, ((h.leads.filter _).map _).sum_eq]
  simp only [computeKpis, h.openStageIds, h.within, h.periodStart, h.periodEnd, hsum, hcount,
    hweighted, (h.leads.filter _).length_eq, h.leads.length_eq, h.attempts.countP_eq,
    sum_filterMap_perm h.leads, length_filterMap_perm h.leads, filterMap_eq_nil_perm h.leads,
    kpisRevenueMetrics_reordered hvalues h]

lemma computeHealth_reordered (h : Reordered context context') :
    computeHealth round context' = computeHealth round context := by
  have hweighted : weightedOpen context' = weightedOpen context := by
    simp only [weightedOpen, h.stages, h.openStageIds, sum_filterMap_perm h.leads]
  have hrevenue := revenueValues_reordered hvalues h
  have hlatest : latestRevenue context' = latestRevenue context := by
    rw [latestRevenue, latestRevenue, hrevenue]
  have hdimensions : dimensions context' = dimensions context := by
    simp only [dimensions, hrevenue, hlatest, hweighted, h.openStageIds,
      (h.leads.filter _).length_eq, (h.leads.filter _).countP_eq, h.attempts.countP_eq,
      h.attempts.length_eq, h.activity.length_eq]
  simp only [computeHealth, hdimensions, effectiveWeights, h.healthWeights]

lemma computeTrends_reordered (h : Reordered context context') :
    computeTrends round context' = computeTrends round context := by
  have hmonths : leadMonths context' = leadMonths context := by
    rw [leadMonths, leadMonths]
    refine (sortedBy_congr _ (@OrderedDict.tally_perm _ _ _ _ _ _ _ ⟨fun _ _ _ => rfl⟩ _ _
      (h.leads.symm.filterMap _)) fun a ha b hb hkey => ?_).symm
    exact List.inj_on_of_nodup_map (OrderedDict.nodup _) ha hb hkey
  have hrevenue : revenueMonths context' = revenueMonths context := by
    rw [revenueMonths, revenueMonths]
    refine (sortedBy_congr _ ((h.metrics.symm.filter _).map _) fun a ha b hb hkey => ?_).symm
    obtain ⟨metric, hmetric, rfl⟩ := List.mem_map.1 ha
    obtain ⟨other, hother, rfl⟩ := List.mem_map.1 hb
    rw [List.mem_filter] at hmetric hother
    exact Prod.ext hkey (hvalues metric hmetric.1 other hother.1 hmetric.2 hother.2)
  simp only [computeTrends, hmonths, hrevenue]

/-- With one recorded revenue it does not matter which row is read. -/
lemma latestByPeriodEnd : LatestByPeriodEnd context where
  health := by
    intro metric hmetric hrevenue _
    have hmem : metric.value ∈ revenueValues context :=
      List.mem_map_of_mem (List.mem_filter.2 ⟨hmetric, hrevenue⟩)
    rw [latestRevenue, List.getLast?_eq_some_getLast (List.ne_nil_of_mem hmem), Option.getD_some]
    obtain ⟨last, hlast, hvalue⟩ :=
      List.mem_map.1 (List.getLast_mem (List.ne_nil_of_mem hmem))
    rw [List.mem_filter] at hlast
    rw [← hvalue]
    exact hvalues last hlast.1 metric hmetric hlast.2 hrevenue
  kpis := by
    intro round metric hmetric hrevenue _
    change (kpisRevenueMetrics context).lookup metric.metricType = some metric.value
    have hmem : metric ∈ (context.metrics.filter (·.isRevenue)).reverse :=
      List.mem_reverse.2 (List.mem_filter.2 ⟨hmetric, hrevenue⟩)
    rw [kpisRevenueMetrics_lookup]
    cases hfind : (context.metrics.filter (·.isRevenue)).reverse.find? fun other =>
        other.metricType = metric.metricType with
    | none =>
        rw [List.find?_eq_none] at hfind
        exact absurd (hfind metric hmem) (by simp)
    | some found =>
        have hfound := List.mem_reverse.1 (List.mem_of_find?_eq_some hfind)
        rw [List.mem_filter] at hfound
        rw [Option.map_some, hvalues found hfound.1 metric hmetric hfound.2 hrevenue]

end Equal

/-! ### The last row -/

/-- Any recorded revenue can come last, and then it is the latest one of the health engine. -/
lemma latestRevenue_last {metric : MetricPoint} (hmetric : metric ∈ context.metrics)
    (hrevenue : metric.isRevenue) :
    ∃ context', Reordered context context' ∧ latestRevenue context' = metric.value := by
  refine ⟨{ context with metrics := context.metrics.erase metric ++ [metric] },
    ⟨rfl, rfl, rfl, rfl, rfl, .refl _, ?_, .refl _, .refl _, .refl _⟩, ?_⟩
  · exact (List.perm_append_singleton metric _).trans (List.perm_cons_erase hmetric).symm
  · simp [latestRevenue, revenueValues, List.filter_append, hrevenue]

/-- Some recorded revenue has the greatest end of its period. -/
lemma exists_latest {metrics : List MetricPoint} {metric : MetricPoint} (hmetric : metric ∈ metrics)
    (hrevenue : metric.isRevenue) :
    ∃ latest ∈ metrics, latest.isRevenue ∧
      ∀ other ∈ metrics, other.isRevenue → other.periodEnd ≤ latest.periodEnd := by
  obtain ⟨latest, hlatest, hgreatest⟩ :=
    (metrics.filter (·.isRevenue)).toFinset.exists_max_image MetricPoint.periodEnd
      ⟨metric, by simpa using ⟨hmetric, hrevenue⟩⟩
  have hmem := List.mem_filter.1 (List.mem_toFinset.1 hlatest)
  exact ⟨latest, hmem.1, hmem.2, fun other hother hother' =>
    hgreatest other (by simpa using ⟨hother, hother'⟩)⟩

/-- **Order of the rows**: with distinct period ends, the figures are independent of the order of the
rows, with the latest revenue the one of the greatest period end, exactly when all the recorded
revenues are equal. -/
theorem rowOrder_iff (hdistinct : (context.metrics.map MetricPoint.periodEnd).Nodup) :
    RowOrderIndependent round context ↔
      ∀ metric ∈ context.metrics, ∀ other ∈ context.metrics, metric.isRevenue → other.isRevenue →
        metric.value = other.value := by
  constructor
  · intro hindependent metric hmetric other hother hrevenue hrevenue'
    obtain ⟨latest, hlatest, hlatestRevenue, hgreatest⟩ := exists_latest hmetric hrevenue
    -- whichever comes last has to be the latest by its period
    have hvalue : ∀ metric ∈ context.metrics, metric.isRevenue → metric.value = latest.value := by
      intro metric hmetric hrevenue
      obtain ⟨context', hreordered, hlast⟩ := latestRevenue_last hmetric hrevenue
      rw [← hlast]
      refine (hindependent context' hreordered).2.health latest
        (hreordered.metrics.mem_iff.2 hlatest) hlatestRevenue fun other hother => ?_
      exact hgreatest other (hreordered.metrics.mem_iff.1 hother)
    rw [hvalue metric hmetric hrevenue, hvalue other hother hrevenue']
  · intro hvalues context' h
    have hvalues' : ∀ metric ∈ context'.metrics, ∀ other ∈ context'.metrics, metric.isRevenue →
        other.isRevenue → metric.value = other.value := fun metric hmetric other hother =>
      hvalues metric (h.metrics.mem_iff.1 hmetric) other (h.metrics.mem_iff.1 hother)
    exact ⟨⟨computeKpis_reordered hvalues h, computeRevenue_reordered hdistinct h,
      computeHealth_reordered hvalues h, computeTrends_reordered hvalues h,
      computeForecast_reordered hdistinct h⟩, latestByPeriodEnd hvalues'⟩

/-- An organization with two metrics and nothing else. -/
def recorded (metrics : List MetricPoint) : GrowthContext where
  organizationId := 1
  periodStart := 0
  periodEnd := 100
  stages := []
  leads := []
  metrics := metrics
  attempts := []
  tasks := []
  activity := []
  healthWeights := []

def january (value : ℚ) : MetricPoint := ⟨"revenue", 0, 31, value⟩

def february (value : ℚ) : MetricPoint := ⟨"revenue", 31, 59, value⟩

/-- A revenue of 100 and then one of 50: read in the other order the health score is higher. -/
theorem rowOrder_counts : ((recorded [january 100, february 50]).metrics.map
      MetricPoint.periodEnd).Nodup ∧
    ¬ RowOrderIndependent exact (recorded [january 100, february 50]) := by
  refine ⟨by decide, fun hindependent => ?_⟩
  have hreordered : Reordered (recorded [january 100, february 50])
      (recorded [february 50, january 100]) :=
    ⟨rfl, rfl, rfl, rfl, rfl, .refl _, .swap _ _ _, .refl _, .refl _, .refl _⟩
  have hscore := congrArg Health.score (hindependent _ hreordered).1.health
  exact absurd hscore (by decide +kernel)

theorem rowOrder_steady : RowOrderIndependent exact (recorded [january 100, february 100]) := by
  refine (rowOrder_iff (by decide)).2 ?_
  decide +kernel

end Growth
