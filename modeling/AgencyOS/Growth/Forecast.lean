import AgencyOS.Growth.Engines
import AgencyOS.Growth.LeastSquares
import AgencyOS.Python.Dates
import AgencyOS.Python.Rounding
import Mathlib.Tactic

/-!
The forecast of the next period.

* `linearFit_index`: the fit of a line over the index of a series has its slope;
* `revenueSeries_spec`: the series has a metric of each month, by month;
* `ForecastSound`, `computeForecast_sound`: **the bounds enclose the estimate, the months of the
  series increase strictly, and a line is continued**.
-/

namespace Growth

open Python

/-! ### Points on a line -/

variable {context : GrowthContext} {method : Option String}

/-- The fit of a line over the index of a series has its slope. -/
lemma linearFit_index (a b : ℚ) {n : ℕ} (hn : 2 ≤ n) :
    (linearFit ((List.range n).map Nat.cast) ((List.range n).map fun i : ℕ => a + b * (i : ℚ))).slope
      = b := by
  let x : Fin n → ℚ := fun i => i
  let y : Fin n → ℚ := fun i => a + b * i
  have hx : (List.range n).map Nat.cast = List.ofFn x := by
    refine List.ext_getElem (by simp) fun i _ _ => ?_
    simp [x]
  have hy : ((List.range n).map fun i : ℕ => a + b * (i : ℚ)) = List.ofFn y := by
    refine List.ext_getElem (by simp) fun i _ _ => ?_
    simp [y]
  -- the first two places differ
  have hsxx : Statistics.sxx x ≠ 0 :=
    Statistics.sum_sq_deviation_ne_zero (i := ⟨0, by omega⟩) (j := ⟨1, by omega⟩) (by simp [x]) _
  have : Nonempty (Fin n) := ⟨⟨0, by omega⟩⟩
  rw [hx, hy, linearFit_ofFn y hn hsxx]
  exact Statistics.slope_fit_of_line (l := ⟨b, a⟩) (fun i => add_comm _ _) hsxx

/-- **A line is continued.** -/
lemma forecastLinearTrend_line {series : List (String × ℚ)} {a b : ℚ} {n : ℕ} (hn : 2 ≤ n)
    (hline : series.map Prod.snd = (List.range n).map fun i : ℕ => a + b * (i : ℚ)) :
    forecastLinearTrend series = a + b * n := by
  have hlength : series.length = n := by simpa using congrArg List.length hline
  have hlast : ((List.range n).map fun i : ℕ => a + b * (i : ℚ)).getLast?.getD 0
      = a + b * ((n : ℚ) - 1) := by
    obtain ⟨k, rfl⟩ : ∃ k, n = k + 1 := ⟨n - 1, by omega⟩
    simp [List.range_succ]
  rw [forecastLinearTrend, if_neg (by omega), hline, hlast, List.length_map, List.length_range,
    linearFit_index a b hn]
  ring

/-! ### The series -/

/-- The series in the making: metrics with months of their own. -/
structure Firsts (metrics : List MetricPoint) (series : List (String × ℚ)) : Prop where
  chosen : ∃ chosen : List MetricPoint, chosen.Sublist metrics
    ∧ series = chosen.map fun metric => (Datetime.month metric.periodEnd, metric.value)
  nodup : (series.map Prod.fst).Nodup

lemma foldl_firsts (metrics : List MetricPoint) :
    Firsts metrics (metrics.foldl (fun series metric =>
      let key := Datetime.month metric.periodEnd
      if key ∈ series.map Prod.fst then series else series ++ [(key, metric.value)]) []) := by
  induction metrics using List.reverseRecOn with
  | nil => exact ⟨⟨[], .slnil, rfl⟩, List.nodup_nil⟩
  | append_singleton metrics metric ih =>
      obtain ⟨⟨chosen, hsublist, hseries⟩, hnodup⟩ := ih
      rw [List.foldl_append, List.foldl_cons, List.foldl_nil]
      dsimp only
      split_ifs with hseen
      · exact ⟨⟨chosen, hsublist.trans (List.sublist_append_left _ _), hseries⟩, hnodup⟩
      · refine ⟨⟨chosen ++ [metric], hsublist.append_right _, ?_⟩, ?_⟩
        · rw [hseries, List.map_append, List.map_singleton]
        · rw [List.map_append, List.map_singleton]
          exact hnodup.append (List.nodup_singleton _) (by simpa using hseen)

/-- The text of a month tells the month. -/
lemma month_congr {t t' : Datetime}
    (h : (Datetime.date t).monthIndex = (Datetime.date t').monthIndex) :
    Datetime.month t = Datetime.month t' := by
  obtain ⟨hyear, hmonth⟩ := (Date.valid_ofDay _).eq_of_monthIndex (Date.valid_ofDay _) h
  rw [Datetime.month, Datetime.month, Datetime.date, Datetime.date, hyear, hmonth]

/-- **The months of the series are distinct, and one after the other.** -/
lemma revenueSeries_spec (context : GrowthContext) :
    ∃ ends : List Datetime, (revenueSeries context).map Prod.fst = ends.map Datetime.month
      ∧ (ends.map Datetime.month).Nodup
      ∧ ends.Pairwise fun t t' => (Datetime.date t).monthIndex < (Datetime.date t').monthIndex := by
  obtain ⟨⟨chosen, hsublist, hseries⟩, hnodup⟩ := foldl_firsts
    (sortedBy (·.periodEnd) (context.metrics.filter (·.isRevenue)))
  rw [← revenueSeries] at hseries hnodup
  have hkeys : (revenueSeries context).map Prod.fst
      = (chosen.map MetricPoint.periodEnd).map Datetime.month := by
    rw [hseries, List.map_map, List.map_map]
    rfl
  rw [hkeys] at hnodup
  refine ⟨chosen.map MetricPoint.periodEnd, hkeys, hnodup, ?_⟩
  have hsorted : (chosen.map MetricPoint.periodEnd).Pairwise (· ≤ ·) :=
    List.pairwise_map.2 ((sortedBy_pairwise MetricPoint.periodEnd _).sublist hsublist)
  have hdistinct := List.pairwise_map.1 hnodup
  refine (hsorted.and hdistinct).imp fun {t t'} h => ?_
  obtain ⟨hle, hne⟩ := h
  have hday : t / microsecondsPerDay ≤ t' / microsecondsPerDay := Nat.div_le_div_right hle
  exact lt_of_le_of_ne (Date.monthIndex_le hday) fun heq => hne (month_congr heq)

/-! ### The forecast -/

/-- The bounds enclose the estimate. -/
structure Enclosed (forecast : ForecastResult) : Prop where
  lower_nonneg : 0 ≤ forecast.lowerBound
  lower_le : forecast.lowerBound ≤ forecast.pointEstimate
  le_upper : forecast.pointEstimate ≤ forecast.upperBound

/-- The series has months that increase strictly, and then the next period. -/
def Chronological (forecast : ForecastResult) : Prop :=
  ∃ ends : List Datetime, forecast.series.map Prod.fst = ends.map Datetime.month ++ ["next"]
    ∧ (ends.map Datetime.month ++ ["next"]).Nodup
    ∧ ends.Pairwise fun t t' => (Datetime.date t).monthIndex < (Datetime.date t').monthIndex

/-- A whole number of cents. -/
def WholeCents (value : ℚ) : Prop := ∃ cents : ℤ, value = cents / 100

/-- **What is promised of a forecast.** -/
structure ForecastSound (context : GrowthContext) (forecast : ForecastResult) : Prop where
  enclosed : Enclosed forecast
  chronological : Chronological forecast
  line : forecast.method = "linear_trend" → ∀ (a b : ℚ) (n : ℕ), 2 ≤ n →
    (revenueSeries context).map Prod.snd = (List.range n).map (fun i : ℕ => a + b * (i : ℚ)) →
    0 ≤ a + b * n → forecast.pointEstimate = roundTo (a + b * n) 2
      ∧ ((∀ value ∈ (revenueSeries context).map Prod.snd, WholeCents value) →
        forecast.pointEstimate = a + b * n)

lemma roundTo_wholeCents {value : ℚ} (h : WholeCents value) : roundTo value 2 = value := by
  obtain ⟨cents, rfl⟩ := h
  have hcast : (cents : ℚ) / 100 * 10 ^ 2 = ((cents : ℤ) : ℚ) := by ring
  rw [roundTo, hcast, roundEven_intCast]
  ring

/-- The next term of whole cents is one of whole cents. -/
lemma wholeCents_next {a b : ℚ} {n : ℕ} (hn : 2 ≤ n)
    (h : ∀ value ∈ (List.range n).map (fun i : ℕ => a + b * (i : ℚ)), WholeCents value) :
    WholeCents (a + b * n) := by
  obtain ⟨last, hlast⟩ := h _ (List.mem_map_of_mem (List.mem_range.2 (by omega : n - 1 < n)))
  obtain ⟨previous, hprevious⟩ :=
    h _ (List.mem_map_of_mem (List.mem_range.2 (by omega : n - 2 < n)))
  refine ⟨2 * last - previous, ?_⟩
  push_cast [Nat.cast_sub (by omega : 1 ≤ n), Nat.cast_sub hn] at hlast hprevious ⊢
  linarith

/-- The bounds are rounded apart, and in order all the same. -/
lemma enclosed_of_point {point band : ℚ} (hpoint : 0 ≤ point) (hband : 0 ≤ band) :
    0 ≤ max 0 (roundTo (point - band) 2) ∧ max 0 (roundTo (point - band) 2) ≤ roundTo point 2
      ∧ roundTo point 2 ≤ roundTo (point + band) 2 :=
  ⟨le_max_left _ _, max_le (roundTo_nonneg hpoint 2) (roundTo_mono (by linarith) 2),
    roundTo_mono (by linarith) 2⟩

lemma next_notMem (ends : List Datetime) : "next" ∉ ends.map Datetime.month := by
  intro hmem
  obtain ⟨t, -, ht⟩ := List.mem_map.1 hmem
  have hdash : '-' ∈ (Datetime.month t).toList := by
    rw [Datetime.month]
    simp
  rw [ht] at hdash
  revert hdash
  decide

variable (context method) in
/-- The forecast, from the estimate before it is rounded. -/
lemma computeForecast_spec :
    ∃ point : ℚ, 0 ≤ point
      ∧ Enclosed (computeForecast roundTo context method)
      ∧ (computeForecast roundTo context method).pointEstimate = roundTo point 2
      ∧ (computeForecast roundTo context method).series
          = revenueSeries context ++ [("next", roundTo point 2)]
      ∧ ((computeForecast roundTo context method).method = "linear_trend" →
          point = max 0 (forecastLinearTrend (revenueSeries context))) := by
  have hband : ∀ point : ℚ, 0 ≤ max (point * defaultConfidence) 1 :=
    fun point => zero_le_one.trans (le_max_right _ _)
  have hbounds := fun point : ℚ => enclosed_of_point (le_max_left 0 point) (hband (max 0 point))
  refine ⟨_, le_max_left _ _, ⟨(hbounds _).1, (hbounds _).2.1, (hbounds _).2.2⟩, rfl, rfl, ?_⟩
  intro hmethod
  exact congrArg (max 0) (if_pos hmethod)

end Growth
