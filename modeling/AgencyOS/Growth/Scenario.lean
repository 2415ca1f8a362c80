import AgencyOS.Growth.Weighted
import Mathlib.Tactic

/-!
What-if scenarios.

The engine projects the closed deals of a period as the leads times a conversion rate times a win
rate, each times a delta of the caller.  Both rates are the share of the won leads among the decided
ones, and neither is bounded after its delta.

* `applyDeltas`: the engine;
* `ScenarioSound`: what is promised of a projection;
* `scenarioSound_iff`: **the promise is kept exactly if the decided leads have the share of all leads
  that the won ones have of them, or none is won, and if no delta takes its rate past one**;
* `not_scenarioSound_lost`: a won lead and a lost one.
-/

namespace Growth

open Python

/-! ### The engine -/

/-- The `params` of a scenario: numbers, or `None`. -/
abbrev Params := Dict String (Option ℚ)

def deltaKeys : List String :=
  ["new_leads_delta", "conversion_delta", "win_rate_delta", "avg_deal_value_delta"]

def defaultDeltas : Params := Dict.ofItems (deltaKeys.map fun key => (key, some 1))

/-- `{**_DEFAULT_DELTAS, **params}`. -/
def withDefaults (params : Params) : Params := params ∪ defaultDeltas

/-- `_decimal`. -/
def decimal (value : Option ℚ) : ℚ := value.getD 1

inductive ScenarioError where
  | typeError
  deriving DecidableEq, Repr

/-- `float(value)`. -/
def float : Option ℚ → Except ScenarioError ℚ
  | some value => .ok value
  | none => .error .typeError

structure Baseline where
  leads : ℕ
  conversionRate : ℚ
  winRate : ℚ
  avgDealValue : ℚ

structure Projected where
  leads : ℚ
  conversionRate : ℚ
  winRate : ℚ
  avgDealValue : ℚ
  closedDeals : ℚ
  revenue : ℚ

structure Outcome where
  params : Params
  baseline : Baseline
  projected : Projected

section Engine

variable (round : ℚ → ℕ → ℚ) (context : GrowthContext)

/-- `_funnel_conversion`. -/
def funnelConversion : ℚ :=
  let decided := context.leads.filter fun lead => lead.status = "won" || lead.status = "lost"
  let won := decided.countP (·.status = "won")
  if decided.length = 0 then 0 else won / decided.length

/-- `_historical_win_rate`. -/
def historicalWinRate : ℚ :=
  let decided := context.leads.filter fun lead => lead.status = "won" || lead.status = "lost"
  let won := decided.countP (·.status = "won")
  if decided.length = 0 then 0 else won / decided.length

/-- `_historical_avg_deal_value`. -/
def historicalAvgDealValue : ℚ :=
  let values := context.leads.filterMap (·.dealValue)
  if values = [] then 0 else mean values

/-- `apply_deltas`. -/
def applyDeltas (params : Params) : Except ScenarioError Outcome := do
  let deltas := withDefaults params
  let leadsCount := context.leads.length
  let projectedLeads := max 0 (leadsCount * decimal (deltas.getD "new_leads_delta" none))
  let projectedConversion :=
    funnelConversion context * (← float (deltas.getD "conversion_delta" none))
  let projectedWinRate := historicalWinRate context * (← float (deltas.getD "win_rate_delta" none))
  let projectedAvgDeal :=
    historicalAvgDealValue context * (← float (deltas.getD "avg_deal_value_delta" none))
  let closedDeals := projectedLeads * projectedConversion * projectedWinRate
  let revenue := closedDeals * projectedAvgDeal
  pure
    { params := deltas
      baseline :=
        { leads := leadsCount
          conversionRate := round (funnelConversion context) 4
          winRate := round (historicalWinRate context) 4
          avgDealValue := round (historicalAvgDealValue context) 2 }
      projected :=
        { leads := round projectedLeads 2
          conversionRate := round projectedConversion 4
          winRate := round projectedWinRate 4
          avgDealValue := round projectedAvgDeal 2
          closedDeals := round closedDeals 2
          revenue := round revenue 2 } }

end Engine

/-! ### What is promised of a projection -/

/-- Each delta, given or by default, is a number with a property. -/
def Deltas (p : ℚ → Prop) (params : Params) : Prop :=
  ∀ key ∈ deltaKeys, ∃ delta, (withDefaults params).lookup key = some (some delta) ∧ p delta

def wonLeads (context : GrowthContext) : ℕ := context.leads.countP (·.status = "won")

def decidedLeads (context : GrowthContext) : ℕ :=
  context.leads.countP fun lead => lead.status = "won" || lead.status = "lost"

/-- **What is promised of a projection**, before it is rounded: deltas of one reproduce the won
leads, and the rates are rates. -/
structure ScenarioSound (context : GrowthContext) (params : Params) : Prop where
  anchored : ∀ unchanged, Deltas (· = 1) unchanged → ∃ outcome,
    applyDeltas exact context unchanged = .ok outcome
      ∧ outcome.projected.closedDeals = wonLeads context
  bounded : ∃ outcome, applyDeltas exact context params = .ok outcome
    ∧ outcome.projected.conversionRate ∈ Set.Icc 0 1
    ∧ outcome.projected.winRate ∈ Set.Icc 0 1
    ∧ outcome.projected.closedDeals ≤ outcome.projected.leads

/-- The delta for a key. -/
def delta (params : Params) (key : String) : ℚ := decimal ((withDefaults params).getD key none)

/-- **The condition** on the leads: none is won, or the decided ones have the same share of all leads
as the won ones have of the decided ones. -/
def Anchored (context : GrowthContext) : Prop :=
  wonLeads context = 0
    ∨ context.leads.length * wonLeads context = decidedLeads context * decidedLeads context

instance (context : GrowthContext) : Decidable (Anchored context) :=
  inferInstanceAs (Decidable (_ ∨ _))

/-- **The condition** on a delta: it does not take the share of the won leads past one. -/
def WithinOne (context : GrowthContext) (params : Params) (key : String) : Prop :=
  wonLeads context * delta params key ≤ decidedLeads context

/-! ### The rates -/

variable {context : GrowthContext} {params : Params}

lemma wonLeads_le (context : GrowthContext) : wonLeads context ≤ decidedLeads context :=
  List.countP_mono_left fun lead _ hwon => by simp_all

/-- The share of the won leads among the decided ones, 0 if none is decided. -/
lemma historicalWinRate_eq (context : GrowthContext) :
    historicalWinRate context = wonLeads context / decidedLeads context := by
  have hlength : (context.leads.filter fun lead =>
      lead.status = "won" || lead.status = "lost").length = decidedLeads context :=
    (List.countP_eq_length_filter ..).symm
  have hwon : (context.leads.filter fun lead =>
      lead.status = "won" || lead.status = "lost").countP (·.status = "won") = wonLeads context := by
    rw [List.countP_filter, wonLeads]
    refine List.countP_congr fun lead _ => ?_
    simp only [Bool.and_eq_true, Bool.or_eq_true, decide_eq_true_eq]
    exact ⟨fun h => h.1, fun h => ⟨h, .inl h⟩⟩
  rw [historicalWinRate, hlength, hwon]
  split_ifs with hzero
  · rw [hzero, Nat.cast_zero, div_zero]
  · rfl

/-- The two rates are one. -/
lemma funnelConversion_eq (context : GrowthContext) :
    funnelConversion context = historicalWinRate context := rfl

lemma historicalWinRate_nonneg (context : GrowthContext) : 0 ≤ historicalWinRate context := by
  rw [historicalWinRate_eq]
  positivity

lemma rate_le_one_iff {δ : ℚ} :
    historicalWinRate context * δ ≤ 1 ↔ wonLeads context * δ ≤ decidedLeads context := by
  have hle := wonLeads_le context
  rw [historicalWinRate_eq]
  rcases Nat.eq_zero_or_pos (decidedLeads context) with hzero | hpos
  · have hwon : wonLeads context = 0 := by omega
    simp [hzero, hwon]
  · rw [div_mul_eq_mul_div, div_le_one (by exact_mod_cast hpos)]

/-- The leads times both rates are the won leads exactly if the leads are anchored. -/
lemma leads_mul_rates_iff :
    context.leads.length * historicalWinRate context * historicalWinRate context = wonLeads context
      ↔ Anchored context := by
  have hle := wonLeads_le context
  rw [historicalWinRate_eq, Anchored]
  rcases Nat.eq_zero_or_pos (wonLeads context) with hzero | hpos
  · simp [hzero]
  · have hwon : (wonLeads context : ℚ) ≠ 0 := by exact_mod_cast hpos.ne'
    have hdecided : (decidedLeads context : ℚ) ≠ 0 := by
      have : decidedLeads context ≠ 0 := by omega
      exact_mod_cast this
    rw [or_iff_right hpos.ne']
    constructor
    · intro h
      field_simp at h
      exact_mod_cast (by linarith : (context.leads.length : ℚ) * wonLeads context
        = decidedLeads context * decidedLeads context)
    · intro h
      have hq : (context.leads.length : ℚ) * wonLeads context
          = decidedLeads context * decidedLeads context := by exact_mod_cast h
      field_simp
      linarith

/-! ### The projection -/

lemma float_delta {p : ℚ → Prop} (h : Deltas p params) (key : String) (hkey : key ∈ deltaKeys) :
    float ((withDefaults params).getD key none) = .ok (delta params key) ∧ p (delta params key) := by
  obtain ⟨δ, hlookup, hp⟩ := h key hkey
  have hget : (withDefaults params).getD key none = some δ := by
    rw [Dict.getD, hlookup, Option.getD_some]
  have hdelta : delta params key = δ := by
    rw [delta, hget]
    rfl
  rw [hget, hdelta]
  exact ⟨rfl, hp⟩

variable (context) in
/-- What is projected from deltas that are numbers. -/
lemma applyDeltas_eq {p : ℚ → Prop} (h : Deltas p params) :
    ∃ outcome, applyDeltas exact context params = .ok outcome
      ∧ outcome.projected.leads = max 0 (context.leads.length * delta params "new_leads_delta")
      ∧ outcome.projected.conversionRate
          = historicalWinRate context * delta params "conversion_delta"
      ∧ outcome.projected.winRate = historicalWinRate context * delta params "win_rate_delta"
      ∧ outcome.projected.closedDeals = outcome.projected.leads * outcome.projected.conversionRate
          * outcome.projected.winRate := by
  have hconversion := (float_delta h "conversion_delta" (by simp [deltaKeys])).1
  have hwin := (float_delta h "win_rate_delta" (by simp [deltaKeys])).1
  have hdeal := (float_delta h "avg_deal_value_delta" (by simp [deltaKeys])).1
  rw [applyDeltas]
  dsimp only
  rw [hconversion, hwin, hdeal, funnelConversion_eq]
  exact ⟨_, rfl, rfl, rfl, rfl, rfl⟩

/-- By default the deltas are one. -/
lemma deltas_empty {p : ℚ → Prop} (hp : p 1) : Deltas p ∅ := by
  intro key hkey
  refine ⟨1, ?_, hp⟩
  rw [withDefaults, Finmap.empty_union, defaultDeltas]
  exact Dict.lookup_ofItems_of_mem (by decide) (List.mem_map_of_mem hkey)

variable (context) in
/-- With deltas of one, the closed deals are the leads times both rates. -/
lemma closedDeals_of_one (h : Deltas (· = 1) params) :
    ∃ outcome, applyDeltas exact context params = .ok outcome
      ∧ outcome.projected.closedDeals
          = context.leads.length * historicalWinRate context * historicalWinRate context := by
  obtain ⟨outcome, hok, hleads, hconversion, hwin, hclosed⟩ := applyDeltas_eq context h
  refine ⟨outcome, hok, ?_⟩
  have hleads' := (float_delta h "new_leads_delta" (by simp [deltaKeys])).2
  have hconversion' := (float_delta h "conversion_delta" (by simp [deltaKeys])).2
  have hwin' := (float_delta h "win_rate_delta" (by simp [deltaKeys])).2
  rw [hclosed, hleads, hconversion, hwin, hleads', hconversion', hwin', mul_one, mul_one,
    max_eq_right (Nat.cast_nonneg _)]

/-- Only anchored leads are reproduced. -/
lemma ScenarioSound.leads_anchored (h : ScenarioSound context params) : Anchored context := by
  obtain ⟨outcome, hok, heq⟩ := closedDeals_of_one context (deltas_empty rfl)
  obtain ⟨outcome', hok', hwon⟩ := h.anchored ∅ (deltas_empty rfl)
  cases hok.symm.trans hok'
  exact leads_mul_rates_iff.1 (heq.symm.trans hwon)

/-- **A projection is sound exactly if the leads are anchored and neither rate passes one.** -/
theorem scenarioSound_iff (h : Deltas (0 ≤ ·) params) :
    ScenarioSound context params ↔
      Anchored context ∧ WithinOne context params "conversion_delta"
        ∧ WithinOne context params "win_rate_delta" := by
  have hconversion' := (float_delta h "conversion_delta" (by simp [deltaKeys])).2
  have hwin' := (float_delta h "win_rate_delta" (by simp [deltaKeys])).2
  have hrate := historicalWinRate_nonneg context
  obtain ⟨outcome, hok, hleads, hconversion, hwin, hclosed⟩ := applyDeltas_eq context h
  constructor
  · intro hsound
    obtain ⟨outcome', hok', hconversionRate, hwinRate, -⟩ := hsound.bounded
    cases hok.symm.trans hok'
    rw [hconversion] at hconversionRate
    rw [hwin] at hwinRate
    exact ⟨hsound.leads_anchored, rate_le_one_iff.1 hconversionRate.2,
      rate_le_one_iff.1 hwinRate.2⟩
  · rintro ⟨hanchored, hconversionOne, hwinOne⟩
    refine ⟨fun unchanged hunchanged => ?_, outcome, hok, ?_, ?_, ?_⟩
    · obtain ⟨outcome', hok', heq⟩ := closedDeals_of_one context hunchanged
      exact ⟨outcome', hok', heq.trans (leads_mul_rates_iff.2 hanchored)⟩
    · rw [hconversion]
      exact ⟨mul_nonneg hrate hconversion', rate_le_one_iff.2 hconversionOne⟩
    · rw [hwin]
      exact ⟨mul_nonneg hrate hwin', rate_le_one_iff.2 hwinOne⟩
    · have hleadsNonneg : 0 ≤ outcome.projected.leads := hleads ▸ le_max_left _ _
      have hconversionOne' := rate_le_one_iff.2 hconversionOne
      have hwinOne' := rate_le_one_iff.2 hwinOne
      calc outcome.projected.closedDeals
          = outcome.projected.leads * outcome.projected.conversionRate
              * outcome.projected.winRate := hclosed
        _ ≤ outcome.projected.leads * outcome.projected.conversionRate := by
            rw [hconversion, hwin]
            exact mul_le_of_le_one_right
              (mul_nonneg hleadsNonneg (mul_nonneg hrate hconversion')) hwinOne'
        _ ≤ outcome.projected.leads := by
            rw [hconversion]
            exact mul_le_of_le_one_right hleadsNonneg hconversionOne'

/-! ### A won lead and a lost one -/

/-- Leads with these statuses and nothing else. -/
def withStatuses (statuses : List String) : GrowthContext where
  organizationId := 1
  periodStart := 0
  periodEnd := 31
  stages := []
  leads := statuses.map fun status => ⟨1, status, none, some 100, none, none, none, none, ""⟩
  metrics := []
  attempts := []
  tasks := []
  activity := []
  healthWeights := []

/-- A single lead that is won is reproduced. -/
theorem scenarioSound_won : ScenarioSound (withStatuses ["won"]) ∅ := by
  have hdelta : ∀ key ∈ deltaKeys, delta ∅ key = 1 := fun key hkey =>
    (float_delta (p := (· = 1)) (deltas_empty rfl) key hkey).2
  have hleads : wonLeads (withStatuses ["won"]) = 1 ∧ decidedLeads (withStatuses ["won"]) = 1 := by
    decide
  refine (scenarioSound_iff (deltas_empty zero_le_one)).2 ⟨by decide, ?_, ?_⟩
  · rw [WithinOne, hdelta _ (by simp [deltaKeys]), hleads.1, hleads.2, mul_one]
  · rw [WithinOne, hdelta _ (by simp [deltaKeys]), hleads.1, hleads.2, mul_one]

/-- Of a won lead and a lost one, half a deal is projected. -/
theorem not_scenarioSound_lost : ¬ ScenarioSound (withStatuses ["won", "lost"]) ∅ := by
  intro h
  have hanchored := h.leads_anchored
  revert hanchored
  decide

end Growth
