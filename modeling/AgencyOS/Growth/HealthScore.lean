import AgencyOS.Growth.Engines
import AgencyOS.Growth.HealthWeights
import AgencyOS.Python.Rounding

/-!
Whether the health score is a score out of 100.

The score is a sum of the dimensions, each between 0 and 1, with the weights that an organization
has saved written over the default ones.  Nothing bounds or normalises what is saved.

* `healthWeightPoints`, `mergedWeights`: the weights of the active version as the engine reads them,
  and the merge with the defaults;
* `composite`, `computeHealth_score`: the blend of the dimensions, and the score as its rounding;
* `HealthSound`: what is promised of the score under a saved version;
* `Balanced`, `healthSound_iff`: **so it is exactly if no merged weight is negative and they add up
  to 1, up to the rounding of the score**;
* `not_healthSound_pipeline`: one weight of 1 among the defaults.
-/

namespace Growth

open Python

/-! ### The weights -/

/-- `_health_weights`: the active versions, one point for each dimension saved. -/
def healthWeightPoints (rows : List GrowthHealthWeight) : List HealthWeightPoint :=
  rows.flatMap fun row => row.weights.map fun (dimension, weight) => ⟨dimension, weight, 0⟩

/-- The weights of a version over the default ones. -/
def mergedWeights (row : GrowthHealthWeight) : Dict String ℚ :=
  Dict.ofItems (defaultWeights ++ row.weights)

def dimensionNames : List String := defaultWeights.map Prod.fst

lemma nodup_dimensionNames : dimensionNames.Nodup := by decide

variable {row : GrowthHealthWeight} {context : GrowthContext}

lemma effectiveWeights_of_row (h : context.healthWeights = healthWeightPoints [row]) :
    effectiveWeights context = mergedWeights row := by
  have hmap : (healthWeightPoints [row]).map (fun weight => (weight.dimension, weight.weight))
      = row.weights := by
    rw [healthWeightPoints, List.flatMap_cons, List.flatMap_nil, List.append_nil, List.map_map]
    exact List.map_id _
  rw [effectiveWeights, h, hmap, mergedWeights]

/-! ### The composite -/

/-- The blend of the dimensions before it is rounded. -/
def composite (weights : Dict String ℚ) (values : List (String × ℚ)) : ℚ :=
  (values.map fun (name, value) => clamp value * weights.getD name 0).sum

/-- The values of the built-in dimensions. -/
def named (values : String → ℚ) : List (String × ℚ) :=
  dimensionNames.map fun name => (name, values name)

/-- The dimensions of a snapshot, with their values. -/
def dimensionValues (context : GrowthContext) : List (String × ℚ) :=
  (dimensions context).map fun dimension => (dimension.1, dimension.2.1)

lemma map_fst_dimensionValues (context : GrowthContext) :
    (dimensionValues context).map Prod.fst = dimensionNames := by
  simp only [dimensionValues, dimensions, dimensionNames, defaultWeights, List.map_cons,
    List.map_nil]

/-- The score is the composite of the dimensions, out of 100 and rounded. -/
theorem computeHealth_score (round : ℚ → ℕ → ℚ) (context : GrowthContext) :
    (computeHealth round context).score
      = round (composite (effectiveWeights context) (dimensionValues context) * 100) 1 := by
  have hvalues : (dimensionValues context).map
        (fun v => clamp v.2 * (effectiveWeights context).getD v.1 0)
      = (dimensions context).map fun dimension =>
        clamp dimension.2.1 * (effectiveWeights context).getD dimension.1 0 :=
    List.map_map
  have hcomposite : composite (effectiveWeights context) (dimensionValues context)
      = ((dimensions context).map fun dimension =>
        clamp dimension.2.1 * (effectiveWeights context).getD dimension.1 0).sum :=
    congrArg List.sum hvalues
  rw [hcomposite, computeHealth]

lemma clamp_mem_unit (value : ℚ) : 0 ≤ clamp value ∧ clamp value ≤ 1 :=
  ⟨le_max_left _ _, max_le zero_le_one (min_le_left _ _)⟩

lemma clamp_mono {value raised : ℚ} (h : value ≤ raised) : clamp value ≤ clamp raised :=
  max_le_max_left _ (min_le_min_left _ h)

/-- Raising one dimension adds what it is raised by, at its weight. -/
lemma composite_update {names : List String} (hn : names.Nodup) (weights : Dict String ℚ)
    (values : String → ℚ) {name : String} (hname : name ∈ names) (raised : ℚ) :
    composite weights (names.map fun n => (n, Function.update values name raised n))
      = composite weights (names.map fun n => (n, values n))
        + (clamp raised - clamp (values name)) * weights.getD name 0 := by
  simp only [composite, List.map_map, Function.comp_def]
  induction names with
  | nil => cases hname
  | cons first names ih =>
      rw [List.nodup_cons] at hn
      rw [List.map_cons, List.sum_cons, List.map_cons, List.sum_cons]
      rcases List.mem_cons.mp hname with rfl | hmem
      · have hrest : names.map (fun n => clamp (Function.update values name raised n)
            * weights.getD n 0) = names.map fun n => clamp (values n) * weights.getD n 0 := by
          refine List.map_congr_left fun n hmem => ?_
          rw [Function.update_of_ne]
          rintro rfl
          exact hn.1 hmem
        rw [hrest, Function.update_self]
        ring
      · have hne : first ≠ name := fun heq => hn.1 (heq ▸ hmem)
        rw [ih hn.2 hmem, Function.update_of_ne hne]
        ring

/-- With no negative weight the composite lies between 0 and the sum of the weights. -/
lemma composite_mem {weights : Dict String ℚ} {values : List (String × ℚ)}
    (hweights : ∀ v ∈ values, 0 ≤ weights.getD v.1 0) :
    0 ≤ composite weights values
      ∧ composite weights values ≤ ((values.map Prod.fst).map fun name => weights.getD name 0).sum := by
  induction values with
  | nil => exact ⟨le_rfl, le_rfl⟩
  | cons v values ih =>
      obtain ⟨hlow, hhigh⟩ := ih fun v' hv' => hweights v' (List.mem_cons_of_mem _ hv')
      have hw := hweights v List.mem_cons_self
      obtain ⟨h₀, h₁⟩ := clamp_mem_unit v.2
      have hterm : clamp v.2 * weights.getD v.1 0 ≤ weights.getD v.1 0 := by
        calc clamp v.2 * weights.getD v.1 0
            ≤ 1 * weights.getD v.1 0 := mul_le_mul_of_nonneg_right h₁ hw
          _ = weights.getD v.1 0 := one_mul _
      have hcons : composite weights (v :: values)
          = clamp v.2 * weights.getD v.1 0 + composite weights values := rfl
      rw [hcons]
      refine ⟨add_nonneg (mul_nonneg h₀ hw) hlow, ?_⟩
      simpa using add_le_add hterm hhigh

/-! ### What is promised of the score -/

/-- What is promised of the health score of an organization whose active version is `row`. -/
structure HealthSound (row : GrowthHealthWeight) : Prop where
  score : ∀ context : GrowthContext, context.healthWeights = healthWeightPoints [row] →
    0 ≤ (computeHealth roundTo context).score ∧ (computeHealth roundTo context).score ≤ 100
  dimensions : ∀ context : GrowthContext, context.healthWeights = healthWeightPoints [row] →
    ∀ dimension ∈ (computeHealth roundTo context).dimensions,
      0 ≤ dimension.score ∧ dimension.score ≤ 100
  /-- Raising one dimension while the others are fixed never lowers the composite. -/
  monotone : ∀ context : GrowthContext, context.healthWeights = healthWeightPoints [row] →
    ∀ (values : String → ℚ) (raised : ℚ), ∀ name ∈ dimensionNames, values name ≤ raised →
      composite (effectiveWeights context) (named values)
        ≤ composite (effectiveWeights context) (named (Function.update values name raised))

/-- **The condition**: no merged weight of a dimension is negative, and they add up to at most 1,
where the score is rounded to one decimal. -/
def Balanced (row : GrowthHealthWeight) : Prop :=
  (∀ name ∈ dimensionNames, 0 ≤ (mergedWeights row).getD name 0)
    ∧ (dimensionNames.map fun name => (mergedWeights row).getD name 0).sum ≤ 1 + 5 / 10000

instance (row : GrowthHealthWeight) : Decidable (Balanced row) :=
  inferInstanceAs (Decidable (_ ∧ _))

/-- A score out of 100 is rounded to one exactly if it does not exceed it by more than half a
decimal. -/
lemma roundTo_le_hundred {q : ℚ} : roundTo (q * 100) 1 ≤ 100 ↔ q ≤ 1 + 5 / 10000 := by
  have h : roundTo (q * 100) 1 ≤ ((100 : ℤ) : ℚ)
      ↔ q * 100 * 10 ^ 1 ≤ ((100 : ℤ) : ℚ) * 10 ^ 1 + 1 / 2 := roundTo_le_iff (by norm_num)
  rw [Int.cast_ofNat] at h
  rw [h]
  constructor <;> intro h' <;> linarith

/-! ### The condition is enough -/

lemma score_mem (hrow : context.healthWeights = healthWeightPoints [row]) (h : Balanced row) :
    0 ≤ (computeHealth roundTo context).score ∧ (computeHealth roundTo context).score ≤ 100 := by
  have hnames : ∀ v ∈ dimensionValues context, v.1 ∈ dimensionNames := fun v hv =>
    map_fst_dimensionValues context ▸ List.mem_map_of_mem hv
  obtain ⟨hlow, hhigh⟩ := @composite_mem (mergedWeights row) (dimensionValues context)
    fun v hv => h.1 v.1 (hnames v hv)
  rw [map_fst_dimensionValues] at hhigh
  rw [computeHealth_score, effectiveWeights_of_row hrow]
  exact ⟨roundTo_nonneg (mul_nonneg hlow (by norm_num)) 1, roundTo_le_hundred.mpr (hhigh.trans h.2)⟩

/-- Every dimension is a score out of 100, whatever the weights. -/
lemma dimension_mem (context : GrowthContext) :
    ∀ dimension ∈ (computeHealth roundTo context).dimensions,
      0 ≤ dimension.score ∧ dimension.score ≤ 100 := by
  intro dimension hmem
  obtain ⟨⟨name, value, label⟩, -, rfl⟩ := List.mem_map.mp hmem
  obtain ⟨h₀, h₁⟩ := clamp_mem_unit value
  exact ⟨roundTo_nonneg (mul_nonneg h₀ (by norm_num)) 1, roundTo_le_hundred.mpr (by linarith)⟩

lemma composite_le_update {weights : Dict String ℚ} {values : String → ℚ} {raised : ℚ}
    {name : String} (hname : name ∈ dimensionNames) (hweight : 0 ≤ weights.getD name 0)
    (hle : values name ≤ raised) :
    composite weights (named values)
      ≤ composite weights (named (Function.update values name raised)) := by
  rw [named, named, composite_update nodup_dimensionNames weights values hname raised]
  have hraised : 0 ≤ clamp raised - clamp (values name) := sub_nonneg.mpr (clamp_mono hle)
  linarith [mul_nonneg hraised hweight]

lemma healthSound_of_balanced (h : Balanced row) : HealthSound row where
  score := fun _ hrow => score_mem hrow h
  dimensions := fun context _ => dimension_mem context
  monotone := by
    intro context hrow values raised name hname hle
    rw [effectiveWeights_of_row hrow]
    exact composite_le_update hname (h.1 name hname) hle

/-! ### The condition is needed -/

/-- A snapshot in which every dimension is at its best: a lead on an open stage worth what was last
recorded, a won lead and an attempt. -/
def bestSnapshot (points : List HealthWeightPoint) : GrowthContext where
  organizationId := 1
  periodStart := 0
  periodEnd := 31
  stages := [⟨1, "Proposal", 0, "open"⟩]
  leads := [⟨1, "proposal_sent", some 1, some 200, none, none, none, none, "Open"⟩,
    ⟨2, "won", none, none, none, none, none, none, "Won"⟩]
  metrics := [⟨"revenue", 0, 31, 100⟩]
  attempts := [⟨"sent", "email", 0⟩]
  tasks := []
  activity := []
  healthWeights := points

lemma dimensionValues_bestSnapshot (points : List HealthWeightPoint) :
    dimensionValues (bestSnapshot points) = named fun _ => 1 := by
  have hsame : dimensionValues (bestSnapshot points) = dimensionValues (bestSnapshot []) := rfl
  rw [hsame]
  decide +kernel

lemma composite_best (weights : Dict String ℚ) :
    composite weights (named fun _ => 1)
      = (dimensionNames.map fun name => weights.getD name 0).sum := by
  have hone : clamp 1 = 1 := by norm_num [clamp]
  rw [composite, named, List.map_map]
  simp only [Function.comp_def, hone, one_mul]

lemma balanced_of_healthSound (h : HealthSound row) : Balanced row := by
  constructor
  · intro name hname
    have hraise := h.monotone (bestSnapshot (healthWeightPoints [row])) rfl (fun _ => 0) 1 name hname
      zero_le_one
    have hclamp : clamp 1 - clamp 0 = 1 := by norm_num [clamp]
    rw [effectiveWeights_of_row rfl, named, named,
      composite_update nodup_dimensionNames _ _ hname, hclamp] at hraise
    linarith
  · have hscore := (h.score (bestSnapshot (healthWeightPoints [row])) rfl).2
    rw [computeHealth_score, effectiveWeights_of_row rfl, dimensionValues_bestSnapshot,
      composite_best] at hscore
    exact roundTo_le_hundred.mp hscore

/-- **The health score is a score out of 100 that no better dimension lowers exactly if the merged
weights are balanced.** -/
theorem healthSound_iff (row : GrowthHealthWeight) : HealthSound row ↔ Balanced row :=
  ⟨balanced_of_healthSound, healthSound_of_balanced⟩

/-! ### One weight of an organization -/

/-- The first version of an organization that weighs its pipeline only. -/
def pipelineOnly : GrowthHealthWeight where
  organizationId := 1
  version := 1
  weights := [("pipeline_health", 1)]
  isActive := true
  createdByUserId := none

/-- The other defaults stay beside the weight of 1, and the score exceeds 100. -/
theorem not_healthSound_pipeline : ¬ HealthSound pipelineOnly := fun h =>
  absurd (balanced_of_healthSound h) (by decide +kernel)

end Growth
