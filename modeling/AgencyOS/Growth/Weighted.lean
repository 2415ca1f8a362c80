import AgencyOS.Growth.Engines

/-!
The weighted value of the open pipeline, in exact arithmetic.

Five engines compute it with five loops.  With distinct stage ids each of them finds, for a lead in
an open stage, the position of that stage, and so each adds the same terms up.

* `weightedValue`: the deal values of the open leads, each times the odds of its stage;
* `stage_of_lead`: what the scans and the dictionaries of the engines find for a lead;
* `pipelineRows_lookup`: the rows of the pipeline engine, stage by stage;
* `weighted_value_agrees`: the agreement, the rows and the bounds.
-/

namespace Growth

open Python

/-- Results that are not rounded. -/
def exact (value : ℚ) (_ : ℕ) : ℚ := value

variable (context : GrowthContext)

/-- The open stage of a lead. -/
def openStageOf (lead : LeadPoint) : Option StagePoint :=
  (openStages context.stages).find? fun stage => some stage.id = lead.stageId

/-- The deal value of a lead in an open stage, times the odds of the stage. -/
def weightedTerm (lead : LeadPoint) : ℚ :=
  match openStageOf context lead, lead.dealValue with
  | some stage, some dealValue =>
      dealValue * stageWeight stage.position (maxPosition (openStages context.stages))
  | _, _ => 0

/-- The weighted value of the open pipeline. -/
def weightedValue : ℚ := (context.leads.map (weightedTerm context)).sum

/-- The value of the open pipeline. -/
def openValue : ℚ :=
  ((context.leads.filter (·.isIn (openStageIds context))).map fun lead => lead.dealValue.getD 0).sum

/-! ### The stage of a lead -/

section Stages

variable {context} (hids : (context.stages.map StagePoint.id).Nodup)

lemma mem_openStages {stages : List StagePoint} {stage : StagePoint} :
    stage ∈ openStages stages ↔ stage ∈ stages ∧ stage.lifecycle = "open" := by
  simp [openStages]

include hids in
lemma nodup_openStages : ((openStages context.stages).map StagePoint.id).Nodup :=
  hids.sublist ((List.filter_sublist).map _)

lemma find?_stage {stages : List StagePoint} (hn : (stages.map StagePoint.id).Nodup)
    {stage : StagePoint} (hmem : stage ∈ stages) :
    (stages.find? fun other => some other.id = some stage.id) = some stage := by
  cases hfind : stages.find? fun other => some other.id = some stage.id with
  | none =>
      rw [List.find?_eq_none] at hfind
      exact absurd (hfind stage hmem) (by simp)
  | some found =>
      have hid : found.id = stage.id := by simpa using List.find?_some hfind
      rw [List.inj_on_of_nodup_map hn (List.mem_of_find?_eq_some hfind) hmem hid]

lemma positionsOf_getD {stages : List StagePoint} (hn : (stages.map StagePoint.id).Nodup)
    {stage : StagePoint} (hmem : stage ∈ stages) :
    (positionsOf stages).getD stage.id 0 = stage.position := by
  have hkeys : ((stages.map fun stage => (stage.id, stage.position)).map Prod.fst).Nodup := by
    simpa [List.map_map, Function.comp_def] using hn
  have hlookup : (positionsOf stages).lookup stage.id = some stage.position :=
    Dict.lookup_ofItems_of_mem hkeys (List.mem_map_of_mem hmem)
  rw [Dict.getD, hlookup, Option.getD_some]

/-- A lead is in no open stage, or all the engines find the open stage it is in. -/
lemma stage_of_lead (context : GrowthContext) (lead : LeadPoint) :
    (lead.isIn (openStageIds context) = false ∧ openStageOf context lead = none) ∨
    ∃ stage ∈ openStages context.stages, lead.stageId = some stage.id ∧
      lead.isIn (openStageIds context) = true ∧ openStageOf context lead = some stage := by
  cases hstage : openStageOf context lead with
  | none =>
      refine Or.inl ⟨?_, rfl⟩
      rw [openStageOf, List.find?_eq_none] at hstage
      rw [LeadPoint.isIn, Option.any_eq_false]
      intro id hid
      simp only [openStageIds, List.mem_toFinset, List.mem_map, decide_eq_false_iff_not]
      rintro ⟨stage, hmem, rfl⟩
      exact hstage stage hmem (by simp [hid])
  | some stage =>
      have hmem : stage ∈ openStages context.stages := List.mem_of_find?_eq_some hstage
      have hid : lead.stageId = some stage.id := by
        simpa [eq_comm] using List.find?_some hstage
      refine Or.inr ⟨stage, hmem, hid, ?_, rfl⟩
      simpa [LeadPoint.isIn, hid, openStageIds] using ⟨stage, hmem, rfl⟩

lemma weightedTerm_of_stage {lead : LeadPoint} {stage : StagePoint}
    (hstage : openStageOf context lead = some stage) :
    weightedTerm context lead
      = lead.dealValue.getD 0 * stageWeight stage.position (maxPosition (openStages context.stages)) := by
  rw [weightedTerm, hstage]
  cases lead.dealValue <;> simp

/-- An engine computes the weighted value when it adds up, over the open leads, the deal value times
the odds of the stage. -/
lemma sum_openLeads {context : GrowthContext} {f : LeadPoint → ℚ}
    (hf : ∀ lead, ∀ stage ∈ openStages context.stages, lead.stageId = some stage.id →
      f lead = lead.dealValue.getD 0 *
        stageWeight stage.position (maxPosition (openStages context.stages))) :
    ((context.leads.filter (·.isIn (openStageIds context))).map f).sum = weightedValue context := by
  rw [sum_map_filter, weightedValue]
  refine congrArg List.sum (List.map_congr_left fun lead _ => ?_)
  rcases stage_of_lead context lead with ⟨hin, hnone⟩ | ⟨stage, hmem, hid, hin, hstage⟩
  · simp [hin, weightedTerm, hnone]
  · rw [if_pos hin, hf lead stage hmem hid, weightedTerm_of_stage hstage]

end Stages

/-! ### The engines -/

/-- The loops add up one term a lead. -/
lemma kpisWeightedValue_eq (leads : List LeadPoint) :
    kpisWeightedValue context leads
      = (leads.map fun lead => lead.dealValue.getD 0 * stageWeight (((context.stages.find? fun stage =>
          some stage.id = lead.stageId).map StagePoint.position).getD 0)
            (maxPosition (openStages context.stages))).sum := by
  rw [kpisWeightedValue, foldl_add_eq_sum, zero_add]
  intro total lead
  cases lead.dealValue <;> simp

lemma forecastPipelineWeighted_eq (round : ℚ → ℕ → ℚ) :
    forecastPipelineWeighted round context
      = round ((context.leads.filter (·.isIn (openStageIds context))).map fun lead =>
          lead.dealValue.getD 0 * stageWeight ((positionsOf context.stages).getD
            (lead.stageId.getD 0) 0) (maxPosition (openStages context.stages))).sum 2 := by
  rw [forecastPipelineWeighted, sum_map_filter, foldl_add_eq_sum, zero_add]
  intro total lead
  cases hid : lead.stageId with
  | none => simp [LeadPoint.isIn, hid]
  | some stageId =>
      by_cases hopen : stageId ∈ openStageIds context <;>
        cases lead.dealValue <;> simp [LeadPoint.isIn, hid, hopen]

section Engines

variable {context} (hids : (context.stages.map StagePoint.id).Nodup)

include hids

lemma kpis_weighted : (computeKpis exact context).weightedPipelineValue = weightedValue context := by
  change kpisWeightedValue context _ = _
  rw [kpisWeightedValue_eq]
  refine sum_openLeads fun lead stage hmem hid => ?_
  rw [hid, find?_stage hids (mem_openStages.1 hmem).1, Option.map_some, Option.getD_some]

lemma revenue_weighted :
    (computeRevenue exact context).weightedPipelineValue = weightedValue context := by
  change sumDecimal _ = _
  rw [sumDecimal_eq, List.map_map, ← sum_openLeads (f := fun lead => lead.dealValue.getD 0 *
    stageWeight (positionOf context lead) (maxPosition (openStages context.stages)))]
  · rw [sum_map_filter]
    refine congrArg List.sum (List.map_congr_left fun lead _ => ?_)
    cases hvalue : lead.dealValue <;> simp [hvalue]
  · intro lead stage hmem hid
    rw [positionOf, hid, find?_stage hids (mem_openStages.1 hmem).1]

lemma forecast_weighted : forecastPipelineWeighted exact context = weightedValue context := by
  rw [forecastPipelineWeighted_eq, exact]
  refine sum_openLeads fun lead stage hmem hid => ?_
  rw [hid, Option.getD_some, positionsOf_getD hids (mem_openStages.1 hmem).1]

lemma health_weighted : weightedOpen context = weightedValue context := by
  have hopen : (OrderedDict.ofItems
      ((openStages context.stages).map fun stage => (stage.id, stage))).items.map Prod.snd
        = openStages context.stages := by
    rw [OrderedDict.items_ofItems]
    · simp [List.map_map, Function.comp_def]
    · simpa [List.map_map, Function.comp_def] using nodup_openStages hids
  rw [weightedOpen, hopen, ← sum_openLeads (f := fun lead => lead.dealValue.getD 0 *
    stageWeight ((positionsOf (openStages context.stages)).getD (lead.stageId.getD 0) 0)
      (maxPosition (openStages context.stages)))]
  · rw [sum_filterMap]
    refine congrArg List.sum (List.map_congr_left fun lead hlead => ?_)
    cases hid : lead.stageId with
    | none => simp [LeadPoint.isIn, hid] at hlead
    | some stageId => cases lead.dealValue <;> simp
  · intro lead stage hmem hid
    rw [hid, Option.getD_some, positionsOf_getD (nodup_openStages hids) hmem]

/-! ### The rows of the pipeline engine -/

omit hids in
/-- The leads of a stage go into its row, one after the other. -/
lemma pipelineRows_lookup (leads : List LeadPoint) (rows : Dict ℕ PipelineRow) (stageId : ℕ) :
    (pipelineRows context rows leads).lookup stageId
      = (rows.lookup stageId).map fun row =>
          (leads.filter (·.stageId = some stageId)).foldl (fun row lead => row.add lead
            (stageWeight ((positionsOf context.stages).getD stageId 0)
              (maxPosition (openStages context.stages)))) row := by
  induction leads generalizing rows with
  | nil => simp [pipelineRows]
  | cons lead leads ih =>
      rw [pipelineRows, List.foldl_cons, ← pipelineRows, ih]
      cases hid : lead.stageId with
      | none => simp [hid]
      | some id =>
          cases hrow : rows.lookup id with
          | none =>
              by_cases hk : id = stageId
              · subst hk
                simp [hrow]
              · simp [hid, hrow, hk]
          | some row =>
              by_cases hk : id = stageId
              · subst hk
                simp [hid, hrow]
              · simp [hid, hrow, hk, Finmap.lookup_insert_of_ne rows (Ne.symm hk)]

omit hids in
lemma foldl_add_row (leads : List LeadPoint) (probability : ℚ) (row : PipelineRow) :
    leads.foldl (fun row lead => row.add lead probability) row
      = { count := row.count + leads.length
          value := row.value + (leads.map fun lead => lead.dealValue.getD 0).sum
          weighted := row.weighted + (leads.map fun lead => lead.dealValue.getD 0 * probability).sum } := by
  induction leads generalizing row with
  | nil => simp
  | cons lead leads ih =>
      rw [List.foldl_cons, ih]
      cases hvalue : lead.dealValue <;> simp [PipelineRow.add, hvalue] <;>
        first | omega | exact ⟨by omega, by ring, by ring⟩

omit hids in
/-- Each lead in one of the stages is counted in exactly one of them. -/
lemma sum_by_stage {M : Type} [AddCommMonoid M] {stages : List StagePoint}
    (hn : (stages.map StagePoint.id).Nodup) (leads : List LeadPoint) (f : LeadPoint → M) :
    (stages.map fun stage => ((leads.filter (·.stageId = some stage.id)).map f).sum).sum
      = ((leads.filter (·.isIn (stages.map StagePoint.id).toFinset)).map f).sum := by
  induction stages with
  | nil =>
      have hnone : leads.filter (·.isIn (([] : List StagePoint).map StagePoint.id).toFinset) = [] := by
        rw [List.filter_eq_nil_iff]
        intro lead _
        simp [LeadPoint.isIn]
      rw [hnone]
      rfl
  | cons stage stages ih =>
      rw [List.map_cons, List.nodup_cons] at hn
      rw [List.map_cons, List.sum_cons, ih hn.2, sum_map_filter, sum_map_filter, sum_map_filter,
        ← List.sum_map_add]
      refine congrArg List.sum (List.map_congr_left fun lead _ => ?_)
      cases hid : lead.stageId with
      | none => simp [LeadPoint.isIn, hid]
      | some id =>
          by_cases hk : id = stage.id
          · subst hk
            have hother : ¬ ∃ other ∈ stages, other.id = stage.id := by simpa using hn.1
            simp [LeadPoint.isIn, hid, hother]
          · simp [LeadPoint.isIn, hid, hk]

omit hids in
lemma sortedOpenStages_perm (context : GrowthContext) :
    (openStages (sortedBy (fun stage => toLex (stage.position, stage.name)) context.stages)).Perm
      (openStages context.stages) :=
  (sortedBy_perm _ _).filter _

/-- The rows once the loop is through. -/
lemma rows_lookup {sorted : List StagePoint} (hsorted : sorted.Perm (openStages context.stages))
    (leads : List LeadPoint) {stage : StagePoint} (hmem : stage ∈ sorted) :
    (pipelineRows context (Dict.ofItems (sorted.map fun stage => (stage.id, ⟨0, 0, 0⟩)))
        leads).lookup stage.id
      = some
        { count := (leads.filter (·.stageId = some stage.id)).length
          value := ((leads.filter (·.stageId = some stage.id)).map fun lead =>
            lead.dealValue.getD 0).sum
          weighted := ((leads.filter (·.stageId = some stage.id)).map fun lead =>
            lead.dealValue.getD 0 * stageWeight ((positionsOf context.stages).getD stage.id 0)
              (maxPosition (openStages context.stages))).sum } := by
  have hn : (sorted.map StagePoint.id).Nodup :=
    (hsorted.map StagePoint.id).nodup_iff.2 (nodup_openStages hids)
  have hinit : (Dict.ofItems (sorted.map fun stage =>
      (stage.id, (⟨0, 0, 0⟩ : PipelineRow)))).lookup stage.id = some ⟨0, 0, 0⟩ :=
    Dict.lookup_ofItems_of_mem (by simpa [List.map_map, Function.comp_def] using hn)
      (List.mem_map_of_mem hmem)
  rw [pipelineRows_lookup, hinit, Option.map_some, foldl_add_row]
  simp

omit hids in
/-- The loop makes no row and drops none. -/
lemma keys_rows (sorted : List StagePoint) (leads : List LeadPoint) :
    (pipelineRows context (Dict.ofItems (sorted.map fun stage => (stage.id, ⟨0, 0, 0⟩)))
        leads).keys = (sorted.map StagePoint.id).toFinset := by
  ext id
  rw [Finmap.mem_keys, ← Finmap.lookup_isSome, pipelineRows_lookup, Option.isSome_map,
    Dict.lookup_ofItems, Option.isSome_map, List.find?_isSome]
  simp

/-- Adding up a figure of the rows adds it up over the open leads. -/
lemma sum_rows {M : Type} [AddCommMonoid M] {sorted : List StagePoint}
    (hsorted : sorted.Perm (openStages context.stages)) (f : LeadPoint → M) :
    (sorted.map fun stage => (((context.leads.filter (·.isIn (openStageIds context))).filter
        (·.stageId = some stage.id)).map f).sum).sum
      = ((context.leads.filter (·.isIn (openStageIds context))).map f).sum := by
  have hn : (sorted.map StagePoint.id).Nodup :=
    (hsorted.map StagePoint.id).nodup_iff.2 (nodup_openStages hids)
  have hopen : (sorted.map StagePoint.id).toFinset = openStageIds context :=
    List.toFinset_eq_of_perm _ _ (hsorted.map _)
  rw [sum_by_stage hn, hopen, List.filter_filter]
  simp only [Bool.and_self]

/-- The rows of the open stages add up to the totals of the open leads. -/
lemma pipeline_totals :
    ((computePipeline exact context).byStage.map (·.count)).sum
        = (computePipeline exact context).totalOpen ∧
      ((computePipeline exact context).byStage.map (·.value)).sum
        = (computePipeline exact context).openValue ∧
      ((computePipeline exact context).byStage.map (·.weightedValue)).sum
        = (computePipeline exact context).weightedValue ∧
      (computePipeline exact context).weightedValue = weightedValue context := by
  simp only [computePipeline, exact, List.map_map, Function.comp_def, sumDecimal_eq]
  have hsorted := sortedOpenStages_perm context
  generalize openStages (sortedBy (fun stage => toLex (stage.position, stage.name)) context.stages)
    = sorted at hsorted
  have hmem : ∀ stage ∈ sorted, stage ∈ openStages context.stages := fun _ => hsorted.mem_iff.1
  have hrow := fun stage (hstage : stage ∈ sorted) => rows_lookup hids hsorted
    (context.leads.filter (·.isIn (openStageIds context))) hstage
  have hweighted : (sorted.map fun stage => ((pipelineRows context (Dict.ofItems
      (sorted.map fun stage => (stage.id, ⟨0, 0, 0⟩))) (context.leads.filter
        (·.isIn (openStageIds context)))).getD stage.id ⟨0, 0, 0⟩).weighted).sum
      = weightedValue context := by
    rw [← sum_openLeads (f := fun lead => lead.dealValue.getD 0 *
      stageWeight ((positionsOf context.stages).getD (lead.stageId.getD 0) 0)
        (maxPosition (openStages context.stages)))]
    · rw [← sum_rows hids hsorted]
      refine congrArg List.sum (List.map_congr_left fun stage hstage => ?_)
      rw [Dict.getD, hrow stage hstage, Option.getD_some]
      refine congrArg List.sum (List.map_congr_left fun lead hlead => ?_)
      have hid : lead.stageId = some stage.id := by simpa using (List.mem_filter.1 hlead).2
      rw [hid, Option.getD_some]
    · intro lead stage hstage hid
      rw [hid, Option.getD_some, positionsOf_getD hids (mem_openStages.1 hstage).1]
  have hentries : ((pipelineRows context (Dict.ofItems (sorted.map fun stage =>
      (stage.id, ⟨0, 0, 0⟩))) (context.leads.filter (·.isIn (openStageIds context)))).entries.map
        fun entry => entry.2.weighted).sum
      = (sorted.map fun stage => ((pipelineRows context (Dict.ofItems
          (sorted.map fun stage => (stage.id, ⟨0, 0, 0⟩))) (context.leads.filter
            (·.isIn (openStageIds context)))).getD stage.id ⟨0, 0, 0⟩).weighted).sum := by
    have hn : (sorted.map StagePoint.id).Nodup :=
      (hsorted.map StagePoint.id).nodup_iff.2 (nodup_openStages hids)
    rw [Dict.sum_entries (fun row : PipelineRow => row.weighted), keys_rows, List.sum_toFinset _ hn,
      List.map_map]
    refine congrArg List.sum (List.map_congr_left fun stage hstage => ?_)
    simp only [Function.comp_apply, Dict.getD, hrow stage hstage, Option.map_some, Option.getD_some]
  refine ⟨?_, ?_, ?_, ?_⟩
  · calc _ = (sorted.map fun stage => (((context.leads.filter (·.isIn (openStageIds context))).filter
          (·.stageId = some stage.id)).map fun _ => 1).sum).sum := by
            refine congrArg List.sum (List.map_congr_left fun stage hstage => ?_)
            rw [Dict.getD, hrow stage hstage]
            simp
      _ = _ := by
            rw [sum_rows hids hsorted]
            simp
  · rw [← sum_rows hids hsorted]
    refine congrArg List.sum (List.map_congr_left fun stage hstage => ?_)
    rw [Dict.getD, hrow stage hstage, Option.getD_some]
  · exact hentries.symm
  · exact hentries.trans hweighted

end Engines

/-! ### Bounds -/

section Bounds

variable {context}

lemma position_le_maxPosition {stages : List StagePoint} {stage : StagePoint}
    (hmem : stage ∈ stages) : stage.position ≤ maxPosition stages := by
  have hposition : stage.position ∈ stages.map StagePoint.position := List.mem_map_of_mem hmem
  rw [maxPosition]
  cases hmax : (stages.map StagePoint.position).max? with
  | none => simp [List.max?_eq_none_iff.1 hmax] at hposition
  | some greatest =>
      exact (List.max?_eq_some_iff.1 hmax).2 _ hposition

/-- The odds of an open stage lie between 0 and 1. -/
lemma stageWeight_mem {position greatest : ℤ} (hpos : 0 ≤ position) (hle : position ≤ greatest) :
    0 ≤ stageWeight position greatest ∧ stageWeight position greatest ≤ 1 := by
  rw [stageWeight]
  split
  · norm_num
  · next hgreatest =>
    have hgreatest : (0 : ℚ) < greatest := by exact_mod_cast not_le.1 hgreatest
    have hratio : 0 ≤ (position : ℚ) / greatest := div_nonneg (by exact_mod_cast hpos) hgreatest.le
    have hone : (position : ℚ) / greatest ≤ 1 :=
      (div_le_one hgreatest).2 (by exact_mod_cast hle)
    constructor <;> linarith

/-- A lead adds between 0 and its deal value. -/
lemma weightedTerm_mem (hvalues : ∀ lead ∈ context.leads, ∀ v ∈ lead.dealValue, 0 ≤ v)
    (hpositions : ∀ stage ∈ context.stages, 0 ≤ stage.position) {lead : LeadPoint}
    (hlead : lead ∈ context.leads) :
    0 ≤ weightedTerm context lead ∧ weightedTerm context lead
      ≤ if lead.isIn (openStageIds context) then lead.dealValue.getD 0 else 0 := by
  have hvalue : 0 ≤ lead.dealValue.getD 0 := by
    cases hv : lead.dealValue with
    | none => simp
    | some v => simpa using hvalues lead hlead v hv
  rcases stage_of_lead context lead with ⟨hin, hnone⟩ | ⟨stage, hmem, hid, hin, hstage⟩
  · simp [hin, weightedTerm, hnone]
  · obtain ⟨hweight, hone⟩ := stageWeight_mem (hpositions stage (mem_openStages.1 hmem).1)
      (position_le_maxPosition hmem)
    rw [weightedTerm_of_stage hstage, if_pos hin]
    exact ⟨mul_nonneg hvalue hweight, mul_le_of_le_one_right hvalue hone⟩

lemma weightedValue_mem (hvalues : ∀ lead ∈ context.leads, ∀ v ∈ lead.dealValue, 0 ≤ v)
    (hpositions : ∀ stage ∈ context.stages, 0 ≤ stage.position) :
    0 ≤ weightedValue context ∧ weightedValue context ≤ openValue context := by
  have hterm := fun lead (hlead : lead ∈ context.leads) => weightedTerm_mem hvalues hpositions hlead
  constructor
  · refine List.sum_nonneg fun term hterm' => ?_
    obtain ⟨lead, hlead, rfl⟩ := List.mem_map.1 hterm'
    exact (hterm lead hlead).1
  · rw [openValue, sum_map_filter]
    exact List.sum_le_sum fun lead hlead => (hterm lead hlead).2

end Bounds

/-- **The engines agree**: with distinct stage ids, the five weighted values are one; the rows of the
pipeline add up to its totals; and without negative values or positions the weighted value lies
between 0 and the value of the open pipeline. -/
theorem weighted_value_agrees (hids : (context.stages.map StagePoint.id).Nodup) :
    (computeKpis exact context).weightedPipelineValue = weightedValue context ∧
    (computePipeline exact context).weightedValue = weightedValue context ∧
    (computePipeline exact context).expectedValue = weightedValue context ∧
    (computeRevenue exact context).weightedPipelineValue = weightedValue context ∧
    (computeRevenue exact context).expectedValue = weightedValue context ∧
    forecastPipelineWeighted exact context = weightedValue context ∧
    weightedOpen context = weightedValue context ∧
    ((computePipeline exact context).byStage.map (·.count)).sum
      = (computePipeline exact context).totalOpen ∧
    ((computePipeline exact context).byStage.map (·.value)).sum
      = (computePipeline exact context).openValue ∧
    ((computePipeline exact context).byStage.map (·.weightedValue)).sum
      = (computePipeline exact context).weightedValue ∧
    ((∀ lead ∈ context.leads, ∀ v ∈ lead.dealValue, 0 ≤ v) →
      (∀ stage ∈ context.stages, 0 ≤ stage.position) →
      0 ≤ weightedValue context ∧
      weightedValue context ≤ (computeKpis exact context).openPipelineValue ∧
      weightedValue context ≤ (computePipeline exact context).openValue ∧
      weightedValue context ≤ (computeRevenue exact context).openPipelineValue) := by
  obtain ⟨hcount, hvalue, hweighted, hpipeline⟩ := pipeline_totals hids
  refine ⟨kpis_weighted hids, hpipeline, hpipeline, revenue_weighted hids, revenue_weighted hids,
    forecast_weighted hids, health_weighted hids, hcount, hvalue, hweighted, ?_⟩
  intro hvalues hpositions
  obtain ⟨hnonneg, hle⟩ := weightedValue_mem hvalues hpositions
  have hopen : openValue context
      = sumDecimal ((context.leads.filter (·.isIn (openStageIds context))).map (·.dealValue)) := by
    rw [sumDecimal_eq, List.map_map]
    rfl
  have hle := hle.trans_eq hopen
  exact ⟨hnonneg, hle, hle, hle⟩

/-- Two open stages and a closed one, with a lead in each and one without a stage. -/
def samplePipeline : GrowthContext where
  organizationId := 1
  periodStart := 0
  periodEnd := 10
  stages := [⟨1, "New", 1, "open"⟩, ⟨2, "Proposal", 2, "open"⟩, ⟨3, "Won", 3, "won"⟩]
  leads := [⟨1, "new", some 1, some 100, none, none, none, none, "a"⟩,
    ⟨2, "proposal_sent", some 2, some 10, none, none, none, none, "b"⟩,
    ⟨3, "won", some 3, some 7, none, none, none, none, "c"⟩,
    ⟨4, "new", none, some 5, none, none, none, none, "d"⟩]
  metrics := []
  attempts := []
  tasks := []
  activity := []
  healthWeights := []

theorem weighted_value_sample :
    (computeKpis exact samplePipeline).weightedPipelineValue = weightedValue samplePipeline ∧
      weightedValue samplePipeline = 135 / 2 := by
  exact ⟨(weighted_value_agrees samplePipeline (by decide)).1, by decide +kernel⟩

end Growth
