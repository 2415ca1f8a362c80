import AgencyOS.Growth.Engines
import AgencyOS.Python.Rounding

/-!
The bottlenecks of the funnel.

The engine walks the open stages in order and compares the leads on each with those before it.  It
keeps a running total, so from the third stage on it compares with all stages before and not with
the previous one.

* `bottleneckLoop`, `computeBottlenecks`: the engine;
* `dropoffs`, `RelativeDropoff`: the drops between consecutive stages, and what is promised of the
  report;
* `FirstBefore`, `relativeDropoff_iff`: **the promise is kept exactly if each stage, from the third
  on, has no lead two or more stages before it, or as many leads as all stages before it**;
* `not_relativeDropoff_gain`: a stage that gains leads and is reported.
-/

namespace Growth

open Python

/-! ### The engine -/

inductive Severity where
  | high | medium | low
  deriving DecidableEq, Repr

/-- A stage that is reported. -/
structure Bottleneck where
  stage : String
  stageId : ℕ
  position : ℤ
  entered : ℕ
  current : ℕ
  dropoff : ℤ
  dropoffRatio : ℚ
  severity : Severity
  deriving DecidableEq, Repr

structure Bottlenecks where
  bottlenecks : List Bottleneck
  primary : Option Bottleneck
  deriving DecidableEq, Repr

/-- The open stages, by position and name. -/
def openStagesInOrder (context : GrowthContext) : List StagePoint :=
  (sortedBy (fun stage => toLex (stage.position, stage.name)) context.stages).filter fun stage =>
    stage.lifecycle = "open"

/-- `counts[stage.id]`. -/
def stageCount (context : GrowthContext) (stage : StagePoint) : ℕ :=
  context.leads.countP fun lead => lead.stageId = some stage.id

def severityOf (dropoffRatio : ℚ) : Severity :=
  if 5 / 10 ≤ dropoffRatio then .high else if 25 / 100 ≤ dropoffRatio then .medium else .low

variable (round : ℚ → ℕ → ℚ)

/-- The entry of a stage. -/
def bottleneckOf (stage : StagePoint) (entered current : ℕ) (dropoff : ℤ) (dropoffRatio : ℚ) :
    Bottleneck where
  stage := stage.name
  stageId := stage.id
  position := stage.position
  entered := entered
  current := current
  dropoff := dropoff
  dropoffRatio := round dropoffRatio 4
  severity := severityOf dropoffRatio

/-- The loop over the open stages, with the `index` and the running total `entered`. -/
def bottleneckLoop (count : StagePoint → ℕ) : ℕ → ℕ → List StagePoint → List Bottleneck
  | _, _, [] => []
  | index, entered, stage :: stages =>
      let entered := entered + count stage
      if index = 0 ∨ entered = 0 then bottleneckLoop count (index + 1) entered stages
      else
        let prevCount := entered - count stage
        let dropoff : ℤ := prevCount - count stage
        let dropoffRatio : ℚ := if prevCount = 0 then 0 else dropoff / prevCount
        if 0 < dropoff then
          bottleneckOf round stage prevCount (count stage) dropoff dropoffRatio
            :: bottleneckLoop count (index + 1) entered stages
        else bottleneckLoop count (index + 1) entered stages

/-- `compute_bottlenecks`. -/
def computeBottlenecks (context : GrowthContext) : Bottlenecks :=
  let bottlenecks := sortedBy (fun item => OrderDual.toDual item.dropoffRatio)
    (bottleneckLoop round (stageCount context) 0 0 (openStagesInOrder context))
  { bottlenecks := bottlenecks
    primary := bottlenecks.head? }

/-! ### What is promised of the report -/

/-- The entry of a stage that has lost leads against a count before it. -/
def dropoffFrom (count : StagePoint → ℕ) (previous : ℕ) (stage : StagePoint) : Option Bottleneck :=
  if count stage < previous then
    some (bottleneckOf round stage previous (count stage) (previous - count stage)
      ((previous - count stage : ℚ) / previous))
  else none

/-- The drops between consecutive stages, where `previous` leads are on the stage before. -/
def dropoffsAfter (count : StagePoint → ℕ) : ℕ → List StagePoint → List Bottleneck
  | _, [] => []
  | previous, stage :: stages =>
      (dropoffFrom round count previous stage).toList ++ dropoffsAfter count (count stage) stages

def dropoffs (count : StagePoint → ℕ) : List StagePoint → List Bottleneck
  | [] => []
  | first :: stages => dropoffsAfter round count (count first) stages

/-- **What is promised of the report**: the drops between consecutive open stages, by falling ratio,
the first of them as the primary one. -/
structure RelativeDropoff (context : GrowthContext) : Prop where
  reported : (computeBottlenecks round context).bottlenecks.Perm
    (dropoffs round (stageCount context) (openStagesInOrder context))
  sorted : (computeBottlenecks round context).bottlenecks.Pairwise fun item item' =>
    item'.dropoffRatio ≤ item.dropoffRatio
  primary : (computeBottlenecks round context).primary
    = (computeBottlenecks round context).bottlenecks.head?

/-- **The condition** on the numbers of leads: each stage has none two or more stages before it, or
at least as many as all stages before it. -/
def FirstBefore (counts : List ℕ) : Prop :=
  ∀ i, i + 1 < counts.length →
    (counts.take i).sum = 0 ∨ (counts.take (i + 1)).sum ≤ counts.getD (i + 1) 0

instance (counts : List ℕ) : Decidable (FirstBefore counts) :=
  decidable_of_iff (∀ i < counts.length, i + 1 < counts.length →
    (counts.take i).sum = 0 ∨ (counts.take (i + 1)).sum ≤ counts.getD (i + 1) 0)
    ⟨fun h i hi => h i (by omega) hi, fun h i _ hi => h i hi⟩

/-! ### The loop against the promise -/

variable {round} {count : StagePoint → ℕ}

/-- What the loop reports of the stages after the first: the drops from the running total. -/
def totalsAfter (round : ℚ → ℕ → ℚ) (count : StagePoint → ℕ) : ℕ → List StagePoint → List Bottleneck
  | _, [] => []
  | entered, stage :: stages =>
      (dropoffFrom round count entered stage).toList
        ++ totalsAfter round count (entered + count stage) stages

lemma bottleneckLoop_succ (index entered : ℕ) (stages : List StagePoint) :
    bottleneckLoop round count (index + 1) entered stages = totalsAfter round count entered stages := by
  induction stages generalizing index entered with
  | nil => rfl
  | cons stage stages ih =>
      rw [bottleneckLoop, totalsAfter, ← ih (index + 1), dropoffFrom]
      by_cases hdrop : count stage < entered
      · have hnonzero : ¬ (index + 1 = 0 ∨ entered + count stage = 0) := by omega
        have hpos : (0 : ℤ) < (entered : ℤ) - count stage := by omega
        have hentered : entered ≠ 0 := by omega
        simp only [if_neg hnonzero, if_pos hdrop, Nat.add_sub_cancel, if_neg hentered]
        rw [if_pos hpos]
        push_cast
        rfl
      · by_cases hzero : index + 1 = 0 ∨ entered + count stage = 0
        · rw [if_pos hzero, if_neg hdrop]
          rfl
        · have hneg : ¬ (0 : ℤ) < ((entered + count stage - count stage : ℕ) : ℤ) - count stage := by
            omega
          rw [if_neg hzero]
          dsimp only
          rw [if_neg hneg, if_neg hdrop]
          rfl

/-- The first stage only starts the running total. -/
lemma bottleneckLoop_first (first : StagePoint) (stages : List StagePoint) :
    bottleneckLoop round count 0 0 (first :: stages) = totalsAfter round count (count first) stages := by
  rw [bottleneckLoop, if_pos (Or.inl rfl), bottleneckLoop_succ, Nat.zero_add]

/-- The condition on the stages after one with `previous` leads, when `earlier` leads are on the
stages before that. -/
def FirstBeforeAfter (count : StagePoint → ℕ) : ℕ → ℕ → List StagePoint → Prop
  | _, _, [] => True
  | earlier, previous, stage :: stages =>
      (earlier = 0 ∨ earlier + previous ≤ count stage)
        ∧ FirstBeforeAfter count (earlier + previous) (count stage) stages

/-- Under the condition the running total reports the drops between consecutive stages. -/
lemma totalsAfter_eq {earlier previous : ℕ} {stages : List StagePoint}
    (h : FirstBeforeAfter count earlier previous stages) :
    totalsAfter round count (earlier + previous) stages = dropoffsAfter round count previous stages := by
  induction stages generalizing earlier previous with
  | nil => rfl
  | cons stage stages ih =>
      obtain ⟨hstage, hrest⟩ := h
      rw [totalsAfter, dropoffsAfter, ih hrest]
      rcases hstage with rfl | hle
      · rw [Nat.zero_add]
      · rw [dropoffFrom, dropoffFrom, if_neg (by omega), if_neg (by omega)]

/-- The leads that are said to have entered, over all entries. -/
def enteredTotal (items : List Bottleneck) : ℕ := (items.map Bottleneck.entered).sum

lemma enteredTotal_dropoffFrom (previous : ℕ) (stage : StagePoint) (items : List Bottleneck) :
    enteredTotal ((dropoffFrom round count previous stage).toList ++ items)
      = (if count stage < previous then previous else 0) + enteredTotal items := by
  rw [dropoffFrom]
  split_ifs <;> simp [enteredTotal, bottleneckOf]

/-- The running total never reports less. -/
lemma enteredTotal_le (earlier previous : ℕ) (stages : List StagePoint) :
    enteredTotal (dropoffsAfter round count previous stages)
      ≤ enteredTotal (totalsAfter round count (earlier + previous) stages) := by
  induction stages generalizing earlier previous with
  | nil => exact le_rfl
  | cons stage stages ih =>
      rw [totalsAfter, dropoffsAfter, enteredTotal_dropoffFrom, enteredTotal_dropoffFrom]
      have hrest := ih (earlier + previous) (count stage)
      split_ifs <;> omega

/-- It reports no more only under the condition. -/
lemma firstBeforeAfter_of_le {earlier previous : ℕ} {stages : List StagePoint}
    (h : enteredTotal (totalsAfter round count (earlier + previous) stages)
      ≤ enteredTotal (dropoffsAfter round count previous stages)) :
    FirstBeforeAfter count earlier previous stages := by
  induction stages generalizing earlier previous with
  | nil => trivial
  | cons stage stages ih =>
      rw [totalsAfter, dropoffsAfter, enteredTotal_dropoffFrom, enteredTotal_dropoffFrom] at h
      have hrest := @enteredTotal_le round count (earlier + previous) (count stage) stages
      constructor
      · split_ifs at h <;> omega
      · refine ih ?_
        split_ifs at h <;> omega

/-- The condition, stage after stage and over the whole list of numbers. -/
lemma firstBeforeAfter_iff (earlier : ℕ) (first : StagePoint) (stages : List StagePoint) :
    FirstBeforeAfter count earlier (count first) stages
      ↔ ∀ i, i + 1 < ((first :: stages).map count).length →
          earlier + (((first :: stages).map count).take i).sum = 0
            ∨ earlier + (((first :: stages).map count).take (i + 1)).sum
                ≤ ((first :: stages).map count).getD (i + 1) 0 := by
  induction stages generalizing earlier first with
  | nil => simp [FirstBeforeAfter]
  | cons stage stages ih =>
      rw [FirstBeforeAfter, ih]
      constructor
      · rintro ⟨hstage, hrest⟩ i hi
        cases i with
        | zero => simpa using hstage
        | succ i =>
            have h := hrest i (by simpa using hi)
            simp only [List.map_cons, List.take_succ_cons, List.sum_cons, List.getD_cons_succ] at h ⊢
            omega
      · intro h
        refine ⟨by simpa using h 0 (by simp), fun i hi => ?_⟩
        have hi' := h (i + 1) (by simpa using hi)
        simp only [List.map_cons, List.take_succ_cons, List.sum_cons, List.getD_cons_succ] at hi' ⊢
        rcases hi' with hzero | hle
        · cases i with
          | zero =>
              simp only [List.take_zero, List.sum_nil] at hzero ⊢
              omega
          | succ i =>
              simp only [List.take_succ_cons, List.sum_cons] at hzero ⊢
              omega
        · omega

lemma perm_dropoffs_iff (stages : List StagePoint) :
    (bottleneckLoop round count 0 0 stages).Perm (dropoffs round count stages)
      ↔ FirstBefore (stages.map count) := by
  cases stages with
  | nil =>
      refine ⟨fun _ i hi => ?_, fun _ => .refl _⟩
      simp at hi
  | cons first stages =>
      have hcondition := @firstBeforeAfter_iff count 0 first stages
      simp only [Nat.zero_add] at hcondition
      rw [bottleneckLoop_first, dropoffs, FirstBefore, ← hcondition]
      constructor
      · intro h
        refine @firstBeforeAfter_of_le round _ _ _ _ ?_
        rw [Nat.zero_add]
        exact (h.map Bottleneck.entered).sum_eq.le
      · intro h
        have heq := @totalsAfter_eq round _ _ _ _ h
        rw [Nat.zero_add] at heq
        rw [heq]

lemma computeBottlenecks_perm (context : GrowthContext) :
    (computeBottlenecks round context).bottlenecks.Perm
      (bottleneckLoop round (stageCount context) 0 0 (openStagesInOrder context)) :=
  sortedBy_perm _ _

lemma computeBottlenecks_sorted (context : GrowthContext) :
    (computeBottlenecks round context).bottlenecks.Pairwise fun item item' =>
      item'.dropoffRatio ≤ item.dropoffRatio :=
  sortedBy_pairwise (fun item : Bottleneck => OrderDual.toDual item.dropoffRatio) _

/-- **The report is that of the relative drops exactly under the condition.** -/
theorem relativeDropoff_iff (round : ℚ → ℕ → ℚ) (context : GrowthContext) :
    RelativeDropoff round context
      ↔ FirstBefore ((openStagesInOrder context).map (stageCount context)) := by
  rw [← @perm_dropoffs_iff round]
  constructor
  · intro h
    exact (computeBottlenecks_perm context).symm.trans h.reported
  · intro h
    exact ⟨(computeBottlenecks_perm context).trans h, computeBottlenecks_sorted context, rfl⟩

/-! ### Three stages -/

/-- A lead on a stage. -/
def leadOn (id stageId : ℕ) : LeadPoint :=
  ⟨id, "new", some stageId, none, none, none, none, none, ""⟩

/-- Three open stages with three leads, one and two: the last one gains a lead. -/
def gaining : GrowthContext where
  organizationId := 1
  periodStart := 0
  periodEnd := 31
  stages := [⟨1, "New", 0, "open"⟩, ⟨2, "Proposal", 1, "open"⟩, ⟨3, "Review", 2, "open"⟩]
  leads := [leadOn 1 1, leadOn 2 1, leadOn 3 1, leadOn 4 2, leadOn 5 3, leadOn 6 3]
  metrics := []
  attempts := []
  tasks := []
  activity := []
  healthWeights := []

/-- The last stage is reported although it has more leads than the one before it. -/
theorem not_relativeDropoff_gain : ¬ RelativeDropoff roundTo gaining := by
  intro h
  have hperm := (computeBottlenecks_perm gaining).symm.trans h.reported
  rw [perm_dropoffs_iff] at hperm
  revert hperm
  decide +kernel

end Growth
