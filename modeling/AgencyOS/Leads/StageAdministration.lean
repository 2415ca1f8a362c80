import AgencyOS.Leads.Lifecycle

/-!
The administration of the stages of a pipeline.

An administrator creates, updates, deletes and reorders stages.  Every read, and every move of a lead,
first adds the seeded stages that are missing by name and lifecycle, whether they were never there or an
administrator has deleted or renamed them.

* `createStage`, `updateStage`, `deleteStage`, `reorderStages`, `readStages`, `move`: the calls;
* `StageCall.administered`: what the stages are to be after a call;
* `ensureDefaults_of_seeded`: nothing is added when all seeded stages are there;
* `map_id_listing_reorder`, `deleteStage_rehouses`: the order that is asked for, and where the leads go;
* `StableRun`, `stableRun_iff`: **a run is stable exactly when** every read and every move finds all
  seeded stages.
-/

namespace Leads

open Python

/-! ### The calls -/

def stageNameRequired : AppError := ⟨"pipeline.stage_name_required", "Stage name is required", 400⟩

def stageExists : AppError :=
  ⟨"pipeline.stage_exists", "A stage with that name already exists in this lifecycle", 409⟩

def noAlternativeStage : AppError :=
  ⟨"pipeline.no_alternative_stage",
    "This stage still contains leads and no alternative stage exists in the same lifecycle", 400⟩

def stageReorderMismatch : AppError :=
  ⟨"pipeline.stage_reorder_mismatch", "Reorder payload must include every stage exactly once", 400⟩

/-- The values of an `integer`. -/
def fitsInteger (position : ℤ) : Bool := -2147483648 ≤ position && position ≤ 2147483647

/-- The commit: stages of one lifecycle have names of their own, and positions are integers. -/
def Db.commit (db : Db) : Except Failure Db :=
  if ¬ (db.stages.map fun stage => (stage.organizationId, stage.lifecycle, stage.name)).Nodup then
    .error .integrityError
  else if ¬ db.stages.all fun stage => fitsInteger stage.position then .error .dataError
  else .ok db

/-- `name.strip()`. -/
def stripped (name : String) : String := String.ofList (strip name.toList)

/-- The position behind all others. -/
def nextPosition (stages : List PipelineStage) : ℤ := ((stages.map (·.position)).max?).getD (-1) + 1

def createStage (db : Db) (organizationId : ℕ) (name : String) (lifecycle : StageLifecycle)
    (position : Option ℤ) : Except Failure Db :=
  if stripped name = "" then .error (.appError stageNameRequired)
  else
    let stages := db.listStages organizationId
    if stages.any fun stage => stage.name = stripped name && stage.lifecycle = lifecycle then
      .error (.appError stageExists)
    else
      Db.commit { db with
        stages := db.stages ++ [⟨db.nextId, organizationId, stripped name, lifecycle,
          position.getD (nextPosition stages), false⟩]
        nextId := db.nextId + 1 }

/-- The columns of a stage that are set. -/
def setColumns (name : Option String) (position : Option ℤ) (stage : PipelineStage) : PipelineStage :=
  { stage with
    name := (name.map stripped).getD stage.name
    position := position.getD stage.position }

def updateStage (db : Db) (organizationId stageId : ℕ) (name : Option String) (position : Option ℤ) :
    Except Failure Db :=
  match db.getStage organizationId stageId with
  | none => .error (.appError stageNotFound)
  | some _ =>
      if name.any fun name => stripped name = "" then .error (.appError stageNameRequired)
      else
        Db.commit { db with
          stages := db.stages.map fun stage =>
            if stage.id = stageId then setColumns name position stage else stage }

/-- A lead that is counted on a stage, and moved off it. -/
def Lead.standsOn (lead : Lead) (organizationId stageId : ℕ) : Bool :=
  lead.organizationId = organizationId && lead.deletedAt = none && lead.stageId = some stageId

/-- `bulk_move_stage`. -/
def bulkMoveStage (db : Db) (organizationId fromStageId toStageId : ℕ) : Db :=
  { db with
    leads := db.leads.map fun lead =>
      if lead.standsOn organizationId fromStageId then { lead with stageId := some toStageId }
      else lead }

/-- The row is deleted, and the leads that still refer to it lose their stage. -/
def Db.dropStage (db : Db) (stageId : ℕ) : Db :=
  { db with
    stages := db.stages.filter (·.id ≠ stageId)
    leads := db.leads.map fun lead =>
      if lead.stageId = some stageId then { lead with stageId := none } else lead }

def deleteStage (db : Db) (organizationId stageId : ℕ) : Except Failure Db :=
  match db.getStage organizationId stageId with
  | none => .error (.appError stageNotFound)
  | some stage =>
      let alternatives := ((db.listStages organizationId).filter (·.lifecycle = stage.lifecycle)).filter
        (·.id ≠ stage.id)
      let inStage := db.leads.countP (·.standsOn organizationId stage.id)
      match alternatives with
      | [] =>
          if inStage ≠ 0 then .error (.appError noAlternativeStage)
          else (db.dropStage stage.id).commit
      | alternative :: _ =>
          if inStage ≠ 0 then
            ((bulkMoveStage db organizationId stage.id alternative.id).dropStage stage.id).commit
          else (db.dropStage stage.id).commit

/-- The positions of the stages follow the list. -/
def setPositions (stageIds : List ℕ) (stage : PipelineStage) : PipelineStage :=
  { stage with position := stageIds.idxOf stage.id }

def reorderStages (db : Db) (organizationId : ℕ) (stageIds : List ℕ) : Except Failure Db :=
  let stages := db.listStages organizationId
  if stageIds.toFinset ≠ (stages.map (·.id)).toFinset ∨ stageIds.length ≠ stages.length then
    .error (.appError stageReorderMismatch)
  else
    Db.commit { db with
      stages := db.stages.map fun stage =>
        if stage.organizationId = organizationId then setPositions stageIds stage else stage }

/-- What `list_stages`, `board` and `list_close_reasons` begin with. -/
def readStages (db : Db) (organizationId : ℕ) : Except Failure Db :=
  (ensureDefaults db organizationId).commit

/-- `move`, of a lead that was read from the organization. -/
def move (db : Db) (organizationId leadId stageId : ℕ) (closeReasonId : Option ℕ) (actor : ℕ)
    (now : Datetime) : Except Failure Db := do
  let lead ← getLeadOr404 db organizationId leadId
  let (db, lead) ← reconcile db organizationId lead
    ⟨none, some stageId, closeReasonId, some actor, true⟩ now
  (db.putLead lead).commit

inductive StageCall where
  | createStage (name : String) (lifecycle : StageLifecycle) (position : Option ℤ)
  | updateStage (stageId : ℕ) (name : Option String) (position : Option ℤ)
  | deleteStage (stageId : ℕ)
  | reorderStages (stageIds : List ℕ)
  | listStages
  | board
  | listCloseReasons
  | move (leadId stageId : ℕ) (closeReasonId : Option ℕ) (actor : ℕ) (now : Datetime)
  deriving DecidableEq, Repr

variable (organizationId : ℕ)

def StageCall.run (db : Db) : StageCall → Except Failure Db
  | createStage name lifecycle position => Leads.createStage db organizationId name lifecycle position
  | updateStage stageId name position => Leads.updateStage db organizationId stageId name position
  | deleteStage stageId => Leads.deleteStage db organizationId stageId
  | reorderStages stageIds => Leads.reorderStages db organizationId stageIds
  | listStages | board | listCloseReasons => readStages db organizationId
  | move leadId stageId closeReasonId actor now =>
      Leads.move db organizationId leadId stageId closeReasonId actor now

/-- The call is not refused. -/
def StageCall.accepted (call : StageCall) (db : Db) : Bool := (call.run organizationId db).isOk

/-- What a call leaves; one that is refused is rolled back. -/
def StageCall.after (call : StageCall) (db : Db) : Db :=
  match call.run organizationId db with
  | .ok db' => db'
  | .error _ => db

/-- What some calls leave. -/
def afterCalls (calls : List StageCall) (db : Db) : Db :=
  calls.foldl (fun db call => call.after organizationId db) db

/-! ### What the calls are for -/

/-- The stages of the organization, in the order of their creation. -/
def Db.ownStages (db : Db) : List PipelineStage := db.stages.filter (·.organizationId = organizationId)

/-- The stages as they are listed. -/
def listing (stages : List PipelineStage) : List PipelineStage := sortedBy (·.position) stages

/-- What the stages are to be after a call that is accepted. -/
def StageCall.administered (newId : ℕ) (stages : List PipelineStage) : StageCall → List PipelineStage
  | createStage name lifecycle position => stages ++ [⟨newId, organizationId, stripped name, lifecycle,
      position.getD (nextPosition (listing stages)), false⟩]
  | updateStage stageId name position => stages.map fun stage =>
      if stage.id = stageId then setColumns name position stage else stage
  | deleteStage stageId => stages.filter (·.id ≠ stageId)
  | reorderStages stageIds => stages.map (setPositions stageIds)
  | listStages | board | listCloseReasons | move .. => stages

/-- The tables after some calls, and what the stages are to be then. -/
def administer (calls : List StageCall) (db : Db) : Db × List PipelineStage :=
  calls.foldl (fun state call => (call.after organizationId state.1,
    if call.accepted organizationId state.1 then
      call.administered organizationId state.1.nextId state.2
    else state.2)) (db, db.ownStages organizationId)

/-- The leads of the stage that is deleted go to a stage of its lifecycle. -/
def Rehoused (stageId : ℕ) (db db' : Db) : Prop :=
  ∀ stage lead, db.getStage organizationId stageId = some stage → lead ∈ db.leads →
    lead.standsOn organizationId stageId = true →
    ∃ lead' ∈ db'.leads, lead'.id = lead.id ∧ ∃ stage', lead'.stageId.bind (db'.getStage organizationId)
      = some stage' ∧ stage'.lifecycle = stage.lifecycle

/-- **What is promised of the administration.**  At every time the stages are those that result from the
calls; a reordering leaves them in the order that was asked for; and a deletion rehouses the leads. -/
structure StableRun (calls : List StageCall) (db : Db) : Prop where
  stages : ∀ before, before <+: calls →
    (afterCalls organizationId before db).listStages organizationId
      = listing (administer organizationId before db).2
  reordered : ∀ before stageIds, before ++ [.reorderStages stageIds] <+: calls →
    (StageCall.reorderStages stageIds).accepted organizationId (afterCalls organizationId before db)
      = true →
    ((afterCalls organizationId (before ++ [.reorderStages stageIds]) db).listStages organizationId).map
      (·.id) = stageIds
  rehoused : ∀ before stageId, before ++ [.deleteStage stageId] <+: calls →
    (StageCall.deleteStage stageId).accepted organizationId (afterCalls organizationId before db)
      = true →
    Rehoused organizationId stageId (afterCalls organizationId before db)
      (afterCalls organizationId (before ++ [.deleteStage stageId]) db)

/-- The call first adds the seeded stages that are missing. -/
def StageCall.seeds : StageCall → Bool
  | listStages | board | listCloseReasons | move .. => true
  | _ => false

/-- All seeded stages are there. -/
def Seeded (db : Db) : Prop :=
  ∀ seed ∈ defaultStages, ∃ stage ∈ db.ownStages organizationId,
    stage.name = seed.1 ∧ stage.lifecycle = seed.2.1

variable {organizationId} {db db' : Db} {call : StageCall}

/-! ### Keys -/

lemma commit_eq_ok (h : db.commit = .ok db') : db' = db := by
  rw [Db.commit] at h
  split_ifs at h
  exact (Except.ok.inj h).symm

/-- The rows of the stages change, and their ids do not. -/
lemma Db.Wf.mapStages (hwf : db.Wf) {f : PipelineStage → PipelineStage}
    (hf : ∀ stage, (f stage).id = stage.id) :
    ({ db with stages := db.stages.map f } : Db).Wf := by
  obtain ⟨hids, hfresh, hreasons, hreasonFresh, hclosed, hleads, hleadFresh⟩ := hwf
  have hsame : (db.stages.map f).map (·.id) = db.stages.map (·.id) := by
    rw [List.map_map]
    exact List.map_congr_left fun stage _ => hf stage
  refine ⟨hsame ▸ hids, fun stage hstage => ?_, hreasons, hreasonFresh, hclosed, hleads, hleadFresh⟩
  obtain ⟨stage, hmem, rfl⟩ := List.mem_map.mp hstage
  exact (hf stage).symm ▸ hfresh stage hmem

/-- The rows of the leads change, and their ids do not. -/
lemma Db.Wf.mapLeads (hwf : db.Wf) {f : Lead → Lead} (hf : ∀ lead, (f lead).id = lead.id) :
    ({ db with leads := db.leads.map f } : Db).Wf := by
  obtain ⟨hids, hfresh, hreasons, hreasonFresh, hclosed, hleads, hleadFresh⟩ := hwf
  have hsame : (db.leads.map f).map (·.id) = db.leads.map (·.id) := by
    rw [List.map_map]
    exact List.map_congr_left fun lead _ => hf lead
  refine ⟨hids, hfresh, hreasons, hreasonFresh, hclosed, hsame ▸ hleads, fun lead hlead => ?_⟩
  obtain ⟨lead, hmem, rfl⟩ := List.mem_map.mp hlead
  exact (hf lead).symm ▸ hleadFresh lead hmem

lemma Db.Wf.addStage (hwf : db.Wf) {stage : PipelineStage} (hid : stage.id = db.nextId) :
    ({ db with stages := db.stages ++ [stage], nextId := db.nextId + 1 } : Db).Wf := by
  obtain ⟨hids, hfresh, hreasons, hreasonFresh, hclosed, hleads, hleadFresh⟩ := hwf
  refine ⟨nodup_concat_fresh hids hfresh hid, fun other hother => ?_, hreasons,
    fun reason hreason => ?_, hclosed, hleads, fun lead hlead => ?_⟩
  · rcases List.mem_append.mp hother with hother | hother
    · exact Nat.lt_succ_of_lt (hfresh other hother)
    · rw [List.mem_singleton.mp hother, hid]
      exact Nat.lt_succ_self _
  · exact Nat.lt_succ_of_lt (hreasonFresh reason hreason)
  · exact Nat.lt_succ_of_lt (hleadFresh lead hlead)

lemma Db.Wf.dropStage (hwf : db.Wf) (stageId : ℕ) : (db.dropStage stageId).Wf := by
  obtain ⟨hids, hfresh, hreasons, hreasonFresh, hclosed, hleads, hleadFresh⟩ := hwf
  have hkept : ({ db with stages := db.stages.filter (·.id ≠ stageId) } : Db).Wf :=
    ⟨hids.sublist (List.filter_sublist.map _),
      fun stage hstage => hfresh stage (List.mem_of_mem_filter hstage), hreasons, hreasonFresh, hclosed,
      hleads, hleadFresh⟩
  exact hkept.mapLeads fun lead => by split_ifs <;> rfl

/-! ### Seeding -/

/-- Close reasons that are added leave the stages alone. -/
lemma stages_foldl_ensureReason (reasons : List CloseReason)
    (seeds : List (String × StageLifecycle × Bool)) (db : Db) :
    (seeds.foldl (ensureReason organizationId reasons) db).stages = db.stages := by
  induction seeds generalizing db with
  | nil => rfl
  | cons seed seeds ih =>
      rw [List.foldl_cons, ih, ensureReason]
      split_ifs <;> rfl

/-- Stages that are all there are not added. -/
lemma foldl_ensureStage_of_any {stages : List PipelineStage}
    {seeds : List (String × StageLifecycle × Bool)}
    (h : ∀ seed ∈ seeds,
      (stages.any fun stage => stage.name = seed.1 && stage.lifecycle = seed.2.1) = true)
    (state : Db × ℤ) : seeds.foldl (ensureStage organizationId stages) state = state := by
  induction seeds with
  | nil => rfl
  | cons seed seeds ih =>
      rw [List.forall_mem_cons] at h
      rw [List.foldl_cons, ensureStage, if_pos h.1]
      exact ih h.2

/-- **Nothing is added when all seeded stages are there.** -/
lemma ensureDefaults_of_seeded (h : Seeded organizationId db) :
    (ensureDefaults db organizationId).stages = db.stages := by
  have hany : ∀ seed ∈ defaultStages, ((db.listStages organizationId).any fun stage =>
      stage.name = seed.1 && stage.lifecycle = seed.2.1) = true := by
    intro seed hseed
    obtain ⟨stage, hstage, hname, hlifecycle⟩ := h seed hseed
    refine List.any_eq_true.mpr ⟨stage, mem_sortedBy.mpr hstage, ?_⟩
    simp [hname, hlifecycle]
  rw [ensureDefaults, stages_foldl_ensureReason, foldl_ensureStage_of_any hany]

/-- Afterwards all are there. -/
lemma seeded_ensureDefaults (hwf : db.Wf) :
    Seeded organizationId (ensureDefaults db organizationId) := by
  intro seed hseed
  obtain ⟨stage, hstage, horganization, hname⟩ :=
    (ensureDefaults_seeded hwf organizationId).2.2 seed hseed
  exact ⟨stage, List.mem_filter.mpr ⟨hstage, decide_eq_true horganization⟩, hname⟩

/-- A transition leaves the tables as the seeding has left them. -/
lemma reconcile_stages {lead lead' : Lead} {change : Transition} {now : Datetime}
    (h : reconcile db organizationId lead change now = .ok (db', lead')) :
    ∃ activity, db' = { ensureDefaults db organizationId with activity := activity } := by
  unfold reconcile at h
  obtain ⟨picked, -, h⟩ := bind_ok h
  obtain ⟨given, -, h⟩ := bind_ok h
  exact ⟨_, (Prod.mk.inj (Except.ok.inj h)).1.symm⟩

lemma move_stages {leadId stageId : ℕ} {closeReasonId : Option ℕ} {actor : ℕ} {now : Datetime}
    (h : move db organizationId leadId stageId closeReasonId actor now = .ok db') :
    ∃ activity lead,
      db' = { ensureDefaults db organizationId with activity := activity }.putLead lead := by
  unfold move at h
  obtain ⟨lead, -, h⟩ := bind_ok h
  obtain ⟨⟨db'', lead'⟩, hreconcile, h⟩ := bind_ok h
  obtain ⟨activity, rfl⟩ := reconcile_stages hreconcile
  exact ⟨activity, lead', commit_eq_ok h⟩

/-! ### One call -/

/-- What a call does to the tables, if it is accepted. -/
lemma deleteStage_eq_ok {stageId : ℕ} (h : deleteStage db organizationId stageId = .ok db') :
    ∃ stage, db.getStage organizationId stageId = some stage ∧ stage.id = stageId
      ∧ ((db' = db.dropStage stageId ∧ db.leads.countP (·.standsOn organizationId stageId) = 0)
        ∨ ∃ alternative ∈ db.listStages organizationId, alternative.lifecycle = stage.lifecycle
          ∧ alternative.id ≠ stageId
          ∧ db' = (bulkMoveStage db organizationId stageId alternative.id).dropStage stageId) := by
  rw [deleteStage] at h
  cases hstage : db.getStage organizationId stageId with
  | none =>
      rw [hstage] at h
      cases h
  | some stage =>
      have hid : stage.id = stageId := by
        have hfound := List.find?_some hstage
        simp only [Bool.and_eq_true, decide_eq_true_eq] at hfound
        exact hfound.2
      rw [hstage] at h
      dsimp only at h
      rw [hid] at h
      refine ⟨stage, rfl, hid, ?_⟩
      cases halternatives : ((db.listStages organizationId).filter
          (·.lifecycle = stage.lifecycle)).filter (·.id ≠ stageId) with
      | nil =>
          rw [halternatives] at h
          dsimp only at h
          split_ifs at h with hempty
          exact .inl ⟨commit_eq_ok h, not_not.mp hempty⟩
      | cons alternative rest =>
          rw [halternatives] at h
          dsimp only at h
          split_ifs at h with hempty
          · have hmem : alternative ∈ alternative :: rest := List.mem_cons_self
            rw [← halternatives, List.mem_filter, List.mem_filter] at hmem
            exact .inr ⟨alternative, hmem.1.1, of_decide_eq_true hmem.1.2, of_decide_eq_true hmem.2,
              commit_eq_ok h⟩
          · exact .inl ⟨commit_eq_ok h, not_not.mp hempty⟩

/-- Every call keeps the keys. -/
lemma run_wf (hwf : db.Wf) (h : call.run organizationId db = .ok db') : db'.Wf := by
  have hread : ∀ {db'}, readStages db organizationId = .ok db' → db'.Wf := fun h =>
    commit_eq_ok h ▸ (ensureDefaults_spec hwf organizationId).2.1
  cases call with
  | createStage name lifecycle position =>
      rw [StageCall.run, createStage] at h
      dsimp only at h
      split_ifs at h
      exact commit_eq_ok h ▸ hwf.addStage rfl
  | updateStage stageId name position =>
      rw [StageCall.run, updateStage] at h
      split at h
      · cases h
      · split_ifs at h
        exact commit_eq_ok h ▸ hwf.mapStages fun stage => by split_ifs <;> rfl
  | deleteStage stageId =>
      obtain ⟨stage, -, -, ⟨rfl, -⟩ | ⟨alternative, -, -, -, rfl⟩⟩ := deleteStage_eq_ok h
      · exact hwf.dropStage _
      · exact (hwf.mapLeads fun lead => by split_ifs <;> rfl).dropStage _
  | reorderStages stageIds =>
      rw [StageCall.run, reorderStages] at h
      split_ifs at h
      exact commit_eq_ok h ▸ hwf.mapStages fun stage => by split_ifs <;> rfl
  | listStages => exact hread h
  | board => exact hread h
  | listCloseReasons => exact hread h
  | move leadId stageId closeReasonId actor now =>
      obtain ⟨activity, lead, rfl⟩ := move_stages h
      have hseeded : ({ ensureDefaults db organizationId with activity := activity } : Db).Wf := by
        obtain ⟨h₁, h₂, h₃, h₄, h₅, h₆, h₇⟩ := (ensureDefaults_spec hwf organizationId).2.1
        exact ⟨h₁, h₂, h₃, h₄, h₅, h₆, h₇⟩
      refine hseeded.mapLeads fun other => ?_
      split_ifs with hid
      · exact hid.symm
      · rfl

/-- **A call leaves the stages that result from it**, if the seeding adds none. -/
lemma run_ownStages (h : call.run organizationId db = .ok db')
    (hseeded : call.seeds = true → Seeded organizationId db) :
    db'.ownStages organizationId
      = call.administered organizationId db.nextId (db.ownStages organizationId) := by
  have hread : ∀ {db'}, Seeded organizationId db → readStages db organizationId = .ok db' →
      db'.ownStages organizationId = db.ownStages organizationId := by
    intro db' hseeded h
    obtain rfl := commit_eq_ok h
    rw [Db.ownStages, ensureDefaults_of_seeded hseeded, Db.ownStages]
  -- a change that keeps the organization of each row
  have hmap : ∀ f : PipelineStage → PipelineStage,
      (∀ stage, (f stage).organizationId = stage.organizationId) →
      (db.stages.map f).filter (·.organizationId = organizationId)
        = (db.ownStages organizationId).map f := by
    intro f hf
    rw [List.filter_map, Db.ownStages]
    refine congrArg (List.map f) (List.filter_congr fun stage _ => ?_)
    rw [Function.comp_apply, hf]
  cases call with
  | createStage name lifecycle position =>
      rw [StageCall.run, createStage] at h
      dsimp only at h
      split_ifs at h
      rw [commit_eq_ok h, Db.ownStages, List.filter_append, List.filter_cons_of_pos (by simp)]
      rfl
  | updateStage stageId name position =>
      rw [StageCall.run, updateStage] at h
      split at h
      · cases h
      · split_ifs at h
        rw [commit_eq_ok h]
        exact hmap _ fun stage => by split_ifs <;> rfl
  | deleteStage stageId =>
      have hdrop : ((db.stages.filter (·.id ≠ stageId)).filter (·.organizationId = organizationId))
          = (db.ownStages organizationId).filter (·.id ≠ stageId) := by
        rw [Db.ownStages, List.filter_filter, List.filter_filter]
        exact List.filter_congr fun stage _ => Bool.and_comm _ _
      obtain ⟨stage, -, -, ⟨rfl, -⟩ | ⟨alternative, -, -, -, rfl⟩⟩ := deleteStage_eq_ok h
      · exact hdrop
      · exact hdrop
  | reorderStages stageIds =>
      rw [StageCall.run, reorderStages] at h
      split_ifs at h
      rw [commit_eq_ok h]
      have hown : ∀ stage ∈ db.ownStages organizationId,
          (if stage.organizationId = organizationId then setPositions stageIds stage else stage)
            = setPositions stageIds stage := fun stage hstage =>
        if_pos (of_decide_eq_true (List.mem_filter.mp hstage).2)
      exact (hmap _ fun stage => by split_ifs <;> rfl).trans (List.map_congr_left hown)
  | listStages => exact hread (hseeded rfl) h
  | board => exact hread (hseeded rfl) h
  | listCloseReasons => exact hread (hseeded rfl) h
  | move leadId stageId closeReasonId actor now =>
      obtain ⟨activity, lead, rfl⟩ := move_stages h
      exact congrArg (List.filter _) (ensureDefaults_of_seeded (hseeded rfl))

/-- After a seeding all seeded stages are there. -/
lemma seeded_of_run (hwf : db.Wf) (h : call.run organizationId db = .ok db')
    (hseeds : call.seeds = true) : Seeded organizationId db' := by
  have hread : ∀ {db'}, readStages db organizationId = .ok db' → Seeded organizationId db' := fun h =>
    commit_eq_ok h ▸ seeded_ensureDefaults hwf
  cases call with
  | createStage | updateStage | deleteStage | reorderStages => cases hseeds
  | listStages => exact hread h
  | board => exact hread h
  | listCloseReasons => exact hread h
  | move leadId stageId closeReasonId actor now =>
      obtain ⟨activity, lead, rfl⟩ := move_stages h
      exact @seeded_ensureDefaults organizationId db hwf

/-! ### The order that is asked for -/

/-- A list that is sorted by the places in another is the other. -/
lemma eq_of_pairwise_idxOf {ids l : List ℕ} (hnodup : ids.Nodup) (hperm : l.Perm ids)
    (hsorted : l.Pairwise fun a b => ids.idxOf a ≤ ids.idxOf b) : l = ids := by
  have hids : ids.Pairwise fun a b => ids.idxOf a ≤ ids.idxOf b := by
    refine List.pairwise_iff_getElem.mpr fun i j hi hj hij => ?_
    rw [hnodup.idxOf_getElem i hi, hnodup.idxOf_getElem j hj]
    exact hij.le
  refine List.Perm.eq_of_pairwise ?_ hsorted hids hperm
  intro a b ha hb hab hba
  exact (List.idxOf_inj (hperm.mem_iff.mp ha)).mp (le_antisymm hab hba)

lemma nodup_ownStages (hwf : db.Wf) : ((db.ownStages organizationId).map (·.id)).Nodup :=
  hwf.stageIds.sublist (List.filter_sublist.map _)

/-- **A reordering that is accepted leaves the order that was asked for.** -/
lemma map_id_listing_reorder (hwf : db.Wf) {stageIds : List ℕ}
    (h : reorderStages db organizationId stageIds = .ok db') :
    (db'.listStages organizationId).map (·.id) = stageIds := by
  have hown : db'.ownStages organizationId
      = (db.ownStages organizationId).map (setPositions stageIds) :=
    @run_ownStages organizationId db db' (.reorderStages stageIds) h nofun
  have hlisted : (db'.listStages organizationId).Perm (db'.ownStages organizationId) :=
    sortedBy_perm _ _
  rw [reorderStages] at h
  split_ifs at h with hmismatch
  obtain ⟨hset, hlength⟩ := not_or.mp hmismatch
  have hids : ((db.listStages organizationId).map (·.id)).Perm
      ((db.ownStages organizationId).map (·.id)) := (sortedBy_perm _ _).map _
  have hnodup : ((db.listStages organizationId).map (·.id)).Nodup :=
    hids.nodup_iff.mpr (nodup_ownStages hwf)
  have hasked : stageIds.Nodup := by
    refine Multiset.coe_nodup.mp (Multiset.toFinset_card_eq_card_iff_nodup.mp ?_)
    calc stageIds.toFinset.card
        = ((db.listStages organizationId).map (·.id)).toFinset.card := by rw [not_not.mp hset]
      _ = (db.listStages organizationId).length := by
          rw [List.toFinset_card_of_nodup hnodup, List.length_map]
      _ = stageIds.length := (not_not.mp hlength).symm
  have hperm : ((db.listStages organizationId).map (·.id)).Perm stageIds :=
    List.perm_of_nodup_nodup_toFinset_eq hnodup hasked (not_not.mp hset).symm
  refine eq_of_pairwise_idxOf hasked ?_ ?_
  · have hsame : (db'.ownStages organizationId).map (·.id)
        = (db.ownStages organizationId).map (·.id) := by
      rw [hown, List.map_map]
      rfl
    exact (hlisted.map _).trans (hsame ▸ hids.symm.trans hperm)
  · refine List.pairwise_map.mpr ?_
    refine (sortedBy_pairwise (·.position) (db'.ownStages organizationId)).imp_of_mem ?_
    intro stage other hstage hother hle
    have hposition : ∀ stage ∈ sortedBy (·.position) (db'.ownStages organizationId),
        stage.position = stageIds.idxOf stage.id := by
      intro stage hstage
      rw [mem_sortedBy, hown] at hstage
      obtain ⟨stage, -, rfl⟩ := List.mem_map.mp hstage
      rfl
    rw [hposition stage hstage, hposition other hother] at hle
    exact Int.ofNat_le.mp hle

/-! ### Where the leads go -/

/-- **A deletion rehouses the leads.** -/
lemma deleteStage_rehouses (hwf : db.Wf) {stageId : ℕ}
    (h : deleteStage db organizationId stageId = .ok db') : Rehoused organizationId stageId db db' := by
  intro stage lead hstage hlead hstands
  have hwf' : db'.Wf := @run_wf organizationId db db' (.deleteStage stageId) hwf h
  obtain ⟨found, hfound, -, ⟨-, hempty⟩ | ⟨alternative, halternative, hlifecycle, hother, rfl⟩⟩ :=
    deleteStage_eq_ok h
  · exact absurd hstands (List.countP_eq_zero.mp hempty lead hlead)
  · obtain rfl := Option.some.inj (hfound.symm.trans hstage)
    obtain ⟨hmem, horganization⟩ := List.mem_filter.mp (mem_sortedBy.mp halternative)
    -- the lead is moved, and is then on a stage that is not dropped
    have hmoved : { lead with stageId := some alternative.id }
        ∈ (bulkMoveStage db organizationId stageId alternative.id).leads :=
      List.mem_map.mpr ⟨lead, hlead, if_pos hstands⟩
    have hkept : { lead with stageId := some alternative.id }
        ∈ ((bulkMoveStage db organizationId stageId alternative.id).dropStage stageId).leads :=
      List.mem_map.mpr ⟨_, hmoved, if_neg fun hsame => hother (Option.some.inj hsame)⟩
    have hstays : alternative
        ∈ ((bulkMoveStage db organizationId stageId alternative.id).dropStage stageId).stages :=
      List.mem_filter.mpr ⟨hmem, decide_eq_true hother⟩
    have hfind := getStage_of_mem hwf' hstays
    rw [of_decide_eq_true horganization] at hfind
    exact ⟨_, hkept, rfl, alternative, hfind, hlifecycle⟩

/-! ### Runs -/

lemma afterCalls_concat (before : List StageCall) (call : StageCall) (db : Db) :
    afterCalls organizationId (before ++ [call]) db
      = call.after organizationId (afterCalls organizationId before db) := by
  rw [afterCalls, List.foldl_concat]
  rfl

/-- The tables run along. -/
lemma administer_fst (calls : List StageCall) (db : Db) :
    (administer organizationId calls db).1 = afterCalls organizationId calls db := by
  induction calls using List.reverseRecOn with
  | nil => rfl
  | append_singleton before call ih =>
      rw [afterCalls_concat, administer, List.foldl_concat, ← ih]
      rfl

lemma administer_concat (before : List StageCall) (call : StageCall) (db : Db) :
    (administer organizationId (before ++ [call]) db).2
      = if call.accepted organizationId (afterCalls organizationId before db) then
          call.administered organizationId (afterCalls organizationId before db).nextId
            (administer organizationId before db).2
        else (administer organizationId before db).2 := by
  rw [administer, List.foldl_concat, ← administer_fst]
  rfl

/-- A call that is accepted leaves what it returns. -/
lemma run_of_accepted (h : call.accepted organizationId db = true) :
    call.run organizationId db = .ok (call.after organizationId db) := by
  rw [StageCall.accepted] at h
  rw [StageCall.after]
  cases hrun : call.run organizationId db with
  | ok db' => rfl
  | error e =>
      rw [hrun] at h
      cases h

/-- One that is refused leaves the tables as they were. -/
lemma after_of_refused (h : ¬ call.accepted organizationId db = true) :
    call.after organizationId db = db := by
  rw [StageCall.accepted] at h
  rw [StageCall.after]
  cases hrun : call.run organizationId db with
  | ok db' =>
      rw [hrun] at h
      exact absurd rfl h
  | error e => rfl

lemma afterCalls_wf (hwf : db.Wf) (calls : List StageCall) :
    (afterCalls organizationId calls db).Wf := by
  induction calls using List.reverseRecOn with
  | nil => exact hwf
  | append_singleton before call ih =>
      rw [afterCalls_concat]
      by_cases haccepted : call.accepted organizationId (afterCalls organizationId before db) = true
      · exact run_wf ih (run_of_accepted haccepted)
      · rw [after_of_refused haccepted]
        exact ih

/-- **The stages are those that result from the calls**, as long as the seeding adds none. -/
lemma administer_eq_ownStages {calls : List StageCall}
    (h : ∀ before call, before ++ [call] <+: calls → call.seeds = true →
      call.accepted organizationId (afterCalls organizationId before db) = true →
      Seeded organizationId (afterCalls organizationId before db)) :
    (administer organizationId calls db).2
      = (afterCalls organizationId calls db).ownStages organizationId := by
  induction calls using List.reverseRecOn with
  | nil => rfl
  | append_singleton before call ih =>
      have hbefore := ih fun earlier other hinit =>
        h earlier other (hinit.trans (List.prefix_append _ _))
      rw [administer_concat, afterCalls_concat, hbefore]
      by_cases haccepted : call.accepted organizationId (afterCalls organizationId before db) = true
      · rw [if_pos haccepted]
        exact (run_ownStages (run_of_accepted haccepted) fun hseeds =>
          h before call List.prefix_rfl hseeds haccepted).symm
      · rw [if_neg haccepted, after_of_refused haccepted]

/-- What is listed as before holds the same stages. -/
lemma Seeded.of_listing (h : Seeded organizationId db')
    (hsame : db'.listStages organizationId = db.listStages organizationId) :
    Seeded organizationId db := by
  intro seed hseed
  obtain ⟨stage, hstage, hname⟩ := h seed hseed
  have hlisted : stage ∈ db'.listStages organizationId := mem_sortedBy.mpr hstage
  rw [hsame] at hlisted
  exact ⟨stage, mem_sortedBy.mp hlisted, hname⟩

/-- **A run is stable exactly when** every read and every move that commits finds all seeded stages. -/
theorem stableRun_iff (hwf : db.Wf) (calls : List StageCall) :
    StableRun organizationId calls db ↔
      ∀ before call, before ++ [call] <+: calls → call.seeds = true →
        call.accepted organizationId (afterCalls organizationId before db) = true →
        Seeded organizationId (afterCalls organizationId before db) := by
  constructor
  · intro hstable before call hinit hseeds haccepted
    refine (seeded_of_run (afterCalls_wf hwf before) (run_of_accepted haccepted) hseeds).of_listing ?_
    -- the call is to leave the stages as they are
    have hleft : call.administered organizationId (afterCalls organizationId before db).nextId
        (administer organizationId before db).2 = (administer organizationId before db).2 := by
      cases call with
      | createStage | updateStage | deleteStage | reorderStages => cases hseeds
      | listStages | board | listCloseReasons | move => rfl
    calc (call.after organizationId (afterCalls organizationId before db)).listStages organizationId
        = (afterCalls organizationId (before ++ [call]) db).listStages organizationId := by
          rw [afterCalls_concat]
      _ = listing (administer organizationId (before ++ [call]) db).2 := hstable.stages _ hinit
      _ = listing (administer organizationId before db).2 := by
          rw [administer_concat, if_pos haccepted, hleft]
      _ = (afterCalls organizationId before db).listStages organizationId :=
          (hstable.stages before ((List.prefix_append _ _).trans hinit)).symm
  · intro h
    refine ⟨fun before hbefore => ?_, fun before stageIds _ haccepted => ?_,
      fun before stageId _ haccepted => ?_⟩
    · rw [administer_eq_ownStages fun earlier call hinit => h earlier call (hinit.trans hbefore)]
      rfl
    · rw [afterCalls_concat]
      exact map_id_listing_reorder (afterCalls_wf hwf before) (run_of_accepted haccepted)
    · rw [afterCalls_concat]
      exact deleteStage_rehouses (afterCalls_wf hwf before) (run_of_accepted haccepted)

/-- Beside all seeded stages, a stage that is created is listed and nothing else changes. -/
theorem stableRun_createStage :
    StableRun 1 [.createStage "demo" .open (some 3), .listStages] (ensureDefaults .empty 1) := by
  have hwf : (ensureDefaults .empty 1).Wf := (ensureDefaults_spec wf_empty 1).2.1
  refine (stableRun_iff hwf _).mpr fun before call hinit hseeds _ => ?_
  rw [← List.mem_inits] at hinit
  have hcases : before = [] ∧ call = .createStage "demo" .open (some 3)
      ∨ before = [.createStage "demo" .open (some 3)] ∧ call = .listStages := by
    simpa [List.inits, List.append_eq_cons_iff, List.singleton_eq_append_iff] using hinit
  obtain ⟨-, rfl⟩ | ⟨rfl, -⟩ := hcases
  · cases hseeds
  · rw [Seeded]
    decide +kernel

/-- A seeded stage that is deleted is listed again. -/
theorem not_stableRun_deleteStage :
    ¬ StableRun 1 [.deleteStage 1, .listStages] (ensureDefaults .empty 1) := fun h =>
  absurd (h.stages _ List.prefix_rfl) (by decide +kernel)

end Leads
