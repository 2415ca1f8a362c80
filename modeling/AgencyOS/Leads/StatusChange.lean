import AgencyOS.Leads.Lifecycle

/-!
A change of status that is asked for by name.

The lead ends in a stage of the bucket of the status.  From an open stage to an open status it keeps
the stage it stands in, and the status then follows that stage: the one that was asked for is lost
unless the stage bears its name, or the stage bears none and the status was there before.

* `Survives`: the stage that the lead stands in lets the status be;
* `openStatusFor_eq`: the status of an open stage;
* `pickStage_open`: the stage that an open status ends in;
* `reconcile_status_iff`: **the lead ends in the status that was asked for exactly when it survives**.
-/

namespace Leads

open Python

/-- The stage that the lead stands in lets the status be, when both are open. -/
def Survives (db : Db) (organizationId : ℕ) (lead : Lead) (status : LeadStatus) : Prop :=
  status ∈ openStatuses →
    ∀ stage, lead.stageId.bind (db.getStage organizationId) = some stage → stage.lifecycle = .open →
      stage.name = status.value ∨
        (∀ named ∈ openStatuses, stage.name ≠ named.value) ∧
          (lead.status = status ∨ lead.status ∉ openStatuses ∧ status = .contacted)

/-! ### Names of statuses -/

lemma statusNamed_eq_some {name : String} {status : LeadStatus} :
    statusNamed name = some status ↔ status.value = name := by
  constructor
  · intro h
    simpa using List.find?_some h
  · rintro rfl
    cases status <;> decide

lemma value_inj {status status' : LeadStatus} (h : status.value = status'.value) :
    status = status' := by
  have hsame := statusNamed_eq_some.2 h
  rw [statusNamed_eq_some.2 rfl] at hsame
  exact (Option.some.inj hsame).symm

/-- The status of a lead in an open stage. -/
lemma openStatusFor_eq {stage : PipelineStage} {previous status : LeadStatus}
    (hopen : status ∈ openStatuses) : openStatusFor stage previous = status ↔
      stage.name = status.value ∨
        (∀ named ∈ openStatuses, stage.name ≠ named.value) ∧
          (previous = status ∨ previous ∉ openStatuses ∧ status = .contacted) := by
  have hprevious : (if previous ∈ openStatuses then previous else LeadStatus.contacted) = status ↔
      previous = status ∨ previous ∉ openStatuses ∧ status = .contacted := by
    split_ifs with hmem
    · simp [hmem]
    · have hne : previous ≠ status := by
        rintro rfl
        exact hmem hopen
      simp [hmem, hne, eq_comm]
  have hunnamed : (∀ named ∈ openStatuses, stage.name ≠ named.value) →
      ((if previous ∈ openStatuses then previous else LeadStatus.contacted) = status ↔
        stage.name = status.value ∨ (∀ named ∈ openStatuses, stage.name ≠ named.value) ∧
          (previous = status ∨ previous ∉ openStatuses ∧ status = .contacted)) := by
    intro hnone
    rw [hprevious, or_iff_right (hnone status hopen), and_iff_right hnone]
  rw [openStatusFor]
  cases hnamed : statusNamed stage.name with
  | none =>
      refine hunnamed fun named _ hname => ?_
      rw [statusNamed_eq_some.2 hname.symm] at hnamed
      cases hnamed
  | some candidate =>
      have hname := statusNamed_eq_some.1 hnamed
      dsimp only
      by_cases hcandidate : candidate ∈ openStatuses
      · rw [if_pos hcandidate, or_iff_left fun h => h.1 candidate hcandidate hname.symm]
        constructor
        · rintro rfl
          exact hname.symm
        · exact fun hstatus => value_inj (hname.trans hstatus)
      · rw [if_neg hcandidate]
        refine hunnamed fun named hmem hstatus => hcandidate ?_
        rw [value_inj (hname.trans hstatus)]
        exact hmem

/-! ### The stage of an open status -/

variable {db : Db} {organizationId : ℕ} {lead : Lead} {status : LeadStatus}

/-- The stage of a lead is the one it stood in before the defaults were added. -/
lemma getStage_ensureDefaults (hwf : db.Wf)
    (hreferenced : ∀ id, lead.stageId = some id → ∃ stage ∈ db.stages, stage.id = id) :
    lead.stageId.bind ((ensureDefaults db organizationId).getStage organizationId)
      = lead.stageId.bind (db.getStage organizationId) := by
  obtain ⟨hextends, hwf', -⟩ := ensureDefaults_seeded hwf organizationId
  cases hid : lead.stageId with
  | none => rfl
  | some id =>
      obtain ⟨stage, hmem, rfl⟩ := hreferenced id hid
      rw [Option.bind_some, Option.bind_some]
      cases hfind : db.getStage organizationId stage.id with
      | some found => exact find?_of_prefix hextends.stages hfind
      | none =>
          rw [Db.getStage, List.find?_eq_none]
          intro other hother hsame
          have hother' : other.organizationId = organizationId ∧ other.id = stage.id := by
            simpa using hsame
          obtain rfl := List.inj_on_of_nodup_map hwf'.stageIds hother
            (hextends.stages.subset hmem) hother'.2
          have hnone := List.find?_eq_none.1 hfind other hmem
          simp [hother'.1] at hnone

/-- The seeded stage of an open status is found by its name. -/
lemma getDefault_named (hwf : db.Wf) (hopen : status ∈ openStatuses) {stage : PipelineStage}
    (h : getDefault (ensureDefaults db organizationId) organizationId .open (some status.value)
      = some stage) : stage.name = status.value := by
  obtain ⟨-, -, hseeded⟩ := ensureDefaults_seeded hwf organizationId
  have hseed : ∃ seed ∈ defaultStages, seed.1 = status.value ∧ seed.2.1 = .open := by
    revert hopen
    cases status <;> decide
  obtain ⟨seed, hmem, hname, hlifecycle⟩ := hseed
  obtain ⟨seeded, hthere, horganization, hnamed, hopened⟩ := hseeded seed hmem
  rw [getDefault, Option.bind_some] at h
  cases hfind : (((ensureDefaults db organizationId).listStages organizationId).filter
      (·.lifecycle = .open)).find? (·.name = status.value) with
  | none =>
      have hnone := List.find?_eq_none.1 hfind seeded (by
        simpa [Db.listStages] using ⟨⟨hthere, horganization⟩, hopened.trans hlifecycle⟩)
      simp [hnamed, hname] at hnone
  | some found =>
      rw [hfind, Option.some_or] at h
      obtain rfl := Option.some.inj h
      simpa using List.find?_some hfind

/-- **The stage that an open status ends in**: the open stage that the lead stands in, else one that
bears the name of the status. -/
lemma pickStage_open (hwf : db.Wf) (hopen : status ∈ openStatuses)
    (hreferenced : ∀ id, lead.stageId = some id → ∃ stage ∈ db.stages, stage.id = id)
    {stage : PipelineStage}
    (h : pickStage (ensureDefaults db organizationId) organizationId { lead with status := status }
      none true = .ok (some stage)) :
    (lead.stageId.bind (db.getStage organizationId) = some stage ∧ stage.lifecycle = .open) ∨
      (∀ current, lead.stageId.bind (db.getStage organizationId) = some current →
        current.lifecycle ≠ .open) ∧ stage.name = status.value := by
  have hbucket : bucketOf status = .open := by
    revert hopen
    cases status <;> decide
  rw [pickStage] at h
  dsimp only at h
  rw [getStage_ensureDefaults hwf hreferenced, hbucket, if_pos rfl, if_pos rfl] at h
  cases hcurrent : lead.stageId.bind (db.getStage organizationId) with
  | none =>
      rw [hcurrent] at h
      exact .inr ⟨fun _ hsome => (by cases hsome), getDefault_named hwf hopen (Except.ok.inj h)⟩
  | some current =>
      rw [hcurrent] at h
      dsimp only at h
      split_ifs at h with hsame
      · obtain rfl := Option.some.inj (Except.ok.inj h)
        exact .inl ⟨rfl, hsame⟩
      · refine .inr ⟨fun other hother => ?_, getDefault_named hwf hopen (Except.ok.inj h)⟩
        obtain rfl := Option.some.inj hother
        exact hsame

/-! ### The change -/

/-- A status that is asked for ends in a stage of its bucket, and is the status of that stage. -/
lemma reconcile_status (hwf : db.Wf) {change : Transition} (hstatus : change.status = some status)
    (hstage : change.stageId = none) {now : Datetime} {db' : Db} {lead' : Lead}
    (h : reconcile db organizationId lead change now = .ok (db', lead')) :
    ∃ stage, pickStage (ensureDefaults db organizationId) organizationId
        { lead with status := status } none true = .ok (some stage)
      ∧ lead'.stageId.bind (db'.getStage organizationId) = some stage
      ∧ stage.lifecycle = bucketOf status
      ∧ lead'.status = (enterStage { lead with status := status } lead.status stage).status := by
  unfold reconcile at h
  obtain ⟨picked, hpick, h⟩ := bind_ok h
  obtain ⟨stage, rfl, hfound, hlifecycle⟩ := pickStage_spec hwf hpick
  obtain ⟨given, hgiven, h⟩ := bind_ok h
  obtain ⟨rfl, rfl⟩ := Prod.mk.inj (Except.ok.inj h)
  obtain ⟨rfl, -⟩ := giveReason_spec hgiven
  rw [hstatus, hstage] at hpick
  have hbooked := keepBooks_spec (enterStage { lead with status := change.status.getD lead.status }
    lead.status stage) lead.status now
  refine ⟨stage, hpick, ?_, ?_, ?_⟩
  · dsimp only
    rw [hbooked.stageId]
    exact hfound
  · rw [hlifecycle, targetBucket, hstage, hstatus]
    rfl
  · dsimp only
    rw [hbooked.status, hstatus]
    rfl

/-- **A lead ends in the status that was asked for exactly when the status survives in its stage**; in a
stage of the bucket of the status it ends in any case. -/
theorem reconcile_status_iff (hwf : db.Wf)
    (hreferenced : ∀ id, lead.stageId = some id → ∃ stage ∈ db.stages, stage.id = id)
    {change : Transition} (hstatus : change.status = some status) (hstage : change.stageId = none)
    {now : Datetime} {db' : Db} {lead' : Lead}
    (h : reconcile db organizationId lead change now = .ok (db', lead')) :
    (lead'.status = status ∧ ∃ stage,
        lead'.stageId.bind (db'.getStage organizationId) = some stage ∧
          stage.lifecycle = bucketOf status) ↔
      Survives db organizationId lead status := by
  obtain ⟨stage, hpick, hfound, hlifecycle, hends⟩ := reconcile_status hwf hstatus hstage h
  rw [and_iff_left ⟨stage, hfound, hlifecycle⟩, hends, enterStage]
  dsimp only
  by_cases hopen : status ∈ openStatuses
  · have hbucket : bucketOf status = .open := by
      revert hopen
      cases status <;> decide
    rw [hlifecycle, hbucket]
    dsimp only
    rw [openStatusFor_eq hopen]
    rcases pickStage_open hwf hopen hreferenced hpick with ⟨hcurrent, hopened⟩ | ⟨hclosed, hname⟩
    · constructor
      · intro hkept _ current hcurrent' _
        rw [hcurrent] at hcurrent'
        obtain rfl := Option.some.inj hcurrent'
        exact hkept
      · exact fun hsurvives => hsurvives hopen stage hcurrent hopened
    · refine ⟨fun _ _ current hcurrent hopened => ?_, fun _ => .inl hname⟩
      exact absurd hopened (hclosed current hcurrent)
  · have hclosed : status = .won ∨ status = .lost := by
      revert hopen
      cases status <;> decide
    refine ⟨fun _ hmem => absurd hmem hopen, fun _ => ?_⟩
    rw [hlifecycle]
    rcases hclosed with rfl | rfl
    · rfl
    · rfl

/-! ### Two changes -/

/-- A change of status alone. -/
def moveTo (status : LeadStatus) : Transition := ⟨some status, none, none, none, true⟩

/-- A lead that stands in no stage goes to the one of the status. -/
theorem reconcile_status_contacted :
    ∃ db' lead', reconcile .empty 1 (newLead 9 1 (bareLead none)) (moveTo .contacted) 5
        = .ok (db', lead')
      ∧ lead'.status = .contacted ∧ ∃ stage, lead'.stageId.bind (db'.getStage 1) = some stage
        ∧ stage.lifecycle = .open := by
  cases hreconcile : reconcile .empty 1 (newLead 9 1 (bareLead none)) (moveTo .contacted) 5 with
  | error e =>
      have hok : (reconcile .empty 1 (newLead 9 1 (bareLead none)) (moveTo .contacted) 5).isOk
          = true := by decide +kernel
      rw [hreconcile] at hok
      cases hok
  | ok result =>
      exact ⟨_, _, rfl, (reconcile_status_iff wf_empty (fun _ hid => by cases hid) rfl rfl
        hreconcile).2 fun _ _ hstage => by cases hstage⟩

/-- A new lead in the stage of new leads that is moved to contacted stays new. -/
theorem reconcile_status_lost :
    (reconcile (ensureDefaults .empty 1) 1 { newLead 20 1 (bareLead none) with stageId := some 0 }
      (moveTo .contacted) 5).toOption.map (fun result => (result.2.status, result.2.stageId))
      = some (.new, some 0) := by
  decide +kernel

end Leads
