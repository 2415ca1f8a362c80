import AgencyOS.Leads.LeadService

/-!
The lifecycle of a lead over any sequence of calls.

Stage, status, timestamps and close reason of a lead are meant to move together.  They do unless a
lead is created in the status that it ends in, won or lost, which leaves its timestamp out, or moves
between won and lost without a close reason while it has one.

* `InStep`: the five fields agree;
* `targetBucket`: the bucket a transition ends in, from its arguments;
* `Covered`: the calls that keep the fields in step;
* `reconcile_inStep`, `step_kept`, `lifecycle_run`: one transition, one call, every run.
-/

namespace Leads

open Python

/-! ### The invariant -/

/-- Stage, status, timestamps and close reason of a lead agree. -/
structure InStep (db : Db) (lead : Lead) : Prop where
  stage : ∃ stage, lead.stageId.bind (db.getStage lead.organizationId) = some stage ∧
    stage.lifecycle = bucketOf lead.status
  wonAt : lead.wonAt.isSome ↔ bucketOf lead.status = .won
  lostAt : lead.lostAt.isSome ↔ bucketOf lead.status = .lost
  noReason : bucketOf lead.status = .open → lead.closeReasonId = none
  closeReason : ∀ id, lead.closeReasonId = some id →
    ∃ reason, db.getReason lead.organizationId id = some reason ∧
      reason.lifecycle = bucketOf lead.status

/-- What the database guarantees: primary keys, and close reasons that are won or lost. -/
structure Db.Wf (db : Db) : Prop where
  stageIds : (db.stages.map (·.id)).Nodup
  stageFresh : ∀ stage ∈ db.stages, stage.id < db.nextId
  reasonIds : (db.reasons.map (·.id)).Nodup
  reasonFresh : ∀ reason ∈ db.reasons, reason.id < db.nextId
  reasonClosed : ∀ reason ∈ db.reasons, reason.lifecycle ≠ .open
  leadIds : (db.leads.map (·.id)).Nodup
  leadFresh : ∀ lead ∈ db.leads, lead.id < db.nextId

/-- The bucket that a transition of the lead ends in. -/
def targetBucket (db : Db) (organizationId : ℕ) (lead : Lead) (change : Transition) :
    StageLifecycle :=
  let db := ensureDefaults db organizationId
  match change.stageId.bind (db.getStage organizationId) with
  | some stage => stage.lifecycle
  | none =>
      match change.status with
      | some status => bucketOf status
      | none =>
          match lead.stageId.bind (db.getStage organizationId) with
          | some stage => stage.lifecycle
          | none => bucketOf lead.status

/-- A close reason that the lead has is replaced, cleared, or still of its bucket. -/
def KeepsReason (db : Db) (organizationId : ℕ) (lead : Lead) (change : Transition) : Prop :=
  lead.closeReasonId = none ∨ change.closeReasonId ≠ none ∨
    targetBucket db organizationId lead change = .open ∨
    targetBucket db organizationId lead change = bucketOf lead.status

/-- The calls that keep the fields in step. -/
def Covered (db : Db) : Op → Prop
  | .create organizationId data _ =>
      bucketOf (data.status.getD .new) = .open ∨
      targetBucket (db.insertLead (newLead db.nextId organizationId data)) organizationId
        (newLead db.nextId organizationId data) data.transition ≠ bucketOf (data.status.getD .new)
  | .update organizationId leadId data =>
      data.reconciles → ∀ lead, db.getLead organizationId leadId = some lead →
        KeepsReason db organizationId lead data.transition
  | .reconcile organizationId leadId change =>
      ∀ lead, db.getLead organizationId leadId = some lead →
        KeepsReason db organizationId lead change

/-- The states that completed calls reach, each allowed where it was made. -/
inductive Run (n : Normalizers) (allowed : Db → Op → Prop) (db : Db) : Db → Prop
  | refl : Run n allowed db db
  | call {db' db'' : Db} (now : Datetime) (op : Op) : Run n allowed db db' → allowed db' op →
      step n db' now op = .ok db'' → Run n allowed db db''

/-! ### The seeded defaults -/

/-- Stages and close reasons are added, nothing else. -/
structure Extends (db db' : Db) : Prop where
  stages : db.stages <+: db'.stages
  reasons : db.reasons <+: db'.reasons
  leads : db'.leads = db.leads

lemma Extends.refl (db : Db) : Extends db db := ⟨List.prefix_rfl, List.prefix_rfl, rfl⟩

lemma Extends.trans {db db' db'' : Db} (h : Extends db db') (h' : Extends db' db'') :
    Extends db db'' :=
  ⟨h.stages.trans h'.stages, h.reasons.trans h'.reasons, h'.leads.trans h.leads⟩

lemma find?_of_prefix {α : Type} {p : α → Bool} {l l' : List α} {a : α} (hl : l <+: l')
    (h : l.find? p = some a) : l'.find? p = some a := by
  obtain ⟨t, rfl⟩ := hl
  rw [List.find?_append, h, Option.some_or]

lemma Extends.getReason {db db' : Db} (h : Extends db db') {organizationId id : ℕ}
    {reason : CloseReason} (hreason : db.getReason organizationId id = some reason) :
    db'.getReason organizationId id = some reason :=
  find?_of_prefix h.reasons hreason

/-- A lead that nothing touched stays in step, whatever stages and close reasons are added. -/
lemma InStep.extends {db db' : Db} {lead : Lead} (hlead : InStep db lead)
    (hstages : db.stages <+: db'.stages) (hreasons : db.reasons <+: db'.reasons) :
    InStep db' lead := by
  obtain ⟨⟨stage, hstage, hbucket⟩, hwon, hlost, hnone, hreason⟩ := hlead
  refine ⟨⟨stage, ?_, hbucket⟩, hwon, hlost, hnone, fun id hid => ?_⟩
  · obtain ⟨id, hid, hfind⟩ := Option.bind_eq_some_iff.1 hstage
    exact Option.bind_eq_some_iff.2 ⟨id, hid, find?_of_prefix hstages hfind⟩
  · obtain ⟨reason, hfind, hlifecycle⟩ := hreason id hid
    exact ⟨reason, find?_of_prefix hreasons hfind, hlifecycle⟩

lemma nodup_concat_fresh {α : Type} {key : α → ℕ} {l : List α} {a : α} {bound : ℕ}
    (hn : (l.map key).Nodup) (hfresh : ∀ b ∈ l, key b < bound) (ha : key a = bound) :
    ((l ++ [a]).map key).Nodup := by
  rw [List.map_append, List.map_singleton, ← List.concat_eq_append]
  refine hn.concat fun hmem => ?_
  obtain ⟨b, hb, hkey⟩ := List.mem_map.1 hmem
  have := hfresh b hb
  omega

lemma ensureStage_spec (organizationId : ℕ) (stages : List PipelineStage) {db : Db × ℤ}
    (seed : String × StageLifecycle × Bool) (hwf : db.1.Wf) :
    Extends db.1 (ensureStage organizationId stages db seed).1 ∧
      (ensureStage organizationId stages db seed).1.Wf := by
  rw [ensureStage]
  split
  · exact ⟨.refl _, hwf⟩
  · refine ⟨⟨List.prefix_append _ _, List.prefix_rfl, rfl⟩, ?_⟩
    obtain ⟨hstages, hfresh, hreasons, hreasonFresh, hclosed, hleads, hleadFresh⟩ := hwf
    refine ⟨nodup_concat_fresh hstages hfresh rfl, ?_, hreasons, ?_, hclosed, hleads, ?_⟩
    · intro stage hstage
      rcases List.mem_append.1 hstage with hstage | hstage
      · exact Nat.lt_succ_of_lt (hfresh stage hstage)
      · rw [List.mem_singleton.1 hstage]
        exact Nat.lt_succ_self _
    · exact fun reason hreason => Nat.lt_succ_of_lt (hreasonFresh reason hreason)
    · exact fun lead hlead => Nat.lt_succ_of_lt (hleadFresh lead hlead)

lemma ensureReason_spec (organizationId : ℕ) (reasons : List CloseReason) {db : Db}
    {seed : String × StageLifecycle × Bool} (hseed : seed.2.1 ≠ .open) (hwf : db.Wf) :
    Extends db (ensureReason organizationId reasons db seed) ∧
      (ensureReason organizationId reasons db seed).Wf := by
  rw [ensureReason]
  split
  · exact ⟨.refl _, hwf⟩
  · refine ⟨⟨List.prefix_rfl, List.prefix_append _ _, rfl⟩, ?_⟩
    obtain ⟨hstages, hfresh, hreasons, hreasonFresh, hclosed, hleads, hleadFresh⟩ := hwf
    refine ⟨hstages, ?_, nodup_concat_fresh hreasons hreasonFresh rfl, ?_, ?_, hleads, ?_⟩
    · exact fun stage hstage => Nat.lt_succ_of_lt (hfresh stage hstage)
    · intro reason hreason
      rcases List.mem_append.1 hreason with hreason | hreason
      · exact Nat.lt_succ_of_lt (hreasonFresh reason hreason)
      · rw [List.mem_singleton.1 hreason]
        exact Nat.lt_succ_self _
    · intro reason hreason
      rcases List.mem_append.1 hreason with hreason | hreason
      · exact hclosed reason hreason
      · rw [List.mem_singleton.1 hreason]
        exact hseed
    · exact fun lead hlead => Nat.lt_succ_of_lt (hleadFresh lead hlead)

/-- Each seed ends up as a stage of the organization with its name and lifecycle. -/
lemma foldl_ensureStage {organizationId : ℕ} {stages : List PipelineStage}
    (seeds : List (String × StageLifecycle × Bool)) (db : Db × ℤ) (hwf : db.1.Wf)
    (hstages : ∀ stage ∈ stages, stage ∈ db.1.stages ∧ stage.organizationId = organizationId) :
    Extends db.1 (seeds.foldl (ensureStage organizationId stages) db).1 ∧
      (seeds.foldl (ensureStage organizationId stages) db).1.Wf ∧
      ∀ seed ∈ seeds, ∃ stage ∈ (seeds.foldl (ensureStage organizationId stages) db).1.stages,
        stage.organizationId = organizationId ∧ stage.name = seed.1 ∧
          stage.lifecycle = seed.2.1 := by
  induction seeds generalizing db with
  | nil => exact ⟨.refl _, hwf, by simp⟩
  | cons seed seeds ih =>
      obtain ⟨hfirst, hwf'⟩ := ensureStage_spec organizationId stages seed hwf
      obtain ⟨hrest, hwf'', hseeds⟩ := ih _ hwf' fun stage hstage =>
        ⟨hfirst.stages.subset (hstages stage hstage).1, (hstages stage hstage).2⟩
      refine ⟨hfirst.trans hrest, hwf'', ?_⟩
      intro other hother
      rcases List.mem_cons.1 hother with rfl | hother
      · suffices hstage : ∃ stage ∈ (ensureStage organizationId stages db other).1.stages,
            stage.organizationId = organizationId ∧ stage.name = other.1 ∧
              stage.lifecycle = other.2.1 by
          obtain ⟨stage, hmem, h⟩ := hstage
          exact ⟨stage, hrest.stages.subset hmem, h⟩
        by_cases hthere : stages.any fun stage => stage.name = other.1 && stage.lifecycle = other.2.1
        · obtain ⟨stage, hmem, h⟩ := List.any_eq_true.1 hthere
          simp only [Bool.and_eq_true, decide_eq_true_eq] at h
          refine ⟨stage, hfirst.stages.subset (hstages stage hmem).1, (hstages stage hmem).2, h⟩
        · rw [ensureStage, if_neg hthere]
          exact ⟨_, List.mem_append.2 (Or.inr (List.mem_singleton.2 rfl)), rfl, rfl, rfl⟩
      · exact hseeds other hother

lemma foldl_ensureReason (organizationId : ℕ) (reasons : List CloseReason)
    (seeds : List (String × StageLifecycle × Bool)) (hseeds : ∀ seed ∈ seeds, seed.2.1 ≠ .open)
    (db : Db) (hwf : db.Wf) :
    Extends db (seeds.foldl (ensureReason organizationId reasons) db) ∧
      (seeds.foldl (ensureReason organizationId reasons) db).Wf := by
  induction seeds generalizing db with
  | nil => exact ⟨.refl _, hwf⟩
  | cons seed seeds ih =>
      obtain ⟨hfirst, hwf'⟩ := ensureReason_spec organizationId reasons
        (hseeds seed List.mem_cons_self) hwf
      obtain ⟨hrest, hwf''⟩ := ih (fun other hother => hseeds other (List.mem_cons_of_mem _ hother))
        _ hwf'
      exact ⟨hfirst.trans hrest, hwf''⟩

/-- Afterwards the organization has every seeded stage. -/
lemma ensureDefaults_seeded {db : Db} (hwf : db.Wf) (organizationId : ℕ) :
    Extends db (ensureDefaults db organizationId) ∧ (ensureDefaults db organizationId).Wf ∧
      ∀ seed ∈ defaultStages, ∃ stage ∈ (ensureDefaults db organizationId).stages,
        stage.organizationId = organizationId ∧ stage.name = seed.1 ∧ stage.lifecycle = seed.2.1 := by
  have hlisted : ∀ stage ∈ db.listStages organizationId,
      stage ∈ db.stages ∧ stage.organizationId = organizationId := by
    intro stage hstage
    simpa [Db.listStages] using hstage
  obtain ⟨hstages, hwf', hseeds⟩ := foldl_ensureStage defaultStages
    (db, ((((db.listStages organizationId).map (·.position)).max?).getD (-1)) + 1) hwf hlisted
  obtain ⟨hreasons, hwf''⟩ := foldl_ensureReason organizationId
    (db.reasons.filter (·.organizationId = organizationId)) defaultCloseReasons (by decide) _ hwf'
  refine ⟨hstages.trans hreasons, hwf'', fun seed hmem => ?_⟩
  obtain ⟨stage, hstage, h⟩ := hseeds seed hmem
  exact ⟨stage, hreasons.stages.subset hstage, h⟩

/-- Afterwards the organization has a stage of every lifecycle. -/
lemma ensureDefaults_spec {db : Db} (hwf : db.Wf) (organizationId : ℕ) :
    Extends db (ensureDefaults db organizationId) ∧ (ensureDefaults db organizationId).Wf ∧
      ∀ lifecycle, ∃ stage ∈ (ensureDefaults db organizationId).stages,
        stage.organizationId = organizationId ∧ stage.lifecycle = lifecycle := by
  obtain ⟨hextends, hwf', hseeds⟩ := ensureDefaults_seeded hwf organizationId
  refine ⟨hextends, hwf', fun lifecycle => ?_⟩
  have hseed : ∃ seed ∈ defaultStages, seed.2.1 = lifecycle := by cases lifecycle <;> decide
  obtain ⟨seed, hmem, rfl⟩ := hseed
  obtain ⟨stage, hstage, horganization, -, hlifecycle⟩ := hseeds seed hmem
  exact ⟨stage, hstage, horganization, hlifecycle⟩

/-! ### The stage of a transition -/

lemma getStage_of_mem {db : Db} (hwf : db.Wf) {stage : PipelineStage} (hmem : stage ∈ db.stages) :
    db.getStage stage.organizationId stage.id = some stage := by
  cases hfind : db.getStage stage.organizationId stage.id with
  | none =>
      rw [Db.getStage, List.find?_eq_none] at hfind
      exact absurd (hfind stage hmem) (by simp)
  | some found =>
      have hid : found.organizationId = stage.organizationId ∧ found.id = stage.id := by
        simpa using List.find?_some hfind
      rw [List.inj_on_of_nodup_map hwf.stageIds (List.mem_of_find?_eq_some hfind) hmem hid.2]

/-- The organization's own stage is found. -/
structure IsStage (db : Db) (organizationId : ℕ) (lifecycle : StageLifecycle)
    (stage : PipelineStage) : Prop where
  found : db.getStage organizationId stage.id = some stage
  lifecycle : stage.lifecycle = lifecycle

lemma isStage_of_getStage {db : Db} {organizationId id : ℕ} {stage : PipelineStage}
    (h : db.getStage organizationId id = some stage) :
    IsStage db organizationId stage.lifecycle stage := by
  have hid : stage.organizationId = organizationId ∧ stage.id = id := by
    simpa using List.find?_some h
  exact ⟨by rw [hid.2]; exact h, rfl⟩

/-- With a stage of every lifecycle there is always a default. -/
lemma getDefault_spec {db : Db} (hwf : db.Wf) {organizationId : ℕ}
    (hall : ∀ lifecycle, ∃ stage ∈ db.stages,
      stage.organizationId = organizationId ∧ stage.lifecycle = lifecycle)
    (lifecycle : StageLifecycle) (hint : Option String) :
    ∃ stage, getDefault db organizationId lifecycle hint = some stage ∧
      IsStage db organizationId lifecycle stage := by
  have hmem : ∀ stage ∈ (db.listStages organizationId).filter (·.lifecycle = lifecycle),
      IsStage db organizationId lifecycle stage := by
    intro stage hstage
    have h : (stage ∈ db.stages ∧ stage.organizationId = organizationId) ∧
        stage.lifecycle = lifecycle := by simpa [Db.listStages] using hstage
    exact ⟨h.1.2 ▸ getStage_of_mem hwf h.1.1, h.2⟩
  obtain ⟨default, hdefault, horganization, hlifecycle⟩ := hall lifecycle
  have hne : (db.listStages organizationId).filter (·.lifecycle = lifecycle) ≠ [] :=
    List.ne_nil_of_mem (by simpa [Db.listStages] using ⟨⟨hdefault, horganization⟩, hlifecycle⟩)
  rw [getDefault]
  generalize (db.listStages organizationId).filter (·.lifecycle = lifecycle) = stages at hmem hne
  cases hhint : hint.bind fun hint => stages.find? (·.name = hint) with
  | some stage =>
      obtain ⟨name, -, hfind⟩ := Option.bind_eq_some_iff.1 hhint
      exact ⟨stage, rfl, hmem stage (List.mem_of_find?_eq_some hfind)⟩
  | none =>
      cases hmarked : stages.find? (·.isDefault) with
      | some stage => exact ⟨stage, rfl, hmem stage (List.mem_of_find?_eq_some hmarked)⟩
      | none =>
          obtain ⟨first, rest, rfl⟩ := List.exists_cons_of_ne_nil hne
          exact ⟨first, rfl, hmem first List.mem_cons_self⟩

/-- A transition ends in a stage of the bucket that its arguments say. -/
lemma pickStage_spec {db : Db} (hwf : db.Wf) {organizationId : ℕ} {lead : Lead}
    {change : Transition} {picked : Option PipelineStage}
    (hpick : pickStage (ensureDefaults db organizationId) organizationId
      { lead with status := change.status.getD lead.status } change.stageId change.status.isSome
        = .ok picked) :
    ∃ stage, picked = some stage ∧ IsStage (ensureDefaults db organizationId) organizationId
      (targetBucket db organizationId lead change) stage := by
  obtain ⟨-, hwf', hall⟩ := ensureDefaults_spec hwf organizationId
  rw [targetBucket]
  generalize ensureDefaults db organizationId = db' at hpick hwf' hall ⊢
  have hdefault := getDefault_spec hwf' hall
  unfold pickStage at hpick
  cases hgiven : change.stageId with
  | some stageId =>
      rw [hgiven] at hpick
      cases hstage : db'.getStage organizationId stageId with
      | none => simp [hstage] at hpick
      | some stage =>
          obtain rfl : some stage = picked := by simpa [hstage] using hpick
          exact ⟨stage, rfl, by simpa [hstage] using isStage_of_getStage hstage⟩
  | none =>
      rw [hgiven] at hpick
      cases hstatus : change.status with
      | some status =>
          cases hcurrent : lead.stageId.bind (db'.getStage organizationId) with
          | none =>
              obtain ⟨stage, hstage, his⟩ := hdefault (bucketOf status)
                (if bucketOf status = .open then some status.value else none)
              obtain rfl : some stage = picked := by simpa [hstatus, hcurrent, hstage] using hpick
              exact ⟨stage, rfl, his⟩
          | some current =>
              by_cases hsame : current.lifecycle = bucketOf status
              · obtain rfl : some current = picked := by simpa [hstatus, hcurrent, hsame] using hpick
                obtain ⟨id, -, hfind⟩ := Option.bind_eq_some_iff.1 hcurrent
                exact ⟨current, rfl, (isStage_of_getStage hfind).found, hsame⟩
              · obtain ⟨stage, hstage, his⟩ := hdefault (bucketOf status)
                  (if bucketOf status = .open then some status.value else none)
                obtain rfl : some stage = picked := by
                  simpa [hstatus, hcurrent, hsame, hstage] using hpick
                exact ⟨stage, rfl, his⟩
      | none =>
          cases hcurrent : lead.stageId.bind (db'.getStage organizationId) with
          | none =>
              obtain ⟨stage, hstage, his⟩ := hdefault (bucketOf lead.status) none
              obtain rfl : some stage = picked := by simpa [hstatus, hcurrent, hstage] using hpick
              exact ⟨stage, rfl, by simpa [hcurrent] using his⟩
          | some current =>
              obtain rfl : some current = picked := by simpa [hstatus, hcurrent] using hpick
              obtain ⟨id, -, hfind⟩ := Option.bind_eq_some_iff.1 hcurrent
              exact ⟨current, rfl, by simpa [hcurrent] using isStage_of_getStage hfind⟩

/-! ### One transition -/

lemma bucketOf_openStatusFor (stage : PipelineStage) (previous : LeadStatus) :
    bucketOf (openStatusFor stage previous) = .open := by
  have hopen : ∀ status ∈ openStatuses, bucketOf status = .open := by decide
  rw [openStatusFor]
  split
  · split_ifs with hcandidate hprevious
    · exact hopen _ hcandidate
    · exact hopen _ hprevious
    · rfl
  · split_ifs with hprevious
    · exact hopen _ hprevious
    · rfl

lemma bucketOf_enterStage (lead : Lead) (previous : LeadStatus) (stage : PipelineStage) :
    bucketOf (enterStage lead previous stage).status = stage.lifecycle := by
  rw [enterStage]
  cases stage.lifecycle
  · exact bucketOf_openStatusFor stage previous
  · rfl
  · rfl

/-- A status by its bucket. -/
lemma bucketOf_eq_won {status : LeadStatus} : bucketOf status = .won ↔ status = .won := by
  cases status <;> decide

lemma bucketOf_eq_lost {status : LeadStatus} : bucketOf status = .lost ↔ status = .lost := by
  cases status <;> decide

/-- What the books of a lead say: the fields apart from the timestamps and the close reason stay. -/
structure Booked (lead lead' : Lead) (previous : LeadStatus) : Prop where
  id : lead'.id = lead.id
  organizationId : lead'.organizationId = lead.organizationId
  stageId : lead'.stageId = lead.stageId
  status : lead'.status = lead.status
  wonAt : lead'.wonAt.isSome ↔
    bucketOf lead.status = .won ∧ (bucketOf previous = .won → lead.wonAt.isSome)
  lostAt : lead'.lostAt.isSome ↔
    bucketOf lead.status = .lost ∧ (bucketOf previous = .lost → lead.lostAt.isSome)
  closeReasonId : lead'.closeReasonId
    = if bucketOf lead.status = .open then none else lead.closeReasonId

lemma keepBooks_spec (lead : Lead) (previous : LeadStatus) (now : Datetime) :
    Booked lead (keepBooks lead previous now) previous := by
  unfold keepBooks
  split
  case h_1 hstatus =>
    have hbucket : bucketOf lead.status = .won := bucketOf_eq_won.2 hstatus
    refine ⟨rfl, rfl, rfl, rfl, ?_, by simp [hbucket], by simp [hbucket]⟩
    by_cases hprevious : previous = .won <;> simp [hbucket, hprevious, bucketOf_eq_won]
  case h_2 hstatus =>
    have hbucket : bucketOf lead.status = .lost := bucketOf_eq_lost.2 hstatus
    refine ⟨rfl, rfl, rfl, rfl, by simp [hbucket], ?_, by simp [hbucket]⟩
    by_cases hprevious : previous = .lost <;> simp [hbucket, hprevious, bucketOf_eq_lost]
  case h_3 hwon hlost =>
    have hbucket : bucketOf lead.status = .open := by
      cases hstatus : lead.status
      case won => exact absurd hstatus hwon
      case lost => exact absurd hstatus hlost
      all_goals rfl
    exact ⟨rfl, rfl, rfl, rfl, by simp [hbucket], by simp [hbucket], by simp [hbucket]⟩

/-- The close reason of a transition is the one that was given, of the lead's bucket, or the old one. -/
lemma giveReason_spec {db : Db} {organizationId : ℕ} {lead lead' : Lead} {closeReasonId : Option ℕ}
    (h : giveReason db organizationId lead closeReasonId = .ok lead') :
    lead' = { lead with closeReasonId := closeReasonId.or lead.closeReasonId } ∧
      ∀ id, closeReasonId = some id → ∃ reason, db.getReason organizationId id = some reason ∧
        reason.lifecycle = bucketOf lead.status := by
  cases closeReasonId with
  | none =>
      obtain rfl : lead = lead' := Except.ok.inj h
      exact ⟨rfl, fun _ hid => nomatch hid⟩
  | some id =>
      cases hfind : db.getReason organizationId id with
      | none => simp [giveReason, hfind] at h
      | some reason =>
          have hid : reason.organizationId = organizationId ∧ reason.id = id := by
            simpa using List.find?_some hfind
          by_cases hbucket : bucketOf lead.status = reason.lifecycle
          · obtain rfl : { lead with closeReasonId := some reason.id } = lead' := by
              simpa [giveReason, hfind, hbucket] using h
            refine ⟨by rw [hid.2]; rfl, fun other hother => ?_⟩
            obtain rfl := Option.some.inj hother
            exact ⟨reason, hfind, hbucket.symm⟩
          · simp [giveReason, hfind, hbucket] at h

lemma bind_ok {α β : Type} {x : Except Failure α} {f : α → Except Failure β} {b : β}
    (h : x >>= f = .ok b) : ∃ a, x = .ok a ∧ f a = .ok b := by
  cases x with
  | error e => exact nomatch h
  | ok a => exact ⟨a, rfl, h⟩

/-- The books of a lead that entered a stage are in step, with the close reason that was given. -/
lemma booked_inStep {db : Db} (hwf : db.Wf) {lead entered booked : Lead} {stage : PipelineStage}
    {bucket : StageLifecycle} {closeReasonId : Option ℕ}
    (hstage : IsStage db lead.organizationId bucket stage)
    (hsame : entered = { lead with stageId := some stage.id, status := entered.status })
    (hentered : bucketOf entered.status = bucket) (hbooked : Booked entered booked lead.status)
    (hwon : bucket = .won → bucketOf lead.status = .won → lead.wonAt.isSome)
    (hlost : bucket = .lost → bucketOf lead.status = .lost → lead.lostAt.isSome)
    (hkept : ∀ id, lead.closeReasonId = some id → closeReasonId = none → bucket ≠ .open →
      ∃ reason, db.getReason lead.organizationId id = some reason ∧ reason.lifecycle = bucket)
    (hgiven : ∀ id, closeReasonId = some id →
      ∃ reason, db.getReason lead.organizationId id = some reason ∧ reason.lifecycle = bucket) :
    InStep db { booked with closeReasonId := closeReasonId.or booked.closeReasonId } := by
  have horganization : booked.organizationId = lead.organizationId := by
    rw [hbooked.organizationId, hsame]
  have hstatus : bucketOf booked.status = bucket := by rw [hbooked.status, hentered]
  have hreason : ∀ id, closeReasonId.or booked.closeReasonId = some id →
      ∃ reason, db.getReason lead.organizationId id = some reason ∧ reason.lifecycle = bucket := by
    intro id hid
    cases hclose : closeReasonId with
    | some given => exact hgiven id (by rw [hclose] at hid ⊢; exact hid)
    | none =>
        rw [hclose, Option.none_or, hbooked.closeReasonId, hentered, hsame] at hid
        by_cases hopen : bucket = .open
        · simp [hopen] at hid
        · rw [if_neg hopen] at hid
          exact hkept id hid hclose hopen
  refine ⟨⟨stage, ?_, ?_⟩, ?_, ?_, fun hopen => ?_, fun id hid => ?_⟩ <;> dsimp only at *
  · rw [hbooked.stageId, horganization, hsame]
    exact hstage.found
  · rw [hstatus]
    exact hstage.lifecycle
  · rw [hbooked.wonAt, hstatus, hentered, hsame]
    exact ⟨fun h => h.1, fun h => ⟨h, hwon h⟩⟩
  · rw [hbooked.lostAt, hstatus, hentered, hsame]
    exact ⟨fun h => h.1, fun h => ⟨h, hlost h⟩⟩
  · cases hclose : closeReasonId.or booked.closeReasonId with
    | none => rfl
    | some id =>
        obtain ⟨reason, hfind, hlifecycle⟩ := hreason id hclose
        rw [← hstatus, hopen] at hlifecycle
        exact absurd hlifecycle (hwf.reasonClosed reason (List.mem_of_find?_eq_some hfind))
  · rw [horganization, hstatus]
    exact hreason id hid

/-- What a transition of a lead ends with. -/
structure Reconciled (db db' : Db) (lead lead' : Lead) : Prop where
  extends_ : Extends db db'
  wf : db'.Wf
  id : lead'.id = lead.id
  organizationId : lead'.organizationId = lead.organizationId
  inStep : InStep db' lead'

/-- Events change nothing that the lifecycle is about. -/
lemma Reconciled.logged {db db' : Db} {lead lead' : Lead} (h : Reconciled db db' lead lead')
    (events : List ActivityLog) : Reconciled db { db' with activity := events } lead lead' := by
  obtain ⟨hext, hwf, hid, horganization, hinStep⟩ := h
  have hlogged : Extends db' { db' with activity := events } :=
    ⟨List.prefix_rfl, List.prefix_rfl, rfl⟩
  exact ⟨hext.trans hlogged, ⟨hwf.stageIds, hwf.stageFresh, hwf.reasonIds, hwf.reasonFresh,
    hwf.reasonClosed, hwf.leadIds, hwf.leadFresh⟩, hid, horganization,
    hinStep.extends hlogged.stages hlogged.reasons⟩

/-- A transition whose timestamps and close reason fit ends with the fields in step. -/
theorem reconcile_inStep {db db' : Db} (hwf : db.Wf) {lead lead' : Lead} {change : Transition}
    {now : Datetime}
    (hwon : targetBucket db lead.organizationId lead change = .won →
      bucketOf lead.status = .won → lead.wonAt.isSome)
    (hlost : targetBucket db lead.organizationId lead change = .lost →
      bucketOf lead.status = .lost → lead.lostAt.isSome)
    (hkept : ∀ id, lead.closeReasonId = some id → change.closeReasonId = none →
      targetBucket db lead.organizationId lead change ≠ .open →
      ∃ reason, db.getReason lead.organizationId id = some reason ∧
        reason.lifecycle = targetBucket db lead.organizationId lead change)
    (h : reconcile db lead.organizationId lead change now = .ok (db', lead')) :
    Reconciled db db' lead lead' := by
  obtain ⟨hext, hwf', -⟩ := ensureDefaults_spec hwf lead.organizationId
  unfold reconcile at h
  obtain ⟨picked, hpick, h⟩ := bind_ok h
  obtain ⟨stage, rfl, hstage⟩ := pickStage_spec hwf hpick
  obtain ⟨given, hgiven, h⟩ := bind_ok h
  obtain ⟨rfl, rfl⟩ := Prod.mk.inj (Except.ok.inj h)
  refine Reconciled.logged ?_ _
  obtain ⟨rfl, hcloses⟩ := giveReason_spec hgiven
  generalize targetBucket db lead.organizationId lead change = bucket at *
  generalize ensureDefaults db lead.organizationId = seeded at *
  have hentered : bucketOf (enterStage { lead with status := change.status.getD lead.status }
      lead.status stage).status = bucket := by
    rw [← hstage.lifecycle]
    exact bucketOf_enterStage _ _ _
  have hbooked := keepBooks_spec (enterStage { lead with status := change.status.getD lead.status }
    lead.status stage) lead.status now
  refine ⟨hext, hwf', hbooked.id, hbooked.organizationId,
    booked_inStep hwf' hstage rfl hentered hbooked hwon hlost ?_ ?_⟩
  · intro id hid hnone hopen
    obtain ⟨reason, hfind, hlifecycle⟩ := hkept id hid hnone hopen
    exact ⟨reason, hext.getReason hfind, hlifecycle⟩
  · intro id hid
    obtain ⟨reason, hfind, hlifecycle⟩ := hcloses id hid
    have hstatus := hbooked.status
    exact ⟨reason, hfind, by rw [hlifecycle, ← hentered]; exact congrArg bucketOf hstatus⟩

/-! ### One call -/

/-- What holds between calls. -/
structure Kept (db : Db) : Prop where
  wf : db.Wf
  inStep : ∀ lead ∈ db.leads, InStep db lead

/-- A lead that ends in step takes its place among the others. -/
lemma Kept.putLead {db db' : Db} {lead lead' : Lead}
    (hothers : ∀ other ∈ db.leads, other.id ≠ lead.id → InStep db other)
    (h : Reconciled db db' lead lead') : Kept (db'.putLead lead') := by
  obtain ⟨hext, hwf, hid, -, hinStep⟩ := h
  have hids : (db'.putLead lead').leads.map (·.id) = db'.leads.map (·.id) := by
    rw [Db.putLead, List.map_map]
    refine List.map_congr_left fun other _ => ?_
    by_cases hsame : other.id = lead'.id <;> simp [hsame]
  refine ⟨⟨hwf.stageIds, hwf.stageFresh, hwf.reasonIds, hwf.reasonFresh, hwf.reasonClosed,
    hids ▸ hwf.leadIds, ?_⟩, ?_⟩
  · intro other hother
    have hmem : other.id ∈ db'.leads.map (·.id) := hids ▸ List.mem_map_of_mem hother
    obtain ⟨row, hrow, hrowId⟩ := List.mem_map.1 hmem
    exact hrowId ▸ hwf.leadFresh row hrow
  · intro other hother
    obtain ⟨row, hrow, rfl⟩ := List.mem_map.1 hother
    split_ifs with hsame
    · exact hinStep.extends List.prefix_rfl List.prefix_rfl
    · exact (hothers row (hext.leads ▸ hrow) (hid ▸ hsame)).extends hext.stages hext.reasons

/-- A transition of a lead in step that keeps no close reason of another bucket. -/
lemma reconcile_of_inStep {db db' : Db} (hwf : db.Wf) {lead lead' : Lead} {change : Transition}
    {now : Datetime} (hlead : InStep db lead)
    (hkeeps : KeepsReason db lead.organizationId lead change)
    (h : reconcile db lead.organizationId lead change now = .ok (db', lead')) :
    Reconciled db db' lead lead' := by
  refine reconcile_inStep hwf (fun _ => hlead.wonAt.2) (fun _ => hlead.lostAt.2) ?_ h
  intro id hid hgiven hopen
  obtain hnone | hgiven' | hopen' | hsame := hkeeps
  · exact nomatch hnone.symm.trans hid
  · exact absurd hgiven hgiven'
  · exact absurd hopen' hopen
  · obtain ⟨reason, hfind, hlifecycle⟩ := hlead.closeReason id hid
    exact ⟨reason, hfind, hlifecycle.trans hsame.symm⟩

lemma getLead_spec {db : Db} {organizationId leadId : ℕ} {lead : Lead}
    (h : getLeadOr404 db organizationId leadId = .ok lead) :
    db.getLead organizationId leadId = some lead ∧ lead ∈ db.leads ∧
      lead.organizationId = organizationId := by
  rw [getLeadOr404] at h
  cases hfind : db.getLead organizationId leadId with
  | none => rw [hfind] at h; exact nomatch h
  | some found =>
      rw [hfind] at h
      obtain rfl := Except.ok.inj h
      have hfound := List.find?_some hfind
      simp only [Bool.and_eq_true, decide_eq_true_eq] at hfound
      exact ⟨rfl, List.mem_of_find?_eq_some hfind, hfound.1.1⟩

lemma create_kept {n : Normalizers} {db db' : Db} {organizationId : ℕ} {data : LeadCreate}
    {autoAssigned : Option ℕ} {now : Datetime} (hkept : Kept db)
    (hcovered : Covered db (.create organizationId data autoAssigned))
    (h : create n db organizationId data autoAssigned now = .ok db') : Kept db' := by
  rw [create] at h
  obtain ⟨-, -, h⟩ := bind_ok h
  dsimp only at h
  split at h
  · exact nomatch h
  obtain ⟨⟨db'', lead'⟩, hreconcile, h⟩ := bind_ok h
  obtain rfl := Except.ok.inj h
  obtain ⟨⟨hstages, hfresh, hreasons, hreasonFresh, hclosed, hleads, hleadFresh⟩, hin⟩ := hkept
  set lead := newLead db.nextId organizationId data with hlead
  have hwf : (db.insertLead lead).Wf := by
    refine ⟨hstages, fun stage hstage => Nat.lt_succ_of_lt (hfresh stage hstage), hreasons,
      fun reason hreason => Nat.lt_succ_of_lt (hreasonFresh reason hreason), hclosed,
      nodup_concat_fresh hleads hleadFresh rfl, fun other hother => ?_⟩
    rcases List.mem_append.1 hother with hother | hother
    · exact Nat.lt_succ_of_lt (hleadFresh other hother)
    · rw [List.mem_singleton.1 hother]
      exact Nat.lt_succ_self _
  have hcovered' : bucketOf lead.status = .open ∨
      targetBucket (db.insertLead lead) lead.organizationId lead data.transition
        ≠ bucketOf lead.status := hcovered
  have hreconciled : Reconciled (db.insertLead lead) db'' lead lead' := by
    refine reconcile_inStep hwf ?_ ?_ ?_ hreconcile
    · intro htarget hbefore
      rw [htarget, hbefore] at hcovered'
      simp at hcovered'
    · intro htarget hbefore
      rw [htarget, hbefore] at hcovered'
      simp at hcovered'
    · exact fun _ hid => nomatch hid
  refine @Kept.putLead (db.insertLead lead) _ lead _ ?_
    ⟨hreconciled.extends_, hreconciled.wf, hreconciled.id, hreconciled.organizationId,
      hreconciled.inStep.stage, hreconciled.inStep.wonAt, hreconciled.inStep.lostAt,
      hreconciled.inStep.noReason, hreconciled.inStep.closeReason⟩
  intro other hother hne
  rcases List.mem_append.1 hother with hother | hother
  · exact (hin other hother).extends List.prefix_rfl List.prefix_rfl
  · rw [List.mem_singleton.1 hother] at hne
    exact absurd rfl hne

lemma update_kept {n : Normalizers} {db db' : Db} {organizationId leadId : ℕ} {data : LeadUpdate}
    {now : Datetime} (hkept : Kept db) (hcovered : Covered db (.update organizationId leadId data))
    (h : update n db organizationId leadId data now = .ok db') : Kept db' := by
  rw [update] at h
  obtain ⟨lead, hget, h⟩ := bind_ok h
  obtain ⟨hfind, hmem, rfl⟩ := getLead_spec hget
  obtain ⟨-, -, h⟩ := bind_ok h
  dsimp only at h
  split at h
  · exact nomatch h
  -- the fields that are set directly are none of the five
  have hlead : InStep db (setFields lead data) :=
    ⟨(hkept.inStep lead hmem).stage, (hkept.inStep lead hmem).wonAt, (hkept.inStep lead hmem).lostAt,
      (hkept.inStep lead hmem).noReason, (hkept.inStep lead hmem).closeReason⟩
  split at h
  case isTrue hreconciles =>
    obtain ⟨⟨db'', lead'⟩, hreconcile, h⟩ := bind_ok h
    dsimp only at h
    split at h
    · exact nomatch h
    obtain rfl := Except.ok.inj h
    have hkeeps := hcovered hreconciles lead hfind
    exact Kept.putLead (fun other hother _ => hkept.inStep other hother)
      (reconcile_of_inStep hkept.wf hlead hkeeps hreconcile)
  case isFalse =>
    dsimp only [bind, Except.bind, pure, Except.pure] at h
    split at h
    · exact nomatch h
    obtain rfl := Except.ok.inj h
    exact Kept.putLead (fun other hother _ => hkept.inStep other hother)
      ⟨.refl db, hkept.wf, rfl, rfl, hlead⟩

/-- A covered call keeps the fields of every lead in step. -/
theorem step_kept {n : Normalizers} {db db' : Db} {now : Datetime} {op : Op} (hkept : Kept db)
    (hcovered : Covered db op) (h : step n db now op = .ok db') : Kept db' := by
  cases op with
  | create organizationId data autoAssigned => exact create_kept hkept hcovered h
  | update organizationId leadId data => exact update_kept hkept hcovered h
  | reconcile organizationId leadId change =>
      obtain ⟨lead, hget, h⟩ := bind_ok h
      obtain ⟨hfind, hmem, rfl⟩ := getLead_spec hget
      obtain ⟨⟨db'', lead'⟩, hreconcile, h⟩ := bind_ok h
      obtain rfl := Except.ok.inj h
      exact Kept.putLead (fun other hother _ => hkept.inStep other hother)
        (reconcile_of_inStep hkept.wf (hkept.inStep lead hmem) (hcovered lead hfind) hreconcile)

/-! ### Every run -/

lemma run_kept {n : Normalizers} {db db' : Db} (hkept : Kept db) (h : Run n Covered db db') :
    Kept db' := by
  induction h with
  | refl => exact hkept
  | call now op _ hcovered hstep ih => exact step_kept ih hcovered hstep

lemma wf_empty : Db.empty.Wf := by
  constructor <;> simp [Db.empty]

/-- A lead without contact fields. -/
def bareLead (status : Option LeadStatus) : LeadCreate :=
  ⟨none, none, status, none, ⟨none, none, none, none⟩⟩

/-- An update of status and close reason. -/
def close (status : LeadStatus) (closeReasonId : Option ℕ) : LeadUpdate :=
  ⟨none, none, none, none, none, none, some (some status), none, closeReasonId.map some⟩

/-- A lead that moves from won to lost keeps the reason that it was won for. -/
example : (do
    let db ← step .ascii .empty 5 (.create 1 (bareLead none) none)
    let db ← step .ascii db 6 (.update 1 0 (close .won (some 8)))
    step .ascii db 7 (.update 1 0 (close .lost none))).toOption.any (fun db : Db =>
      db.leads.any fun lead => lead.status = LeadStatus.lost && lead.closeReasonId = some 8) = true := by
  decide +kernel

end Leads
