import AgencyOS.Services.References

/-!
Whether the rows that are written beside a new entity name it.

The key of an entity is drawn by the flush, and each call reads it before.  So an event refers to no
delivery and is refused with it, a record says nothing of its execution, task or invite, and the
recommendations stand without their analysis.

* `Describes`: what the rows of a call are for;
* `Spared`: the calls that end before they get so far;
* `not_committed_enqueue`: **no delivery is ever committed**;
* `not_recorded_of_commit`: **a record names nothing that is committed with it**, as what it names is
  older than all of it;
* `not_linked_of_commit`: **no recommendation is linked to an analysis**;
* `describes_iff_spared`: **a call describes what it commits exactly if it is spared**.
-/

namespace Services.References

open Automation Orm

/-! ### Descriptions -/

/-- An entry of the metadata is the id. -/
def ActivityLog.names (log : ActivityLog) (id : ℕ) : Prop := ∃ key, (key, Entry.uuid id) ∈ log.metadata

def Row.queuedEvent? : Row → Option DeliveryEvent
  | deliveryEvent e => if e.eventType = .queued then some e else none
  | _ => none

def Row.activityLog? : Row → Option ActivityLog
  | activityLog log => some log
  | _ => none

/-- A delivery is committed, with one QUEUED event, and that is its own. -/
def Announced (rows : List (ℕ × Row)) : Prop :=
  ∃ id delivery event, (id, .delivery delivery) ∈ rows
    ∧ rows.filterMap (fun row => row.2.queuedEvent?) = [event] ∧ event.deliveryId = some id

/-- An entity of the kind is committed, with one activity row, and its metadata names the entity. -/
def Recorded (kind : Kind) (rows : List (ℕ × Row)) : Prop :=
  ∃ id entity log, (id, entity) ∈ rows ∧ entity.kind = kind
    ∧ rows.filterMap (fun row => row.2.activityLog?) = [log] ∧ log.names id

/-- An analysis of the health is committed, and every recommendation is linked to it. -/
def Linked (rows : List (ℕ × Row)) : Prop :=
  ∃ id analysis, (id, .growthAnalysis analysis) ∈ rows ∧ analysis.analysisType = .health
    ∧ ∀ k r, (k, .growthRecommendation r) ∈ rows → r.sourceAnalysisId = some id

variable (db : Database model)

/-- What a call commits describes the entity that it commits; a reference that is null, or the text of
null, names nothing.  A duplicate is reported only where a delivery stands under the key. -/
def Describes (call : Call) : Prop :=
  match call with
  | .enqueue c =>
      (∀ rows, call.run db = .committed rows → Announced rows)
        ∧ (call.run db = .raised EnqueueCall.duplicate → c.taken = true)
  | .queue _ => ∀ rows, call.run db = .committed rows → Recorded .execution rows
  | .createTask _ => ∀ rows, call.run db = .committed rows → Recorded .task rows
  | .createInvite _ => ∀ rows, call.run db = .committed rows → Recorded .teamInvite rows
  | .runFullAnalysis _ => ∀ rows, call.run db = .committed rows → Linked rows

/-- A call that ends before its rows are committed: a check refuses, or the database does.  A delivery
without a key, or under one that stands, is refused with good reason. -/
def Spared : Call → Prop
  | .enqueue c =>
      c.refusal.isSome ∨ c.key = none ∨ c.existing.isSome ∨ c.overCap = true ∨ c.taken = true
  | .queue c =>
      ∀ organizationId name, c.checked = .ok (organizationId, name) →
        (c.added db organizationId name).commit db = none
  | .createTask c => ∀ newTask, c.checked = .ok newTask → (c.added db newTask).commit db = none
  | .createInvite c => c.refusal.isSome ∨ (c.added db).commit db = none
  | .runFullAnalysis c => (c.added db).commit db = none

variable {db} {s : Session Row} {rows : List (ℕ × Row)}

/-! ### Deliveries -/

/-- The event refers to no delivery. -/
lemma EnqueueCall.pending_added (c : EnqueueCall) (db : Database model) :
    (c.added db).pending
      = [.delivery (c.data.row c.settings.deliveryMaxAttempts c.now), .deliveryEvent (c.event none)] := by
  simp [added, Session.idOf_add]

lemma EnqueueCall.commit_added (c : EnqueueCall) : (c.added db).commit db = none := by
  rcases hcommit : (c.added db).commit db with _ | rows
  · rfl
  · have hmem : Row.deliveryEvent (c.event none) ∈ (c.added db).pending := by
      simp [c.pending_added db]
    have hcomplete : Row.complete (.deliveryEvent (c.event none)) = true :=
      Session.complete_of_commit hcommit hmem
    simp [Row.complete, event] at hcomplete

/-- **No delivery is ever committed.** -/
lemma not_committed_enqueue (c : EnqueueCall) : enqueue c db ≠ .committed rows := by
  unfold enqueue
  rcases c.refusal with _ | e
  · rw [c.commit_added]
    dsimp only
    split_ifs <;> simp
  · simp

lemma EnqueueCall.refusal_ne_duplicate (c : EnqueueCall) : c.refusal ≠ some duplicate := by
  unfold refusal
  split_ifs <;> simp [duplicate]

/-- A duplicate is reported of every delivery with a key that passes the checks. -/
lemma enqueue_eq_duplicate_iff (c : EnqueueCall) :
    enqueue c db = .raised EnqueueCall.duplicate
      ↔ c.refusal = none ∧ c.key.isSome = true ∧ c.existing.isSome = false ∧ c.overCap = false := by
  have hne := c.refusal_ne_duplicate
  unfold enqueue
  rcases hrefusal : c.refusal with _ | e
  · rw [c.commit_added]
    cases c.key <;> cases c.existing <;> cases c.overCap <;> simp [EnqueueCall.duplicate]
  · simpa [hrefusal] using hne

lemma describes_enqueue_iff (c : EnqueueCall) :
    Describes db (.enqueue c) ↔ Spared db (.enqueue c) := by
  have hnever : ∀ rows, enqueue c db ≠ .committed rows := fun rows => not_committed_enqueue c
  calc Describes db (.enqueue c)
      ↔ (enqueue c db = .raised EnqueueCall.duplicate → c.taken = true) := by
        simp [Describes, Call.run, hnever]
    _ ↔ Spared db (.enqueue c) := by
        rw [enqueue_eq_duplicate_iff]
        simp only [Spared]
        cases c.refusal <;> cases c.key <;> cases c.existing <;> cases c.overCap <;> simp

/-! ### Records -/

/-- What a record can name besides is a row to which the entity refers, and that is an older one: **the
record names nothing that is committed with it**. -/
lemma not_recorded_of_commit {entity : Row} {log : ActivityLog} {kind : Kind}
    (hs : s.inserted = []) (hfresh : s.fresh = db.fresh)
    (hpending : s.pending = [entity, .activityLog log]) (hentity : entity.activityLog? = none)
    (hold : ∀ id, log.names id → ∃ k, (k, id) ∈ entity.references ∧ ∀ r ∈ s.pending, r.kind ≠ k)
    (hcommit : s.commit db = some rows) : ¬ Recorded kind rows := by
  rintro ⟨id, entity', log', hid, -, hlogs, hnames⟩
  have hpend : ∀ {k r}, (k, r) ∈ rows → r ∈ s.pending := fun hr =>
    (Session.mem_of_commit hs hcommit hr).1
  -- the one record is the one that was added
  have hlog : log' = log := by
    have hmem : log' ∈ rows.filterMap fun row => row.2.activityLog? := by simp [hlogs]
    obtain ⟨⟨k, r⟩, hr, hrlog⟩ := List.mem_filterMap.mp hmem
    have hr' := hpend hr
    rw [hpending] at hr'
    rcases List.mem_pair.mp hr' with rfl | rfl
    · simp [hentity] at hrlog
    · simpa [Row.activityLog?] using hrlog.symm
  obtain ⟨k, href, hkind⟩ := hold id (hlog ▸ hnames)
  -- so the id that it names is older than the database is now
  have hmem : entity ∈ s.pending := by simp [hpending]
  obtain ⟨j, hj⟩ := Session.added_of_commit hcommit hmem
  have hlt : id < db.fresh := by
    refine db.old_of_reference (Session.commit_eq_some hcommit).2 hj href fun row hrow => ?_
    exact hkind row.2 (hpend hrow)
  have hle : s.fresh ≤ id := (Session.mem_of_commit hs hcommit hid).2
  omega

lemma QueueCall.pending_added (c : QueueCall) (db : Database model) (organizationId : ℕ)
    (name : String) :
    (c.added db organizationId name).pending
      = [.execution (c.execution organizationId), .activityLog (c.log organizationId name none)] := by
  simp [added, Session.idOf_add]

lemma TaskCall.pending_added (c : TaskCall) (db : Database model) (newTask : NewTask) :
    (c.added db newTask).pending = [.task newTask, .activityLog (c.log none)] := by
  simp [added, Session.idOf_add]

lemma InviteCall.pending_added (c : InviteCall) (db : Database model) :
    (c.added db).pending = [.teamInvite c.invite, .activityLog (c.log none)] := by
  simp [added, Session.idOf_add]

/-- A record names what its execution refers to: the text of null is no id. -/
lemma QueueCall.reference_of_names {c : QueueCall} {organizationId id : ℕ} {name : String}
    (h : (c.log organizationId name none).names id) :
    ∃ k, (k, id) ∈ Row.references (.execution (c.execution organizationId))
      ∧ k ≠ .execution ∧ k ≠ .activityLog := by
  obtain ⟨key, hkey⟩ := h
  simp only [log, pyStr_none, List.mem_cons, List.not_mem_nil, Prod.mk.injEq, uuid_eq_strOrNull,
    Entry.uuid.injEq, reduceCtorEq, and_false, false_or, or_false] at hkey
  rcases hkey with ⟨-, rfl⟩ | ⟨-, htrigger⟩ | ⟨-, hactor⟩
  · exact ⟨.workflow, by simp [Row.references, execution, NewExecution.row], by simp, by simp⟩
  · exact ⟨.trigger, by simp [Row.references, execution, NewExecution.row, htrigger], by simp, by simp⟩
  · exact ⟨.user, by simp [Row.references, execution, NewExecution.row, hactor], by simp, by simp⟩

/-- A record names the assignee of its task. -/
lemma TaskCall.reference_of_names {c : TaskCall} {newTask : NewTask} {id : ℕ}
    (hassignee : newTask.assigneeUserId = c.assigneeUserId) (h : (c.log none).names id) :
    ∃ k, (k, id) ∈ Row.references (.task newTask) ∧ k ≠ .task ∧ k ≠ .activityLog := by
  obtain ⟨key, hkey⟩ := h
  have hid : key = "assignee_user_id" ∧ c.assigneeUserId = some id := by
    cases hdue : c.dueAt <;> simpa [log, hdue] using hkey
  exact ⟨.user, by simp [Row.references, hassignee, hid.2], by simp, by simp⟩

/-- A record names nothing of an invite. -/
lemma InviteCall.not_names {c : InviteCall} {id : ℕ} : ¬ (c.log none).names id := by
  simp [ActivityLog.names, log]

lemma TaskCall.assigneeUserId_of_checked {c : TaskCall} {newTask : NewTask}
    (h : c.checked = .ok newTask) : newTask.assigneeUserId = c.assigneeUserId := by
  obtain ⟨title, -, h⟩ := Python.bind_eq_ok.1 h
  obtain ⟨_, -, h⟩ := Python.bind_eq_ok.1 h
  obtain ⟨_, -, h⟩ := Python.bind_eq_ok.1 h
  obtain ⟨_, -, h⟩ := Python.bind_eq_ok.1 h
  obtain ⟨_, -, h⟩ := Python.bind_eq_ok.1 h
  obtain rfl := Except.ok.inj h
  rfl

/-- A record is no description of an execution. -/
lemma QueueCall.not_recorded {c : QueueCall} {organizationId : ℕ} {name : String}
    (hcommit : (c.added db organizationId name).commit db = some rows) :
    ¬ Recorded .execution rows := by
  have hpending := c.pending_added db organizationId name
  refine not_recorded_of_commit rfl rfl hpending rfl (fun id hid => ?_) hcommit
  obtain ⟨k, href, hexecution, hlog⟩ := reference_of_names hid
  exact ⟨k, href, by simp [hpending, Row.kind, hexecution.symm, hlog.symm]⟩

/-- A record is no description of a task. -/
lemma TaskCall.not_recorded {c : TaskCall} {newTask : NewTask} (hchecked : c.checked = .ok newTask)
    (hcommit : (c.added db newTask).commit db = some rows) : ¬ Recorded .task rows := by
  have hpending := c.pending_added db newTask
  refine not_recorded_of_commit rfl rfl hpending rfl (fun id hid => ?_) hcommit
  obtain ⟨k, href, htask, hlog⟩ := reference_of_names (assigneeUserId_of_checked hchecked) hid
  exact ⟨k, href, by simp [hpending, Row.kind, htask.symm, hlog.symm]⟩

/-- A record is no description of an invite. -/
lemma InviteCall.not_recorded {c : InviteCall} (hcommit : (c.added db).commit db = some rows) :
    ¬ Recorded .teamInvite rows :=
  not_recorded_of_commit rfl rfl (c.pending_added db) rfl (fun _ hid => absurd hid not_names) hcommit

/-! ### Analyses -/

namespace AnalysisCall

variable {c : AnalysisCall}

lemma inserted_persistEach (types : List GrowthAnalysisType) (s : Session Row) :
    (c.persistEach types s).2.inserted = s.inserted := by
  induction types generalizing s with
  | nil => rfl
  | cons analysisType types ih =>
      calc (c.persistEach (analysisType :: types) s).2.inserted
          = (c.persistEach types (s.add (.growthAnalysis (c.analysis analysisType))).2).2.inserted := rfl
        _ = s.inserted := by rw [ih, Session.inserted_add]

lemma pending_addEach (anchor : Option ℕ) (items : List Growth.Recommendation) (s : Session Row) :
    (c.addEach anchor items s).pending
      = s.pending ++ items.map fun item => .growthRecommendation (c.recommendation anchor item) := by
  induction items generalizing s with
  | nil => simp [addEach]
  | cons item items ih => simp [addEach, ih]

/-- Nothing is flushed when the id of the analysis is read. -/
lemma anchor_eq_none (analyses : List (ℕ × GrowthAnalysis)) (hs : s.inserted = []) :
    anchor analyses s = none := by
  simp [anchor, Session.idOf_of_unflushed hs]

/-- Some recommendation is added, without an analysis. -/
lemma exists_recommendation_added (c : AnalysisCall) (db : Database model) :
    ∃ item, .growthRecommendation (c.recommendation none item) ∈ (c.added db).pending := by
  have hinserted : (c.persistEach allTypes (Session.begin db)).2.inserted = [] := by
    rw [inserted_persistEach, Session.inserted_begin]
  obtain ⟨item, hitem⟩ := List.exists_mem_of_ne_nil _
    (Growth.generateRecommendations_ne_nil c.round c.text c.results)
  refine ⟨item, ?_⟩
  unfold added
  dsimp only
  rw [anchor_eq_none _ hinserted, pending_addEach]
  exact List.mem_append_right _ (List.mem_map_of_mem hitem)

/-- **No recommendation is linked to an analysis.** -/
lemma not_linked_of_commit (hcommit : (c.added db).commit db = some rows) : ¬ Linked rows := by
  rintro ⟨id, -, -, -, hlinked⟩
  obtain ⟨item, hitem⟩ := c.exists_recommendation_added db
  obtain ⟨k, hk⟩ := Session.added_of_commit hcommit hitem
  have hsource : (c.recommendation none item).sourceAnalysisId = some id := hlinked k _ hk
  simp [recommendation] at hsource

end AnalysisCall

/-! ### Calls -/

lemma queue_eq_committed_iff (c : QueueCall) :
    queue c db = .committed rows ↔ ∃ organizationId name, c.checked = .ok (organizationId, name)
      ∧ (c.added db organizationId name).commit db = some rows := by
  unfold queue
  rcases hchecked : c.checked with e | ⟨organizationId, name⟩
  · simp
  · rcases hcommit : (c.added db organizationId name).commit db with _ | rows' <;> simp [hcommit]

lemma createTask_eq_committed_iff (c : TaskCall) :
    createTask c db = .committed rows ↔ ∃ newTask, c.checked = .ok newTask
      ∧ (c.added db newTask).commit db = some rows := by
  unfold createTask
  rcases hchecked : c.checked with e | newTask
  · cases e <;> simp
  · rcases hcommit : (c.added db newTask).commit db with _ | rows' <;> simp [hcommit]

lemma createInvite_eq_committed_iff (c : InviteCall) :
    createInvite c db = .committed rows
      ↔ c.refusal = none ∧ (c.added db).commit db = some rows := by
  unfold createInvite
  rcases hrefusal : c.refusal with _ | e
  · rcases hcommit : (c.added db).commit db with _ | rows' <;> simp
  · simp

lemma runFullAnalysis_eq_committed_iff (c : AnalysisCall) :
    runFullAnalysis c db = .committed rows ↔ (c.added db).commit db = some rows := by
  unfold runFullAnalysis
  rcases hcommit : (c.added db).commit db with _ | rows' <;> simp

/-- What no committed rows do, they do for want of rows. -/
lemma forall_commit_iff (db : Database model) (s : Session Row) {P : List (ℕ × Row) → Prop}
    (hP : ∀ rows, s.commit db = some rows → ¬ P rows) :
    (∀ rows, s.commit db = some rows → P rows) ↔ s.commit db = none := by
  refine ⟨fun h => Option.eq_none_iff_forall_ne_some.mpr fun rows hcommit => ?_, fun h rows hcommit => ?_⟩
  · exact hP rows hcommit (h rows hcommit)
  · simp [h] at hcommit

lemma describes_queue_iff (c : QueueCall) : Describes db (.queue c) ↔ Spared db (.queue c) := by
  have hnone : ∀ organizationId name, _ := fun organizationId name =>
    forall_commit_iff db (c.added db organizationId name) fun _ => QueueCall.not_recorded
  simp only [Describes, Spared, Call.run, queue_eq_committed_iff]
  refine ⟨fun h organizationId name hchecked => (hnone organizationId name).mp fun rows hcommit => ?_, ?_⟩
  · exact h rows ⟨organizationId, name, hchecked, hcommit⟩
  · rintro h rows ⟨organizationId, name, hchecked, hcommit⟩
    exact (hnone organizationId name).mpr (h organizationId name hchecked) rows hcommit

lemma describes_createTask_iff (c : TaskCall) :
    Describes db (.createTask c) ↔ Spared db (.createTask c) := by
  have hnone : ∀ newTask, c.checked = .ok newTask → _ := fun newTask hchecked =>
    forall_commit_iff db (c.added db newTask) fun _ => TaskCall.not_recorded hchecked
  simp only [Describes, Spared, Call.run, createTask_eq_committed_iff]
  refine ⟨fun h newTask hchecked => (hnone newTask hchecked).mp fun rows hcommit => ?_, ?_⟩
  · exact h rows ⟨newTask, hchecked, hcommit⟩
  · rintro h rows ⟨newTask, hchecked, hcommit⟩
    exact (hnone newTask hchecked).mpr (h newTask hchecked) rows hcommit

lemma describes_createInvite_iff (c : InviteCall) :
    Describes db (.createInvite c) ↔ Spared db (.createInvite c) := by
  have hnone := forall_commit_iff db (c.added db) fun _ => InviteCall.not_recorded
  simp only [Describes, Spared, Call.run, createInvite_eq_committed_iff]
  rcases c.refusal with _ | e
  · simpa using hnone
  · simp

lemma describes_runFullAnalysis_iff (c : AnalysisCall) :
    Describes db (.runFullAnalysis c) ↔ Spared db (.runFullAnalysis c) := by
  simp only [Describes, Spared, Call.run, runFullAnalysis_eq_committed_iff]
  exact forall_commit_iff db (c.added db) fun _ => AnalysisCall.not_linked_of_commit

/-- **A call describes what it commits exactly if nothing is committed**, and reports no duplicate that
is none exactly if it ends before its event is refused. -/
theorem describes_iff_spared (db : Database model) (call : Call) :
    Describes db call ↔ Spared db call := by
  cases call with
  | enqueue c => exact describes_enqueue_iff c
  | queue c => exact describes_queue_iff c
  | createTask c => exact describes_createTask_iff c
  | createInvite c => exact describes_createInvite_iff c
  | runFullAnalysis c => exact describes_runFullAnalysis_iff c

/-! ### The first delivery, and the first execution -/

/-- The organization 0 with its workflow 1. -/
def standing : Kind → ℕ → Bool
  | .organization, 0 => true
  | .workflow, 1 => true
  | _, _ => false

lemma lt_of_standing (k : Kind) (id : ℕ) (h : standing k id = true) : id < 2 := by
  unfold standing at h
  split at h <;> simp_all

/-- A database without other constraints. -/
def firstDatabase : Database model := .bare model standing 2 lt_of_standing

lemma one_le_ten : 1 ≤ 10 := by omega

/-- The settings of the outbox. -/
def tenDeliveries : Outbox.EnqueueSettings := ⟨10, 4, 0, one_le_ten⟩

/-- A delivery under a key that nothing stands under. -/
def firstDelivery : EnqueueCall where
  settings := tenDeliveries
  dumps := fun _ => "{}"
  data :=
    { organizationId := 0
      channel := .dashboard
      recipientUserId := none
      notificationId := none
      approvalRequestId := none
      subject := "Weekly report"
      body := "The report is ready."
      actionUrl := none
      payload := []
      maxAttempts := none
      scheduledFor := none
      idempotencyKey := some "report-1" }
  existing := none
  pending := 0
  now := 0
  taken := false

/-- An execution of the workflow. -/
def firstExecution : QueueCall where
  settings := ⟨60, 10, 5, 1024, 3600⟩
  killSwitch := ⟨false, none⟩
  data :=
    { organizationId := some 0
      workflowId := 1
      triggerId := none
      input := "{}"
      maxAttempts := 3
      retryDelaySeconds := 30
      retryBackoff := .constant
      traceId := none
      idempotencyKey := none }
  requestedByUserId := none
  bypassPendingCap := false
  workflow := some ("Weekly report", .active)
  pending := 0
  drawnTraceId := 2
  now := 0

/-- The delivery is reported as a duplicate of nothing, and the execution is committed with a record that
does not name it. -/
theorem not_describes_first : ¬ Describes firstDatabase (.enqueue firstDelivery)
    ∧ ¬ Describes firstDatabase (.queue firstExecution) := by
  refine ⟨fun h => ?_, fun h => ?_⟩
  · have hspared := (describes_enqueue_iff firstDelivery).mp h
    simp [Spared, EnqueueCall.refusal, EnqueueCall.key, EnqueueCall.overCap, firstDelivery,
      tenDeliveries, Outbox.DeliveryService.providerAvailable, Outbox.DeliveryService.payloadTooLarge] at hspared
  · have hspared := (describes_queue_iff firstExecution).mp h 0 "Weekly report" rfl
    have hcommit : ((firstExecution.added firstDatabase 0 "Weekly report").commit firstDatabase).isSome
        = true := rfl
    simp [hspared] at hcommit

end Services.References
