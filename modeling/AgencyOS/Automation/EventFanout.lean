import AgencyOS.Automation.ExecutionService
import AgencyOS.Txn.OrderBy

/-!
Publishing an event, which queues an execution for every trigger that matches.

The event is flushed only, and the first execution that is committed commits it too.  An execution that
the database refuses rolls the session back: what was not committed is gone, and the triggers that were
loaded can no longer be read.

* `Session`, `queue`, `fanOut`, `publish`: the session, and the calls on it;
* `Going`, `queue_cases`, `fanOut_going`: the session as long as nothing is rolled back;
* `fanOut_rolledBack`: what is left of the loop after a rollback;
* `FannedOut`, `fannedOut_iff`: **an event fans out as promised exactly when** a queueing that is rolled
  back is the last one, and another one was committed before it.
-/

namespace Automation.WorkflowEventService

open Txn

/-! ### Triggers -/

structure WorkflowTrigger where
  id : ℕ
  organizationId : ℕ
  workflowId : ℕ
  triggerType : String
  eventType : Option String
  enabled : Bool
  config : Payload
  createdAt : Time
  deriving DecidableEq, Repr

/-- The table of triggers. -/
structure Triggers where
  rows : List WorkflowTrigger
  nodup : (rows.map (·.id)).Nodup

/-- The condition of `get_by_event_type`. -/
def Triggers.forEvent (triggers : Triggers) (organizationId : ℕ) (eventType : String) :
    List WorkflowTrigger :=
  triggers.rows.filter fun t => t.organizationId = organizationId && t.triggerType = "event"
    && t.eventType = some eventType && t.enabled

/-- An order in which the database gives the triggers of an event. -/
structure Fetched (triggers : Triggers) (organizationId : ℕ) (eventType : String) where
  rows : List WorkflowTrigger
  ordered : OrderedBy (·.createdAt) (triggers.forEvent organizationId eventType) rows

/-- `get_by_event_type`. -/
def getByEventType {triggers : Triggers} {organizationId : ℕ} {eventType : String}
    (fetched : Fetched triggers organizationId eventType) (limit : ℕ) : List WorkflowTrigger :=
  fetched.rows.take limit

/-! ### The session -/

structure WorkflowEvent where
  organizationId : ℕ
  eventType : String
  payload : Payload
  consumed : Bool
  consumedAt : Option Time
  deriving DecidableEq, Repr

/-- The execution that is queued for a trigger, with its input. -/
structure QueuedExecution where
  organizationId : ℕ
  workflowId : ℕ
  triggerId : ℕ
  event : Payload
  triggerConfig : Payload
  deriving DecidableEq, Repr

/-- What there is of an event, and the executions queued for it. -/
structure Rows where
  event : Option WorkflowEvent
  executions : List QueuedExecution
  deriving DecidableEq, Repr

/-- A session: what is committed, what its transaction sees, and whether the rows that it has loaded
have expired. -/
structure Session where
  committed : Rows
  view : Rows
  expired : Bool
  deriving DecidableEq, Repr

/-- Nothing is written yet. -/
def Session.start : Session := ⟨⟨none, []⟩, ⟨none, []⟩, false⟩

def Session.addEvent (s : Session) (event : WorkflowEvent) : Session :=
  { s with view := { s.view with event := some event } }

def Session.addExecution (s : Session) (execution : QueuedExecution) : Session :=
  { s with view := { s.view with executions := s.view.executions ++ [execution] } }

/-- The attributes of the event are set; if the event is gone, no row is. -/
def Session.setEvent (s : Session) (event : WorkflowEvent) : Session :=
  { s with view := { s.view with event := s.view.event.map fun _ => event } }

def Session.commit (s : Session) : Session := { s with committed := s.view }

def Session.rollback (s : Session) : Session := ⟨s.committed, s.committed, true⟩

/-! ### Queueing -/

/-- The kill switch as a call finds it. -/
structure KillSwitch where
  paused : Bool
  reason : Option String
  deriving DecidableEq, Repr

/-- What a queueing finds: the kill switch, the workflow, how many executions are pending, and whether
the workflow and the trigger are still there when the execution is written. -/
structure Circumstances where
  killSwitch : KillSwitch
  workflow : Option WorkflowStatus
  pending : ℕ
  intact : Bool
  deriving DecidableEq, Repr

/-- `block_queue_if_paused`. -/
def blockQueueIfPaused (killSwitch : KillSwitch) : Option AppError :=
  if killSwitch.paused then
    some ⟨"automation.paused.queue_blocked", AutomationControlService.withReason
      "Automation is currently paused. New executions cannot be queued." killSwitch.reason, 409⟩
  else none

variable (settings : Settings)

/-- The checks of `queue`, before it writes. -/
def queueRefusal (c : Circumstances) : Option AppError :=
  match blockQueueIfPaused c.killSwitch with
  | some e => some e
  | none =>
      match c.workflow with
      | none => some ⟨"workflow.not_found", "Workflow not found", 404⟩
      | some status =>
          if status ≠ .active then
            some ⟨"workflow.not_active", "Only active workflows can be queued", 400⟩
          else if settings.executionMaxPendingPerOrg ≤ c.pending then
            some ⟨"execution.pending_cap_exceeded", "Organization has too many pending executions ("
              ++ toString settings.executionMaxPendingPerOrg ++ " max)", 409⟩
          else none

/-- `WorkflowExecutionService.queue`. -/
def queue (c : Circumstances) (data : QueuedExecution) (s : Session) : Except Exn Unit × Session :=
  match queueRefusal settings c with
  | some e => (.error (.app e false), s)
  | none =>
      if c.intact then (.ok (), (s.addExecution data).commit)
      else
        (.error (.app ⟨"execution.create_failed", "Could not create workflow execution", 409⟩ true),
          s.rollback)

/-! ### Publishing -/

structure EventLimits where
  fanoutMaxTriggers : ℕ
  maxPayloadBytes : ℕ

structure EventCreate where
  organizationId : Option ℕ
  eventType : String
  payload : Payload

variable (limits : EventLimits) (data : EventCreate) (maxFanout maxPayloadBytes : Option ℕ)
  (killSwitch : KillSwitch) (circumstances : WorkflowTrigger → Circumstances) (now : Time)

/-- The execution for a trigger. -/
def executionFor (organizationId : ℕ) (t : WorkflowTrigger) : QueuedExecution :=
  ⟨organizationId, t.workflowId, t.id, data.payload, t.config⟩

/-- The loop over the triggers, with the number of executions queued so far. -/
def fanOut (organizationId : ℕ) : List WorkflowTrigger → ℕ → Session → Except Exn ℕ × Session
  | [], queued, s => (.ok queued, s)
  | t :: triggers, queued, s =>
      if s.expired then (.error .missingGreenlet, s)
      else if !t.enabled then fanOut organizationId triggers queued s
      else
        match queue settings (circumstances t) (executionFor data organizationId t) s with
        | (.ok (), s) => fanOut organizationId triggers (queued + 1) s
        | (.error (.app _ _), s) => fanOut organizationId triggers queued s
        | (.error e, s) => (.error e, s)

/-- The event as it is added, and as it is left. -/
def eventRow (organizationId queued : ℕ) : WorkflowEvent where
  organizationId := organizationId
  eventType := data.eventType
  payload := data.payload
  consumed := 0 < queued
  consumedAt := if 0 < queued then some now else none

/-- `publish` after its checks. -/
def publishTo (organizationId : ℕ) (triggers : List WorkflowTrigger) (s : Session) :
    Except Exn WorkflowEvent × Session :=
  match fanOut settings data circumstances organizationId triggers 0
      (s.addEvent (eventRow data now organizationId 0)) with
  | (.error e, s) => (.error e, s)
  | (.ok queued, s) =>
      (.ok (eventRow data now organizationId queued),
        (s.setEvent (eventRow data now organizationId queued)).commit)

/-- The triggers that are tried. -/
def tried {triggers : Triggers} {organizationId : ℕ} {eventType : String}
    (fetched : Fetched triggers organizationId eventType) : List WorkflowTrigger :=
  (getByEventType fetched (maxFanout.getD limits.fanoutMaxTriggers + 1)).take
    (maxFanout.getD limits.fanoutMaxTriggers)

/-- `publish`. -/
def publish {triggers : Triggers}
    (fetched : ∀ organizationId, Fetched triggers organizationId data.eventType) (s : Session) :
    Except Exn WorkflowEvent × Session :=
  match blockQueueIfPaused killSwitch with
  | some e => (.error (.app e false), s)
  | none =>
      match data.organizationId with
      | none =>
          (.error (.app ⟨"event.organization_required", "organization_id is required", 400⟩ false), s)
      | some organizationId =>
          if maxPayloadBytes.getD limits.maxPayloadBytes < data.payload.length then
            (.error (.app ⟨"event.payload_too_large", "Event payload exceeds the "
              ++ toString (maxPayloadBytes.getD limits.maxPayloadBytes) ++ " byte limit", 400⟩ false), s)
          else
            publishTo settings data circumstances now organizationId
              (tried limits maxFanout (fetched organizationId)) s

/-! ### The loop -/

/-- The execution of a trigger is committed. -/
def admitted (t : WorkflowTrigger) : Bool :=
  queueRefusal settings (circumstances t) = none && (circumstances t).intact

/-- The queueing for a trigger is rolled back. -/
def rollsBack (t : WorkflowTrigger) : Bool :=
  queueRefusal settings (circumstances t) = none && !(circumstances t).intact

/-- The session while nothing is rolled back: the event is added, and it is committed with the first
execution. -/
structure Going (event : WorkflowEvent) (executions : List QueuedExecution) (s : Session) : Prop where
  expired : s.expired = false
  view : s.view = ⟨some event, executions⟩
  committed : s.committed = if executions = [] then ⟨none, []⟩ else ⟨some event, executions⟩

variable {settings data circumstances now} {organizationId : ℕ} {event : WorkflowEvent}
  {executions : List QueuedExecution} {s : Session}

/-- **What a queueing does.** -/
lemma queue_cases (h : Going event executions s) (t : WorkflowTrigger) (execution : QueuedExecution) :
    (admitted settings circumstances t = true ∧ rollsBack settings circumstances t = false
        ∧ ∃ s', queue settings (circumstances t) execution s = (.ok (), s')
          ∧ Going event (executions ++ [execution]) s')
      ∨ (admitted settings circumstances t = false ∧ rollsBack settings circumstances t = false
        ∧ ∃ e, queue settings (circumstances t) execution s = (.error (.app e false), s))
      ∨ (admitted settings circumstances t = false ∧ rollsBack settings circumstances t = true
        ∧ ∃ e, queue settings (circumstances t) execution s = (.error (.app e true), s.rollback)) := by
  rw [queue, admitted, rollsBack]
  cases hrefusal : queueRefusal settings (circumstances t) with
  | some e => exact .inr (.inl ⟨rfl, rfl, e, rfl⟩)
  | none =>
      cases hintact : (circumstances t).intact with
      | true =>
          refine .inl ⟨rfl, rfl, _, if_pos rfl, ?_⟩
          obtain ⟨hexpired, hview, -⟩ := h
          have hadd : (s.addExecution execution).view = ⟨some event, executions ++ [execution]⟩ := by
            rw [Session.addExecution, hview]
          exact ⟨hexpired, hadd, hadd.trans (if_neg (by simp)).symm⟩
      | false => exact .inr (.inr ⟨rfl, rfl, _, if_neg Bool.false_ne_true⟩)

/-- **As long as nothing is rolled back**, every trigger gets the execution that it is admitted to. -/
lemma fanOut_going {triggers : List WorkflowTrigger} (henabled : ∀ t ∈ triggers, t.enabled = true)
    (hkept : ∀ t ∈ triggers, rollsBack settings circumstances t = false) (h : Going event executions s)
    (after : List WorkflowTrigger) : ∃ s',
      Going event (executions
        ++ (triggers.filter (admitted settings circumstances)).map (executionFor data organizationId)) s'
      ∧ fanOut settings data circumstances organizationId (triggers ++ after) executions.length s
        = fanOut settings data circumstances organizationId after (executions
          ++ (triggers.filter (admitted settings circumstances)).map
            (executionFor data organizationId)).length s' := by
  induction triggers generalizing executions s with
  | nil => exact ⟨s, by simpa using h, by simp⟩
  | cons t triggers ih =>
      rw [List.forall_mem_cons] at henabled hkept
      have hfirst : fanOut settings data circumstances organizationId (t :: (triggers ++ after))
          executions.length s =
            match queue settings (circumstances t) (executionFor data organizationId t) s with
            | (.ok (), s) => fanOut settings data circumstances organizationId (triggers ++ after)
                (executions.length + 1) s
            | (.error (.app _ _), s) => fanOut settings data circumstances organizationId
                (triggers ++ after) executions.length s
            | (.error e, s) => (.error e, s) := by
        rw [fanOut, h.expired, henabled.1]
        rfl
      rw [List.cons_append, hfirst]
      rcases queue_cases h t (executionFor data organizationId t) with
        ⟨hadmitted, -, s', hqueue, hgoing⟩ | ⟨hadmitted, -, e, hqueue⟩ | ⟨-, hrolls, -⟩
      · obtain ⟨s'', hgoing', hrest⟩ := ih henabled.2 hkept.2 hgoing
        rw [hqueue, List.filter_cons_of_pos hadmitted, List.map_cons]
        rw [List.length_append, List.length_singleton, List.append_assoc, List.singleton_append] at hrest
        rw [List.append_assoc, List.singleton_append] at hgoing'
        exact ⟨s'', hgoing', hrest⟩
      · obtain ⟨s'', hgoing', hrest⟩ := ih henabled.2 hkept.2 h
        rw [hqueue, List.filter_cons_of_neg (by simp [hadmitted])]
        exact ⟨s'', hgoing', hrest⟩
      · exact nomatch hkept.1.symm.trans hrolls

/-- **After a rollback** the next trigger cannot be read; if there is none, the loop ends. -/
lemma fanOut_rolledBack {t : WorkflowTrigger} (henabled : t.enabled = true)
    (hrolls : rollsBack settings circumstances t = true) (h : Going event executions s)
    (after : List WorkflowTrigger) (queued : ℕ) :
    fanOut settings data circumstances organizationId (t :: after) queued s
      = (if after = [] then .ok queued else .error .missingGreenlet, s.rollback) := by
  rcases queue_cases h t (executionFor data organizationId t) with
    ⟨-, hnot, -⟩ | ⟨-, hnot, -⟩ | ⟨-, -, e, hqueue⟩
  · exact nomatch hnot.symm.trans hrolls
  · exact nomatch hnot.symm.trans hrolls
  · rw [fanOut, h.expired, henabled, hqueue]
    cases after with
    | nil => rfl
    | cons => rfl

/-! ### The promise -/

/-- The checks of `publish` pass. -/
structure Accepted (limits : EventLimits) (data : EventCreate) (maxPayloadBytes : Option ℕ)
    (killSwitch : KillSwitch) (organizationId : ℕ) : Prop where
  running : killSwitch.paused = false
  organization : data.organizationId = some organizationId
  small : data.payload.length ≤ maxPayloadBytes.getD limits.maxPayloadBytes

variable (settings data circumstances now)

/-- What a call that is accepted is to leave: it returns the event, which is committed, with the
executions of exactly those triggers that are admitted, one for each, and no more than the limit; the
event is consumed if there are any. -/
def Published (organizationId limit : ℕ) (triggers : List WorkflowTrigger)
    (run : Except Exn WorkflowEvent × Session) : Prop :=
  ∃ event s, run = (.ok event, s) ∧ s.committed.event = some event
    ∧ s.committed.executions
      = (triggers.filter (admitted settings circumstances)).map (executionFor data organizationId)
    ∧ (s.committed.executions.map (·.triggerId)).Nodup
    ∧ s.committed.executions.length ≤ limit
    ∧ (event.consumed = true ↔ s.committed.executions ≠ [])

/-- What is promised of publishing an event; a call that is refused writes nothing. -/
structure FannedOut {triggers : Triggers}
    (fetched : ∀ organizationId, Fetched triggers organizationId data.eventType) : Prop where
  refused : (∀ organizationId, ¬ Accepted limits data maxPayloadBytes killSwitch organizationId) →
    ∃ e, publish settings limits data maxFanout maxPayloadBytes killSwitch circumstances now fetched .start
      = (.error (.app e false), .start)
  published : ∀ organizationId, Accepted limits data maxPayloadBytes killSwitch organizationId →
    Published settings data circumstances organizationId (maxFanout.getD limits.fanoutMaxTriggers)
      (tried limits maxFanout (fetched organizationId))
      (publish settings limits data maxFanout maxPayloadBytes killSwitch circumstances now fetched .start)

/-- A queueing that is rolled back is the last one, and another one was committed before it. -/
def OnlyLastRollsBack (triggers : List WorkflowTrigger) : Prop :=
  ∀ before t after, triggers = before ++ t :: after → rollsBack settings circumstances t = true →
    after = [] ∧ ∃ u ∈ before, admitted settings circumstances u = true

variable {settings limits data maxFanout maxPayloadBytes killSwitch circumstances now}
  {triggers : Triggers} {fetched : ∀ organizationId, Fetched triggers organizationId data.eventType}

/-- The triggers that are tried are enabled, and each is tried once. -/
lemma tried_spec (fetched : Fetched triggers organizationId data.eventType) :
    (∀ t ∈ tried limits maxFanout fetched, t.enabled = true)
      ∧ ((tried limits maxFanout fetched).map (·.id)).Nodup
      ∧ (tried limits maxFanout fetched).length ≤ maxFanout.getD limits.fanoutMaxTriggers := by
  have hsub : (tried limits maxFanout fetched).Sublist fetched.rows :=
    (List.take_sublist _ _).trans (List.take_sublist _ _)
  have hperm := fetched.ordered.perm
  refine ⟨fun t ht => ?_, ?_, List.length_take_le _ _⟩
  · have hmem := List.mem_filter.mp (hperm.mem_iff.mp (hsub.subset ht))
    have hcondition := hmem.2
    rw [Bool.and_eq_true] at hcondition
    exact hcondition.2
  · have hrows : (fetched.rows.map (·.id)).Nodup :=
      ((hperm.map _).nodup_iff).mpr (triggers.nodup.sublist (List.filter_sublist.map _))
    exact hrows.sublist (hsub.map _)

/-- What is left when the loop is through. -/
lemma publishTo_going {triggers : List WorkflowTrigger} (henabled : ∀ t ∈ triggers, t.enabled = true)
    (hkept : ∀ t ∈ triggers, rollsBack settings circumstances t = false) :
    ∃ s event, publishTo settings data circumstances now organizationId triggers .start = (.ok event, s)
      ∧ s.committed = ⟨some event, (triggers.filter (admitted settings circumstances)).map
          (executionFor data organizationId)⟩
      ∧ (event.consumed = true ↔ s.committed.executions ≠ []) := by
  have hstart : Going (eventRow data now organizationId 0) []
      (Session.start.addEvent (eventRow data now organizationId 0)) := ⟨rfl, rfl, rfl⟩
  obtain ⟨s, hgoing, hrun⟩ := @fanOut_going settings data circumstances organizationId _ _ _ triggers
    henabled hkept hstart []
  rw [List.append_nil, List.nil_append, List.length_nil] at hrun
  rw [List.nil_append] at hgoing
  rw [publishTo, hrun, fanOut]
  refine ⟨_, _, rfl, ?_, ?_⟩
  · rw [Session.commit, Session.setEvent, hgoing.view]
    rfl
  · have hexecutions : ((s.setEvent (eventRow data now organizationId
        ((triggers.filter (admitted settings circumstances)).map
          (executionFor data organizationId)).length)).commit).committed.executions
        = (triggers.filter (admitted settings circumstances)).map (executionFor data organizationId) := by
      rw [Session.commit, Session.setEvent, hgoing.view]
    rw [hexecutions, eventRow, decide_eq_true_eq, List.length_pos_iff]

/-- What is left when the loop comes to a rollback: the event is committed only with an execution
before it, and nothing follows. -/
lemma publishTo_rolledBack {before after : List WorkflowTrigger} {t : WorkflowTrigger}
    (henabled : ∀ u ∈ before ++ t :: after, u.enabled = true)
    (hkept : ∀ u ∈ before, rollsBack settings circumstances u = false)
    (hrolls : rollsBack settings circumstances t = true) :
    ∃ s : Session, s.committed.executions = (before.filter (admitted settings circumstances)).map
        (executionFor data organizationId)
      ∧ (publishTo settings data circumstances now organizationId (before ++ t :: after) .start).2 = s
      ∧ (after ≠ [] → (publishTo settings data circumstances now organizationId (before ++ t :: after)
        .start).1 = .error .missingGreenlet)
      ∧ (s.committed.executions = [] → s.committed.event = none)
      ∧ (after = [] → s.committed.executions ≠ [] → ∃ event : WorkflowEvent,
        (publishTo settings data circumstances now organizationId (before ++ t :: after) .start).1 = .ok event
          ∧ s.committed.event = some event ∧ event.consumed = true) := by
  rw [List.forall_mem_append, List.forall_mem_cons] at henabled
  have hstart : Going (eventRow data now organizationId 0) []
      (Session.start.addEvent (eventRow data now organizationId 0)) := ⟨rfl, rfl, rfl⟩
  obtain ⟨s, hgoing, hrun⟩ := @fanOut_going settings data circumstances organizationId _ _ _ before
    henabled.1 hkept hstart (t :: after)
  rw [List.nil_append, List.length_nil] at hrun
  rw [List.nil_append] at hgoing
  rw [fanOut_rolledBack henabled.2.1 hrolls hgoing] at hrun
  have hcommitted := hgoing.committed
  generalize (before.filter (admitted settings circumstances)).map (executionFor data organizationId)
    = executions at hrun hcommitted ⊢
  have hexecutions : s.committed.executions = executions := by
    rw [hcommitted]
    split_ifs with hnil
    · exact hnil.symm
    · rfl
  rw [publishTo, hrun]
  by_cases hafter : after = []
  · rw [if_pos hafter]
    refine ⟨_, ?_, rfl, fun hne => absurd hafter hne, fun hnil => ?_, fun _ hne => ⟨_, rfl, ?_⟩⟩
    · exact hexecutions
    · have hnone : s.committed = ⟨none, []⟩ := by
        rw [hcommitted, if_pos (hexecutions.symm.trans hnil)]
      dsimp only [Session.commit, Session.setEvent, Session.rollback]
      rw [hnone]
      rfl
    · have hne' : executions ≠ [] := fun hnil => hne (hexecutions.trans hnil)
      rw [if_neg hne'] at hcommitted
      dsimp only [Session.commit, Session.setEvent, Session.rollback]
      rw [hcommitted]
      exact ⟨rfl, decide_eq_true (List.length_pos_iff.mpr hne')⟩
  · rw [if_neg hafter]
    refine ⟨_, ?_, rfl, fun _ => rfl, fun hnil => ?_, fun hnil => absurd hnil hafter⟩
    · exact hexecutions
    · rw [Session.rollback, hcommitted, if_pos (hexecutions.symm.trans hnil)]

/-- A call that is accepted goes on to the triggers. -/
lemma publish_of_accepted (h : Accepted limits data maxPayloadBytes killSwitch organizationId) :
    publish settings limits data maxFanout maxPayloadBytes killSwitch circumstances now fetched s
      = publishTo settings data circumstances now organizationId
        (tried limits maxFanout (fetched organizationId)) s := by
  have hrunning : blockQueueIfPaused killSwitch = none := by rw [blockQueueIfPaused, h.running]; rfl
  rw [publish, hrunning]
  dsimp only
  rw [h.organization]
  exact if_neg (not_lt.mpr h.small)

/-- All other calls are refused, and write nothing. -/
lemma publish_of_not_accepted
    (h : ∀ organizationId, ¬ Accepted limits data maxPayloadBytes killSwitch organizationId) :
    ∃ e, publish settings limits data maxFanout maxPayloadBytes killSwitch circumstances now fetched s
      = (.error (.app e false), s) := by
  rw [publish]
  cases hpaused : killSwitch.paused with
  | true => exact ⟨_, by rw [blockQueueIfPaused, hpaused]; rfl⟩
  | false =>
      rw [blockQueueIfPaused, hpaused]
      cases horganization : data.organizationId with
      | none => exact ⟨_, rfl⟩
      | some organizationId =>
          refine ⟨_, if_pos ?_⟩
          by_contra hsmall
          exact h organizationId ⟨hpaused, horganization, not_lt.mp hsmall⟩

/-- A list has a first member with a property, if it has any. -/
lemma exists_first {α : Type} {p : α → Bool} {l : List α} (h : ∃ x ∈ l, p x = true) :
    ∃ before x after, l = before ++ x :: after ∧ (∀ y ∈ before, p y = false) ∧ p x = true := by
  induction l with
  | nil =>
      obtain ⟨x, hx, -⟩ := h
      cases hx
  | cons y l ih =>
      cases hy : p y with
      | true => exact ⟨[], y, l, rfl, nofun, hy⟩
      | false =>
          obtain ⟨x, hx, hp⟩ := h
          rcases List.mem_cons.mp hx with rfl | hx
          · exact nomatch hy.symm.trans hp
          · obtain ⟨before, z, after, rfl, hbefore, hz⟩ := ih ⟨x, hx, hp⟩
            exact ⟨y :: before, z, after, rfl, List.forall_mem_cons.mpr ⟨hy, hbefore⟩, hz⟩

/-- After triggers that are kept, one of them admitted, it does not matter how the last one ends. -/
lemma onlyLastRollsBack_last {before : List WorkflowTrigger} {t : WorkflowTrigger}
    (hkept : ∀ u ∈ before, rollsBack settings circumstances u = false)
    (hadmitted : ∃ u ∈ before, admitted settings circumstances u = true) :
    OnlyLastRollsBack settings circumstances (before ++ [t]) := by
  intro before' t' after' hsplit hrolls
  rcases List.eq_nil_or_concat' after' with rfl | ⟨after', u, rfl⟩
  · obtain ⟨rfl, -⟩ := List.append_inj' hsplit rfl
    exact ⟨rfl, hadmitted⟩
  · -- a rollback before the last trigger would be among those that are kept
    rw [← List.cons_append, ← List.append_assoc] at hsplit
    obtain ⟨rfl, -⟩ := List.append_inj' hsplit rfl
    have hmem : t' ∈ before' ++ t' :: after' := List.mem_append_right _ List.mem_cons_self
    exact nomatch (hkept t' hmem).symm.trans hrolls

/-- Without a rollback the event is published as promised. -/
lemma published_of_kept {triggers : List WorkflowTrigger} {limit : ℕ}
    (henabled : ∀ t ∈ triggers, t.enabled = true) (hnodup : (triggers.map (·.id)).Nodup)
    (hlength : triggers.length ≤ limit)
    (hkept : ∀ t ∈ triggers, rollsBack settings circumstances t = false) :
    Published settings data circumstances organizationId limit triggers
      (publishTo settings data circumstances now organizationId triggers .start) := by
  obtain ⟨s, event, hrun, hcommitted, hconsumed⟩ := @publishTo_going settings data circumstances now
    organizationId triggers henabled hkept
  have hexecutions := congrArg Rows.executions hcommitted
  dsimp only at hexecutions
  refine ⟨event, s, hrun, by rw [hcommitted], hexecutions, ?_, ?_, hconsumed⟩
  · rw [hexecutions, List.map_map]
    exact hnodup.sublist (List.filter_sublist.map _)
  · rw [hexecutions, List.length_map]
    exact (List.length_filter_le _ _).trans hlength

/-- With a rollback it is only if nothing is left to do, and the event is committed already. -/
lemma published_iff_of_rollsBack {before after : List WorkflowTrigger} {t : WorkflowTrigger} {limit : ℕ}
    (henabled : ∀ u ∈ before ++ t :: after, u.enabled = true)
    (hnodup : ((before ++ t :: after).map (·.id)).Nodup) (hlength : (before ++ t :: after).length ≤ limit)
    (hkept : ∀ u ∈ before, rollsBack settings circumstances u = false)
    (hrolls : rollsBack settings circumstances t = true) :
    Published settings data circumstances organizationId limit (before ++ t :: after)
        (publishTo settings data circumstances now organizationId (before ++ t :: after) .start)
      ↔ after = [] ∧ ∃ u ∈ before, admitted settings circumstances u = true := by
  obtain ⟨s, hexecutions, hs, hunread, hlost, hleft⟩ := @publishTo_rolledBack settings data circumstances
    now organizationId before after t henabled hkept hrolls
  have hnil : s.committed.executions ≠ [] ↔ ∃ u ∈ before, admitted settings circumstances u = true := by
    rw [hexecutions, ne_eq, List.map_eq_nil_iff, List.filter_eq_nil_iff]
    push Not
    rfl
  rw [← hnil]
  constructor
  · rintro ⟨event, s', hrun, hevent, -⟩
    rw [hrun] at hs hunread
    obtain rfl : s' = s := hs
    refine ⟨?_, fun hnone => ?_⟩
    · by_contra hafter
      exact nomatch hunread hafter
    · exact nomatch hevent.symm.trans (hlost hnone)
  · rintro ⟨rfl, hne⟩
    obtain ⟨event, hok, hevent, hconsumed⟩ := hleft rfl hne
    have hrefused : admitted settings circumstances t = false := by
      rw [rollsBack, Bool.and_eq_true, Bool.not_eq_true'] at hrolls
      rw [admitted, hrolls.2, Bool.and_false]
    have hall : s.committed.executions = ((before ++ [t]).filter (admitted settings circumstances)).map
        (executionFor data organizationId) := by
      rw [hexecutions, List.filter_append, List.filter_cons_of_neg (by simp [hrefused]), List.filter_nil,
        List.append_nil]
    refine ⟨event, s, Prod.ext hok hs, hevent, hall, ?_, ?_, ?_⟩
    · rw [hall, List.map_map]
      exact hnodup.sublist (List.filter_sublist.map _)
    · rw [hall, List.length_map]
      exact (List.length_filter_le _ _).trans hlength
    · exact iff_of_true hconsumed hne

/-- **An event fans out as promised exactly when** a queueing that is rolled back is the last one that is
tried, and another one was committed before it. -/
theorem fannedOut_iff :
    FannedOut settings limits data maxFanout maxPayloadBytes killSwitch circumstances now fetched
      ↔ ∀ organizationId, Accepted limits data maxPayloadBytes killSwitch organizationId →
        OnlyLastRollsBack settings circumstances (tried limits maxFanout (fetched organizationId)) := by
  have hpublished : ∀ organizationId, Accepted limits data maxPayloadBytes killSwitch organizationId →
      (Published settings data circumstances organizationId (maxFanout.getD limits.fanoutMaxTriggers)
        (tried limits maxFanout (fetched organizationId))
        (publish settings limits data maxFanout maxPayloadBytes killSwitch circumstances now fetched .start)
        ↔ OnlyLastRollsBack settings circumstances
          (tried limits maxFanout (fetched organizationId))) := by
    intro organizationId haccepted
    obtain ⟨henabled, hnodup, hlength⟩ := @tried_spec limits data maxFanout organizationId triggers
      (fetched organizationId)
    rw [publish_of_accepted haccepted]
    generalize tried limits maxFanout (fetched organizationId) = triggers at henabled hnodup hlength ⊢
    by_cases hrolls : ∃ t ∈ triggers, rollsBack settings circumstances t = true
    · -- the first rollback decides
      obtain ⟨before, t, after, rfl, hkept, hrolls⟩ := exists_first hrolls
      rw [published_iff_of_rollsBack henabled hnodup hlength hkept hrolls]
      constructor
      · rintro ⟨rfl, hadmitted⟩
        exact onlyLastRollsBack_last hkept hadmitted
      · exact fun h => h before t after rfl hrolls
    · push Not at hrolls
      have hkept : ∀ t ∈ triggers, rollsBack settings circumstances t = false := fun t ht =>
        Bool.eq_false_of_not_eq_true (hrolls t ht)
      refine iff_of_true (published_of_kept henabled hnodup hlength hkept) ?_
      rintro before t after rfl hrolls
      exact nomatch (hkept t (List.mem_append_right _ List.mem_cons_self)).symm.trans hrolls
  constructor
  · exact fun h organizationId haccepted =>
      (hpublished organizationId haccepted).mp (h.published organizationId haccepted)
  · exact fun h => ⟨publish_of_not_accepted, fun organizationId haccepted =>
      (hpublished organizationId haccepted).mpr (h organizationId haccepted)⟩

/-- One trigger, which is deleted while its execution is queued. -/
def deletedTrigger : WorkflowTrigger where
  id := 1
  organizationId := 1
  workflowId := 1
  triggerType := "event"
  eventType := some "lead.won"
  enabled := true
  config := "{}"
  createdAt := 0

/-- The event is returned, and it is not in the database. -/
theorem not_fannedOut_deletedTrigger : ¬ ∀ (settings : Settings) (limits : EventLimits) (data : EventCreate)
    (maxFanout maxPayloadBytes : Option ℕ) (killSwitch : KillSwitch)
    (circumstances : WorkflowTrigger → Circumstances) (now : Time) (triggers : Triggers)
    (fetched : ∀ organizationId, Fetched triggers organizationId data.eventType),
    FannedOut settings limits data maxFanout maxPayloadBytes killSwitch circumstances now fetched := by
  intro h
  have hpublish := h ⟨300, 1000, 10, 4096, 86400⟩ ⟨50, 65536⟩ ⟨some 1, "lead.won", "{}"⟩ none none
    ⟨false, none⟩ (fun _ => ⟨⟨false, none⟩, some .active, 0, false⟩) 0
    ⟨[deletedTrigger], List.nodup_singleton _⟩
    fun _ => ⟨_, .refl _, (List.pairwise_singleton _ _).sublist List.filter_sublist⟩
  have hlast := fannedOut_iff.mp hpublish 1 ⟨rfl, rfl, by decide⟩ [] deletedTrigger [] (by decide) (by decide)
  obtain ⟨-, u, hu, -⟩ := hlast
  cases hu

end Automation.WorkflowEventService
