import AgencyOS.Python.Calendar
import AgencyOS.Txn.Purge

/-!
The retention worker: old events and dead heartbeats are deleted, in chunks.

Time is in microseconds.  Events arrive while the worker runs; the whole tick is one transaction.

* `RetentionSettings`: the settings, with what `validate_runtime` asks of them;
* `retentionTick`: one sweep;
* `Exact`, `retentionTick_exact`: it ends, and deletes exactly what is older than the cutoffs.
-/

namespace Automation.RetentionWorker

open Txn

/-! ### Tables -/

/-- A row of `execution_events` or of `delivery_events`. -/
structure Event where
  id : ℕ
  occurredAt : ℤ
  deriving DecidableEq, Repr

/-- A row of `worker_health`. -/
structure WorkerHealth where
  id : ℕ
  lastHeartbeatAt : ℤ
  deriving DecidableEq, Repr

structure Tables where
  executionEvents : List Event
  deliveryEvents : List Event
  workerHealth : List WorkerHealth
  deriving DecidableEq, Repr

/-- The settings that the sweep reads, with the checks of `validate_runtime` on them. -/
structure RetentionSettings where
  executionRetentionEnabled : Bool
  executionEventRetentionDays : ℕ
  executionRetentionBatch : ℕ
  deliveryRetentionEnabled : Bool
  deliveryEventRetentionDays : ℕ
  deliveryRetentionBatch : ℕ
  executionRetentionBatch_pos : 1 ≤ executionRetentionBatch
  deliveryRetentionBatch_pos : 1 ≤ deliveryRetentionBatch

/-- `datetime.now(UTC) - timedelta(days=days)`. -/
def cutoff (now : ℤ) (days : ℕ) : ℤ := now - days * Python.microsecondsPerDay

def Event.olderThan (cutoff : ℤ) (event : Event) : Bool := event.occurredAt < cutoff

def WorkerHealth.olderThan (cutoff : ℤ) (worker : WorkerHealth) : Bool := worker.lastHeartbeatAt < cutoff

/-! ### The sweep -/

/-- What happens around a sweep: the clock when it starts and at each purge, and around each statement. -/
structure Surroundings (settings : RetentionSettings) where
  start : ℤ
  executionNow : ℤ
  deliveryNow : ℤ
  execution : Course Event.occurredAt
    (Event.olderThan (cutoff executionNow settings.executionEventRetentionDays))
  delivery : Course Event.occurredAt
    (Event.olderThan (cutoff deliveryNow settings.deliveryEventRetentionDays))
  prune : (rows : List WorkerHealth) → Chunk WorkerHealth.lastHeartbeatAt
    (WorkerHealth.olderThan (cutoff start settings.executionEventRetentionDays)) rows

structure Stats where
  executionsDeleted : ℕ
  deliveryEventsDeleted : ℕ
  workersPruned : ℕ
  deriving DecidableEq, Repr

section Sweep

variable (settings : RetentionSettings) (around : Surroundings settings)

/-- `_purge_execution_events`, whose statement has `LIMIT max(batch, 1)`. -/
def purgeExecutionEvents (fuel : ℕ) (events : List Event) : Option (Purged Event) :=
  purge Event.id (max settings.executionRetentionBatch 1) settings.executionRetentionBatch around.execution
    fuel 0 events 0

/-- `_purge_delivery_events`, whose statement has `LIMIT limit`. -/
def purgeDeliveryEvents (fuel : ℕ) (events : List Event) : Option (Purged Event) :=
  if settings.deliveryRetentionEnabled then
    purge Event.id settings.deliveryRetentionBatch settings.deliveryRetentionBatch around.delivery fuel 0
      events 0
  else some ⟨events, 0, 0⟩

/-- `retention_tick`; `none` where the fuel does not last. -/
def retentionTick (fuel : ℕ) (tables : Tables) : Option (Tables × Stats) :=
  if settings.executionRetentionEnabled then do
    let executions ← purgeExecutionEvents settings around fuel tables.executionEvents
    let deliveries ← purgeDeliveryEvents settings around fuel tables.deliveryEvents
    let chunk := around.prune tables.workerHealth
    let limit := max settings.executionRetentionBatch 1
    some (⟨executions.rows, deliveries.rows, chunk.left WorkerHealth.id limit⟩,
      ⟨executions.deleted, deliveries.deleted, chunk.count WorkerHealth.id limit⟩)
  else some (tables, ⟨0, 0, 0⟩)

/-! ### What it deletes -/

/-- What a purge with a cutoff leaves: the events that are not older, and those that came in meanwhile. -/
def kept {cutoff : ℤ} (course : Course Event.occurredAt (Event.olderThan cutoff)) (batch : ℕ)
    (events : List Event) : List Event :=
  (events.filter fun event => cutoff ≤ event.occurredAt) ++
    course.arrived 0 (events.countP (Event.olderThan cutoff) / batch + 1)

/-- How many statements a purge takes, less one. -/
def rounds (cutoff : ℤ) (batch : ℕ) (events : List Event) : ℕ :=
  events.countP (Event.olderThan cutoff) / batch

variable {settings around} {tables after : Tables} {stats : Stats} {fuel : ℕ}

theorem purge_kept {cutoff : ℤ} {course : Course Event.occurredAt (Event.olderThan cutoff)} {batch : ℕ}
    {events : List Event} (hbatch : 1 ≤ batch) (hcalm : course.Calm Event.id events)
    (hfuel : rounds cutoff batch events < fuel) :
    ∃ n, purge Event.id batch batch course fuel 0 events 0 =
      some ⟨kept course batch events, events.countP (Event.olderThan cutoff), n⟩ := by
  have hyoung : (events.filter fun event => !event.olderThan cutoff) =
      events.filter fun event => cutoff ≤ event.occurredAt := by
    refine List.filter_congr fun event _ => ?_
    rw [Event.olderThan, ← decide_not, decide_eq_decide]
    exact not_lt
  have hpurge := purge_eq hbatch hcalm hfuel 0 0
  rw [hyoung, Nat.zero_add, Nat.zero_add] at hpurge
  exact ⟨_, hpurge⟩

/-- Nothing but what is older than the cutoffs is deleted: of the events all of it, of the heartbeats the
oldest, as many as a batch. -/
structure Exact (settings : RetentionSettings) (around : Surroundings settings) (tables after : Tables)
    (stats : Stats) : Prop where
  executionEvents : after.executionEvents =
    kept around.execution settings.executionRetentionBatch tables.executionEvents
  deliveryEvents : after.deliveryEvents =
    if settings.deliveryRetentionEnabled then
      kept around.delivery settings.deliveryRetentionBatch tables.deliveryEvents
    else tables.deliveryEvents
  alive : ∀ worker ∈ tables.workerHealth,
    cutoff around.start settings.executionEventRetentionDays ≤ worker.lastHeartbeatAt →
      worker ∈ after.workerHealth
  dead : ∀ worker ∈ tables.workerHealth, worker ∉ after.workerHealth →
    worker.lastHeartbeatAt < cutoff around.start settings.executionEventRetentionDays ∧
      ∀ left ∈ after.workerHealth, left.lastHeartbeatAt <
        cutoff around.start settings.executionEventRetentionDays →
          worker.lastHeartbeatAt ≤ left.lastHeartbeatAt
  workers : after.workerHealth.Sublist tables.workerHealth
  executionsDeleted : stats.executionsDeleted =
    tables.executionEvents.countP (Event.olderThan
      (cutoff around.executionNow settings.executionEventRetentionDays))
  deliveryEventsDeleted : stats.deliveryEventsDeleted =
    if settings.deliveryRetentionEnabled then
      tables.deliveryEvents.countP (Event.olderThan
        (cutoff around.deliveryNow settings.deliveryEventRetentionDays))
    else 0
  workersPruned : stats.workersPruned = min settings.executionRetentionBatch
    (tables.workerHealth.countP (WorkerHealth.olderThan
      (cutoff around.start settings.executionEventRetentionDays)))

theorem purgeDeliveryEvents_eq (hcalm : around.delivery.Calm Event.id tables.deliveryEvents)
    (hfuel : rounds (cutoff around.deliveryNow settings.deliveryEventRetentionDays)
      settings.deliveryRetentionBatch tables.deliveryEvents < fuel) :
    ∃ n, purgeDeliveryEvents settings around fuel tables.deliveryEvents =
      some ⟨if settings.deliveryRetentionEnabled then
          kept around.delivery settings.deliveryRetentionBatch tables.deliveryEvents
        else tables.deliveryEvents,
        if settings.deliveryRetentionEnabled then
          tables.deliveryEvents.countP (Event.olderThan
            (cutoff around.deliveryNow settings.deliveryEventRetentionDays))
        else 0, n⟩ := by
  unfold purgeDeliveryEvents
  cases settings.deliveryRetentionEnabled with
  | true =>
      obtain ⟨n, hpurge⟩ := purge_kept settings.deliveryRetentionBatch_pos hcalm hfuel
      exact ⟨n, by simpa using hpurge⟩
  | false => exact ⟨0, by simp⟩

/-- **A sweep ends**, once it has a statement for every full batch of old events and one more, and is
exact. -/
theorem retentionTick_exact (settings : RetentionSettings) (around : Surroundings settings)
    (tables : Tables) (fuel : ℕ) (henabled : settings.executionRetentionEnabled = true)
    (hexecution : around.execution.Calm Event.id tables.executionEvents)
    (hdelivery : around.delivery.Calm Event.id tables.deliveryEvents)
    (hworkers : (tables.workerHealth.map WorkerHealth.id).Nodup)
    (hrounds : rounds (cutoff around.executionNow settings.executionEventRetentionDays)
      settings.executionRetentionBatch tables.executionEvents < fuel)
    (hrounds' : rounds (cutoff around.deliveryNow settings.deliveryEventRetentionDays)
      settings.deliveryRetentionBatch tables.deliveryEvents < fuel) :
    ∃ after stats, retentionTick settings around fuel tables = some (after, stats) ∧
      Exact settings around tables after stats := by
  have hlimit : max settings.executionRetentionBatch 1 = settings.executionRetentionBatch :=
    Nat.max_eq_left settings.executionRetentionBatch_pos
  obtain ⟨n, hexecutions⟩ := purge_kept settings.executionRetentionBatch_pos hexecution hrounds
  obtain ⟨n', hdeliveries⟩ := purgeDeliveryEvents_eq hdelivery hrounds'
  have hid : ∀ x ∈ tables.workerHealth, ∀ y ∈ tables.workerHealth, x.id = y.id → x = y :=
    fun x hx y hy => List.inj_on_of_nodup_map hworkers hx hy
  have hnodup : (tables.workerHealth.filter (WorkerHealth.olderThan
      (cutoff around.start settings.executionEventRetentionDays))).Nodup :=
    (hworkers.of_map _).filter _
  rw [retentionTick, if_pos henabled, purgeExecutionEvents, hlimit, hexecutions, hdeliveries]
  refine ⟨_, _, rfl, ?_⟩
  have hleft : ∀ worker ∈ tables.workerHealth,
      worker ∈ (around.prune tables.workerHealth).left WorkerHealth.id settings.executionRetentionBatch ↔
        worker ∉ (around.prune tables.workerHealth).chosen settings.executionRetentionBatch := by
    intro worker hworker
    simp only [Chunk.left, List.mem_filter, hworker, true_and, decide_eq_true_eq,
      (around.prune tables.workerHealth).mem_map_chosen hid hworker]
  refine ⟨rfl, rfl, fun worker hworker halive => ?_, fun worker hworker hgone => ?_,
    Chunk.left_sublist _, rfl, rfl, ?_⟩
  · refine (hleft worker hworker).mpr fun hchosen => ?_
    have hold := ((around.prune tables.workerHealth).mem_of_mem_chosen hchosen).2
    simp only [WorkerHealth.olderThan, decide_eq_true_eq] at hold
    omega
  · have hchosen := not_not.mp (mt (hleft worker hworker).mpr hgone)
    have hold := ((around.prune tables.workerHealth).mem_of_mem_chosen hchosen).2
    refine ⟨by simpa [WorkerHealth.olderThan] using hold, fun left hmem hstale => ?_⟩
    have hrow := (Chunk.left_sublist _).mem hmem
    exact (around.prune tables.workerHealth).key_le_of_mem_chosen hchosen hrow
      (by simpa [WorkerHealth.olderThan] using hstale) ((hleft left hrow).mp hmem)
  · exact (around.prune tables.workerHealth).count_eq _ hid hnodup

end Sweep

lemma one_le_chunk : 1 ≤ 1 := le_rfl

/-- Chunks of one event, and no clock beyond the first day. -/
def daily : RetentionSettings := ⟨true, 0, 1, true, 0, 1, one_le_chunk, one_le_chunk⟩

/-- Nothing arrives. -/
def quiet : Surroundings daily where
  start := 10
  executionNow := 10
  deliveryNow := 10
  execution := ⟨fun _ => Chunk.stable _ _, fun _ => []⟩
  delivery := ⟨fun _ => Chunk.stable _ _, fun _ => []⟩
  prune := Chunk.stable _ _

def someTables : Tables := ⟨[⟨1, 3⟩, ⟨2, 12⟩, ⟨3, 4⟩], [⟨1, 11⟩], [⟨1, 5⟩, ⟨2, 6⟩, ⟨3, 20⟩]⟩

theorem someTables_ids : ∀ x y, x ∈ someTables.executionEvents → y ∈ someTables.executionEvents →
    x.id = y.id → x = y := by
  simp only [someTables, List.mem_cons, List.not_mem_nil, or_false]
  rintro x y (rfl | rfl | rfl) (rfl | rfl | rfl) <;> simp

theorem retentionTick_someTables : ∃ after stats, retentionTick daily quiet 5 someTables = some (after, stats) ∧
    Exact daily quiet someTables after stats :=
  retentionTick_exact daily quiet someTables 5 rfl
    ⟨by decide, by simp [quiet], fun x y hx hy => someTables_ids x y (hx.resolve_right (by simp [quiet]))
      (hy.resolve_right (by simp [quiet]))⟩
    ⟨by decide, by simp [quiet], by simp [quiet, someTables]⟩ (by decide) (by decide) (by decide)

end Automation.RetentionWorker
