import AgencyOS.Automation.ScheduleDispatcher
import AgencyOS.Python.Collections
import AgencyOS.Txn.Monitor

/-!
The ticks of schedule triggers, under any number of dispatchers at once.

A reservation matches only if the trigger has not fired since the fire time, and writes the time of its
dispatcher, which is no earlier.  So whoever comes later, with whatever clock, needs a later fire time.

* `Dispatch`, `Ticks`, `dispatched`: the ticks that are reserved, and those that are committed;
* `ExactlyOnce`: what is promised of the ticks, of the times of the last fire and of the executions;
* `tickMonitor`, `obeys_program`: a pass reserves a tick, inserts its execution, and commits;
* `Holds`, `Kept`: what a session has written, and what has become of the ticks;
* `ticks_exactlyOnce`: **every tick is dispatched at most once**, by its own commit.
-/

namespace Automation.ScheduleDispatcher

open Txn ScheduleCron

abbrev ScheduleEvent (ι : Type) : Type := Event (sql scheduling) ι (ScheduleStore ι)

abbrev scheduleServer (ι : Type) [DecidableEq ι] : Server (sql scheduling) ι (ScheduleStore ι) :=
  server scheduling ι

/-! ### The promise -/

/-- A tick of a trigger, and the clock of the dispatcher that reserves it. -/
structure Dispatch where
  triggerId : ℕ
  fireTime : Time
  now : Time
  deriving DecidableEq, Repr

/-- The ticks that open transactions have reserved, and those whose reservations are committed. -/
structure Ticks (ι : Type) where
  reserved : ι → Option Dispatch
  dispatched : List Dispatch

section Promise

variable {ι : Type} [DecidableEq ι]

/-- A reservation that matches its trigger is open until its session commits it or rolls back. -/
def Ticks.step (ticks : Ticks ι) (ev : ScheduleEvent ι) : Ticks ι :=
  match ev.stmt with
  | .update (.inr (.reserveLastFired fireTime now)) triggerId =>
      if (ev.before.written ev.pid (.inr (.reserveLastFired fireTime now)) triggerId).isSome then
        { ticks with
          reserved := Function.update ticks.reserved ev.pid (some ⟨triggerId, fireTime, now⟩) }
      else ticks
  | .commit => ⟨Function.update ticks.reserved ev.pid none,
      ticks.dispatched ++ (ticks.reserved ev.pid).toList⟩
  | .rollback => { ticks with reserved := Function.update ticks.reserved ev.pid none }
  | _ => ticks

def ticksOf (tr : List (ScheduleEvent ι)) : Ticks ι := tr.foldl Ticks.step ⟨fun _ => none, []⟩

/-- The ticks that are dispatched in a run, in the order of their commits. -/
def dispatched (tr : List (ScheduleEvent ι)) : List Dispatch := (ticksOf tr).dispatched

/-- `last_fired_at` of a trigger, as committed. -/
def lastFired (s : ScheduleStore ι) (triggerId : ℕ) : Option Time :=
  (s.committed triggersTable triggerId).bind (·.lastFiredAt)

/-- A commit inserts an execution for a trigger. -/
def InsertsFor (triggerId : ℕ) (ev : ScheduleEvent ι) (n : ℕ) : Prop :=
  ev.before.committed executionsTable n = none
    ∧ ∃ e : Execution, ev.after.committed executionsTable n = some e ∧ e.triggerId = some triggerId

/-- The execution is the one of a tick that is dispatched. -/
def OfTick (input : Payload → Time → Payload) (ticks : List Dispatch) (triggerId : ℕ)
    (ev : ScheduleEvent ι) (n : ℕ) : Prop :=
  ∃ d ∈ ticks, d.triggerId = triggerId ∧ lastFired ev.after triggerId = some d.now
    ∧ ∃ (e : Execution) (config : Payload), ev.after.committed executionsTable n = some e
      ∧ e.input = input config d.fireTime

/-- What a statement does to the times of the last fire and to the executions. -/
structure EventKept (input : Payload → Time → Payload) (ticks : List Dispatch) (ev : ScheduleEvent ι) :
    Prop where
  increasing : ∀ t, lastFired ev.before t = lastFired ev.after t
    ∨ lastFired ev.before t < lastFired ev.after t
  together : ∀ t, lastFired ev.before t ≠ lastFired ev.after t ↔ ∃! n, InsertsFor t ev n
  untouched : ∀ t, lastFired ev.before t = lastFired ev.after t → ∀ n, ¬ InsertsFor t ev n
  ofTick : ∀ t n, InsertsFor t ev n → OfTick input ticks t ev n

/-- **What is promised of the ticks.**  The fire times that are dispatched for a trigger increase, so
none is dispatched twice, and none is later than the clock of its dispatcher.  A commit changes the time
of the last fire of a trigger, to a later one, exactly when it inserts the one execution of the tick. -/
structure ExactlyOnce (input : Payload → Time → Payload) (dispatchers : ι → Dispatcher)
    (tr : List (ScheduleEvent ι)) : Prop where
  once : ∀ t, ((dispatched tr).filter (·.triggerId = t)).Pairwise fun d d' => d.fireTime < d'.fireTime
  punctual : ∀ d ∈ dispatched tr, ∃ i, d.now = (dispatchers i).now ∧ d.fireTime ≤ (dispatchers i).now
  events : ∀ ev ∈ tr, EventKept input (dispatched tr) ev

end Promise

/-! ### What a pass does -/

/-- What a session has done in its transaction: nothing, a reservation, or a reservation and the
execution for it. -/
inductive Ghost where
  | idle
  | reserved (d : Dispatch)
  | queued (d : Dispatch) (n : ℕ)
  deriving DecidableEq, Repr

/-- The tick that the session has reserved. -/
def Ghost.dispatch : Ghost → Option Dispatch
  | idle => none
  | reserved d | queued d _ => some d

/-- A session reserves a tick no later than its clock, inserts an execution for it, and then commits. -/
def tickMonitor (input : Payload → Time → Payload) : Monitor (sql scheduling) Ghost where
  start := .idle
  step g x :=
    match x with
    | ⟨.update (.inr (.reserveLastFired fireTime now)) triggerId, some _⟩ =>
        .reserved ⟨triggerId, fireTime, now⟩
    | ⟨.insert (.inl (.execution _)), n⟩ =>
        match g with
        | .reserved d => .queued d n
        | g => g
    | ⟨.commit, _⟩ | ⟨.rollback, _⟩ => .idle
    | _ => g
  allows g q :=
    match q with
    | .update (.inr (.reserveLastFired fireTime now)) _ => g = .idle ∧ fireTime ≤ now
    | .update (.inl _) _ => False
    | .insert (.inl (.execution data)) => ∃ d config, g = .reserved d
        ∧ data.triggerId = some d.triggerId ∧ data.input = input config d.fireTime
    | .insert _ => False
    | .commit => ∀ d, g ≠ .reserved d
    | _ => True

/-- The part of the monitor that a queueing meets. -/
def queueMonitor (input : Payload → Time → Payload) : Monitor (sql automation) Ghost where
  start := .idle
  step g x :=
    match x with
    | ⟨.insert (.execution _), n⟩ =>
        match g with
        | .reserved d => .queued d n
        | g => g
    | ⟨.commit, _⟩ | ⟨.rollback, _⟩ => .idle
    | _ => g
  allows g q :=
    match q with
    | .update .. => False
    | .insert (.execution data) => ∃ d config, g = .reserved d ∧ data.triggerId = some d.triggerId
        ∧ data.input = input config d.fireTime
    | .insert _ => False
    | .commit => ∀ d, g ≠ .reserved d
    | _ => True

section Obeys

/-- A queueing that fails has rolled back, or it leaves the reservation as it was. -/
def Unqueued (d : Dispatch) (g : Ghost) : Exn → Prop
  | .app _ true => g = .idle
  | .app _ false => g = .reserved d
  | _ => False

/-- How a queueing ends. -/
def Queueing (d : Dispatch) {α : Type} (g : Ghost) : Except Exn α → Prop
  | .ok _ => g = .idle
  | .error e => Unqueued d g e

variable {settings : Settings} {input : Payload → Time → Payload} {d : Dispatch}

/-- The check of the kill switch leaves the reservation as it was. -/
lemma obeys_blockQueueIfPaused {α : Type} {k : Unit → Tx α}
    (hk : (k ()).Obeys (queueMonitor input) (Queueing d) (.reserved d)) :
    (AutomationControlService.blockQueueIfPaused.bind k).Obeys (queueMonitor input) (Queueing d)
      (.reserved d) := by
  simp only [AutomationControlService.blockQueueIfPaused, AutomationControlService.blockIfPaused,
    AutomationControlService.isEnabled, Prog.bind_eq, Prog.pure_eq]
  refine ⟨trivial, fun setting => ?_⟩
  cases hsetting : setting.all (·.enabled) with
  | true =>
      simp only [Prog.ret_bind, hsetting, if_true]
      exact hk
  | false =>
      simp only [Prog.ret_bind, hsetting, Bool.false_eq_true, if_false]
      exact ⟨trivial, fun reason => rfl⟩

/-- **A queueing** inserts the execution of the tick that is reserved, and commits. -/
lemma obeys_queue {data : NewExecution} {config : Payload}
    (htrigger : data.triggerId = some d.triggerId) (hinput : data.input = input config d.fireTime)
    (refused : Bool) :
    (WorkflowExecutionService.queue settings data false refused).Obeys (queueMonitor input) (Queueing d)
      (.reserved d) := by
  simp only [WorkflowExecutionService.queue, Prog.bind_eq, Prog.pure_eq]
  refine obeys_blockQueueIfPaused ⟨trivial, fun workflow => ?_⟩
  simp only [Prog.ret_bind]
  cases Option.filter (fun x => decide (x.organizationId = data.organizationId)) workflow with
  | none => exact rfl
  | some workflow =>
      by_cases hactive : workflow.status = .active
      · simp only [hactive, ne_eq, not_true_eq_false, if_false]
        refine ⟨trivial, fun rows => ?_⟩
        by_cases hcap : settings.executionMaxPendingPerOrg ≤ rows.length
        · simp only [Prog.pure_eq, Prog.ret_bind, Bool.not_false, Bool.true_and, decide_eq_true hcap,
            if_true]
          exact rfl
        · simp only [Prog.pure_eq, Prog.ret_bind, Bool.not_false, Bool.true_and, decide_eq_false hcap,
            Bool.false_eq_true, if_false]
          cases refused with
          | true =>
              simp only [if_true]
              split_ifs
              · exact ⟨trivial, fun _ => rfl⟩
              · exact ⟨trivial, fun _ => rfl⟩
          | false =>
              exact ⟨⟨d, config, rfl, htrigger, hinput⟩, fun n => ⟨nofun, fun _ => rfl⟩⟩
      · simp only [ne_eq, hactive, not_false_eq_true, if_true]
        exact rfl

/-- The same of the queueing on the extended database. -/
lemma obeys_liftQueue (config : Payload) {data : NewExecution}
    (htrigger : data.triggerId = some d.triggerId) (hinput : data.input = input config d.fireTime)
    (refused : Bool) :
    (Tx.lift triggers (WorkflowExecutionService.queue settings data false refused)).Obeys
      (tickMonitor input) (Queueing d) (.reserved d) := by
  refine Prog.Obeys.translate (M := queueMonitor input) (fun g q hallow => ?_) (fun g q a => ?_)
    (obeys_queue htrigger hinput refused)
  · cases q with
    | update => cases hallow
    | insert x =>
        cases x with
        | execution data => exact hallow
        | _ => cases hallow
    | _ => exact hallow
  · cases q with
    | insert x => cases x <;> rfl
    | _ => rfl

/-- A program that begins and ends with nothing done in its transaction. -/
abbrev Idles (input : Payload → Time → Payload) {α : Type} (p : ScheduleTx α) : Prop :=
  Rests (tickMonitor input) (· = .idle) p

/-- **One tick**: a reservation no later than the clock, and the execution for it in the same
transaction. -/
lemma idles_reserveAndQueue {fireTime now : Time} (htime : fireTime ≤ now) (row : ℕ × WorkflowTrigger)
    (createdAt : Time) (refused : Bool) :
    Idles input (reserveAndQueue settings input row fireTime now createdAt refused) := by
  rintro g rfl
  simp only [reserveAndQueue, reserveLastFired, Prog.bind_eq, Prog.pure_eq]
  refine Prog.Obeys.tryCatch (Q := Queueing ⟨row.1, fireTime, now⟩) ⟨⟨rfl, htime⟩, fun answer => ?_⟩
    (fun g a h => h) fun g e h => ?_
  · cases answer with
    | none => exact rfl
    | some r =>
        refine (obeys_liftQueue row.2.config rfl rfl refused).bind (fun g n h => h)
          fun g e h => h
  · cases e with
    | app e rolledBack =>
        cases rolledBack with
        | true => exact h
        | false => exact ⟨trivial, fun _ => rfl⟩
    | missingGreenlet => cases h
    | other name => cases h

/-- What is due is due by the clock. -/
lemma le_of_dueAt {now fireTime : Time} {trigger : WorkflowTrigger}
    (h : dueAt now trigger = .ok (some fireTime)) : fireTime ≤ now := by
  rw [dueAt] at h
  split at h
  · cases h
  · split at h
    · cases h
    · cases h
    · rename_i hfire
      obtain ⟨rfl, -⟩ := Option.filter_eq_some_iff.mp (Except.ok.inj h)
      obtain ⟨-, -, -, -, hle, -⟩ := previousFire_eq_some hfire
      exact hle

lemma idles_dispatchEach (now createdAt : Time) (refused : ℕ → Bool)
    (rows : List (ℕ × WorkflowTrigger)) (stats : Stats) :
    Idles input (dispatchEach settings input now createdAt refused rows stats) := by
  induction rows generalizing stats with
  | nil => exact rests_ret _
  | cons row rows ih =>
      refine Rests.bind ?_ fun outcome => ih _
      unfold dispatchTrigger
      split
      · exact rests_raise _
      · exact rests_ret _
      · rename_i fireTime hdue
        exact idles_reserveAndQueue (le_of_dueAt hdue) row createdAt _

/-- **A pass** obeys the monitor. -/
lemma obeys_program (dispatcher : Dispatcher) :
    Idles input (dispatcher.program settings input) := by
  have hselect : ∀ {α : Type} (t : scheduling.Table) (n : ℕ)
      {k : Option (scheduling.Row t) → ScheduleTx α}, (∀ r, Idles input (k r)) →
      Idles input (.call (.select t n) k) := fun t n k hk =>
    rests_call (fun _ _ => trivial) (fun _ _ h => h) hk
  have hscan : ∀ {α : Type} (q : scheduling.Query)
      {k : List (ℕ × scheduling.Row (scheduling.source q)) → ScheduleTx α},
      (∀ rows, Idles input (k rows)) → Idles input (.call (.scan q) k) := fun q k hk =>
    rests_call (fun _ _ => trivial) (fun _ _ h => h) hk
  refine Rests.bind (Rests.withSession ?_ (fun _ _ => trivial) fun _ _ => rfl) fun _ => rests_ret ()
  simp only [dispatchDue, Prog.bind_eq, Prog.pure_eq]
  refine Rests.bind (hselect _ _ fun _ => rests_ret _) fun enabled => ?_
  split_ifs
  · refine Rests.bind (hscan _ fun rows => hscan _ fun workflows => rests_ret _) fun batch => ?_
    exact idles_dispatchEach _ _ _ _ _
  · exact rests_ret _

end Obeys

/-! ### What a session has written -/

section Sessions

variable {ι : Type} [DecidableEq ι]

/-- The session holds the trigger of the tick, which has not fired since the fire time. -/
def Claims (i : ι) (s : ScheduleStore ι) (d : Dispatch) : Prop :=
  d.fireTime ≤ d.now ∧ ∃ r : WorkflowTrigger, s.committed triggersTable d.triggerId = some r
    ∧ r.lastFiredAt.all (· < d.fireTime) = true
    ∧ s.dirty triggersTable d.triggerId = some (i, { r with lastFiredAt := some d.now })

/-- The session has inserted the execution of the tick. -/
def Inserts (input : Payload → Time → Payload) (i : ι) (s : ScheduleStore ι) (d : Dispatch) (n : ℕ) :
    Prop :=
  s.committed executionsTable n = none ∧ ∃ (e : Execution) (config : Payload),
    s.dirty executionsTable n = some (i, e) ∧ e.triggerId = some d.triggerId
      ∧ e.input = input config d.fireTime

/-- The triggers and executions that the session has written are those of its tick. -/
structure Holds (input : Payload → Time → Payload) (g : Ghost) (i : ι) (s : ScheduleStore ι) :
    Prop where
  claims : ∀ d, g.dispatch = some d → Claims i s d
  inserts : ∀ d n, g = .queued d n → Inserts input i s d n
  trigger : ∀ n r, s.dirty triggersTable n = some (i, r) → ∃ d, g.dispatch = some d ∧ d.triggerId = n
  execution : ∀ n r, s.dirty executionsTable n = some (i, r) → ∃ d, g = .queued d n

variable {input : Payload → Time → Payload} {g : Ghost} {i j : ι} {s s' : ScheduleStore ι}
  {d : Dispatch} {q : Sql scheduling} {n : ℕ}

/-- Other sessions leave it alone. -/
lemma Holds.frame (h : Holds input g i s) (hframe : Frame i s s') : Holds input g i s' where
  claims d hd := by
    obtain ⟨htime, r, hcommitted, hlast, hdirty⟩ := h.claims d hd
    exact ⟨htime, r, (hframe.committed _ _ _ hdirty).trans hcommitted, hlast,
      (hframe.dirty _ _ _).mpr hdirty⟩
  inserts d n hg := by
    obtain ⟨hnone, e, config, hdirty, he⟩ := h.inserts d n hg
    exact ⟨(hframe.committed _ _ _ hdirty).trans hnone, e, config, (hframe.dirty _ _ _).mpr hdirty, he⟩
  trigger n r hdirty := h.trigger n r ((hframe.dirty _ _ _).mp hdirty)
  execution n r hdirty := h.execution n r ((hframe.dirty _ _ _).mp hdirty)

/-- A session that has ended its transaction holds nothing. -/
lemma holds_of_release (hdirty : s'.dirty = s.release i) : Holds input .idle i s' where
  claims d hd := by cases hd
  inserts d n hg := by cases hg
  trigger n r h := by
    rw [hdirty] at h
    exact absurd rfl (Db.release_eq_some.mp h).1
  execution n r h := by
    rw [hdirty] at h
    exact absurd rfl (Db.release_eq_some.mp h).1

/-- A reservation that matches its trigger. -/
lemma Holds.reserve (h : Holds input .idle i s) {fireTime now : Time} (htime : fireTime ≤ now)
    {r' : WorkflowTrigger}
    (hwritten : s.written i (.inr (.reserveLastFired fireTime now)) n = some r') :
    Holds input (.reserved ⟨n, fireTime, now⟩) i (s.write i triggersTable n r') := by
  obtain ⟨-, r, hview, hguard, rfl⟩ := Db.written_eq_some.mp hwritten
  have hcommitted : s.committed triggersTable n = some r := by
    rw [← hview]
    refine (Db.view_of_not_own fun r hr => ?_).symm
    obtain ⟨d, hd, -⟩ := h.trigger n r hr
    cases hd
  refine ⟨fun d hd => ?_, fun d m hg => (by cases hg), fun m r' hdirty => ?_, fun m r' hdirty => ?_⟩
  · obtain rfl := Option.some.inj hd
    refine ⟨htime, r, hcommitted, hguard, ?_⟩
    rw [Db.dirty_write, put_self]
    rfl
  · by_cases hm : m = n
    · exact ⟨_, rfl, hm.symm⟩
    · rw [Db.dirty_write, put_of_ne_id _ _ _ hm] at hdirty
      obtain ⟨d, hd, -⟩ := h.trigger m r' hdirty
      cases hd
  · rw [Db.dirty_write, put_of_ne_table _ _ _ _ (by decide)] at hdirty
    obtain ⟨d, hd⟩ := h.execution m r' hdirty
    cases hd

omit [DecidableEq ι] in
/-- The execution of the tick that is reserved. -/
lemma Holds.insert (h : Holds input (.reserved d) i s) {e : scheduling.Row executionsTable}
    {config : Payload} (htrigger : Execution.triggerId e = some d.triggerId)
    (hinput : Execution.input e = input config d.fireTime) :
    Holds input (.queued d s.fresh) i (s.write i executionsTable s.fresh e) := by
  have hwritten : (s.write i executionsTable s.fresh e).dirty
      = put s.dirty executionsTable s.fresh (some (i, e)) := rfl
  have hother : ∀ m, (s.write i executionsTable s.fresh e).dirty triggersTable m
      = s.dirty triggersTable m := fun m => by
    rw [hwritten, put_of_ne_table _ _ _ _ (by decide)]
  refine ⟨fun d' hd => ?_, fun d' m hg => ?_, fun m r hdirty => ?_, fun m r hdirty => ?_⟩
  · obtain ⟨htime, r, hcommitted, hlast, hdirty⟩ := h.claims d' hd
    exact ⟨htime, r, hcommitted, hlast, (hother _).trans hdirty⟩
  · obtain ⟨rfl, rfl⟩ := Ghost.queued.inj hg
    refine ⟨(s.alloc _ _ le_rfl).1, e, config, ?_, htrigger, hinput⟩
    rw [hwritten, put_self]
    rfl
  · exact h.trigger m r ((hother m).symm.trans hdirty)
  · by_cases hm : m = s.fresh
    · exact ⟨d, hm ▸ rfl⟩
    · rw [hwritten, put_of_ne_id _ _ _ hm] at hdirty
      obtain ⟨d', hd'⟩ := h.execution m r hdirty
      cases hd'

/-- **Every statement that is allowed** leaves the session with what the monitor says. -/
lemma Holds.effect (h : Holds input g i s) (hallow : (tickMonitor input).allows g q) :
    Holds input ((tickMonitor input).step g ⟨q, Db.answer i q s⟩) i (Db.effect i q s) := by
  cases q with
  | select t n => exact h
  | scan q => exact h
  | now => exact ⟨h.claims, h.inserts, h.trigger, h.execution⟩
  | commit => exact holds_of_release rfl
  | rollback => exact holds_of_release rfl
  | update u n =>
      cases u with
      | inl u => cases hallow
      | inr u =>
          obtain ⟨fireTime, now⟩ := u
          obtain ⟨rfl, htime⟩ := hallow
          cases hwritten : s.written i (.inr (.reserveLastFired fireTime now)) n with
          | none =>
              rw [Db.effect_update_of_none hwritten, Db.answer, hwritten]
              exact h
          | some r =>
              rw [Db.effect_update hwritten, Db.answer, hwritten]
              exact h.reserve htime hwritten
  | insert x =>
      cases x with
      | inr x => cases x
      | inl x =>
          cases x with
          | execution data =>
              obtain ⟨d, config, rfl, htrigger, hinput⟩ := hallow
              exact h.insert htrigger hinput
          | _ => cases hallow

/-! ### What a commit does -/

/-- A clock no earlier than a fire time after the last fire is later than the last fire. -/
lemma lt_of_all_lt {last : Option Time} {fireTime now : Time} (hlast : last.all (· < fireTime) = true)
    (htime : fireTime ≤ now) : last < some now := by
  cases last with
  | none => exact Option.none_lt_some
  | some last => exact Option.some_lt_some.mpr ((of_decide_eq_true hlast).trans_le htime)

/-- The commit of a tick writes the time of the last fire of its trigger, and no other. -/
lemma Holds.lastFired_commit (h : Holds input g i s) (t : ℕ) :
    (∃ d, g.dispatch = some d ∧ d.triggerId = t ∧ lastFired (s.commit i) t = some d.now
        ∧ (lastFired s t).all (· < d.fireTime) = true ∧ d.fireTime ≤ d.now)
      ∨ (∀ d, g.dispatch = some d → d.triggerId ≠ t) ∧ lastFired (s.commit i) t = lastFired s t := by
  by_cases hd : ∃ d, g.dispatch = some d ∧ d.triggerId = t
  · obtain ⟨d, hd, rfl⟩ := hd
    obtain ⟨htime, r, hcommitted, hlast, hdirty⟩ := h.claims d hd
    refine .inl ⟨d, hd, rfl, ?_, ?_, htime⟩
    · rw [lastFired, Db.committed_commit, Db.view_of_own hdirty]
      rfl
    · rw [lastFired, hcommitted]
      exact hlast
  · refine .inr ⟨fun d hg ht => hd ⟨d, hg, ht⟩, ?_⟩
    rw [lastFired, lastFired, Db.committed_commit, Db.view_of_not_own fun r hr => hd (h.trigger t r hr)]

/-- It inserts the execution of the tick, and no other. -/
lemma Holds.insertsFor_commit (h : Holds input g i s) (t n : ℕ) :
    InsertsFor t ⟨i, .commit, s, s.commit i⟩ n ↔ ∃ d, g = .queued d n ∧ d.triggerId = t := by
  constructor
  · rintro ⟨hnone, e, he, htrigger⟩
    rcases s.view_cases i executionsTable n with ⟨r, hdirty, hview⟩ | ⟨-, hview⟩
    · obtain ⟨d, rfl⟩ := h.execution n r hdirty
      obtain ⟨-, e', config, hdirty', htrigger', -⟩ := h.inserts d n rfl
      have hsame : some e = some e' := he.symm.trans (Db.view_of_own hdirty')
      obtain rfl := Option.some.inj hsame
      exact ⟨d, rfl, Option.some.inj (htrigger'.symm.trans htrigger)⟩
    · exact absurd (hnone.symm.trans (hview.symm.trans he)) nofun
  · rintro ⟨d, rfl, rfl⟩
    obtain ⟨hnone, e, config, hdirty, htrigger, -⟩ := h.inserts d n rfl
    exact ⟨hnone, e, Db.view_of_own hdirty, htrigger⟩

/-- **A commit keeps the promise** for the tick of its session. -/
lemma Holds.eventKept_commit (h : Holds input g i s) (hallow : ∀ d, g ≠ .reserved d)
    {ticks : List Dispatch} (hticks : ∀ d, g.dispatch = some d → d ∈ ticks) :
    EventKept input ticks ⟨i, .commit, s, s.commit i⟩ := by
  -- the session has inserted an execution if it has reserved a tick
  have hqueued : ∀ d, g.dispatch = some d → ∃ n, g = .queued d n := by
    intro d hd
    cases g with
    | idle => cases hd
    | reserved d' => exact absurd rfl (hallow d')
    | queued d' n =>
        obtain rfl := Option.some.inj hd
        exact ⟨n, rfl⟩
  have hchanged : ∀ t, lastFired s t ≠ lastFired (s.commit i) t
      ↔ ∃ d, g.dispatch = some d ∧ d.triggerId = t := by
    intro t
    rcases h.lastFired_commit t with ⟨d, hd, ht, hafter, hlast, htime⟩ | ⟨hother, hsame⟩
    · refine iff_of_true (fun heq => ?_) ⟨d, hd, ht⟩
      have hlt := lt_of_all_lt hlast htime
      rw [heq, hafter, Option.some_lt_some] at hlt
      exact lt_irrefl _ hlt
    · exact iff_of_false (fun hne => hne hsame.symm) fun ⟨d, hd, ht⟩ => hother d hd ht
  refine ⟨fun t => ?_, fun t => ?_, fun t hsame n hn => ?_, fun t n hn => ?_⟩
  · rcases h.lastFired_commit t with ⟨d, -, -, hafter, hlast, htime⟩ | ⟨-, hsame⟩
    · refine .inr ?_
      rw [hafter]
      exact lt_of_all_lt hlast htime
    · exact .inl hsame.symm
  · rw [hchanged]
    constructor
    · rintro ⟨d, hd, rfl⟩
      obtain ⟨n, rfl⟩ := hqueued d hd
      refine ⟨n, (h.insertsFor_commit _ n).mpr ⟨d, rfl, rfl⟩, fun m hm => ?_⟩
      obtain ⟨d', hd', -⟩ := (h.insertsFor_commit _ m).mp hm
      exact (Ghost.queued.inj hd').2.symm
    · rintro ⟨n, hn, -⟩
      obtain ⟨d, rfl, ht⟩ := (h.insertsFor_commit t n).mp hn
      exact ⟨d, rfl, ht⟩
  · obtain ⟨d, rfl, ht⟩ := (h.insertsFor_commit t n).mp hn
    exact (hchanged t).mpr ⟨d, rfl, ht⟩ hsame
  · obtain ⟨d, rfl, ht⟩ := (h.insertsFor_commit t n).mp hn
    obtain ⟨-, e, config, hdirty, -, hinput⟩ := h.inserts d n rfl
    refine ⟨d, hticks d rfl, ht, ?_, e, config, Db.view_of_own hdirty, hinput⟩
    rcases h.lastFired_commit t with ⟨d', hd', -, hafter, -, -⟩ | ⟨hother, -⟩
    · obtain rfl := Option.some.inj hd'
      exact hafter
    · exact absurd ht (hother d rfl)

omit [DecidableEq ι] in
/-- What commits nothing changes nothing. -/
lemma eventKept_of_committed {ticks : List Dispatch} {ev : ScheduleEvent ι}
    (hsame : ev.after.committed = ev.before.committed) : EventKept input ticks ev := by
  have hlast : ∀ t, lastFired ev.before t = lastFired ev.after t := fun t => by
    rw [lastFired, lastFired, hsame]
  have hnone : ∀ t n, ¬ InsertsFor t ev n := by
    rintro t n ⟨hbefore, e, hafter, -⟩
    rw [hsame, hbefore] at hafter
    cases hafter
  exact ⟨fun t => .inl (hlast t), fun t => iff_of_false (fun hne => hne (hlast t))
    fun ⟨n, hn, _⟩ => hnone t n hn, fun t _ n hn => hnone t n hn, fun t n hn => absurd hn (hnone t n)⟩

omit [DecidableEq ι] in
/-- Later ticks take nothing back. -/
lemma EventKept.mono {ticks ticks' : List Dispatch} {ev : ScheduleEvent ι}
    (h : EventKept input ticks ev) (hticks : ticks ⊆ ticks') : EventKept input ticks' ev where
  increasing := h.increasing
  together := h.together
  untouched := h.untouched
  ofTick t n hn := by
    obtain ⟨d, hd, hrest⟩ := h.ofTick t n hn
    exact ⟨d, hticks hd, hrest⟩

/-! ### Runs -/

lemma ticksOf_snoc (tr : List (ScheduleEvent ι)) (ev : ScheduleEvent ι) :
    ticksOf (tr ++ [ev]) = (ticksOf tr).step ev := by
  rw [ticksOf, List.foldl_concat]
  rfl

/-- The ticks so far, what the sessions have written, and the promise for what has happened. -/
structure Kept (input : Payload → Time → Payload) (g : ι → Ghost) (tr : List (ScheduleEvent ι))
    (s : ScheduleStore ι) : Prop where
  holds : ∀ i, Holds input (g i) i s
  reserved : ∀ i, (ticksOf tr).reserved i = (g i).dispatch
  fired : ∀ d ∈ dispatched tr, ∃ last, lastFired s d.triggerId = some last ∧ d.now ≤ last
  punctual : ∀ d ∈ dispatched tr, d.fireTime ≤ d.now
  once : ∀ t, ((dispatched tr).filter (·.triggerId = t)).Pairwise fun d d' => d.fireTime < d'.fireTime
  events : ∀ ev ∈ tr, EventKept input (dispatched tr) ev

variable {tr : List (ScheduleEvent ι)}

/-- A commit adds the tick of its session. -/
lemma Ticks.dispatched_step (ticks : Ticks ι) (ev : ScheduleEvent ι) :
    (ticks.step ev).dispatched
      = ticks.dispatched ++ (if ev.stmt = .commit then (ticks.reserved ev.pid).toList else []) := by
  obtain ⟨i, q, s, s'⟩ := ev
  rw [Ticks.step]
  cases q with
  | commit => rfl
  | update u n =>
      cases u with
      | inl u => exact (List.append_nil _).symm
      | inr u =>
          rw [if_neg nofun]
          dsimp only
          split_ifs <;> exact (List.append_nil _).symm
  | _ => exact (List.append_nil _).symm

/-- The monitor of the session that moves says which tick it has reserved then. -/
lemma Ticks.reserved_step {ticks : Ticks ι} (hticks : ticks.reserved i = g.dispatch)
    (hallow : (tickMonitor input).allows g q) (j : ι) :
    (ticks.step ⟨i, q, s, s'⟩).reserved j
      = if j = i then ((tickMonitor input).step g ⟨q, Db.answer i q s⟩).dispatch
        else ticks.reserved j := by
  have hupdate : ∀ d, Function.update ticks.reserved i d j = if j = i then d else ticks.reserved j :=
    fun d => Function.update_apply ..
  have hsame : ticks.reserved j = if j = i then g.dispatch else ticks.reserved j := by
    split_ifs with hj
    · rw [hj, hticks]
    · rfl
  rw [Ticks.step]
  cases q with
  | commit => exact hupdate none
  | rollback => exact hupdate none
  | update u n =>
      cases u with
      | inl u => cases hallow
      | inr u =>
          obtain ⟨fireTime, now⟩ := u
          dsimp only
          rw [Db.answer]
          cases s.written i (.inr (.reserveLastFired fireTime now)) n with
          | none => exact hsame
          | some r => exact hupdate _
  | insert x =>
      cases x with
      | inr x => cases x
      | inl x =>
          cases x with
          | execution data =>
              obtain ⟨d, config, rfl, -⟩ := hallow
              exact hsame
          | _ => cases hallow
  | _ => exact hsame

/-- Sessions hold what they have done after every statement. -/
lemma Kept.sessions {g : ι → Ghost} (h : Kept input g tr s)
    (hallow : (tickMonitor input).allows (g i) q) :
    (∀ j, Holds input (Function.update g i ((tickMonitor input).step (g i) ⟨q, Db.answer i q s⟩) j) j
        (Db.effect i q s))
      ∧ ∀ j, (ticksOf (tr ++ [⟨i, q, s, Db.effect i q s⟩])).reserved j
        = (Function.update g i ((tickMonitor input).step (g i) ⟨q, Db.answer i q s⟩) j).dispatch := by
  refine ⟨fun j => ?_, fun j => ?_⟩
  · by_cases hj : j = i
    · subst hj
      rw [Function.update_self]
      exact (h.holds j).effect hallow
    · rw [Function.update_of_ne hj]
      exact (h.holds j).frame (frame_effect (fun hij => hj hij.symm) q s)
  · rw [ticksOf_snoc, Ticks.reserved_step (h.reserved i) hallow]
    split_ifs with hj
    · rw [hj, Function.update_self]
    · rw [Function.update_of_ne hj]
      exact h.reserved j

/-- A statement that is no commit keeps the promise. -/
lemma Kept.other {g : ι → Ghost} (h : Kept input g tr s) (hallow : (tickMonitor input).allows (g i) q)
    (hq : q ≠ .commit) :
    Kept input (Function.update g i ((tickMonitor input).step (g i) ⟨q, Db.answer i q s⟩))
      (tr ++ [⟨i, q, s, Db.effect i q s⟩]) (Db.effect i q s) := by
  have hcommitted : (Db.effect i q s).committed = s.committed := Db.committed_effect hq
  have hdispatched : dispatched (tr ++ [⟨i, q, s, Db.effect i q s⟩]) = dispatched tr := by
    rw [dispatched, ticksOf_snoc, Ticks.dispatched_step, if_neg hq, List.append_nil]
    rfl
  obtain ⟨hholds, hreserved⟩ := h.sessions hallow
  refine ⟨hholds, hreserved, fun d hd => ?_, fun d hd => ?_, fun t => ?_, fun ev hev => ?_⟩
  · rw [hdispatched] at hd
    rw [lastFired, hcommitted]
    exact h.fired d hd
  · rw [hdispatched] at hd
    exact h.punctual d hd
  · rw [hdispatched]
    exact h.once t
  · rw [hdispatched]
    rcases List.mem_append.mp hev with hev | hev
    · exact h.events ev hev
    · rw [List.mem_singleton.mp hev]
      exact eventKept_of_committed hcommitted

/-- **A commit keeps the promise**: its fire time is later than those dispatched for the trigger. -/
lemma Kept.commit {g : ι → Ghost} (h : Kept input g tr s) (hallow : ∀ d, g i ≠ .reserved d) :
    Kept input (Function.update g i ((tickMonitor input).step (g i) ⟨.commit, ()⟩))
      (tr ++ [⟨i, .commit, s, s.commit i⟩]) (s.commit i) := by
  have hdispatched : dispatched (tr ++ [⟨i, .commit, s, s.commit i⟩])
      = dispatched tr ++ (g i).dispatch.toList := by
    rw [dispatched, ticksOf_snoc, Ticks.dispatched_step, if_pos rfl, h.reserved i]
    rfl
  obtain ⟨hholds, hreserved⟩ := @Kept.sessions ι _ input i s (.commit) tr g h hallow
  -- the ticks of the trigger so far are earlier than the one that is committed
  have hlater : ∀ d ∈ dispatched tr, ∀ d', (g i).dispatch = some d' → d.triggerId = d'.triggerId →
      d.now < d'.fireTime := by
    intro d hd d' hd' htrigger
    obtain ⟨last, hlast, hle⟩ := h.fired d hd
    obtain ⟨-, r, hcommitted, hall, -⟩ := (h.holds i).claims d' hd'
    rw [lastFired, htrigger, hcommitted] at hlast
    have hr : r.lastFiredAt = some last := hlast
    rw [hr] at hall
    exact hle.trans_lt (of_decide_eq_true hall)
  have hmem : ∀ d, d ∈ dispatched tr ++ (g i).dispatch.toList
      ↔ d ∈ dispatched tr ∨ (g i).dispatch = some d := fun d => by
    rw [List.mem_append, Option.mem_toList]
  refine ⟨hholds, hreserved, fun d hd => ?_, fun d hd => ?_, fun t => ?_, fun ev hev => ?_⟩
  · rw [hdispatched, hmem] at hd
    rcases (h.holds i).lastFired_commit d.triggerId with
      ⟨d', hd', htrigger, hafter, hlast, htime⟩ | ⟨hother, hsame⟩
    · refine ⟨d'.now, hafter, ?_⟩
      rcases hd with hd | hd
      · exact (hlater d hd d' hd' htrigger.symm).le.trans htime
      · rw [Option.some.inj (hd.symm.trans hd')]
    · rcases hd with hd | hd
      · rw [hsame]
        exact h.fired d hd
      · exact absurd rfl (hother d hd)
  · rw [hdispatched, hmem] at hd
    rcases hd with hd | hd
    · exact h.punctual d hd
    · exact ((h.holds i).claims d hd).1
  · rw [hdispatched, List.filter_append, List.pairwise_append]
    refine ⟨h.once t, ?_, fun d hd d' hd' => ?_⟩
    · refine List.Pairwise.filter _ ?_
      cases (g i).dispatch with
      | none => exact List.Pairwise.nil
      | some d => exact List.pairwise_singleton _ d
    · obtain ⟨hd, ht⟩ := List.mem_filter.mp hd
      obtain ⟨hd', ht'⟩ := List.mem_filter.mp hd'
      rw [Option.mem_toList] at hd'
      have htrigger : d.triggerId = d'.triggerId :=
        (of_decide_eq_true ht).trans (of_decide_eq_true ht').symm
      exact (h.punctual d hd).trans_lt (hlater d hd d' hd' htrigger)
  · rw [hdispatched]
    rcases List.mem_append.mp hev with hev | hev
    · exact (h.events ev hev).mono (List.subset_append_left _ _)
    · rw [List.mem_singleton.mp hev]
      exact (h.holds i).eventKept_commit hallow fun d hd => (hmem d).mpr (.inr hd)

/-- A tick that is reserved was so before, or the statement reserves it. -/
lemma Ticks.reserved_step_cases {ticks : Ticks ι} {ev : ScheduleEvent ι} {d : Dispatch}
    (h : (ticks.step ev).reserved j = some d) : ticks.reserved j = some d
      ∨ ev.stmt = .update (.inr (.reserveLastFired d.fireTime d.now)) d.triggerId := by
  have hnone : Function.update ticks.reserved ev.pid none j = some d → ticks.reserved j = some d := by
    intro h
    rw [Function.update_apply] at h
    split_ifs at h
    exact h
  obtain ⟨i, q, s, s'⟩ := ev
  rw [Ticks.step] at h
  cases q with
  | commit => exact .inl (hnone h)
  | rollback => exact .inl (hnone h)
  | update u n =>
      cases u with
      | inl u => exact .inl h
      | inr u =>
          obtain ⟨fireTime, now⟩ := u
          dsimp only at h
          split_ifs at h
          · change Function.update ticks.reserved i (some ⟨n, fireTime, now⟩) j = some d at h
            rw [Function.update_apply] at h
            split_ifs at h
            · obtain rfl := Option.some.inj h
              exact .inr rfl
            · exact .inl h
          · exact .inl h
  | _ => exact .inl h

/-- A tick was reserved by an `UPDATE` with its times. -/
lemma exists_reservation (tr : List (ScheduleEvent ι)) :
    (∀ i d, (ticksOf tr).reserved i = some d → ∃ ev ∈ tr,
        ev.stmt = .update (.inr (.reserveLastFired d.fireTime d.now)) d.triggerId)
      ∧ ∀ d ∈ dispatched tr, ∃ ev ∈ tr,
        ev.stmt = .update (.inr (.reserveLastFired d.fireTime d.now)) d.triggerId := by
  induction tr using List.reverseRecOn with
  | nil => exact ⟨fun i d hd => (by cases hd), fun d hd => (by cases hd)⟩
  | append_singleton tr ev ih =>
      have hbefore : ∀ {d : Dispatch}, (∃ ev ∈ tr,
          ev.stmt = .update (.inr (.reserveLastFired d.fireTime d.now)) d.triggerId) →
          ∃ ev' ∈ tr ++ [ev],
            ev'.stmt = .update (.inr (.reserveLastFired d.fireTime d.now)) d.triggerId :=
        fun ⟨ev, hev, hstmt⟩ => ⟨ev, List.mem_append_left _ hev, hstmt⟩
      refine ⟨fun i d hd => ?_, fun d hd => ?_⟩
      · rw [ticksOf_snoc] at hd
        rcases Ticks.reserved_step_cases hd with hd | hd
        · exact hbefore (ih.1 i d hd)
        · exact ⟨ev, List.mem_append_right _ (List.mem_singleton_self ev), hd⟩
      · rw [dispatched, ticksOf_snoc, Ticks.dispatched_step, List.mem_append] at hd
        rcases hd with hd | hd
        · exact hbefore (ih.2 d hd)
        · split_ifs at hd
          · exact hbefore (ih.1 _ d (Option.mem_toList.mp hd))
          · cases hd

/-- The clock that a reservation writes is that of its dispatcher. -/
def OwnClock (dispatcher : Dispatcher) : Sql scheduling → Prop
  | .update (.inr (.reserveLastFired _ now)) _ => now = dispatcher.now
  | _ => True

lemma issues_ownClock (settings : Settings) (dispatcher : Dispatcher) :
    (dispatcher.program settings input).Issues (OwnClock dispatcher) := by
  have hlift : ∀ {α : Type} (p : Tx α), (Tx.lift triggers p).Issues (OwnClock dispatcher) := fun p =>
    Prog.issues_translate (Prog.issues_mono (Prog.issues_true p) fun q _ => by cases q <;> trivial)
  have hselect : (listEnabledSchedules dispatcher.answer dispatcher.limit).Issues
      (OwnClock dispatcher) := ⟨trivial, fun _ => ⟨trivial, fun _ => trivial⟩⟩
  have hreserve : ∀ row fireTime refused, (reserveAndQueue settings input row fireTime dispatcher.now
      dispatcher.createdAt refused).Issues (OwnClock dispatcher) := by
    intro row fireTime refused
    simp only [reserveAndQueue, reserveLastFired, Prog.bind_eq, Prog.pure_eq]
    refine Prog.issues_tryCatch ⟨rfl, fun answer => ?_⟩ fun e => ?_
    · cases answer with
      | none => trivial
      | some r =>
          have hqueue : (Prog.bind (Tx.lift triggers (WorkflowExecutionService.queue settings
              (tickExecution input row fireTime dispatcher.createdAt) false refused)) fun _ =>
                .ret .queued : ScheduleTx Outcome).Issues (OwnClock dispatcher) :=
            Prog.issues_bind (hlift _) fun _ => trivial
          exact hqueue
    · split
      · exact ⟨trivial, fun _ => trivial⟩
      · trivial
      · trivial
  have heach : ∀ rows stats, (dispatchEach settings input dispatcher.now dispatcher.createdAt
      dispatcher.refused rows stats).Issues (OwnClock dispatcher) := by
    intro rows
    induction rows with
    | nil => exact fun _ => trivial
    | cons row rows ih =>
        refine fun stats => Prog.issues_bind ?_ fun outcome => ih _
        unfold dispatchTrigger
        split
        · trivial
        · trivial
        · exact hreserve _ _ _
  refine Prog.issues_bind (Txn.Tx.issues_withSession
    (Prog.issues_bind (hlift _) fun enabled => ?_) trivial) fun _ => trivial
  split_ifs
  · exact Prog.issues_bind hselect fun _ => heach _ _
  · trivial

/-- At the start nothing is reserved. -/
lemma kept_start (hs : s.Settled) : Kept input (fun _ : ι => .idle) [] s where
  holds i :=
    { claims := fun d hd => by cases hd
      inserts := fun d n hg => by cases hg
      trigger := fun n r hd => absurd ((hs _ _).symm.trans hd) (Option.some_ne_none _).symm
      execution := fun n r hd => absurd ((hs _ _).symm.trans hd) (Option.some_ne_none _).symm }
  reserved i := rfl
  fired d hd := absurd hd List.not_mem_nil
  punctual d hd := absurd hd List.not_mem_nil
  once t := List.Pairwise.nil
  events ev hev := absurd hev List.not_mem_nil

/-- **Every tick is dispatched at most once**, by the commit that inserts its execution, whatever the
clocks of the dispatchers. -/
theorem ticks_exactlyOnce (settings : Settings) (input : Payload → Time → Payload)
    (dispatchers : ι → Dispatcher) {s : ScheduleStore ι}
    {c : Pool (sql scheduling) ι (ScheduleStore ι) Exn Unit} (hs : s.Settled)
    (h : Pool.Reach (scheduleServer ι) (.start (fun i => (dispatchers i).program settings input) s) c) :
    ExactlyOnce input dispatchers c.trace := by
  have hkept : Kept input (fun i => (tickMonitor input).of (scheduleServer ι) i c.trace) c.trace
      c.store := by
    refine h.traced (Q := fun _ g _ => g = .idle) (fun i => obeys_program (dispatchers i) _ rfl)
      (fun _ => trivial) (kept_start hs) fun g tr i q s hkept hallow _ => ?_
    by_cases hq : q = .commit
    · subst hq
      exact hkept.commit hallow
    · exact hkept.other hallow hq
  have hclock := Pool.Reach.issues (fun i => OwnClock (dispatchers i)) (fun _ => True)
    (fun _ _ _ _ _ _ => trivial) (fun _ => trivial)
    (fun i => issues_ownClock settings (dispatchers i)) trivial h
  refine ⟨hkept.once, fun d hd => ?_, hkept.events⟩
  obtain ⟨ev, hev, hstmt⟩ := (exists_reservation c.trace).2 d hd
  have hown := (hclock.2 ev hev).1
  rw [hstmt] at hown
  exact ⟨ev.pid, hown, hown ▸ hkept.punctual d hd⟩

end Sessions

/-! ### Two dispatchers -/

/-- The database gives the rows of one rank by their ids. -/
def byId : Answer where
  order := Python.sortedBy fun row => row.2.rank
  ordered rows := ⟨Python.sortedBy_perm _ rows, Python.sortedBy_pairwise _ rows⟩

/-- A trigger of the workflow under id 1, due every minute. -/
def everyMinute : WorkflowTrigger where
  organizationId := 1
  workflowId := 1
  triggerType := .schedule
  scheduleCron := some "* * * * *"
  config := ""
  enabled := true
  lastFiredAt := none
  createdAt := 0

/-- The database with an active workflow and the trigger. -/
def oneTrigger {ι : Type} : ScheduleStore ι :=
  Db.init (S := scheduling) (fun t n => match t, n with
    | .inl .workflow, 1 => some smallWorkflow
    | .inr .workflowTriggers, 0 => some everyMinute
    | _, _ => none) 2 (.still 0) fun t n hn => by
      match n with
      | 0 => omega
      | 1 => omega
      | n + 2 =>
          cases t with
          | inl t => cases t <;> rfl
          | inr t => cases t; rfl

/-- A dispatcher, and one whose clock is two minutes slow. -/
def twoClocks (i : Fin 2) : Dispatcher where
  answer := byId
  limit := 10
  now := if i.val = 0 then 5 * minuteLength + 7 * second else 3 * minuteLength
  createdAt := 0
  refused := fun _ => false

/-- Both select the trigger before one of them reserves its tick. -/
theorem ticks_exactlyOnce_twoClocks : ∃ c, Pool.Reach (scheduleServer (Fin 2))
      (.start (fun i => (twoClocks i).program smallSettings fun config _ => config) oneTrigger) c
    ∧ dispatched c.trace = [⟨0, 5 * minuteLength, 5 * minuteLength + 7 * second⟩]
    ∧ ExactlyOnce (fun config _ => config) twoClocks c.trace := by
  have hrun : ((Pool.start (fun i => (twoClocks i).program smallSettings fun config _ => config)
      oneTrigger).run (scheduleServer (Fin 2))
        (List.replicate 3 (.step 1) ++ List.replicate 9 (.step 0) ++ List.replicate 2 (.step 1))).any
          (fun c => decide (dispatched c.trace
            = [⟨0, 5 * minuteLength, 5 * minuteLength + 7 * second⟩])) = true := by
    decide +kernel
  obtain ⟨c, hc, hdispatched⟩ := Pool.exists_of_run hrun
  exact ⟨c, hc, of_decide_eq_true hdispatched,
    ticks_exactlyOnce _ _ _ (Db.settled_init _ _ _ _) hc⟩

end Automation.ScheduleDispatcher
