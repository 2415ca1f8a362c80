import AgencyOS.Automation.ScheduleTicks
import AgencyOS.Txn.Solo

/-!
A pass of the dispatcher of schedule triggers, with nobody else on the database.

What becomes of a trigger can be read off the database before the pass comes to it.  A trigger that is
not due, or whose queueing is refused, is passed over and leaves everything as it was; so the first trigger
of the batch that is not passed over still meets the database of before.

* `Fate`, `reception`, `fate`: what becomes of a queueing, and of a trigger;
* `served`, `passedOver`: the first trigger of a batch that is not passed over, and those before it;
* `ends_queue`, `ends_dispatchTrigger`: every fate is what the programs make of the trigger;
* `Dispatched`, `ends_dispatchEach`: the loop over a batch, by induction on the batch;
* `ends_dispatchDue`, `ends_program`: **a pass dispatches the trigger that is served**, and none that it
  passes over.
-/

namespace Automation.ScheduleDispatcher

open Txn ScheduleCron

/-! ### The fate of a trigger -/

/-- A trigger is passed over, dispatched, or the pass ends with an exception at it. -/
inductive Fate where
  | passedOver | dispatched | aborted
  deriving DecidableEq, Repr

section Fate

variable {ι : Type} [DecidableEq ι] (settings : Settings) (input : Payload → Time → Payload)

/-- The kill switch, as a session sees it. -/
def switchOpen (s : ScheduleStore ι) (i : ι) : Bool :=
  Option.all SystemSetting.enabled (s.view i (.inl .systemSetting) keyEnabled)

/-- The pending executions of an organization, as a session counts them. -/
def pendingIn (s : ScheduleStore ι) (i : ι) (organizationId : ℕ) : ℕ :=
  (s.rows i (.inl (.countPending organizationId))).length

/-- What becomes of a queueing. -/
def reception (data : NewExecution) (refused : Bool) (s : ScheduleStore ι) (i : ι) : Fate :=
  if switchOpen s i then
    match Option.filter (fun w : Workflow => w.organizationId = data.organizationId)
        (s.view i (.inl .workflow) data.workflowId) with
    | none => .passedOver
    | some workflow =>
        if workflow.status ≠ .active then .passedOver
        else if settings.executionMaxPendingPerOrg ≤ pendingIn s i data.organizationId then .passedOver
        else if refused then .aborted
        else .dispatched
  else .passedOver

/-- What becomes of a trigger. -/
def fate (d : Dispatcher) (s : ScheduleStore ι) (i : ι) (row : ℕ × WorkflowTrigger) : Fate :=
  match dueAt d.now row.2 with
  | .error _ => .aborted
  | .ok none => .passedOver
  | .ok (some fireTime) =>
      reception settings (tickExecution input row fireTime d.createdAt) (d.refused row.1) s i

/-- The first trigger that is not passed over, if it is dispatched. -/
def served (d : Dispatcher) (s : ScheduleStore ι) (i : ι) :
    List (ℕ × WorkflowTrigger) → Option (ℕ × WorkflowTrigger)
  | [] => none
  | row :: rows =>
      match fate settings input d s i row with
      | .passedOver => served d s i rows
      | .dispatched => some row
      | .aborted => none

/-- The triggers before the first one that is not passed over. -/
def passedOver (d : Dispatcher) (s : ScheduleStore ι) (i : ι) (rows : List (ℕ × WorkflowTrigger)) :
    List (ℕ × WorkflowTrigger) :=
  rows.takeWhile fun row => fate settings input d s i row = .passedOver

/-- The enabled triggers of active workflows. -/
def selection (s : ScheduleStore ι) (i : ι) : List (ℕ × WorkflowTrigger) :=
  List.filter (fun row : ℕ × WorkflowTrigger =>
    ((s.rows i (.inr .activeWorkflows)).map (·.1)).contains row.2.workflowId)
    (s.rows i (.inr .enabledSchedules))

/-- The batch of a pass. -/
def batch (d : Dispatcher) (s : ScheduleStore ι) (i : ι) : List (ℕ × WorkflowTrigger) :=
  (d.answer.order (selection s i)).take d.limit

end Fate

/-! ### What a pass does -/

section Passes

variable {ι : Type} [DecidableEq ι] {settings : Settings} {input : Payload → Time → Payload}
  {d : Dispatcher} {i : ι} {s s' : ScheduleStore ι} {v v' c : Rowset scheduling}

/-- Where a queueing ends that starts at `s`, where the session sees `v` and `c` is committed. -/
def Received (data : NewExecution) (i : ι) (s : ScheduleStore ι) (v c : Rowset scheduling)
    (x : Except Exn ℕ) (s' : ScheduleStore ι) : Fate → Prop
  | .passedOver => (∃ e, x = .error (.app e false)) ∧ Seen i s' v c ∧ s'.fresh = s.fresh
  | .aborted => (∃ e, x = .error (.app e true)) ∧ Seen i s' c c
  | .dispatched => (∃ n, x = .ok n)
      ∧ Seen i s' (put v executionsTable s.fresh (some data.row))
        (put v executionsTable s.fresh (some data.row))

lemma ends_lift_select (t : Table) (n : ℕ) {α : Type} (k : Option (automation.Row t) → Tx α)
    (Q : Except Exn α → ScheduleStore ι → Prop) :
    Ends i (Tx.lift triggers (.call (.select t n) k)) s Q
      ↔ Ends i (Tx.lift triggers (k (s.view i (.inl t) n))) s Q := Iff.rfl

lemma ends_lift_countPending (organizationId : ℕ) {α : Type} (k : ℕ → Tx α)
    (Q : Except Exn α → ScheduleStore ι → Prop) :
    Ends i (Tx.lift triggers ((WorkflowExecutionRepository.countPending organizationId).bind k)) s Q
      ↔ Ends i (Tx.lift triggers (k (pendingIn s i organizationId))) s Q := Iff.rfl

/-- The switch is the first thing that a queueing reads. -/
lemma ends_blockQueueIfPaused {α : Type} (k : Unit → Tx α) {Q : Except Exn α → ScheduleStore ι → Prop}
    (hopen : switchOpen s i = true → Ends i (Tx.lift triggers (k ())) s Q)
    (hclosed : switchOpen s i = false → ∀ e, Q (.error (.app e false)) s) :
    Ends i (Tx.lift triggers (AutomationControlService.blockQueueIfPaused.bind k)) s Q := by
  unfold AutomationControlService.blockQueueIfPaused AutomationControlService.blockIfPaused
    AutomationControlService.isEnabled
  simp only [Prog.bind_eq, Prog.pure_eq, Tx.select, Prog.call_bind, ends_lift_select, Prog.ret_bind]
  show Ends i (Tx.lift triggers ((if switchOpen s i = true then Prog.ret () else _).bind k)) s Q
  cases h : switchOpen s i with
  | true => exact hopen h
  | false => exact hclosed h _

lemma ends_queue (h : Seen i s v c) (data : NewExecution) (refused : Bool) :
    Ends i (Tx.lift triggers (WorkflowExecutionService.queue settings data false refused)) s
      fun x s' => Received data i s v c x s' (reception settings data refused s i) := by
  unfold WorkflowExecutionService.queue
  simp only [Prog.bind_eq, Prog.pure_eq]
  refine ends_blockQueueIfPaused _ (fun hopen => ?_) fun hclosed e => ?_
  · simp only [Tx.select, Prog.call_bind, Prog.ret_bind, ends_lift_select]
    rw [reception, if_pos hopen]
    cases hworkflow : Option.filter (fun w : Workflow => w.organizationId = data.organizationId)
        (s.view i (.inl .workflow) data.workflowId) with
    | none => 
        exact ⟨⟨_, rfl⟩, h, rfl⟩
    | some workflow =>
        by_cases hactive : workflow.status = .active
        · simp only [hactive, ne_eq, not_true, if_false, ends_lift_countPending, Bool.not_false,
            Bool.true_and, decide_eq_true_eq]
          by_cases hcap : settings.executionMaxPendingPerOrg ≤ pendingIn s i data.organizationId
          · rw [if_pos hcap, if_pos hcap]
            exact ⟨⟨_, rfl⟩, h, rfl⟩
          · rw [if_neg hcap, if_neg hcap]
            cases refused with
            | true =>
                simp only [if_true]
                split
                · exact ⟨⟨_, rfl⟩, h.rollback⟩
                · exact ⟨⟨_, rfl⟩, h.rollback⟩
            | false => exact ⟨⟨_, rfl⟩, (h.insert (.inl (.execution data))).commit⟩
        · simp only [hactive, ne_eq, not_false_eq_true, if_true]
          exact ⟨⟨_, rfl⟩, h, rfl⟩
  · rw [reception, if_neg (by simp [hclosed])]
    exact ⟨⟨e, rfl⟩, h, rfl⟩

lemma reception_congr {data : NewExecution} {refused : Bool}
    (hview : ∀ t, s'.view i (.inl t) = s.view i (.inl t)) (hfresh : s'.fresh = s.fresh) :
    reception settings data refused s' i = reception settings data refused s i := by
  simp only [reception, switchOpen, pendingIn, Db.rows, hview, hfresh]

lemma fate_congr (hview : ∀ t, s'.view i (.inl t) = s.view i (.inl t)) (hfresh : s'.fresh = s.fresh) :
    fate settings input d s' i = fate settings input d s i := by
  funext row
  simp only [fate, reception_congr hview hfresh]

/-- A trigger that is due has not fired since its fire time, which is over. -/
lemma of_dueAt {now fireTime : Time} {r : WorkflowTrigger} (h : dueAt now r = .ok (some fireTime)) :
    r.lastFiredAt.all (· < fireTime) = true ∧ fireTime ≤ now := by
  unfold dueAt at h
  cases hcron : r.scheduleCron with
  | none => simp [hcron] at h
  | some cron =>
      simp only [hcron] at h
      cases hfire : previousFire cron now with
      | error e => cases e <;> simp [hfire] at h
      | ok found =>
          rw [hfire] at h
          obtain ⟨rfl, hlast⟩ := Option.filter_eq_some_iff.1 (Except.ok.inj h)
          obtain ⟨-, -, -, -, hle, -⟩ := previousFire_eq_some hfire
          exact ⟨hlast, hle⟩

/-- The trigger when the pass at `now` has dispatched it. -/
def WorkflowTrigger.fired (r : WorkflowTrigger) (now : Time) : WorkflowTrigger :=
  { r with lastFiredAt := some now }

/-- An update draws no id. -/
lemma fresh_update (u : scheduling.Update) {n : ℕ} (hn : n < s.fresh) :
    (Db.effect i (.update u n) s).fresh = s.fresh := by
  rw [Db.effect]
  split
  · exact max_eq_left hn
  · rfl

/-- A reservation of a trigger that has not fired since. -/
lemma ends_reserveLastFired (h : Seen i s v c) {n : ℕ} {r : WorkflowTrigger} {fireTime now : Time}
    (hr : v triggersTable n = some r) (hguard : r.lastFiredAt.all (· < fireTime) = true) :
    Ends i (reserveLastFired n fireTime now) s fun x s' =>
      x = .ok true ∧ Seen i s' (put v triggersTable n (some (r.fired now))) c ∧ s'.fresh = s.fresh := by
  have hset : (v triggersTable n).map (WorkflowTrigger.reserve fireTime now).step
      = some (r.fired now) := by
    rw [hr]
    exact congrArg some (GuardedUpdate.step_of_guard hguard)
  have hfound : (((v triggersTable n).filter (WorkflowTrigger.reserve fireTime now).guard).map
      (WorkflowTrigger.reserve fireTime now).set).isSome = true := by
    have hmatches : (WorkflowTrigger.reserve fireTime now).guard r = true := hguard
    rw [hr, Option.filter_some, if_pos hmatches]
    rfl
  have hupdate : Seen i
      (Db.effect i (.update (.inr (.reserveLastFired fireTime now) : scheduling.Update) n) s)
      (put v triggersTable n ((v triggersTable n).map (WorkflowTrigger.reserve fireTime now).step)) c :=
    h.update _ n
  have hlt : n < s.fresh := Db.lt_fresh_of_view (h.view ▸ hr : s.view i triggersTable n = some r)
  unfold reserveLastFired
  simp only [Prog.bind_eq, Prog.pure_eq, Tx.update, Prog.call_bind, Prog.ret_bind]
  rw [h.ends_update]
  exact ⟨congrArg Except.ok hfound, hset ▸ hupdate, fresh_update _ hlt⟩

/-- Where a trigger leaves a pass that sees, and has committed, `v` at `s`. -/
def Treated (d : Dispatcher) (row : ℕ × WorkflowTrigger) (i : ι) (s : ScheduleStore ι)
    (v : Rowset scheduling) (x : Except Exn Outcome) (s' : ScheduleStore ι) : Fate → Prop
  | .passedOver => (∃ o, x = .ok o) ∧ Seen i s' v v ∧ s'.fresh = s.fresh
  | .aborted => (∃ e, x = .error e) ∧ Seen i s' v v
  | .dispatched => (∃ o, x = .ok o) ∧ ∃ (v' : Rowset scheduling) (e : Execution), Seen i s' v' v'
      ∧ e.triggerId = some row.1
      ∧ v' = put (put v triggersTable row.1 (some (row.2.fired d.now))) executionsTable s.fresh (some e)

lemma ends_dispatchTrigger (h : Seen i s v v) {row : ℕ × WorkflowTrigger}
    (hrow : v triggersTable row.1 = some row.2) :
    Ends i (dispatchTrigger settings input d.now d.createdAt d.refused row) s
      fun x s' => Treated d row i s v x s' (fate settings input d s i row) := by
  unfold dispatchTrigger fate
  rcases hdue : dueAt d.now row.2 with e | _ | fireTime
  · exact ⟨⟨_, rfl⟩, h⟩
  · exact ⟨⟨_, rfl⟩, h, rfl⟩
  · obtain ⟨hguard, -⟩ := of_dueAt hdue
    unfold reserveAndQueue
    simp only [Prog.bind_eq, Prog.pure_eq, ends_tryCatch]
    rw [ends_bind]
    refine (ends_reserveLastFired h hrow hguard).mono ?_
    rintro x s₁ ⟨rfl, h₁, hfresh⟩
    have hview : ∀ t, s₁.view i (.inl t) = s.view i (.inl t) := fun t => by
      rw [h₁.view, h.view]
      exact put_of_ne v _ _ Sum.inl_ne_inr
    simp only [if_true]
    rw [ends_bind]
    refine (ends_queue h₁ _ _).mono fun x s' hx => ?_
    rw [reception_congr hview hfresh] at hx
    cases hreception : reception settings (tickExecution input row fireTime d.createdAt)
      (d.refused row.1) s i <;> rw [hreception] at hx
    · obtain ⟨⟨e, rfl⟩, h', hfresh'⟩ := hx
      exact ⟨⟨_, rfl⟩, h'.rollback, hfresh'.trans hfresh⟩
    · obtain ⟨⟨n, rfl⟩, h'⟩ := hx
      exact ⟨⟨_, rfl⟩, _, _, h', rfl, by rw [hfresh]⟩
    · obtain ⟨⟨e, rfl⟩, h'⟩ := hx
      exact ⟨⟨_, rfl⟩, h'⟩

/-! ### A batch -/

/-- The pass has dispatched the trigger: it has fired at the time of the pass, and has an execution. -/
def Fired (d : Dispatcher) (v v' : Rowset scheduling) (n : ℕ) : Prop :=
  ∃ r : WorkflowTrigger, v triggersTable n = some r ∧ v' triggersTable n = some (r.fired d.now)
    ∧ ∃ (m : ℕ) (e : Execution), v executionsTable m = none ∧ v' executionsTable m = some e
      ∧ e.triggerId = some n

/-- What the loop over a batch makes of the rows `v` at `s`. -/
structure Dispatched (settings : Settings) (input : Payload → Time → Payload) (d : Dispatcher) (i : ι)
    (s : ScheduleStore ι) (rows : List (ℕ × WorkflowTrigger)) (v v' : Rowset scheduling) : Prop where
  kept : ∀ t, t ≠ executionsTable → t ≠ triggersTable → v' t = v t
  executions : ∀ n e, v executionsTable n = some e → v' executionsTable n = some e
  triggers : ∀ n, v' triggersTable n = v triggersTable n ∨ n ∈ rows.map Prod.fst ∧ Fired d v v' n
  moved : ∀ row, served settings input d s i rows = some row → Fired d v v' row.1
  only : ∀ n, v' triggersTable n ≠ v triggersTable n →
    (served settings input d s i rows).isSome ∧ n ∉ (passedOver settings input d s i rows).map Prod.fst

lemma Dispatched.refl {rows : List (ℕ × WorkflowTrigger)}
    (hserved : served settings input d s i rows = none) :
    Dispatched settings input d i s rows v v where
  kept _ _ _ := rfl
  executions _ _ h := h
  triggers _ := .inl rfl
  moved row h := by simp [hserved] at h
  only n h := absurd rfl h

lemma served_congr (h : fate settings input d s' i = fate settings input d s i)
    (rows : List (ℕ × WorkflowTrigger)) :
    served settings input d s' i rows = served settings input d s i rows := by
  induction rows with
  | nil => rfl
  | cons row rows ih => simp only [served, h, ih]

/-- What is said at one store is said at another where every trigger meets the same fate. -/
lemma Dispatched.congr {rows : List (ℕ × WorkflowTrigger)}
    (hfate : fate settings input d s' i = fate settings input d s i)
    (h : Dispatched settings input d i s' rows v v') : Dispatched settings input d i s rows v v' where
  kept := h.kept
  executions := h.executions
  triggers := h.triggers
  moved row hrow := h.moved row ((served_congr hfate rows).trans hrow)
  only n hn := by
    have honly := h.only n hn
    rwa [served_congr hfate, passedOver, hfate] at honly

/-- A trigger is passed over, and the loop goes on. -/
lemma Dispatched.passOver {row : ℕ × WorkflowTrigger} {rows : List (ℕ × WorkflowTrigger)}
    (hfate : fate settings input d s i row = .passedOver) (hfirst : row.1 ∉ rows.map Prod.fst)
    (h : Dispatched settings input d i s rows v v') :
    Dispatched settings input d i s (row :: rows) v v' where
  kept := h.kept
  executions := h.executions
  triggers n := (h.triggers n).imp_right fun hn => ⟨List.mem_cons_of_mem _ hn.1, hn.2⟩
  moved row' hrow' := h.moved row' (by simpa [served, hfate] using hrow')
  only n hn := by
    obtain ⟨hserved, hover⟩ := h.only n hn
    have hmem : n ∈ rows.map Prod.fst := ((h.triggers n).resolve_left hn).1
    have hne : n ≠ row.1 := fun heq => hfirst (heq ▸ hmem)
    have hcons : passedOver settings input d s i (row :: rows)
        = row :: passedOver settings input d s i rows :=
      List.takeWhile_cons_of_pos (by simp [hfate])
    refine ⟨by simpa [served, hfate] using hserved, ?_⟩
    rw [hcons, List.map_cons, List.mem_cons, not_or]
    exact ⟨hne, hover⟩

/-- A trigger is dispatched, and the loop goes on. -/
lemma Dispatched.dispatch {row : ℕ × WorkflowTrigger} {rows : List (ℕ × WorkflowTrigger)}
    {e : Execution} {m : ℕ} {v₁ : Rowset scheduling}
    (hfate : fate settings input d s i row = .dispatched) (hfirst : row.1 ∉ rows.map Prod.fst)
    (hrow : v triggersTable row.1 = some row.2) (hfree : v executionsTable m = none)
    (he : e.triggerId = some row.1)
    (hv₁ : v₁ = put (put v triggersTable row.1 (some (row.2.fired d.now))) executionsTable m (some e))
    (h : Dispatched settings input d i s' rows v₁ v') :
    Dispatched settings input d i s (row :: rows) v v' := by
  have htriggers : v₁ triggersTable
      = Function.update (v triggersTable) row.1 (some (row.2.fired d.now)) := by
    rw [hv₁, put_of_ne _ _ _ Sum.inr_ne_inl, put_same]
  have hexecutions : v₁ executionsTable = Function.update (v executionsTable) m (some e) := by
    rw [hv₁, put_same, put_of_ne _ _ _ Sum.inl_ne_inr]
  -- the trigger itself is not touched again, and its execution stays
  have hfiredRow : Fired d v v' row.1 := by
    have hlast := (h.triggers row.1).resolve_right fun hmem => hfirst hmem.1
    refine ⟨row.2, hrow, ?_, m, e, hfree, h.executions m e ?_, he⟩
    · rw [hlast, htriggers]
      exact Function.update_self ..
    · rw [hexecutions, Function.update_self]
  have hfired : ∀ n, n ≠ row.1 → Fired d v₁ v' n → Fired d v v' n := by
    rintro n hne ⟨r, hr, hr', k, e', hk, hk', he'⟩
    rw [htriggers, Function.update_of_ne hne] at hr
    refine ⟨r, hr, hr', k, e', ?_, hk', he'⟩
    rcases eq_or_ne k m with rfl | hkm
    · exact hfree
    · rwa [hexecutions, Function.update_of_ne hkm] at hk
  refine ⟨fun t ht ht' => ?_, fun n e' hn => h.executions n e' ?_, fun n => ?_, fun row' hrow' => ?_,
    fun n hn => ?_⟩
  · rw [h.kept t ht ht', hv₁, put_of_ne _ _ _ ht, put_of_ne _ _ _ ht']
  · have hnm : n ≠ m := fun heq => by simp [heq, hfree] at hn
    rwa [hexecutions, Function.update_of_ne hnm]
  · rcases eq_or_ne n row.1 with rfl | hne
    · exact .inr ⟨List.mem_cons_self, hfiredRow⟩
    · rcases h.triggers n with hsame | ⟨hmem, hn⟩
      · exact .inl (by rw [hsame, htriggers, Function.update_of_ne hne])
      · exact .inr ⟨List.mem_cons_of_mem _ hmem, hfired n hne hn⟩
  · rw [served, hfate] at hrow'
    obtain rfl := Option.some.inj hrow'
    exact hfiredRow
  · refine ⟨by simp [served, hfate], ?_⟩
    rw [passedOver, List.takeWhile_cons_of_neg (by simp [hfate])]
    simp

lemma ends_dispatchEach {rows : List (ℕ × WorkflowTrigger)} (hnodup : (rows.map Prod.fst).Nodup)
    (h : Seen i s v v) (hrows : ∀ row ∈ rows, v triggersTable row.1 = some row.2) (stats : Stats) :
    Ends i (dispatchEach settings input d.now d.createdAt d.refused rows stats) s
      fun _ s' => ∃ v', Seen i s' v' v' ∧ Dispatched settings input d i s rows v v' := by
  induction rows generalizing s v stats with
  | nil => exact ⟨v, h, .refl rfl⟩
  | cons row rows ih =>
      obtain ⟨hrow, hrest⟩ := List.forall_mem_cons.mp hrows
      obtain ⟨hfirst, hnodup⟩ := List.nodup_cons.mp hnodup
      unfold dispatchEach
      simp only [Prog.bind_eq]
      rw [ends_bind]
      refine (ends_dispatchTrigger h hrow).mono fun x s₁ hx => ?_
      cases hfate : fate settings input d s i row <;> rw [hfate] at hx
      · -- passed over: the store is as it was
        obtain ⟨⟨o, rfl⟩, h₁, hfresh⟩ := hx
        have hsame : fate settings input d s₁ i = fate settings input d s i :=
          fate_congr (fun t => by rw [h₁.view, h.view]) hfresh
        refine (ih hnodup h₁ hrest _).mono fun _ s' hs' => ?_
        obtain ⟨v', h', hdispatched⟩ := hs'
        exact ⟨v', h', (hdispatched.congr hsame).passOver hfate hfirst⟩
      · obtain ⟨⟨o, rfl⟩, v₁, e, h₁, he, hv₁⟩ := hx
        have hrest₁ : ∀ row' ∈ rows, v₁ triggersTable row'.1 = some row'.2 := by
          intro row' hrow'
          have hne : row'.1 ≠ row.1 := fun heq => hfirst (heq ▸ List.mem_map_of_mem hrow')
          rw [hv₁, put_of_ne _ _ _ Sum.inr_ne_inl, put_same, Function.update_of_ne hne]
          exact hrest row' hrow'
        refine (ih hnodup h₁ hrest₁ _).mono fun _ s' hs' => ?_
        obtain ⟨v', h', hdispatched⟩ := hs'
        exact ⟨v', h', hdispatched.dispatch hfate hfirst hrow (h.fresh _).1 he hv₁⟩
      · obtain ⟨⟨e, rfl⟩, h₁⟩ := hx
        exact ⟨v, h₁, .refl (by simp [served, hfate])⟩

/-! ### A pass -/

lemma mem_selection {row : ℕ × WorkflowTrigger} (h : row ∈ selection s i) :
    s.view i triggersTable row.1 = some row.2 :=
  ((Db.mem_rows (S := scheduling) (q := .inr .enabledSchedules)).mp (List.mem_of_mem_filter h)).1

lemma nodup_selection (s : ScheduleStore ι) (i : ι) : ((selection s i).map Prod.fst).Nodup :=
  (s.nodup_rows i (.inr .enabledSchedules)).sublist (List.filter_sublist.map Prod.fst)

lemma mem_batch {row : ℕ × WorkflowTrigger} (h : row ∈ batch d s i) : row ∈ selection s i :=
  (d.answer.ordered _).perm.mem_iff.mp (List.mem_of_mem_take h)

/-- No trigger comes twice. -/
lemma nodup_batch (d : Dispatcher) (s : ScheduleStore ι) (i : ι) :
    ((batch d s i).map Prod.fst).Nodup := by
  have horder := ((d.answer.ordered _).perm.map Prod.fst).nodup_iff.mpr (nodup_selection s i)
  exact horder.sublist ((List.take_sublist _ _).map Prod.fst)

/-- A trigger that is not due is passed over. -/
lemma served_of_not_due {row : ℕ × WorkflowTrigger} (h : dueAt d.now row.2 = .ok none) :
    served settings input d s i [row] = none := by
  simp only [served, fate, h]

/-- Nothing is dispatched while the switch is closed. -/
lemma served_eq_none (h : switchOpen s i = false) (rows : List (ℕ × WorkflowTrigger)) :
    served settings input d s i rows = none := by
  have hfate : ∀ row, fate settings input d s i row ≠ .dispatched := fun row => by
    unfold fate reception
    rcases dueAt d.now row.2 with e | _ | fireTime <;> simp [h]
  induction rows with
  | nil => rfl
  | cons row rows ih =>
      cases hrow : fate settings input d s i row with
      | passedOver => simpa [served, hrow] using ih
      | dispatched => exact absurd hrow (hfate row)
      | aborted => simp [served, hrow]

lemma ends_isEnabled {α : Type} (k : Bool → ScheduleTx α) (Q : Except Exn α → ScheduleStore ι → Prop) :
    Ends i ((Tx.lift triggers AutomationControlService.isEnabled).bind k) s Q
      ↔ Ends i (k (switchOpen s i)) s Q := Iff.rfl

lemma ends_listEnabledSchedules {α : Type} (k : List (ℕ × WorkflowTrigger) → ScheduleTx α)
    (Q : Except Exn α → ScheduleStore ι → Prop) :
    Ends i ((listEnabledSchedules d.answer d.limit).bind k) s Q
      ↔ Ends i (k (batch d s i)) s Q := Iff.rfl

/-- **A pass dispatches the trigger that is served**, and nothing that it passes over. -/
lemma ends_dispatchDue (h : Seen i s v v) :
    Ends i (dispatchDue settings input d.answer d.limit d.now d.createdAt d.refused) s
      fun _ s' => ∃ v', Seen i s' v' v' ∧ Dispatched settings input d i s (batch d s i) v v' := by
  unfold dispatchDue
  simp only [Prog.bind_eq, Prog.pure_eq]
  rw [ends_isEnabled]
  cases hopen : switchOpen s i with
  | true =>
      rw [if_pos rfl, ends_listEnabledSchedules]
      have hrows : ∀ row ∈ batch d s i, v triggersTable row.1 = some row.2 := fun row hrow => by
        rw [← h.view]
        exact mem_selection (mem_batch hrow)
      exact ends_dispatchEach (nodup_batch d s i) h hrows _
  | false => exact ⟨v, h, .refl (served_eq_none hopen _)⟩

lemma ends_program (h : Seen i s v v) :
    Ends i (d.program settings input) s fun _ s' => s'.Settled
      ∧ Dispatched settings input d i s (batch d s i) v s'.committed := by
  unfold Dispatcher.program
  have hsession : Ends i (Tx.withSession (dispatchDue settings input d.answer d.limit d.now d.createdAt
      d.refused)) s fun _ s' => s'.Settled
        ∧ Dispatched settings input d i s (batch d s i) v s'.committed := by
    refine ((ends_dispatchDue h).withSession).mono ?_
    rintro _ _ ⟨s₁, ⟨v', h', hdispatched⟩, rfl⟩
    exact ⟨h'.quiet.settled_rollback, h'.committed ▸ hdispatched⟩
  exact hsession.bind (fun _ _ hs' => hs') fun _ _ hs' => hs'

end Passes

end Automation.ScheduleDispatcher
