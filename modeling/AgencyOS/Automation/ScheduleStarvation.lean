import AgencyOS.Automation.SchedulePass
import AgencyOS.Python.Dates

/-!
Whether a due trigger is dispatched at last, pass after pass.

A pass takes the first triggers of the order, and only a trigger that it dispatches moves back in that
order.  Those that are never due, or always refused, stay where they are, and as many of them as the
limit keep everybody else out.

* `Resting`, `pass`, `beforePass`: passes one after the other, with other work in between;
* `Due`, `Moves`: a trigger that is due, and a pass that serves some trigger no later than it;
* `rank_lt_fired`, `rank_le_of_served`: who is dispatched goes behind everybody that is due;
* `ahead_lt_of_moves`: a pass that moves leaves **fewer triggers ahead**;
* `notStarved_iff_keepsMoving`: a trigger that stays due is dispatched **exactly if passes go on moving**;
* `starved_behind_february`: a trigger for the 30th of February keeps out one for every minute.
-/

namespace Automation.ScheduleDispatcher

open Python Txn ScheduleCron

/-! ### Passes one after the other -/

/-- A database with which nobody is at work. -/
abbrev Resting : Type := {s : ScheduleStore Unit // s.Settled}

section Runs

variable (settings : Settings) (input : Payload → Time → Payload)

lemma settled_alone (d : Dispatcher) (s : Resting) :
    (alone () (d.program settings input) s.1).2.Settled :=
  (ends_program (Seen.of_settled s.2 ())).1

/-- The database after a pass. -/
def pass (d : Dispatcher) (s : Resting) : Resting :=
  ⟨(alone () (d.program settings input) s.1).2, settled_alone settings input d s⟩

/-- What the rest of the system does between two passes: it leaves the triggers alone. -/
structure Interlude where
  act : Resting → Resting
  triggers : ∀ s, (act s).1.committed triggersTable = s.1.committed triggersTable

/-- The database before the pass `k`. -/
def beforePass (passes : ℕ → Dispatcher) (interludes : ℕ → Interlude) (s : Resting) : ℕ → Resting
  | 0 => s
  | k + 1 => (interludes k).act (pass settings input (passes k) (beforePass passes interludes s k))

/-- A pass that serves some trigger, and has not passed over the trigger `n` before. -/
def Moves (d : Dispatcher) (s : Resting) (n : ℕ) : Prop :=
  (served settings input d s.1 () (batch d s.1 ())).isSome
    ∧ n ∉ (passedOver settings input d s.1 () (batch d s.1 ())).map Prod.fst

end Runs

/-- An enabled trigger of an active workflow, due for a pass. -/
def Due (d : Dispatcher) (s : Resting) (n : ℕ) (r : WorkflowTrigger) : Prop :=
  (n, r) ∈ selection s.1 () ∧ ∃ fireTime, dueAt d.now r = .ok (some fireTime)

/-- The trigger has fired in between, and has an execution for it. -/
def DispatchedBetween (s s' : Resting) (n : ℕ) : Prop :=
  lastFired s.1 n ≠ lastFired s'.1 n
    ∧ ∃ (m : ℕ) (e : Execution), s.1.committed executionsTable m = none
      ∧ s'.1.committed executionsTable m = some e ∧ e.triggerId = some n

/-- The triggers that stand ahead of a place in the order, or at it. -/
def aheadOf (place : WithBot Time ×ₗ Time) (s : Resting) : Set ℕ :=
  {n | ∃ r : WorkflowTrigger, s.1.committed triggersTable n = some r ∧ r.rank ≤ place}

section Waiting

variable {settings : Settings} {input : Payload → Time → Payload} {d : Dispatcher} {s : Resting}
  {n : ℕ} {r : WorkflowTrigger}

lemma dispatched_pass (settings : Settings) (input : Payload → Time → Payload) (d : Dispatcher)
    (s : Resting) :
    Dispatched settings input d () s.1 (batch d s.1 ()) s.1.committed
      (pass settings input d s).1.committed :=
  (ends_program (Seen.of_settled s.2 ())).2

lemma committed_of_due (h : Due d s n r) : s.1.committed triggersTable n = some r := by
  rw [← Db.view_settled s.2 () triggersTable n]
  exact mem_selection h.1

/-- Who fires in a pass goes behind everybody that was due for it. -/
lemma rank_lt_fired (h : Due d s n r) (r' : WorkflowTrigger) : r.rank < (r'.fired d.now).rank := by
  obtain ⟨fireTime, hdue⟩ := h.2
  obtain ⟨hlast, hle⟩ := of_dueAt hdue
  refine Prod.Lex.toLex_lt_toLex.mpr (.inl ?_)
  cases hfired : r.lastFiredAt with
  | none => exact WithBot.bot_lt_coe d.now
  | some t =>
      have ht : t < fireTime := by simpa [hfired] using hlast
      exact WithBot.coe_lt_coe.mpr (ht.trans_le hle)

lemma dispatchedBetween_iff (h : Due d s n r) :
    DispatchedBetween s (pass settings input d s) n
      ↔ Fired d s.1.committed (pass settings input d s).1.committed n := by
  have hr := committed_of_due h
  constructor
  · rintro ⟨hlast, -⟩
    refine (((dispatched_pass settings input d s).triggers n).resolve_left fun hsame => ?_).2
    exact hlast (by rw [lastFired, lastFired, hsame])
  · rintro ⟨r', hr', hfired, hexecution⟩
    refine ⟨fun hlast => ?_, hexecution⟩
    have hrank := rank_lt_fired h r
    rw [hr] at hr'
    obtain rfl := Option.some.inj hr'
    rw [lastFired, lastFired, hr, hfired] at hlast
    have heq : r.rank = (r.fired d.now).rank := by
      rw [WorkflowTrigger.rank, WorkflowTrigger.rank]
      exact congrArg (fun t => toLex (t, r.createdAt)) hlast
    exact hrank.ne heq

/-- A trigger that is not dispatched is left as it was. -/
lemma due_kept (h : Due d s n r) (hnot : ¬ DispatchedBetween s (pass settings input d s) n) :
    (pass settings input d s).1.committed triggersTable n = some r := by
  rw [← committed_of_due h]
  exact ((dispatched_pass settings input d s).triggers n).resolve_right fun hn =>
    hnot ((dispatchedBetween_iff h).mpr hn.2)

/-- A trigger is only dispatched by a pass that moves. -/
lemma moves_of_dispatched (hdispatched : DispatchedBetween s (pass settings input d s) n) :
    Moves settings input d s n :=
  (dispatched_pass settings input d s).only n fun hsame =>
    hdispatched.1 (by rw [lastFired, lastFired, hsame])

lemma served_eq_some {rows : List (ℕ × WorkflowTrigger)} {row : ℕ × WorkflowTrigger}
    (h : served settings input d s.1 () rows = some row) :
    ∃ rest, rows = passedOver settings input d s.1 () rows ++ row :: rest := by
  induction rows with
  | nil => cases h
  | cons row' rows ih =>
      rw [served] at h
      cases hfate : fate settings input d s.1 () row' with
      | passedOver =>
          rw [hfate] at h
          obtain ⟨rest, hrest⟩ := ih h
          refine ⟨rest, ?_⟩
          rw [passedOver, List.takeWhile_cons_of_pos (by simp [hfate]), List.cons_append]
          exact congrArg _ hrest
      | dispatched =>
          rw [hfate] at h
          obtain rfl := Option.some.inj h
          refine ⟨rows, ?_⟩
          rw [passedOver, List.takeWhile_cons_of_neg (by simp [hfate]), List.nil_append]
      | aborted =>
          rw [hfate] at h
          cases h

/-- What is served before a trigger is passed over stands no later in the order. -/
lemma rank_le_of_served {row : ℕ × WorkflowTrigger} (h : Due d s n r)
    (hserved : served settings input d s.1 () (batch d s.1 ()) = some row)
    (hn : n ∉ (passedOver settings input d s.1 () (batch d s.1 ())).map Prod.fst) :
    row.2.rank ≤ r.rank := by
  obtain ⟨rest, hrest⟩ := served_eq_some hserved
  have hordered := d.answer.ordered (selection s.1 ())
  have horder : d.answer.order (selection s.1 ())
      = passedOver settings input d s.1 () (batch d s.1 ())
        ++ row :: (rest ++ (d.answer.order (selection s.1 ())).drop d.limit) := by
    rw [← List.cons_append, ← List.append_assoc, ← hrest, batch, List.take_append_drop]
  have hmem : (n, r) ∈ d.answer.order (selection s.1 ()) := hordered.perm.mem_iff.mpr h.1
  have hsorted := hordered.sorted
  rw [horder] at hmem hsorted
  rcases List.mem_append.mp hmem with hover | hmem
  · exact absurd (List.mem_map_of_mem hover) hn
  · rcases List.mem_cons.mp hmem with rfl | hlater
    · exact le_rfl
    · exact (List.pairwise_cons.mp (List.pairwise_append.mp hsorted).2.1).1 _ hlater

/-! ### The triggers ahead -/

lemma finite_aheadOf (place : WithBot Time ×ₗ Time) (s : Resting) : (aheadOf place s).Finite := by
  refine (Set.finite_Iio s.1.fresh).subset ?_
  rintro m ⟨r, hr, -⟩
  exact Db.lt_fresh_of_committed hr

lemma aheadOf_act (interlude : Interlude) (place : WithBot Time ×ₗ Time) (s : Resting) :
    aheadOf place (interlude.act s) = aheadOf place s := by
  simp only [aheadOf, interlude.triggers]

/-- Nobody gets ahead of a trigger that is due. -/
lemma aheadOf_pass_subset (h : Due d s n r) :
    aheadOf r.rank (pass settings input d s) ⊆ aheadOf r.rank s := by
  rintro m ⟨r', hr', hrank⟩
  rcases (dispatched_pass settings input d s).triggers m with hsame | ⟨-, r₀, -, hfired, -⟩
  · exact ⟨r', hsame ▸ hr', hrank⟩
  · rw [hfired] at hr'
    obtain rfl := Option.some.inj hr'
    exact absurd hrank (rank_lt_fired h r₀).not_ge

/-- **A pass that moves leaves fewer triggers ahead** of one that is due. -/
lemma ahead_lt_of_moves (h : Due d s n r) (hmoves : Moves settings input d s n) :
    (aheadOf r.rank (pass settings input d s)).ncard < (aheadOf r.rank s).ncard := by
  obtain ⟨hserved, hover⟩ := hmoves
  obtain ⟨row, hrow⟩ := Option.isSome_iff_exists.mp hserved
  obtain ⟨r₀, hr₀, hfired, -⟩ := (dispatched_pass settings input d s).moved row hrow
  refine Set.ncard_lt_ncard ⟨aheadOf_pass_subset h, fun hsubset => ?_⟩ (finite_aheadOf _ s)
  -- the trigger that is served was ahead, and is not any more
  have hmem : row ∈ batch d s.1 () := by
    obtain ⟨rest, hrest⟩ := served_eq_some hrow
    rw [hrest]
    exact List.mem_append_right _ List.mem_cons_self
  have hbefore : s.1.committed triggersTable row.1 = some row.2 := by
    rw [← Db.view_settled s.2 () triggersTable row.1]
    exact mem_selection (mem_batch hmem)
  obtain ⟨r', hr', hrank⟩ := hsubset ⟨row.2, hbefore, rank_le_of_served h hrow hover⟩
  rw [hfired] at hr'
  obtain rfl := Option.some.inj hr'
  exact absurd hrank (rank_lt_fired h r₀).not_ge

end Waiting

/-! ### Starvation -/

section Starvation

variable (settings : Settings) (input : Payload → Time → Payload) (passes : ℕ → Dispatcher)
  (interludes : ℕ → Interlude) (s : Resting) (n : ℕ)

/-- The trigger is dispatched by the pass `k`. -/
def DispatchedAt (k : ℕ) : Prop :=
  DispatchedBetween (beforePass settings input passes interludes s k)
    (pass settings input (passes k) (beforePass settings input passes interludes s k)) n

/-- The trigger is due for every pass, until one dispatches it. -/
def StaysDue : Prop :=
  ∀ k, (∀ j < k, ¬ DispatchedAt settings input passes interludes s n j) →
    ∃ r, Due (passes k) (beforePass settings input passes interludes s k) n r

/-- **What is promised**: a trigger that stays due is dispatched after finitely many passes. -/
def NotStarved : Prop :=
  StaysDue settings input passes interludes s n →
    ∃ k, DispatchedAt settings input passes interludes s n k

/-- As long as the trigger waits, there comes a pass that moves. -/
def KeepsMoving : Prop :=
  StaysDue settings input passes interludes s n →
    ∀ k, (∀ j < k, ¬ DispatchedAt settings input passes interludes s n j) →
      ∃ k', k ≤ k'
        ∧ Moves settings input (passes k') (beforePass settings input passes interludes s k') n

variable {settings input passes interludes s n}

/-- A trigger that is never dispatched is the same trigger for ever. -/
lemma exists_due_of_never (hdue : StaysDue settings input passes interludes s n)
    (hnever : ∀ k, ¬ DispatchedAt settings input passes interludes s n k) :
    ∃ r, ∀ k, Due (passes k) (beforePass settings input passes interludes s k) n r := by
  have hall : ∀ k, ∃ r, Due (passes k) (beforePass settings input passes interludes s k) n r := fun k =>
    hdue k fun j _ => hnever j
  obtain ⟨r, hr⟩ := hall 0
  refine ⟨r, fun k => ?_⟩
  induction k with
  | zero => exact hr
  | succ k ih =>
      obtain ⟨r', hr'⟩ := hall (k + 1)
      have hkept := due_kept ih (hnever k)
      have hafter := committed_of_due hr'
      rw [beforePass, (interludes k).triggers, hkept] at hafter
      obtain rfl := Option.some.inj hafter
      exact hr'

/-- **A trigger that stays due is dispatched at last exactly if passes go on to move** for as long as it
waits. -/
theorem notStarved_iff_keepsMoving (settings : Settings) (input : Payload → Time → Payload)
    (passes : ℕ → Dispatcher) (interludes : ℕ → Interlude) (s : Resting) (n : ℕ) :
    NotStarved settings input passes interludes s n
      ↔ KeepsMoving settings input passes interludes s n := by
  constructor
  · intro h hdue k hwaits
    obtain ⟨k', hk'⟩ := h hdue
    exact ⟨k', not_lt.mp fun hlt => hwaits k' hlt hk', moves_of_dispatched hk'⟩
  · intro h hdue
    by_contra hnone
    have hnever : ∀ k, ¬ DispatchedAt settings input passes interludes s n k := fun k hk =>
      hnone ⟨k, hk⟩
    obtain ⟨r, hr⟩ := exists_due_of_never hdue hnever
    -- the triggers ahead never become more, and again and again they become fewer
    let ahead : ℕ → ℕ := fun k =>
      (aheadOf r.rank (beforePass settings input passes interludes s k)).ncard
    have hafter : ∀ k, ahead (k + 1)
        = (aheadOf r.rank (pass settings input (passes k)
          (beforePass settings input passes interludes s k))).ncard := fun k =>
      congrArg Set.ncard (aheadOf_act (interludes k) r.rank _)
    have hmono : Antitone ahead := antitone_nat_of_succ_le fun k =>
      (hafter k).trans_le (Set.ncard_le_ncard (aheadOf_pass_subset (hr k)) (finite_aheadOf _ _))
    obtain ⟨k', hle, hmoves⟩ := h hdue (Function.argmin ahead) fun j _ => hnever j
    have hfewer : ahead (k' + 1) < ahead (Function.argmin ahead) :=
      calc ahead (k' + 1) = _ := hafter k'
        _ < ahead k' := ahead_lt_of_moves (hr k') hmoves
        _ ≤ ahead (Function.argmin ahead) := hmono hle
    exact Function.not_lt_argmin ahead (k' + 1) hfewer

end Starvation

/-! ### Behind the 30th of February -/

lemma lastUpTo_self {p : ℕ → Bool} {n : ℕ} (h : p n = true) : lastUpTo p n = some n := by
  cases n <;> simp [lastUpTo, h]

lemma dueAt_of_walk {cron : String} {fields : Fields} {now : Time} {m : Option ℕ} {r : WorkflowTrigger}
    (hcron : r.scheduleCron = some cron) (hnever : r.lastFiredAt = none)
    (hparse : parse cron = .ok fields) (hwalk : fields.walk (now / minuteLength) = .ok m) :
    dueAt now r = .ok (m.map (· * minuteLength)) := by
  simp only [dueAt, hcron, hnever, previousFire, hparse, hwalk, bind, Except.bind, pure, Except.pure,
    Option.all_none]
  cases m <;> simp

/-- An expression without restrictions fires at every minute. -/
lemma dueAt_everyMinute (now createdAt : Time) :
    dueAt now { everyMinute with createdAt := createdAt }
      = .ok (some (now / minuteLength * minuteLength)) := by
  have hparse : parse "* * * * *" = .ok ⟨none, none, none, none, none⟩ := by decide +kernel
  refine dueAt_of_walk (m := some (now / minuteLength)) rfl rfl hparse ?_
  rw [Fields.walk, lastUpTo_self (by simp [Fields.matchesMinute, Fields.dayMatches, allows])]
  simp only [Nat.div_add_mod']
  rfl

lemma walkDays_eq_none {fields : Fields} (hday : ∀ day, fields.dayMatches day = false)
    {lookback day : ℕ} (h : lookback ≤ day) : fields.walkDays lookback day = .ok none := by
  induction lookback generalizing day with
  | zero => rfl
  | succ lookback ih =>
      obtain ⟨day, rfl⟩ := Nat.exists_eq_add_of_lt (show 0 < day by omega)
      rw [Fields.walkDays, hday, if_neg Bool.false_ne_true]
      exact ih (by omega)

/-- No day is the 30th of February. -/
lemma dayMatches_february (day : ℕ) :
    Fields.dayMatches ⟨some [0], some [0], some [30], some [2], none⟩ day = false := by
  have hday := (Date.valid_ofDay day).day.2
  simp only [Fields.dayMatches, allows, Option.all_some, Option.all_none, Bool.and_true,
    List.mem_singleton, Bool.and_eq_false_iff, decide_eq_false_iff_not]
  by_contra hboth
  obtain ⟨hmonth, hthirty⟩ : (Date.ofDay day).month = 2 ∧ (Date.ofDay day).day = 30 := by
    simpa [not_or] using hboth
  simp only [hmonth, hthirty, monthLength, monthLengths] at hday
  cases hleap : isLeap (Date.ofDay day).year <;> simp [hleap] at hday

/-- A trigger for every 30th of February, which the API accepts. -/
def thirtiethOfFebruary : WorkflowTrigger := { everyMinute with scheduleCron := some "0 0 30 2 *" }

/-- The midnight of the first of January 2026, in minutes. -/
def newYear : ℕ := daysBefore 2026 * minutesPerDay

lemma dueAt_february {minute : ℕ} (h : newYear ≤ minute) :
    dueAt (minute * minuteLength) thirtiethOfFebruary = .ok none := by
  have hparse : parse "0 0 30 2 *" = .ok ⟨some [0], some [0], some [30], some [2], none⟩ := by
    decide +kernel
  have hlate : lookbackDays ≤ minute / minutesPerDay := by
    simp only [newYear, daysBefore, minutesPerDay, lookbackDays] at h ⊢
    omega
  have htoday : ∀ n, lastUpTo (fun minute => Fields.matchesMinute ⟨some [0], some [0], some [30],
      some [2], none⟩ minute && false) n = none := fun n =>
    lastUpTo_eq_none.mpr fun _ _ => Bool.and_false _
  refine dueAt_of_walk (m := none) rfl rfl hparse ?_
  rw [Nat.mul_div_cancel _ (by decide)]
  simp only [Fields.walk, dayMatches_february, htoday]
  exact walkDays_eq_none dayMatches_february hlate

/-- A trigger for every minute, created after the other. -/
def patient : WorkflowTrigger := { everyMinute with createdAt := 1 }

/-- The database with the two triggers of an active workflow. -/
def twoTriggers : Resting :=
  ⟨Db.init (S := scheduling) (fun t n => match t, n with
    | .inl .workflow, 1 => some smallWorkflow
    | .inr .workflowTriggers, 0 => some thirtiethOfFebruary
    | .inr .workflowTriggers, 2 => some patient
    | _, _ => none) 3 (.still 0) fun t n hn => by
      match n with
      | 0 => omega
      | 1 => omega
      | 2 => omega
      | n + 3 =>
          cases t with
          | inl t => cases t <;> rfl
          | inr t => cases t; rfl, Db.settled_init _ _ _ _⟩

/-- The minutes from then on. -/
def minuteAt (k : ℕ) : Time := (newYear + k) * minuteLength

lemma dueAt_minuteAt (k : ℕ) : dueAt (minuteAt k) thirtiethOfFebruary = .ok none := by
  rw [minuteAt]
  exact dueAt_february (Nat.le_add_right newYear k)

/-- A pass every minute that takes one trigger. -/
def everyMinutePass (k : ℕ) : Dispatcher where
  answer := byId
  limit := 1
  now := minuteAt k
  createdAt := minuteAt k
  refused := fun _ => false

/-- Nothing happens in between. -/
def quietly : Interlude := ⟨id, fun _ => rfl⟩

/-- The two triggers and their workflow are as they were. -/
structure Undisturbed (s : Resting) : Prop where
  triggers : s.1.committed triggersTable = twoTriggers.1.committed triggersTable
  workflow : s.1.committed (.inl .workflow) = twoTriggers.1.committed (.inl .workflow)

lemma Undisturbed.mem_selection_iff {s : Resting} (h : Undisturbed s) (n : ℕ) (r : WorkflowTrigger) :
    (n, r) ∈ selection s.1 () ↔ (n = 0 ∧ r = thirtiethOfFebruary) ∨ (n = 2 ∧ r = patient) := by
  have hview : ∀ n, s.1.view () triggersTable n = twoTriggers.1.committed triggersTable n := fun n => by
    rw [Db.view_settled s.2, h.triggers]
  have hworkflow : (1, smallWorkflow) ∈ s.1.rows () (.inr .activeWorkflows) := by
    refine Db.mem_rows.mpr ⟨?_, rfl⟩
    rw [Db.view_settled s.2]
    exact congrFun h.workflow 1
  have hactive : ((s.1.rows () (.inr .activeWorkflows)).map (·.1)).contains 1 = true :=
    List.contains_iff_mem.mpr (List.mem_map_of_mem hworkflow)
  constructor
  · intro hmem
    have hr := (hview n).symm.trans (mem_selection hmem)
    rcases n with _ | _ | _ | n
    · exact .inl ⟨rfl, (Option.some.inj hr).symm⟩
    · cases hr
    · exact .inr ⟨rfl, (Option.some.inj hr).symm⟩
    · cases hr
  · rintro (⟨rfl, rfl⟩ | ⟨rfl, rfl⟩)
    · exact List.mem_filter.mpr ⟨Db.mem_rows.mpr ⟨hview 0, rfl⟩, hactive⟩
    · exact List.mem_filter.mpr ⟨Db.mem_rows.mpr ⟨hview 2, rfl⟩, hactive⟩

/-- The trigger that is never due comes first, and takes the one place. -/
lemma Undisturbed.batch_eq {s : Resting} (h : Undisturbed s) (k : ℕ) :
    batch (everyMinutePass k) s.1 () = [(0, thirtiethOfFebruary)] := by
  have hordered := (everyMinutePass k).answer.ordered (selection s.1 ())
  have hfirst : (0, thirtiethOfFebruary) ∈ (everyMinutePass k).answer.order (selection s.1 ()) :=
    hordered.perm.mem_iff.mpr ((h.mem_selection_iff _ _).mpr (.inl ⟨rfl, rfl⟩))
  rw [batch]
  obtain ⟨⟨n, r⟩, rest, horder⟩ := List.exists_cons_of_ne_nil (List.ne_nil_of_mem hfirst)
  have hmem : (n, r) ∈ selection s.1 () :=
    hordered.perm.mem_iff.mp (horder ▸ List.mem_cons_self)
  have hsorted := hordered.sorted
  rw [horder] at hfirst hsorted ⊢
  rcases (h.mem_selection_iff n r).mp hmem with ⟨rfl, rfl⟩ | ⟨rfl, rfl⟩
  · rfl
  · have hrest : (0, thirtiethOfFebruary) ∈ rest := by simpa using hfirst
    have hrank : patient.rank ≤ thirtiethOfFebruary.rank := (List.pairwise_cons.mp hsorted).1 _ hrest
    exact absurd hrank (by decide)

lemma dueAt_everyMinutePass (k : ℕ) : dueAt (everyMinutePass k).now thirtiethOfFebruary = .ok none := by
  simp only [everyMinutePass, dueAt_minuteAt]

lemma Undisturbed.after {s : Resting} (h : Undisturbed s) (k : ℕ) :
    Undisturbed (pass smallSettings (fun config _ => config) (everyMinutePass k) s) := by
  have hpass := dispatched_pass smallSettings (fun config _ => config) (everyMinutePass k) s
  have hserved : served smallSettings (fun config _ => config) (everyMinutePass k) s.1 ()
      (batch (everyMinutePass k) s.1 ()) = none := by
    rw [h.batch_eq]
    exact served_of_not_due (dueAt_everyMinutePass k)
  refine ⟨?_, ?_⟩
  · rw [← h.triggers]
    refine funext fun n => by_contra fun hn => ?_
    have hsome := (hpass.only n hn).1
    rw [hserved] at hsome
    cases hsome
  · rw [← h.workflow]
    exact hpass.kept _ (by simp) (by simp)

/-- The trigger that is due every minute waits for ever behind one that is never due. -/
theorem starved_behind_february : ¬ NotStarved smallSettings (fun config _ => config) everyMinutePass
    (fun _ => quietly) twoTriggers 2 := by
  have hundisturbed : ∀ k, Undisturbed (beforePass smallSettings (fun config _ => config)
      everyMinutePass (fun _ => quietly) twoTriggers k) := fun k => by
    induction k with
    | zero => exact ⟨rfl, rfl⟩
    | succ k ih => exact ih.after k
  intro h
  obtain ⟨k, hlast, -⟩ := h fun k _ => ⟨patient,
    ((hundisturbed k).mem_selection_iff _ _).mpr (.inr ⟨rfl, rfl⟩), _, dueAt_everyMinute _ 1⟩
  exact hlast (by rw [lastFired, lastFired, (hundisturbed k).triggers,
    ((hundisturbed k).after k).triggers])

end Automation.ScheduleDispatcher
