import AgencyOS.Tasks.Update

/-!
The schedule of a recurring task.

Completing a recurring task moves its reminder and its due date on, each by itself.  Days and weeks
keep their order.  Months keep the day as far as the month has it, so that two days at the end of a
month can become one, and then the times of day decide.

* `occurrence`, `Fits`, `advanceTime_eq`: the next occurrence, which must not be after the year 9999;
* `monthIndex_plusMonths`, `valid_plusMonths`: the date some months later;
* `Flips`, `occurrence_le_iff`: when a reminder overtakes its due date;
* `recurrence_iff`: completing a task leaves it schedulable, exactly when it does not.
-/

namespace Tasks

open Python

/-! ### The next occurrence -/

def timeOfDay (t : Datetime) : ℕ := t % microsecondsPerDay

/-- The next occurrence of a time. -/
def occurrence (frequency : RecurrenceFrequency) (interval : ℕ) (t : Datetime) : Datetime :=
  match frequency with
  | .daily => t + interval * microsecondsPerDay
  | .weekly => t + 7 * interval * microsecondsPerDay
  | .monthly => (plusMonths t.date interval).toDay * microsecondsPerDay + timeOfDay t

/-- The next occurrence is not after the year 9999. -/
def Fits (frequency : RecurrenceFrequency) (interval : ℕ) (t : Datetime) : Prop :=
  match frequency with
  | .daily => t + interval * microsecondsPerDay < endOfTime
  | .weekly => t + 7 * interval * microsecondsPerDay < endOfTime
  | .monthly => t.date.year + (t.date.month - 1 + interval) / 12 < 10000

instance (frequency : RecurrenceFrequency) (interval : ℕ) (t : Datetime) :
    Decidable (Fits frequency interval t) :=
  match frequency with
  | .daily => inferInstanceAs (Decidable (t + interval * microsecondsPerDay < endOfTime))
  | .weekly => inferInstanceAs (Decidable (t + 7 * interval * microsecondsPerDay < endOfTime))
  | .monthly =>
      inferInstanceAs (Decidable (t.date.year + (t.date.month - 1 + interval) / 12 < 10000))

variable {frequency : RecurrenceFrequency} {interval : ℕ} {t t' reminder due : Datetime}

lemma advanceTime_eq_ok :
    advanceTime t frequency interval = .ok t'
      ↔ Fits frequency interval t ∧ t' = occurrence frequency interval t := by
  have hite : ∀ {p : Prop} [Decidable p] {e : Exn} {later : Datetime},
      (if p then (.ok later : Except Exn Datetime) else .error e) = .ok t' ↔ p ∧ t' = later := by
    intro p _ e later
    split_ifs with h <;> simp [h, eq_comm]
  cases frequency with
  | daily => exact hite
  | weekly => exact hite
  | monthly => exact hite

/-! ### Months -/

/-- So many months later is so many months later. -/
lemma monthIndex_plusMonths (d : Date) (months : ℕ) :
    (plusMonths d months).monthIndex = d.monthIndex + months := by
  have hdiv := Nat.div_add_mod (d.month - 1 + months) 12
  dsimp only [Date.monthIndex, plusMonths]
  omega

lemma valid_plusMonths {d : Date} (h : d.Valid) (months : ℕ) : (plusMonths d months).Valid := by
  have hmonth : 1 ≤ (d.month - 1 + months) % 12 + 1 ∧ (d.month - 1 + months) % 12 + 1 ≤ 12 := by
    omega
  have hyear := h.year
  have hday := h.day.1
  refine Date.valid_mk.2 ⟨by omega, hmonth, ?_, min_le_right _ _⟩
  exact le_min hday (monthLength_pos hmonth)

lemma valid_date (t : Datetime) : t.date.Valid := Date.valid_ofDay _

lemma toDay_date (t : Datetime) : t.date.toDay = t / microsecondsPerDay := (Date.toDay_ofDay _).2

/-- Instants go by their day, and then by their time of day. -/
lemma instant_le_iff {day day' time time' : ℕ} (htime : time < microsecondsPerDay)
    (htime' : time' < microsecondsPerDay) :
    day * microsecondsPerDay + time ≤ day' * microsecondsPerDay + time'
      ↔ day < day' ∨ day = day' ∧ time ≤ time' := by
  generalize microsecondsPerDay = k at htime htime'
  constructor
  · intro hle
    rcases Nat.lt_trichotomy day day' with hlt | rfl | hgt
    · exact .inl hlt
    · exact .inr ⟨rfl, by omega⟩
    · have hmul : (day' + 1) * k ≤ day * k := Nat.mul_le_mul_right k hgt
      rw [Nat.succ_mul] at hmul
      omega
  · rintro (hlt | ⟨rfl, hle⟩)
    · have hmul : (day + 1) * k ≤ day' * k := Nat.mul_le_mul_right k hlt
      rw [Nat.succ_mul] at hmul
      omega
    · omega

lemma timeOfDay_lt (t : Datetime) : timeOfDay t < microsecondsPerDay := Nat.mod_lt t (by decide)

lemma instant_eq (t : Datetime) : t = t.date.toDay * microsecondsPerDay + timeOfDay t := by
  rw [toDay_date]
  exact (Nat.div_add_mod' t microsecondsPerDay).symm

lemma le_iff_date (reminder due : Datetime) :
    reminder ≤ due ↔ reminder.date.toDay < due.date.toDay
      ∨ reminder.date.toDay = due.date.toDay ∧ timeOfDay reminder ≤ timeOfDay due := by
  rw [← instant_le_iff (timeOfDay_lt reminder) (timeOfDay_lt due), ← instant_eq, ← instant_eq]

/-! ### The order of the reminder and the due date -/

/-- The reminder overtakes the due date: both are in one month, on days that the later month does not
tell apart, and the reminder has the later time of day. -/
def Flips (interval : ℕ) (reminder due : Datetime) : Prop :=
  reminder.date.year = due.date.year ∧ reminder.date.month = due.date.month
    ∧ reminder.date.day < due.date.day
    ∧ monthLength (isLeap (plusMonths reminder.date interval).year)
        (plusMonths reminder.date interval).month ≤ reminder.date.day
    ∧ timeOfDay due < timeOfDay reminder

instance (interval : ℕ) (reminder due : Datetime) : Decidable (Flips interval reminder due) := by
  unfold Flips
  infer_instance

/-- **Months later, a reminder is after its due date exactly when it overtakes it.** -/
theorem occurrence_monthly_le_iff (h : reminder ≤ due) :
    occurrence .monthly interval reminder ≤ occurrence .monthly interval due
      ↔ ¬ Flips interval reminder due := by
  have hvalid := valid_date reminder
  have hvalid' := valid_date due
  have hmonths : reminder.date.monthIndex ≤ due.date.monthIndex :=
    Date.monthIndex_le (Nat.div_le_div_right h)
  dsimp only [occurrence]
  rw [instant_le_iff (timeOfDay_lt reminder) (timeOfDay_lt due)]
  rcases hmonths.lt_or_eq with hlt | heq
  · -- in different months nothing changes
    have hlater := (valid_plusMonths hvalid interval).toDay_lt (valid_plusMonths hvalid' interval)
      (by rw [monthIndex_plusMonths, monthIndex_plusMonths]; omega)
    refine iff_of_true (.inl hlater) fun hflips => ?_
    rw [Date.monthIndex, Date.monthIndex, hflips.1, hflips.2.1] at hlt
    exact lt_irrefl _ hlt
  · obtain ⟨hyear, hmonth⟩ := hvalid.eq_of_monthIndex hvalid' heq
    have hday := Date.toDay_add_day hyear hmonth hvalid.day.1 hvalid'.day.1
    have hyear' : (plusMonths reminder.date interval).year = (plusMonths due.date interval).year := by
      simp only [plusMonths, hyear, hmonth]
    have hmonth' : (plusMonths reminder.date interval).month
        = (plusMonths due.date interval).month := by
      simp only [plusMonths, hmonth]
    have hday' := Date.toDay_add_day hyear' hmonth' (valid_plusMonths hvalid interval).day.1
      (valid_plusMonths hvalid' interval).day.1
    have hclamp : (plusMonths reminder.date interval).day
        = min reminder.date.day (monthLength (isLeap (plusMonths reminder.date interval).year)
          (plusMonths reminder.date interval).month) := rfl
    have hclamp' : (plusMonths due.date interval).day
        = min due.date.day (monthLength (isLeap (plusMonths reminder.date interval).year)
          (plusMonths reminder.date interval).month) := by
      rw [hyear', hmonth']
      rfl
    rw [le_iff_date] at h
    rw [Flips]
    obtain ⟨last, hlast⟩ : ∃ last, monthLength (isLeap (plusMonths reminder.date interval).year)
      (plusMonths reminder.date interval).month = last := ⟨_, rfl⟩
    rw [hlast] at hclamp hclamp' ⊢
    rw [hclamp, hclamp'] at hday'
    omega

lemma occurrence_le_iff (h : reminder ≤ due) :
    occurrence frequency interval reminder ≤ occurrence frequency interval due
      ↔ (frequency = .monthly → ¬ Flips interval reminder due) := by
  cases frequency with
  | daily => exact iff_of_true (Nat.add_le_add_right h _) nofun
  | weekly => exact iff_of_true (Nat.add_le_add_right h _) nofun
  | monthly => simpa using occurrence_monthly_le_iff h

/-- The next occurrence is later. -/
lemma lt_occurrence (hinterval : 1 ≤ interval) (t : Datetime) :
    t < occurrence frequency interval t := by
  have hpos : 0 < microsecondsPerDay := by decide
  cases frequency with
  | daily => exact Nat.lt_add_of_pos_right (Nat.mul_pos hinterval hpos)
  | weekly => exact Nat.lt_add_of_pos_right (Nat.mul_pos (by omega) hpos)
  | monthly =>
      have hlater := (valid_date t).toDay_lt (valid_plusMonths (valid_date t) interval)
        (by rw [monthIndex_plusMonths]; omega)
      dsimp only [occurrence]
      calc t = t.date.toDay * microsecondsPerDay + timeOfDay t := instant_eq t
        _ < (plusMonths t.date interval).toDay * microsecondsPerDay + timeOfDay t :=
            Nat.add_lt_add_right (Nat.mul_lt_mul_of_pos_right hlater hpos) _

/-! ### Completion -/

variable {c : Call} {db : Tables} {taskId : ℕ} {task : Task}

lemma advanceTime?_eq_ok {time time' : Option Datetime} :
    advanceTime? time frequency interval = .ok time'
      ↔ (∀ t ∈ time, Fits frequency interval t)
        ∧ time' = time.map (occurrence frequency interval) := by
  cases time with
  | none => simp [advanceTime?, eq_comm]
  | some t =>
      rw [advanceTime?, map_eq_ok]
      simp only [advanceTime_eq_ok, Option.mem_some_iff, Option.map_some]
      constructor
      · rintro ⟨_, ⟨hfits, rfl⟩, rfl⟩
        exact ⟨fun _ h => h ▸ hfits, rfl⟩
      · rintro ⟨hfits, rfl⟩
        exact ⟨_, ⟨hfits t rfl, rfl⟩, rfl⟩

/-- The task at its next occurrence. -/
def reopened (frequency : RecurrenceFrequency) (interval : ℕ) (task : Task) : Task :=
  { task with
    dueAt := task.dueAt.map (occurrence frequency interval)
    reminderAt := task.reminderAt.map (occurrence frequency interval)
    status := .todo
    completedAt := none }

lemma advanceRecurrence_eq (hfrequency : task.recurrenceFrequency = some frequency)
    (hinterval : task.recurrenceInterval = some interval) :
    advanceRecurrence task = (advanceTime? task.dueAt frequency interval >>= fun dueAt =>
      advanceTime? task.reminderAt frequency interval >>= fun reminderAt =>
        .ok ({ task with dueAt := dueAt, reminderAt := reminderAt }, true)) := by
  rw [advanceRecurrence]
  split
  · next frequency' interval' hfrequency' hinterval' =>
    obtain rfl := Option.some.inj (hfrequency'.symm.trans hfrequency)
    obtain rfl := Option.some.inj (hinterval'.symm.trans hinterval)
    rfl
  · next hnone => exact absurd hinterval (hnone _ _ hfrequency)

lemma closed_eq_ok (hfrequency : task.recurrenceFrequency = some frequency)
    (hinterval : task.recurrenceInterval = some interval) {now : Datetime} {row : Task}
    {recurred : Bool} :
    closed now task = .ok (row, recurred)
      ↔ (∀ t ∈ task.dueAt, Fits frequency interval t)
        ∧ (∀ t ∈ task.reminderAt, Fits frequency interval t)
        ∧ row = reopened frequency interval task ∧ recurred = true := by
  rw [closed, advanceRecurrence_eq hfrequency hinterval]
  constructor
  · intro h
    obtain ⟨⟨next, recurred'⟩, hnext, h⟩ := bind_eq_ok.1 h
    obtain ⟨dueAt, hdue, hnext⟩ := bind_eq_ok.1 hnext
    obtain ⟨reminderAt, hreminder, hnext⟩ := bind_eq_ok.1 hnext
    obtain ⟨hfits, rfl⟩ := advanceTime?_eq_ok.1 hdue
    obtain ⟨hfits', rfl⟩ := advanceTime?_eq_ok.1 hreminder
    cases hnext
    cases h
    exact ⟨hfits, hfits', rfl, rfl⟩
  · rintro ⟨hfits, hfits', rfl, rfl⟩
    have hdue : advanceTime? task.dueAt frequency interval = .ok _ :=
      advanceTime?_eq_ok.2 ⟨hfits, rfl⟩
    have hreminder : advanceTime? task.reminderAt frequency interval = .ok _ :=
      advanceTime?_eq_ok.2 ⟨hfits', rfl⟩
    rw [hdue, hreminder]
    rfl

/-- A time that there is has moved on. -/
def MovedOn (time time' : Option Datetime) : Prop := ∀ t ∈ time, ∃ t' ∈ time', t < t'

/-- The completion moves the task on to an occurrence that is on schedule, so that later edits of its
other fields are not refused for the dates. -/
def StaysSchedulable (c : Call) (db : Tables) (taskId : ℕ) (task : Task) : Prop :=
  ∃ row db', complete c db taskId = .ok (row, db')
    ∧ db'.getTask c.organizationId taskId = .ok row
    ∧ MovedOn task.dueAt row.dueAt ∧ MovedOn task.reminderAt row.reminderAt
    ∧ scheduled row.dueAt row.reminderAt
    ∧ ∀ (c' : Call) (u : TaskUpdate), c'.organizationId = c.organizationId →
      u.dueAt = none → u.reminderAt = none → update c' db' taskId u ≠ .error reminderAfterDue

lemma movedOn_map (hinterval : 1 ≤ interval) (time : Option Datetime) :
    MovedOn time (time.map (occurrence frequency interval)) := by
  rintro t rfl
  exact ⟨_, rfl, lt_occurrence hinterval t⟩

/-- **Completing a recurring task leaves it schedulable exactly when** its next occurrence is not after
the year 9999, and, if it recurs by months, its reminder does not overtake its due date. -/
theorem recurrence_iff (c : Call) (db : Tables) (taskId : ℕ) {task : Task}
    (hget : db.getTask c.organizationId taskId = .ok task) (hstored : task.stored = true)
    (hopen : task.status ≠ .completed) {frequency : RecurrenceFrequency} {interval : ℕ}
    (hfrequency : task.recurrenceFrequency = some frequency)
    (hinterval : task.recurrenceInterval = some interval)
    (hsched : scheduled task.dueAt task.reminderAt) :
    StaysSchedulable c db taskId task
      ↔ (∀ t ∈ task.dueAt, Fits frequency interval t)
        ∧ (∀ t ∈ task.reminderAt, Fits frequency interval t)
        ∧ (frequency = .monthly → ∀ due ∈ task.dueAt, ∀ reminder ∈ task.reminderAt,
          ¬ Flips interval reminder due) := by
  obtain ⟨hfields, -⟩ := (stored_iff task).1 hstored
  have hpos : 1 ≤ interval := by
    have hpaired : task.recurrencePaired = true := by
      simp only [Task.fieldsStored, Bool.and_eq_true] at hfields
      exact hfields.2
    exact (((recurrencePaired_iff task).1 hpaired).2 interval hinterval).1
  -- the new dates are in order exactly when nothing overtakes
  have horder : scheduled (reopened frequency interval task).dueAt
      (reopened frequency interval task).reminderAt
      ↔ (frequency = .monthly → ∀ due ∈ task.dueAt, ∀ reminder ∈ task.reminderAt,
        ¬ Flips interval reminder due) := by
    dsimp only [reopened, scheduled] at hsched ⊢
    simp only [Option.mem_map, forall_exists_index, and_imp, forall_apply_eq_imp_iff₂]
    constructor
    · intro h hmonthly due hdue reminder hreminder
      exact (occurrence_le_iff (hsched due hdue reminder hreminder)).1
        (h due hdue reminder hreminder) hmonthly
    · intro h due hdue reminder hreminder
      exact (occurrence_le_iff (hsched due hdue reminder hreminder)).2
        fun hmonthly => h hmonthly due hdue reminder hreminder
  have hcomplete : complete c db taskId = (closed c.now task >>= fun s =>
      db.commit s.1 [c.log s.1 .taskCompleted
        (if s.2 then "Recurring task occurrence completed" else "Task completed")]) := by
    rw [complete, hget]
    exact if_neg hopen
  rw [← horder, StaysSchedulable, hcomplete]
  constructor
  · rintro ⟨row, db', hok, -, -, -, hrow, -⟩
    obtain ⟨⟨next, recurred⟩, hclosed, hcommit⟩ := bind_eq_ok.1 hok
    obtain ⟨hfits, hfits', rfl, rfl⟩ := (closed_eq_ok hfrequency hinterval).1 hclosed
    obtain ⟨-, rfl, -⟩ := commit_eq_ok hcommit
    exact ⟨hfits, hfits', hrow⟩
  · rintro ⟨hfits, hfits', hrow⟩
    have hclosed : closed c.now task = .ok (reopened frequency interval task, true) :=
      (closed_eq_ok hfrequency hinterval).2 ⟨hfits, hfits', rfl, rfl⟩
    have hrowStored : (reopened frequency interval task).stored = true :=
      (stored_iff _).2 ⟨hfields, by simp [reopened, Task.completedAtConsistent]⟩
    obtain ⟨-, horg, hid⟩ := getTask_eq_ok hget
    have hback : ∀ db' : Tables, db'.tasks = db.tasks.map (fun t =>
          if t.id = (reopened frequency interval task).id then reopened frequency interval task
          else t) →
        db'.getTask c.organizationId taskId = .ok (reopened frequency interval task) :=
      fun _ htasks => getTask_of_tasks hget hid horg htasks
    rw [hclosed]
    refine ⟨_, _, if_pos hrowStored, hback _ rfl, movedOn_map hpos _, movedOn_map hpos _, hrow, ?_⟩
    intro c' u horg' hdue hreminder
    refine update_ne_reminderAfterDue (horg' ▸ hback _ rfl) ?_
    rwa [hdue, hreminder, Option.none_or, Option.none_or]

/-- A date at an hour. -/
def atHour (year month day hour : ℕ) : Datetime :=
  (⟨year, month, day⟩ : Date).toDay * microsecondsPerDay + hour * 3600000000

/-- A task that is due at nine, with a reminder at ten some days before it. -/
def monthlyTask (reminderDay dueDay : ℕ) : Task :=
  { id := 1, organizationId := 1, leadId := none, assigneeUserId := none, createdByUserId := none
    title := "A", description := none, status := .todo, priority := .low
    dueAt := some (atHour 2026 1 dueDay 9), reminderAt := some (atHour 2026 1 reminderDay 10)
    completedAt := none, recurrenceFrequency := some .monthly, recurrenceInterval := some 1 }

/-- From the 27th and the 28th of January to those of February. -/
theorem recurrence_february :
    StaysSchedulable ⟨1, 2, 7⟩ ⟨[monthlyTask 27 28], [], [], []⟩ 1 (monthlyTask 27 28) := by
  refine (recurrence_iff ⟨1, 2, 7⟩ ⟨[monthlyTask 27 28], [], [], []⟩ 1 rfl rfl (by decide) rfl rfl
    (by decide)).2 ⟨by decide, by decide, fun _ => by decide⟩

/-- From the 29th and the 31st of January both come to the 28th of February. -/
theorem recurrence_flips :
    ¬ StaysSchedulable ⟨1, 2, 7⟩ ⟨[monthlyTask 29 31], [], [], []⟩ 1 (monthlyTask 29 31) := by
  rintro ⟨row, db', hok, -, -, -, hrow, -⟩
  have hfinal : complete ⟨1, 2, 7⟩ ⟨[monthlyTask 29 31], [], [], []⟩ 1
      = .ok (reopened .monthly 1 (monthlyTask 29 31), ⟨[reopened .monthly 1 (monthlyTask 29 31)],
        [⟨1, 2, none, .taskCompleted, 1, "Recurring task occurrence completed", 7⟩], [], []⟩) := rfl
  rw [hfinal] at hok
  cases hok
  revert hrow
  decide

end Tasks
