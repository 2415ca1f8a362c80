import AgencyOS.Tasks.Recurrence

/-!
The due date of a monthly task after several completions.

A completion moves on the due date that it finds, which a shorter month may have moved to an earlier
day; later months do not move it back.

* `completions`, `getTask_completions`: completions of a task, and the row that they leave;
* `le_day_iterate`: **the day after some completions is the least** of the day at the start and the
  lengths of the months on the way;
* `iterate_eq_iff`: it is that of the start, clamped to the last month, exactly when no month on the way
  is shorter;
* `drift_iff`: the due date after completions, and steps of two sizes.
-/

namespace Tasks

open Python

/-- The completions of a task, one after the other. -/
def completions (db : Tables) (taskId : ℕ) : List Call → Except Exn Tables
  | [] => .ok db
  | c :: calls => do
      let (_, db) ← complete c db taskId
      completions db taskId calls

/-- The time that lies so many months after the start, on the day of the start as far as the month has
it. -/
def monthsLater (start : Datetime) (months : ℕ) : Datetime := occurrence .monthly months start

/-- The days of the month that lies so many months later. -/
def monthDays (d : Date) (months : ℕ) : ℕ :=
  monthLength (isLeap (plusMonths d months).year) (plusMonths d months).month

variable {interval : ℕ} {d : Date} {start : Datetime}

/-! ### Dates some months later -/

lemma plusMonths_day (d : Date) (months : ℕ) :
    (plusMonths d months).day = min d.day (monthDays d months) := rfl

/-- Dates in one month have the same months later. -/
lemma monthDays_congr {e : Date} (hd : d.Valid) (he : e.Valid) {months months' : ℕ}
    (h : d.monthIndex + months = e.monthIndex + months') : monthDays d months = monthDays e months' := by
  obtain ⟨hyear, hmonth⟩ := (valid_plusMonths hd months).eq_of_monthIndex (valid_plusMonths he months')
    (by rw [monthIndex_plusMonths, monthIndex_plusMonths, h])
  rw [monthDays, monthDays, hyear, hmonth]

/-- A date is given by its month and its day. -/
lemma date_eq_iff {e : Date} (hd : d.Valid) (he : e.Valid) (h : d.monthIndex = e.monthIndex) :
    d = e ↔ d.day = e.day := by
  obtain ⟨hyear, hmonth⟩ := hd.eq_of_monthIndex he h
  constructor
  · rintro rfl
    rfl
  · intro hday
    cases d
    cases e
    simp_all

lemma valid_iterate (hd : d.Valid) (interval k : ℕ) : ((fun e => plusMonths e interval)^[k] d).Valid := by
  induction k with
  | zero => exact hd
  | succ k ih =>
      rw [Function.iterate_succ_apply']
      exact valid_plusMonths ih interval

lemma monthIndex_iterate (d : Date) (interval k : ℕ) :
    ((fun e => plusMonths e interval)^[k] d).monthIndex = d.monthIndex + k * interval := by
  induction k with
  | zero => simp
  | succ k ih =>
      rw [Function.iterate_succ_apply', monthIndex_plusMonths, ih, Nat.succ_mul]
      omega

/-- **The day after some steps** is the least of the day at the start and the lengths of the months on
the way. -/
lemma le_day_iterate (hd : d.Valid) (interval k n : ℕ) :
    n ≤ ((fun e => plusMonths e interval)^[k] d).day
      ↔ n ≤ d.day ∧ ∀ j, 0 < j → j ≤ k → n ≤ monthDays d (j * interval) := by
  induction k with
  | zero =>
      rw [Function.iterate_zero_apply]
      constructor
      · intro h
        exact ⟨h, fun j hpos hle => by omega⟩
      · rintro ⟨h, -⟩
        exact h
  | succ k ih =>
      have hlast : monthDays ((fun e => plusMonths e interval)^[k] d) interval
          = monthDays d ((k + 1) * interval) := by
        refine monthDays_congr (valid_iterate hd interval k) hd ?_
        rw [monthIndex_iterate, Nat.succ_mul]
        omega
      rw [Function.iterate_succ_apply', plusMonths_day, le_min_iff, ih, hlast]
      constructor
      · rintro ⟨⟨hday, hway⟩, hlast⟩
        refine ⟨hday, fun j hpos hle => ?_⟩
        rcases Nat.le_succ_iff.mp hle with hle | rfl
        · exact hway j hpos hle
        · exact hlast
      · rintro ⟨hday, hway⟩
        exact ⟨⟨hday, fun j hpos hle => hway j hpos (by omega)⟩, hway _ (by omega) le_rfl⟩

/-- **Steps come to the day of the start, clamped to the last month, exactly when no month on the way is
shorter.** -/
lemma iterate_eq_iff (hd : d.Valid) (interval k : ℕ) :
    (fun e => plusMonths e interval)^[k] d = plusMonths d (k * interval)
      ↔ ∀ j, 0 < j → j < k → min d.day (monthDays d (k * interval)) ≤ monthDays d (j * interval) := by
  have hmonth : ((fun e => plusMonths e interval)^[k] d).monthIndex
      = (plusMonths d (k * interval)).monthIndex := by
    rw [monthIndex_iterate, monthIndex_plusMonths]
  rw [date_eq_iff (valid_iterate hd interval k) (valid_plusMonths hd _) hmonth, plusMonths_day]
  have hle := le_day_iterate hd interval k
  have hself := (hle _).mp le_rfl
  constructor
  · intro heq j hpos hlt
    rw [← heq]
    exact hself.2 j hpos hlt.le
  · intro hway
    refine le_antisymm ?_ ((hle _).mpr ⟨min_le_left _ _, fun j hpos hj => ?_⟩)
    · rcases Nat.eq_zero_or_pos k with rfl | hpos
      · -- no step leaves the day, which its month has
        have hday := hd.day.2
        have hlength : monthDays d (0 * interval) = monthLength (isLeap d.year) d.month := by
          have hzero : plusMonths d (0 * interval) = plusMonths d 0 := by rw [Nat.zero_mul]
          obtain ⟨hyear, hmonth⟩ := (valid_plusMonths hd 0).eq_of_monthIndex hd
            (by rw [monthIndex_plusMonths, Nat.add_zero])
          rw [monthDays, hzero, hyear, hmonth]
        rw [hlength]
        exact le_min le_rfl hday
      · exact le_min hself.1 (hself.2 k hpos le_rfl)
    · rcases hj.lt_or_eq with hlt | rfl
      · exact hway j hpos hlt
      · exact min_le_right _ _

/-! ### Occurrences -/

/-- The date and the time of day of an instant that is given by them. -/
lemma date_of_instant {e : Date} (he : e.Valid) {time : ℕ} (htime : time < microsecondsPerDay) :
    Datetime.date (e.toDay * microsecondsPerDay + time) = e
      ∧ timeOfDay (e.toDay * microsecondsPerDay + time) = time := by
  have hpos : 0 < microsecondsPerDay := by decide
  have hday : (e.toDay * microsecondsPerDay + time) / microsecondsPerDay = e.toDay := by
    rw [Nat.add_comm, Nat.add_mul_div_right _ _ hpos, Nat.div_eq_of_lt htime, Nat.zero_add]
  constructor
  · rw [Datetime.date, hday, Date.ofDay_toDay he]
  · rw [timeOfDay, Nat.add_comm, Nat.add_mul_mod_self_right, Nat.mod_eq_of_lt htime]

lemma date_monthsLater (t : Datetime) (months : ℕ) :
    (monthsLater t months).date = plusMonths t.date months ∧ timeOfDay (monthsLater t months) = timeOfDay t :=
  date_of_instant (valid_plusMonths (valid_date t) months) (timeOfDay_lt t)

/-- Instants are given by their dates and times of day. -/
lemma instant_ext {t t' : Datetime} (htime : timeOfDay t = timeOfDay t') : t = t' ↔ t.date = t'.date := by
  constructor
  · rintro rfl
    rfl
  · intro hdate
    rw [instant_eq t, instant_eq t', hdate, htime]

lemma date_iterate (t : Datetime) (interval k : ℕ) :
    ((fun u => monthsLater u interval)^[k] t).date = (fun e => plusMonths e interval)^[k] t.date
      ∧ timeOfDay ((fun u => monthsLater u interval)^[k] t) = timeOfDay t := by
  induction k with
  | zero => exact ⟨rfl, rfl⟩
  | succ k ih =>
      obtain ⟨hdate, htime⟩ := date_monthsLater ((fun u => monthsLater u interval)^[k] t) interval
      rw [Function.iterate_succ_apply', Function.iterate_succ_apply', hdate, htime, ih.1, ih.2]
      exact ⟨rfl, rfl⟩

/-- The due date after some steps, and that some months later. -/
lemma monthsLater_iterate_iff (t : Datetime) (interval k : ℕ) :
    (fun u => monthsLater u interval)^[k] t = monthsLater t (k * interval)
      ↔ ∀ j, 0 < j → j < k →
        min t.date.day (monthDays t.date (k * interval)) ≤ monthDays t.date (j * interval) := by
  obtain ⟨hdate, htime⟩ := date_iterate t interval k
  obtain ⟨hdate', htime'⟩ := date_monthsLater t (k * interval)
  rw [instant_ext (htime.trans htime'.symm), hdate, hdate', iterate_eq_iff (valid_date t)]

/-- Two steps are one exactly when the month between is not shorter. -/
lemma plusMonths_plusMonths_iff (hd : d.Valid) (months months' : ℕ) :
    plusMonths (plusMonths d months) months' = plusMonths d (months + months')
      ↔ min d.day (monthDays d (months + months')) ≤ monthDays d months := by
  have hmonth : (plusMonths (plusMonths d months) months').monthIndex
      = (plusMonths d (months + months')).monthIndex := by
    rw [monthIndex_plusMonths, monthIndex_plusMonths, monthIndex_plusMonths, Nat.add_assoc]
  have hlast : monthDays (plusMonths d months) months' = monthDays d (months + months') := by
    refine monthDays_congr (valid_plusMonths hd months) hd ?_
    rw [monthIndex_plusMonths, Nat.add_assoc]
  rw [date_eq_iff (valid_plusMonths (valid_plusMonths hd _) _) (valid_plusMonths hd _) hmonth,
    plusMonths_day, plusMonths_day, plusMonths_day, hlast]
  omega

/-- Two steps lead to where one leads exactly when the month between is not shorter. -/
lemma advanceTime_add_iff {months months' : ℕ} {later : Datetime}
    (hlater : advanceTime start .monthly (months + months') = .ok later) :
    (advanceTime start .monthly months >>= fun t => advanceTime t .monthly months') = .ok later
      ↔ min start.date.day (monthDays start.date (months + months')) ≤ monthDays start.date months := by
  obtain ⟨hfits, rfl⟩ := advanceTime_eq_ok.1 hlater
  have hvalid := valid_date start
  obtain ⟨hdate, htime⟩ := date_monthsLater start months
  have hfirst : Fits .monthly months start := by
    dsimp only [Fits] at hfits ⊢
    omega
  have hsecond : Fits .monthly months' (monthsLater start months) := by
    have hindex := monthIndex_plusMonths start.date months
    have hmonth := (valid_plusMonths hvalid months).month
    have hmonth' := hvalid.month
    dsimp only [Fits, Date.monthIndex] at hfits hindex ⊢
    rw [hdate]
    omega
  have hsteps : (advanceTime start .monthly months >>= fun t => advanceTime t .monthly months')
      = .ok (monthsLater (monthsLater start months) months') :=
    bind_eq_ok.2 ⟨_, advanceTime_eq_ok.2 ⟨hfirst, rfl⟩, advanceTime_eq_ok.2 ⟨hsecond, rfl⟩⟩
  have hinj : (Except.ok (monthsLater (monthsLater start months) months') : Except Exn Datetime)
      = .ok (monthsLater start (months + months'))
        ↔ monthsLater (monthsLater start months) months' = monthsLater start (months + months') :=
    ⟨Except.ok.inj, congrArg _⟩
  obtain ⟨hdate₂, htime₂⟩ := date_monthsLater (monthsLater start months) months'
  obtain ⟨hdate₃, htime₃⟩ := date_monthsLater start (months + months')
  rw [hsteps]
  refine hinj.trans ?_
  rw [instant_ext (htime₂.trans (htime.trans htime₃.symm)), hdate₂, hdate₃, hdate]
  exact plusMonths_plusMonths_iff hvalid months months'

/-! ### Completions -/

/-- A completion of a monthly task moves its due date on, and leaves it a monthly task. -/
lemma complete_monthly {c : Call} {db db' : Tables} {taskId : ℕ} {task row : Task}
    (hget : db.getTask c.organizationId taskId = .ok task) (hopen : task.status ≠ .completed)
    (hfrequency : task.recurrenceFrequency = some .monthly)
    (hinterval : task.recurrenceInterval = some interval) (h : complete c db taskId = .ok (row, db')) :
    row = reopened .monthly interval task ∧ db'.getTask c.organizationId taskId = .ok row := by
  have hcomplete : complete c db taskId = (closed c.now task >>= fun s =>
      db.commit s.1 [c.log s.1 .taskCompleted
        (if s.2 then "Recurring task occurrence completed" else "Task completed")]) := by
    rw [complete, hget]
    exact if_neg hopen
  rw [hcomplete] at h
  obtain ⟨⟨next, recurred⟩, hclosed, hcommit⟩ := bind_eq_ok.1 h
  obtain ⟨-, -, rfl, rfl⟩ := (closed_eq_ok hfrequency hinterval).1 hclosed
  obtain ⟨-, rfl, htasks⟩ := commit_eq_ok hcommit
  obtain ⟨-, horg, hid⟩ := getTask_eq_ok hget
  exact ⟨rfl, getTask_of_tasks hget hid horg htasks⟩

/-- **The row after some completions.** -/
lemma getTask_completions {organizationId taskId : ℕ} {calls : List Call}
    (hcalls : ∀ c ∈ calls, c.organizationId = organizationId) {db db' : Tables} {task : Task}
    (hget : db.getTask organizationId taskId = .ok task) (hopen : task.status ≠ .completed)
    (hfrequency : task.recurrenceFrequency = some .monthly)
    (hinterval : task.recurrenceInterval = some interval)
    (hrun : completions db taskId calls = .ok db') :
    ∃ row, db'.getTask organizationId taskId = .ok row
      ∧ row.dueAt = task.dueAt.map (fun u => monthsLater u interval)^[calls.length] := by
  induction calls generalizing db task with
  | nil =>
      obtain rfl := Except.ok.inj hrun
      exact ⟨task, hget, by simp⟩
  | cons c calls ih =>
      obtain ⟨⟨row, db₁⟩, hcomplete, hrest⟩ := bind_eq_ok.1 hrun
      obtain rfl := hcalls c List.mem_cons_self
      obtain ⟨rfl, hget₁⟩ := complete_monthly hget hopen hfrequency hinterval hcomplete
      obtain ⟨last, hlast, hdue⟩ := ih (fun c' hc' => hcalls c' (List.mem_cons_of_mem c hc')) hget₁
        nofun hfrequency hinterval hrest
      refine ⟨last, hlast, ?_⟩
      rw [hdue, reopened, Option.map_map, List.length_cons, Function.iterate_succ]
      rfl

/-- **The due date of a monthly task does not drift exactly when no month on the way is shorter** than
the day that is due in the end; and so for two steps against one. -/
theorem drift_iff {organizationId taskId interval : ℕ} {calls : List Call}
    (hcalls : ∀ c ∈ calls, c.organizationId = organizationId) {db db' : Tables} {task : Task}
    (hget : db.getTask organizationId taskId = .ok task) (hopen : task.status ≠ .completed)
    (hfrequency : task.recurrenceFrequency = some .monthly)
    (hinterval : task.recurrenceInterval = some interval) {start : Datetime}
    (hdue : task.dueAt = some start) (hrun : completions db taskId calls = .ok db') :
    ((db'.getTask organizationId taskId).map Task.dueAt
        = .ok (some (monthsLater start (calls.length * interval)))
      ↔ ∀ j, 0 < j → j < calls.length →
        min start.date.day (monthDays start.date (calls.length * interval))
          ≤ monthDays start.date (j * interval))
    ∧ ∀ months months' later, advanceTime start .monthly (months + months') = .ok later →
      ((advanceTime start .monthly months >>= fun t => advanceTime t .monthly months') = .ok later
        ↔ min start.date.day (monthDays start.date (months + months')) ≤ monthDays start.date months) := by
  constructor
  · obtain ⟨row, hrow, hlast⟩ := getTask_completions hcalls hget hopen hfrequency hinterval hrun
    rw [hrow, ← monthsLater_iterate_iff, Except.map, hlast, hdue, Option.map_some]
    constructor
    · intro h
      exact Option.some_injective _ (Except.ok.inj h)
    · intro h
      rw [h]
  · intro months months' later hlater
    exact advanceTime_add_iff hlater

/-- A task after two completions, and what they logged. -/
def completedTwice (task : Task) : Tables :=
  { tasks := [reopened .monthly 1 (reopened .monthly 1 task)]
    activity := [⟨1, 2, none, .taskCompleted, 1, "Recurring task occurrence completed", 7⟩,
      ⟨1, 2, none, .taskCompleted, 1, "Recurring task occurrence completed", 8⟩]
    leads := []
    users := [] }

/-- From the 28th of January by way of the 28th of February to the 28th of March. -/
theorem drift_iff_january28 :
    (((completedTwice (monthlyTask 27 28)).getTask 1 1).map Task.dueAt
        = .ok (some (monthsLater (atHour 2026 1 28 9) 2)))
      ∧ completions ⟨[monthlyTask 27 28], [], [], []⟩ 1 [⟨1, 2, 7⟩, ⟨1, 2, 8⟩]
        = .ok (completedTwice (monthlyTask 27 28)) := by
  have hrun : completions ⟨[monthlyTask 27 28], [], [], []⟩ 1 [⟨1, 2, 7⟩, ⟨1, 2, 8⟩]
      = .ok (completedTwice (monthlyTask 27 28)) := rfl
  have hget : Tables.getTask ⟨[monthlyTask 27 28], [], [], []⟩ 1 1 = .ok (monthlyTask 27 28) := rfl
  refine ⟨(drift_iff (by decide) hget (by decide) rfl rfl rfl hrun).1.2 ?_, hrun⟩
  intro j hpos hlt
  obtain rfl : j = 1 := by
    have hlt' : j < 2 := hlt
    omega
  decide

/-- From the 31st of January by way of the 28th of February to the 28th of March, which has a 31st. -/
theorem drifts_january31 :
    completions ⟨[monthlyTask 29 31], [], [], []⟩ 1 [⟨1, 2, 7⟩, ⟨1, 2, 8⟩]
        = .ok (completedTwice (monthlyTask 29 31))
      ∧ ((completedTwice (monthlyTask 29 31)).getTask 1 1).map Task.dueAt
        = .ok (some (atHour 2026 3 28 9))
      ∧ monthsLater (atHour 2026 1 31 9) 2 = atHour 2026 3 31 9
      ∧ atHour 2026 3 28 9 ≠ atHour 2026 3 31 9 := by
  exact ⟨rfl, rfl, rfl, by decide⟩

end Tasks
