import AgencyOS.Tasks.TaskService

/-!
What an update commits.

An update sets the fields that it asks for, checks the schedule, and completes the task or sets its
status.  It loses the fields when it asks to complete a task that is complete, since nothing is
committed then, and it cannot cancel a completed task, whose `completed_at` stays.

* `withFields`, `applyFields_spec`: the task with the fields that are asked for;
* `Asked`: the row that an update asks for;
* `Consistent`: `completed_at` is set exactly on completed tasks;
* `update_complete_iff`: an update that is accepted commits what it asks for, exactly when it meets
  neither of the two cases;
* `Sound`, `sound_requests`: the tables that calls leave.
-/

namespace Tasks

open Python

/-! ### The fields -/

/-- The interval that an update leaves: a new frequency comes with an interval of 1. -/
def nextInterval (u : TaskUpdate) (task : Task) : Option ℕ :=
  match u.recurrenceInterval, u.recurrenceFrequency with
  | some interval, _ => some interval
  | none, some _ => some 1
  | none, none => task.recurrenceInterval

/-- The task with every field that is asked for. -/
def withFields (u : TaskUpdate) (task : Task) : Task :=
  { task with
    title := (u.title.map fun title => String.ofList (strip title.toList)).getD task.title
    description := u.description.or task.description
    leadId := u.leadId.or task.leadId
    assigneeUserId := u.assigneeUserId.or task.assigneeUserId
    dueAt := u.dueAt.or task.dueAt
    reminderAt := u.reminderAt.or task.reminderAt
    priority := u.priority.getD task.priority
    recurrenceFrequency := u.recurrenceFrequency.or task.recurrenceFrequency
    recurrenceInterval := nextInterval u task }

variable {db : Tables} {organizationId : ℕ} {u : TaskUpdate} {s s' : Task × Bool}

lemma setTitle_spec (h : setTitle u s = .ok s') :
    s'.1 = { s.1 with
      title := (u.title.map fun title => String.ofList (strip title.toList)).getD s.1.title }
      ∧ ∀ title ∈ u.title, strip title.toList ≠ [] := by
  rw [setTitle] at h
  cases htitle : u.title with
  | none =>
      rw [htitle] at h
      obtain rfl := Except.ok.inj h
      exact ⟨rfl, nofun⟩
  | some title =>
      rw [htitle] at h
      obtain ⟨cleaned, hcleaned, rfl⟩ := map_eq_ok.1 h
      rw [cleanTitle] at hcleaned
      split_ifs at hcleaned with hblank
      obtain rfl := Except.ok.inj hcleaned
      refine ⟨rfl, fun _ hmem => ?_⟩
      obtain rfl := Option.some.inj hmem
      exact hblank

lemma setDescription_spec :
    (setDescription u s).1 = { s.1 with description := u.description.or s.1.description } := by
  rw [setDescription]
  cases u.description with
  | none => rfl
  | some description => rfl

lemma setLead_spec (h : setLead db organizationId u s = .ok s') :
    s'.1 = { s.1 with leadId := u.leadId.or s.1.leadId } := by
  rw [setLead] at h
  cases hlead : u.leadId with
  | none =>
      rw [hlead] at h
      obtain rfl := Except.ok.inj h
      rfl
  | some leadId =>
      rw [hlead] at h
      obtain ⟨_, -, rfl⟩ := map_eq_ok.1 h
      split_ifs with hnew
      · rfl
      · rw [not_not] at hnew
        rw [Option.some_or, ← hnew]

lemma setAssignee_spec (h : setAssignee db organizationId u s = .ok s') :
    s'.1 = { s.1 with assigneeUserId := u.assigneeUserId.or s.1.assigneeUserId } := by
  rw [setAssignee] at h
  cases huser : u.assigneeUserId with
  | none =>
      rw [huser] at h
      obtain rfl := Except.ok.inj h
      rfl
  | some userId =>
      rw [huser] at h
      obtain ⟨_, -, rfl⟩ := map_eq_ok.1 h
      split_ifs with hnew
      · rfl
      · rw [not_not] at hnew
        rw [Option.some_or, ← hnew]

lemma setDueAt_spec : (setDueAt u s).1 = { s.1 with dueAt := u.dueAt.or s.1.dueAt } := by
  rw [setDueAt]
  cases u.dueAt with
  | none => rfl
  | some dueAt => rfl

lemma setReminderAt_spec :
    (setReminderAt u s).1 = { s.1 with reminderAt := u.reminderAt.or s.1.reminderAt } := by
  rw [setReminderAt]
  cases u.reminderAt with
  | none => rfl
  | some reminderAt => rfl

lemma setPriority_spec :
    (setPriority u s).1 = { s.1 with priority := u.priority.getD s.1.priority } := by
  rw [setPriority]
  cases u.priority with
  | none => rfl
  | some priority =>
      dsimp only
      split_ifs with hnew
      · rfl
      · rw [not_not] at hnew
        rw [Option.getD_some, ← hnew]

/-- Frequency and interval end as a pair. -/
lemma setInterval_spec (h : setInterval u (setFrequency u s) = .ok s') :
    s'.1 = { s.1 with
        recurrenceFrequency := u.recurrenceFrequency.or s.1.recurrenceFrequency
        recurrenceInterval := nextInterval u s.1 }
      ∧ (u.recurrenceInterval ≠ none → s'.1.recurrenceFrequency ≠ none) := by
  rw [setInterval, setFrequency, nextInterval] at *
  cases hinterval : u.recurrenceInterval with
  | none =>
      cases hfrequency : u.recurrenceFrequency with
      | none =>
          rw [hinterval, hfrequency] at h
          obtain rfl := Except.ok.inj h
          exact ⟨rfl, fun hne => absurd rfl hne⟩
      | some frequency =>
          rw [hinterval, hfrequency] at h
          obtain rfl := Except.ok.inj h
          exact ⟨rfl, fun hne => absurd rfl hne⟩
  | some interval =>
      cases hfrequency : u.recurrenceFrequency with
      | none =>
          rw [hinterval, hfrequency] at h
          dsimp only at h
          split_ifs at h with hnone
          obtain rfl := Except.ok.inj h
          exact ⟨rfl, fun _ => hnone⟩
      | some frequency =>
          rw [hinterval, hfrequency] at h
          obtain rfl := Except.ok.inj h
          exact ⟨rfl, fun _ => nofun⟩

/-- **The fields that are asked for are set**, and no others. -/
theorem applyFields_spec {task t : Task} {changed : Bool}
    (h : applyFields db organizationId u task = .ok (t, changed)) :
    t = withFields u task ∧ (∀ title ∈ u.title, strip title.toList ≠ [])
      ∧ (u.recurrenceInterval ≠ none → t.recurrenceFrequency ≠ none) := by
  rw [applyFields] at h
  obtain ⟨s₁, h₁, h⟩ := bind_eq_ok.1 h
  obtain ⟨s₂, h₂, h⟩ := bind_eq_ok.1 h
  obtain ⟨s₃, h₃, h⟩ := bind_eq_ok.1 h
  obtain ⟨htitle, hclean⟩ := setTitle_spec h₁
  obtain ⟨hinterval, hpaired⟩ := setInterval_spec h
  refine ⟨?_, hclean, hpaired⟩
  have hlead := setLead_spec h₂
  have hassignee := setAssignee_spec h₃
  rw [setDescription_spec, htitle] at hlead
  rw [hlead] at hassignee
  rw [setPriority_spec, setReminderAt_spec, setDueAt_spec, hassignee] at hinterval
  exact hinterval

/-! ### What the service raises -/

/-- The errors of the checks on the fields. -/
def fieldErrors : List Exn :=
  [.appError "task.title_required" "Task title is required" 400,
    .appError "lead.not_found" "Lead not found" 404,
    .appError "user.not_found" "User not found" 404,
    .appError "task.invalid_assignee" "Assignee is not an active team member" 400,
    .appError "task.recurrence_requires_frequency"
      "A recurrence interval requires a recurrence frequency" 400]

lemma applyFields_ne_error {e : Exn} (he : e ∉ fieldErrors) (db : Tables) (organizationId : ℕ)
    (u : TaskUpdate) (task : Task) : applyFields db organizationId u task ≠ .error e := by
  have hraise : ∀ {α : Type} {e' : Exn}, e' ∈ fieldErrors → (.error e' : Except Exn α) ≠ .error e :=
    fun hmem heq => he (Except.error.inj heq ▸ hmem)
  rw [applyFields]
  refine bind_ne_error ?_ fun s => bind_ne_error ?_ fun s => bind_ne_error ?_ fun s => ?_
  · rw [setTitle]
    cases u.title with
    | none => exact nofun
    | some title =>
        refine map_ne_error ?_
        rw [cleanTitle]
        split_ifs
        · exact hraise (by simp [fieldErrors])
        · exact nofun
  · rw [setLead]
    cases u.leadId with
    | none => exact nofun
    | some leadId =>
        refine map_ne_error ?_
        rw [validateLead]
        split_ifs
        · exact nofun
        · exact hraise (by simp [fieldErrors])
  · rw [setAssignee]
    cases u.assigneeUserId with
    | none => exact nofun
    | some userId =>
        refine map_ne_error ?_
        rw [validateAssignee]
        split
        · exact hraise (by simp [fieldErrors])
        · split_ifs
          · exact nofun
          · exact hraise (by simp [fieldErrors])
  · rw [setInterval]
    cases u.recurrenceInterval with
    | none => exact nofun
    | some interval =>
        dsimp only
        split_ifs
        · exact hraise (by simp [fieldErrors])
        · exact nofun

/-- Moving a task on raises what `datetime` raises. -/
lemma closed_ne_error {e : Exn} (he : e ≠ .overflowError) (he' : e ≠ .valueError) (now : Datetime)
    (task : Task) : closed now task ≠ .error e := by
  have htime : ∀ t frequency interval, advanceTime t frequency interval ≠ .error e := by
    intro t frequency interval
    cases frequency with
    | daily =>
        dsimp only [advanceTime, plusDays]
        split_ifs <;> simp [he.symm]
    | weekly =>
        dsimp only [advanceTime, plusDays]
        split_ifs <;> simp [he.symm]
    | monthly =>
        dsimp only [advanceTime, replaceDate]
        split_ifs <;> simp [he'.symm]
  have htime? : ∀ (t : Option Datetime) frequency interval,
      advanceTime? t frequency interval ≠ .error e := by
    intro t frequency interval
    cases t with
    | none => exact nofun
    | some t => exact map_ne_error (htime t frequency interval)
  rw [closed, advanceRecurrence]
  refine bind_ne_error ?_ fun s => nofun
  split
  · exact bind_ne_error (htime? _ _ _) fun _ => bind_ne_error (htime? _ _ _) fun _ => nofun
  · exact nofun

lemma commit_ne_error {e : Exn} (he : e ≠ .dbapiError) (db : Tables) (task : Task)
    (logs : List ActivityLog) : db.commit task logs ≠ .error e := by
  rw [Tables.commit]
  split_ifs
  · exact nofun
  · simp [he.symm]

/-! ### What the database takes -/

/-- The database has a column for what is asked for. -/
structure Storable (u : TaskUpdate) : Prop where
  title : ∀ title ∈ u.title, storable (String.ofList (strip title.toList)) = true
  description : ∀ description ∈ u.description, storable description = true
  interval : ∀ interval ∈ u.recurrenceInterval, 1 ≤ interval ∧ interval ≤ maxInteger

/-- The checks of a row that its status plays no part in. -/
def Task.fieldsStored (t : Task) : Bool :=
  storable t.title && notBlank t.title && t.description.all storable && t.recurrencePaired

lemma stored_iff (t : Task) :
    t.stored = true ↔ t.fieldsStored = true ∧ t.completedAtConsistent = true := by
  simp only [Task.stored, Task.fieldsStored, Bool.and_eq_true]
  tauto

lemma recurrencePaired_iff (t : Task) :
    t.recurrencePaired = true ↔ (t.recurrenceFrequency = none ↔ t.recurrenceInterval = none)
      ∧ ∀ interval ∈ t.recurrenceInterval, 1 ≤ interval ∧ interval ≤ maxInteger := by
  rw [Task.recurrencePaired, Bool.and_eq_true, decide_eq_true_eq, Bool.eq_iff_iff,
    Option.isNone_iff_eq_none, Option.isNone_iff_eq_none, Option.all_eq_true]
  simp

/-- A title that was stripped is not blank. -/
lemma notBlank_strip {title : String} (h : strip title.toList ≠ []) :
    notBlank (String.ofList (strip title.toList)) = true := by
  rw [notBlank, String.toList_ofList]
  by_contra hblank
  have hspaces : ∀ c ∈ strip title.toList, isSpace c = true := by
    intro c hc
    have hne : ¬ decide (c ≠ ' ') = true := fun hc' => hblank (List.any_eq_true.2 ⟨c, hc, hc'⟩)
    rw [decide_eq_true_eq, not_not] at hne
    rw [hne]
    decide
  -- the last character of a stripped text is no space
  exact List.rdropWhile_last_not isSpace _ h (hspaces _ (List.getLast_mem h))

section

variable {task : Task} (hstored : task.fieldsStored = true)

include hstored

lemma title_stored (hclean : ∀ title ∈ u.title, strip title.toList ≠ []) :
    (storable (withFields u task).title && notBlank (withFields u task).title) = true
      ↔ ∀ title ∈ u.title, storable (String.ofList (strip title.toList)) = true := by
  rw [withFields]
  cases htitle : u.title with
  | none =>
      simp only [Task.fieldsStored, Bool.and_eq_true] at hstored
      simp [hstored.1.1]
  | some title =>
      have hblank := notBlank_strip (hclean title htitle)
      simp [hblank]

lemma description_stored :
    (withFields u task).description.all storable = true
      ↔ ∀ description ∈ u.description, storable description = true := by
  rw [withFields]
  cases u.description with
  | none =>
      simp only [Task.fieldsStored, Bool.and_eq_true] at hstored
      simpa using hstored.1.2
  | some description => simp

lemma recurrence_stored
    (hpaired : u.recurrenceInterval ≠ none → (withFields u task).recurrenceFrequency ≠ none) :
    (withFields u task).recurrencePaired = true
      ↔ ∀ interval ∈ u.recurrenceInterval, 1 ≤ interval ∧ interval ≤ maxInteger := by
  simp only [Task.fieldsStored, Bool.and_eq_true] at hstored
  have hnext : (withFields u task).recurrenceInterval = nextInterval u task := rfl
  have hfrequency : (withFields u task).recurrenceFrequency
      = u.recurrenceFrequency.or task.recurrenceFrequency := rfl
  rw [recurrencePaired_iff, hnext]
  rcases Option.eq_none_or_eq_some u.recurrenceInterval with hinterval | ⟨interval, hinterval⟩
  · rcases Option.eq_none_or_eq_some u.recurrenceFrequency with hnone | ⟨frequency, hsome⟩
    · have hkept : nextInterval u task = task.recurrenceInterval := by
        rw [nextInterval, hinterval, hnone]
      rw [hkept, hinterval, hfrequency, hnone, Option.none_or, ← recurrencePaired_iff]
      simpa using hstored.2
    · have hone : nextInterval u task = some 1 := by rw [nextInterval, hinterval, hsome]
      rw [hone, hinterval, hfrequency, hsome]
      simp [maxInteger]
  · have hset : nextInterval u task = some interval := by rw [nextInterval, hinterval]
    have hsome := hpaired (by rw [hinterval]; exact nofun)
    rw [hset, hinterval]
    simp [hsome]

/-- **The row has a place in the database** exactly when what is asked for has. -/
lemma fieldsStored_withFields (hclean : ∀ title ∈ u.title, strip title.toList ≠ [])
    (hpaired : u.recurrenceInterval ≠ none → (withFields u task).recurrenceFrequency ≠ none) :
    (withFields u task).fieldsStored = true ↔ Storable u := by
  rw [Task.fieldsStored, Bool.and_eq_true, Bool.and_eq_true, title_stored hstored hclean,
    description_stored hstored, recurrence_stored hstored hpaired]
  exact ⟨fun h => ⟨h.1.1, h.1.2, h.2⟩, fun h => ⟨⟨h.title, h.description⟩, h.interval⟩⟩

end

/-! ### The committed row -/

/-- `completed_at` is set exactly on completed tasks. -/
def Consistent (t : Task) : Prop := t.completedAt ≠ none ↔ t.status = .completed

/-- The row that an update asks for: the fields, and then the status.  A task that is to be completed
is closed, or moved on, unless it is complete. -/
def Asked (now : Datetime) (u : TaskUpdate) (task row : Task) : Prop :=
  match u.status with
  | none => row = withFields u task
  | some .completed =>
      if task.status = .completed then row = withFields u task
      else ∃ recurred, closed now (withFields u task) = .ok (row, recurred)
  | some status => row = { withFields u task with status := status, completedAt := none }

lemma getTask_eq_ok {taskId : ℕ} {task : Task} (h : db.getTask organizationId taskId = .ok task) :
    task ∈ db.tasks ∧ task.organizationId = organizationId ∧ task.id = taskId := by
  rw [Tables.getTask] at h
  split at h
  · next found hfound =>
    obtain rfl := Except.ok.inj h
    have hpred := List.find?_some hfound
    rw [Bool.and_eq_true, decide_eq_true_eq, decide_eq_true_eq] at hpred
    exact ⟨List.mem_of_find?_eq_some hfound, hpred⟩
  · exact nomatch h

lemma commit_eq_ok {row row' : Task} {logs : List ActivityLog} {db' : Tables}
    (h : db.commit row logs = .ok (row', db')) : row.stored = true ∧ row' = row
      ∧ db'.tasks = db.tasks.map fun t => if t.id = row.id then row else t := by
  rw [Tables.commit] at h
  split_ifs at h with hstored
  cases h
  exact ⟨hstored, rfl, rfl⟩

/-- A row that was committed is read back. -/
lemma getTask_of_tasks {taskId : ℕ} {task row : Task} {db' : Tables}
    (hget : db.getTask organizationId taskId = .ok task) (hid : row.id = taskId)
    (horg : row.organizationId = organizationId)
    (htasks : db'.tasks = db.tasks.map fun t => if t.id = row.id then row else t) :
    db'.getTask organizationId taskId = .ok row := by
  obtain ⟨hmem, -, htask⟩ := getTask_eq_ok hget
  have hpred : ((fun t : Task => decide (t.organizationId = organizationId) && decide (t.id = taskId))
      ∘ fun t => if t.id = row.id then row else t) = fun t => decide (t.id = taskId) := by
    funext t
    by_cases ht : t.id = taskId <;> simp [Function.comp_apply, ht, hid, horg]
  rw [Tables.getTask, htasks, List.find?_map, hpred]
  cases hfind : db.tasks.find? fun t => decide (t.id = taskId) with
  | none =>
      rw [List.find?_eq_none] at hfind
      exact absurd htask (by simpa using hfind task hmem)
  | some found =>
      have hfound : found.id = taskId := by simpa using List.find?_some hfind
      simp [hfound, hid]

lemma advanceRecurrence_spec {task next : Task} {recurred : Bool}
    (h : advanceRecurrence task = .ok (next, recurred)) :
    next = { task with dueAt := next.dueAt, reminderAt := next.reminderAt } := by
  rw [advanceRecurrence] at h
  split at h
  · obtain ⟨dueAt, -, h⟩ := bind_eq_ok.1 h
    obtain ⟨reminderAt, -, h⟩ := bind_eq_ok.1 h
    cases h
    rfl
  · cases h
    rfl

/-- A task that is closed keeps its other fields, and is consistent. -/
lemma closed_spec {now : Datetime} {task row : Task} {recurred : Bool}
    (h : closed now task = .ok (row, recurred)) :
    row = { task with
        dueAt := row.dueAt, reminderAt := row.reminderAt
        status := row.status, completedAt := row.completedAt } ∧ Consistent row
      ∧ row.completedAtConsistent = true := by
  rw [closed] at h
  obtain ⟨⟨next, recurred⟩, hnext, h⟩ := bind_eq_ok.1 h
  have hspec := advanceRecurrence_spec hnext
  cases h
  rw [hspec]
  cases recurred with
  | true => exact ⟨rfl, by simp [Consistent], by simp [Task.completedAtConsistent]⟩
  | false => exact ⟨rfl, by simp [Consistent], by simp [Task.completedAtConsistent]⟩

/-- The row of an update that does not complete the task. -/
def settled (u : TaskUpdate) (task : Task) : Task :=
  { withFields u task with
    status := u.status.getD task.status
    completedAt :=
      if u.status.getD task.status = .todo ∨ u.status.getD task.status = .inProgress then none
      else task.completedAt }

/-- The status of an update, and no `completed_at` on an open task. -/
lemma applyStatus_spec (status : Option TaskStatus) (t : Task) (changed : Bool) :
    (applyStatus status t changed).1 = { t with
      status := status.getD t.status
      completedAt :=
        if status.getD t.status = .todo ∨ status.getD t.status = .inProgress then none
        else t.completedAt } := by
  have hset : ∀ (t : Task) (changed : Bool),
      (if (t.status = .todo ∨ t.status = .inProgress) ∧ t.completedAt ≠ none then
          (({ t with completedAt := none } : Task), changed) else (t, changed)).1
        = { t with
            completedAt := if t.status = .todo ∨ t.status = .inProgress then none
              else t.completedAt } := by
    intro t changed
    by_cases hopen : t.status = .todo ∨ t.status = .inProgress
    · by_cases hnone : t.completedAt = none
      · rw [if_neg (fun h => h.2 hnone), if_pos hopen, ← hnone]
      · rw [if_pos ⟨hopen, hnone⟩, if_pos hopen]
    · rw [if_neg (fun h => hopen h.1), if_neg hopen]
  rw [applyStatus.eq_def]
  cases status with
  | none => exact hset t changed
  | some status =>
      dsimp only
      by_cases hsame : t.status = status
      · rw [if_neg (not_not.2 hsame)]
        dsimp only
        rw [hset, Option.getD_some, hsame]
      · rw [if_pos hsame]
        exact hset { t with status := status } true

/-- What an update does with the fields set. -/
lemma update_eq {c : Call} {taskId : ℕ} {task : Task} {s : Task × Bool}
    (hget : db.getTask c.organizationId taskId = .ok task)
    (happly : applyFields db c.organizationId u task = .ok s) :
    update c db taskId u = (validateSchedule s.1.dueAt s.1.reminderAt >>= fun _ =>
      if u.status = some .completed then finalizeCompletion c db s.1
      else
        let (row, changed) := applyStatus u.status s.1 s.2
        db.commit row (if changed then [c.log row .taskUpdated "Task updated"] else [])) := by
  rw [update, hget]
  change (applyFields db c.organizationId u task >>= _) = _
  rw [happly]
  rfl

lemma update_error {c : Call} {taskId : ℕ} {task : Task} {e : Exn}
    (hget : db.getTask c.organizationId taskId = .ok task)
    (happly : applyFields db c.organizationId u task = .error e) :
    update c db taskId u = .error e := by
  rw [update, hget]
  change (applyFields db c.organizationId u task >>= _) = _
  rw [happly]
  rfl

/-- A task on schedule, with the dates of an update, is not refused for them. -/
lemma update_ne_reminderAfterDue {c : Call} {taskId : ℕ} {task : Task}
    (hget : db.getTask c.organizationId taskId = .ok task)
    (hsched : scheduled (u.dueAt.or task.dueAt) (u.reminderAt.or task.reminderAt)) :
    update c db taskId u ≠ .error reminderAfterDue := by
  cases happly : applyFields db c.organizationId u task with
  | error e =>
      intro h
      rw [update_error hget happly] at h
      rw [Except.error.inj h] at happly
      exact applyFields_ne_error (by decide) db c.organizationId u task happly
  | ok s =>
      obtain ⟨t, changed⟩ := s
      obtain ⟨rfl, -⟩ := applyFields_spec happly
      have hvalid : validateSchedule (withFields u task).dueAt (withFields u task).reminderAt
          = .ok () := if_pos hsched
      rw [update_eq hget happly, hvalid]
      change (if u.status = some .completed then _ else _) ≠ _
      by_cases hcompleted : u.status = some .completed
      · rw [if_pos hcompleted, finalizeCompletion]
        by_cases hdone : (withFields u task).status = .completed
        · rw [if_pos hdone]
          exact nofun
        · rw [if_neg hdone]
          exact bind_ne_error (closed_ne_error (e := reminderAfterDue) nofun nofun _ _)
            fun _ => commit_ne_error (e := reminderAfterDue) nofun _ _ _
      · rw [if_neg hcompleted]
        exact commit_ne_error (e := reminderAfterDue) nofun _ _ _

/-- What the checks of an update let through. -/
lemma accepted_spec {c : Call} {taskId : ℕ} {task : Task}
    (hget : db.getTask c.organizationId taskId = .ok task)
    (haccept : ∀ e, update c db taskId u = .error e → e = .dbapiError) :
    (∀ title ∈ u.title, strip title.toList ≠ [])
      ∧ (u.recurrenceInterval ≠ none → (withFields u task).recurrenceFrequency ≠ none)
      ∧ ∃ logs, update c db taskId u =
        if u.status = some .completed then finalizeCompletion c db (withFields u task)
        else db.commit (settled u task) logs := by
  cases happly : applyFields db c.organizationId u task with
  | error e =>
      rw [haccept e (update_error hget happly)] at happly
      exact absurd happly (applyFields_ne_error (by decide) db c.organizationId u task)
  | ok s =>
      obtain ⟨t, changed⟩ := s
      obtain ⟨rfl, hclean, hpaired⟩ := applyFields_spec happly
      have hupdate := update_eq hget happly
      by_cases hsched : scheduled (withFields u task).dueAt (withFields u task).reminderAt
      · have hrow : (applyStatus u.status (withFields u task) changed).1 = settled u task :=
          applyStatus_spec u.status (withFields u task) changed
        rw [validateSchedule, if_pos hsched] at hupdate
        generalize applyStatus u.status (withFields u task) changed = s at hrow hupdate
        obtain ⟨row, changed'⟩ := s
        obtain rfl : row = settled u task := hrow
        exact ⟨hclean, hpaired, _, hupdate⟩
      · rw [validateSchedule, if_neg hsched] at hupdate
        exact nomatch haccept _ hupdate

/-! ### The update -/

/-- The update commits the row that it asks for, and that row is consistent. -/
def Complete (c : Call) (db : Tables) (taskId : ℕ) (u : TaskUpdate) (task : Task) : Prop :=
  ∃ row db', update c db taskId u = .ok (row, db')
    ∧ db'.getTask c.organizationId taskId = .ok row ∧ Asked c.now u task row ∧ Consistent row

/-- The cases of the status: a completed task is completed again only by an update without a change,
and a task with a `completed_at` is not cancelled. -/
def Keeps (u : TaskUpdate) (task : Task) : Prop :=
  match u.status with
  | none => task.status = .completed → task.completedAt ≠ none
  | some .todo => True
  | some .inProgress => True
  | some .completed =>
      task.status = .completed → withFields u task = task ∧ task.completedAt ≠ none
  | some .cancelled => task.completedAt = none

variable {c : Call} {taskId : ℕ} {task : Task}

/-- A commit that keeps the identity of the task is read back, and refused exactly by the checks. -/
lemma commit_iff (hget : db.getTask c.organizationId taskId = .ok task) (row : Task)
    (hid : row.id = task.id) (horg : row.organizationId = task.organizationId)
    (logs : List ActivityLog) (P : Task → Prop) :
    (∃ row' db', db.commit row logs = .ok (row', db')
        ∧ db'.getTask c.organizationId taskId = .ok row' ∧ P row')
      ↔ row.stored = true ∧ P row := by
  obtain ⟨-, htaskOrg, htaskId⟩ := getTask_eq_ok hget
  constructor
  · rintro ⟨row', db', hcommit, -, hP⟩
    obtain ⟨hstored, rfl, -⟩ := commit_eq_ok hcommit
    exact ⟨hstored, hP⟩
  · rintro ⟨hstored, hP⟩
    refine ⟨row, _, if_pos hstored, ?_, hP⟩
    exact getTask_of_tasks hget (hid.trans htaskId) (horg.trans htaskOrg) rfl

lemma fieldsStored_congr {t t' : Task} (htitle : t'.title = t.title)
    (hdescription : t'.description = t.description)
    (hfrequency : t'.recurrenceFrequency = t.recurrenceFrequency)
    (hinterval : t'.recurrenceInterval = t.recurrenceInterval) :
    t'.fieldsStored = t.fieldsStored := by
  rw [Task.fieldsStored, Task.fieldsStored, Task.recurrencePaired, Task.recurrencePaired, htitle,
    hdescription, hfrequency, hinterval]

lemma settled_fieldsStored (u : TaskUpdate) (task : Task) :
    (settled u task).fieldsStored = (withFields u task).fieldsStored :=
  fieldsStored_congr rfl rfl rfl rfl

/-- Only a cancelled task keeps a `completed_at` that it should not have. -/
lemma settled_iff {now : Datetime} (hne : u.status ≠ some .completed)
    (hcompletedAt : task.completedAt = none ∨ task.status = .completed) :
    ((settled u task).completedAtConsistent = true ∧ Asked now u task (settled u task)
        ∧ Consistent (settled u task)) ↔ Keeps u task := by
  rw [Asked, Consistent, Task.completedAtConsistent, Keeps, settled]
  cases hstatus : u.status with
  | none =>
      dsimp only [Option.getD_none]
      cases htask : task.status with
      | todo =>
          have hnone := hcompletedAt.resolve_right (by simp [htask])
          simp [withFields, hnone, htask]
      | inProgress =>
          have hnone := hcompletedAt.resolve_right (by simp [htask])
          simp [withFields, hnone, htask]
      | completed => simp [withFields, htask]
      | cancelled =>
          have hnone := hcompletedAt.resolve_right (by simp [htask])
          simp [withFields, hnone, htask]
  | some status =>
      cases status with
      | todo => simp
      | inProgress => simp
      | completed => exact absurd hstatus hne
      | cancelled => simp

lemma complete_iff_of_ne (hget : db.getTask c.organizationId taskId = .ok task)
    {logs : List ActivityLog}
    (hupdate : update c db taskId u = db.commit (settled u task) logs) :
    Complete c db taskId u task
      ↔ (settled u task).stored = true ∧ Asked c.now u task (settled u task)
        ∧ Consistent (settled u task) := by
  rw [Complete, hupdate]
  exact commit_iff hget (settled u task) rfl rfl _ fun row => Asked c.now u task row ∧ Consistent row

/-- A task that is complete is returned, and nothing is committed. -/
lemma complete_iff_of_completed (hget : db.getTask c.organizationId taskId = .ok task)
    (hstatus : u.status = some .completed) (hdone : task.status = .completed)
    (hupdate : update c db taskId u = finalizeCompletion c db (withFields u task)) :
    Complete c db taskId u task ↔ withFields u task = task ∧ task.completedAt ≠ none := by
  have hdone' : (withFields u task).status = .completed := hdone
  rw [Complete, hupdate, finalizeCompletion, if_pos hdone']
  constructor
  · rintro ⟨row, db', hok, hrow, -, hconsistent⟩
    cases hok
    rw [hget] at hrow
    have hsame : task = withFields u task := Except.ok.inj hrow
    exact ⟨hsame.symm, hconsistent.2 hdone'⟩
  · rintro ⟨hsame, hsome⟩
    refine ⟨withFields u task, db, rfl, by rw [hsame, hget], ?_, ?_⟩
    · rw [Asked, hstatus]
      dsimp only
      rw [if_pos hdone]
    · exact iff_of_true hsome hdone'

/-- A task that is not complete is closed, or moved on. -/
lemma complete_iff_of_closed (hget : db.getTask c.organizationId taskId = .ok task)
    (hstatus : u.status = some .completed) (hopen : task.status ≠ .completed)
    (hupdate : update c db taskId u = finalizeCompletion c db (withFields u task))
    (haccept : ∀ e, update c db taskId u = .error e → e = .dbapiError) :
    Complete c db taskId u task ↔ (withFields u task).fieldsStored = true := by
  have hopen' : (withFields u task).status ≠ .completed := hopen
  rw [finalizeCompletion, if_neg hopen'] at hupdate
  rw [hupdate] at haccept
  rw [Complete, hupdate]
  cases hclosed : closed c.now (withFields u task) with
  | error e =>
      rw [hclosed] at haccept
      exact absurd (haccept e rfl ▸ hclosed)
        (closed_ne_error (e := .dbapiError) nofun nofun c.now (withFields u task))
  | ok s =>
      obtain ⟨row, recurred⟩ := s
      obtain ⟨hrow, hconsistent, hcheck⟩ := closed_spec hclosed
      have hid : row.id = task.id := by rw [hrow]; rfl
      have horg : row.organizationId = task.organizationId := by rw [hrow]; rfl
      have hfields : row.fieldsStored = (withFields u task).fieldsStored := by
        rw [hrow]
        exact fieldsStored_congr rfl rfl rfl rfl
      have hasked : Asked c.now u task row := by
        rw [Asked, hstatus]
        dsimp only
        rw [if_neg hopen]
        exact ⟨recurred, hclosed⟩
      refine (commit_iff hget row hid horg _ fun row => Asked c.now u task row ∧ Consistent row).trans ?_
      rw [stored_iff, hfields]
      exact ⟨fun h => h.1.1, fun h => ⟨⟨h, hcheck⟩, hasked, hconsistent⟩⟩

/-- **An update is complete exactly when** the database has a place for what it asks for, it does not
change a task that it completes a second time, and it does not cancel a task with a `completed_at`. -/
theorem update_complete_iff (c : Call) (db : Tables) (taskId : ℕ) (u : TaskUpdate) {task : Task}
    (hget : db.getTask c.organizationId taskId = .ok task) (hstored : task.stored = true)
    (haccept : ∀ e, update c db taskId u = .error e → e = .dbapiError) :
    Complete c db taskId u task ↔ Storable u ∧ Keeps u task := by
  obtain ⟨hclean, hpaired, logs, hupdate⟩ := accepted_spec hget haccept
  obtain ⟨hfields, hconsistent⟩ := (stored_iff task).1 hstored
  have hstorable := fieldsStored_withFields hfields hclean hpaired
  have hcompletedAt : task.completedAt = none ∨ task.status = .completed := by
    simpa [Task.completedAtConsistent] using hconsistent
  rw [← hstorable, Keeps]
  by_cases hcompleted : u.status = some .completed
  · rw [hcompleted]
    rw [if_pos hcompleted] at hupdate
    by_cases hdone : task.status = .completed
    · rw [complete_iff_of_completed hget hcompleted hdone hupdate]
      constructor
      · rintro ⟨hsame, hsome⟩
        exact ⟨hsame.symm ▸ hfields, fun _ => ⟨hsame, hsome⟩⟩
      · rintro ⟨-, hkeeps⟩
        exact hkeeps hdone
    · rw [complete_iff_of_closed hget hcompleted hdone hupdate haccept]
      exact ⟨fun h => ⟨h, fun hdone' => absurd hdone' hdone⟩, fun h => h.1⟩
  · rw [if_neg hcompleted] at hupdate
    rw [complete_iff_of_ne hget hupdate, stored_iff, settled_fieldsStored, and_assoc]
    exact and_congr_right fun _ => settled_iff hcompleted hcompletedAt

def exampleTask : Task :=
  { id := 1, organizationId := 1, leadId := none, assigneeUserId := none, createdByUserId := none
    title := "A", description := none, status := .completed, priority := .low, dueAt := none
    reminderAt := none, completedAt := some 5, recurrenceFrequency := none
    recurrenceInterval := none }

/-- A task is opened again under another title. -/
theorem update_complete_reopened :
    Complete ⟨1, 2, 7⟩ ⟨[exampleTask], [], [], []⟩ 1
      ⟨some " B ", none, none, none, none, none, none, some .todo, none, none⟩ exampleTask := by
  refine (update_complete_iff ⟨1, 2, 7⟩ ⟨[exampleTask], [], [], []⟩ 1
    ⟨some " B ", none, none, none, none, none, none, some .todo, none, none⟩ rfl rfl ?_).2
    ⟨⟨?_, nofun, nofun⟩, trivial⟩
  · intro e he
    exact nomatch he
  · intro title htitle
    obtain rfl := Option.some.inj htitle
    rfl

/-- A new title is lost with a second completion, and a completed task is not cancelled. -/
theorem update_incomplete :
    (¬ Complete ⟨1, 2, 7⟩ ⟨[exampleTask], [], [], []⟩ 1
        ⟨some "B", none, none, none, none, none, none, some .completed, none, none⟩ exampleTask)
      ∧ update ⟨1, 2, 7⟩ ⟨[exampleTask], [], [], []⟩ 1
          ⟨none, none, none, none, none, none, none, some .cancelled, none, none⟩
        = .error .dbapiError := by
  refine ⟨?_, rfl⟩
  rintro ⟨row, db', hok, hrow, -⟩
  have hreturned : update ⟨1, 2, 7⟩ ⟨[exampleTask], [], [], []⟩ 1
      ⟨some "B", none, none, none, none, none, none, some .completed, none, none⟩
        = .ok ({ exampleTask with title := "B" }, ⟨[exampleTask], [], [], []⟩) := rfl
  rw [hreturned] at hok
  cases hok
  have htitle := congrArg Task.title (Except.ok.inj hrow)
  exact absurd htitle (by decide)

/-! ### Runs -/

/-- A call of the service on a task. -/
inductive Request where
  | update (taskId : ℕ) (u : TaskUpdate)
  | complete (taskId : ℕ)
  deriving DecidableEq, Repr

/-- The tables after a call; one that raises leaves them. -/
def Tables.after (db : Tables) (r : Call × Request) : Tables :=
  match r.2 with
  | .update taskId u => ((update r.1 db taskId u).toOption.map Prod.snd).getD db
  | .complete taskId => ((complete r.1 db taskId).toOption.map Prod.snd).getD db

/-- The rows are consistent, and the database took them. -/
def Sound (db : Tables) : Prop := ∀ t ∈ db.tasks, Consistent t ∧ t.stored = true

lemma sound_commit {row row' : Task} {logs : List ActivityLog} {db' : Tables} (h : Sound db)
    (hcommit : db.commit row logs = .ok (row', db')) (hrow : row.stored = true → Consistent row) :
    Sound db' := by
  obtain ⟨hstored, -, htasks⟩ := commit_eq_ok hcommit
  intro t ht
  rw [htasks] at ht
  obtain ⟨t', ht', rfl⟩ := List.mem_map.1 ht
  split_ifs
  · exact ⟨hrow hstored, hstored⟩
  · exact h t' ht'

lemma sound_finalize {row : Task} {db' : Tables} (h : Sound db)
    (hok : finalizeCompletion c db task = .ok (row, db')) : Sound db' := by
  rw [finalizeCompletion] at hok
  split_ifs at hok
  · cases hok
    exact h
  · obtain ⟨⟨next, recurred⟩, hclosed, hcommit⟩ := bind_eq_ok.1 hok
    exact sound_commit h hcommit fun _ => (closed_spec hclosed).2.1

/-- A settled row that the database takes is consistent, when the task was. -/
lemma consistent_settled (h : Consistent task) (hne : u.status ≠ some .completed)
    (hstored : (settled u task).stored = true) : Consistent (settled u task) := by
  have hcheck := ((stored_iff _).1 hstored).2
  simp only [Task.completedAtConsistent, Bool.or_eq_true, decide_eq_true_eq] at hcheck
  constructor
  · exact fun hsome => hcheck.resolve_left hsome
  · intro hdone
    have hkept : u.status = none := by
      cases hstatus : u.status with
      | none => rfl
      | some status =>
          rw [settled, hstatus] at hdone
          exact absurd (hstatus.trans (congrArg some hdone)) hne
    rw [settled, hkept] at hdone ⊢
    have hdone : task.status = .completed := hdone
    simpa [hdone] using h.2 hdone

lemma sound_update {taskId : ℕ} {row : Task} {db' : Tables} (h : Sound db)
    (hok : update c db taskId u = .ok (row, db')) : Sound db' := by
  cases hget : db.getTask c.organizationId taskId with
  | error e =>
      rw [update, hget] at hok
      exact nomatch hok
  | ok task =>
      have hmem := (getTask_eq_ok hget).1
      obtain ⟨-, -, logs, hupdate⟩ := accepted_spec (u := u) hget fun e he => by
        rw [hok] at he
        exact nomatch he
      rw [hupdate] at hok
      by_cases hcompleted : u.status = some .completed
      · rw [if_pos hcompleted] at hok
        exact sound_finalize h hok
      · rw [if_neg hcompleted] at hok
        exact sound_commit h hok (consistent_settled (h task hmem).1 hcompleted)

lemma sound_after (h : Sound db) (r : Call × Request) : Sound (db.after r) := by
  obtain ⟨c, request⟩ := r
  rw [Tables.after]
  cases request with
  | update taskId u =>
      dsimp only
      cases hok : update c db taskId u with
      | error e => exact h
      | ok returned => exact sound_update h hok
  | complete taskId =>
      dsimp only
      cases hok : complete c db taskId with
      | error e => exact h
      | ok returned =>
          obtain ⟨task, -, hfinal⟩ := bind_eq_ok.1 hok
          exact sound_finalize h hfinal

/-- **`completed_at` is set exactly on completed tasks** after any calls, when it is before them. -/
theorem sound_requests (requests : List (Call × Request)) (h : Sound db) :
    Sound (requests.foldl Tables.after db) := by
  induction requests generalizing db with
  | nil => exact h
  | cons r requests ih => exact ih (sound_after h r)

/-- A task is opened again and completed. -/
theorem sound_requests_reopened :
    Sound ([(⟨1, 2, 7⟩, .update 1 ⟨none, none, none, none, none, none, none, some .todo, none, none⟩),
      (⟨1, 2, 8⟩, .complete 1)].foldl Tables.after ⟨[exampleTask], [], [], []⟩) := by
  refine sound_requests _ fun t ht => ?_
  obtain rfl := List.mem_singleton.mp ht
  exact ⟨by simp [Consistent, exampleTask], rfl⟩

end Tasks
