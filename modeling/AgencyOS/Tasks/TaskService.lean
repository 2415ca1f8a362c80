import AgencyOS.Python.Dates
import AgencyOS.Python.Exceptions
import AgencyOS.Python.Text

/-!
The task service: updates, completion, and recurrence.

Completing a task closes it, or moves a recurring one to its next occurrence and reopens it.  The
database keeps a few checks on a row, which refuse the commit.

* `Task`, `TaskUpdate`, `Tables`: the rows, a partial update, and the tables;
* `Task.stored`: the checks of the database;
* `advanceTime`, `advanceRecurrence`: the next occurrence;
* `applyFields`, `update`, `complete`: the calls of the service.
-/

namespace Tasks

open Python

inductive TaskStatus where
  | todo | inProgress | completed | cancelled
  deriving DecidableEq, Repr

inductive TaskPriority where
  | low | medium | high | urgent
  deriving DecidableEq, Repr

inductive RecurrenceFrequency where
  | daily | weekly | monthly
  deriving DecidableEq, Repr

structure Task where
  id : ℕ
  organizationId : ℕ
  leadId : Option ℕ
  assigneeUserId : Option ℕ
  createdByUserId : Option ℕ
  title : String
  description : Option String
  status : TaskStatus
  priority : TaskPriority
  dueAt : Option Datetime
  reminderAt : Option Datetime
  completedAt : Option Datetime
  recurrenceFrequency : Option RecurrenceFrequency
  recurrenceInterval : Option ℕ
  deriving DecidableEq, Repr

/-- A partial update: what is none is left as it is. -/
structure TaskUpdate where
  title : Option String
  description : Option String
  leadId : Option ℕ
  assigneeUserId : Option ℕ
  dueAt : Option Datetime
  reminderAt : Option Datetime
  priority : Option TaskPriority
  status : Option TaskStatus
  recurrenceFrequency : Option RecurrenceFrequency
  recurrenceInterval : Option ℕ
  deriving DecidableEq, Repr

inductive ActivityEventType where
  | taskUpdated | taskCompleted
  deriving DecidableEq, Repr

structure ActivityLog where
  organizationId : ℕ
  userId : ℕ
  leadId : Option ℕ
  eventType : ActivityEventType
  entityId : ℕ
  description : String
  occurredAt : Datetime
  deriving DecidableEq, Repr

/-- The tables.  Leads are those that are not deleted, with their organization; users are active or
not. -/
structure Tables where
  tasks : List Task
  activity : List ActivityLog
  leads : List (ℕ × ℕ)
  users : List (ℕ × ℕ × Bool)
  deriving DecidableEq, Repr

/-- What a call raises: an error of the application, one of `datetime`, or one of the database. -/
inductive Exn where
  | appError (code message : String) (statusCode : ℕ)
  | overflowError
  | valueError
  | dbapiError
  deriving DecidableEq, Repr

/-! ### The database -/

/-- `integer`. -/
def maxInteger : ℕ := 2147483647

/-- The database takes the text: PostgreSQL has no text with a null character. -/
def storable (text : String) : Bool := text.toList.all (· ≠ Char.ofNat 0)

/-- `length(btrim(title)) > 0`. -/
def notBlank (title : String) : Bool := title.toList.any (· ≠ ' ')

/-- `chk_tasks_completed_at_consistent`. -/
def Task.completedAtConsistent (t : Task) : Bool := t.completedAt = none || t.status = .completed

/-- `chk_tasks_recurrence_paired`, and the check and the type of the interval. -/
def Task.recurrencePaired (t : Task) : Bool :=
  t.recurrenceFrequency.isNone = t.recurrenceInterval.isNone &&
    t.recurrenceInterval.all fun interval => 1 ≤ interval && interval ≤ maxInteger

/-- The database takes the row. -/
def Task.stored (t : Task) : Bool :=
  storable t.title && notBlank t.title && t.description.all storable && t.completedAtConsistent &&
    t.recurrencePaired

/-- `get_or_404`. -/
def Tables.getTask (db : Tables) (organizationId taskId : ℕ) : Except Exn Task :=
  match db.tasks.find? fun t => t.organizationId = organizationId && t.id = taskId with
  | some task => .ok task
  | none => .error (.appError "task.not_found" "Task not found" 404)

/-- The commit of a row, with what was logged about it. -/
def Tables.commit (db : Tables) (task : Task) (logs : List ActivityLog) : Except Exn (Task × Tables) :=
  if task.stored then
    .ok (task,
      { db with
        tasks := db.tasks.map fun t => if t.id = task.id then task else t
        activity := db.activity ++ logs })
  else .error .dbapiError

/-! ### Checks -/

/-- `_clean_title`. -/
def cleanTitle (title : String) : Except Exn String :=
  let cleaned := strip title.toList
  if cleaned = [] then .error (.appError "task.title_required" "Task title is required" 400)
  else .ok (String.ofList cleaned)

/-- `_validate_links`, of a lead. -/
def validateLead (db : Tables) (organizationId leadId : ℕ) : Except Exn Unit :=
  if db.leads.contains (leadId, organizationId) then .ok ()
  else .error (.appError "lead.not_found" "Lead not found" 404)

/-- `_validate_links`, of an assignee. -/
def validateAssignee (db : Tables) (organizationId userId : ℕ) : Except Exn Unit :=
  match db.users.find? fun u => u.1 = userId && u.2.1 = organizationId with
  | none => .error (.appError "user.not_found" "User not found" 404)
  | some (_, _, isActive) =>
      if isActive then .ok ()
      else .error (.appError "task.invalid_assignee" "Assignee is not an active team member" 400)

/-- The reminder is not after the due date, where there are both. -/
def scheduled (dueAt reminderAt : Option Datetime) : Prop :=
  ∀ due ∈ dueAt, ∀ reminder ∈ reminderAt, reminder ≤ due

instance (dueAt reminderAt : Option Datetime) : Decidable (scheduled dueAt reminderAt) :=
  inferInstanceAs (Decidable (∀ due ∈ dueAt, ∀ reminder ∈ reminderAt, reminder ≤ due))

def reminderAfterDue : Exn :=
  .appError "task.reminder_after_due" "Reminder time cannot be after the due date" 400

/-- `_validate_schedule`. -/
def validateSchedule (dueAt reminderAt : Option Datetime) : Except Exn Unit :=
  if scheduled dueAt reminderAt then .ok () else .error reminderAfterDue

/-! ### Recurrence -/

/-- The first instant after the year 9999. -/
def endOfTime : Datetime := daysBefore 10000 * microsecondsPerDay

/-- `when + timedelta(days=days)`. -/
def plusDays (t : Datetime) (days : ℕ) : Except Exn Datetime :=
  let later := t + days * microsecondsPerDay
  if later < endOfTime then .ok later else .error .overflowError

/-- The date so many months later, on the last day of the month where that is shorter. -/
def plusMonths (d : Date) (months : ℕ) : Date :=
  let month := d.month - 1 + months
  let year := d.year + month / 12
  let month := month % 12 + 1
  ⟨year, month, min d.day (monthLength (isLeap year) month)⟩

/-- `when.replace(year=year, month=month, day=day)`. -/
def replaceDate (t : Datetime) (d : Date) : Except Exn Datetime :=
  if d.year < 10000 then .ok (d.toDay * microsecondsPerDay + t % microsecondsPerDay)
  else .error .valueError

/-- `_advance_time`. -/
def advanceTime (t : Datetime) (frequency : RecurrenceFrequency) (interval : ℕ) :
    Except Exn Datetime :=
  match frequency with
  | .daily => plusDays t interval
  | .weekly => plusDays t (7 * interval)
  | .monthly => replaceDate t (plusMonths t.date interval)

/-- `_advance_time` where there is a time. -/
def advanceTime? (t : Option Datetime) (frequency : RecurrenceFrequency) (interval : ℕ) :
    Except Exn (Option Datetime) :=
  match t with
  | none => .ok none
  | some t => (advanceTime t frequency interval).map some

/-- `_advance_recurrence`: the task moved on, and whether it recurs. -/
def advanceRecurrence (task : Task) : Except Exn (Task × Bool) :=
  match task.recurrenceFrequency, task.recurrenceInterval with
  | some frequency, some interval => do
      let dueAt ← advanceTime? task.dueAt frequency interval
      let reminderAt ← advanceTime? task.reminderAt frequency interval
      return ({ task with dueAt := dueAt, reminderAt := reminderAt }, true)
  | _, _ => .ok (task, false)

/-! ### The calls -/

/-- The caller, and the time of the call. -/
structure Call where
  organizationId : ℕ
  actorId : ℕ
  now : Datetime
  deriving DecidableEq, Repr

def Call.log (c : Call) (task : Task) (eventType : ActivityEventType) (description : String) :
    ActivityLog :=
  ⟨c.organizationId, c.actorId, task.leadId, eventType, task.id, description, c.now⟩

/-- The task as it is completed, and whether it recurs. -/
def closed (now : Datetime) (task : Task) : Except Exn (Task × Bool) := do
  let (task, recurred) ← advanceRecurrence task
  return (if recurred then { task with status := .todo, completedAt := none }
    else { task with status := .completed, completedAt := some now }, recurred)

/-- `_finalize_completion`: a completed task is returned as it is, and nothing is committed. -/
def finalizeCompletion (c : Call) (db : Tables) (task : Task) : Except Exn (Task × Tables) :=
  if task.status = .completed then .ok (task, db)
  else do
    let (task, recurred) ← closed c.now task
    db.commit task [c.log task .taskCompleted
      (if recurred then "Recurring task occurrence completed" else "Task completed")]

/-- `complete`. -/
def complete (c : Call) (db : Tables) (taskId : ℕ) : Except Exn (Task × Tables) := do
  finalizeCompletion c db (← db.getTask c.organizationId taskId)

/-- The title of an update.  The flag says whether a field was changed. -/
def setTitle (u : TaskUpdate) (s : Task × Bool) : Except Exn (Task × Bool) :=
  match u.title with
  | none => .ok s
  | some title => (cleanTitle title).map fun title => ({ s.1 with title := title }, true)

def setDescription (u : TaskUpdate) (s : Task × Bool) : Task × Bool :=
  match u.description with
  | none => s
  | some description => ({ s.1 with description := some description }, true)

def setLead (db : Tables) (organizationId : ℕ) (u : TaskUpdate) (s : Task × Bool) :
    Except Exn (Task × Bool) :=
  match u.leadId with
  | none => .ok s
  | some leadId =>
      (validateLead db organizationId leadId).map fun _ =>
        if s.1.leadId ≠ some leadId then ({ s.1 with leadId := some leadId }, true) else s

def setAssignee (db : Tables) (organizationId : ℕ) (u : TaskUpdate) (s : Task × Bool) :
    Except Exn (Task × Bool) :=
  match u.assigneeUserId with
  | none => .ok s
  | some userId =>
      (validateAssignee db organizationId userId).map fun _ =>
        if s.1.assigneeUserId ≠ some userId then ({ s.1 with assigneeUserId := some userId }, true)
        else s

def setDueAt (u : TaskUpdate) (s : Task × Bool) : Task × Bool :=
  match u.dueAt with
  | none => s
  | some dueAt => ({ s.1 with dueAt := some dueAt }, true)

def setReminderAt (u : TaskUpdate) (s : Task × Bool) : Task × Bool :=
  match u.reminderAt with
  | none => s
  | some reminderAt => ({ s.1 with reminderAt := some reminderAt }, true)

def setPriority (u : TaskUpdate) (s : Task × Bool) : Task × Bool :=
  match u.priority with
  | none => s
  | some priority =>
      if s.1.priority ≠ priority then ({ s.1 with priority := priority }, true) else s

/-- The frequency of an update, with `recurrence_interval or 1`. -/
def setFrequency (u : TaskUpdate) (s : Task × Bool) : Task × Bool :=
  match u.recurrenceFrequency with
  | none => s
  | some frequency =>
      let interval := u.recurrenceInterval.getD 0
      ({ s.1 with
          recurrenceFrequency := some frequency
          recurrenceInterval := some (if interval = 0 then 1 else interval) }, true)

def setInterval (u : TaskUpdate) (s : Task × Bool) : Except Exn (Task × Bool) :=
  match u.recurrenceInterval with
  | none => .ok s
  | some interval =>
      if s.1.recurrenceFrequency = none then
        .error (.appError "task.recurrence_requires_frequency"
          "A recurrence interval requires a recurrence frequency" 400)
      else .ok ({ s.1 with recurrenceInterval := some interval }, true)

/-- The fields of an update, one after the other. -/
def applyFields (db : Tables) (organizationId : ℕ) (u : TaskUpdate) (task : Task) :
    Except Exn (Task × Bool) := do
  let s ← setTitle u (task, false)
  let s ← setLead db organizationId u (setDescription u s)
  let s ← setAssignee db organizationId u s
  setInterval u (setFrequency u (setPriority u (setReminderAt u (setDueAt u s))))

/-- The status of an update that does not complete the task; an open task has no `completed_at`. -/
def applyStatus (status : Option TaskStatus) (task : Task) (changed : Bool) : Task × Bool :=
  let (task, changed) := match status with
    | none => (task, changed)
    | some status =>
        if task.status ≠ status then ({ task with status := status }, true) else (task, changed)
  if (task.status = .todo ∨ task.status = .inProgress) ∧ task.completedAt ≠ none then
    ({ task with completedAt := none }, changed)
  else (task, changed)

/-- `update`: a requested `completed` goes to the completion. -/
def update (c : Call) (db : Tables) (taskId : ℕ) (u : TaskUpdate) : Except Exn (Task × Tables) := do
  let task ← db.getTask c.organizationId taskId
  let (task, changed) ← applyFields db c.organizationId u task
  validateSchedule task.dueAt task.reminderAt
  if u.status = some .completed then finalizeCompletion c db task
  else
    let (task, changed) := applyStatus u.status task changed
    db.commit task (if changed then [c.log task .taskUpdated "Task updated"] else [])

end Tasks
