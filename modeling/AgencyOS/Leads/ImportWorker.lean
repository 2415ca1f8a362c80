import AgencyOS.Leads.LeadService

/-!
The import worker: a CSV file becomes leads and error rows.

The worker adds objects to a session, which are written by the next flush: before a query, before a
savepoint, after a chunk, and at the commit.  A flush that fails outside of a savepoint invalidates
the transaction.

* `parseCsv`, `parseRow`: the rows of the file, and the fields of a lead;
* `Session`, `flush`: the objects that were added, and what the transaction has written;
* `insertWithSavepoint`, `importRow`, `importRows`: the loop over the rows;
* `processJob`: a job from end to end.
-/

namespace Leads

open Python

variable (n : Normalizers)

/-! ### Rows -/

/-- A record of `csv.DictReader`: the values under their headers, none where the record is short, and
the values past the last header. -/
structure CsvRecord where
  fields : List (String × Option String)
  rest : List String
  deriving DecidableEq, Repr

abbrev RawRow := OrderedDict String String

def RawRow.get (raw : RawRow) (field : String) : Option String := raw.items.lookup field

/-- `_HEADER_ALIASES`. -/
def headerAliases : List (String × String) :=
  [("first_name", "first_name"), ("firstname", "first_name"), ("first name", "first_name"),
    ("last_name", "last_name"), ("lastname", "last_name"), ("last name", "last_name"),
    ("email", "email"), ("phone", "phone"), ("whatsapp", "whatsapp"), ("website", "website"),
    ("company", "company"), ("position", "position"), ("title", "position"),
    ("location", "location"), ("linkedin", "linkedin_url"), ("linkedin_url", "linkedin_url"),
    ("notes", "notes")]

def canonicalHeader (header : String) : String :=
  (headerAliases.lookup (String.ofList (n.lower (strip header.toList)))).getD header

/-- The row of a record.  Values past the last header come as a list, which has no `strip`. -/
def rowOf (record : CsvRecord) : Option RawRow :=
  if record.rest = [] then
    some (OrderedDict.ofItems (record.fields.map fun (header, value) =>
      (canonicalHeader n header, String.ofList (strip (value.getD "").toList))))
  else none

/-- `_parse_csv`, of the records that the reader gives. -/
def parseCsv (records : List CsvRecord) : Option (List RawRow) := records.mapM (rowOf n)

/-- The fields of a lead that a row gives. -/
structure Parsed where
  firstName : Option String
  lastName : Option String
  company : Option String
  position : Option String
  location : Option String
  linkedinUrl : Option String
  notes : Option String
  contact : Contact
  deriving DecidableEq, Repr

/-- `raw.get(field) or None`. -/
def RawRow.value (raw : RawRow) (field : String) : Option String :=
  (raw.get field).bind fun value => if value = "" then none else some value

/-- The email has a dot after its last at sign. -/
def emailLooksValid (email : List Char) : Bool :=
  decide ('@' ∈ email) && decide ('.' ∈ email.reverse.takeWhile (· ≠ '@'))

/-- `_parse_row`. -/
def parseRow (raw : RawRow) : Except String Parsed :=
  let email := n.lower (strip ((raw.get "email").getD "").toList)
  let website := strip ((raw.get "website").getD "").toList
  let contact : Contact :=
    { email := (orNone email).map String.ofList
      phone := (digits (raw.get "phone")).map String.ofList
      whatsapp := (digits (raw.get "whatsapp")).map String.ofList
      website := (orNone website).map String.ofList }
  if email ≠ [] ∧ emailLooksValid email = false then .error "email must be valid"
  else if contact = ⟨none, none, none, none⟩ then
    .error "at least one of email/phone/whatsapp/website is required"
  else
    .ok
      { firstName := raw.value "first_name"
        lastName := raw.value "last_name"
        company := raw.value "company"
        position := raw.value "position"
        location := raw.value "location"
        linkedinUrl := raw.value "linkedin_url"
        notes := raw.value "notes"
        contact := contact }

/-! ### The duplicate check of the worker -/

/-- The keys of a duplicate check. -/
structure Keys where
  email : Option (List Char)
  phone : Option (List Char)
  domain : Option (List Char)
  deriving DecidableEq, Repr

/-- The keys that the worker searches. -/
def workerKeys (contact : Contact) : Keys :=
  ⟨orNone (n.lower (contact.email.getD "").toList), digits contact.phone,
    normalizeDomain n contact.website⟩

/-! ### Tables -/

inductive ImportStatus where
  | pending | processing | completed | failed | cancelled
  deriving DecidableEq, Repr

structure ImportJob where
  id : ℕ
  organizationId : ℕ
  createdByUserId : ℕ
  status : ImportStatus
  fileName : String
  totalRows : ℕ
  processedRows : ℕ
  failedRows : ℕ
  startedAt : Option Datetime
  finishedAt : Option Datetime
  deriving DecidableEq, Repr

structure RowError where
  importJobId : ℕ
  organizationId : ℕ
  rowNumber : ℕ
  errorCode : String
  errorMessage : String
  rawRow : RawRow

/-- The log of a finished import. -/
structure ImportLog where
  organizationId : ℕ
  userId : ℕ
  importJobId : ℕ
  description : String
  processed : ℕ
  failed : ℕ
  occurredAt : Datetime
  deriving DecidableEq, Repr

structure ImportTables where
  db : Db
  jobs : ℕ → Option ImportJob
  rowErrors : List RowError
  logs : List ImportLog

/-- What the database refuses apart from its unique indexes: a lead, in the row of a number, for a
check, a foreign key, or a key that another transaction has taken since, and an error row. -/
structure Refusals where
  lead : ℕ → Parsed → Bool
  rowError : RowError → Bool

/-- What is fixed for a job. -/
structure ImportEnv where
  n : Normalizers
  refuses : Refusals
  organizationId : ℕ
  leadSourceId : Option ℕ
  chunkSize : ℕ+

variable (env : ImportEnv)

/-- The lead of a row. -/
def buildLead (id : ℕ) (parsed : Parsed) : Lead :=
  newLead id env.organizationId ⟨env.leadSourceId, none, some .new, none, parsed.contact⟩

/-- The database refuses the lead of a row. -/
def rejects (db : Db) (index : ℕ) (parsed : Parsed) : Bool :=
  db.violates env.n (buildLead env db.nextId parsed) || env.refuses.lead index parsed

/-! ### The session -/

inductive ImportExn where
  | integrityError
  | pendingRollback
  deriving DecidableEq, Repr

/-- The objects that were added and not written yet, and what the transaction has written. -/
structure Session where
  tables : ImportTables
  job : ImportJob
  lead : Option (ℕ × Parsed)
  rowErrors : List RowError
  logs : List ImportLog
  invalid : Bool

abbrev ImportM := EStateM ImportExn Session

/-- One of the added objects is refused. -/
def Session.refused (s : Session) : Bool :=
  s.lead.any (fun (index, parsed) => rejects env s.tables.db index parsed) ||
    s.rowErrors.any env.refuses.rowError

/-- The added objects are written, and the job with them. -/
def Session.written (s : Session) : Session :=
  { s with
    tables :=
      { db := match s.lead with
          | some (_, parsed) => s.tables.db.insertLead (buildLead env s.tables.db.nextId parsed)
          | none => s.tables.db
        jobs := Function.update s.tables.jobs s.job.id (some s.job)
        rowErrors := s.tables.rowErrors ++ s.rowErrors
        logs := s.tables.logs ++ s.logs }
    lead := none
    rowErrors := []
    logs := [] }

/-- A flush outside of a savepoint. -/
def flush : ImportM Unit := fun s =>
  if s.invalid then .error .pendingRollback s
  else if s.refused env then .error .integrityError { s with invalid := true }
  else .ok () (s.written env)

/-- A flush inside of a savepoint: when it fails, what was added is lost and nothing else. -/
def flushNested : ImportM Unit := fun s =>
  if s.invalid then .error .pendingRollback s
  else if s.refused env then .error .integrityError { s with lead := none, rowErrors := [], logs := [] }
  else .ok () (s.written env)

def addRowError (index : ℕ) (errorCode errorMessage : String) (raw : RawRow) : ImportM Unit :=
  modify fun s =>
    { s with rowErrors := s.rowErrors ++
        [⟨s.job.id, env.organizationId, index, errorCode, errorMessage, raw⟩] }

def setProcessed (processed : ℕ) : ImportM Unit :=
  modify fun s => { s with job := { s.job with processedRows := processed } }

def setFailed (failed : ℕ) : ImportM Unit :=
  modify fun s => { s with job := { s.job with failedRows := failed } }

/-- `find_duplicates` in the session: a query, where there is a key to search. -/
def queryDuplicates (keys : Keys) : ImportM (List Lead) := do
  if truthy keys.email = none ∧ truthy keys.phone = none ∧ truthy keys.domain = none then
    return []
  flush env
  let s ← get
  return findDuplicates env.n s.tables.db env.organizationId keys.email keys.phone keys.domain

/-! ### The loop -/

/-- `_insert_with_savepoint`; what it returns is not used. -/
def insertWithSavepoint (index : ℕ) (raw : RawRow) (parsed : Parsed) : ImportM Unit := do
  modify fun s => { s with lead := some (index, parsed) }
  try
    -- `begin_nested` flushes before it issues the savepoint
    flush env
    flushNested env
  catch
  | .integrityError =>
      addRowError env index "import.duplicate" "Lead already exists (race condition)" raw
  | e => throw e

/-- One row, from the counts of processed and failed rows before it to those after it. -/
def importRow (index : ℕ) (raw : RawRow) (counts : ℕ × ℕ) : ImportM (ℕ × ℕ) := do
  match parseRow env.n raw with
  | .error message =>
      addRowError env index "import.invalid_row" message raw
      setFailed (counts.2 + 1)
      return (counts.1, counts.2 + 1)
  | .ok parsed =>
      let duplicate ← queryDuplicates env (workerKeys env.n parsed.contact)
      if duplicate ≠ [] then
        addRowError env index "import.duplicate" "Lead already exists" raw
        setFailed (counts.2 + 1)
        return (counts.1, counts.2 + 1)
      insertWithSavepoint env index raw parsed
      setProcessed (counts.1 + 1)
      if (counts.1 + 1 + counts.2) % env.chunkSize = 0 then
        flush env
      return (counts.1 + 1, counts.2)

def importRows : ℕ → List RawRow → ℕ × ℕ → ImportM (ℕ × ℕ)
  | _, [], counts => pure counts
  | index, raw :: rows, counts => do
      let counts ← importRow env index raw counts
      importRows (index + 1) rows counts

def startJob (totalRows : ℕ) (started : Datetime) : ImportM Unit :=
  modify fun s =>
    { s with job := { s.job with
        status := .processing, totalRows := totalRows, startedAt := some started } }

def finishJob (counts : ℕ × ℕ) (finished : Datetime) : ImportM Unit :=
  modify fun s =>
    { s with
      job := { s.job with status := .completed, finishedAt := some finished }
      logs := s.logs ++
        [⟨env.organizationId, s.job.createdByUserId, s.job.id,
          "Imported " ++ toString counts.1 ++ " lead(s) from " ++ s.job.fileName ++ " (" ++
            toString counts.2 ++ " row(s) rejected)", counts.1, counts.2, finished⟩] }

/-- The rows are numbered from 2, after the header.  The commit flushes. -/
def importJob (rows : List RawRow) (started finished : Datetime) : ImportM Unit := do
  startJob rows.length started
  let counts ← importRows env 2 rows (0, 0)
  finishJob env counts finished
  flush env

/-! ### A job -/

/-- `claim`: the job, where it is pending. -/
def ImportTables.claim (tables : ImportTables) (organizationId jobId : ℕ) : Option ImportJob :=
  (tables.jobs jobId).filter fun job =>
    job.organizationId = organizationId && job.status = .pending

/-- `_mark_failed`. -/
def ImportTables.markFailed (tables : ImportTables) (organizationId jobId : ℕ) (now : Datetime) :
    ImportTables :=
  match (tables.jobs jobId).filter (·.organizationId = organizationId) with
  | none => tables
  | some job =>
      let job := { job with status := .failed, finishedAt := some now }
      { tables with jobs := Function.update tables.jobs jobId (some job) }

/-- `process_job`, of the records that the reader gives, or none where the file cannot be read.  The
job fails on every exception, and the transaction is rolled back. -/
def processJob (tables : ImportTables) (jobId : ℕ) (records : Option (List CsvRecord))
    (started finished : Datetime) : ImportTables :=
  match records.bind (parseCsv env.n) with
  | none => tables.markFailed env.organizationId jobId finished
  | some rows =>
      match tables.claim env.organizationId jobId with
      | none => tables
      | some job =>
          match importJob env rows started finished ⟨tables, job, none, [], [], false⟩ with
          | .ok _ s => s.tables
          | .error _ _ => tables.markFailed env.organizationId jobId finished

end Leads
