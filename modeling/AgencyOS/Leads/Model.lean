import AgencyOS.Python.Text
import AgencyOS.Python.Calendar
import AgencyOS.Python.Collections
import Mathlib.Tactic

/-!
Leads, the stages they stand in, and the keys that tell duplicates.

A lead has three generated keys, each under a unique index of its organization.  The database
computes them from the contact fields; the code has normalizers of its own, which are meant to agree.

* `Lead`, `PipelineStage`, `CloseReason`, `Db`: the rows and the tables;
* `normalizePhone`, `digits`, `normalizeDomain`: the normalizers of the code;
* `Database.normalizePhone`, `Database.normalizeDomain`: those of the database;
* `Db.violates`: whether an insert breaks one of the unique indexes.
-/

namespace Leads

open Python

/-! ### Rows -/

inductive LeadStatus where
  | new | researching | contacted | meetingBooked | proposalSent | won | lost
  deriving DecidableEq, Repr

def LeadStatus.value : LeadStatus → String
  | new => "new"
  | researching => "researching"
  | contacted => "contacted"
  | meetingBooked => "meeting_booked"
  | proposalSent => "proposal_sent"
  | won => "won"
  | lost => "lost"

inductive StageLifecycle where
  | open | won | lost
  deriving DecidableEq, Repr

structure PipelineStage where
  id : ℕ
  organizationId : ℕ
  name : String
  lifecycle : StageLifecycle
  position : ℤ
  isDefault : Bool
  deriving DecidableEq, Repr

structure CloseReason where
  id : ℕ
  organizationId : ℕ
  lifecycle : StageLifecycle
  name : String
  isDefault : Bool
  deriving DecidableEq, Repr

structure Lead where
  id : ℕ
  organizationId : ℕ
  leadSourceId : Option ℕ
  ownerUserId : Option ℕ
  status : LeadStatus
  email : Option String
  phone : Option String
  whatsapp : Option String
  website : Option String
  stageId : Option ℕ
  closeReasonId : Option ℕ
  wonAt : Option Datetime
  lostAt : Option Datetime
  deletedAt : Option Datetime
  deriving DecidableEq, Repr

inductive ActivityEventType where
  | leadWon | leadLost
  deriving DecidableEq, Repr

structure ActivityLog where
  organizationId : ℕ
  userId : Option ℕ
  leadId : ℕ
  eventType : ActivityEventType
  description : String
  stageId : Option ℕ
  occurredAt : Datetime
  deriving DecidableEq, Repr

/-- The tables, in the order of insertion.  Users and sources are an id and an organization. -/
structure Db where
  stages : List PipelineStage
  reasons : List CloseReason
  leads : List Lead
  users : List (ℕ × ℕ)
  leadSources : List (ℕ × ℕ)
  activity : List ActivityLog
  nextId : ℕ
  deriving DecidableEq, Repr

def Db.empty : Db := ⟨[], [], [], [], [], [], 0⟩

structure AppError where
  code : String
  message : String
  statusCode : ℕ
  deriving DecidableEq, Repr

/-- What a call can raise: an error of the application, or one of the database that was not caught. -/
inductive Failure where
  | appError (error : AppError)
  | integrityError
  | dataError
  deriving DecidableEq, Repr

/-! ### Normalizers of the code -/

/-- The digits of `str.isdigit` that are not decimal: superscripts, subscripts, circled ones. -/
def otherDigits : List (ℕ × ℕ) :=
  [(0xb2, 0xb3), (0xb9, 0xb9), (0x1369, 0x1371), (0x19da, 0x19da), (0x2070, 0x2070), (0x2074, 0x2079),
    (0x2080, 0x2089), (0x2460, 0x2468), (0x2474, 0x247c), (0x2488, 0x2490), (0x24ea, 0x24ea),
    (0x24f5, 0x24fd), (0x24ff, 0x24ff), (0x2776, 0x277e), (0x2780, 0x2788), (0x278a, 0x2792),
    (0x10a40, 0x10a43), (0x10e60, 0x10e68), (0x11052, 0x1105a), (0x1f100, 0x1f10a)]

/-- `str.isdigit`, of a character. -/
def isDigit (c : Char) : Bool :=
  (digit? c).isSome || otherDigits.any fun (low, high) => low ≤ c.toNat && c.toNat ≤ high

/-- `value or None`. -/
def orNone (cs : List Char) : Option (List Char) := if cs = [] then none else some cs

/-- `_normalize_phone`: the decimal digits. -/
def normalizePhone (raw : Option String) : Option (List Char) :=
  raw.bind fun raw => orNone (raw.toList.filter fun c => (digit? c).isSome)

/-- `_digits` of the import worker. -/
def digits (value : Option String) : Option (List Char) :=
  value.bind fun value => orNone (value.toList.filter isDigit)

def isAsciiLetter (c : Char) : Bool := ('a' ≤ c && c ≤ 'z') || ('A' ≤ c && c ≤ 'Z')

/-- `[a-zA-Z0-9+.-]`. -/
def isSchemeChar (c : Char) : Bool :=
  isAsciiLetter c || ('0' ≤ c && c ≤ '9') || c = '+' || c = '.' || c = '-'

/-- Removes `^[a-zA-Z][a-zA-Z0-9+.-]*://`. -/
def dropScheme : List Char → List Char
  | [] => []
  | c :: cs =>
      if isAsciiLetter c then
        match cs.dropWhile isSchemeChar with
        | ':' :: '/' :: '/' :: rest => rest
        | _ => c :: cs
      else c :: cs

/-- Removes `/.*$`, where the dot matches no newline.  The text has been stripped, so that `$` is its
end. -/
def dropPath : List Char → List Char
  | [] => []
  | c :: cs => if c = '/' ∧ '\n' ∉ cs then [] else c :: dropPath cs

/-- Removes `^www\.` in either case. -/
def dropWww : List Char → List Char
  | a :: b :: c :: '.' :: rest =>
      if a ∈ ['w', 'W'] ∧ b ∈ ['w', 'W'] ∧ c ∈ ['w', 'W'] then rest else a :: b :: c :: '.' :: rest
  | cs => cs

/-- `str.strip(".")`, and `btrim(..., '.')`. -/
def stripDots (cs : List Char) : List Char := (cs.dropWhile (· = '.')).rdropWhile (· = '.')

/-- How the code and the database put text in lower case, and what the database takes for a digit. -/
structure Normalizers where
  lower : List Char → List Char
  dbLower : List Char → List Char
  dbDigit : Char → Bool

/-- Over ASCII text they all agree. -/
def Normalizers.ascii : Normalizers :=
  ⟨List.map Char.toLower, List.map Char.toLower, Char.isDigit⟩

variable (n : Normalizers)

/-- `_normalize_domain`. -/
def normalizeDomain (url : Option String) : Option (List Char) :=
  match url with
  | none => none
  | some url =>
      if url.toList = [] then none
      else
        orNone (n.lower (stripDots (dropWww (dropPath (dropScheme (strip url.toList))))))

/-! ### Normalizers of the database -/

namespace Database

/-- `normalize_phone`. -/
def normalizePhone (raw : Option String) : Option (List Char) :=
  orNone ((raw.getD "").toList.filter n.dbDigit)

/-- Removes `/.*$`, where the dot matches every character. -/
def dropPath (cs : List Char) : List Char := cs.takeWhile (· ≠ '/')

/-- Removes `^www\.`. -/
def dropWww : List Char → List Char
  | 'w' :: 'w' :: 'w' :: '.' :: rest => rest
  | cs => cs

/-- `normalize_domain`. -/
def normalizeDomain (url : Option String) : Option (List Char) :=
  orNone (n.dbLower (stripDots (dropWww (dropPath (dropScheme (url.getD "").toList)))))

/-- `btrim`, of spaces. -/
def btrim (cs : List Char) : List Char := (cs.dropWhile (· = ' ')).rdropWhile (· = ' ')

end Database

/-! ### Generated keys -/

variable (lead : Lead)

/-- The generated column `email_normalized`. -/
def Lead.emailNormalized : Option (List Char) :=
  lead.email.map fun email => n.dbLower (Database.btrim email.toList)

/-- The generated column `phone_normalized`: the phone, or else the whatsapp. -/
def Lead.phoneNormalized : Option (List Char) :=
  (Database.normalizePhone n lead.phone).or (Database.normalizePhone n lead.whatsapp)

/-- The generated column `website_domain`. -/
def Lead.websiteDomain : Option (List Char) := Database.normalizeDomain n lead.website

/-- Two keys clash when there is one and it is the same. -/
def clash (key key' : Option (List Char)) : Bool := key.isSome && key = key'

/-- Whether two leads of an organization cannot both stand under the unique indexes, which cover
deleted rows as well. -/
def Lead.collides (other : Lead) : Bool :=
  lead.organizationId = other.organizationId &&
    (clash (lead.emailNormalized n) (other.emailNormalized n) ||
      clash (lead.phoneNormalized n) (other.phoneNormalized n) ||
      clash (lead.websiteDomain n) (other.websiteDomain n))

/-- Inserting the lead raises an `IntegrityError`. -/
def Db.violates (db : Db) (lead : Lead) : Bool :=
  db.leads.any fun other => other.id ≠ lead.id && lead.collides n other

/-! ### Reads -/

variable (db : Db) (organizationId : ℕ)

/-- `LeadRepository.get`. -/
def Db.getLead (leadId : ℕ) : Option Lead :=
  db.leads.find? fun lead =>
    lead.organizationId = organizationId && lead.id = leadId && lead.deletedAt = none

/-- `PipelineStageRepository.get`. -/
def Db.getStage (stageId : ℕ) : Option PipelineStage :=
  db.stages.find? fun stage => stage.organizationId = organizationId && stage.id = stageId

/-- `PipelineStageRepository.list`: by position, and then by creation. -/
def Db.listStages : List PipelineStage :=
  sortedBy (·.position) (db.stages.filter (·.organizationId = organizationId))

/-- `CloseReasonRepository.get`. -/
def Db.getReason (closeReasonId : ℕ) : Option CloseReason :=
  db.reasons.find? fun reason =>
    reason.organizationId = organizationId && reason.id = closeReasonId

end Leads
