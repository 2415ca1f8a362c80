import AgencyOS.Leads.PipelineService

/-!
The lead service: creation, update, and the duplicate check.

The owner that the assignment service picks for a new lead is an argument.  A call that raises leaves
the tables as they were, since its transaction is rolled back.

* `create`, `update`: the writes, which hand status, stage and close reason to `reconcile`;
* `findDuplicates`, `duplicateCheck`: the check before an insert;
* `Op`, `step`: the calls that move a lead through its lifecycle.
-/

namespace Leads

open Python

def userNotFound : AppError := ⟨"user.not_found", "User not found", 404⟩

def leadSourceNotFound : AppError := ⟨"lead_source.not_found", "Lead source not found", 404⟩

def leadNotFound : AppError := ⟨"lead.not_found", "Lead not found", 404⟩

/-- `handle_integrity_error`. -/
def leadDuplicate : AppError :=
  ⟨"lead.duplicate", "A lead with the same email/phone/website already exists", 409⟩

/-- `_validate_refs`. -/
def validateRefs (db : Db) (organizationId : ℕ) (ownerUserId leadSourceId : Option ℕ) :
    Except Failure Unit := do
  if ownerUserId.any fun id => (id, organizationId) ∉ db.users then
    throw (.appError userNotFound)
  if leadSourceId.any fun id => (id, organizationId) ∉ db.leadSources then
    throw (.appError leadSourceNotFound)

/-- The contact fields of a lead. -/
structure Contact where
  email : Option String
  phone : Option String
  whatsapp : Option String
  website : Option String
  deriving DecidableEq, Repr

/-! ### Creation -/

/-- The data of a creation; a status that is not there is the default. -/
structure LeadCreate where
  leadSourceId : Option ℕ
  ownerUserId : Option ℕ
  status : Option LeadStatus
  stageId : Option ℕ
  contact : Contact
  deriving DecidableEq, Repr

/-- The change that a creation asks for. -/
def LeadCreate.transition (data : LeadCreate) : Transition :=
  ⟨data.status, data.stageId, none, none, false⟩

/-- The lead as it is first inserted. -/
def newLead (id organizationId : ℕ) (data : LeadCreate) : Lead :=
  { id := id
    organizationId := organizationId
    leadSourceId := data.leadSourceId
    ownerUserId := data.ownerUserId
    status := data.status.getD .new
    email := data.contact.email
    phone := data.contact.phone
    whatsapp := data.contact.whatsapp
    website := data.contact.website
    stageId := none
    closeReasonId := none
    wonAt := none
    lostAt := none
    deletedAt := none }

def Db.insertLead (db : Db) (lead : Lead) : Db :=
  { db with leads := db.leads ++ [lead], nextId := db.nextId + 1 }

/-- The row of a lead takes its new values. -/
def Db.putLead (db : Db) (lead : Lead) : Db :=
  { db with leads := db.leads.map fun other => if other.id = lead.id then lead else other }

def create (n : Normalizers) (db : Db) (organizationId : ℕ) (data : LeadCreate)
    (autoAssigned : Option ℕ) (now : Datetime) : Except Failure Db := do
  validateRefs db organizationId data.ownerUserId data.leadSourceId
  let lead := newLead db.nextId organizationId data
  if db.violates n lead then
    throw (.appError leadDuplicate)
  let (db, lead) ← reconcile (db.insertLead lead) organizationId lead data.transition now
  let lead := { lead with ownerUserId := lead.ownerUserId.or autoAssigned }
  return db.putLead lead

/-! ### Update -/

/-- The data of an update: each key that is there, with its value. -/
structure LeadUpdate where
  leadSourceId : Option (Option ℕ)
  ownerUserId : Option (Option ℕ)
  email : Option (Option String)
  phone : Option (Option String)
  whatsapp : Option (Option String)
  website : Option (Option String)
  status : Option (Option LeadStatus)
  stageId : Option (Option ℕ)
  closeReasonId : Option (Option ℕ)
  deriving DecidableEq, Repr

/-- The fields that are set directly; status, stage and close reason are not among them. -/
def setFields (lead : Lead) (data : LeadUpdate) : Lead :=
  { lead with
    leadSourceId := data.leadSourceId.getD lead.leadSourceId
    ownerUserId := data.ownerUserId.getD lead.ownerUserId
    email := data.email.getD lead.email
    phone := data.phone.getD lead.phone
    whatsapp := data.whatsapp.getD lead.whatsapp
    website := data.website.getD lead.website }

def getLeadOr404 (db : Db) (organizationId leadId : ℕ) : Except Failure Lead :=
  match db.getLead organizationId leadId with
  | some lead => .ok lead
  | none => .error (.appError leadNotFound)

/-- Whether one of the keys that `reconcile` owns is there. -/
def LeadUpdate.reconciles (data : LeadUpdate) : Bool :=
  data.status.isSome || data.stageId.isSome || data.closeReasonId.isSome

/-- The change that an update asks for. -/
def LeadUpdate.transition (data : LeadUpdate) : Transition :=
  ⟨data.status.join, data.stageId.join, data.closeReasonId.join, none, true⟩

def update (n : Normalizers) (db : Db) (organizationId leadId : ℕ) (data : LeadUpdate)
    (now : Datetime) : Except Failure Db := do
  let lead ← getLeadOr404 db organizationId leadId
  validateRefs db organizationId data.ownerUserId.join data.leadSourceId.join
  let lead := setFields lead data
  -- the first query of `reconcile` flushes the fields, outside of the handler
  if data.reconciles && db.violates n lead then
    throw .integrityError
  let (db, lead) ←
    if data.reconciles then reconcile db organizationId lead data.transition now
    else pure (db, lead)
  if db.violates n lead then
    throw (.appError leadDuplicate)
  return db.putLead lead

/-! ### Duplicates -/

/-- `value` as a filter: an empty one is none. -/
def truthy (key : Option (List Char)) : Option (List Char) := key.bind orNone

/-- `find_duplicates`: the leads that are not deleted and match one of the keys, 20 at most. -/
def findDuplicates (n : Normalizers) (db : Db) (organizationId : ℕ)
    (email phone domain : Option (List Char)) : List Lead :=
  (db.leads.filter fun lead =>
    lead.organizationId = organizationId && lead.deletedAt = none &&
      (clash (truthy email) (lead.emailNormalized n) ||
        clash (truthy phone) (lead.phoneNormalized n) ||
        clash (truthy domain) (lead.websiteDomain n))).take 20

/-- `duplicate_check`: the keys of the contact fields, the whatsapp left out. -/
def duplicateCheck (n : Normalizers) (db : Db) (organizationId : ℕ) (email phone website : Option String) :
    List Lead :=
  findDuplicates n db organizationId (orNone (n.lower (strip (email.getD "").toList)))
    (normalizePhone phone) (normalizeDomain n website)

/-! ### Calls -/

/-- The calls that move leads through their lifecycle.  `reconcile` is called on a lead that was read
from the organization, and committed. -/
inductive Op where
  | create (organizationId : ℕ) (data : LeadCreate) (autoAssigned : Option ℕ)
  | update (organizationId leadId : ℕ) (data : LeadUpdate)
  | reconcile (organizationId leadId : ℕ) (change : Transition)
  deriving DecidableEq, Repr

def step (n : Normalizers) (db : Db) (now : Datetime) : Op → Except Failure Db
  | .create organizationId data autoAssigned => create n db organizationId data autoAssigned now
  | .update organizationId leadId data => update n db organizationId leadId data now
  | .reconcile organizationId leadId change => do
      let lead ← getLeadOr404 db organizationId leadId
      let (db, lead) ← Leads.reconcile db organizationId lead change now
      return db.putLead lead

end Leads
