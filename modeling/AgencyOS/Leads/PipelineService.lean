import AgencyOS.Leads.Model

/-!
The pipeline service: the stage of a lead, its status, and the bookkeeping of wins and losses.

* `bucketOf`, `openStatusFor`: statuses and buckets;
* `ensureDefaults`: the seeded stages and close reasons;
* `getDefault`, `pickStage`: the stage a transition ends in;
* `reconcile`: the transition.
-/

namespace Leads

open Python

/-- The seeded stages: name, lifecycle, default. -/
def defaultStages : List (String × StageLifecycle × Bool) :=
  [("new", .open, true), ("researching", .open, false), ("contacted", .open, false),
    ("meeting_booked", .open, false), ("proposal_sent", .open, false), ("won", .won, true),
    ("lost", .lost, true)]

def defaultCloseReasons : List (String × StageLifecycle × Bool) :=
  [("Contract signed", .won, true), ("Budget", .lost, true), ("Not a fit", .lost, false),
    ("No response", .lost, false)]

/-- `_OPEN_STATUSES`. -/
def openStatuses : List LeadStatus := [.new, .researching, .contacted, .meetingBooked, .proposalSent]

def bucketOf : LeadStatus → StageLifecycle
  | .won => .won
  | .lost => .lost
  | _ => .open

/-- `LeadStatus(name)`, where the name is one. -/
def statusNamed (name : String) : Option LeadStatus :=
  [LeadStatus.new, .researching, .contacted, .meetingBooked, .proposalSent, .won, .lost].find?
    fun status => status.value = name

/-- An open status for a lead in an open stage. -/
def openStatusFor (stage : PipelineStage) (previous : LeadStatus) : LeadStatus :=
  match statusNamed stage.name with
  | some candidate =>
      if candidate ∈ openStatuses then candidate
      else if previous ∈ openStatuses then previous
      else .contacted
  | none => if previous ∈ openStatuses then previous else .contacted

/-! ### Defaults -/

/-- A seeded stage is added unless one of its name and lifecycle was there. -/
def ensureStage (organizationId : ℕ) (stages : List PipelineStage) (db : Db × ℤ)
    (seed : String × StageLifecycle × Bool) : Db × ℤ :=
  if stages.any fun stage => stage.name = seed.1 && stage.lifecycle = seed.2.1 then db
  else
    ({ db.1 with
        stages := db.1.stages ++ [⟨db.1.nextId, organizationId, seed.1, seed.2.1, db.2, seed.2.2⟩]
        nextId := db.1.nextId + 1 }, db.2 + 1)

def ensureReason (organizationId : ℕ) (reasons : List CloseReason) (db : Db)
    (seed : String × StageLifecycle × Bool) : Db :=
  if reasons.any fun reason => reason.name = seed.1 && reason.lifecycle = seed.2.1 then db
  else
    { db with
      reasons := db.reasons ++ [⟨db.nextId, organizationId, seed.2.1, seed.1, seed.2.2⟩]
      nextId := db.nextId + 1 }

/-- `_ensure_defaults`. -/
def ensureDefaults (db : Db) (organizationId : ℕ) : Db :=
  let stages := db.listStages organizationId
  let nextPosition := (((stages.map (·.position)).max?).getD (-1)) + 1
  let db' := (defaultStages.foldl (ensureStage organizationId stages) (db, nextPosition)).1
  let reasons := db.reasons.filter (·.organizationId = organizationId)
  defaultCloseReasons.foldl (ensureReason organizationId reasons) db'

/-! ### The stage of a transition -/

/-- `get_default`: the stage of the hinted name, else the marked default, else the first. -/
def getDefault (db : Db) (organizationId : ℕ) (lifecycle : StageLifecycle)
    (nameHint : Option String) : Option PipelineStage :=
  let stages := (db.listStages organizationId).filter (·.lifecycle = lifecycle)
  (nameHint.bind fun hint => stages.find? (·.name = hint)).or
    ((stages.find? (·.isDefault)).or stages.head?)

def stageNotFound : AppError := ⟨"pipeline.stage_not_found", "Pipeline stage not found", 404⟩

def closeReasonNotFound : AppError :=
  ⟨"pipeline.close_reason_not_found", "Close reason not found", 404⟩

def closeReasonMismatch : AppError :=
  ⟨"pipeline.close_reason_lifecycle_mismatch", "Close reason lifecycle does not match the stage", 400⟩

/-- `_pick_stage`, for a lead whose status has been set. -/
def pickStage (db : Db) (organizationId : ℕ) (lead : Lead) (stageId : Option ℕ)
    (statusChanged : Bool) : Except Failure (Option PipelineStage) :=
  match stageId with
  | some stageId =>
      match db.getStage organizationId stageId with
      | some stage => .ok (some stage)
      | none => .error (.appError stageNotFound)
  | none =>
      let current := lead.stageId.bind (db.getStage organizationId)
      let bucket := bucketOf lead.status
      if statusChanged then
        match current with
        | some stage =>
            if stage.lifecycle = bucket then .ok (some stage)
            else
              .ok (getDefault db organizationId bucket
                (if bucket = .open then some lead.status.value else none))
        | none =>
            .ok (getDefault db organizationId bucket
              (if bucket = .open then some lead.status.value else none))
      else
        match current with
        | some stage => .ok (some stage)
        | none => .ok (getDefault db organizationId bucket none)

/-! ### The transition -/

/-- The lead goes into the stage, and its status follows. -/
def enterStage (lead : Lead) (previous : LeadStatus) (stage : PipelineStage) : Lead :=
  { lead with
    stageId := some stage.id
    status := match stage.lifecycle with
      | .won => .won
      | .lost => .lost
      | .open => openStatusFor stage previous }

/-- Timestamps and close reason by the final status. -/
def keepBooks (lead : Lead) (previous : LeadStatus) (now : Datetime) : Lead :=
  match lead.status with
  | .won =>
      { lead with wonAt := if previous = .won then lead.wonAt else some now, lostAt := none }
  | .lost =>
      { lead with lostAt := if previous = .lost then lead.lostAt else some now, wonAt := none }
  | _ => { lead with wonAt := none, lostAt := none, closeReasonId := none }

/-- A close reason that was given has to be of the bucket of the lead. -/
def giveReason (db : Db) (organizationId : ℕ) (lead : Lead) (closeReasonId : Option ℕ) :
    Except Failure Lead :=
  match closeReasonId with
  | none => .ok lead
  | some closeReasonId =>
      match db.getReason organizationId closeReasonId with
      | none => .error (.appError closeReasonNotFound)
      | some reason =>
          if bucketOf lead.status = reason.lifecycle then
            .ok { lead with closeReasonId := some reason.id }
          else .error (.appError closeReasonMismatch)

/-- The win or loss that is logged, on an actual change. -/
def winLoss (lead : Lead) (previous : LeadStatus) (organizationId : ℕ) (actor : Option ℕ)
    (stageId : Option ℕ) (now : Datetime) : List ActivityLog :=
  if lead.status = .won ∧ previous ≠ .won then
    [⟨organizationId, actor, lead.id, .leadWon, "Lead marked won", stageId, now⟩]
  else if lead.status = .lost ∧ previous ≠ .lost then
    [⟨organizationId, actor, lead.id, .leadLost, "Lead marked lost", stageId, now⟩]
  else []

/-- The arguments of `reconcile`. -/
structure Transition where
  status : Option LeadStatus
  stageId : Option ℕ
  closeReasonId : Option ℕ
  actor : Option ℕ
  emitEvents : Bool
  deriving DecidableEq, Repr

/-- `reconcile`: the lead as it ends, and the tables with the defaults and the events.  The lead is
not written here. -/
def reconcile (db : Db) (organizationId : ℕ) (lead : Lead) (change : Transition) (now : Datetime) :
    Except Failure (Db × Lead) := do
  let db := ensureDefaults db organizationId
  let previous := lead.status
  let lead := { lead with status := change.status.getD lead.status }
  let stage ← pickStage db organizationId lead change.stageId change.status.isSome
  let lead := match stage with
    | some stage => enterStage lead previous stage
    | none => lead
  let lead ← giveReason db organizationId (keepBooks lead previous now) change.closeReasonId
  let events := winLoss lead previous organizationId change.actor (stage.map (·.id)) now
  return ({ db with activity := db.activity ++ if change.emitEvents then events else [] }, lead)

end Leads
