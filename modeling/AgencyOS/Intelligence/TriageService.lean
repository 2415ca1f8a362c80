import AgencyOS.Intelligence.Model
import AgencyOS.Python.Collections
import Mathlib.Data.Prod.Lex

/-!
The triage sweep of an organization, and the status updates of its founder.

A sweep collects candidates from four queries, keeps the first of each content hash up to a cap,
scores them, upserts a signal for each and supersedes the active signals of other hashes.  The
score of a candidate is a function `score`: it decides in which order the signals are written.

* `activeRecommendations`, `activeInsights`, `completedAnalyses`, `highValueLeads`, `Orders`: the
  queries, and the orders in which the store answers them;
* `collectCandidates`, `sweepCandidates`, `scored`: the candidates of a sweep;
* `getLiveByHash`, `writeSignal`, `syncOnce`, `supersedeStale`, `runSweepForOrg`: the sweep, with its retry;
* `triageOrg`: the sweep as its callers run it, committed or rolled back;
* `updateStatus`, `FeedRequest`: the founder's updates, and the requests of clients.
-/

namespace Intelligence

open Python Txn

/-! ### The queries -/

/-- A day, in microseconds. -/
def day : ℤ := 86400 * 1000000

def pipelineStatuses : List Leads.LeadStatus := [.meetingBooked, .proposalSent]

/-- `PIPELINE_VALUE_THRESHOLD`, in cents. -/
def pipelineValueThreshold : ℕ := 10000 * 100

def pipelineLeadScanCap : ℕ := 100

/-- The rows of `list_for_org`, with the status `ACTIVE`. -/
def activeRecommendations (src : Sources) (organizationId : ℕ) : List GrowthRecommendation :=
  src.recommendations.filter fun r => r.organizationId = organizationId && r.status = .active

/-- `ORDER BY status, priority, created_at DESC`. -/
def recommendationKey (r : GrowthRecommendation) : ℕ ×ₗ (ℕ ×ₗ ℤᵒᵈ) :=
  toLex (r.status.rank, toLex (r.priority.rank, OrderDual.toDual r.createdAt))

/-- The rows of `list_by_status`, with the status `ACTIVE`. -/
def activeInsights (src : Sources) (organizationId : ℕ) : List BusinessInsight :=
  src.insights.filter fun r => r.organizationId = organizationId && r.status = .active

/-- `ORDER BY created_at DESC`. -/
def insightKey (r : BusinessInsight) : ℤᵒᵈ := OrderDual.toDual r.createdAt

/-- The rows of `list_by_filters`, with the status `COMPLETED` and a start. -/
def completedAnalyses (settings : Settings) (src : Sources) (organizationId : ℕ) (now : ℤ) :
    List GrowthAnalysis :=
  src.analyses.filter fun r => r.organizationId = organizationId && r.status = .completed
    && now - settings.windowDays * day ≤ r.periodStart

/-- `ORDER BY created_at DESC`. -/
def analysisKey (r : GrowthAnalysis) : ℤᵒᵈ := OrderDual.toDual r.createdAt

/-- The rows of `list_for_intelligence`. -/
def highValueLeads (src : Sources) (organizationId : ℕ) : List Lead :=
  src.leads.filter fun r => r.organizationId = organizationId && r.deletedAt.isNone
    && pipelineStatuses.contains r.status && r.dealValue.any (pipelineValueThreshold ≤ ·)

/-- `ORDER BY deal_value DESC`. -/
def leadKey (r : Lead) : ℕᵒᵈ := OrderDual.toDual (r.dealValue.getD 0)

/-- The orders in which the store answers the four queries of a sweep. -/
structure Orders (settings : Settings) (src : Sources) (organizationId : ℕ) (now : ℤ) where
  recommendations : List GrowthRecommendation
  insights : List BusinessInsight
  analyses : List GrowthAnalysis
  leads : List Lead
  recommendationsOrdered :
    OrderedBy recommendationKey (activeRecommendations src organizationId) recommendations
  insightsOrdered : OrderedBy insightKey (activeInsights src organizationId) insights
  analysesOrdered :
    OrderedBy analysisKey (completedAnalyses settings src organizationId now) analyses
  leadsOrdered : OrderedBy leadKey (highValueLeads src organizationId) leads

/-! ### The candidates of a sweep -/

/-- The rules on a lead.  The quotient of the age by a day is compared as a float with 7, which
comes to comparing the microseconds. -/
def pipelineFact (now : ℤ) (lead : Lead) : Option SignalCandidate :=
  let age := now - lead.updatedAt
  if lead.status = .proposalSent ∧ age ≤ pipelineFreshDays * day then
    some (normalizePipelineFact lead .freshHighValueProposal)
  else if pipelineStuckDays * day < age then some (normalizePipelineFact lead .stuckHighValue)
  else none

def collectCandidates {settings : Settings} {src : Sources} {organizationId : ℕ} {now : ℤ}
    (orders : Orders settings src organizationId now) : List SignalCandidate :=
  let cap := settings.maxSignalsPerOrg
  (orders.recommendations.take cap).map normalizeRecommendation
    ++ ((orders.insights.take cap).map normalizeInsight
    ++ ((orders.analyses.take cap).map normalizeAnalysis
    ++ (orders.leads.take pipelineLeadScanCap).filterMap (pipelineFact now)))

variable (sha256 : Text → Text) (score : SignalCandidate → ℤ → ℚ) (settings : Settings)

/-- `by_hash.setdefault(candidate.content_hash, candidate)`, for each candidate in turn. -/
def byHash (collected : List SignalCandidate) : OrderedDict Text SignalCandidate :=
  collected.foldl (fun d c => d.update c id (c.contentHash sha256)) .empty

/-- `list(by_hash.values())[:cap]`. -/
def sweepCandidates (collected : List SignalCandidate) : List SignalCandidate :=
  ((byHash sha256 collected).items.map Prod.snd).take settings.maxSignalsPerOrg

/-- The candidates with their scores, the highest first. -/
def scored (candidates : List SignalCandidate) (now : ℤ) : List (SignalCandidate × ℚ) :=
  sortedBy (fun x => OrderDual.toDual x.2) (candidates.map fun c => (c, score c now))

/-- The content hashes that a sweep emits. -/
def liveHashes (collected : List SignalCandidate) (now : ℤ) : List Text :=
  (scored score (sweepCandidates sha256 settings collected) now).map fun x => x.1.contentHash sha256

/-! ### The sweep -/

inductive TriageError where
  | integrityError
  | multipleResultsFound
  | appError (code message : String) (statusCode : ℕ)
  deriving DecidableEq, Repr

abbrev Tx (α : Type) : Type := Prog (indexedSql intelligence) TriageError α

abbrev FeedDb (ι : Type) : Type := Db intelligence ι

abbrev FeedPool (ι α : Type) : Type :=
  Pool (indexedSql intelligence) ι (FeedDb ι) TriageError α

abbrev feedServer (ι : Type) [DecidableEq ι] : Server (indexedSql intelligence) ι (FeedDb ι) :=
  indexedServer liveKey ι

/-- One statement; a refused one raises `IntegrityError`. -/
def execute (q : Sql intelligence) : Tx q.Resp :=
  .call q fun
    | .ok answer => .ret answer
    | .error _ => .raise .integrityError

/-- `get_live_by_hash`, with `scalar_one_or_none`. -/
def getLiveByHash (organizationId : ℕ) (contentHash : Text) : Tx (Option ℕ) :=
  (execute (.scan (Query.liveByHash organizationId contentHash))).bind fun
    | [] => .ret none
    | [row] => .ret (some row.1)
    | _ => .raise .multipleResultsFound

/-- A candidate written to the signal found, or to a new one; whether one was created.  The next
query flushes it. -/
def writeSignal (organizationId : ℕ) (now : ℤ) (x : SignalCandidate × ℚ) : Option ℕ → Tx Bool
  | none => (execute (.insert (newSignal sha256 organizationId x.1 x.2 now))).bind fun _ => .ret true
  | some n => (execute (.update (Update.refresh x.1 x.2 now) n)).bind fun _ => .ret false

/-- The upsert of one candidate. -/
def syncOne (organizationId : ℕ) (now : ℤ) (x : SignalCandidate × ℚ) : Tx Bool :=
  (getLiveByHash organizationId (x.1.contentHash sha256)).bind (writeSignal sha256 organizationId now x)

/-- `_sync_once`: the numbers of signals created and updated. -/
def syncOnce (organizationId : ℕ) (now : ℤ) : List (SignalCandidate × ℚ) → Tx (ℕ × ℕ)
  | [] => .ret (0, 0)
  | x :: xs => (syncOne sha256 organizationId now x).bind fun created =>
      (syncOnce organizationId now xs).bind fun counts =>
        .ret (if created then (counts.1 + 1, counts.2) else (counts.1, counts.2 + 1))

/-- `supersede_stale`: the rows picked by the statement, each rechecked under its lock. -/
def supersedeStale (organizationId : ℕ) (liveHashes : List Text) : Tx ℕ :=
  (execute (.scan (Query.stale organizationId liveHashes))).bind fun rows =>
    Prog.tally rows fun row =>
      (execute (.update (Update.supersede organizationId liveHashes) row.1)).bind fun r =>
        .ret (if r.isSome then 1 else 0)

structure Counters where
  candidates : ℕ
  created : ℕ
  updated : ℕ
  superseded : ℕ
  highPriority : ℕ
  deriving DecidableEq, Repr

/-- One attempt of the sweep to write its signals. -/
def attemptSync (organizationId : ℕ) (collected : List SignalCandidate) (now : ℤ) : Tx Counters :=
  let xs := scored score (sweepCandidates sha256 settings collected) now
  (syncOnce sha256 organizationId now xs).bind fun counts =>
    (supersedeStale organizationId (liveHashes sha256 score settings collected now)).bind
      fun superseded => .ret {
        candidates := xs.length
        created := counts.1
        updated := counts.2
        superseded := superseded
        highPriority := (xs.filter fun x => (7 / 10 : ℚ) ≤ x.2).length }

/-- `run_sweep_for_org`, from the candidates collected: an `IntegrityError` is rolled back and
retried once. -/
def runSweepForOrg (organizationId : ℕ) (collected : List SignalCandidate) (now : ℤ) :
    Tx Counters :=
  let attempt := attemptSync sha256 score settings organizationId collected now
  attempt.tryCatch fun
    | .integrityError => (execute .rollback).bind fun _ =>
        attempt.tryCatch fun
          | .integrityError => (execute .rollback).bind fun _ => .raise .integrityError
          | e => .raise e
    | e => .raise e

/-- A sweep in a session of its caller, the worker or the endpoint: committed, or rolled back when
it raises. -/
def triageOrg (organizationId : ℕ) (collected : List SignalCandidate) (now : ℤ) : Tx Counters :=
  ((runSweepForOrg sha256 score settings organizationId collected now).bind fun counters =>
    (execute .commit).bind fun _ => .ret counters).tryCatch fun e =>
      (execute .rollback).bind fun _ => .raise e

/-! ### The founder's updates -/

/-- `FounderIntelligenceService.update_status`. -/
def updateStatus (organizationId signalId : ℕ) (status : IntelligenceSignalStatus) : Tx Unit :=
  if status ≠ .acknowledged ∧ status ≠ .dismissed then
    .raise (.appError "intelligence_signal.invalid_transition"
      "Signals can only be acknowledged or dismissed" 422)
  else
    (execute (.select () signalId)).bind fun row =>
      match row.filter fun r : IntelligenceSignal => r.organizationId = organizationId with
      | none => .raise (.appError "intelligence_signal.not_found"
          "Intelligence signal not found" 404)
      | some current =>
          if current.status = .superseded then
            .raise (.appError "intelligence_signal.superseded"
              "Superseded signals cannot be acknowledged or dismissed" 409)
          else if current.status = status then .ret ()
          else (execute (.update (Update.setStatus organizationId status) signalId)).bind
            fun _ => .ret ()

/-- The endpoint of a status update.  It does not commit, and closing its session rolls back. -/
def updateSignal (organizationId signalId : ℕ) (status : IntelligenceSignalStatus) : Tx Unit :=
  ((updateStatus organizationId signalId status).bind fun _ =>
    (execute .rollback).bind fun _ => .ret ()).tryCatch fun e =>
      (execute .rollback).bind fun _ => .raise e

/-- The requests of clients: sweeps, of whatever candidates they have collected, and updates. -/
inductive FeedRequest where
  | triage (organizationId : ℕ) (collected : List SignalCandidate) (now : ℤ)
  | updateSignal (organizationId signalId : ℕ) (status : IntelligenceSignalStatus)

def FeedRequest.program : FeedRequest → Tx Unit
  | triage organizationId collected now =>
      (triageOrg sha256 score settings organizationId collected now).bind fun _ => .ret ()
  | updateSignal organizationId signalId status =>
      Intelligence.updateSignal organizationId signalId status

end Intelligence
