import AgencyOS.Outbox.Attempts
import AgencyOS.Automation.FounderService

/-!
The delivery outbox as programs: the repository, the service, the dashboard provider and the
worker, every delivery claimed, dispatched and landed in one transaction.

* `outbox`: the schema of deliveries and notifications;
* `DeliveryRepository`, `DeliveryService`: the guarded updates, `cancel`, `retry`;
* `InAppProvider.deliver`: the notification that a dashboard delivery creates;
* `DeliveryWorker`: `attempt`, `drainOrg`, and the two phases of `sweep_once`.
-/

namespace Outbox

open Txn Automation

/-! ### Notifications -/

inductive NotificationType where
  | approvalRequest | approvalResult | workflowEvent | agentEvent | system | briefing | insight
  deriving DecidableEq, Repr

/-- `NotificationType(hint)`, a lookup by value. -/
def NotificationType.ofValue : String → Option NotificationType
  | "approval_request" => some .approvalRequest
  | "approval_result" => some .approvalResult
  | "workflow_event" => some .workflowEvent
  | "agent_event" => some .agentEvent
  | "system" => some .system
  | "briefing" => some .briefing
  | "insight" => some .insight
  | _ => none

/-- A row of `notifications`, unread. -/
structure Notification where
  organizationId : ℕ
  userId : Option ℕ
  type : NotificationType
  title : String
  body : String
  actionUrl : Option String
  metadata : JsonObject
  deriving DecidableEq, Repr

/-- `{**object, key: value}`. -/
def insertKey (object : JsonObject) (key : String) (value : JsonValue) : JsonObject :=
  if key ∈ object.map Prod.fst then
    object.map fun entry => if entry.1 = key then (key, value) else entry
  else
    object ++ [(key, value)]

/-- `metadata["delivery_id"]` of a notification. -/
def Notification.deliveryId (n : Notification) : Option JsonValue := n.metadata.lookup "delivery_id"

/-- `str(id)`. -/
def idText (n : ℕ) : JsonValue := .str (toString n)

/-! ### The schema -/

inductive Table where
  | delivery | notification
  deriving DecidableEq, Repr

@[reducible] def Row : Table → Type
  | .delivery => Delivery
  | .notification => Notification

/-- The `UPDATE`s of `DeliveryRepository`, each with the time that stamps it. -/
structure Update where
  transition : Transition
  updatedAt : Time
  deriving DecidableEq, Repr

inductive Query where
  | getQueuedOrgs
  | getQueuedForOrg (organizationId : ℕ) (now : Time)
  | dueRetrying (now : Time)
  | listStaleProcessing (before : Time)
  deriving DecidableEq, Repr

/-- The conditions of the bulk reads; the one of `requeue_due_retrying` is that of its `UPDATE`. -/
def Query.matching : Query → Delivery → Bool
  | getQueuedOrgs, r => r.status = .queued
  | getQueuedForOrg org now, r => r.organizationId = org && r.status = .queued
      && r.scheduledFor ≤ now && (r.nextAttemptAt.isNone || r.nextAttemptAt.any (· ≤ now))
  | dueRetrying now, r => (Delivery.requeueDueRetrying now).guard r
  | listStaleProcessing before, r => r.status = .processing && r.isStale before

/-- The outbox database; the only rows inserted here are notifications. -/
@[reducible] def outbox : Schema where
  Table := Table
  Row := Row
  Update := Update
  target := fun _ => .delivery
  act := fun u => u.transition.update u.updatedAt
  Insert := Notification
  into := fun _ => .notification
  new := fun n => n
  Query := Query
  source := fun _ => .delivery
  matching := Query.matching

/-- A program on the outbox database. -/
abbrev Tx (α : Type) : Type := Txn.Tx outbox Exn α

abbrev Database (ι : Type) : Type := Db outbox ι

abbrev Happened (ι : Type) : Type := Event (sql outbox) ι (Database ι)

abbrev Sessions (ι α : Type) : Type := Pool (sql outbox) ι (Database ι) Exn α

abbrev postgres (ι : Type) [DecidableEq ι] : Server (sql outbox) ι (Database ι) :=
  server outbox ι

def raise {α : Type} (code message : String) (statusCode : ℕ) : Tx α :=
  throw (.app ⟨code, message, statusCode⟩ false)

/-- One service call or phase in a session of its own, its response ignored. -/
def client {α : Type} (p : Tx α) : Tx Unit := (Txn.Tx.withSession p).bind fun _ => .ret ()

/-- What the configuration says about deliveries. -/
structure Settings where
  deliveryBatchSize : ℕ
  deliveryRecoverySeconds : ℕ
  deliveryOrgsPerSweep : ℕ
  deliveryRetryBaseSeconds : ℕ

/-! ### Repository -/

namespace DeliveryRepository

def get (organizationId deliveryId : ℕ) : Tx (Option Delivery) := do
  let row ← Tx.select (S := outbox) Table.delivery deliveryId
  return row.filter (·.organizationId = organizationId)

/-- A guarded `UPDATE`, with the row it returns; the transaction has the time of its statement. -/
def guarded (t : Time → Transition) (deliveryId : ℕ) : Tx (Option Delivery) := do
  let now ← Tx.now
  Tx.update (S := outbox) ⟨t now, now⟩ deliveryId

def claim (organizationId deliveryId : ℕ) : Tx (Option Delivery) :=
  guarded (fun now => .claim organizationId now) deliveryId

def requeueStale (organizationId deliveryId : ℕ) (staleBefore : Time) : Tx (Option Delivery) :=
  guarded (fun now => .requeueStale organizationId staleBefore now) deliveryId

/-- `requeue_due_retrying`: one `UPDATE` of all rows that were due when it began, each tested again
once its lock is free. -/
def requeueDueRetrying : Tx ℕ := do
  let now ← Tx.now
  let rows ← Tx.scan (S := outbox) (.dueRetrying now)
  Prog.tally rows fun row => do
    let updated ← Tx.update (S := outbox) ⟨.requeueDueRetrying now, now⟩ row.1
    return updated.isSome.toNat

/-- `get_queued_orgs`: organizations with queued work, oldest first. -/
def getQueuedOrgs (limit : ℕ) : Tx (List ℕ) := do
  let rows ← Tx.scan (S := outbox) .getQueuedOrgs
  return ((orderBy (fun r : Delivery => some r.scheduledFor) rows).map
    (·.2.organizationId)).eraseDups.take limit

/-- `get_queued_for_org`: the oldest due deliveries of an organization. -/
def getQueuedForOrg (organizationId limit : ℕ) : Tx (List (ℕ × Delivery)) := do
  let now ← Tx.now
  let rows ← Tx.scan (S := outbox) (.getQueuedForOrg organizationId now)
  return (orderBy (fun r : Delivery => some r.scheduledFor) rows).take limit

def listStaleProcessing (before : Time) (limit : ℕ) : Tx (List (ℕ × Delivery)) := do
  let rows ← Tx.scan (S := outbox) (.listStaleProcessing before)
  return (orderBy (fun r : Delivery => some r.updatedAt) rows).take limit

end DeliveryRepository

/-! ### Service -/

namespace DeliveryService

open DeliveryRepository

def get (organizationId deliveryId : ℕ) : Tx Delivery := do
  match ← DeliveryRepository.get organizationId deliveryId with
  | none => raise "delivery.not_found" "Delivery not found" 404
  | some delivery => return delivery

/-- `DeliveryStatus.value`. -/
def statusValue : DeliveryStatus → String
  | .queued => "queued"
  | .processing => "processing"
  | .delivered => "delivered"
  | .retrying => "retrying"
  | .failed => "failed"
  | .cancelled => "cancelled"

/-- `cancel`: a waiting delivery at once, one in flight by a flag. -/
def cancel (organizationId deliveryId : ℕ) (cancelledByUserId : Option ℕ) : Tx Delivery := do
  let delivery ← get organizationId deliveryId
  let now ← Tx.now
  if delivery.status = .queued ∨ delivery.status = .retrying then
    match ← guarded (fun _ => .markCancelled organizationId now cancelledByUserId) deliveryId with
    | some cancelled =>
        Tx.commit
        return cancelled
    | none => get organizationId deliveryId
  else if delivery.status = .processing then
    match ← guarded (fun _ => .markCancelRequested organizationId now cancelledByUserId)
        deliveryId with
    | some flagged =>
        Tx.commit
        return flagged
    | none => get organizationId deliveryId
  else
    raise "delivery.invalid_state"
      ("Cannot cancel a " ++ statusValue delivery.status ++ " delivery") 409

/-- `retry`: a failed or cancelled delivery back in the queue. -/
def retry (organizationId deliveryId : ℕ) : Tx Delivery := do
  let delivery ← get organizationId deliveryId
  if ¬ (delivery.status = .failed ∨ delivery.status = .cancelled) then
    raise "delivery.invalid_state"
      ("Cannot retry a " ++ statusValue delivery.status ++ " delivery") 409
  let now ← Tx.now
  match ← guarded (fun _ => .markRequeued organizationId now) deliveryId with
  | some requeued =>
      Tx.commit
      return requeued
  | none => get organizationId deliveryId

end DeliveryService

/-! ### The dashboard provider -/

/-- The metadata of the message that a delivery is dispatched with. -/
def messageMetadata (claimed : Delivery) : JsonObject :=
  insertKey claimed.payload "approval_request_id"
    (match claimed.approvalRequestId with
      | some approvalRequestId => idText approvalRequestId
      | none => .other "None" false)

namespace InAppProvider

open FounderActionService (payloadGet)

/-- `_notification_type`. -/
def notificationType (metadata : JsonObject) : NotificationType :=
  if (payloadGet metadata "approval_request_id").isSome then
    .approvalRequest
  else
    match (payloadGet metadata "notification_type").filter (·.truthy) with
    | some (.str hint) => (NotificationType.ofValue hint).getD .system
    | _ => .system

/-- The notification that a delivery creates. -/
def notification (deliveryId : ℕ) (claimed : Delivery) : Notification where
  organizationId := claimed.organizationId
  userId := claimed.recipientUserId
  type := notificationType (messageMetadata claimed)
  title := claimed.subject
  body := claimed.body
  actionUrl := claimed.actionUrl
  metadata := insertKey (messageMetadata claimed) "delivery_id" (idText deliveryId)

/-- `NotificationType.value`. -/
def typeValue : NotificationType → String
  | .approvalRequest => "approval_request"
  | .approvalResult => "approval_result"
  | .workflowEvent => "workflow_event"
  | .agentEvent => "agent_event"
  | .system => "system"
  | .briefing => "briefing"
  | .insight => "insight"

/-- `deliver`: the notification is inserted by the flush; the metadata of the result. -/
def deliver (deliveryId : ℕ) (claimed : Delivery) : Tx JsonObject := do
  let n := notification deliveryId claimed
  let notificationId ← Tx.insert (S := outbox) n
  return [("notification_id", idText notificationId), ("notification_type", .str (typeValue n.type))]

end InAppProvider

/-! ### Worker -/

/-- What happens while an attempt is dispatched: the notification is flushed; something raises before
anything is written; or the flush fails, or is cut off by the timeout, which leaves the session to
be rolled back. -/
inductive Dispatch where
  | flushed
  | failed (error : String)
  | retry (error : String)
  | timedOut (error : String)
  | flushFailed
  deriving DecidableEq, Repr

namespace DeliveryWorker

open DeliveryRepository

variable (settings : Settings) (dispatch : ℕ → Delivery → Dispatch)

/-- `DeliveryChannel.value`. -/
def channelValue : DeliveryChannel → String
  | .dashboard => "dashboard"
  | .email => "email"
  | .whatsapp => "whatsapp"
  | .push => "push"

/-- `_mark_delivered` and `_land`: whether the `UPDATE` has matched is not looked at. -/
def landOutcome (organizationId deliveryId : ℕ) (claimed : Delivery) (outcome : Outcome) :
    Tx Unit := do
  let _ ← guarded (fun now => landing settings.deliveryRetryBaseSeconds organizationId claimed now
    outcome) deliveryId

/-- `_attempt`: only the dashboard has a provider. -/
def attempt (organizationId deliveryId : ℕ) (claimed : Delivery) : Tx Unit :=
  if claimed.channel = .dashboard then
    match dispatch deliveryId claimed with
    | .flushed => do
        let providerMetadata ← InAppProvider.deliver deliveryId claimed
        landOutcome settings organizationId deliveryId claimed (.delivered providerMetadata)
    | .failed error => landOutcome settings organizationId deliveryId claimed (.failed error)
    | .retry error => landOutcome settings organizationId deliveryId claimed (.retry error)
    | .timedOut error => landOutcome settings organizationId deliveryId claimed (.timedOut error)
    -- the landing of the error meets the session in need of a rollback
    | .flushFailed => throw (.other "PendingRollbackError")
  else
    landOutcome settings organizationId deliveryId claimed
      (.retry ("No delivery provider registered for channel '" ++ channelValue claimed.channel ++ "'"))

/-- The body of the drain loop: claim, dispatch, land, commit. -/
def drainOne (organizationId deliveryId : ℕ) : Tx ℕ := do
  match ← claim organizationId deliveryId with
  | none => return 0
  | some claimed =>
      attempt settings dispatch organizationId deliveryId claimed
      Tx.commit
      return 1

/-- `_drain_org`. -/
def drainOrg (organizationId : ℕ) : Tx ℕ := do
  let due ← getQueuedForOrg organizationId settings.deliveryBatchSize
  Prog.tally due fun row => drainOne settings dispatch organizationId row.1

/-- `_recover_stale`: the number of deliveries put back. -/
def recoverStale : Tx ℕ := do
  let now ← Tx.now
  let staleThreshold := now - settings.deliveryRecoverySeconds * second
  let stale ← listStaleProcessing staleThreshold settings.deliveryBatchSize
  Prog.tally stale fun row => do
    let requeued ← requeueStale row.2.organizationId row.1 staleThreshold
    return requeued.isSome.toNat

/-- The first phase of `sweep_once`: recovery and promotion. -/
def recoveryPhase : Tx ℕ := do
  let recovered ← recoverStale settings
  let promoted ← requeueDueRetrying
  Tx.commit
  return recovered + promoted

/-- The second phase: the drain, organization by organization; a failure of one is rolled back. -/
def drainPhase : Tx ℕ := do
  let orgs ← getQueuedOrgs settings.deliveryOrgsPerSweep
  let drained ← Prog.tally orgs fun org =>
    tryCatch (drainOrg settings dispatch org) fun _ => do
      Tx.rollback
      return 0
  Tx.commit
  return drained

end DeliveryWorker

end Outbox
