import AgencyOS.Outbox.DeliveryWorker
import AgencyOS.Txn.Extend

/-!
`DeliveryService.enqueue`: a delivery into the outbox.

The schema of the outbox is extended by the `INSERT` of a delivery and by the two reads that come before
it.  The initial event, the counter and the log line are left out.

* `intake`, `withIntake`: the extension, and the outbox with it;
* `EnqueueSettings`: what `enqueue` reads of the configuration, as validated at startup;
* `enqueue`: idempotent on the key, capped on the pending deliveries of the organization.
-/

namespace Outbox

open Txn Automation

/-! ### The schema -/

/-- QUEUED, PROCESSING or RETRYING, in the organization: the condition of `count_pending`. -/
def Delivery.isPending (organizationId : ℕ) (r : Delivery) : Bool :=
  r.organizationId = organizationId
    && (r.status = .queued || r.status = .processing || r.status = .retrying)

inductive IntakeQuery where
  | countPending (organizationId : ℕ)
  | getByIdempotency (organizationId : ℕ) (idempotencyKey : String)
  deriving DecidableEq, Repr

def IntakeQuery.matching : IntakeQuery → Delivery → Bool
  | countPending org, r => r.isPending org
  | getByIdempotency org key, r => r.organizationId = org && r.idempotencyKey = some key

/-- The insert of a delivery, and the reads before it. -/
@[reducible] def intake : Extension outbox where
  Table := Empty
  Row := Empty.elim
  Update := Empty
  target := Empty.elim
  act := nofun
  Insert := Delivery
  into := fun _ => .inl .delivery
  new := fun d => d
  Query := IntakeQuery
  source := fun _ => .inl .delivery
  matching := IntakeQuery.matching

/-- The outbox with the insert of deliveries. -/
@[reducible] def withIntake : Schema := outbox.extend intake

/-- A program that may enqueue. -/
abbrev IntakeTx (α : Type) : Type := Txn.Tx withIntake Exn α

/-- What the configuration says to `enqueue`; the startup refuses a cap below 1. -/
structure EnqueueSettings where
  deliveryMaxPendingPerOrg : ℕ
  deliveryMaxAttempts : ℕ
  deliveryMaxPayloadBytes : ℕ
  one_le_cap : 1 ≤ deliveryMaxPendingPerOrg

/-! ### Repository -/

namespace DeliveryRepository

/-- `count_pending`: the un-drained deliveries of an organization. -/
def countPending (organizationId : ℕ) : IntakeTx ℕ := do
  let rows ← Tx.scan (S := withIntake) (.inr (.countPending organizationId))
  return rows.length

/-- `get_by_idempotency`: `scalar_one_or_none`. -/
def getByIdempotency (organizationId : ℕ) (idempotencyKey : String) :
    IntakeTx (Option (ℕ × Delivery)) := do
  match ← Tx.scan (S := withIntake) (.inr (.getByIdempotency organizationId idempotencyKey)) with
  | [] => return none
  | [row] => return some row
  | _ => throw (.other "MultipleResultsFound")

end DeliveryRepository

/-! ### Service -/

namespace DeliveryService

open DeliveryRepository DeliveryWorker

/-- `provider_available`: only the dashboard has a provider. -/
def providerAvailable (channel : DeliveryChannel) : Bool := channel = .dashboard

variable (settings : EnqueueSettings) (dumps : JsonObject → String)

/-- `_payload_too_large`, with `json.dumps`; a limit of zero is no limit. -/
def payloadTooLarge (payload : JsonObject) : Bool :=
  0 < settings.deliveryMaxPayloadBytes
    && settings.deliveryMaxPayloadBytes < (dumps payload).utf8ByteSize

/-- The delivery that stands under the idempotency key, if one is given. -/
def findExisting (organizationId : ℕ) (idempotencyKey : Option String) :
    IntakeTx (Option (ℕ × Delivery)) :=
  match idempotencyKey.filter (· ≠ "") with
  | none => return none
  | some idempotencyKey => getByIdempotency organizationId idempotencyKey

/-- The pending cap of an organization. -/
def checkPendingCap (organizationId : ℕ) : IntakeTx Unit := do
  if settings.deliveryMaxPendingPerOrg > 0 then
    let pending ← countPending organizationId
    if settings.deliveryMaxPendingPerOrg ≤ pending then
      throw (.app ⟨"delivery.pending_cap_exceeded",
        "Per-org pending cap (" ++ toString settings.deliveryMaxPendingPerOrg ++ ") exceeded", 429⟩
        false)

/-- The insert with its commit; `refused` when a constraint refuses the row, as the unique index on
idempotency keys does. -/
def insertDelivery (d : NewDelivery) (refused : Bool) : IntakeTx ℕ := do
  let now ← Tx.now
  if refused then
    Tx.rollback
    if d.idempotencyKey.any (· ≠ "") then
      throw (.app ⟨"delivery.duplicate_idempotency_key",
        "A delivery with this idempotency key already exists", 409⟩ true)
    throw (.other "IntegrityError")
  let deliveryId ← Tx.insert (S := withIntake) (.inr (d.row settings.deliveryMaxAttempts now))
  Tx.commit
  return deliveryId

/-- `enqueue`: the id of the delivery, the one that stands under the key or a new one. -/
def enqueue (d : NewDelivery) (refused : Bool) : IntakeTx ℕ := do
  if !providerAvailable d.channel then
    throw (.app ⟨"provider.not_configured",
      "No provider shipped for channel '" ++ channelValue d.channel ++ "'", 422⟩ false)
  if payloadTooLarge settings dumps d.payload then
    throw (.app ⟨"delivery.payload_too_large",
      "Delivery payload exceeds the maximum allowed size", 422⟩ false)
  match ← findExisting d.organizationId d.idempotencyKey with
  | some existing => return existing.1
  | none =>
      checkPendingCap settings d.organizationId
      insertDelivery settings d refused

end DeliveryService

end Outbox
