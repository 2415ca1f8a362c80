import AgencyOS.Automation.Model

/-!
The life of one row of the delivery outbox under the guarded `UPDATE`s of `DeliveryRepository`.

* `Delivery`, `NewDelivery.row`: the row, and what `enqueue` inserts;
* `Transition`: the guarded `UPDATE`s of `deliveries`, with their arguments;
* `Transition.update`: the `UPDATE` each transition issues, guard and new values as in the
  repository;
* `Edge`, `Transition.edge`: the statuses each transition leads from and to;
* `Delivery.WellStamped`: the times of a row against its status;
* `delivery_row` (**the row invariant**): what holds of an enqueued row after any sequence of
  transitions.
-/

namespace Outbox

open Txn Automation

/-! ### Rows -/

inductive DeliveryStatus where
  | queued | processing | delivered | retrying | failed | cancelled
  deriving DecidableEq, Repr

inductive DeliveryChannel where
  | dashboard | email | whatsapp | push
  deriving DecidableEq, Repr

/-- A row of `deliveries`. -/
structure Delivery where
  organizationId : ℕ
  channel : DeliveryChannel
  recipientUserId : Option ℕ
  notificationId : Option ℕ
  approvalRequestId : Option ℕ
  subject : String
  body : String
  actionUrl : Option String
  status : DeliveryStatus
  attempts : ℕ
  maxAttempts : ℕ
  nextAttemptAt : Option Time
  attemptStartedAt : Option Time
  cancelRequestedAt : Option Time
  cancelledByUserId : Option ℕ
  lastError : Option String
  providerMetadata : JsonObject
  payload : JsonObject
  idempotencyKey : Option String
  scheduledFor : Time
  deliveredAt : Option Time
  failedAt : Option Time
  cancelledAt : Option Time
  updatedAt : Time
  deriving DecidableEq, Repr

/-- What the caller of `enqueue` chooses about a new delivery. -/
structure NewDelivery where
  organizationId : ℕ
  channel : DeliveryChannel
  recipientUserId : Option ℕ
  notificationId : Option ℕ
  approvalRequestId : Option ℕ
  subject : String
  body : String
  actionUrl : Option String
  payload : JsonObject
  maxAttempts : Option ℕ
  scheduledFor : Option Time
  idempotencyKey : Option String
  deriving DecidableEq, Repr

/-- The row that `enqueue` inserts; a limit of zero is no limit given. -/
def NewDelivery.row (d : NewDelivery) (deliveryMaxAttempts : ℕ) (now : Time) : Delivery where
  organizationId := d.organizationId
  channel := d.channel
  recipientUserId := d.recipientUserId
  notificationId := d.notificationId
  approvalRequestId := d.approvalRequestId
  subject := d.subject
  body := d.body
  actionUrl := d.actionUrl
  status := .queued
  attempts := 0
  maxAttempts := (d.maxAttempts.filter (· ≠ 0)).getD deliveryMaxAttempts
  nextAttemptAt := some (d.scheduledFor.getD now)
  attemptStartedAt := none
  cancelRequestedAt := none
  cancelledByUserId := none
  lastError := none
  providerMetadata := []
  payload := d.payload
  idempotencyKey := d.idempotencyKey
  scheduledFor := d.scheduledFor.getD now
  deliveredAt := none
  failedAt := none
  cancelledAt := none
  updatedAt := now

/-! ### The guarded updates -/

namespace Delivery

/-- The condition of the `UPDATE`s that land an attempt. -/
def isProcessing (organizationId : ℕ) (r : Delivery) : Bool :=
  r.organizationId = organizationId && r.status = .processing

/-- The condition of `list_stale_processing`, without the status. -/
def isStale (before : Time) (r : Delivery) : Bool :=
  r.attemptStartedAt.isNone || r.attemptStartedAt.any (· < before) || r.updatedAt < before

/-- RETRYING + due -> QUEUED, for every organization. -/
def requeueDueRetrying (now : Time) : GuardedUpdate Delivery where
  guard r := r.status = .retrying && r.nextAttemptAt.any (· ≤ now)
  set r := { r with status := .queued, nextAttemptAt := none }

/-- QUEUED + due -> PROCESSING, attempts bumped. -/
def claim (organizationId : ℕ) (now : Time) : GuardedUpdate Delivery where
  guard r := r.organizationId = organizationId && r.status = .queued && r.scheduledFor ≤ now
    && (r.nextAttemptAt.isNone || r.nextAttemptAt.any (· ≤ now))
  set r :=
    { r with
      status := .processing
      attempts := r.attempts + 1
      nextAttemptAt := none
      attemptStartedAt := some now
      lastError := none }

/-- PROCESSING -> DELIVERED. -/
def markDelivered (organizationId : ℕ) (providerMetadata : JsonObject) (deliveredAt : Time) :
    GuardedUpdate Delivery where
  guard := isProcessing organizationId
  set r :=
    { r with
      status := .delivered
      deliveredAt := some deliveredAt
      nextAttemptAt := none
      attemptStartedAt := none
      cancelRequestedAt := none
      cancelledByUserId := none
      lastError := none
      providerMetadata := providerMetadata }

/-- PROCESSING -> FAILED. -/
def markFailed (organizationId : ℕ) (error : String) (failedAt : Time) : GuardedUpdate Delivery where
  guard := isProcessing organizationId
  set r :=
    { r with
      status := .failed
      failedAt := some failedAt
      nextAttemptAt := none
      attemptStartedAt := none
      cancelRequestedAt := none
      cancelledByUserId := none
      lastError := some error }

/-- PROCESSING -> RETRYING; the cancel flag is neither tested nor cleared. -/
def scheduleRetry (organizationId : ℕ) (nextAttemptAt : Time) (error : String) :
    GuardedUpdate Delivery where
  guard := isProcessing organizationId
  set r :=
    { r with
      status := .retrying
      nextAttemptAt := some nextAttemptAt
      attemptStartedAt := none
      lastError := some error }

/-- PROCESSING + no cancel flag: flag the row for cancellation. -/
def markCancelRequested (organizationId : ℕ) (cancelRequestedAt : Time)
    (cancelledByUserId : Option ℕ) : GuardedUpdate Delivery where
  guard r := r.isProcessing organizationId && r.cancelRequestedAt.isNone
  set r :=
    { r with
      cancelRequestedAt := some cancelRequestedAt
      cancelledByUserId := cancelledByUserId }

/-- QUEUED/RETRYING -> CANCELLED. -/
def markCancelled (organizationId : ℕ) (cancelledAt : Time) (cancelledByUserId : Option ℕ) :
    GuardedUpdate Delivery where
  guard r := r.organizationId = organizationId && (r.status = .queued || r.status = .retrying)
  set r :=
    { r with
      status := .cancelled
      cancelledAt := some cancelledAt
      cancelledByUserId := cancelledByUserId
      nextAttemptAt := none
      attemptStartedAt := none }

/-- PROCESSING with a cancel flag -> CANCELLED. -/
def markCancelledAfterSend (organizationId : ℕ) (cancelledAt : Time) (error : Option String) :
    GuardedUpdate Delivery where
  guard r := r.isProcessing organizationId && r.cancelRequestedAt.isSome
  set r :=
    { r with
      status := .cancelled
      cancelledAt := some cancelledAt
      nextAttemptAt := none
      attemptStartedAt := none
      lastError := error }

/-- FAILED/CANCELLED -> QUEUED, everything of the old life cleared. -/
def markRequeued (organizationId : ℕ) (requeuedAt : Time) : GuardedUpdate Delivery where
  guard r := r.organizationId = organizationId && (r.status = .failed || r.status = .cancelled)
  set r :=
    { r with
      status := .queued
      attempts := 0
      nextAttemptAt := some requeuedAt
      attemptStartedAt := none
      cancelRequestedAt := none
      cancelledByUserId := none
      deliveredAt := none
      failedAt := none
      cancelledAt := none
      lastError := none }

/-- PROCESSING + stale -> QUEUED; attempts and cancel flag are kept. -/
def requeueStale (organizationId : ℕ) (staleBefore now : Time) : GuardedUpdate Delivery where
  guard r := r.isProcessing organizationId && r.isStale staleBefore
  set r :=
    { r with
      status := .queued
      nextAttemptAt := some now
      attemptStartedAt := none }

/-- Every `UPDATE` stamps `updated_at`. -/
def onUpdate (updatedAt : Time) (u : GuardedUpdate Delivery) : GuardedUpdate Delivery where
  guard := u.guard
  set r := { u.set r with updatedAt := updatedAt }

end Delivery

/-! ### The transitions -/

/-- The guarded `UPDATE`s of `deliveries`, each with its arguments. -/
inductive Transition where
  | requeueDueRetrying (now : Time)
  | claim (organizationId : ℕ) (now : Time)
  | markDelivered (organizationId : ℕ) (providerMetadata : JsonObject) (deliveredAt : Time)
  | markFailed (organizationId : ℕ) (error : String) (failedAt : Time)
  | scheduleRetry (organizationId : ℕ) (nextAttemptAt : Time) (error : String)
  | markCancelRequested (organizationId : ℕ) (cancelRequestedAt : Time)
      (cancelledByUserId : Option ℕ)
  | markCancelled (organizationId : ℕ) (cancelledAt : Time) (cancelledByUserId : Option ℕ)
  | markCancelledAfterSend (organizationId : ℕ) (cancelledAt : Time) (error : Option String)
  | markRequeued (organizationId : ℕ) (requeuedAt : Time)
  | requeueStale (organizationId : ℕ) (staleBefore now : Time)
  deriving DecidableEq, Repr

namespace Transition

/-- The `UPDATE` that a transition issues, before `updated_at` is stamped. -/
def values : Transition → GuardedUpdate Delivery
  | requeueDueRetrying now => Delivery.requeueDueRetrying now
  | claim org now => Delivery.claim org now
  | markDelivered org metadata deliveredAt => Delivery.markDelivered org metadata deliveredAt
  | markFailed org error failedAt => Delivery.markFailed org error failedAt
  | scheduleRetry org nextAttemptAt error => Delivery.scheduleRetry org nextAttemptAt error
  | markCancelRequested org cancelRequestedAt user =>
      Delivery.markCancelRequested org cancelRequestedAt user
  | markCancelled org cancelledAt user => Delivery.markCancelled org cancelledAt user
  | markCancelledAfterSend org cancelledAt error =>
      Delivery.markCancelledAfterSend org cancelledAt error
  | markRequeued org requeuedAt => Delivery.markRequeued org requeuedAt
  | requeueStale org staleBefore now => Delivery.requeueStale org staleBefore now

/-- The `UPDATE` that a transition issues. -/
def update (t : Transition) (updatedAt : Time) : GuardedUpdate Delivery :=
  Delivery.onUpdate updatedAt t.values

/-- Whether a transition is a `mark_requeued`. -/
def isRequeue : Transition → Bool
  | markRequeued .. => true
  | _ => false

/-- The row after a transition was attempted on it, as one atomic step. -/
def step (t : Transition) (updatedAt : Time) (r : Delivery) : Delivery := (t.update updatedAt).step r

end Transition

/-! ### What a transition can do -/

/-- The statuses that each transition requires, and those it leads to. -/
inductive Edge : Transition → DeliveryStatus → DeliveryStatus → Prop
  | requeuedDue {now} : Edge (.requeueDueRetrying now) .retrying .queued
  | claimed {org now} : Edge (.claim org now) .queued .processing
  | delivered {org metadata d} : Edge (.markDelivered org metadata d) .processing .delivered
  | failed {org e f} : Edge (.markFailed org e f) .processing .failed
  | scheduled {org n e} : Edge (.scheduleRetry org n e) .processing .retrying
  | cancelRequested {org c u} : Edge (.markCancelRequested org c u) .processing .processing
  | cancelledQueued {org c u} : Edge (.markCancelled org c u) .queued .cancelled
  | cancelledRetrying {org c u} : Edge (.markCancelled org c u) .retrying .cancelled
  | cancelledAfterSend {org c e} : Edge (.markCancelledAfterSend org c e) .processing .cancelled
  | requeuedFailed {org d} : Edge (.markRequeued org d) .failed .queued
  | requeuedCancelled {org d} : Edge (.markRequeued org d) .cancelled .queued
  | requeuedStale {org b now} : Edge (.requeueStale org b now) .processing .queued

namespace Transition

variable {t : Transition} {updatedAt : Time} {r : Delivery}

lemma isProcessing_iff {org : ℕ} :
    r.isProcessing org = true ↔ r.organizationId = org ∧ r.status = .processing := by
  simp [Delivery.isProcessing]

/-- A matched transition moves the status along one of its edges. -/
lemma edge (h : (t.update updatedAt).guard r = true) :
    Edge t r.status ((t.update updatedAt).set r).status := by
  cases t with
  | requeueDueRetrying now =>
      have hg : (Delivery.requeueDueRetrying now).guard r = true := h
      simp only [Delivery.requeueDueRetrying, Bool.and_eq_true, decide_eq_true_eq] at hg
      exact hg.1 ▸ .requeuedDue
  | claim org now =>
      have hg : (Delivery.claim org now).guard r = true := h
      simp only [Delivery.claim, Bool.and_eq_true, decide_eq_true_eq] at hg
      exact hg.1.1.2 ▸ .claimed
  | markDelivered org metadata d => exact (isProcessing_iff.mp h).2 ▸ .delivered
  | markFailed org e f => exact (isProcessing_iff.mp h).2 ▸ .failed
  | scheduleRetry org n e => exact (isProcessing_iff.mp h).2 ▸ .scheduled
  | markCancelRequested org c u =>
      have hst : r.status = .processing := (isProcessing_iff.mp (Bool.and_eq_true_iff.mp h).1).2
      show Edge _ r.status r.status
      rw [hst]
      exact .cancelRequested
  | markCancelled org c u =>
      have hg : (Delivery.markCancelled org c u).guard r = true := h
      simp only [Delivery.markCancelled, Bool.and_eq_true, Bool.or_eq_true, decide_eq_true_eq] at hg
      rcases hg.2 with hst | hst
      · exact hst ▸ .cancelledQueued
      · exact hst ▸ .cancelledRetrying
  | markCancelledAfterSend org c e =>
      exact (isProcessing_iff.mp (Bool.and_eq_true_iff.mp h).1).2 ▸ .cancelledAfterSend
  | markRequeued org d =>
      have hg : (Delivery.markRequeued org d).guard r = true := h
      simp only [Delivery.markRequeued, Bool.and_eq_true, Bool.or_eq_true, decide_eq_true_eq] at hg
      rcases hg.2 with hst | hst
      · exact hst ▸ .requeuedFailed
      · exact hst ▸ .requeuedCancelled
  | requeueStale org b now =>
      exact (isProcessing_iff.mp (Bool.and_eq_true_iff.mp h).1).2 ▸ .requeuedStale

/-- A transition moves the status along one of its edges, or leaves the row as it is. -/
lemma step_cases (t : Transition) (updatedAt : Time) (r : Delivery) :
    ((t.update updatedAt).guard r = true ∧ t.step updatedAt r = (t.update updatedAt).set r
        ∧ Edge t r.status (t.step updatedAt r).status)
      ∨ t.step updatedAt r = r := by
  by_cases h : (t.update updatedAt).guard r = true
  · rw [step, GuardedUpdate.step_of_guard h]
    exact Or.inl ⟨h, rfl, edge h⟩
  · exact Or.inr (GuardedUpdate.step_of_not_guard (by simpa using h))

end Transition

/-! ### The times of a row -/

/-- The times of a row fit its status: an attempt has started exactly while the row is processing,
a next attempt is planned in RETRYING and not while or after the row is processed, and each
terminal time stands exactly in its status. -/
structure Delivery.WellStamped (r : Delivery) : Prop where
  started : r.attemptStartedAt ≠ none ↔ r.status = .processing
  unplanned : r.status ≠ .queued → r.status ≠ .retrying → r.nextAttemptAt = none
  planned : r.status = .retrying → r.nextAttemptAt ≠ none
  delivered : r.deliveredAt ≠ none ↔ r.status = .delivered
  failed : r.failedAt ≠ none ↔ r.status = .failed
  cancelled : r.cancelledAt ≠ none ↔ r.status = .cancelled

lemma wellStamped_row (d : NewDelivery) (n : ℕ) (now : Time) : (d.row n now).WellStamped := by
  constructor <;> simp [NewDelivery.row]

/-- A row that is not settled carries no terminal time. -/
lemma Delivery.WellStamped.live {r : Delivery} (h : r.WellStamped) (hd : r.status ≠ .delivered)
    (hf : r.status ≠ .failed) (hc : r.status ≠ .cancelled) :
    r.deliveredAt = none ∧ r.failedAt = none ∧ r.cancelledAt = none :=
  ⟨not_not.mp (mt h.delivered.mp hd), not_not.mp (mt h.failed.mp hf),
    not_not.mp (mt h.cancelled.mp hc)⟩

/-- Every matched transition keeps the times of the row. -/
lemma Delivery.WellStamped.set {t : Transition} {updatedAt : Time} {r : Delivery} (h : r.WellStamped)
    (hg : (t.update updatedAt).guard r = true) : ((t.update updatedAt).set r).WellStamped := by
  have hedge := Transition.edge hg
  generalize hst : r.status = st at hedge
  generalize ((t.update updatedAt).set r).status = st' at hedge
  cases hedge with
  | requeuedFailed | requeuedCancelled =>
      constructor <;>
        simp [Transition.update, Transition.values, Delivery.onUpdate, Delivery.markRequeued]
  | cancelRequested =>
      obtain ⟨hstarted, hunplanned, hplanned, hdelivered, hfailed, hcancelled⟩ := h
      exact ⟨hstarted, hunplanned, hplanned, hdelivered, hfailed, hcancelled⟩
  | requeuedDue =>
      have hnone : r.attemptStartedAt = none := not_not.mp (mt h.started.mp (by simp [hst]))
      obtain ⟨hd, hf, hc⟩ := h.live (by simp [hst]) (by simp [hst]) (by simp [hst])
      constructor <;>
        simp [Transition.update, Transition.values, Delivery.onUpdate, Delivery.requeueDueRetrying,
          hnone, hd, hf, hc]
  | claimed =>
      obtain ⟨hd, hf, hc⟩ := h.live (by simp [hst]) (by simp [hst]) (by simp [hst])
      constructor <;>
        simp [Transition.update, Transition.values, Delivery.onUpdate, Delivery.claim, hd, hf, hc]
  | delivered =>
      obtain ⟨hd, hf, hc⟩ := h.live (by simp [hst]) (by simp [hst]) (by simp [hst])
      constructor <;>
        simp [Transition.update, Transition.values, Delivery.onUpdate, Delivery.markDelivered,
          hf, hc]
  | failed =>
      obtain ⟨hd, hf, hc⟩ := h.live (by simp [hst]) (by simp [hst]) (by simp [hst])
      constructor <;>
        simp [Transition.update, Transition.values, Delivery.onUpdate, Delivery.markFailed, hd, hc]
  | scheduled =>
      obtain ⟨hd, hf, hc⟩ := h.live (by simp [hst]) (by simp [hst]) (by simp [hst])
      constructor <;>
        simp [Transition.update, Transition.values, Delivery.onUpdate, Delivery.scheduleRetry,
          hd, hf, hc]
  | cancelledQueued | cancelledRetrying =>
      obtain ⟨hd, hf, hc⟩ := h.live (by simp [hst]) (by simp [hst]) (by simp [hst])
      constructor <;>
        simp [Transition.update, Transition.values, Delivery.onUpdate, Delivery.markCancelled,
          hd, hf]
  | cancelledAfterSend =>
      obtain ⟨hd, hf, hc⟩ := h.live (by simp [hst]) (by simp [hst]) (by simp [hst])
      constructor <;>
        simp [Transition.update, Transition.values, Delivery.onUpdate,
          Delivery.markCancelledAfterSend, hd, hf]
  | requeuedStale =>
      obtain ⟨hd, hf, hc⟩ := h.live (by simp [hst]) (by simp [hst]) (by simp [hst])
      constructor <;>
        simp [Transition.update, Transition.values, Delivery.onUpdate, Delivery.requeueStale,
          hd, hf, hc]

lemma Delivery.WellStamped.step {r : Delivery} (h : r.WellStamped) (t : Transition)
    (updatedAt : Time) : (t.step updatedAt r).WellStamped := by
  rcases t.step_cases updatedAt r with ⟨hg, hstep, -⟩ | hsame
  · rw [hstep]
    exact h.set hg
  · rw [hsame]
    exact h

/-! ### Runs of transitions -/

/-- The row after a sequence of transitions, each with the time that stamps it. -/
def runTransitions (r : Delivery) (ts : List (Transition × Time)) : Delivery :=
  ts.foldl (fun r t => t.1.step t.2 r) r

lemma Delivery.WellStamped.run {r : Delivery} (h : r.WellStamped) (ts : List (Transition × Time)) :
    (runTransitions r ts).WellStamped := by
  induction ts generalizing r with
  | nil => exact h
  | cons t ts ih => exact ih (h.step t.1 t.2)

/-- No transition leaves DELIVERED. -/
lemma delivered_step (t : Transition) (updatedAt : Time) {r : Delivery}
    (h : r.status = .delivered) : (t.step updatedAt r).status = .delivered := by
  rcases t.step_cases updatedAt r with ⟨-, -, hedge⟩ | hsame
  · rw [h] at hedge
    cases hedge
  · rw [hsame, h]

/-- Only `mark_requeued` leaves FAILED and CANCELLED. -/
lemma isRequeue_of_leaves (t : Transition) (updatedAt : Time) {r : Delivery}
    (h : r.status = .failed ∨ r.status = .cancelled)
    (hne : (t.step updatedAt r).status ≠ r.status) : t.isRequeue = true := by
  rcases t.step_cases updatedAt r with ⟨-, -, hedge⟩ | hsame
  · generalize (t.step updatedAt r).status = st' at hedge
    rcases h with h | h
    · rw [h] at hedge
      cases hedge
      rfl
    · rw [h] at hedge
      cases hedge
      rfl
  · rw [hsame] at hne
    exact absurd rfl hne

/-- **The row invariant.**  After any sequence of guarded `UPDATE`s, an enqueued row has a start of
an attempt exactly while it is PROCESSING; a next attempt in RETRYING, and none in PROCESSING,
DELIVERED, FAILED and CANCELLED; and of its terminal times exactly the one of its status.  Whatever
`UPDATE` comes next, DELIVERED is not left, and FAILED and CANCELLED are left only by
`mark_requeued`. -/
theorem delivery_row (d : NewDelivery) (deliveryMaxAttempts : ℕ) (now : Time)
    (ts : List (Transition × Time)) (t : Transition) (updatedAt : Time) :
    let r := runTransitions (d.row deliveryMaxAttempts now) ts
    (r.attemptStartedAt ≠ none ↔ r.status = .processing)
      ∧ (r.status = .processing ∨ r.status = .delivered ∨ r.status = .failed
          ∨ r.status = .cancelled → r.nextAttemptAt = none)
      ∧ (r.status = .retrying → r.nextAttemptAt ≠ none)
      ∧ (r.deliveredAt ≠ none ↔ r.status = .delivered)
      ∧ (r.failedAt ≠ none ↔ r.status = .failed)
      ∧ (r.cancelledAt ≠ none ↔ r.status = .cancelled)
      ∧ (r.status = .delivered → (t.step updatedAt r).status = .delivered)
      ∧ (r.status = .failed ∨ r.status = .cancelled →
          (t.step updatedAt r).status ≠ r.status → t.isRequeue = true) := by
  intro r
  have h : r.WellStamped := (wellStamped_row d deliveryMaxAttempts now).run ts
  refine ⟨h.started, fun hst => h.unplanned ?_ ?_, h.planned, h.delivered, h.failed, h.cancelled,
    delivered_step t updatedAt, isRequeue_of_leaves t updatedAt⟩
  · rcases hst with hst | hst | hst | hst <;> simp [hst]
  · rcases hst with hst | hst | hst | hst <;> simp [hst]

end Outbox
