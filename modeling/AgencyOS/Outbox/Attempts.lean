import AgencyOS.Outbox.Transitions
import AgencyOS.Txn.Machine

/-!
Attempts at a delivery, each `UPDATE` a step of its own.

A worker claims a delivery, dispatches it to the provider, and lands the outcome by an `UPDATE`
that it chooses by the copy of the row that its claim returned.  Cancellation, recovery and the
promotion of retries may come in between, and a worker may stop before it lands.

* `landing`: the `UPDATE` by which `_mark_delivered` or `_land` lands an outcome;
* `Desk`, `Desk.step`: the row, the copies held by the attempts in flight, and the steps;
* `cancellation_honoured` (**cancel requests**): a flagged delivery is not dispatched again before
  a manual retry, exactly when no retry is scheduled and no recovery done over the flag;
* `attempts_bounded` (**the attempt budget**): the claims since the last manual retry stay within
  the budget, if retries and recoveries meet the row with attempts left.
-/

namespace Outbox

open Txn Automation

/-! ### Landing -/

/-- How an attempt ends: delivered, or by one of the failures that `_attempt` distinguishes. -/
inductive Outcome where
  | delivered (providerMetadata : JsonObject)
  | failed (error : String)
  | retry (error : String)
  | timedOut (error : String)
  deriving DecidableEq, Repr

/-- `_backoff`, in seconds; the attempts of a claimed row count from one. -/
def backoff (deliveryRetryBaseSeconds attempt : ℕ) : ℕ :=
  min (deliveryRetryBaseSeconds * 2 ^ (attempt - 1)) 3600

/-- `_land`: the failure of an attempt, `permanent` or not, decided on the claimed copy. -/
def land (deliveryRetryBaseSeconds organizationId : ℕ) (claimed : Delivery) (permanent : Bool)
    (error : String) (now : Time) : Transition :=
  let cancelRequested := claimed.cancelRequestedAt.isSome
  let attemptsExhausted := claimed.maxAttempts ≤ claimed.attempts
  if cancelRequested && !permanent then
    .markCancelledAfterSend organizationId now (some error)
  else if permanent || attemptsExhausted then
    .markFailed organizationId error now
  else
    .scheduleRetry organizationId
      (now + backoff deliveryRetryBaseSeconds claimed.attempts * second) error

/-- The `UPDATE` that lands an outcome. -/
def landing (deliveryRetryBaseSeconds organizationId : ℕ) (claimed : Delivery) (now : Time) :
    Outcome → Transition
  | .delivered providerMetadata => .markDelivered organizationId providerMetadata now
  | .failed error => land deliveryRetryBaseSeconds organizationId claimed true error now
  | .retry error | .timedOut error =>
      land deliveryRetryBaseSeconds organizationId claimed false error now

/-- Whether a transition is a `claim`. -/
def Transition.isClaim : Transition → Bool
  | .claim .. => true
  | _ => false

/-- A landing neither claims nor requeues by hand. -/
lemma landing_spec (deliveryRetryBaseSeconds organizationId : ℕ) (claimed : Delivery) (now : Time)
    (outcome : Outcome) :
    (landing deliveryRetryBaseSeconds organizationId claimed now outcome).isClaim = false
      ∧ (landing deliveryRetryBaseSeconds organizationId claimed now outcome).isRequeue = false := by
  cases outcome with
  | delivered metadata => exact ⟨rfl, rfl⟩
  | failed error | retry error | timedOut error =>
      simp only [landing, land]
      split_ifs <;> exact ⟨rfl, rfl⟩

/-! ### The desk -/

/-- A row of the outbox, and the copies of it that the attempts in flight hold. -/
structure Desk where
  row : Delivery
  inFlight : List Delivery
  deriving DecidableEq, Repr

/-- The `UPDATE`s that no worker issues during an attempt. -/
def Transition.isMaintenance : Transition → Bool
  | .requeueDueRetrying _ | .markCancelRequested .. | .markCancelled .. | .markRequeued ..
  | .requeueStale .. => true
  | _ => false

/-- A step at the desk: a worker claims the row and dispatches it, lands the outcome of an attempt,
or stops; or another `UPDATE` is issued. -/
inductive Action where
  | claim (organizationId : ℕ) (now updatedAt : Time)
  | land (k : ℕ) (outcome : Outcome) (now updatedAt : Time)
  | stop (k : ℕ)
  | maintain (t : {t : Transition // t.isMaintenance = true}) (updatedAt : Time)

namespace Desk

variable (deliveryRetryBaseSeconds : ℕ)

/-- The `UPDATE` that an action issues, with the time that stamps it. -/
def issues (x : Desk) : Action → Option (Transition × Time)
  | .claim org now updatedAt => some (.claim org now, updatedAt)
  | .land k outcome now updatedAt =>
      x.inFlight[k]?.map fun claimed =>
        (landing deliveryRetryBaseSeconds claimed.organizationId claimed now outcome, updatedAt)
  | .stop _ => none
  | .maintain t updatedAt => some (t, updatedAt)

/-- The row after an action. -/
def rowAfter (x : Desk) (a : Action) : Delivery :=
  match x.issues deliveryRetryBaseSeconds a with
  | some (t, updatedAt) => t.step updatedAt x.row
  | none => x.row

/-- Whether an action claims the row, which dispatches the provider. -/
def claims (x : Desk) : Action → Bool
  | .claim org now _ => (Delivery.claim org now).guard x.row
  | _ => false

/-- Whether an action is a manual retry of the row. -/
def retries (x : Desk) : Action → Bool
  | .maintain t updatedAt => t.1.isRequeue && (t.1.update updatedAt).guard x.row
  | _ => false

/-- The desk after an action. -/
def step (x : Desk) (a : Action) : Desk where
  row := x.rowAfter deliveryRetryBaseSeconds a
  inFlight :=
    match a with
    | .claim .. =>
        if x.claims a then x.inFlight ++ [x.rowAfter deliveryRetryBaseSeconds a] else x.inFlight
    | .land k .. | .stop k => x.inFlight.eraseIdx k
    | .maintain .. => x.inFlight

variable {deliveryRetryBaseSeconds} {x : Desk} {a : Action}

/-- What an action does to the row: nothing, or one `UPDATE` that matched. -/
lemma row_step (x : Desk) (a : Action) :
    (x.step deliveryRetryBaseSeconds a).row = x.row
      ∨ ∃ t updatedAt, x.issues deliveryRetryBaseSeconds a = some (t, updatedAt)
          ∧ (t.update updatedAt).guard x.row = true
          ∧ (x.step deliveryRetryBaseSeconds a).row = (t.update updatedAt).set x.row
          ∧ Edge t x.row.status (x.step deliveryRetryBaseSeconds a).row.status := by
  show x.rowAfter _ a = x.row ∨ ∃ t updatedAt, _ ∧ _ ∧ x.rowAfter _ a = _
    ∧ Edge t x.row.status (x.rowAfter _ a).status
  cases hi : x.issues deliveryRetryBaseSeconds a with
  | none => exact Or.inl (by rw [rowAfter, hi])
  | some issued =>
      obtain ⟨t, updatedAt⟩ := issued
      have hrow : x.rowAfter deliveryRetryBaseSeconds a = t.step updatedAt x.row := by
        rw [rowAfter, hi]
      rw [hrow]
      rcases t.step_cases updatedAt x.row with ⟨hg, hset, hedge⟩ | hsame
      · exact Or.inr ⟨t, updatedAt, rfl, hg, hset, hedge⟩
      · exact Or.inl hsame

/-- A worker never requeues by hand. -/
lemma retries_of_issues {t : Transition} {updatedAt : Time}
    (h : x.issues deliveryRetryBaseSeconds a = some (t, updatedAt)) (ht : t.isRequeue = true)
    (hg : (t.update updatedAt).guard x.row = true) : x.retries a = true := by
  cases a with
  | claim org now updatedAt =>
      cases h
      cases ht
  | land k outcome now updatedAt' =>
      obtain ⟨claimed, -, heq⟩ := Option.map_eq_some_iff.mp h
      obtain ⟨rfl, rfl⟩ := Prod.mk.inj heq
      rw [(landing_spec ..).2] at ht
      cases ht
  | stop k => cases h
  | maintain t' updatedAt' =>
      obtain ⟨rfl, rfl⟩ := Prod.mk.inj (Option.some.inj h)
      rw [retries, ht, hg]
      rfl

end Desk

/-! ### Cancel requests -/

/-- The `UPDATE`s that take a row out of PROCESSING without settling it: they look neither at the
cancel flag nor at the attempts of the row. -/
def Transition.putsBack : Transition → Bool
  | .scheduleRetry .. | .requeueStale .. => true
  | _ => false

namespace Desk

variable (deliveryRetryBaseSeconds : ℕ)

/-- Whether an action schedules a retry of a flagged row, or recovers one: the flag came after the
copy that a retry is decided on. -/
def overlooks (x : Desk) (a : Action) : Bool :=
  (x.issues deliveryRetryBaseSeconds a).any fun (t, updatedAt) =>
    t.putsBack && (t.update updatedAt).guard x.row && x.row.cancelRequestedAt.isSome

/-- The row waits for the attempt in flight with its cancel flag, or is settled. -/
def Held (x : Desk) : Prop :=
  x.row.status = .processing ∧ x.row.cancelRequestedAt ≠ none
    ∨ x.row.status = .delivered ∨ x.row.status = .failed ∨ x.row.status = .cancelled

variable {deliveryRetryBaseSeconds} {x : Desk} {a : Action}

/-- A held row is not claimed. -/
lemma Held.not_claims (h : x.Held) : x.claims a = false := by
  cases a with
  | claim org now updatedAt =>
      by_contra hg
      have hg' : ((Transition.claim org now).update updatedAt).guard x.row = true := by
        rw [Bool.not_eq_false] at hg
        exact hg
      have hedge := Transition.edge hg'
      generalize hst : x.row.status = st at hedge
      generalize (((Transition.claim org now).update updatedAt).set x.row).status = st' at hedge
      cases hedge
      rcases h with ⟨h, -⟩ | h | h | h <;> rw [hst] at h <;> cases h
  | _ => rfl

/-- Without a manual retry, a held row stays held if the action does not overlook its flag. -/
lemma Held.step (h : x.Held) (hno : x.retries a = false)
    (hover : x.overlooks deliveryRetryBaseSeconds a = false) :
    (x.step deliveryRetryBaseSeconds a).Held := by
  rcases row_step x a with hsame | ⟨t, updatedAt, hi, hg, hset, hedge⟩
  · rw [Held, hsame]
    exact h
  · have hheed : x.row.cancelRequestedAt ≠ none → t.putsBack = false := by
      intro hflag
      rw [overlooks, hi, Option.any_some] at hover
      simpa only [hg, Option.isSome_iff_ne_none.mpr hflag, Bool.and_true] using hover
    have hrequeue : t.isRequeue = false := by
      by_contra hr
      rw [retries_of_issues hi (by simpa using hr) hg] at hno
      cases hno
    rw [Held]
    generalize hst : x.row.status = st at hedge
    generalize hst' : (x.step deliveryRetryBaseSeconds a).row.status = st' at hedge ⊢
    -- a row in PROCESSING carries its flag
    have hflag : st = .processing → x.row.cancelRequestedAt ≠ none := by
      rintro rfl
      rcases h with ⟨-, hflag⟩ | h | h | h
      · exact hflag
      · rw [hst] at h
        cases h
      · rw [hst] at h
        cases h
      · rw [hst] at h
        cases h
    have hsettled : st ≠ .queued ∧ st ≠ .retrying := by
      rw [← hst]
      rcases h with ⟨h, -⟩ | h | h | h <;> simp [h]
    cases hedge with
    | requeuedDue => exact absurd rfl hsettled.2
    | claimed => exact absurd rfl hsettled.1
    | delivered => exact Or.inr (Or.inl rfl)
    | failed => exact Or.inr (Or.inr (Or.inl rfl))
    | scheduled => cases hheed (hflag rfl)
    | cancelRequested =>
        have hnone : x.row.cancelRequestedAt.isNone = true := (Bool.and_eq_true_iff.mp hg).2
        exact absurd (Option.isNone_iff_eq_none.mp hnone) (hflag rfl)
    | cancelledQueued => exact absurd rfl hsettled.1
    | cancelledRetrying => exact absurd rfl hsettled.2
    | cancelledAfterSend => exact Or.inr (Or.inr (Or.inr rfl))
    | requeuedFailed | requeuedCancelled => cases hrequeue
    | requeuedStale => cases hheed (hflag rfl)

/-- An action that overlooks the flag takes the row back to QUEUED or RETRYING. -/
lemma lost_of_overlooks (hover : x.overlooks deliveryRetryBaseSeconds a = true) :
    (x.step deliveryRetryBaseSeconds a).row.status = .queued
      ∨ (x.step deliveryRetryBaseSeconds a).row.status = .retrying := by
  obtain ⟨⟨t, updatedAt⟩, hi, hmatch⟩ := (Option.any_eq_true _ _).mp hover
  simp only [Bool.and_eq_true] at hmatch
  obtain ⟨⟨hignores, hg⟩, -⟩ := hmatch
  have hrow : (x.step deliveryRetryBaseSeconds a).row = (t.update updatedAt).set x.row := by
    show x.rowAfter _ a = _
    rw [rowAfter, hi]
    exact GuardedUpdate.step_of_guard hg
  rw [hrow]
  cases t with
  | scheduleRetry org n e => exact Or.inr rfl
  | requeueStale org b now => exact Or.inl rfl
  | _ => cases hignores

/-- The row is settled or still flagged, and was not dispatched. -/
def honours (deliveryRetryBaseSeconds : ℕ) (x : Desk) (a : Action) : Prop :=
  x.claims a = false ∧ (x.step deliveryRetryBaseSeconds a).row.status ≠ .queued
    ∧ (x.step deliveryRetryBaseSeconds a).row.status ≠ .retrying

end Desk

open Desk in
/-- **Cancel requests.**  A row in PROCESSING carries a cancel flag, whatever copies the attempts in
flight hold.  Along every run without a manual retry of the row: it is never claimed again and never
goes to QUEUED or RETRYING, if and only if no action schedules a retry of the row or recovers it
while it is flagged. -/
theorem cancellation_honoured (deliveryRetryBaseSeconds : ℕ) (x : Desk) (as : List Action)
    (hflag : x.row.status = .processing ∧ x.row.cancelRequestedAt ≠ none)
    (hno : Machine.Every (step deliveryRetryBaseSeconds) (fun x a => x.retries a = false) x as) :
    Machine.Every (step deliveryRetryBaseSeconds) (honours deliveryRetryBaseSeconds) x as
      ↔ Machine.Every (step deliveryRetryBaseSeconds)
          (fun x a => x.overlooks deliveryRetryBaseSeconds a = false) x as := by
  have hand : Machine.Every (step deliveryRetryBaseSeconds)
      (fun x a => x.retries a = false ∧ x.overlooks deliveryRetryBaseSeconds a = false) x as
        ↔ Machine.Every (step deliveryRetryBaseSeconds)
          (fun x a => x.retries a = false ∧ honours deliveryRetryBaseSeconds x a) x as := by
    refine Machine.every_congr (I := Held) (fun x a h hP => h.step hP.1 hP.2) ?_ (Or.inl hflag)
    refine fun x a h => ⟨fun hP => ⟨hP.1, ?_⟩, fun hP => ⟨hP.1, ?_⟩⟩
    · have hheld := h.step hP.1 hP.2
      refine ⟨h.not_claims, ?_, ?_⟩
      · rcases hheld with ⟨hst, -⟩ | hst | hst | hst <;> simp [hst]
      · rcases hheld with ⟨hst, -⟩ | hst | hst | hst <;> simp [hst]
    · by_contra hover
      rcases lost_of_overlooks (by simpa using hover) with hst | hst
      · exact hP.2.2.1 hst
      · exact hP.2.2.2 hst
  rw [Machine.every_and, Machine.every_and] at hand
  exact ⟨fun h => (hand.mpr ⟨hno, h⟩).2, fun h => (hand.mp ⟨hno, h⟩).2⟩

/-- A delivery to the dashboard of a user of organization 1. -/
def smallDelivery (maxAttempts : ℕ) : NewDelivery where
  organizationId := 1
  channel := .dashboard
  recipientUserId := some 2
  notificationId := none
  approvalRequestId := none
  subject := "New meeting"
  body := "A meeting was booked."
  actionUrl := none
  payload := []
  maxAttempts := some maxAttempts
  scheduledFor := none
  idempotencyKey := none

/-- The delivery, just enqueued. -/
def smallDesk (maxAttempts : ℕ) : Desk := ⟨(smallDelivery maxAttempts).row 4 0, []⟩

/-- The desk after a claim and a cancel request during the attempt. -/
def flaggedDesk : Desk :=
  Machine.run (Desk.step 10) (smallDesk 4)
    [.claim 1 0 0, .maintain ⟨.markCancelRequested 1 1 (some 3), rfl⟩ 1]

/-- A flagged delivery that fails for good is not dispatched again. -/
theorem cancellation_honoured_failed :
    Machine.Every (Desk.step 10) (Desk.honours 10) flaggedDesk
      [.land 0 (.failed "rejected") 2 2, .claim 1 3 3] :=
  (cancellation_honoured 10 flaggedDesk _ ⟨rfl, by decide⟩ (by decide)).mpr (by decide)

/-- The attempt fails for now, and lands by the copy it took before the flag: the delivery waits in
RETRYING with its flag set, is promoted, claimed and dispatched again. -/
theorem cancellation_overlooked :
    flaggedDesk.row.status = .processing ∧ flaggedDesk.row.cancelRequestedAt = some 1
      ∧ Machine.Every (Desk.step 10) (fun x a => x.retries a = false) flaggedDesk
          [.land 0 (.retry "busy") 2 2, .maintain ⟨.requeueDueRetrying 20000000, rfl⟩ 20000000,
            .claim 1 20000000 20000000]
      ∧ ((Desk.step 10 flaggedDesk (.land 0 (.retry "busy") 2 2)).row.status = .retrying
        ∧ (Machine.run (Desk.step 10) flaggedDesk
            [.land 0 (.retry "busy") 2 2,
              .maintain ⟨.requeueDueRetrying 20000000, rfl⟩ 20000000]).claims
            (.claim 1 20000000 20000000) = true) := by
  decide

/-! ### The attempt budget -/

/-- Attempts count claims, and a manual retry starts them again. -/
lemma Transition.attempts_set (t : Transition) (updatedAt : Time) (r : Delivery) :
    ((t.update updatedAt).set r).attempts
        = (if t.isRequeue then 0 else r.attempts + t.isClaim.toNat)
      ∧ ((t.update updatedAt).set r).maxAttempts = r.maxAttempts := by
  cases t <;> exact ⟨rfl, rfl⟩

namespace Desk

variable (deliveryRetryBaseSeconds : ℕ)

/-- Whether an action puts a row back that has no attempt left. -/
def overdraws (x : Desk) (a : Action) : Bool :=
  (x.issues deliveryRetryBaseSeconds a).any fun (t, updatedAt) =>
    t.putsBack && (t.update updatedAt).guard x.row && x.row.maxAttempts ≤ x.row.attempts

/-- The claims since the last manual retry, after `n` claims before. -/
def sinceRetry : ℕ → Desk → List Action → ℕ
  | n, _, [] => n
  | n, x, a :: as =>
      sinceRetry (if x.retries a then 0 else n + (x.claims a).toNat)
        (x.step deliveryRetryBaseSeconds a) as

/-- The row keeps to its budget, and has an attempt left while it waits. -/
structure Within (x : Desk) : Prop where
  positive : 0 < x.row.maxAttempts
  le : x.row.attempts ≤ x.row.maxAttempts
  left : x.row.status = .queued ∨ x.row.status = .retrying → x.row.attempts < x.row.maxAttempts

variable {deliveryRetryBaseSeconds} {x : Desk} {a : Action}

/-- A matched manual retry and a matched claim are what changes the attempts. -/
lemma attempts_step (x : Desk) (a : Action) :
    (x.step deliveryRetryBaseSeconds a).row.attempts
        = (if x.retries a then 0 else x.row.attempts + (x.claims a).toNat)
      ∧ (x.step deliveryRetryBaseSeconds a).row.maxAttempts = x.row.maxAttempts := by
  have hrow : ∀ t updatedAt, x.issues deliveryRetryBaseSeconds a = some (t, updatedAt) →
      (x.step deliveryRetryBaseSeconds a).row = t.step updatedAt x.row := by
    intro t updatedAt hi
    show x.rowAfter _ a = _
    rw [rowAfter, hi]
  have hstep : ∀ (t : Transition) (updatedAt : Time), (t.step updatedAt x.row).attempts
        = (if (t.isRequeue && (t.update updatedAt).guard x.row) = true then 0
            else x.row.attempts + (t.isClaim && (t.update updatedAt).guard x.row).toNat)
      ∧ (t.step updatedAt x.row).maxAttempts = x.row.maxAttempts := by
    intro t updatedAt
    by_cases hg : (t.update updatedAt).guard x.row = true
    · rw [Transition.step, GuardedUpdate.step_of_guard hg, hg, Bool.and_true, Bool.and_true]
      exact t.attempts_set updatedAt x.row
    · rw [Bool.not_eq_true] at hg
      rw [Transition.step, GuardedUpdate.step_of_not_guard hg, hg]
      simp
  cases a with
  | claim org now updatedAt =>
      rw [hrow _ _ rfl]
      exact hstep (.claim org now) updatedAt
  | land k outcome now updatedAt =>
      cases hk : x.inFlight[k]? with
      | none =>
          have hsame : (x.step deliveryRetryBaseSeconds (.land k outcome now updatedAt)).row = x.row := by
            show x.rowAfter _ _ = _
            rw [rowAfter, issues, hk]
            rfl
          rw [hsame]
          exact ⟨rfl, rfl⟩
      | some claimed =>
          rw [hrow _ _ (by rw [issues, hk]; rfl)]
          have hspec := landing_spec deliveryRetryBaseSeconds claimed.organizationId claimed now outcome
          have hland := hstep
            (landing deliveryRetryBaseSeconds claimed.organizationId claimed now outcome) updatedAt
          rw [hspec.1, hspec.2] at hland
          exact hland
  | stop k => exact ⟨rfl, rfl⟩
  | maintain t updatedAt =>
      rw [hrow _ _ rfl]
      have hclaim : t.1.isClaim = false := by
        obtain ⟨t, ht⟩ := t
        cases t <;> first | rfl | cases ht
      have hmaintain := hstep t.1 updatedAt
      rw [hclaim] at hmaintain
      exact hmaintain

/-- An action that does not overdraw keeps the row within its budget. -/
lemma Within.step (h : x.Within) (hover : x.overdraws deliveryRetryBaseSeconds a = false) :
    (x.step deliveryRetryBaseSeconds a).Within := by
  rcases row_step x a with hsame | ⟨t, updatedAt, hi, hg, hset, hedge⟩
  · exact ⟨hsame ▸ h.positive, hsame ▸ h.le, hsame ▸ h.left⟩
  · obtain ⟨hatt, hmax⟩ := t.attempts_set updatedAt x.row
    rw [← hset] at hatt hmax
    have hleft : t.putsBack = true → x.row.attempts < x.row.maxAttempts := by
      intro hback
      rw [overdraws, hi, Option.any_some] at hover
      simpa [hback, hg] using hover
    obtain ⟨hpositive, hle, hwaits⟩ := h
    generalize hst : x.row.status = st at hedge hwaits
    generalize hst' : (x.step deliveryRetryBaseSeconds a).row.status = st' at hedge
    have hnew : (st' = .queued ∨ st' = .retrying →
          (x.step deliveryRetryBaseSeconds a).row.attempts < x.row.maxAttempts)
        ∧ (x.step deliveryRetryBaseSeconds a).row.attempts ≤ x.row.maxAttempts := by
      cases hedge with
      | requeuedDue =>
          have hlt := hwaits (Or.inr rfl)
          exact ⟨fun _ => by rw [hatt]; exact hlt, by rw [hatt]; exact hlt.le⟩
      | claimed =>
          have hlt := hwaits (Or.inl rfl)
          exact ⟨fun hst => by simp at hst, by rw [hatt]; exact hlt⟩
      | delivered | failed | cancelRequested | cancelledQueued | cancelledRetrying
      | cancelledAfterSend =>
          exact ⟨fun hst => by simp at hst, by rw [hatt]; exact hle⟩
      | scheduled | requeuedStale =>
          have hlt := hleft rfl
          exact ⟨fun _ => by rw [hatt]; exact hlt, by rw [hatt]; exact hle⟩
      | requeuedFailed | requeuedCancelled =>
          exact ⟨fun _ => by rw [hatt]; exact hpositive, by rw [hatt]; exact Nat.zero_le _⟩
    refine ⟨by rw [hmax]; exact hpositive, by rw [hmax]; exact hnew.2, fun hst => ?_⟩
    rw [hmax]
    exact hnew.1 (hst' ▸ hst)

/-- The attempts of a row count the claims since the last manual retry. -/
lemma sinceRetry_eq (as : List Action) :
    ∀ (n : ℕ) (x : Desk), x.row.attempts = n →
      sinceRetry deliveryRetryBaseSeconds n x as
        = (Machine.run (step deliveryRetryBaseSeconds) x as).row.attempts := by
  induction as with
  | nil => exact fun n x hn => hn.symm
  | cons a as ih =>
      rintro n x rfl
      exact ih _ _ (attempts_step x a).1

end Desk

open Desk in
/-- **The attempt budget.**  A delivery is enqueued, and any number of workers claim it, land or stop,
while it is cancelled, promoted, recovered and retried in any order.  Along every run in which
retries are scheduled and recoveries done only while the row has attempts left, the attempts stay
within the budget, and so do the claims since the last manual retry. -/
theorem attempts_bounded (deliveryRetryBaseSeconds deliveryMaxAttempts : ℕ)
    (hpos : 0 < deliveryMaxAttempts) (d : NewDelivery) (now : Time) (as : List Action)
    (h : Machine.Every (step deliveryRetryBaseSeconds)
      (fun x a => x.overdraws deliveryRetryBaseSeconds a = false)
      ⟨d.row deliveryMaxAttempts now, []⟩ as) :
    let x := Machine.run (step deliveryRetryBaseSeconds) ⟨d.row deliveryMaxAttempts now, []⟩ as
    x.row.attempts ≤ x.row.maxAttempts
      ∧ sinceRetry deliveryRetryBaseSeconds 0 ⟨d.row deliveryMaxAttempts now, []⟩ as
        ≤ x.row.maxAttempts := by
  intro x
  have hmax : 0 < (d.row deliveryMaxAttempts now).maxAttempts := by
    show 0 < (d.maxAttempts.filter (· ≠ 0)).getD deliveryMaxAttempts
    cases hd : d.maxAttempts.filter (· ≠ 0) with
    | none => exact hpos
    | some n => simpa [Nat.pos_iff_ne_zero] using (Option.filter_eq_some_iff.mp hd).2
  have hstart : Within ⟨d.row deliveryMaxAttempts now, []⟩ :=
    ⟨hmax, Nat.zero_le _, fun _ => hmax⟩
  have hwithin : x.Within := (h.invariant (fun _ _ hx ha => hx.step ha) hstart).1
  refine ⟨hwithin.le, ?_⟩
  rw [sinceRetry_eq as 0 _ rfl]
  exact hwithin.le

/-- A delivery with two attempts: a stale first one, and a second that fails. -/
theorem attempts_bounded_two :
    let as : List Action :=
      [.claim 1 0 0, .stop 0, .maintain ⟨.requeueStale 1 400 500, rfl⟩ 500, .claim 1 500 500,
        .land 0 (.retry "busy") 600 600]
    let x := Machine.run (Desk.step 10) (smallDesk 2) as
    x.row.attempts ≤ x.row.maxAttempts ∧ Desk.sinceRetry 10 0 (smallDesk 2) as ≤ x.row.maxAttempts :=
  attempts_bounded 10 4 (by decide) (smallDelivery 2) 0 _ (by decide)

/-- A delivery with one attempt, whose worker stops: the recovery puts it back, and it is claimed a
second time. -/
theorem attempts_overdrawn :
    let as : List Action :=
      [.claim 1 0 0, .stop 0, .maintain ⟨.requeueStale 1 400 500, rfl⟩ 500, .claim 1 500 500]
    let x := Machine.run (Desk.step 10) (smallDesk 1) as
    x.row.maxAttempts = 1 ∧ x.row.attempts = 2 ∧ Desk.sinceRetry 10 0 (smallDesk 1) as = 2
      ∧ x.row.status = .processing := by
  decide

end Outbox
