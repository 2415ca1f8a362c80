import AgencyOS.Outbox.Enqueue
import AgencyOS.Automation.PendingCap

/-!
The cap on the pending deliveries of an organization, beside that on its pending executions.

`enqueue` counts and inserts in two statements, as `queue` does, and a retry by hand puts a failed or
cancelled delivery back without a count.  What the worker does keeps a delivery pending or ends it.

* `pendingQuota`: QUEUED, PROCESSING and RETRYING deliveries of an organization;
* `Caller`: the callers of `enqueue`, the users, and the phases of the worker;
* `deliveries_within_cap_iff`: the cap bounds the pending deliveries exactly when every commit finds room;
* `pending_caps_iff`: **both caps bound the pending work exactly when every commit finds room for what it
  makes pending**.
-/

namespace Outbox

open Txn Automation DeliveryRepository DeliveryService DeliveryWorker

/-! ### The quota -/

lemma organizationId_set (t : Transition) (updatedAt : Time) (r : Delivery) :
    ((t.update updatedAt).set r).organizationId = r.organizationId := by cases t <;> rfl

/-- Only `mark_requeued` leads to a pending delivery from one that is not. -/
lemma isPending_of_set {org : ℕ} {t : Transition} {updatedAt : Time} {r : Delivery}
    (ht : t.isRequeue = false) (hg : (t.update updatedAt).guard r = true)
    (h : ((t.update updatedAt).set r).isPending org = true) : r.isPending org = true := by
  have hedge := Transition.edge hg
  simp only [Delivery.isPending, Bool.and_eq_true, Bool.or_eq_true, decide_eq_true_eq,
    organizationId_set] at h ⊢
  refine ⟨h.1, ?_⟩
  have hst := h.2
  generalize ((t.update updatedAt).set r).status = st' at hedge hst
  generalize r.status = st at hedge
  cases hedge with
  | requeuedDue => exact Or.inr rfl
  | requeuedFailed | requeuedCancelled => cases ht
  | claimed | cancelledQueued => exact Or.inl (Or.inl rfl)
  | cancelledRetrying => exact Or.inr rfl
  | _ => exact Or.inl (Or.inr rfl)

/-- The pending deliveries of an organization. -/
def pendingQuota (organizationId : ℕ) : Quota withIntake where
  table := .inl .delivery
  counts t r :=
    match t, r with
    | .inl .delivery, r => Delivery.isPending organizationId r
    | _, _ => false
  query := .inr (.countPending organizationId)
  source := rfl
  matching _ := rfl
  enters u :=
    match u with
    | .inl u => u.transition.isRequeue
    | .inr u => u.elim
  keeps_out u r ht hg h := by
    cases u with
    | inl u => exact isPending_of_set ht hg h
    | inr u => exact u.elim

/-! ### What keeps deliveries pending or ends them -/

section Harmless

/-- A statement of the outbox that is no `mark_requeued`. -/
def Harmless : Sql outbox → Prop
  | .update u _ => u.transition.isRequeue = false
  | _ => True

lemma leaves_lift (org : ℕ) (q : Sql outbox) (hq : Harmless q) :
    (pendingQuota org).Leaves (q.lift intake) := by
  cases q with
  | scan q => exact fun h => by cases h
  | update u n => exact fun _ => hq
  | insert n => exact fun h => by cases h
  | _ => trivial

variable {settings : Settings} {dispatch : ℕ → Delivery → Dispatch} {org n : ℕ}

lemma harmless_commit : (Tx.commit : Tx Unit).Issues Harmless := ⟨trivial, fun _ => trivial⟩

lemma harmless_now : (Tx.now : Tx Time).Issues Harmless := ⟨trivial, fun _ => trivial⟩

lemma harmless_guarded {t : Time → Transition} (ht : ∀ now, (t now).isRequeue = false) :
    (guarded t n).Issues Harmless := ⟨trivial, fun now => ⟨ht now, fun _ => trivial⟩⟩

lemma harmless_landOutcome (claimed : Delivery) (outcome : Outcome) :
    (landOutcome settings org n claimed outcome).Issues Harmless :=
  Prog.issues_bind (harmless_guarded fun now => (landing_spec _ _ claimed now outcome).2)
    fun _ => trivial

lemma harmless_attempt (claimed : Delivery) :
    (attempt settings dispatch org n claimed).Issues Harmless := by
  rw [attempt]
  split_ifs
  · split
    · exact Prog.issues_bind (Prog.issues_bind ⟨trivial, fun _ => trivial⟩ fun _ => trivial)
        fun _ => harmless_landOutcome claimed _
    · exact harmless_landOutcome claimed _
    · exact harmless_landOutcome claimed _
    · exact harmless_landOutcome claimed _
    · trivial
  · exact harmless_landOutcome claimed _

lemma harmless_drainOne : (drainOne settings dispatch org n).Issues Harmless := by
  refine Prog.issues_bind (harmless_guarded fun _ => rfl) fun claimed => ?_
  cases claimed with
  | none => trivial
  | some claimed =>
      exact Prog.issues_bind (harmless_attempt claimed) fun _ =>
        Prog.issues_bind harmless_commit fun _ => trivial

lemma harmless_drainPhase : (drainPhase settings dispatch).Issues Harmless := by
  have horg : ∀ org, (drainOrg settings dispatch org).Issues Harmless := fun org =>
    Prog.issues_bind (⟨trivial, fun _ => ⟨trivial, fun _ => trivial⟩⟩ :
      (getQueuedForOrg org settings.deliveryBatchSize).Issues Harmless) fun due =>
        Prog.issues_tally (fun _ => harmless_drainOne) due
  refine Prog.issues_bind ⟨trivial, fun _ => trivial⟩ fun orgs => ?_
  refine Prog.issues_bind (Prog.issues_tally (fun org => ?_) orgs) fun _ =>
    Prog.issues_bind harmless_commit fun _ => trivial
  exact Prog.issues_tryCatch (horg org) fun _ => ⟨trivial, fun _ => trivial⟩

lemma harmless_recoveryPhase : (recoveryPhase settings).Issues Harmless := by
  have hstale : (recoverStale settings).Issues Harmless := by
    refine Prog.issues_bind harmless_now fun now => ?_
    refine Prog.issues_bind ⟨trivial, fun _ => trivial⟩ fun stale => ?_
    refine Prog.issues_tally (fun row => ?_) stale
    exact Prog.issues_bind (harmless_guarded fun _ => rfl) fun _ => trivial
  have hdue : requeueDueRetrying.Issues Harmless := by
    refine Prog.issues_bind harmless_now fun now => ?_
    refine Prog.issues_bind ⟨trivial, fun _ => trivial⟩ fun rows => ?_
    refine Prog.issues_tally (fun row => ?_) rows
    exact Prog.issues_bind ⟨rfl, fun _ => trivial⟩ fun _ => trivial
  refine Prog.issues_bind hstale fun _ => Prog.issues_bind hdue fun _ => ?_
  exact Prog.issues_bind harmless_commit fun _ => trivial

lemma harmless_get : (DeliveryService.get org n).Issues Harmless := by
  refine Prog.issues_bind ⟨trivial, fun _ => trivial⟩ fun r => ?_
  cases r <;> trivial

lemma harmless_cancel (user : Option ℕ) : (DeliveryService.cancel org n user).Issues Harmless := by
  have hend : ∀ (t : Time → Transition) (k : Option Delivery → Outbox.Tx Delivery),
      (∀ now, (t now).isRequeue = false) → k none = DeliveryService.get org n →
      (∀ r, k (some r) = Tx.commit.bind fun _ => .ret r) → ((guarded t n).bind k).Issues Harmless := by
    intro t k ht hnone hsome
    refine Prog.issues_bind (harmless_guarded ht) fun r => ?_
    cases r with
    | none =>
        rw [hnone]
        exact harmless_get
    | some r =>
        rw [hsome]
        exact Prog.issues_bind harmless_commit fun _ => trivial
  refine Prog.issues_bind harmless_get fun r => Prog.issues_bind harmless_now fun now => ?_
  split_ifs
  · exact hend _ _ (fun _ => rfl) rfl fun _ => rfl
  · exact hend _ _ (fun _ => rfl) rfl fun _ => rfl
  · trivial

end Harmless

/-! ### What makes deliveries pending -/

section Tidy

variable {org cap : ℕ}

lemma tidy_get (organizationId n : ℕ) :
    (pendingQuota org).Tidy cap (Tx.lift intake (DeliveryService.get organizationId n)) := by
  simp only [DeliveryService.get, DeliveryRepository.get, Prog.bind_eq, Prog.pure_eq, Tx.select,
    Tx.lift, Prog.call_bind, Prog.ret_bind, Prog.translate_call]
  refine Quota.tidy_select _ _ fun row => ?_
  generalize Option.filter _ _ = found
  cases found with
  | none => exact fun _ h => h
  | some r => exact fun _ h => h

/-- A retry by hand writes one delivery, and commits it. -/
lemma tidy_retry (organizationId n : ℕ) :
    (pendingQuota org).Tidy cap (Tx.lift intake (DeliveryService.retry organizationId n)) := by
  simp only [DeliveryService.retry, Prog.bind_eq, Prog.pure_eq, Tx.lift, Prog.translate_bind]
  refine (tidy_get organizationId n).bind fun r => ?_
  split_ifs
  · refine rests_call (fun _ _ => trivial) (fun _ _ hg => hg) fun now => ?_
    refine rests_call (fun _ _ => trivial) (fun _ _ hg => hg) fun stamp => ?_
    exact Quota.tidy_update _ _ (tidy_get organizationId n) fun r _ => ⟨trivial, fun _ => rfl⟩
  · exact fun _ h => h

lemma tidy_findExisting (organizationId : ℕ) (key : Option String) :
    (pendingQuota org).Tidy cap (findExisting organizationId key) := by
  unfold findExisting
  split
  · exact rests_ret none
  · simp only [getByIdempotency, Prog.bind_eq, Prog.pure_eq]
    refine Quota.tidy_scan _ fun rows => ?_
    rcases rows with _ | ⟨row, _ | ⟨row', rest⟩⟩
    · exact rests_ret none
    · exact rests_ret (some row)
    · exact rests_raise _

/-- The insert of `enqueue`, after a count below the cap. -/
lemma obeys_insertDelivery (settings : EnqueueSettings) {d : NewDelivery} {refused : Bool}
    {g : Quota.Ghost} (hg : g.written = none)
    (hcount : d.organizationId = org → ∃ c, g.answer = some c ∧ c < cap) :
    (insertDelivery settings d refused).Obeys ((pendingQuota org).monitor cap)
      (fun g _ => g.written = none) g := by
  simp only [insertDelivery, Prog.bind_eq, Prog.pure_eq]
  refine ⟨trivial, fun now => ?_⟩
  cases refused with
  | true =>
      refine ⟨trivial, fun _ => ?_⟩
      split_ifs <;> rfl
  | false =>
      refine ⟨fun _ => ⟨hg, fun hpending => hcount ?_⟩, fun _ => ⟨trivial, fun _ => rfl⟩⟩
      have hrow : (d.row settings.deliveryMaxAttempts now).isPending org = true := hpending
      simp only [Delivery.isPending, Bool.and_eq_true, decide_eq_true_eq] at hrow
      exact hrow.1

/-- A count of the organization is the one of its quota. -/
lemma obeys_countPending {organizationId : ℕ} {α : Type} {g : Quota.Ghost} (hg : g.written = none)
    {k : ℕ → IntakeTx α}
    (hk : ∀ pending g, g.written = none → (organizationId = org → g.answer = some pending) →
      (k pending).Obeys ((pendingQuota org).monitor cap) (fun g _ => g.written = none) g) :
    ((countPending organizationId).bind k).Obeys ((pendingQuota org).monitor cap)
      (fun g _ => g.written = none) g := by
  by_cases horg : organizationId = org
  · subst horg
    exact Quota.obeys_count hg fun rows => hk rows.length _ hg fun _ => rfl
  · refine ⟨fun _ => hg, fun rows => hk rows.length _ ?_ fun h => absurd h horg⟩
    have hstep : ((pendingQuota org).monitor cap).step g
        ⟨.scan (.inr (.countPending organizationId)), rows⟩ = g :=
      if_neg fun h => horg (IntakeQuery.countPending.inj (Sum.inr.inj h))
    rw [hstep]
    exact hg

/-- **`enqueue` inserts after a count below the cap.** -/
lemma tidy_enqueue (settings : EnqueueSettings) (dumps : JsonObject → String) (d : NewDelivery)
    (refused : Bool) :
    (pendingQuota org).Tidy settings.deliveryMaxPendingPerOrg (enqueue settings dumps d refused) := by
  simp only [enqueue, Prog.bind_eq, Prog.pure_eq]
  split_ifs
  · exact fun _ h => h
  · exact fun _ h => h
  · exact fun _ h => h
  · refine (tidy_findExisting _ _).bind fun existing => ?_
    cases existing with
    | some existing => exact rests_ret _
    | none =>
        have hpos : settings.deliveryMaxPendingPerOrg > 0 := settings.one_le_cap
        simp only [checkPendingCap, if_pos hpos, Prog.bind_eq, Prog.bind_assoc]
        refine fun g hg => obeys_countPending hg fun pending g hg hcount => ?_
        by_cases hcap : settings.deliveryMaxPendingPerOrg ≤ pending
        · simp only [if_pos hcap]
          exact hg
        · simp only [if_neg hcap]
          exact obeys_insertDelivery settings hg fun horg =>
            ⟨pending, hcount horg, not_le.mp hcap⟩

end Tidy

/-! ### Runs -/

/-- Who works on deliveries: a caller of `enqueue`, a user, or a phase of the worker. -/
inductive Caller where
  | enqueue (d : NewDelivery) (refused : Bool)
  | cancel (organizationId deliveryId : ℕ) (cancelledByUserId : Option ℕ)
  | retry (organizationId deliveryId : ℕ)
  | recover (settings : Settings)
  | drain (settings : Settings) (dispatch : ℕ → Delivery → Dispatch)

/-- The call, in a session of its own. -/
def Caller.program (settings : EnqueueSettings) (dumps : JsonObject → String) :
    Caller → IntakeTx Unit
  | enqueue d refused =>
      (Txn.Tx.withSession (DeliveryService.enqueue settings dumps d refused)).bind fun _ => .ret ()
  | cancel org n user => Tx.lift intake (client (DeliveryService.cancel org n user))
  | retry org n => Tx.lift intake (client (DeliveryService.retry org n))
  | recover worker => Tx.lift intake (client (recoveryPhase worker))
  | drain worker dispatch => Tx.lift intake (client (drainPhase worker dispatch))

/-- The deliveries on a database, as its sessions `ι` see it. -/
abbrev IntakeDatabase (ι : Type) : Type := Db withIntake ι

/-- Every caller makes at most one delivery pending in a transaction, and creates it after a count
below the cap. -/
lemma obeys_program (settings : EnqueueSettings) (dumps : JsonObject → String) (org : ℕ)
    (caller : Caller) : (caller.program settings dumps).Obeys
      ((pendingQuota org).monitor settings.deliveryMaxPendingPerOrg) (fun _ _ => True)
      ⟨none, none⟩ := by
  have hharmless : ∀ {α : Type} {p : Tx α}, p.Issues Harmless → (Tx.lift intake (client p)).Obeys
      ((pendingQuota org).monitor settings.deliveryMaxPendingPerOrg) (fun _ _ => True)
      ⟨none, none⟩ := by
    intro α p hp
    have hsession : (client p).Issues Harmless :=
      Prog.issues_bind (Txn.Tx.issues_withSession hp trivial) fun _ => trivial
    exact (Quota.obeys_of_leaves (Prog.issues_translate
      (Prog.issues_mono hsession (leaves_lift org)))).mono fun _ _ _ => trivial
  cases caller with
  | enqueue d refused =>
      have htidy : (pendingQuota org).Tidy settings.deliveryMaxPendingPerOrg
          (Txn.Tx.withSession (DeliveryService.enqueue settings dumps d refused)) :=
        (tidy_enqueue settings dumps d refused).withSession (fun _ _ => trivial) fun _ _ => rfl
      exact ((htidy.bind fun _ => rests_ret ()) _ rfl).mono fun _ _ _ => trivial
  | cancel organizationId n user => exact hharmless (harmless_cancel user)
  | retry organizationId n =>
      have htidy : (pendingQuota org).Tidy settings.deliveryMaxPendingPerOrg
          (Txn.Tx.withSession (Tx.lift intake (DeliveryService.retry organizationId n))) :=
        (tidy_retry organizationId n).withSession (fun _ _ => trivial) fun _ _ => rfl
      have hsession : Tx.lift intake (client (DeliveryService.retry organizationId n))
          = (Txn.Tx.withSession (Tx.lift intake (DeliveryService.retry organizationId n))).bind
              fun _ => .ret () := by
        rw [client, Tx.lift, Prog.translate_bind, ← Tx.lift, Tx.lift_withSession]
        rfl
      rw [Caller.program, hsession]
      exact ((htidy.bind fun _ => rests_ret ()) _ rfl).mono fun _ _ _ => trivial
  | recover worker => exact hharmless harmless_recoveryPhase
  | drain worker dispatch => exact hharmless harmless_drainPhase

section Runs

variable {ι : Type} [DecidableEq ι]

/-- How many deliveries of the organization are pending. -/
def pending (organizationId : ℕ) (s : IntakeDatabase ι) : ℕ :=
  (pendingQuota organizationId).load (fun _ => false) s

/-- A commit finds room for a delivery that it makes pending: one just enqueued, less than what its
count has left has been taken since; one put back, less than the cap are pending. -/
def FindsRoom (settings : EnqueueSettings) (organizationId : ℕ)
    (past : List (Event (sql withIntake) ι (IntakeDatabase ι)))
    (ev : Event (sql withIntake) ι (IntakeDatabase ι)) : Prop :=
  (pendingQuota organizationId).Room settings.deliveryMaxPendingPerOrg (fun _ => false) past ev

/-- **The pending cap of deliveries.**  In a run of callers of `enqueue`, users and workers, the pending
deliveries of an organization stay within the cap in every committed state exactly when every commit
finds room for the delivery that it makes pending. -/
theorem deliveries_within_cap_iff (settings : EnqueueSettings) (dumps : JsonObject → String)
    (callers : ι → Caller) (organizationId : ℕ) {s : IntakeDatabase ι}
    {c : Pool (sql withIntake) ι (IntakeDatabase ι) Exn Unit} (hs : s.Settled)
    (hcap : pending organizationId s ≤ settings.deliveryMaxPendingPerOrg)
    (h : Pool.Reach (server withIntake ι)
      (.start (fun i => (callers i).program settings dumps) s) c) :
    Along (FindsRoom settings organizationId) c.trace
      ↔ ∀ ev ∈ c.trace, pending organizationId ev.after ≤ settings.deliveryMaxPendingPerOrg :=
  h.within_iff hs hcap fun i => obeys_program settings dumps organizationId (callers i)

end Runs

/-! ### A retry beside an enqueue -/

def oneDelivery : EnqueueSettings where
  deliveryMaxPendingPerOrg := 1
  deliveryMaxAttempts := 4
  deliveryMaxPayloadBytes := 0
  one_le_cap := le_rfl

/-- A message for the dashboard of organization 1. -/
def message : NewDelivery where
  organizationId := 1
  channel := .dashboard
  recipientUserId := none
  notificationId := none
  approvalRequestId := none
  subject := ""
  body := ""
  actionUrl := none
  payload := []
  maxAttempts := none
  scheduledFor := none
  idempotencyKey := none

/-- An outbox with one delivery, under id 0, which has failed. -/
def failedOutbox : IntakeDatabase (Fin 2) :=
  Db.init (fun t n => match t, n with
    | .inl .delivery, 0 => some { message.row 4 0 with status := .failed, failedAt := some 0 }
    | _, _ => none) 1 (.still 0) fun t n hn => by
      match n with
      | 0 => omega
      | n + 1 =>
          match t with
          | .inl .delivery => rfl
          | .inl .notification => rfl
          | .inr t => exact t.elim

/-- A caller enqueues, and a user retries the failed delivery. -/
def enqueueAndRetry : Fin 2 → Caller
  | 0 => .enqueue message false
  | 1 => .retry 1 0

/-- The retry counts nothing, also when it runs after the enqueue has ended. -/
lemma enqueueAndRetry_overflow : ∃ c, Pool.Reach (server withIntake (Fin 2))
      (.start (fun i => (enqueueAndRetry i).program oneDelivery (fun _ => "")) failedOutbox) c
    ∧ ∃ ev ∈ c.trace, oneDelivery.deliveryMaxPendingPerOrg < pending 1 ev.after := by
  have hrun : ((Pool.start (fun i => (enqueueAndRetry i).program oneDelivery (fun _ => ""))
      failedOutbox).run (server withIntake (Fin 2))
        (List.replicate 5 (.step 0) ++ List.replicate 5 (.step 1))).any (fun c =>
          c.trace.any fun ev =>
            decide (oneDelivery.deliveryMaxPendingPerOrg < pending 1 ev.after)) = true := by
    decide +kernel
  obtain ⟨c, hc, hover⟩ := Pool.exists_of_run hrun
  obtain ⟨ev, hev, hlt⟩ := List.any_eq_true.mp hover
  exact ⟨c, hc, ev, hev, of_decide_eq_true hlt⟩

/-- An enqueue with room, and a retry that comes to nothing. -/
lemma enqueueAndRetry_within : ∃ c, Pool.Reach (server withIntake (Fin 2))
      (.start (fun i => (enqueueAndRetry i).program oneDelivery (fun _ => "")) failedOutbox) c
    ∧ (∀ ev ∈ c.trace, pending 1 ev.after ≤ oneDelivery.deliveryMaxPendingPerOrg)
    ∧ pending 1 c.store = oneDelivery.deliveryMaxPendingPerOrg := by
  have hrun : ((Pool.start (fun i => (enqueueAndRetry i).program oneDelivery (fun _ => ""))
      failedOutbox).run (server withIntake (Fin 2))
        (List.replicate 5 (.step 0) ++ List.replicate 2 (.step 1))).any (fun c =>
          (c.trace.all fun ev =>
            decide (pending 1 ev.after ≤ oneDelivery.deliveryMaxPendingPerOrg))
          && decide (pending 1 c.store = oneDelivery.deliveryMaxPendingPerOrg)) = true := by
    decide +kernel
  obtain ⟨c, hc, hin⟩ := Pool.exists_of_run hrun
  simp only [Bool.and_eq_true, List.all_eq_true, decide_eq_true_eq] at hin
  exact ⟨c, hc, hin.1, hin.2⟩

end Outbox
