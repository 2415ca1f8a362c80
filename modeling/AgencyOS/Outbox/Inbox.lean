import AgencyOS.Outbox.DeliveryWorker
import Mathlib

/-!
One inbox row for each delivered dashboard delivery.

A worker claims a delivery, inserts its notification and lands it in one transaction, so the row it
lands is the row it holds, and the notification is committed together with DELIVERED or not at
all.

* `inbox`: the committed notifications of a delivery;
* `InboxMatch`: the notifications of a delivery, committed or not, against its status;
* `Orderly`: only the session that has inserted the notification marks the delivery delivered, and
  it does so before it commits;
* `inbox_exactly_once` (**exactly one inbox row**): in every state reached, a delivery has one
  notification if it is DELIVERED and none otherwise.
-/

namespace Outbox

open Txn Automation

variable {ι : Type} [DecidableEq ι] {s : Database ι} {d : ℕ} {i j : ι} {q : Sql outbox}

/-! ### Notifications of a delivery -/

/-- The notification is of delivery `d`. -/
def Notification.isFor (d : ℕ) (n : Notification) : Bool := n.deliveryId = some (idText d)

/-- The committed notifications of delivery `d`. -/
def inbox (d : ℕ) (s : Database ι) : List ℕ :=
  (List.range s.fresh).filter fun k => (s.committed .notification k).any (·.isFor d)

/-- The committed status of delivery `d`. -/
def deliveryStatus (d : ℕ) (s : Database ι) : Option DeliveryStatus :=
  (s.committed .delivery d).map (·.status)

lemma lookup_append_self (object : JsonObject) (key : String) (value : JsonValue)
    (h : key ∉ object.map Prod.fst) : (object ++ [(key, value)]).lookup key = some value := by
  induction object with
  | nil => simp
  | cons entry object ih =>
      obtain ⟨k, v⟩ := entry
      simp only [List.map_cons, List.mem_cons, not_or] at h
      have hne : (key == k) = false := by simpa using h.1
      simp only [List.cons_append, List.lookup_cons, hne]
      exact ih h.2

/-- A key of an object is the one set last. -/
lemma lookup_insertKey (object : JsonObject) (key : String) (value : JsonValue) :
    (insertKey object key value).lookup key = some value := by
  rw [insertKey]
  split_ifs with hmem
  · induction object with
    | nil => cases hmem
    | cons entry object ih =>
        obtain ⟨k, v⟩ := entry
        by_cases hk : k = key
        · subst hk
          simp
        · have hmem' : key ∈ object.map Prod.fst := by
            rcases List.mem_cons.mp hmem with h | h
            · exact absurd h.symm hk
            · exact h
          have hne : (key == k) = false := by simpa using Ne.symm hk
          simp only [List.map_cons, if_neg hk, List.lookup_cons, hne]
          exact ih hmem'
  · exact lookup_append_self object key value hmem

/-- The notification that a delivery creates is its own. -/
lemma isFor_notification (n : ℕ) (claimed : Delivery) :
    (InAppProvider.notification n claimed).isFor d = true ↔ n = d := by
  rw [Notification.isFor, Notification.deliveryId, InAppProvider.notification, lookup_insertKey]
  simp only [idText, Option.some.injEq, JsonValue.str.injEq, decide_eq_true_eq]
  exact ⟨fun h => Nat.repr_injective h, fun h => by rw [h]⟩

/-! ### How rows move on -/

/-- The later version of a row: DELIVERED is final, and notifications do not change. -/
def Final : (t : Table) → Row t → Row t → Prop
  | .delivery, r, r' => r.status = .delivered → r'.status = .delivered
  | .notification, r, r' => r' = r

lemma final_refl : ∀ (t : Table) (r : Row t), Final t r r := by
  intro t r
  cases t with
  | delivery => exact id
  | notification => rfl

/-- No `UPDATE` matches a delivered row. -/
lemma not_delivered_of_guard {u : Update} {r : Delivery} (hg : (outbox.act u).guard r = true) :
    r.status ≠ .delivered := by
  intro hst
  obtain ⟨t, updatedAt⟩ := u
  have hedge : Edge t r.status _ := Transition.edge hg
  rw [hst] at hedge
  cases hedge

/-- Rows move on under every statement. -/
lemma final_effect (h : Ahead (S := outbox) Final s) :
    Ahead (S := outbox) Final (Db.effect i q s) := by
  refine h.effect final_refl ?_
  rintro u n r rfl hv hg rc - hrc hst
  exact absurd (hrc hst) (not_delivered_of_guard hg)

lemma deliveryStatus_cases (i : ι) (q : Sql outbox) (s : Database ι) (d : ℕ) :
    deliveryStatus d (Db.effect i q s) = deliveryStatus d s
      ∨ q = .commit ∧ ∃ r, s.dirty .delivery d = some (i, r)
          ∧ deliveryStatus d (Db.effect i q s) = some r.status := by
  rcases Db.committed_effect_cases i q s .delivery d with hsame | ⟨hq, r, hd, hc⟩
  · exact Or.inl (by rw [deliveryStatus, deliveryStatus, hsame])
  · exact Or.inr ⟨hq, r, hd, by rw [deliveryStatus, hc, Option.map_some]⟩

/-- A delivery that is DELIVERED stays so. -/
lemma delivered_stays (h : Ahead (S := outbox) Final s) (hs : deliveryStatus d s = some .delivered) :
    deliveryStatus d (Db.effect i q s) = some .delivered := by
  obtain ⟨rc, hrc, hst⟩ := Option.map_eq_some_iff.mp hs
  obtain ⟨rc', hrc', hfinal⟩ := h.committed final_refl i q hrc
  rw [deliveryStatus, hrc', Option.map_some]
  exact congrArg some (hfinal hst)

/-! ### The inbox against the status -/

/-- Session `i` has inserted a notification of delivery `d` that it has not committed. -/
def Noted (d : ℕ) (i : ι) (s : Database ι) : Prop :=
  ∃ k n, s.dirty .notification k = some (i, n) ∧ n.isFor d = true

/-- The notifications of delivery `d`, committed or not, and its status. -/
structure InboxMatch (d : ℕ) (s : Database ι) : Prop where
  committed : ∀ k n, s.committed .notification k = some n → n.isFor d = true →
    deliveryStatus d s = some .delivered
  unique : ∀ k k' n n', s.committed .notification k = some n →
    s.committed .notification k' = some n' → n.isFor d = true → n'.isFor d = true → k = k'
  exists_row : deliveryStatus d s = some .delivered →
    ∃ k n, s.committed .notification k = some n ∧ n.isFor d = true
  dirty : ∀ k j n, s.dirty .notification k = some (j, n) → n.isFor d = true →
    deliveryStatus d s ≠ some .delivered ∧ ∃ r, s.dirty .delivery d = some (j, r)
      ∧ (r.status = .processing ∨ r.status = .delivered)
  dirty_unique : ∀ k k' j j' n n', s.dirty .notification k = some (j, n) →
    s.dirty .notification k' = some (j', n') → n.isFor d = true → n'.isFor d = true → k = k'
  landed : ∀ j r, s.dirty .delivery d = some (j, r) → r.status = .delivered →
    deliveryStatus d s ≠ some .delivered → Noted d j s

/-- Whether a transition is a `mark_delivered`. -/
def Transition.isDelivered : Transition → Bool
  | .markDelivered .. => true
  | _ => false

/-- Only `mark_delivered` leads to DELIVERED. -/
lemma Transition.isDelivered_of_set {t : Transition} {updatedAt : Time} {r : Delivery}
    (hg : (t.update updatedAt).guard r = true)
    (hr : ((t.update updatedAt).set r).status = .delivered) : t.isDelivered = true := by
  have hedge := Transition.edge hg
  rw [hr] at hedge
  generalize r.status = st at hedge
  cases hedge
  rfl

/-- A notification is inserted for a delivery in hand, once, and committed with DELIVERED. -/
def Orderly (d : ℕ) (i : ι) (s : Database ι) : Sql outbox → Prop
  | .update u n => n = d → (u.transition.isDelivered = true ↔ Noted d i s)
  | .insert n => n.isFor d = true →
      (∃ r, s.dirty .delivery d = some (i, r) ∧ r.status = .processing) ∧ ¬ Noted d i s
  | .commit => Noted d i s → ∃ r, s.dirty .delivery d = some (i, r) ∧ r.status = .delivered
  | _ => True

/-- An uncommitted notification stays uncommitted until its session ends the transaction. -/
lemma Noted.effect {j : ι} (h : Noted d j s) (hq : q = .commit ∨ q = .rollback → j ≠ i) :
    Noted d j (Db.effect i q s) := by
  obtain ⟨k, n, hk, hn⟩ := h
  by_cases hij : i = j
  · subst hij
    have hc : q ≠ .commit := fun h => hq (Or.inl h) rfl
    have hroll : q ≠ .rollback := fun h => hq (Or.inr h) rfl
    obtain ⟨n', hk', rfl | ⟨u, n₀, -, heq, -⟩⟩ := Db.dirty_effect_own hk hc hroll
    · exact ⟨k, n', hk', hn⟩
    · cases heq
  · exact ⟨k, n, ((frame_effect hij q s).dirty _ _ _).mpr hk, hn⟩

/-- Where an uncommitted notification comes from. -/
lemma notification_cases {k : ℕ} {n : Notification}
    (h : (Db.effect i q s).dirty .notification k = some (j, n)) :
    (s.dirty .notification k = some (j, n) ∧ (q = .commit ∨ q = .rollback → j ≠ i))
      ∨ j = i ∧ q = .insert n ∧ k = s.fresh := by
  rcases Db.dirty_effect_cases h with hold | ⟨rfl, ⟨u, n₀, -, -, -, heq⟩ | ⟨x, rfl, rfl, heq⟩⟩
  · exact Or.inl hold
  · cases heq
  · cases heq
    exact Or.inr ⟨rfl, rfl, rfl⟩

omit [DecidableEq ι] in
/-- An uncommitted version of a delivery is not one of a delivered row. -/
lemma not_delivered_of_dirty (h : Ahead (S := outbox) Final s) {r : Delivery}
    (hd : s.dirty .delivery d = some (j, r)) (hr : r.status ≠ .delivered) :
    deliveryStatus d s ≠ some .delivered := by
  intro hs
  obtain ⟨rc, hrc, hst⟩ := Option.map_eq_some_iff.mp hs
  have hfinal : Final .delivery rc r := h .delivery d j r rc hd hrc
  exact hr (hfinal hst)

/-- The delivery in hand of a session that has inserted its notification is still in hand, or has
just been landed as DELIVERED. -/
lemma inHand_effect (hord : Orderly d i s q) (hnoted : Noted d j s) {r : Delivery}
    (hd : s.dirty .delivery d = some (j, r)) (hr : r.status = .processing ∨ r.status = .delivered)
    (hq : q = .commit ∨ q = .rollback → j ≠ i) :
    ∃ r', (Db.effect i q s).dirty .delivery d = some (j, r')
      ∧ (r'.status = .processing ∨ r'.status = .delivered) := by
  by_cases hij : i = j
  · subst hij
    have hc : q ≠ .commit := fun h => hq (Or.inl h) rfl
    have hroll : q ≠ .rollback := fun h => hq (Or.inr h) rfl
    obtain ⟨r', hd', rfl | ⟨u, r₀, rfl, heq, hg, heq'⟩⟩ := Db.dirty_effect_own hd hc hroll
    · exact ⟨r', hd', hr⟩
    · cases heq
      cases heq'
      have hdelivered : u.transition.isDelivered = true := (hord rfl).mpr hnoted
      refine ⟨_, hd', Or.inr ?_⟩
      obtain ⟨t, updatedAt⟩ := u
      cases t with
      | markDelivered org metadata deliveredAt => rfl
      | _ => cases hdelivered
  · exact ⟨r, ((frame_effect hij q s).dirty _ _ _).mpr hd, hr⟩

/-- **Notifications and statuses match** after every orderly statement. -/
lemma inboxMatch_effect (hahead : Ahead (S := outbox) Final s) (hord : Orderly d i s q)
    (h : InboxMatch d s) : InboxMatch d (Db.effect i q s) := by
  have hstay : ∀ k n, s.committed .notification k = some n →
      (Db.effect i q s).committed .notification k = some n := by
    intro k n hk
    obtain ⟨n', hk', heq⟩ := hahead.committed final_refl i q hk
    obtain rfl : n' = n := heq
    exact hk'
  -- a notification that is not committed yet is the only one
  have halone : ∀ k k' j n n', s.committed .notification k = some n → n.isFor d = true →
      s.dirty .notification k' = some (j, n') → n'.isFor d = true → False :=
    fun k k' j n n' hk hn hk' hn' => (h.dirty k' j n' hk' hn').1 (h.committed k n hk hn)
  refine ⟨fun k n hk hn => ?_, fun k k' n n' hk hk' hn hn' => ?_, fun hst => ?_,
    fun k j n hk hn => ?_, fun k k' j j' n n' hk hk' hn hn' => ?_, fun j r hd hr hst => ?_⟩
  · rcases Db.committed_effect_cases i q s .notification k with hsame | ⟨rfl, n', hd, hc⟩
    · exact delivered_stays hahead (h.committed k n (hsame ▸ hk) hn)
    · -- a notification is committed together with DELIVERED
      obtain rfl := Option.some.inj (hc.symm.trans hk)
      obtain ⟨r, hr, hst⟩ := hord ⟨k, n', hd, hn⟩
      have hv : s.view i .delivery d = some r := Db.view_of_own hr
      show (s.view i .delivery d).map (·.status) = some .delivered
      rw [hv, Option.map_some, hst]
  · rcases Db.committed_effect_cases i q s .notification k with hsame | ⟨-, n₁, hd, hc⟩
    · have hold : s.committed .notification k = some n := hsame ▸ hk
      rcases Db.committed_effect_cases i q s .notification k' with hsame' | ⟨-, n₂, hd', hc'⟩
      · exact h.unique k k' n n' hold (hsame' ▸ hk') hn hn'
      · obtain rfl := Option.some.inj (hc'.symm.trans hk')
        exact (halone k k' i n n₂ hold hn hd' hn').elim
    · obtain rfl := Option.some.inj (hc.symm.trans hk)
      rcases Db.committed_effect_cases i q s .notification k' with hsame' | ⟨-, n₂, hd', hc'⟩
      · exact (halone k' k i n' n₁ (hsame' ▸ hk') hn' hd hn).elim
      · obtain rfl := Option.some.inj (hc'.symm.trans hk')
        exact h.dirty_unique k k' i i n₁ n₂ hd hd' hn hn'
  · by_cases hbefore : deliveryStatus d s = some .delivered
    · obtain ⟨k, n, hk, hn⟩ := h.exists_row hbefore
      exact ⟨k, n, hstay k n hk, hn⟩
    · rcases deliveryStatus_cases i q s d with hsame | ⟨rfl, r, hd, hr⟩
      · exact absurd (hsame ▸ hst) hbefore
      · have hdelivered : r.status = .delivered := Option.some.inj (hr.symm.trans hst)
        obtain ⟨k, n, hk, hn⟩ := h.landed i r hd hdelivered hbefore
        exact ⟨k, n, Db.view_of_own hk, hn⟩
  · rcases notification_cases hk with ⟨hold, hj⟩ | ⟨rfl, rfl, rfl⟩
    · obtain ⟨hst, r, hd, hr⟩ := h.dirty k j n hold hn
      refine ⟨?_, inHand_effect hord ⟨k, n, hold, hn⟩ hd hr hj⟩
      rcases deliveryStatus_cases i q s d with hsame | ⟨hq, r', hd', -⟩
      · rwa [hsame]
      · rw [hd] at hd'
        exact absurd (Prod.mk.inj (Option.some.inj hd')).1 (hj (Or.inl hq))
    · obtain ⟨⟨r, hd, hr⟩, -⟩ := hord hn
      obtain ⟨r', hd', rfl | ⟨u, r₀, hq, -⟩⟩ :=
        Db.dirty_effect_own (q := .insert n) hd (by simp) (by simp)
      · refine ⟨?_, r', hd', Or.inl hr⟩
        rw [deliveryStatus, Db.committed_effect (by simp)]
        exact not_delivered_of_dirty hahead hd (by simp [hr])
      · cases hq
  · rcases notification_cases hk with ⟨hold, -⟩ | ⟨rfl, rfl, rfl⟩
    · rcases notification_cases hk' with ⟨hold', -⟩ | ⟨rfl, rfl, rfl⟩
      · exact h.dirty_unique k k' j j' n n' hold hold' hn hn'
      · obtain ⟨-, r, hd, -⟩ := h.dirty k j n hold hn
        obtain ⟨⟨r', hd', -⟩, hnone⟩ := hord hn'
        obtain ⟨rfl, -⟩ := Prod.mk.inj (Option.some.inj (hd.symm.trans hd'))
        exact (hnone ⟨k, n, hold, hn⟩).elim
    · rcases notification_cases hk' with ⟨hold', -⟩ | ⟨-, -, rfl⟩
      · obtain ⟨-, r, hd, -⟩ := h.dirty k' j' n' hold' hn'
        obtain ⟨⟨r', hd', -⟩, hnone⟩ := hord hn
        obtain ⟨rfl, -⟩ := Prod.mk.inj (Option.some.inj (hd.symm.trans hd'))
        exact (hnone ⟨k', n', hold', hn'⟩).elim
      · rfl
  · rcases Db.dirty_effect_cases hd with
      ⟨hold, hj⟩ | ⟨rfl, ⟨u, r₀, rfl, -, hg, heq⟩ | ⟨x, -, -, heq⟩⟩
    · refine (h.landed j r hold hr fun hbefore => hst (delivered_stays hahead hbefore)).effect hj
    · cases heq
      have hdelivered : u.transition.isDelivered = true := by
        obtain ⟨t, updatedAt⟩ := u
        exact Transition.isDelivered_of_set hg hr
      exact ((hord rfl).mp hdelivered).effect (by simp)
    · cases heq

/-! ### The contract -/

/-- What every session may count on about the inbox of delivery `d`. -/
def inboxing (d : ℕ) : Contract (sql outbox) ι (Database ι) where
  inv := fun _ s => Ahead (S := outbox) Final s ∧ InboxMatch d s
  assume := fun _ _ => True
  guar := fun _ _ _ => True
  rely := fun i _ s s' => Frame i s s'

/-- An orderly statement keeps the contract. -/
lemma inboxing_step {tr tr' : List (Happened ι)} (hI : (inboxing d).inv tr s)
    (hord : Orderly d i s q) : (inboxing d).inv tr' (Db.effect i q s) :=
  ⟨final_effect hI.1, inboxMatch_effect hI.1 hord hI.2⟩

lemma inboxing_compatible : (inboxing d).Compatible (postgres ι) where
  refl := fun i _ s => Frame.refl i s
  trans := fun _ _ _ _ _ h₁ h₂ => h₁.trans h₂
  step := fun _ ev j hj _ _ _ hafter _ => by
    rw [hafter]
    exact frame_effect (Ne.symm hj) ev.stmt ev.before
  hangup := fun _ _ _ hI _ _ => ⟨inboxing_step (q := .rollback) hI trivial, trivial⟩

/-- One orderly statement. -/
lemma meets_statement {q : Sql outbox} (hord : ∀ s₁, Frame i s s₁ → Orderly d i s₁ q)
    (h : List (Happened ι)) :
    Meets (inboxing d) (postgres ι) i
      (fun _ r s' => ∃ s₁, Frame i s s₁ ∧ r = .ok (Db.answer i q s₁)
        ∧ Frame i (Db.effect i q s₁) s')
      (Prog.ask (S := sql outbox) q : Tx (Sql.Resp q)) h s := by
  refine (meets_ask (P := fun s₁ => Frame i s s₁) ?_).mono ?_
  · intro tr s₁ _ hr hI _ _
    exact ⟨inboxing_step hI (hord s₁ hr), trivial, hr⟩
  · rintro _ _ s₂ ⟨s₁, hr, -, hok, hframe⟩
    exact ⟨s₁, hr, hok, hframe⟩

/-- The statements that neither land delivery `d` as DELIVERED nor insert its notification. -/
def NoLanding (d : ℕ) : Sql outbox → Prop
  | .update u n => n = d → u.transition.isDelivered = false
  | .insert n => n.isFor d = false
  | _ => True

lemma Noted.rely {s' : Database ι} (h : Frame i s s') : Noted d i s' ↔ Noted d i s :=
  exists_congr fun k => exists_congr fun n => and_congr_left fun _ => h.dirty _ k n

omit [DecidableEq ι] in
lemma orderly_of_noLanding (hJ : ¬ Noted d i s) (hq : NoLanding d q) : Orderly d i s q := by
  cases q with
  | update u n =>
      intro hn
      have hfalse : u.transition.isDelivered = false := hq hn
      simp [hfalse, hJ]
  | insert n =>
      intro hn
      have hfalse : n.isFor d = false := hq
      rw [hfalse] at hn
      cases hn
  | commit => exact fun hnoted => absurd hnoted hJ
  | _ => trivial

lemma not_noted_effect (hJ : ¬ Noted d i s) (hq : NoLanding d q) :
    ¬ Noted d i (Db.effect i q s) := by
  rintro ⟨k, n, hk, hn⟩
  rcases notification_cases hk with ⟨hold, -⟩ | ⟨-, rfl, -⟩
  · exact hJ ⟨k, n, hold, hn⟩
  · have hfalse : n.isFor d = false := hq
    rw [hfalse] at hn
    cases hn

/-- A program that does not deliver `d` keeps the contract. -/
lemma meets_noLanding {α : Type} {p : Tx α} (hp : p.Issues (NoLanding d)) (hJ : ¬ Noted d i s)
    (h : List (Happened ι)) :
    Meets (inboxing d) (postgres ι) i (fun _ _ s => ¬ Noted d i s) p h s := by
  refine meets_of_issues (J := fun _ s => ¬ Noted d i s) hp
    (fun _ _ _ hJ hr => mt (Noted.rely hr).mp hJ) ?_ hJ
  intro tr q h s _ hq hI hJ _ _
  exact ⟨inboxing_step hI (orderly_of_noLanding hJ hq), trivial, not_noted_effect hJ hq⟩

/-! ### The worker -/

section Worker

open DeliveryRepository DeliveryWorker

/-- Session `i` has delivery `d` in hand: claimed, and not committed. -/
def InHand (d org : ℕ) (i : ι) (s : Database ι) : Prop :=
  ∃ r, s.dirty .delivery d = some (i, r) ∧ r.isProcessing org = true

lemma InHand.rely {org : ℕ} {s' : Database ι} (h : InHand d org i s) (hf : Frame i s s') :
    InHand d org i s' := by
  obtain ⟨r, hd, hr⟩ := h
  exact ⟨r, (hf.dirty _ _ _).mpr hd, hr⟩

/-- A claim that returns a row has it in hand. -/
lemma meets_claim (org : ℕ) (hJ : ¬ Noted d i s) (h : List (Happened ι)) :
    Meets (inboxing d) (postgres ι) i
      (fun _ r s => ¬ Noted d i s ∧ ∀ claimed, r = .ok (some claimed) → InHand d org i s)
      (claim org d) h s := by
  have hclock : (Tx.now : Tx Time).Issues (NoLanding d) := ⟨trivial, fun _ => trivial⟩
  refine (meets_noLanding hclock hJ h).bind inboxing_compatible
    (fun h now s hJ => ?_) fun h e s hJ => ⟨hJ, fun _ h => by cases h⟩
  have hq : NoLanding d (.update ⟨.claim org now, now⟩ d) := fun _ => rfl
  refine (meets_statement (fun s₁ hr => orderly_of_noLanding (mt (Noted.rely hr).mp hJ) hq)
    h).mono ?_
  rintro _ _ s₂ ⟨s₁, hr, rfl, hframe⟩
  have hJ₁ : ¬ Noted d i s₁ := mt (Noted.rely hr).mp hJ
  refine ⟨mt (Noted.rely hframe).mp (not_noted_effect hJ₁ hq), fun claimed hok => ?_⟩
  have hw : s₁.written i ⟨.claim org now, now⟩ d = some claimed := Except.ok.inj hok
  obtain ⟨-, r, -, hg, hset⟩ := Db.written_eq_some.mp hw
  have hhand : InHand d org i (Db.effect i (.update ⟨.claim org now, now⟩ d) s₁) := by
    refine ⟨claimed, Db.dirty_update hw, ?_⟩
    have hg' : (Delivery.claim org now).guard r = true := hg
    simp only [Delivery.claim, Bool.and_eq_true, decide_eq_true_eq] at hg'
    rw [← hset]
    exact Transition.isProcessing_iff.mpr ⟨hg'.1.1.1, rfl⟩
  exact hhand.rely hframe

/-- The provider inserts the notification of the delivery in hand. -/
lemma meets_deliver (org : ℕ) (claimed : Delivery) (hJ : ¬ Noted d i s) (hhand : InHand d org i s)
    (h : List (Happened ι)) :
    Meets (inboxing d) (postgres ι) i
      (fun _ r s => (∃ metadata, r = .ok metadata) ∧ Noted d i s ∧ InHand d org i s)
      (InAppProvider.deliver d claimed) h s := by
  have hinsert : Meets (inboxing d) (postgres ι) i
      (fun _ r s => (∃ k, r = .ok k) ∧ Noted d i s ∧ InHand d org i s)
      (Tx.insert (S := outbox) (ε := Exn) (InAppProvider.notification d claimed)) h s := by
    refine (meets_statement (q := .insert (InAppProvider.notification d claimed))
      (fun s₁ hr _ => ?_) h).mono ?_
    · obtain ⟨r, hd, hproc⟩ := hhand.rely hr
      exact ⟨⟨r, hd, (Transition.isProcessing_iff.mp hproc).2⟩, mt (Noted.rely hr).mp hJ⟩
    · rintro _ _ s₂ ⟨s₁, hr, hok, hframe⟩
      obtain ⟨r, hd, hproc⟩ := hhand.rely hr
      obtain ⟨r', hd', rfl | ⟨u, r₀, hq, -⟩⟩ := Db.dirty_effect_own
        (q := .insert (InAppProvider.notification d claimed)) hd (by simp) (by simp)
      · have hnoted : Noted d i (Db.effect i (.insert (InAppProvider.notification d claimed)) s₁) :=
          ⟨s₁.fresh, _, Db.dirty_insert i _ s₁, (isFor_notification d claimed).mpr rfl⟩
        exact ⟨⟨_, hok⟩, (Noted.rely hframe).mpr hnoted, InHand.rely ⟨r', hd', hproc⟩ hframe⟩
      · cases hq
  rw [InAppProvider.deliver]
  refine hinsert.bind inboxing_compatible (fun h k s hs => ?_) fun h e s hs => ?_
  · exact fun _ s' _ hr _ => ⟨⟨_, rfl⟩, (Noted.rely hr).mpr hs.2.1, hs.2.2.rely hr⟩
  · obtain ⟨⟨k, hk⟩, -⟩ := hs
    cases hk

/-- Session `i` has landed delivery `d` as DELIVERED, and not committed. -/
def Landed (d : ℕ) (i : ι) (s : Database ι) : Prop :=
  ∃ r, s.dirty .delivery d = some (i, r) ∧ r.status = .delivered

lemma Landed.rely {s' : Database ι} (h : Landed d i s) (hf : Frame i s s') : Landed d i s' := by
  obtain ⟨r, hd, hr⟩ := h
  exact ⟨r, (hf.dirty _ _ _).mpr hd, hr⟩

/-- The landing of a delivery in hand whose notification is inserted. -/
lemma meets_landDelivered (settings : Settings) {org : ℕ} (claimed : Delivery)
    (providerMetadata : JsonObject) (hnoted : Noted d i s) (hhand : InHand d org i s)
    (h : List (Happened ι)) :
    Meets (inboxing d) (postgres ι) i (fun _ r s => r = .ok () ∧ Landed d i s)
      (landOutcome settings org d claimed (.delivered providerMetadata)) h s := by
  have hclock : Meets (inboxing d) (postgres ι) i
      (fun _ r s => (∃ now, r = .ok now) ∧ Noted d i s ∧ InHand d org i s)
      (Tx.now : Tx Time) h s := by
    refine (meets_statement (q := .now) (fun _ _ => trivial) h).mono ?_
    rintro _ _ s₂ ⟨s₁, hr, hok, hframe⟩
    have hframe' : Frame i s s₂ := (hr.trans (frame_now i i s₁)).trans hframe
    exact ⟨⟨_, hok⟩, (Noted.rely hframe').mpr hnoted, hhand.rely hframe'⟩
  have hupdate : ∀ h now s, Noted d i s → InHand d org i s → Meets (inboxing d) (postgres ι) i
      (fun _ r s => (∃ row, r = .ok row) ∧ Landed d i s)
      (Tx.update (S := outbox) (ε := Exn) ⟨.markDelivered org providerMetadata now, now⟩ d) h s := by
    intro h now s hnoted hhand
    refine (meets_statement (q := .update ⟨.markDelivered org providerMetadata now, now⟩ d)
      (fun s₁ hr _ => ?_) h).mono ?_
    · exact ⟨fun _ => (Noted.rely hr).mpr hnoted, fun _ => rfl⟩
    · rintro _ _ s₂ ⟨s₁, hr, hok, hframe⟩
      obtain ⟨r, hd, hproc⟩ := hhand.rely hr
      have hheld : s₁.heldByOther i .delivery d = false := by
        simp [Db.heldByOther, hd]
      have hw : s₁.written i ⟨.markDelivered org providerMetadata now, now⟩ d = some _ :=
        Db.written_eq_some.mpr ⟨hheld, r, Db.view_of_own hd, hproc, rfl⟩
      exact ⟨⟨_, hok⟩, _, (hframe.dirty _ _ _).mpr (Db.dirty_update hw), rfl⟩
  have hguarded : Meets (inboxing d) (postgres ι) i
      (fun _ r s => (∃ row, r = .ok row) ∧ Landed d i s)
      (guarded (fun now => .markDelivered org providerMetadata now) d) h s := by
    refine hclock.bind inboxing_compatible (fun h now s hs => hupdate h now s hs.2.1 hs.2.2)
      fun h e s hs => ?_
    obtain ⟨⟨now, hnow⟩, -⟩ := hs
    cases hnow
  rw [landOutcome]
  refine hguarded.bind inboxing_compatible (fun h row s hs => ?_) fun h e s hs => ?_
  · exact fun _ s' _ hr _ => ⟨rfl, hs.2.rely hr⟩
  · obtain ⟨⟨row, hrow⟩, -⟩ := hs
    cases hrow

/-- The commit of a landed delivery. -/
lemma meets_commitLanded (hland : Landed d i s) (h : List (Happened ι)) :
    Meets (inboxing d) (postgres ι) i (fun _ _ s => ¬ Noted d i s) (Tx.commit : Tx Unit) h s := by
  refine (meets_statement (q := .commit) (fun s₁ hr _ => hland.rely hr) h).mono ?_
  rintro _ _ s₂ ⟨s₁, -, -, hframe⟩ hnoted
  obtain ⟨k, n, hk, -⟩ := (Noted.rely hframe).mp hnoted
  exact (Db.release_eq_some.mp hk).1 rfl

/-- **A delivery in hand is sent**: notification, landing and commit. -/
lemma meets_send (settings : Settings) {dispatch : ℕ → Delivery → Dispatch} {org : ℕ}
    {claimed : Delivery} (hchannel : claimed.channel = .dashboard)
    (hflushed : dispatch d claimed = .flushed) (hJ : ¬ Noted d i s) (hhand : InHand d org i s)
    (h : List (Happened ι)) :
    Meets (inboxing d) (postgres ι) i (fun _ _ s => ¬ Noted d i s)
      ((attempt settings dispatch org d claimed).bind fun _ => Tx.commit.bind fun _ => .ret 1)
      h s := by
  have hattempt : Meets (inboxing d) (postgres ι) i (fun _ r s => r = .ok () ∧ Landed d i s)
      (attempt settings dispatch org d claimed) h s := by
    rw [attempt, if_pos hchannel, hflushed]
    refine (meets_deliver org claimed hJ hhand h).bind inboxing_compatible
      (fun h metadata s hs => meets_landDelivered settings claimed metadata hs.2.1 hs.2.2 h)
      fun h e s hs => ?_
    obtain ⟨⟨metadata, hmetadata⟩, -⟩ := hs
    cases hmetadata
  refine hattempt.bind inboxing_compatible (fun h _ s hs => ?_) fun h e s hs => by cases hs.1
  refine (meets_commitLanded hs.2 h).bind inboxing_compatible (fun h _ s hs => ?_)
    fun h e s hs => hs
  exact fun _ s' _ hr _ => mt (Noted.rely hr).mp hs

/-- What delivers an attempt, if anything does. -/
def Outcome.isDelivered : Outcome → Bool
  | .delivered _ => true
  | _ => false

lemma landing_isDelivered (deliveryRetryBaseSeconds org : ℕ) (claimed : Delivery) (now : Time)
    {outcome : Outcome} (ho : outcome.isDelivered = false) :
    (landing deliveryRetryBaseSeconds org claimed now outcome).isDelivered = false := by
  cases outcome with
  | delivered metadata => cases ho
  | failed error | retry error | timedOut error =>
      simp only [landing, land]
      split_ifs <;> rfl

lemma noLanding_guarded {t : Time → Transition} {n : ℕ}
    (ht : ∀ now, n = d → (t now).isDelivered = false) : (guarded t n).Issues (NoLanding d) :=
  ⟨trivial, fun now => ⟨ht now, fun _ => trivial⟩⟩

lemma noLanding_landOutcome (settings : Settings) (org n : ℕ) (claimed : Delivery)
    {outcome : Outcome} (ho : n = d → outcome.isDelivered = false) :
    (landOutcome settings org n claimed outcome).Issues (NoLanding d) :=
  Prog.issues_bind
    (noLanding_guarded fun now hn => landing_isDelivered _ org claimed now (ho hn))
    fun _ => trivial

lemma noLanding_commit : (Tx.commit : Tx Unit).Issues (NoLanding d) := ⟨trivial, fun _ => trivial⟩

/-- An attempt on another delivery does not deliver `d`. -/
lemma noLanding_attempt {settings : Settings} {dispatch : ℕ → Delivery → Dispatch} (org : ℕ)
    {n : ℕ} (claimed : Delivery)
    (hn : n ≠ d ∨ ¬ (claimed.channel = .dashboard ∧ dispatch n claimed = .flushed)) :
    (attempt settings dispatch org n claimed).Issues (NoLanding d) := by
  rw [attempt]
  split_ifs with hchannel
  · split
    · rename_i hflushed
      have hne : n ≠ d := hn.resolve_right fun h => h ⟨hchannel, hflushed⟩
      refine Prog.issues_bind (Prog.issues_bind ⟨?_, fun _ => trivial⟩ fun _ => trivial) fun metadata =>
        noLanding_landOutcome settings org n claimed fun h => absurd h hne
      exact Bool.eq_false_iff.mpr fun h => hne ((isFor_notification n claimed).mp h)
    · exact noLanding_landOutcome settings org n claimed fun _ => rfl
    · exact noLanding_landOutcome settings org n claimed fun _ => rfl
    · exact noLanding_landOutcome settings org n claimed fun _ => rfl
    · trivial
  · exact noLanding_landOutcome settings org n claimed fun _ => rfl

lemma noLanding_drainOne {settings : Settings} {dispatch : ℕ → Delivery → Dispatch} (org : ℕ)
    {n : ℕ} (hn : n ≠ d) : (drainOne settings dispatch org n).Issues (NoLanding d) := by
  refine Prog.issues_bind (noLanding_guarded fun _ _ => rfl) fun claimed => ?_
  cases claimed with
  | none => trivial
  | some claimed =>
      exact Prog.issues_bind (noLanding_attempt org claimed (Or.inl hn)) fun _ =>
        Prog.issues_bind noLanding_commit fun _ => trivial

/-- **The drain of one delivery** leaves no uncommitted notification of it. -/
lemma meets_drainOne (settings : Settings) (dispatch : ℕ → Delivery → Dispatch) (org n : ℕ)
    (hJ : ¬ Noted d i s) (h : List (Happened ι)) :
    Meets (inboxing d) (postgres ι) i (fun _ _ s => ¬ Noted d i s)
      (drainOne settings dispatch org n) h s := by
  by_cases hn : n = d
  · subst hn
    rw [drainOne]
    refine (meets_claim org hJ h).bind inboxing_compatible (fun h claimed s hs => ?_)
      fun h e s hs => hs.1
    obtain ⟨hJ, hhand⟩ := hs
    cases claimed with
    | none => exact fun _ s' _ hr _ => mt (Noted.rely hr).mp hJ
    | some claimed =>
        have hhand : InHand n org i s := hhand claimed rfl
        dsimp only
        by_cases hsend : claimed.channel = .dashboard ∧ dispatch n claimed = .flushed
        · exact meets_send settings hsend.1 hsend.2 hJ hhand h
        · have hattempt : (attempt settings dispatch org n claimed).Issues (NoLanding n) :=
            noLanding_attempt org claimed (Or.inr hsend)
          have hrest : ((attempt settings dispatch org n claimed).bind fun _ =>
              Tx.commit.bind fun _ => .ret 1).Issues (NoLanding n) :=
            Prog.issues_bind hattempt fun _ => Prog.issues_bind noLanding_commit fun _ => trivial
          exact meets_noLanding hrest hJ h
  · exact meets_noLanding (noLanding_drainOne org hn) hJ h

/-- The drain of an organization. -/
lemma meets_drainOrg (settings : Settings) (dispatch : ℕ → Delivery → Dispatch) (org : ℕ)
    (hJ : ¬ Noted d i s) (h : List (Happened ι)) :
    Meets (inboxing d) (postgres ι) i (fun _ _ s => ¬ Noted d i s)
      (drainOrg settings dispatch org) h s := by
  have hdue : (getQueuedForOrg org settings.deliveryBatchSize).Issues (NoLanding d) :=
    ⟨trivial, fun _ => ⟨trivial, fun _ => trivial⟩⟩
  rw [drainOrg]
  refine (meets_noLanding hdue hJ h).bind inboxing_compatible (fun h due s hJ => ?_)
    fun h e s hJ => hJ
  refine Meets.tally inboxing_compatible (J := fun _ _ s => ¬ Noted d i s)
    (fun _ _ _ _ hJ hr => mt (Noted.rely hr).mp hJ) (fun row _ h s hJ => ?_)
    (fun _ _ _ hJ => hJ) due hJ
  refine (meets_drainOne settings dispatch org row.1 hJ h).mono fun h r s hJ => ?_
  cases r <;> exact hJ

/-- The drain phase of a sweep. -/
lemma meets_drainPhase (settings : Settings) (dispatch : ℕ → Delivery → Dispatch)
    (hJ : ¬ Noted d i s) (h : List (Happened ι)) :
    Meets (inboxing d) (postgres ι) i (fun _ _ s => ¬ Noted d i s)
      (drainPhase settings dispatch) h s := by
  have horgs : (getQueuedOrgs settings.deliveryOrgsPerSweep).Issues (NoLanding d) :=
    ⟨trivial, fun _ => trivial⟩
  have hback : ((Tx.rollback : Tx Unit).bind fun _ => .ret 0).Issues (NoLanding d) :=
    ⟨trivial, fun _ => trivial⟩
  rw [drainPhase]
  refine (meets_noLanding horgs hJ h).bind inboxing_compatible (fun h orgs s hJ => ?_)
    fun h e s hJ => hJ
  have hdrain : Meets (inboxing d) (postgres ι) i (fun _ _ s => ¬ Noted d i s)
      (Prog.tally orgs fun org =>
        tryCatch (drainOrg settings dispatch org) fun _ => do
          Tx.rollback
          return 0) h s := by
    refine Meets.tally inboxing_compatible (J := fun _ _ s => ¬ Noted d i s)
      (fun _ _ _ _ hJ hr => mt (Noted.rely hr).mp hJ) (fun org _ h s hJ => ?_)
      (fun _ _ _ hJ => hJ) orgs hJ
    have hone : Meets (inboxing d) (postgres ι) i (fun _ _ s => ¬ Noted d i s)
        ((drainOrg settings dispatch org).tryCatch fun _ => Tx.rollback.bind fun _ => .ret 0) h s :=
      (meets_drainOrg settings dispatch org hJ h).tryCatch inboxing_compatible
        (fun _ _ _ hJ => hJ) fun h _ s hJ => meets_noLanding hback hJ h
    refine hone.mono fun h r s hJ => ?_
    cases r <;> exact hJ
  refine hdrain.bind inboxing_compatible (fun h drained s hJ => ?_) fun h e s hJ => hJ
  have hend : ((Tx.commit : Tx Unit).bind fun _ => .ret drained).Issues (NoLanding d) :=
    ⟨trivial, fun _ => trivial⟩
  exact meets_noLanding hend hJ h

end Worker

/-! ### The other calls -/

section Calls

open DeliveryRepository DeliveryWorker

lemma noLanding_get (org n : ℕ) : (DeliveryService.get org n).Issues (NoLanding d) := by
  refine Prog.issues_bind ⟨trivial, fun _ => trivial⟩ fun r => ?_
  cases r <;> trivial

/-- A guarded `UPDATE` with its commit, and a read if nothing matched. -/
lemma noLanding_guardedOrGet {t : Time → Transition} (ht : ∀ now, (t now).isDelivered = false)
    (org n : ℕ) :
    ((guarded t n).bind fun
      | some r => Tx.commit.bind fun _ => .ret r
      | none => DeliveryService.get org n).Issues (NoLanding d) := by
  refine Prog.issues_bind (noLanding_guarded fun now _ => ht now) fun r => ?_
  cases r with
  | none => exact noLanding_get org n
  | some r => exact Prog.issues_bind noLanding_commit fun _ => trivial

lemma noLanding_cancel (org n : ℕ) (user : Option ℕ) :
    (DeliveryService.cancel org n user).Issues (NoLanding d) := by
  refine Prog.issues_bind (noLanding_get org n) fun r => ?_
  refine Prog.issues_bind ⟨trivial, fun _ => trivial⟩ fun now => ?_
  split_ifs
  · exact noLanding_guardedOrGet (fun _ => rfl) org n
  · exact noLanding_guardedOrGet (fun _ => rfl) org n
  · trivial

lemma noLanding_retry (org n : ℕ) : (DeliveryService.retry org n).Issues (NoLanding d) := by
  refine Prog.issues_bind (noLanding_get org n) fun r => ?_
  have hrequeue : ((Tx.now : Tx Time).bind fun now =>
      (guarded (fun _ => .markRequeued org now) n).bind fun
        | some r => Tx.commit.bind fun _ => .ret r
        | none => DeliveryService.get org n).Issues (NoLanding d) :=
    Prog.issues_bind ⟨trivial, fun _ => trivial⟩ fun now =>
      noLanding_guardedOrGet (fun _ => rfl) org n
  dsimp only
  split_ifs
  · exact hrequeue
  · trivial

lemma noLanding_recoveryPhase (settings : Settings) :
    (recoveryPhase settings).Issues (NoLanding d) := by
  have hstale : (recoverStale settings).Issues (NoLanding d) := by
    refine Prog.issues_bind ⟨trivial, fun _ => trivial⟩ fun now => ?_
    refine Prog.issues_bind ⟨trivial, fun _ => trivial⟩ fun stale => ?_
    refine Prog.issues_tally (fun row => ?_) stale
    exact Prog.issues_bind (noLanding_guarded fun _ _ => rfl) fun _ => trivial
  have hdue : requeueDueRetrying.Issues (NoLanding d) := by
    refine Prog.issues_bind ⟨trivial, fun _ => trivial⟩ fun now => ?_
    refine Prog.issues_bind ⟨trivial, fun _ => trivial⟩ fun rows => ?_
    refine Prog.issues_tally (fun row => ?_) rows
    exact Prog.issues_bind ⟨fun _ => rfl, fun _ => trivial⟩ fun _ => trivial
  refine Prog.issues_bind hstale fun _ => Prog.issues_bind hdue fun _ => ?_
  exact Prog.issues_bind noLanding_commit fun _ => trivial

/-- The sessions around delivery `d`: the phases of a sweep, `cancel`, `retry`, and whatever neither
lands the delivery as DELIVERED nor inserts its notification. -/
inductive OutboxSession (d : ℕ) : Tx Unit → Prop
  | drain (settings : Settings) (dispatch : ℕ → Delivery → Dispatch) :
      OutboxSession d (client (drainPhase settings dispatch))
  | recovery (settings : Settings) : OutboxSession d (client (recoveryPhase settings))
  | cancel (org n : ℕ) (user : Option ℕ) :
      OutboxSession d (client (DeliveryService.cancel org n user))
  | retry (org n : ℕ) : OutboxSession d (client (DeliveryService.retry org n))
  | other (p : Tx Unit) : p.Issues (NoLanding d) → OutboxSession d p

lemma noLanding_client {α : Type} {p : Tx α} (hp : p.Issues (NoLanding d)) :
    (client p).Issues (NoLanding d) :=
  Prog.issues_bind (Txn.Tx.issues_withSession hp trivial) fun _ => trivial

/-- The drain in a session of its own. -/
lemma meets_drainClient (settings : Settings) (dispatch : ℕ → Delivery → Dispatch)
    (hJ : ¬ Noted d i s) :
    Meets (inboxing d) (postgres ι) i (fun _ _ s => ¬ Noted d i s)
      (client (drainPhase settings dispatch)) [] s := by
  have hsession : Meets (inboxing d) (postgres ι) i (fun _ _ s => ¬ Noted d i s)
      (Txn.Tx.withSession (drainPhase settings dispatch)) [] s := by
    refine (meets_drainPhase settings dispatch hJ []).withSession inboxing_compatible ?_
    intro h r s₁ tr s₂ hJ₁ _ hr hI _
    have hJ₂ : ¬ Noted d i s₂ := mt (Noted.rely hr).mp hJ₁
    refine ⟨inboxing_step (q := .rollback) hI trivial, trivial, fun s₃ hr' => ?_⟩
    exact mt (Noted.rely hr').mp (not_noted_effect (q := .rollback) hJ₂ trivial)
  rw [client]
  refine hsession.bind inboxing_compatible (fun h _ s hJ => ?_) fun h e s hJ => hJ
  exact fun _ s' _ hr _ => mt (Noted.rely hr).mp hJ

/-- Every session keeps the contract. -/
lemma OutboxSession.meets {p : Tx Unit} (hp : OutboxSession d p) (hJ : ¬ Noted d i s) :
    Meets (inboxing d) (postgres ι) i (fun _ _ s => ¬ Noted d i s) p [] s := by
  cases hp with
  | drain settings dispatch => exact meets_drainClient settings dispatch hJ
  | recovery settings =>
      exact meets_noLanding (noLanding_client (noLanding_recoveryPhase settings)) hJ []
  | cancel org n user => exact meets_noLanding (noLanding_client (noLanding_cancel org n user)) hJ []
  | retry org n => exact meets_noLanding (noLanding_client (noLanding_retry org n)) hJ []
  | other p hp => exact meets_noLanding hp hJ []

end Calls

/-! ### One inbox row -/

section Count

omit [DecidableEq ι]

lemma mem_inbox {k : ℕ} :
    k ∈ inbox d s ↔ ∃ n, s.committed .notification k = some n ∧ n.isFor d = true := by
  simp only [inbox, List.mem_filter, List.mem_range, Option.any_eq_true]
  exact ⟨fun h => h.2, fun h => ⟨Db.lt_fresh_of_committed h.choose_spec.1, h⟩⟩

lemma nodup_inbox : (inbox d s).Nodup := List.nodup_range.filter _

/-- Notifications and statuses match when no transaction is open and they are as many as they
should be. -/
lemma inboxMatch_of_settled (hs : s.Settled)
    (hcount : (inbox d s).length = if deliveryStatus d s = some .delivered then 1 else 0) :
    InboxMatch d s := by
  have hempty : deliveryStatus d s ≠ some .delivered → ∀ k, k ∉ inbox d s := by
    intro hst k hk
    rw [if_neg hst] at hcount
    rw [List.eq_nil_of_length_eq_zero hcount] at hk
    cases hk
  refine ⟨fun k n hk hn => ?_, fun k k' n n' hk hk' hn hn' => ?_, fun hst => ?_,
    fun k j n hk => ?_, fun k k' j j' n n' hk => ?_, fun j r hd => ?_⟩
  · by_contra hst
    exact hempty hst k (mem_inbox.mpr ⟨n, hk, hn⟩)
  · have hmem : k ∈ inbox d s := mem_inbox.mpr ⟨n, hk, hn⟩
    have hmem' : k' ∈ inbox d s := mem_inbox.mpr ⟨n', hk', hn'⟩
    have hle : (inbox d s).length ≤ 1 := by
      rw [hcount]
      split_ifs <;> omega
    obtain ⟨k₀, hk₀⟩ := List.length_eq_one_iff.mp
      (le_antisymm hle (List.length_pos_of_mem hmem))
    rw [hk₀] at hmem hmem'
    rw [List.mem_singleton.mp hmem, List.mem_singleton.mp hmem']
  · rw [if_pos hst] at hcount
    obtain ⟨k, hk⟩ := List.length_eq_one_iff.mp hcount
    exact ⟨k, mem_inbox.mp (hk ▸ List.mem_singleton_self k)⟩
  · rw [hs] at hk
    cases hk
  · rw [hs] at hk
    cases hk
  · rw [hs] at hd
    cases hd

/-- The count that matching notifications and statuses give. -/
lemma InboxMatch.length_inbox (h : InboxMatch d s) :
    (inbox d s).length = if deliveryStatus d s = some .delivered then 1 else 0 := by
  split_ifs with hst
  · obtain ⟨k, n, hk, hn⟩ := h.exists_row hst
    have hall : ∀ k' ∈ inbox d s, k' = k := by
      intro k' hk'
      obtain ⟨n', hc, hn'⟩ := mem_inbox.mp hk'
      exact h.unique k' k n' n hc hk hn' hn
    have hle : (inbox d s).length ≤ [k].length :=
      nodup_inbox.length_le_of_subset fun k' hk' => List.mem_singleton.mpr (hall k' hk')
    exact le_antisymm hle (List.length_pos_of_mem (mem_inbox.mpr ⟨n, hk, hn⟩))
  · rw [List.length_eq_zero_iff, List.eq_nil_iff_forall_not_mem]
    intro k hk
    obtain ⟨n, hc, hn⟩ := mem_inbox.mp hk
    exact hst (h.committed k n hc hn)

end Count

/-- **Exactly one inbox row.**  From a database without open transactions in which a delivery has
one notification if it is DELIVERED and none otherwise, this is so in every state that any number
of workers, recoveries, promotions, cancels and retries reach. -/
theorem inbox_exactly_once {procs : ι → Tx Unit} {c : Sessions ι Unit} (hs : s.Settled)
    (hcount : (inbox d s).length = if deliveryStatus d s = some .delivered then 1 else 0)
    (hp : ∀ i, OutboxSession d (procs i)) (h : Pool.Reach (postgres ι) (.start procs s) c) :
    (inbox d c.store).length = if deliveryStatus d c.store = some .delivered then 1 else 0 := by
  have hclean : ∀ i, ¬ Noted d i s := by
    rintro i ⟨k, n, hk, -⟩
    rw [hs] at hk
    cases hk
  have hI : (inboxing d).inv [] s := ⟨hs.ahead _, inboxMatch_of_settled hs hcount⟩
  obtain ⟨⟨-, hmatch⟩, -⟩ := h.meets inboxing_compatible hI (fun i => (hp i).meets (hclean i))
    (along_iff_forall_mem.mpr fun _ _ => trivial)
  exact hmatch.length_inbox

/-- A dashboard delivery of organization 1, due. -/
def dueDelivery : Delivery :=
  NewDelivery.row
    { organizationId := 1
      channel := .dashboard
      recipientUserId := some 7
      notificationId := none
      approvalRequestId := none
      subject := "Run the export"
      body := ""
      actionUrl := none
      payload := []
      maxAttempts := none
      scheduledFor := none
      idempotencyKey := none } 3 0

/-- A database that holds one delivery. -/
def deliveryDatabase (delivery : Delivery) : Database ι :=
  Db.init (fun t n => match t, n with
    | .delivery, 0 => some delivery
    | _, _ => none) 1 (.still 0) fun t n hn => by
      match n with
      | 0 => omega
      | n + 1 => cases t <;> rfl

def smallSettings : Settings where
  deliveryBatchSize := 10
  deliveryRecoverySeconds := 300
  deliveryOrgsPerSweep := 10
  deliveryRetryBaseSeconds := 30

/-- Two workers drain. -/
def twoWorkers : Fin 2 → Tx Unit := fun _ =>
  client (DeliveryWorker.drainPhase smallSettings fun _ _ => .flushed)

/-- The first worker claims the delivery, inserts the notification and is lost; the second worker
delivers. -/
theorem inbox_exactly_once_crash :
    ∃ c : Sessions (Fin 2) Unit,
      Pool.Reach (postgres (Fin 2)) (.start twoWorkers (deliveryDatabase dueDelivery)) c
        ∧ deliveryStatus 0 c.store = some .delivered ∧ (inbox 0 c.store).length = 1 := by
  have hrun : (((Pool.start twoWorkers (deliveryDatabase dueDelivery)).run (postgres (Fin 2))
      (List.replicate 6 (.step 0) ++ [.hangup 0] ++ List.replicate 9 (.step 1))).any fun c =>
        deliveryStatus 0 c.store = some .delivered) = true := by
    decide +kernel
  obtain ⟨c, hc, hP⟩ := Pool.exists_of_run hrun
  have hdelivered : deliveryStatus 0 c.store = some .delivered := of_decide_eq_true hP
  have hs : (deliveryDatabase dueDelivery : Database (Fin 2)).Settled := Db.settled_init _ _ _ _
  have hcount := inbox_exactly_once (d := 0) hs rfl (fun _ => .drain smallSettings _) hc
  rw [if_pos hdelivered] at hcount
  exact ⟨c, hc, hdelivered, hcount⟩

end Outbox
