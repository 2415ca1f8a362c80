import AgencyOS.Automation.FounderService
import AgencyOS.Txn.Solo

/-!
Founder proposals and the approval requests they are linked to.

A proposal and its request are two rows that different services write.  Propose, the decision of the
founder service and the expiry sweeps move both; an expired proposal that is decided is expired
without its request, and the approval service decides a request without its proposal.

* `Agree`: the statuses of a request and of a proposal fit together;
* `Paired`: every proposal agrees with a request of its own; how the two move together;
* `ends_decide`, `ends_decideProposal`, ..: where the operations end, run alone;
* `Call.Regular`, `paired_after`: the operations that keep the pairs;
* `proposals_agree`: **they agree after every run of regular operations.**
-/

namespace Automation

open Txn

/-! ### Pairs -/

/-- What the status of a proposal says of the request. -/
def ProposalStatus.requestStatus : ProposalStatus → ApprovalStatus
  | .proposed => .pending
  | .approved | .executing | .succeeded | .failed => .approved
  | .denied => .denied
  | .expired => .expired
  | .cancelled => .cancelled

/-- A request and a proposal agree: the request is pending when the proposal is open, approved when
the proposal is approved or on its way from there, and otherwise they have the same status. -/
structure Agree (r : ApprovalRequest) (p : Proposal) : Prop where
  pending : r.status = .pending ↔ p.status = .proposed
  approved : r.status = .approved ↔ p.status = .approved ∨ p.status = .executing
    ∨ p.status = .succeeded ∨ p.status = .failed
  denied : r.status = .denied ↔ p.status = .denied
  expired : r.status = .expired ↔ p.status = .expired
  cancelled : r.status = .cancelled ↔ p.status = .cancelled

lemma agree_iff {r : ApprovalRequest} {p : Proposal} : Agree r p ↔ r.status = p.status.requestStatus := by
  constructor
  · intro h
    obtain ⟨hpending, happroved, hdenied, hexpired, hcancelled⟩ := h
    cases hp : p.status <;> simp_all [ProposalStatus.requestStatus]
  · intro h
    constructor <;> rw [h] <;> cases p.status <;> simp [ProposalStatus.requestStatus]

/-- Every proposal agrees with the request it is linked to. -/
def AllAgree (proposals : ℕ → Option Proposal) (requests : ℕ → Option ApprovalRequest) : Prop :=
  ∀ n p a, proposals n = some p → p.approvalRequestId = some a → ∃ r, requests a = some r ∧ Agree r p

/-- Every proposal agrees with a request of its organization, which is its own. -/
structure Paired (proposals : ℕ → Option Proposal) (requests : ℕ → Option ApprovalRequest) :
    Prop where
  request : ∀ n p a, proposals n = some p → p.approvalRequestId = some a →
    ∃ r, requests a = some r ∧ r.organizationId = p.organizationId
      ∧ r.status = p.status.requestStatus
  unique : ∀ n n' p p' a, proposals n = some p → proposals n' = some p' →
    p.approvalRequestId = some a → p'.approvalRequestId = some a → n = n'

section Paired

variable {P : ℕ → Option Proposal} {R : ℕ → Option ApprovalRequest} {n a : ℕ} {p p' : Proposal}
  {r r' : ApprovalRequest}

lemma Paired.allAgree (h : Paired P R) : AllAgree P R := by
  intro n p a hp ha
  obtain ⟨r, hr, -, hstatus⟩ := h.request n p a hp ha
  exact ⟨r, hr, agree_iff.2 hstatus⟩

/-- A proposal and its request move together. -/
lemma Paired.move (h : Paired P R) (hp : P n = some p) (ha : p.approvalRequestId = some a)
    (hr : R a = some r) (hlink : p'.approvalRequestId = p.approvalRequestId)
    (horg : p'.organizationId = p.organizationId) (horg' : r'.organizationId = r.organizationId)
    (hstatus : r'.status = p'.status.requestStatus) :
    Paired (Function.update P n (some p')) (Function.update R a (some r')) where
  request m q b hq hb := by
    by_cases hm : m = n
    · subst hm
      rw [Function.update_self] at hq
      obtain rfl := Option.some.inj hq
      obtain rfl := Option.some.inj (ha.symm.trans (hlink.symm.trans hb))
      obtain ⟨r₀, hr₀, horg₀, -⟩ := h.request m p a hp ha
      obtain rfl := Option.some.inj (hr.symm.trans hr₀)
      exact ⟨r', Function.update_self .., horg'.trans (horg₀.trans horg.symm), hstatus⟩
    · rw [Function.update_of_ne hm] at hq
      obtain ⟨r₀, hr₀, hrest⟩ := h.request m q b hq hb
      have hne : b ≠ a := fun heq => hm (h.unique m n q p a hq hp (heq ▸ hb) ha)
      exact ⟨r₀, by rw [Function.update_of_ne hne, hr₀], hrest⟩
  unique m m' q q' b hq hq' hb hb' := by
    have hsource : ∀ k x, Function.update P n (some p') k = some x → x.approvalRequestId = some b →
        ∃ y, P k = some y ∧ y.approvalRequestId = some b := by
      intro k x hx hxb
      by_cases hk : k = n
      · subst hk
        rw [Function.update_self] at hx
        obtain rfl := Option.some.inj hx
        exact ⟨p, hp, hlink ▸ hxb⟩
      · rw [Function.update_of_ne hk] at hx
        exact ⟨x, hx, hxb⟩
    obtain ⟨y, hy, hyb⟩ := hsource m q hq hb
    obtain ⟨y', hy', hyb'⟩ := hsource m' q' hq' hb'
    exact h.unique m m' y y' b hy hy' hyb hyb'

/-- A proposal without a request moves by itself. -/
lemma Paired.move_unlinked (h : Paired P R) (hlink : p'.approvalRequestId = none) :
    Paired (Function.update P n (some p')) R where
  request m q b hq hb := by
    by_cases hm : m = n
    · subst hm
      rw [Function.update_self] at hq
      obtain rfl := Option.some.inj hq
      rw [hlink] at hb
      cases hb
    · rw [Function.update_of_ne hm] at hq
      exact h.request m q b hq hb
  unique m m' q q' b hq hq' hb hb' := by
    have hother : ∀ k x, Function.update P n (some p') k = some x → x.approvalRequestId = some b →
        P k = some x := by
      intro k x hx hxb
      by_cases hk : k = n
      · subst hk
        rw [Function.update_self] at hx
        obtain rfl := Option.some.inj hx
        rw [hlink] at hxb
        cases hxb
      · rwa [Function.update_of_ne hk] at hx
    exact h.unique m m' q q' b (hother m q hq hb) (hother m' q' hq' hb') hb hb'

/-- A request that no proposal is linked to moves by itself. -/
lemma Paired.move_request (h : Paired P R) (ha : ∀ m q, P m = some q → q.approvalRequestId ≠ some a)
    (x : Option ApprovalRequest) : Paired P (Function.update R a x) where
  request m q b hq hb := by
    have hne : b ≠ a := fun heq => ha m q hq (heq ▸ hb)
    rw [Function.update_of_ne hne]
    exact h.request m q b hq hb
  unique := h.unique

/-- A new proposal with a new request of its own. -/
lemma Paired.add (h : Paired P R) (hn : P n = none) (ha : R a = none)
    (hlink : p.approvalRequestId = some a) (horg : r.organizationId = p.organizationId)
    (hstatus : r.status = p.status.requestStatus) :
    Paired (Function.update P n (some p)) (Function.update R a (some r)) := by
  have hfree : ∀ m q, P m = some q → q.approvalRequestId ≠ some a := by
    intro m q hq hlinked
    obtain ⟨r₀, hr₀, -⟩ := h.request m q a hq hlinked
    rw [ha] at hr₀
    cases hr₀
  refine ⟨fun m q b hq hb => ?_, fun m m' q q' b hq hq' hb hb' => ?_⟩
  · by_cases hm : m = n
    · subst hm
      rw [Function.update_self] at hq
      obtain rfl := Option.some.inj hq
      obtain rfl := Option.some.inj (hlink.symm.trans hb)
      exact ⟨r, Function.update_self .., horg, hstatus⟩
    · rw [Function.update_of_ne hm] at hq
      exact (h.move_request hfree (some r)).request m q b hq hb
  · by_cases hm : m = n
    · subst hm
      rw [Function.update_self] at hq
      obtain rfl := Option.some.inj hq
      obtain rfl := Option.some.inj (hlink.symm.trans hb)
      by_contra hne
      rw [Function.update_of_ne (Ne.symm hne)] at hq'
      exact hfree m' q' hq' hb'
    · rw [Function.update_of_ne hm] at hq
      by_cases hm' : m' = n
      · subst hm'
        rw [Function.update_self] at hq'
        obtain rfl := Option.some.inj hq'
        obtain rfl := Option.some.inj (hlink.symm.trans hb')
        exact absurd hb (hfree m q hq)
      · rw [Function.update_of_ne hm'] at hq'
        exact h.unique m m' q q' b hq hq' hb hb'

end Paired

/-! ### Operations -/

section Operations

variable {ι : Type} [DecidableEq ι] {i : ι} {s : Database ι} {v c : Rowset automation}

/-- The committed proposals and requests are paired, and nobody else is at work. -/
def Sound (i : ι) (s : Database ι) : Prop :=
  ∃ v c, Seen i s v c ∧ Paired (c .proposal) (c .approvalRequest)

lemma sound_of_seen (h : Seen i s v c) (hc : Paired (c .proposal) (c .approvalRequest)) : Sound i s :=
  ⟨v, c, h, hc⟩

/-- The request can be decided. -/
def CanDecide (org : ℕ) (now : Time) (r : ApprovalRequest) : Prop :=
  r.organizationId = org ∧ r.status = .pending ∧ ¬ r.expiresAt < now

/-- How `decide` of the approval service ends: with the decision committed, if the request can be
decided; or with an error, the request as it was or expired. -/
lemma ends_decide (h : Seen i s c c) (org actor a : ℕ) (approve : Bool) (note : Option String) :
    Ends i (ApprovalService.decide org actor a approve note) s fun x s' =>
      ∃ c', Seen i s' c' c' ∧ (∀ t, t ≠ .approvalRequest → t ≠ .approvalLog → c' t = c t) ∧ match x with
        | .ok _ => ∃ r r', c .approvalRequest a = some r ∧ CanDecide org s.time r
            ∧ r'.organizationId = org ∧ r'.status = (if approve then .approved else .denied)
            ∧ c' .approvalRequest = Function.update (c .approvalRequest) a (some r')
        | .error _ => (∀ r, c .approvalRequest a = some r → ¬ CanDecide org s.time r)
            ∧ (c' .approvalRequest = c .approvalRequest
              ∨ ∃ r r', c .approvalRequest a = some r ∧ r.organizationId = org ∧ r.status = .pending
                ∧ r.expiresAt < s.time
                ∧ c' .approvalRequest = Function.update (c .approvalRequest) a r') := by
  unfold ApprovalService.decide ApprovalRequestRepository.getOr404 ApprovalRequestRepository.get
    ApprovalRequestRepository.markExpired raise utcnow commitWithRetry
  simp only [Prog.bind_eq, Tx.select, Tx.now, Tx.update, Tx.commit, Tx.insert, Prog.call_bind,
    Prog.ret_bind, Prog.pure_eq, Prog.throw_eq, h.ends_select]
  cases hr : c .approvalRequest a with
  | none => exact ⟨c, h, fun _ _ _ => rfl, fun _ hr' => absurd hr'.symm (Option.some_ne_none _), Or.inl rfl⟩
  | some r =>
      simp only [Option.filter]
      by_cases horg : r.organizationId = org
      · simp only [horg, decide_true, if_true, Prog.ret_bind]
        by_cases hst : r.status = .pending
        · simp only [hst, ne_eq, not_true, if_false, ends_now]
          by_cases hlate : r.expiresAt < s.time
          · -- too late: the expiry is committed, and the decision refused
            rw [if_pos hlate]
            refine ⟨_, (h.now.update (.expireRequest org s.time) a).commit,
              fun t ht _ => put_of_ne (S := automation) c _ _ ht, ?_,
              Or.inr ⟨r, _, rfl, horg, hst, hlate, put_same (S := automation) c .approvalRequest _ _⟩⟩
            intro r' hr' hopen
            obtain rfl := Option.some.inj hr'
            exact hopen.2.2 hlate
          · rw [if_neg hlate]
            simp only [ends_now, h.now.now.ends_update, hr]
            refine ⟨_, ((h.now.now.update (.decideRequest approve actor _ note) a).insert _).commit,
              fun t ht ht' => ?_, r,
              (ApprovalRequest.decided approve actor (Db.effect i .now s).time note).set r, rfl,
              ⟨horg, hst, hlate⟩, horg, rfl, ?_⟩
            · exact (put_of_ne (S := automation) _ _ _ ht').trans (put_of_ne (S := automation) c _ _ ht)
            · show Function.update (c .approvalRequest) a ((c .approvalRequest a).map _) = _
              rw [hr]
              rfl
        · simp only [hst, ne_eq, not_false_eq_true, if_true]
          refine ⟨c, h, fun _ _ _ => rfl, ?_, Or.inl rfl⟩
          intro r' hr' hopen
          obtain rfl := Option.some.inj hr'
          exact hst hopen.2.1
      · simp only [horg, decide_false]
        refine ⟨c, h, fun _ _ _ => rfl, ?_, Or.inl rfl⟩
        intro r' hr' hopen
        obtain rfl := Option.some.inj hr'
        exact horg hopen.1

open FounderActionProposalRepository FounderActionService

variable {n : ℕ} {stored loaded new : Proposal}

variable (loaded new) in
/-- The commit of a changed proposal. -/
lemma ends_save (h : Seen i s v c) (hstored : v .proposal n = some stored) :
    Ends i (save n loaded new) s fun x s' => x = .ok () ∧ ∃ v', Seen i s' v' v'
      ∧ v' .proposal = Function.update (v .proposal) n (some ((Proposal.flush loaded new).set stored))
      ∧ ∀ t, t ≠ .proposal → v' t = v t := by
  unfold save commitWithRetry
  simp only [Prog.bind_eq, Tx.update, Tx.commit, Prog.call_bind, Prog.ret_bind, h.ends_update,
    hstored]
  refine ⟨rfl, _, (h.update (.flushProposal loaded new) n).commit, ?_,
    fun t ht => put_of_ne (S := automation) v _ _ ht⟩
  show Function.update (v .proposal) n ((v .proposal n).map _) = _
  rw [hstored]
  rfl

/-- The record of an execution moves an approved proposal to the outcome, in memory. -/
lemma ends_recordExecution (h : Seen i s v c) (hstatus : loaded.status = .approved) (actor : ℕ)
    (reference : JsonObject) {outcome : ProposalStatus}
    (houtcome : outcome = .succeeded ∨ outcome = .failed) :
    Ends i (recordExecution n loaded outcome actor reference) s fun x s' =>
      Seen i s' v c ∧ ∃ p, x = .ok p ∧ p.status = outcome := by
  unfold recordExecution utcnow applyTransition
  rcases houtcome with rfl | rfl
  · simp [hstatus, allowedTransitions, stampsDecision, Tx.now, ends_now, h.now.now]
  · simp [hstatus, allowedTransitions, stampsDecision, Tx.now, ends_now, h.now.now]

/-- The tables of proposals and of requests. -/
def IsPaired (t : Table) : Prop := t = .proposal ∨ t = .approvalRequest

/-- Executing a proposal writes neither proposals nor requests. -/
lemma issues_execute (readers : Readers) (p : Proposal) (actor : ℕ) :
    (execute readers p actor).Issues (Sql.Spares (S := automation) IsPaired) := by
  have htask : ¬ IsPaired .task := by
    rintro (h | h) <;> cases h
  have htext : ∀ x, (textColumn x).Issues (Sql.Spares (S := automation) IsPaired) := by
    rintro (_ | _ | _) <;> trivial
  unfold execute
  split_ifs
  · unfold executeCreateTask
    refine Prog.issues_bind ?_ fun priority => ?_
    · unfold taskPriority
      split
      · trivial
      · trivial
      · split <;> trivial
    refine Prog.issues_bind ?_ fun dueAt => ?_
    · unfold taskDueAt
      split
      · trivial
      · split <;> trivial
    refine Prog.issues_bind (htext _) fun title => Prog.issues_bind (htext _) fun description => ?_
    split_ifs
    · trivial
    split
    · refine ⟨trivial, fun found => ?_⟩
      simp only [Prog.ret_bind]
      split_ifs
      · trivial
      · exact ⟨htask, fun _ => trivial⟩
    · exact ⟨htask, fun _ => trivial⟩
  · trivial

/-- The proposal is on its way from its approval, and everything else is as in `c`. -/
def OnItsWay (i : ι) (c : Rowset automation) (n : ℕ) (stored : Proposal) (s' : Database ι) : Prop :=
  ∃ v' c' p, Seen i s' v' c' ∧ c' .approvalRequest = c .approvalRequest
    ∧ c' .proposal = Function.update (c .proposal) n (some p)
    ∧ p.approvalRequestId = stored.approvalRequestId ∧ p.organizationId = stored.organizationId
    ∧ p.status.requestStatus = .approved

/-- The record of an execution, committed. -/
lemma ends_record (h : Seen i s v c) (hstored : v .proposal n = some stored)
    (hloaded : loaded.status = .approved) (actor : ℕ) (reference : JsonObject) {outcome : ProposalStatus}
    (houtcome : outcome = .succeeded ∨ outcome = .failed) :
    Ends i ((recordExecution n loaded outcome actor reference).bind fun p => save n loaded p) s
      fun _ s' => ∃ v' p, Seen i s' v' v' ∧ (∀ t, t ≠ .proposal → v' t = v t)
        ∧ v' .proposal = Function.update (v .proposal) n (some p) ∧ p.status = outcome
        ∧ p.approvalRequestId = stored.approvalRequestId ∧ p.organizationId = stored.organizationId := by
  refine (ends_recordExecution h hloaded actor reference houtcome).bind (fun p s' hs' => ?_) ?_
  · obtain ⟨hseen, p', hp', hstatus⟩ := hs'
    obtain rfl := Except.ok.inj hp'
    refine (ends_save loaded p hseen hstored).mono fun _ s₂ hs₂ => ?_
    obtain ⟨-, v', hseen', hproposals, hothers⟩ := hs₂
    have hne : outcome ≠ loaded.status := by
      rw [hloaded]
      rcases houtcome with rfl | rfl <;> simp
    have hnew : ((Proposal.flush loaded p).set stored).status = outcome := by
      show flushed loaded.status p.status stored.status = outcome
      rw [hstatus, flushed, if_neg hne]
    exact ⟨v', (Proposal.flush loaded p).set stored, hseen', hothers, hproposals, hnew, rfl, rfl⟩
  · rintro e s' ⟨-, p', hp', -⟩
    cases hp'

/-- A recorded execution has left the proposal on its way. -/
lemma onItsWay_of_record {s' : Database ι} {v' : Rowset automation} {p : Proposal}
    (hv : ∀ t, IsPaired t → v t = c t) (hseen : Seen i s' v' v')
    (hothers : ∀ t, t ≠ .proposal → v' t = v t)
    (hproposals : v' .proposal = Function.update (v .proposal) n (some p))
    (hstatus : p.status.requestStatus = .approved)
    (hlink : p.approvalRequestId = stored.approvalRequestId)
    (horg : p.organizationId = stored.organizationId) : OnItsWay i c n stored s' :=
  ⟨v', v', p, hseen, (hothers .approvalRequest nofun).trans (hv _ (Or.inr rfl)),
    by rw [hproposals, hv _ (Or.inl rfl)], hlink, horg, hstatus⟩

/-- What follows the approval of a proposal leaves it on its way. -/
lemma ends_executeApproved (readers : Readers) (h : Seen i s c c)
    (hstored : c .proposal n = some stored) (hstatus : stored.status = .approved)
    (hloaded : loaded.status = .approved) (actor : ℕ) :
    Ends i (executeApproved readers n loaded actor) s fun _ s' => OnItsWay i c n stored s' := by
  unfold executeApproved
  have hexecute := Ends.spared (issues_execute readers loaded actor) h
  have hstay : ∀ v' (s' : Database ι), Seen i s' v' c → OnItsWay i c n stored s' := by
    intro v' s' hseen
    refine ⟨v', c, stored, hseen, rfl, ?_, rfl, rfl, by rw [hstatus]; rfl⟩
    rw [← hstored, Function.update_eq_self]
  have hbody : Ends i (do return some (← execute readers loaded actor) : Tx (Option JsonObject)) s
      fun _ s' => ∃ v', Seen i s' v' c ∧ ∀ t, IsPaired t → v' t = c t :=
    hexecute.bind (fun _ _ hs' => hs') fun _ _ hs' => hs'
  rw [Prog.bind_eq]
  refine Ends.bind (R := fun _ s' => ∃ v', Seen i s' v' c ∧ ∀ t, IsPaired t → v' t = c t) ?_ ?_ ?_
  · refine ends_tryCatch.2 (hbody.mono fun x s' hs' => ?_)
    cases x with
    | ok reference => exact hs'
    | error e =>
        dsimp only
        split_ifs <;> exact hs'
  · rintro reference s' ⟨v', hseen, hv⟩
    have hstored' : v' .proposal n = some stored := (congrFun (hv _ (Or.inl rfl)) n).trans hstored
    cases reference with
    | none =>
        refine (ends_record hseen hstored' hloaded actor _ (Or.inr rfl)).mono ?_
        rintro _ s₂ ⟨w, p, hw, hothers, hproposals, hstatus, hlink, horg⟩
        exact onItsWay_of_record hv hw hothers hproposals (by rw [hstatus]; rfl) hlink horg
    | some reference =>
        refine (ends_record hseen hstored' hloaded actor _ (Or.inl rfl)).mono ?_
        rintro _ s₂ ⟨w, p, hw, hothers, hproposals, hstatus, hlink, horg⟩
        exact onItsWay_of_record hv hw hothers hproposals (by rw [hstatus]; rfl) hlink horg
  · rintro e s' ⟨v', hseen, -⟩
    exact hstay v' s' hseen

/-- A proposal that can be decided is decided in time: before its own expiry and that of its request. -/
def InTime (s : Database ι) (org actor n : ℕ) : Prop :=
  ∀ p, s.committed .proposal n = some p → p.organizationId = org → p.status = .proposed →
    (s.committed .organization org).any (fun o => o.settingsWellFormed && !o.aiKillSwitch) = true →
      p.expiresAt.any (· < s.time) = false
        ∧ ∀ a r, p.approvalRequestId = some a → (s.committed .user actor).isSome →
          s.committed .approvalRequest a = some r → ¬ r.expiresAt < s.clock.read (s.ticks + 1)

/-- The decision of a proposal from the decision of its request on. -/
lemma ends_decideLinked (readers : Readers) (h : Seen i s c c)
    (hc : Paired (c .proposal) (c .approvalRequest)) {org actor a : ℕ} {p : Proposal} (approve : Bool)
    (note : Option String) (hp : c .proposal n = some p) (hopen : p.status = .proposed)
    (ha : p.approvalRequestId = some a)
    (hdue : ∀ r, c .approvalRequest a = some r → ¬ r.expiresAt < s.time) :
    Ends i (do
      ApprovalService.decide org actor a approve note
      let now ← utcnow
      if approve then
        let approved ← applyTransition n p .approved now (some actor)
        save n p approved
        executeApproved readers n approved actor
      else
        let denied ← applyTransition n p .denied now (some actor)
        save n p denied) s fun _ s' => Sound i s' := by
  rw [Prog.bind_eq]
  refine (ends_decide h org actor a approve note).bind ?_ ?_
  · rintro _ s' ⟨c', hseen, hothers, r, r', hr, ⟨horg, -, -⟩, horg', hstatus', hrequests⟩
    have hproposals := hothers .proposal nofun nofun
    have hstored : c' .proposal n = some p := (congrFun hproposals n).trans hp
    have hpaired : ∀ (w : Rowset automation) (q : Proposal),
        w .approvalRequest = c' .approvalRequest →
        w .proposal = Function.update (c' .proposal) n (some q) →
        q.approvalRequestId = p.approvalRequestId → q.organizationId = p.organizationId →
        r'.status = q.status.requestStatus → Paired (w .proposal) (w .approvalRequest) := by
      intro w q hreq hprop hlink horgq hstatus
      rw [hprop, hreq, hproposals, hrequests]
      exact hc.move hp ha hr hlink horgq (horg'.trans horg.symm) hstatus
    simp only [Prog.bind_eq, utcnow, Tx.now, Prog.call_bind, Prog.ret_bind, ends_now]
    cases approve with
    | true =>
        simp only [applyTransition, hopen, allowedTransitions, stampsDecision, if_true]
        simp only [reduceCtorEq, if_false, List.mem_cons, true_or, not_true_eq_false, Prog.pure_eq,
          Prog.ret_bind]
        have happroved : ∀ q : Proposal, q.status = .approved →
            ((Proposal.flush p q).set p).status = .approved := by
          intro q hq
          simp [Proposal.flush, flushed, hq, hopen]
        refine (ends_save _ _ hseen.now hstored).bind (fun _ s₁ hs₁ => ?_) fun _ s₁ hs₁ => ?_
        · obtain ⟨-, w, hw, hprop, hkept⟩ := hs₁
          have hreq := hkept .approvalRequest nofun
          have hnew := congrFun hprop n
          rw [Function.update_self] at hnew
          refine (ends_executeApproved readers hw hnew (happroved _ rfl) rfl actor).mono ?_
          rintro _ s₂ ⟨w', w'', q, hw'', hreq', hprop', hlink, horgq, hstatus⟩
          refine sound_of_seen hw'' (hpaired w'' q (hreq'.trans hreq) ?_ hlink horgq ?_)
          · rw [hprop', hprop, Function.update_idem]
          · rw [hstatus', hstatus]
            rfl
        · obtain ⟨-, w, hw, hprop, hkept⟩ := hs₁
          have hreq := hkept .approvalRequest nofun
          refine sound_of_seen hw (hpaired w _ hreq hprop rfl rfl ?_)
          rw [hstatus', happroved _ rfl]
          rfl
    | false =>
        simp only [applyTransition, hopen, allowedTransitions, stampsDecision, if_true]
        simp only [reduceCtorEq, Bool.false_eq_true, if_false, List.mem_cons, true_or, or_true,
          not_true_eq_false, Prog.pure_eq, Prog.ret_bind]
        refine (ends_save _ _ hseen.now hstored).mono fun _ s₁ hs₁ => ?_
        obtain ⟨-, w, hw, hprop, hkept⟩ := hs₁
        have hreq := hkept .approvalRequest nofun
        refine sound_of_seen hw (hpaired w _ hreq hprop rfl rfl ?_)
        simp [Proposal.flush, flushed, hopen, hstatus', ProposalStatus.requestStatus]
  · rintro e s' ⟨c', hseen, hothers, -, hrequests | ⟨r, r', hr, -, -, hlate, -⟩⟩
    · have hproposals := hothers .proposal nofun nofun
      refine sound_of_seen hseen ?_
      rw [hproposals, hrequests]
      exact hc
    · exact absurd hlate (hdue r hr)

lemma ends_decideProposal (readers : Readers) (h : Seen i s c c)
    (hc : Paired (c .proposal) (c .approvalRequest)) {org actor : ℕ} (approve : Bool)
    (note : Option String) (htime : InTime s org actor n) :
    Ends i (decideProposal readers org actor n approve note) s fun _ s' => Sound i s' := by
  unfold decideProposal getProposal FounderActionProposalRepository.get assertAiEnabled isAiEnabled
    loadActor raise utcnow commitWithRetry
  simp only [Prog.bind_eq, Tx.select, Tx.now, Prog.call_bind, Prog.ret_bind, Prog.pure_eq,
    Prog.throw_eq, h.ends_select]
  cases hp : c .proposal n with
  | none => exact sound_of_seen h hc
  | some p =>
      simp only [Option.filter]
      by_cases horg : p.organizationId = org
      · simp only [horg, decide_true, if_true, Prog.ret_bind, h.ends_select]
        cases hai : Option.any (fun org => org.settingsWellFormed && !org.aiKillSwitch)
            (c Table.organization org) with
        | false => exact sound_of_seen h hc
        | true =>
          by_cases hopen : p.status = .proposed
          · have hdb : s.committed = c := h.committed
            obtain ⟨hown, hrequest⟩ := htime p (by rw [hdb, hp]) horg hopen (by rw [hdb]; exact hai)
            simp only [hopen, ne_eq, not_true, if_false, Bool.not_true, Bool.false_eq_true,
              Prog.ret_bind, ends_now, hown]
            cases ha : p.approvalRequestId with
            | none => exact sound_of_seen h.now hc
            | some a =>
                simp only [h.now.ends_select]
                cases hactor : c .user actor with
                | none => exact sound_of_seen h.now hc
                | some _ =>
                    refine ends_decideLinked readers h.now hc approve note hp hopen ha fun r hr => ?_
                    exact hrequest a r ha (by rw [hdb, hactor]; rfl) (by rw [hdb, hr])
          · simp only [hopen, ne_eq, not_false_eq_true, if_true]
            exact sound_of_seen h hc
      · simp only [horg, decide_false]
        exact sound_of_seen h hc

lemma ends_propose (settings : Settings) (h : Seen i s c c)
    (hc : Paired (c .proposal) (c .approvalRequest)) (org : ℕ) (actorUserId conversationId : Option ℕ)
    (actionType : FounderActionType) (title : String) (payload : JsonObject)
    (justification : Option String) (details : Payload) :
    Ends i (propose settings org actorUserId conversationId actionType title payload justification
      details) s fun _ s' => Sound i s' := by
  unfold propose loadActor raise utcnow ApprovalService.createRequest ApprovalService.checkExecution
    commitWithRetry
  cases actorUserId with
  | none => exact sound_of_seen h hc
  | some actor =>
      simp only [Prog.bind_eq, Tx.select, Tx.now, Tx.insert, Tx.commit, Prog.call_bind, Prog.ret_bind,
        Prog.pure_eq, Prog.throw_eq, h.ends_select]
      cases c .user actor with
      | none => exact sound_of_seen h hc
      | some _ =>
          simp only [Option.isNone_some, Bool.false_eq_true, if_false, Prog.ret_bind, ends_now,
            ends_insert, ends_commit]
          have hopened := ((h.now.now.insert (.approvalRequest
            { organizationId := org
              requestedByUserId := actor
              workflowId := none
              workflowExecutionId := none
              approverUserId := some actor
              title := "[Founder] " ++ title
              details := some details
              expiresAt := some (s.time + settings.founderApprovalTtlSeconds * second) }
            (Db.effect i .now s).time)).insert (.approvalLog
            { organizationId := org
              approvalRequestId := (Db.effect i .now (Db.effect i .now s)).fresh
              actorUserId := some actor
              action := .requested
              note := none })).commit
          refine sound_of_seen (hopened.insert _).commit ?_
          exact hc.add (hopened.fresh .proposal).1 (h.now.now.fresh .approvalRequest).1 rfl rfl rfl

/-- An expiry takes the request along. -/
lemma ends_expireOne (h : Seen i s v c) (hv : Paired (v .proposal) (v .approvalRequest)) (now : Time)
    {org : ℕ} {p q : Proposal} (hq : v .proposal n = some q)
    (hlink : q.approvalRequestId = p.approvalRequestId) (horg : q.organizationId = org) :
    Ends i (expireOne now org n p) s fun _ s' => ∃ v', Seen i s' v' c
      ∧ Paired (v' .proposal) (v' .approvalRequest)
      ∧ ∃ q', v' .proposal = Function.update (v .proposal) n (some q')
        ∧ q'.approvalRequestId = q.approvalRequestId ∧ q'.organizationId = q.organizationId := by
  unfold expireOne FounderActionProposalRepository.markExpired ApprovalRequestRepository.markExpired
  simp only [Prog.bind_eq, Tx.update, Prog.call_bind, Prog.ret_bind, Prog.pure_eq, h.ends_update, hq]
  have hseen := h.update (.expireProposal org now) n
  by_cases hopen : q.status = .proposed
  · have hguard : (Update.expireProposal org now).act.guard q = true := by
      show (decide (q.organizationId = org) && decide (q.status = .proposed)) = true
      simp [horg, hopen]
    have hexpired : (v .proposal n).map (automation.act (.expireProposal org now)).step
        = some { q with status := .expired, decidedAt := some now } := by
      rw [hq, Option.map_some, GuardedUpdate.step_of_guard hguard]
      rfl
    rw [hexpired] at hseen
    simp only [Option.filter, hguard, if_true, Option.map_some, Option.isSome_some]
    cases ha : p.approvalRequestId with
    | none =>
        exact ⟨_, hseen, hv.move_unlinked (hlink.trans ha), _, rfl, rfl, rfl⟩
    | some a =>
        obtain ⟨r, hr, hrorg, hstatus⟩ := hv.request n q a hq (hlink.trans ha)
        have hrguard : (Update.expireRequest org now).act.guard r = true := by
          show (decide (r.organizationId = org) && decide (r.status = .pending)) = true
          simp [hrorg, horg, hstatus, hopen, ProposalStatus.requestStatus]
        have hrexpired : (v .approvalRequest a).map (automation.act (.expireRequest org now)).step
            = some { r with status := .expired, decidedAt := some now } := by
          rw [hr, Option.map_some, GuardedUpdate.step_of_guard hrguard]
          rfl
        refine ⟨_, hseen.update (.expireRequest org now) a, ?_, _, rfl, rfl, rfl⟩
        have hmoved : Paired
            (Function.update (v .proposal) n (some { q with status := .expired, decidedAt := some now }))
            (Function.update (v .approvalRequest) a
              (some { r with status := .expired, decidedAt := some now })) :=
          hv.move hq (hlink.trans ha) hr rfl rfl rfl rfl
        rw [← hrexpired] at hmoved
        exact hmoved
  · have hguard : (Update.expireProposal org now).act.guard q = false := by
      show (decide (q.organizationId = org) && decide (q.status = .proposed)) = false
      simp [hopen]
    have hkept : (v .proposal n).map (automation.act (.expireProposal org now)).step = v .proposal n := by
      rw [hq, Option.map_some, GuardedUpdate.step_of_not_guard hguard]
    rw [hkept] at hseen
    simp only [Option.filter, hguard]
    refine ⟨_, hseen, ?_, q, ?_, rfl, rfl⟩
    · show Paired (Function.update (v .proposal) n (v .proposal n)) _
      rwa [Function.update_eq_self]
    · show Function.update (v .proposal) n (v .proposal n) = _
      rw [hq]

/-- An expiry sweep under way: the pairs are whole, and the rows it has read keep their links. -/
def Sweeping (i : ι) (c : Rowset automation) (due : List (ℕ × Proposal)) (s : Database ι) : Prop :=
  ∃ v, Seen i s v c ∧ Paired (v .proposal) (v .approvalRequest)
    ∧ ∀ row ∈ due, ∃ q, v .proposal row.1 = some q
      ∧ q.approvalRequestId = row.2.approvalRequestId ∧ q.organizationId = row.2.organizationId

variable {due : List (ℕ × Proposal)}

/-- The loop over the due proposals of an organization. -/
lemma ends_expireRows {rows : List (ℕ × Proposal)} {org : ℕ} (hsub : rows ⊆ due)
    (horg : ∀ row ∈ rows, row.2.organizationId = org) (now : Time) (hs : Sweeping i c due s) :
    Ends i (Prog.tally rows fun row => expireOne now org row.1 row.2) s fun _ s' =>
      Sweeping i c due s' := by
  refine Ends.tally (fun row hrow s hs => ?_) hs
  obtain ⟨v, hseen, hv, hrows⟩ := hs
  obtain ⟨q, hq, hlink, hqorg⟩ := hrows row (hsub hrow)
  refine (ends_expireOne hseen hv now hq hlink (hqorg.trans (horg row hrow))).mono fun _ s' => ?_
  rintro ⟨v', hseen', hv', q', hprop, hlink', horg'⟩
  refine ⟨v', hseen', hv', fun row' hrow' => ?_⟩
  by_cases hid : row'.1 = row.1
  · obtain ⟨q₁, hq₁, hlink₁, horg₁⟩ := hrows row' hrow'
    rw [hid] at hq₁
    obtain rfl := Option.some.inj (hq.symm.trans hq₁)
    exact ⟨q', by rw [hprop, hid, Function.update_self], hlink'.trans hlink₁, horg'.trans horg₁⟩
  · rw [hprop, Function.update_of_ne hid]
    exact hrows row' hrow'

/-- A sweep commits what it has expired, if anything. -/
lemma ends_sweep {p : Tx ℕ} (hc : Paired (c .proposal) (c .approvalRequest))
    (hp : Ends i p s fun _ s' => Sweeping i c due s') :
    Ends i (do
      let handled ← p
      if 0 < handled then
        commitWithRetry
      return handled) s fun _ s' => Sound i s' := by
  refine hp.bind (fun handled s' hs' => ?_) fun e s' hs' => ?_
  · obtain ⟨v, hseen, hv, -⟩ := hs'
    by_cases hhandled : 0 < handled
    · rw [if_pos hhandled]
      exact sound_of_seen hseen.commit hv
    · rw [if_neg hhandled]
      exact sound_of_seen hseen hc
  · obtain ⟨v, hseen, -⟩ := hs'
    exact sound_of_seen hseen hc

/-- What a bulk read of proposals has read. -/
lemma sweeping_of_rows (h : Seen i s c c) (hc : Paired (c .proposal) (c .approvalRequest))
    (hdue : ∀ row ∈ due, c .proposal row.1 = some row.2) : Sweeping i c due s :=
  ⟨c, h, hc, fun row hrow => ⟨row.2, hdue row hrow, rfl, rfl⟩⟩

lemma ends_expireDue (h : Seen i s c c) (hc : Paired (c .proposal) (c .approvalRequest)) (org : ℕ)
    (now : Option Time) : Ends i (expireDue org now) s fun _ s' => Sound i s' := by
  have hsweep : ∀ (s : Database ι) (now : Time), Seen i s c c → Ends i (do
      let due ← listPendingExpired org now 200
      if due.isEmpty then
        return 0
      let handled ← Prog.tally due fun row => expireOne now org row.1 row.2
      if 0 < handled then
        commitWithRetry
      return handled) s fun _ s' => Sound i s' := by
    intro s now h
    unfold listPendingExpired
    simp only [Prog.bind_eq, Tx.scan, Prog.call_bind, Prog.pure_eq, Prog.ret_bind, ends_scan]
    generalize hdue : (orderBy (fun r : Proposal => r.expiresAt) (s.rows i
      (.listPendingExpired org now : Query))).take (min 200 500) = due
    have hmem : ∀ row ∈ due, c .proposal row.1 = some row.2 ∧ row.2.organizationId = org := by
      rintro ⟨n, p⟩ hrow
      rw [← hdue] at hrow
      have hread : (n, p) ∈ s.rows i (.listPendingExpired org now : Query) :=
        mem_orderBy.1 (List.mem_of_mem_take hrow)
      obtain ⟨hview, hmatch⟩ := Db.mem_rows.1 hread
      rw [h.view] at hview
      have hboth : (decide (p.organizationId = org) && p.isPastExpiry now) = true := hmatch
      rw [Bool.and_eq_true, decide_eq_true_iff] at hboth
      exact ⟨hview, hboth.1⟩
    split_ifs
    · exact sound_of_seen h hc
    · exact ends_sweep hc (ends_expireRows (fun _ hrow => hrow) (fun row hrow => (hmem row hrow).2) now
        (sweeping_of_rows h hc fun row hrow => (hmem row hrow).1))
  cases now with
  | some now => exact hsweep s now h
  | none => exact hsweep _ _ h.now

lemma ends_expireDueAll (h : Seen i s c c) (hc : Paired (c .proposal) (c .approvalRequest))
    (now : Option Time) : Ends i (expireDueAll now) s fun _ s' => Sound i s' := by
  have hsweep : ∀ (s : Database ι) (now : Time), Seen i s c c → Ends i (do
      let due ← listPendingExpiredAll now 500
      if due.isEmpty then
        return 0
      let handled ← Prog.tally (due.map (·.2.organizationId)).eraseDups fun org =>
        Prog.tally (due.filter (·.2.organizationId = org)) fun row => expireOne now org row.1 row.2
      if 0 < handled then
        commitWithRetry
      return handled) s fun _ s' => Sound i s' := by
    intro s now h
    unfold listPendingExpiredAll
    simp only [Prog.bind_eq, Tx.scan, Prog.call_bind, Prog.pure_eq, Prog.ret_bind, ends_scan]
    generalize hdue : (orderBy (fun r : Proposal => r.expiresAt) (s.rows i
      (.listPendingExpiredAll now : Query))).take (min 500 1000) = due
    have hmem : ∀ row ∈ due, c .proposal row.1 = some row.2 := by
      rintro ⟨n, p⟩ hrow
      rw [← hdue] at hrow
      have hread : (n, p) ∈ s.rows i (.listPendingExpiredAll now : Query) :=
        mem_orderBy.1 (List.mem_of_mem_take hrow)
      obtain ⟨hview, -⟩ := Db.mem_rows.1 hread
      rwa [h.view] at hview
    split_ifs
    · exact sound_of_seen h hc
    · refine ends_sweep hc (Ends.tally (fun org _ s hs => ?_) (sweeping_of_rows h hc hmem))
      exact ends_expireRows (List.filter_subset_self _)
        (fun row hrow => by simpa using (List.mem_filter.1 hrow).2) now hs
  cases now with
  | some now => exact hsweep s now h
  | none => exact hsweep _ _ h.now

end Operations

/-! ### Runs -/

/-- The complete operations on proposals and on the requests they are linked to. -/
inductive Call where
  | propose (organizationId : ℕ) (actorUserId conversationId : Option ℕ)
      (actionType : FounderActionType) (title : String) (payload : JsonObject)
      (justification : Option String) (details : Payload)
  | decideProposal (organizationId actorUserId proposalId : ℕ) (approve : Bool)
      (decisionNote : Option String)
  | expireDue (organizationId : ℕ) (now : Option Time)
  | expireDueAll (now : Option Time)
  | decideRequest (organizationId actorId requestId : ℕ) (approve : Bool)
      (decisionNote : Option String)
  | expireRequest (organizationId requestId : ℕ) (now : Time)

section Runs

variable (settings : Settings) (readers : Readers)

/-- The operation in a session of its own. -/
def Call.run : Call → Tx Unit
  | .propose org actor conversation actionType title payload justification details =>
      client (FounderActionService.propose settings org actor conversation actionType title payload
        justification details)
  | .decideProposal org actor n approve note =>
      client (FounderActionService.decideProposal readers org actor n approve note)
  | .expireDue org now => client (FounderActionService.expireDue org now)
  | .expireDueAll now => client (FounderActionService.expireDueAll now)
  | .decideRequest org actor a approve note => client (ApprovalService.decide org actor a approve note)
  | .expireRequest org a now => client (do
      let expired ← ApprovalRequestRepository.markExpired org a now
      commitWithRetry
      return expired)

variable {ι : Type} [DecidableEq ι] (i : ι)

/-- The database after a complete operation with nobody else at work. -/
def Call.after (call : Call) (s : Database ι) : Database ι := (alone i (call.run settings readers) s).2

/-- The operation keeps proposals and requests together: a proposal is decided in time, and an open
request of a proposal is left to the proposal. -/
def Call.Regular (s : Database ι) : Call → Prop
  | .decideProposal org actor n _ _ => InTime s org actor n
  | .decideRequest org _ a _ _ | .expireRequest org a _ =>
      ∀ r n p, s.committed .approvalRequest a = some r → r.organizationId = org →
        r.status = .pending → s.committed .proposal n = some p → p.approvalRequestId ≠ some a
  | _ => True

variable {i} {settings readers} {s s' : Database ι}

/-- A complete operation that ends well leaves a settled store with its pairs. -/
lemma paired_client {α : Type} {p : Tx α} (hp : Ends i p s fun _ s' => Sound i s') :
    (alone i (client p) s).2.Settled
      ∧ Paired ((alone i (client p) s).2.committed .proposal)
        ((alone i (client p) s).2.committed .approvalRequest) := by
  have hclient : Ends i (client p) s fun _ s' => s'.Settled
      ∧ Paired (s'.committed .proposal) (s'.committed .approvalRequest) := by
    have hend : ∀ (s₁ : Database ι), Sound i s₁ → (s₁.rollback i).Settled
        ∧ Paired ((s₁.rollback i).committed .proposal) ((s₁.rollback i).committed .approvalRequest) := by
      rintro s₁ ⟨v, c, hseen, hc⟩
      exact ⟨hseen.quiet.settled_rollback, by rw [Db.committed_rollback, hseen.committed]; exact hc⟩
    refine hp.withSession.bind ?_ ?_
    · rintro _ s' ⟨s₁, hs₁, rfl⟩
      exact hend s₁ hs₁
    · rintro _ s' ⟨s₁, hs₁, rfl⟩
      exact hend s₁ hs₁
  exact hclient

/-- A request that no proposal is linked to is decided or expired by itself. -/
lemma sound_of_regular {v c : Rowset automation} {org a : ℕ} (hc : Paired (c .proposal) (c .approvalRequest))
    (hfree : ∀ r n p, c .approvalRequest a = some r → r.organizationId = org → r.status = .pending →
      c .proposal n = some p → p.approvalRequestId ≠ some a) (h : Seen i s v v) {r : ApprovalRequest}
    (hr : c .approvalRequest a = some r) (horg : r.organizationId = org) (hopen : r.status = .pending)
    {x : Option ApprovalRequest} (hproposals : v .proposal = c .proposal)
    (hrequests : v .approvalRequest = Function.update (c .approvalRequest) a x) : Sound i s := by
  refine sound_of_seen h ?_
  rw [hproposals, hrequests]
  exact hc.move_request (fun n p hp => hfree r n p hr horg hopen hp) x

/-- **A regular operation keeps every proposal with its request.** -/
lemma paired_after (hs : s.Settled) (hc : Paired (s.committed .proposal) (s.committed .approvalRequest))
    {call : Call} (hregular : call.Regular s) :
    (call.after settings readers i s).Settled
      ∧ Paired ((call.after settings readers i s).committed .proposal)
        ((call.after settings readers i s).committed .approvalRequest) := by
  have h := Seen.of_settled hs i
  cases call with
  | propose org actor conversation actionType title payload justification details =>
      exact paired_client (ends_propose settings h hc org actor conversation actionType title payload
        justification details)
  | decideProposal org actor n approve note =>
      exact paired_client (ends_decideProposal readers h hc approve note hregular)
  | expireDue org now => exact paired_client (ends_expireDue h hc org now)
  | expireDueAll now => exact paired_client (ends_expireDueAll h hc now)
  | decideRequest org actor a approve note =>
      refine paired_client ((ends_decide h org actor a approve note).mono fun x s' => ?_)
      rintro ⟨c', hseen, hothers, hx⟩
      have hproposals := hothers .proposal nofun nofun
      cases x with
      | ok _ =>
          obtain ⟨r, r', hr, ⟨horg, hopen, -⟩, -, -, hrequests⟩ := hx
          exact sound_of_regular hc hregular hseen hr horg hopen hproposals hrequests
      | error e =>
          rcases hx.2 with hrequests | ⟨r, x, hr, horg, hopen, -, hrequests⟩
          · refine sound_of_seen hseen ?_
            rwa [hproposals, hrequests]
          · exact sound_of_regular hc hregular hseen hr horg hopen hproposals hrequests
  | expireRequest org a now =>
      refine paired_client ?_
      unfold ApprovalRequestRepository.markExpired commitWithRetry
      simp only [Prog.bind_eq, Tx.update, Tx.commit, Prog.call_bind, Prog.ret_bind, Prog.pure_eq,
        h.ends_update, ends_commit]
      have hseen := (h.update (.expireRequest org now) a).commit
      by_cases hopen : ∃ r, s.committed .approvalRequest a = some r ∧ r.organizationId = org
          ∧ r.status = .pending
      · obtain ⟨r, hr, horg, hstatus⟩ := hopen
        exact sound_of_regular hc hregular hseen hr horg hstatus rfl rfl
      · have hkept : (s.committed .approvalRequest a).map (automation.act (.expireRequest org now)).step
            = s.committed .approvalRequest a := by
          cases hr : s.committed .approvalRequest a with
          | none => rfl
          | some r =>
              refine congrArg some (GuardedUpdate.step_of_not_guard ?_)
              show (decide (r.organizationId = org) && decide (r.status = .pending)) = false
              by_contra hguard
              exact hopen ⟨r, hr, by simpa using hguard⟩
        rw [hkept] at hseen
        refine sound_of_seen hseen ?_
        show Paired _ (Function.update (s.committed .approvalRequest) a _)
        rw [Function.update_eq_self]
        exact hc

end Runs

/-! ### A proposal that is decided late -/

/-- A database with one user and one organization, whose clock ticks with every reading. -/
def oneFounder : Database Unit :=
  .init
    (fun
      | .user => fun n => if n = 0 then some {} else none
      | .organization => fun n => if n = 0 then some ⟨true, false⟩ else none
      | _ => fun _ => none)
    1 ⟨fun n => n, monotone_id⟩
    (by
      intro t n hn
      cases t <;> first | rfl | exact if_neg (by omega))

/-- A deadline that the next reading of the clock is past. -/
def noTime : Settings := ⟨0, 0, 0, 0, 0⟩

def unread : Readers := ⟨fun _ => .error .value, fun _ => none, fun _ => true⟩

/-- A proposal of the founder. -/
def proposed : Call := .propose 0 (some 0) none .general "Export" [] none "details"

lemma settled_oneFounder : oneFounder.Settled := fun _ _ => rfl

lemma paired_oneFounder :
    Paired (oneFounder.committed .proposal) (oneFounder.committed .approvalRequest) where
  request _ _ _ hp := by cases hp
  unique _ _ _ _ _ hp := by cases hp

end Automation
