import AgencyOS.Automation.GateSweep
import AgencyOS.Automation.Worker
import AgencyOS.Txn.Histories

/-!
Whether one row can abort a sweep.

A phase goes over the rows that it has listed, in one session.  When a service loses a race for a row
it rolls that session back and raises, and the handler of the phase then touches a row that the
rollback has expired; the gate sweep raises again what the operation of a gate has raised.

* `missed`, `LosesRace`: the `UPDATE`s after which a service gives up, matching nothing;
* `Operates`, `Survives`: what the operations of a service raise after such an answer and without
  one, and what the phases of the worker make of it;
* `hinders`, `Hindered`, `SweepsOn`: the same for the gates of a gate sweep;
* `Standing`, `pairwise_persists`: an execution that a session has found is found again;
* `Phase.completes_iff`: **a phase returns, having processed every row of every batch, exactly when
  no row hinders it**;
* `race_aborts_drain`: a cancelled execution keeps the next one from being processed.
-/

namespace Automation

open Txn WorkflowExecutionRepository WorkflowExecutionService ExecutionWorker

/-! ### Lost races -/

/-- The transitions tried last: when one of them matches nothing, its service rolls back and
raises. -/
def Transition.lastChance : Transition → Bool
  | markStarted .. | markFailedIfQueued .. | markCancelledAfterRun .. => true
  | _ => false

/-- A last transition was answered with no row. -/
def missed : Answered (sql automation) → Prop
  | ⟨.update (.transition t) _, answer⟩ => t.lastChance = true ∧ answer = none
  | _ => False

/-- An `AppError` raised with the session as it is. -/
def Refused (e : Exn) : Prop := ∃ e', e = .app e' false

/-- An `AppError` raised after a rollback. -/
def RolledBack (e : Exn) : Prop := ∃ e', e = .app e' true

/-- What a service does in the session of a phase: it rolls back and raises after a lost race, and
otherwise leaves the session as it is. -/
abbrev Operates {α : Type} (p : Tx α) : Prop :=
  ∀ h, p.Raises (fun _ => True) missed Refused RolledBack h

/-- What a part of a phase does: it dies of a lost race, and raises nothing otherwise. -/
abbrev Survives {α : Type} (p : Tx α) : Prop :=
  ∀ h, p.Raises (fun _ => True) missed (fun _ => False) (fun e => e = .missingGreenlet) h

section Operates

variable {α β : Type} {t : Transition} {loaded : Option Execution} {organizationId executionId : ℕ}

lemma operates_ret (a : α) : Operates (.ret a : Tx α) := fun _ => trivial

lemma operates_raise (code message : String) (statusCode : ℕ) :
    Operates (raise code message statusCode : Tx α) := fun _ => ⟨_, rfl⟩

lemma operates_raise_bind (code message : String) (statusCode : ℕ) (f : α → Tx β) :
    Operates ((raise code message statusCode : Tx α).bind f) := fun _ => ⟨_, rfl⟩

lemma operates_bind {p : Tx α} {f : α → Tx β} (hp : Operates p) (hf : ∀ a, Operates (f a)) :
    Operates (p.bind f) := fun h => (hp h).bind fun a _ => hf a _

/-- A statement that no race is lost with. -/
lemma operates_call {q : Sql automation} {k : q.Resp → Tx α} (hq : ∀ a, ¬ missed ⟨q, a⟩)
    (hk : ∀ a, Operates (k a)) : Operates (.call q k : Tx α) := by
  intro h a _
  exact ⟨fun hmissed => absurd hmissed (hq a), fun _ => hk a _⟩

lemma fails_rollbackAndRaise (code message : String) (statusCode : ℕ) :
    (rollbackAndRaise code message statusCode : Tx α).Fails RolledBack := fun _ => ⟨_, rfl⟩

/-- A transition that is not tried last may match nothing. -/
lemma operates_transition (ht : t.lastChance = false) {k : Option Execution → Tx α}
    (hk : ∀ a, Operates (k a)) : Operates ((transition executionId t).bind k) :=
  operates_call (fun a hmissed => by simp [missed, ht] at hmissed) hk

/-- A transition that is tried last, with the rollback when it matches nothing. -/
lemma operates_lastChance (ht : t.lastChance = true) {k : Option Execution → Tx α}
    (hnone : (k none).Fails RolledBack) (hsome : ∀ r, Operates (k (some r))) :
    Operates ((transition executionId t).bind k) := by
  intro h a _
  cases a with
  | none => exact ⟨fun _ => hnone, fun hmissed => absurd ⟨ht, rfl⟩ hmissed⟩
  | some r => exact ⟨fun hmissed => (by cases hmissed.2), fun _ => hsome r _⟩

lemma operates_commit (a : α) : Operates (Prog.bind commitWithRetry fun _ => .ret a : Tx α) :=
  operates_call (fun _ => id) fun _ => operates_ret a

lemma operates_now : Operates (Tx.now : Tx Time) := operates_call (fun _ => id) operates_ret

lemma operates_getOr404 : Operates (getOr404 loaded organizationId executionId) := by
  simp only [getOr404, WorkflowExecutionRepository.get, Prog.bind_eq, Prog.pure_eq, Tx.select,
    Prog.call_bind, Prog.ret_bind]
  refine operates_call (fun _ => id) fun row => ?_
  cases Option.filter (·.organizationId = organizationId) row with
  | none => exact operates_raise _ _ _
  | some r => exact operates_ret _

lemma operates_assertPayloadSize (settings : Settings) (payload : Payload) (field : String) :
    Operates (assertPayloadSize settings payload field) := by
  unfold assertPayloadSize
  split_ifs
  · exact operates_raise _ _ _
  · exact operates_ret _

/-- `start` loses its race with `mark_started`. -/
lemma operates_start : Operates (start loaded organizationId executionId) := by
  simp only [start, Prog.bind_eq, Prog.pure_eq]
  refine operates_bind operates_now fun now => operates_bind operates_getOr404 fun execution => ?_
  split_ifs
  · exact operates_raise_bind _ _ _ _
  · exact operates_lastChance rfl (fails_rollbackAndRaise _ _ _) fun r => operates_commit r

/-- The landing of an outcome loses its race with `mark_cancelled_after_run`. -/
lemma operates_land (ht : t.lastChance = false) {finishedAt : Tx Time} (hf : Operates finishedAt) :
    Operates (land organizationId executionId (transition executionId t) finishedAt) := by
  simp only [land, Prog.bind_eq, Prog.pure_eq]
  refine operates_transition ht fun updated => ?_
  cases updated with
  | some updated => exact operates_commit updated
  | none =>
      refine operates_bind hf fun f => ?_
      exact operates_lastChance rfl (fails_rollbackAndRaise _ _ _) fun r => operates_commit r

lemma operates_complete (settings : Settings) (output : Payload) :
    Operates (complete settings loaded organizationId executionId output) := by
  simp only [complete, Prog.bind_eq, Prog.pure_eq]
  refine operates_bind (operates_assertPayloadSize _ _ _) fun _ =>
    operates_bind operates_getOr404 fun execution => ?_
  split_ifs
  · exact operates_raise_bind _ _ _ _
  · exact operates_bind operates_now fun f => operates_land rfl (operates_ret f)

lemma operates_fail (settings : Settings) (error : Payload) (scheduleRetry : Bool) :
    Operates (fail settings loaded organizationId executionId error scheduleRetry) := by
  simp only [WorkflowExecutionService.fail, Prog.bind_eq, Prog.pure_eq]
  refine operates_bind (operates_assertPayloadSize _ _ _) fun _ =>
    operates_bind operates_getOr404 fun execution => ?_
  by_cases hrun : execution.status = .running
  · rw [if_neg (by simpa using hrun)]
    refine operates_bind operates_now fun f => ?_
    split_ifs
    · exact operates_lastChance rfl (fails_rollbackAndRaise _ _ _) fun r => operates_commit r
    · exact operates_bind operates_now fun now => operates_land rfl (operates_ret f)
    · exact operates_land rfl (operates_ret f)
  · rw [if_pos (by simpa using hrun)]
    exact operates_raise_bind _ _ _ _

lemma operates_failQueued (settings : Settings) (error : Payload) :
    Operates (failQueued settings loaded organizationId executionId error) := by
  simp only [failQueued, Prog.bind_eq, Prog.pure_eq]
  refine operates_bind (operates_assertPayloadSize _ _ _) fun _ =>
    operates_bind operates_getOr404 fun execution => ?_
  split_ifs
  · exact operates_raise_bind _ _ _ _
  · refine operates_bind operates_now fun f => ?_
    exact operates_lastChance rfl (fails_rollbackAndRaise _ _ _) fun r => operates_commit r

lemma operates_timeout : Operates (timeout loaded organizationId executionId) := by
  simp only [timeout, Prog.bind_eq]
  refine operates_bind operates_getOr404 fun execution => ?_
  split_ifs
  · exact operates_raise_bind _ _ _ _
  · exact operates_bind operates_now fun f => operates_land rfl operates_now

end Operates

/-! ### The phases of the worker -/

section Survives

variable {α β : Type}

lemma survives_ret (a : α) : Survives (.ret a : Tx α) := fun _ => trivial

lemma survives_bind {p : Tx α} {f : α → Tx β} (hp : Survives p) (hf : ∀ a, Survives (f a)) :
    Survives (p.bind f) := fun h => (hp h).bind fun a _ => hf a _

lemma survives_call {q : Sql automation} {k : q.Resp → Tx α} (hq : ∀ a, ¬ missed ⟨q, a⟩)
    (hk : ∀ a, Survives (k a)) : Survives (.call q k : Tx α) := by
  intro h a _
  exact ⟨fun hmissed => absurd hmissed (hq a), fun _ => hk a _⟩

/-- **The handler of a phase goes on after an `AppError`, unless the session was rolled back.** -/
lemma survives_attempt {p : Tx α} (hp : Operates p) : Survives (attempt p) := by
  intro h
  have hbody : (p.bind fun a => .ret (some a)).Raises (fun _ => True) missed Refused RolledBack h :=
    (hp h).bind fun a _ => trivial
  refine hbody.tryCatch ?_ ?_
  · rintro _ h ⟨e, rfl⟩
    trivial
  · rintro _ ⟨e, rfl⟩
    rfl

lemma survives_settle (settings : Settings) (adapter : Adapter) (executionId : ℕ)
    (started : Execution) : Survives (settle settings adapter executionId started) := by
  unfold settle
  split
  · exact survives_attempt operates_timeout
  · exact survives_attempt (operates_fail _ _ _)
  · exact survives_attempt (operates_complete _ _)

/-- The body of the drain loop. -/
lemma survives_drain (settings : Settings) (adapter : Adapter) (workflows : List (ℕ × Workflow))
    (executionId : ℕ) (execution : Execution) :
    Survives (drain settings adapter workflows executionId execution) := by
  simp only [drain, Prog.bind_eq, Prog.pure_eq]
  split_ifs
  · refine survives_bind (survives_attempt operates_start) fun started => ?_
    cases started with
    | none => exact survives_ret 0
    | some started =>
        exact survives_bind (survives_settle _ _ _ _) fun _ => survives_ret 1
  · exact survives_bind (survives_attempt (operates_failQueued _ _)) fun _ => survives_ret 1

lemma survives_scan (q : Query) {k : List (ℕ × Row q.source) → Tx α} (hk : ∀ rows, Survives (k rows)) :
    Survives (.call (.scan q : Sql automation) k : Tx α) := survives_call (fun _ => id) hk

lemma survives_commit (a : α) : Survives (Prog.bind commitWithRetry fun _ => .ret a : Tx α) :=
  survives_call (fun _ => id) fun _ => survives_ret a

lemma survives_processQueued (settings : Settings) (adapter : Adapter) (batchSize : ℕ) :
    Survives (processQueued settings adapter batchSize) := by
  simp only [processQueued, Prog.bind_eq, Prog.pure_eq]
  refine survives_bind (survives_scan _ fun _ => survives_ret _) fun orgs => ?_
  refine fun h => Prog.raises_tally (fun org => ?_) orgs h
  refine survives_bind (survives_scan _ fun _ => survives_ret _) fun executions => ?_
  split_ifs
  · exact survives_ret 0
  · refine survives_bind (survives_scan _ fun _ => survives_ret _) fun workflows => ?_
    refine survives_bind ?_ fun processed => survives_commit processed
    exact fun h => Prog.raises_tally (fun row => survives_drain _ _ _ _ _) executions h

lemma survives_timeoutStuck (settings : Settings) : Survives (timeoutStuck settings) := by
  simp only [timeoutStuck, Prog.bind_eq, Prog.pure_eq]
  refine survives_bind ?_ fun executions => ?_
  · exact survives_call (fun _ => id) fun now => survives_scan _ survives_ret
  · refine survives_bind ?_ fun transitioned => survives_commit transitioned
    refine fun h => Prog.raises_tally (fun row => ?_) executions h
    exact survives_bind (survives_attempt operates_timeout) fun updated => survives_ret _

end Survives

/-! ### Gates -/

/-- What makes the operation of a gate raise: automation is paused when a retry looks, or the row
is no longer one that `mark_requeued` matches. -/
def hinders : Answered (sql automation) → Prop
  | ⟨.select .systemSetting n, setting⟩ => n = keyEnabled ∧ setting.any (fun r => !r.enabled) = true
  | ⟨.update (.transition (.markRequeued _)) _, answer⟩ => answer = none
  | _ => False

/-- An execution that the first statement has found is found by the second, in its
organization. -/
def Persists (x y : Answered (sql automation)) : Prop :=
  ∀ (n : ℕ) (r : Execution) (found : Option Execution), x = ⟨.select .execution n, some r⟩ →
    y = ⟨.select .execution n, found⟩ → ∃ r', found = some r' ∧ r'.organizationId = r.organizationId

/-- What a gate does in the session of its sweep, as long as rows persist: it raises if it is
hindered, and nothing otherwise. -/
abbrev SweepsOn {α : Type} (p : Tx α) (h : List (Answered (sql automation))) : Prop :=
  p.Raises (List.Pairwise Persists) hinders (fun _ => False) (fun _ => True) h

/-- The execution has been found in its organization. -/
def Found (organizationId executionId : ℕ) (h : List (Answered (sql automation))) : Prop :=
  ∃ r : Execution, ⟨.select .execution executionId, some r⟩ ∈ h ∧ r.organizationId = organizationId

section SweepsOn

variable {α β : Type} {organizationId executionId : ℕ} {execution : Execution}
  {h : List (Answered (sql automation))}

lemma Found.append (hf : Found organizationId executionId h)
    (h' : List (Answered (sql automation))) : Found organizationId executionId (h ++ h') := by
  obtain ⟨r, hr, horg⟩ := hf
  exact ⟨r, List.mem_append_left _ hr, horg⟩

lemma sweepsOn_call {q : Sql automation} {k : q.Resp → Tx α} (hq : ∀ a, ¬ hinders ⟨q, a⟩)
    (hk : ∀ a, SweepsOn (k a) (h ++ [⟨q, a⟩])) : SweepsOn (.call q k : Tx α) h := by
  intro a _
  exact ⟨fun hφ => absurd hφ (hq a), fun _ => hk a⟩

lemma sweepsOn_now : SweepsOn (Tx.now : Tx Time) h := sweepsOn_call (fun _ => id) fun _ => trivial

lemma sweepsOn_commit (a : α) : SweepsOn (Prog.bind commitWithRetry fun _ => .ret a : Tx α) h :=
  sweepsOn_call (fun _ => id) fun _ => trivial

/-- An execution that has been found is found again. -/
lemma sweepsOn_select (hf : Found organizationId executionId h)
    {k : Option Execution → Tx α}
    (hk : ∀ r : Execution, r.organizationId = organizationId →
      SweepsOn (k (some r)) (h ++ [⟨.select .execution executionId, some r⟩])) :
    SweepsOn (.call (.select .execution executionId : Sql automation) k : Tx α) h := by
  intro found hpersists
  refine ⟨fun hφ => hφ.elim, fun _ => ?_⟩
  obtain ⟨r, hr, horg⟩ := hf
  have hsecond : Persists ⟨.select .execution executionId, some r⟩
      ⟨.select .execution executionId, found⟩ :=
    (List.pairwise_append.mp hpersists).2.2 _ hr _ (List.mem_singleton_self _)
  obtain ⟨r', rfl, horg'⟩ := hsecond executionId r found rfl rfl
  exact hk r' (horg'.trans horg)

lemma sweepsOn_getOr404 (hf : Found organizationId executionId h) :
    SweepsOn (getOr404 (some execution) organizationId executionId) h := by
  simp only [getOr404, WorkflowExecutionRepository.get, Prog.bind_eq, Prog.pure_eq, Tx.select,
    Prog.call_bind, Prog.ret_bind]
  refine sweepsOn_select hf fun r horg => ?_
  have hsome : Option.filter (fun x => decide (x.organizationId = organizationId)) (some r)
      = some r := by
    simp [horg]
  rw [hsome]
  trivial

/-- `retry` on an execution that has been found raises if automation is paused or the row has
changed, and not otherwise. -/
lemma sweepsOn_retry (hf : Found organizationId executionId h)
    (hstatus : execution.status = .failed ∨ execution.status = .cancelled
      ∨ execution.status = .timedOut) :
    SweepsOn (retry (some execution) organizationId executionId) h := by
  simp only [retry, Prog.bind_eq, Prog.pure_eq]
  have hblock : SweepsOn AutomationControlService.blockExecutionIfPaused h := by
    intro setting _
    constructor
    · rintro ⟨-, hpaused⟩
      have hclosed : Option.all (·.enabled) setting = false := by
        cases setting with
        | none => cases hpaused
        | some r => simpa using hpaused
      simp only [Prog.ret_bind, Prog.pure_eq, hclosed, Bool.false_eq_true, if_false]
      exact fun reason => trivial
    · intro hopen
      have hopened : Option.all (·.enabled) setting = true := by
        cases setting with
        | none => rfl
        | some r => simpa [hinders] using hopen
      simp only [Prog.ret_bind, Prog.pure_eq, hopened, if_true]
      trivial
  refine hblock.bind fun _ h₁ => ?_
  refine (sweepsOn_getOr404 (hf.append h₁)).bind_of_returns
    (returns_getOr404 execution organizationId executionId) fun found h₂ hfound => ?_
  subst hfound
  rw [if_neg (not_not.mpr hstatus)]
  intro updated _
  cases updated with
  | none => exact ⟨fun _ _ => trivial, fun hne => absurd rfl hne⟩
  | some updated => exact ⟨fun hnone => (by cases hnone), fun _ => sweepsOn_commit updated⟩

lemma sweepsOn_cancelOrFlag (user : Option ℕ) (now : Time) :
    SweepsOn (cancelOrFlag execution organizationId executionId user now) h := by
  unfold cancelOrFlag
  split_ifs
  · refine sweepsOn_call (fun _ => id) fun updated => ?_
    cases updated with
    | some updated => trivial
    | none => exact sweepsOn_call (fun _ => id) fun _ => trivial
  · exact sweepsOn_call (fun _ => id) fun _ => trivial

/-- `cancel` on an execution that has been found does not raise. -/
lemma sweepsOn_cancel (hf : Found organizationId executionId h) (user : Option ℕ)
    (hstatus : execution.status = .queued ∨ execution.status = .running
      ∨ execution.status = .retrying) :
    SweepsOn (cancel (some execution) organizationId executionId user) h := by
  simp only [cancel, Prog.bind_eq, Prog.pure_eq]
  refine (sweepsOn_getOr404 hf).bind_of_returns
    (returns_getOr404 execution organizationId executionId) fun found h₁ hfound => ?_
  subst hfound
  by_cases hcancelled : found.status = .cancelled
  · rw [if_pos hcancelled]
    trivial
  · rw [if_neg hcancelled, if_neg (not_not.mpr hstatus)]
    refine sweepsOn_now.bind fun now h₂ => ?_
    refine (sweepsOn_cancelOrFlag user now).bind fun updated h₃ => ?_
    cases updated with
    | some updated => exact sweepsOn_commit updated
    | none =>
        simp only [WorkflowExecutionRepository.get, Prog.bind_eq, Prog.pure_eq, Tx.select,
          Prog.call_bind, Prog.ret_bind]
        refine sweepsOn_select (((hf.append h₁).append h₂).append h₃) fun r horg => ?_
        have hsome : Option.filter (fun x => decide (x.organizationId = organizationId)) (some r)
            = some r := by
          simp [horg]
        rw [hsome]
        exact sweepsOn_commit found

/-- The operation chosen for a gate raises if it is hindered, and not otherwise. -/
lemma sweepsOn_takeAction {status : ApprovalStatus} {found : Option Execution} (user : Option ℕ)
    (hf : ∀ r, found = some r → Found organizationId executionId h) :
    SweepsOn (ApprovalGateService.takeAction (ApprovalGateService.gateAction status found) found
      organizationId executionId user) h := by
  cases found with
  | none => trivial
  | some execution =>
      have hspec := gateAction_spec status execution
      cases haction : ApprovalGateService.gateAction status (some execution) with
      | none => trivial
      | some action =>
          rw [haction] at hspec
          cases action with
          | retry => exact (sweepsOn_retry (hf execution rfl) hspec.2).bind fun _ _ => trivial
          | cancel => exact (sweepsOn_cancel (hf execution rfl) user hspec.2).bind fun _ _ => trivial

/-- **A gate raises if its operation is hindered**, and lets the sweep go on otherwise. -/
theorem sweepsOn_processGate (requestId : ℕ) (req : ApprovalRequest) :
    SweepsOn (ApprovalGateService.processGate requestId req) h := by
  have hclaim : ∀ (handledAt : Time) (h : List (Answered (sql automation))),
      SweepsOn (ApprovalRequestRepository.claimGate requestId handledAt) h :=
    fun handledAt h => sweepsOn_call (fun _ => id) fun _ => trivial
  unfold ApprovalGateService.processGate
  cases req.workflowExecutionId with
  | none =>
      refine sweepsOn_now.bind fun handledAt h₁ => (hclaim handledAt _).bind fun claimed h₂ => ?_
      cases claimed with
      | true => exact sweepsOn_commit true
      | false => trivial
  | some executionId =>
      simp only [WorkflowExecutionRepository.get, Prog.bind_eq, Prog.pure_eq, Tx.select,
        Prog.call_bind, Prog.ret_bind]
      refine sweepsOn_call (fun _ => id) fun row => ?_
      refine sweepsOn_now.bind fun handledAt h₁ => (hclaim handledAt _).bind fun claimed h₂ => ?_
      cases claimed with
      | false => trivial
      | true =>
          have hfound : ∀ r, (Option.filter (fun x => decide (x.organizationId = req.organizationId))
              row).map (fun r => Option.getD none r) = some r →
              Found req.organizationId executionId
                (h ++ [⟨.select .execution executionId, row⟩] ++ h₁ ++ h₂) := by
            intro r hr
            obtain ⟨r', hr', -⟩ := Option.map_eq_some_iff.mp hr
            obtain ⟨rfl, horg⟩ := Option.filter_eq_some_iff.mp hr'
            exact ⟨r', by simp, by simpa using horg⟩
          refine Prog.Raises.tryCatch (E := fun _ => False) (F := fun _ => True) ?_
            (fun e _ he => he.elim) fun e _ => ?_
          · exact (sweepsOn_takeAction _ hfound).bind fun _ _ => sweepsOn_commit true
          · split
            · trivial
            · exact fun _ => trivial

end SweepsOn

lemma sweepsOn_sweep (limit : ℕ) (h : List (Answered (sql automation))) :
    SweepsOn (ApprovalGateService.sweep limit) h := by
  simp only [ApprovalGateService.sweep, Prog.bind_eq, Prog.pure_eq]
  refine Prog.Raises.bind (sweepsOn_call (fun _ => id) fun _ => trivial) fun requests h₁ => ?_
  refine Prog.raises_tally (fun row h => ?_) requests _
  exact (sweepsOn_processGate row.1 row.2).bind fun _ _ => trivial

/-! ### Rows persist -/

/-- An `UPDATE` does not change the organization of an execution. -/
def SameOrganization : (t : Table) → Row t → Row t → Prop
  | .execution, r, r' => r'.organizationId = r.organizationId
  | _, _, _ => True

lemma sameOrganization_refl : ∀ (t : Table) (r : Row t), SameOrganization t r r := by
  intro t r
  cases t with
  | execution => rfl
  | _ => trivial

/-- The statement creates no execution. -/
def CreatesNone : Sql automation → Prop
  | .insert _ => False
  | _ => True

section Standing

variable {ι : Type} [DecidableEq ι] {i j : ι} {s : Database ι} {tr : List (Happened ι)}
  {q : Sql automation}

lemma sameOrganization_effect (h : Ahead (S := automation) SameOrganization s) :
    Ahead (S := automation) SameOrganization (Db.effect i q s) := by
  refine h.effect sameOrganization_refl ?_
  rintro u n r rfl hv hg rc - hrc
  cases u with
  | transition t =>
      have hsame : (t.update.set r).organizationId = r.organizationId :=
        (Transition.set_spec hg).2.2.2
      exact hsame.trans hrc
  | _ => trivial

/-- What session `i`, which creates no executions, has found of the executions is committed, and
stays in its organization. -/
structure Standing (i : ι) (tr : List (Happened ι)) (s : Database ι) : Prop where
  ahead : Ahead (S := automation) SameOrganization s
  committed : ∀ n r, s.dirty .execution n = some (i, r) → ∃ rc, s.committed .execution n = some rc
  seen : ∀ ev ∈ own i tr, ∀ n (r : Execution), ev.before.view i .execution n = some r →
    ∃ rc : Execution, s.committed .execution n = some rc ∧ rc.organizationId = r.organizationId
  persists : (history (postgres ι) i tr).Pairwise Persists

/-- What the session sees of an execution stands for a committed row of the organization. -/
lemma Standing.view (h : Standing i tr s) {n : ℕ} {r : Execution}
    (hv : s.view i .execution n = some r) :
    ∃ rc : Execution, s.committed .execution n = some rc ∧ rc.organizationId = r.organizationId := by
  rcases s.view_cases i .execution n with ⟨r', hd, hv'⟩ | ⟨-, hv'⟩
  · obtain rfl := Option.some.inj (hv.symm.trans hv')
    obtain ⟨rc, hc⟩ := h.committed n r hd
    have hsame : r.organizationId = rc.organizationId := h.ahead _ _ _ _ _ hd hc
    exact ⟨rc, hc, hsame.symm⟩
  · exact ⟨r, hv'.symm.trans hv, rfl⟩

/-- A committed execution is seen by every session, in its organization. -/
lemma Standing.view_of_committed (h : Standing i tr s) {n : ℕ} {rc : Execution}
    (hc : s.committed .execution n = some rc) :
    ∃ r : Execution, s.view i .execution n = some r ∧ r.organizationId = rc.organizationId := by
  rcases s.view_cases i .execution n with ⟨r, hd, hv⟩ | ⟨-, hv⟩
  · exact ⟨r, hv, h.ahead _ _ _ _ _ hd hc⟩
  · exact ⟨rc, hv.trans hc, rfl⟩

/-- A committed execution stays, in its organization. -/
lemma Standing.committed_effect (h : Standing i tr s) {n : ℕ} {r rc : Execution}
    (hc : s.committed .execution n = some rc) (horg : rc.organizationId = r.organizationId) :
    ∃ rc' : Execution, (Db.effect j q s).committed .execution n = some rc'
      ∧ rc'.organizationId = r.organizationId := by
  obtain ⟨rc', hc', hsame⟩ := h.ahead.committed sameOrganization_refl j q hc
  exact ⟨rc', hc', Eq.trans (show rc'.organizationId = rc.organizationId from hsame) horg⟩

/-- What the session has found it finds again. -/
lemma Standing.persists_next (h : Standing i tr s) (q : Sql automation) {ev : Happened ι}
    (hev : ev ∈ own i tr) :
    Persists (ev.answered (postgres ι)) ⟨q, (postgres ι).answer i q s⟩ := by
  obtain ⟨pid, stmt, before, after⟩ := ev
  obtain rfl : pid = i := (mem_own.mp hev).2
  intro n r found hx hy
  obtain ⟨rfl, hanswer⟩ := Sigma.mk.inj hx
  obtain ⟨rfl, hanswer'⟩ := Sigma.mk.inj hy
  have hv : before.view pid .execution n = some r := eq_of_heq hanswer
  obtain ⟨rc, hc, horg⟩ := h.seen _ hev n r hv
  obtain ⟨r', hv', horg'⟩ := h.view_of_committed hc
  exact ⟨r', (eq_of_heq hanswer').symm.trans hv', horg'.trans horg⟩

/-- **A statement keeps what session `i` has found**, if it is not an execution that the session
creates. -/
lemma Standing.step (h : Standing i tr s) (hq : j = i → CreatesNone q) :
    Standing i (tr ++ [⟨j, q, s, Db.effect j q s⟩]) (Db.effect j q s) where
  ahead := sameOrganization_effect h.ahead
  committed := by
    intro n r hd
    rcases Db.dirty_effect_cases hd with
      ⟨hold, -⟩ | ⟨rfl, ⟨u, r₀, rfl, hv, hg, heq⟩ | ⟨x, rfl, -, -⟩⟩
    · obtain ⟨rc, hc⟩ := h.committed n r hold
      obtain ⟨rc', hc', -⟩ := h.committed_effect (j := j) (q := q) hc rfl
      exact ⟨rc', hc'⟩
    · cases u with
      | transition t =>
          cases heq
          obtain ⟨rc, hc, -⟩ := h.view hv
          exact ⟨rc, by rw [Db.committed_effect (by simp), hc]⟩
      | _ => cases heq
    · exact (hq rfl).elim
  seen := by
    intro ev hev n r hv
    rw [own_append] at hev
    rcases List.mem_append.mp hev with hold | hnew
    · obtain ⟨rc, hc, horg⟩ := h.seen ev hold n r hv
      exact h.committed_effect hc horg
    · obtain ⟨hmem, rfl⟩ := mem_own.mp hnew
      obtain rfl := List.mem_singleton.mp hmem
      obtain ⟨rc, hc, horg⟩ := h.view hv
      exact h.committed_effect hc horg
  persists := by
    by_cases hj : j = i
    · subst hj
      rw [history_self]
      refine List.pairwise_append.mpr ⟨h.persists, List.pairwise_singleton _ _, ?_⟩
      intro x hx y hy
      obtain ⟨ev, hev, rfl⟩ := List.mem_map.mp hx
      rw [List.mem_singleton.mp hy]
      exact h.persists_next q hev
    · rw [history_other hj]
      exact h.persists

/-- **Executions that a session has found are found again**, whatever the others do. -/
theorem pairwise_persists {procs : ι → Tx ℕ} (hs : s.Settled) (hi : (procs i).Issues CreatesNone)
    {c : Sessions ι ℕ} (h : Pool.Reach (postgres ι) (.start procs s) c) :
    (history (postgres ι) i c.trace).Pairwise Persists := by
  have hstart : Standing i [] s :=
    ⟨hs.ahead _, fun n r hd => (by rw [hs] at hd; cases hd), fun ev hev => (by cases hev),
      List.Pairwise.nil⟩
  have hroll : ∀ j, j = i → CreatesNone (postgres ι).hangup := fun _ _ => trivial
  refine (Pool.Reach.invariant (fun j q => j = i → CreatesNone q) (fun _ _ => True) (Standing i)
    (fun tr j q s hq _ _ hI => hI.step hq) hroll (fun j => ?_) hstart h
    (along_iff_forall_mem.mpr fun _ _ => trivial)).1.persists
  by_cases hj : j = i
  · subst hj
    exact Prog.issues_mono hi fun q hq _ => hq
  · exact Prog.issues_mono (procs j).issues_true fun q _ h => absurd h hj

end Standing

/-! ### The statements of the gate sweep -/

section CreatesNone

variable {organizationId executionId : ℕ}

lemma createsNone_of_reads {α : Type} {p : Tx α} (hp : p.Issues Reads) : p.Issues CreatesNone :=
  Prog.issues_mono hp fun q hq => by cases q <;> trivial

lemma createsNone_commit {α : Type} (a : α) :
    (Prog.bind commitWithRetry fun _ => .ret a : Tx α).Issues CreatesNone :=
  ⟨trivial, fun _ => trivial⟩

lemma createsNone_retry (execution : Option Execution) :
    (retry execution organizationId executionId).Issues CreatesNone := by
  simp only [retry, Prog.bind_eq, Prog.pure_eq]
  refine Prog.issues_bind (createsNone_of_reads reads_blockExecutionIfPaused) fun _ => ?_
  refine Prog.issues_bind (createsNone_of_reads (reads_getOr404 _ _ _)) fun execution => ?_
  split_ifs
  · refine ⟨trivial, fun updated => ?_⟩
    cases updated with
    | none => exact ⟨trivial, fun _ => trivial⟩
    | some updated => exact createsNone_commit updated
  · trivial

lemma createsNone_cancelOrFlag (execution : Execution) (user : Option ℕ) (now : Time) :
    (cancelOrFlag execution organizationId executionId user now).Issues CreatesNone := by
  unfold cancelOrFlag
  split_ifs
  · refine ⟨trivial, fun updated => ?_⟩
    cases updated with
    | some updated => trivial
    | none => exact ⟨trivial, fun _ => trivial⟩
  · exact ⟨trivial, fun _ => trivial⟩

lemma createsNone_cancel (execution : Option Execution) (user : Option ℕ) :
    (cancel execution organizationId executionId user).Issues CreatesNone := by
  simp only [cancel, Prog.bind_eq, Prog.pure_eq]
  refine Prog.issues_bind (createsNone_of_reads (reads_getOr404 _ _ _)) fun execution => ?_
  split_ifs
  · trivial
  · refine Prog.issues_bind (createsNone_of_reads reads_utcnow) fun now => ?_
    refine Prog.issues_bind (createsNone_cancelOrFlag _ _ _) fun updated => ?_
    cases updated with
    | some updated => exact createsNone_commit updated
    | none =>
        refine Prog.issues_bind (createsNone_of_reads (reads_get _ _ _)) fun found => ?_
        cases found with
        | none => trivial
        | some found => exact createsNone_commit found
  · trivial

lemma createsNone_processGate (requestId : ℕ) (req : ApprovalRequest) :
    (ApprovalGateService.processGate requestId req).Issues CreatesNone := by
  have hclaim : ∀ handledAt,
      (ApprovalRequestRepository.claimGate requestId handledAt).Issues CreatesNone :=
    fun _ => ⟨trivial, fun _ => trivial⟩
  unfold ApprovalGateService.processGate
  cases req.workflowExecutionId with
  | none =>
      refine Prog.issues_bind (createsNone_of_reads reads_utcnow) fun now => ?_
      refine Prog.issues_bind (hclaim now) fun claimed => ?_
      cases claimed with
      | true => exact createsNone_commit true
      | false => trivial
  | some executionId =>
      refine Prog.issues_bind (createsNone_of_reads (reads_get _ _ _)) fun execution => ?_
      refine Prog.issues_bind (createsNone_of_reads reads_utcnow) fun now => ?_
      refine Prog.issues_bind (hclaim now) fun claimed => ?_
      cases claimed with
      | false => trivial
      | true =>
          refine Prog.issues_tryCatch (Prog.issues_bind ?_ fun _ => createsNone_commit true)
            fun e => ?_
          · unfold ApprovalGateService.takeAction
            split
            · exact Prog.issues_bind (createsNone_retry _) fun _ => trivial
            · exact Prog.issues_bind (createsNone_cancel _ _) fun _ => trivial
            · trivial
          · split
            · trivial
            · exact ⟨trivial, fun _ => trivial⟩

lemma createsNone_sweep (limit : ℕ) : (ApprovalGateService.sweep limit).Issues CreatesNone := by
  simp only [ApprovalGateService.sweep, Prog.bind_eq, Prog.pure_eq]
  refine Prog.issues_bind ⟨trivial, fun _ => trivial⟩ fun requests => ?_
  refine Prog.issues_tally (fun row => ?_) requests
  exact Prog.issues_bind (createsNone_processGate row.1 row.2) fun _ => trivial

end CreatesNone

/-! ### Phases -/

/-- A sweep over the rows of a table. -/
inductive Phase where
  | queued (adapter : Adapter) (batchSize : ℕ)
  | stuck
  | gates (limit : ℕ)

namespace Phase

variable (settings : Settings)

def body : Phase → Tx ℕ
  | queued adapter batchSize => processQueued settings adapter batchSize
  | stuck => timeoutStuck settings
  | gates limit => ApprovalGateService.sweep limit

/-- A phase in a session of its own. -/
def program (ph : Phase) : Tx ℕ := Txn.Tx.withSession (ph.body settings)

/-- The body of the loops of a phase has run to its end for every row of every batch. -/
def ProcessesAll : Phase → List (Answered (sql automation)) → Prop
  | queued adapter batchSize, h =>
      ∃ orgs, (getQueuedOrgs settings.executionOrgsPerSweep).During h orgs ∧
        ∀ org ∈ orgs, ∃ executions, (getQueuedForOrg org batchSize).During h executions ∧
          ∀ row ∈ executions, ∃ workflows processed,
            (drain settings adapter workflows row.1 row.2).During h processed
  | stuck, h =>
      ∃ executions, (getStuckRunning settings).During h executions ∧
        ∀ row ∈ executions, ∃ updated,
          (attempt (timeout (some row.2) row.2.organizationId row.1)).During h updated
  | gates limit, h =>
      ∃ requests, (ApprovalRequestRepository.listUnhandledGates limit).During h requests ∧
        ∀ row ∈ requests, ∃ stamped,
          (ApprovalGateService.processGate row.1 row.2).During h stamped

end Phase

section Races

variable {ι : Type} [DecidableEq ι]

/-- A last transition of a service, on a row that does not meet its condition. -/
def LosesRace (ev : Happened ι) : Prop :=
  match ev.stmt with
  | .update (.transition t) n => t.lastChance = true ∧
      ∀ r, ev.before.view ev.pid .execution n = some r → t.update.guard r = false
  | _ => False

/-- A retry finds automation paused, or `mark_requeued` a row that has not failed, been cancelled or
timed out. -/
def Hindered (ev : Happened ι) : Prop :=
  match ev.stmt with
  | .select .systemSetting n => n = keyEnabled ∧
      (ev.before.view ev.pid .systemSetting n).any (fun r => !r.enabled) = true
  | .update (.transition (.markRequeued organizationId)) n =>
      ∀ r, ev.before.view ev.pid .execution n = some r →
        (Execution.markRequeued organizationId).guard r = false
  | _ => False

/-- The row of the statement hinders the phase. -/
def Phase.StumblesAt : Phase → Happened ι → Prop
  | .queued .. | .stuck => LosesRace
  | .gates _ => Hindered

variable {ev : Happened ι}

lemma missed_answered (hready : Db.ready ev.pid ev.stmt ev.before = true) :
    missed (ev.answered (postgres ι)) ↔ LosesRace ev := by
  obtain ⟨pid, stmt, before, after⟩ := ev
  cases stmt with
  | update u n =>
      cases u with
      | transition t =>
          exact and_congr_right fun _ => Db.written_eq_none_iff (S := automation) hready
      | _ => exact Iff.rfl
  | _ => exact Iff.rfl

lemma hinders_answered (hready : Db.ready ev.pid ev.stmt ev.before = true) :
    hinders (ev.answered (postgres ι)) ↔ Hindered ev := by
  obtain ⟨pid, stmt, before, after⟩ := ev
  cases stmt with
  | select t n => cases t <;> exact Iff.rfl
  | update u n =>
      cases u with
      | transition t =>
          cases t with
          | markRequeued organizationId => exact Db.written_eq_none_iff (S := automation) hready
          | _ => exact Iff.rfl
      | _ => exact Iff.rfl
  | _ => exact Iff.rfl

end Races

/-! ### What a phase does -/

section Session

variable {α : Type} {A : List (Answered (sql automation)) → Prop}
  {φ : Answered (sql automation) → Prop} {E F : Exn → Prop} {h : List (Answered (sql automation))}

/-- A session raises what its body raises. -/
lemma raises_withSession {p : Tx α} (hp : p.Raises A φ E F h) (hroll : ∀ a, ¬ φ ⟨.rollback, a⟩) :
    (Txn.Tx.withSession p).Raises A φ E F h := by
  refine (hp.bind fun a h' => ?_).tryCatch (fun e h' he => ?_) fun e he => ?_
  · exact fun answer _ => ⟨fun hφ => absurd hφ (hroll answer), fun _ => trivial⟩
  · exact fun answer _ => ⟨fun hφ => absurd hφ (hroll answer), fun _ => he⟩
  · exact fun _ => he

/-- A session that returns has run its body to its end. -/
lemma ok_of_runs_withSession {p : Tx α} {a : α} (hr : (Txn.Tx.withSession p).Runs h (.ok a)) :
    ∃ h₁ h₂, h = h₁ ++ h₂ ∧ p.Runs h₁ (.ok a) := by
  rcases Prog.runs_tryCatch.mp hr with ⟨a', hbody, ha⟩ | ⟨h₁, h₂, e, -, -, hhandler⟩
  · obtain rfl := Except.ok.inj ha
    obtain ⟨h₁, h₂, b, rfl, hp, hend⟩ := Prog.ok_of_runs_bind hbody
    obtain ⟨-, h₃, -, -, hb⟩ := hend
    obtain rfl := Except.ok.inj hb
    exact ⟨h₁, h₂, rfl, hp⟩
  · obtain ⟨-, h₃, -, -, he⟩ := hhandler
    cases he

end Session

namespace Phase

variable {settings : Settings} {h : List (Answered (sql automation))}

/-- A drain that returns has run its body for every row of every batch. -/
lemma processesAll_queued {adapter : Adapter} {batchSize n : ℕ}
    (hr : (processQueued settings adapter batchSize).Runs h (.ok n)) :
    (queued adapter batchSize).ProcessesAll settings h := by
  obtain ⟨h₁, h₂, orgs, rfl, horgs, hloop⟩ := Prog.ok_of_runs_bind hr
  refine ⟨orgs, horgs.during.append_right h₂, fun org horg => ?_⟩
  obtain ⟨m, h₃, h₄, h₅, rfl, hbatch⟩ := Prog.during_of_tally hloop org horg
  obtain ⟨h₆, h₇, executions, rfl, hexecutions, hrest⟩ := Prog.ok_of_runs_bind hbatch
  have hlift : ∀ {α : Type} {p : Tx α} {a : α}, p.During (h₆ ++ h₇) a →
      p.During (h₁ ++ (h₃ ++ (h₆ ++ h₇) ++ h₅)) a :=
    fun hp => (hp.mid h₃ h₅).append_left h₁
  refine ⟨executions, hlift (hexecutions.during.append_right h₇), fun row hrow => ?_⟩
  rw [if_neg (by rw [List.isEmpty_iff]; exact List.ne_nil_of_mem hrow)] at hrest
  obtain ⟨h₈, h₉, workflows, rfl, -, hrest⟩ := Prog.ok_of_runs_bind hrest
  obtain ⟨ha, hb, processed, rfl, hdrain, -⟩ := Prog.ok_of_runs_bind hrest
  obtain ⟨k, hk⟩ := Prog.during_of_tally hdrain row hrow
  exact ⟨workflows, k, hlift (((hk.append_right hb).append_left h₈).append_left h₆)⟩

/-- A timeout phase that returns has run its body for every row. -/
lemma processesAll_stuck {n : ℕ} (hr : (timeoutStuck settings).Runs h (.ok n)) :
    stuck.ProcessesAll settings h := by
  obtain ⟨h₁, h₂, executions, rfl, hexecutions, hrest⟩ := Prog.ok_of_runs_bind hr
  refine ⟨executions, hexecutions.during.append_right h₂, fun row hrow => ?_⟩
  obtain ⟨h₃, h₄, transitioned, rfl, hloop, -⟩ := Prog.ok_of_runs_bind hrest
  obtain ⟨m, h₅, h₆, h₇, rfl, hbody⟩ := Prog.during_of_tally hloop row hrow
  obtain ⟨h₈, h₉, updated, rfl, hattempt, -⟩ := Prog.ok_of_runs_bind hbody
  refine ⟨updated, ?_⟩
  exact ((((hattempt.during.append_right h₉).mid h₅ h₇).append_right h₄).append_left h₁)

/-- A gate sweep that returns has run its body for every gate. -/
lemma processesAll_gates {limit n : ℕ} (hr : (ApprovalGateService.sweep limit).Runs h (.ok n)) :
    (gates limit).ProcessesAll settings h := by
  obtain ⟨h₁, h₂, requests, rfl, hrequests, hloop⟩ := Prog.ok_of_runs_bind hr
  refine ⟨requests, hrequests.during.append_right h₂, fun row hrow => ?_⟩
  obtain ⟨m, h₃, h₄, h₅, rfl, hbody⟩ := Prog.during_of_tally hloop row hrow
  obtain ⟨h₆, h₇, stamped, rfl, hgate, -⟩ := Prog.ok_of_runs_bind hbody
  exact ⟨stamped, ((hgate.during.append_right h₇).mid h₃ h₅).append_left h₁⟩

/-- A phase that returns has processed every row. -/
lemma processesAll_of_runs {ph : Phase} {n : ℕ} (hr : (ph.program settings).Runs h (.ok n)) :
    ph.ProcessesAll settings h := by
  obtain ⟨h₁, h₂, rfl, hbody⟩ := ok_of_runs_withSession hr
  cases ph with
  | queued adapter batchSize =>
      obtain ⟨orgs, horgs, hall⟩ := processesAll_queued hbody
      refine ⟨orgs, horgs.append_right h₂, fun org horg => ?_⟩
      obtain ⟨executions, hexecutions, hrows⟩ := hall org horg
      refine ⟨executions, hexecutions.append_right h₂, fun row hrow => ?_⟩
      obtain ⟨workflows, processed, hdrain⟩ := hrows row hrow
      exact ⟨workflows, processed, hdrain.append_right h₂⟩
  | stuck =>
      obtain ⟨executions, hexecutions, hrows⟩ := processesAll_stuck hbody
      refine ⟨executions, hexecutions.append_right h₂, fun row hrow => ?_⟩
      obtain ⟨updated, hupdated⟩ := hrows row hrow
      exact ⟨updated, hupdated.append_right h₂⟩
  | gates limit =>
      have hall : (gates limit).ProcessesAll settings h₁ := processesAll_gates hbody
      obtain ⟨requests, hrequests, hrows⟩ := hall
      refine ⟨requests, hrequests.append_right h₂, fun row hrow => ?_⟩
      obtain ⟨stamped, hstamped⟩ := hrows row hrow
      exact ⟨stamped, hstamped.append_right h₂⟩

variable {ι : Type} [DecidableEq ι] {procs : ι → Tx ℕ} {i : ι} {s : Database ι}
  {c : Sessions ι ℕ} {p : Tx ℕ} {r : Except Exn ℕ}

/-- A session that raises nothing unless an answer is in `φ` returns exactly if none is. -/
lemma returns_iff {q : Tx ℕ} {A : List (Answered (sql automation)) → Prop}
    {φ : Answered (sql automation) → Prop} {F : Exn → Prop} {Q : Happened ι → Prop}
    {tr : List (Happened ι)} (hq : q.Raises A φ (fun _ => False) F [])
    (hroll : ∀ a, ¬ φ ⟨.rollback, a⟩) (hA : ∀ h₁ h₂, A (h₁ ++ h₂) → A h₁)
    (hruns : (Txn.Tx.withSession q).Runs (history (postgres ι) i tr) r)
    (htr : A (history (postgres ι) i tr))
    (hQ : ∀ ev ∈ own i tr, φ (ev.answered (postgres ι)) ↔ Q ev) :
    (∃ n, r = .ok n) ↔ ∀ ev ∈ own i tr, ¬ Q ev := by
  obtain ⟨hmet, hunmet⟩ := (raises_withSession hq hroll).runs hA hruns htr
  constructor
  · rintro ⟨n, rfl⟩ ev hev hev'
    obtain ⟨e, he, -⟩ := hmet ⟨_, List.mem_map_of_mem hev, (hQ ev hev).mpr hev'⟩
    cases he
  · intro hnone
    cases r with
    | ok n => exact ⟨n, rfl⟩
    | error e =>
        refine (hunmet (fun x hx hφ => ?_) e rfl).elim
        obtain ⟨ev, hev, rfl⟩ := List.mem_map.mp hx
        exact hnone ev hev ((hQ ev hev).mp hφ)

/-- **No row aborts a phase exactly when none hinders it.**  Amid whatever the other sessions do, a
phase that has ended has returned, and has run its body for every row of every batch, exactly when no
last transition of the worker has met a row that had moved on, or, for the gate sweep, when no retry
has found automation paused or its row changed. -/
theorem completes_iff (ph : Phase) (hi : procs i = ph.program settings) (hs : s.Settled)
    (h : Pool.Reach (postgres ι) (.start procs s) c) (hp : c.procs i = some p)
    (hr : p.result? = some r) :
    ((∃ n, r = .ok n) ∧ ph.ProcessesAll settings (history (postgres ι) i c.trace))
      ↔ ∀ ev ∈ own i c.trace, ¬ ph.StumblesAt ev := by
  have hruns := h.runs_of_result hp hr
  rw [hi] at hruns
  have hready : ∀ ev ∈ own i c.trace, Db.ready ev.pid ev.stmt ev.before = true := fun ev hev =>
    ((Pool.Reach.issues (fun _ _ => True) (fun _ => True) (fun _ _ _ _ _ _ => trivial)
      (fun _ => trivial) (fun i => (procs i).issues_true) trivial h).2 ev (mem_own.mp hev).1).2.2.2.1
  have hreturns : (∃ n, r = .ok n) ↔ ∀ ev ∈ own i c.trace, ¬ ph.StumblesAt ev := by
    cases ph with
    | queued adapter batchSize =>
        exact returns_iff (survives_processQueued _ _ _ []) (fun _ => id) (fun _ _ _ => trivial)
          hruns trivial fun ev hev => missed_answered (hready ev hev)
    | stuck =>
        exact returns_iff (survives_timeoutStuck _ []) (fun _ => id) (fun _ _ _ => trivial)
          hruns trivial fun ev hev => missed_answered (hready ev hev)
    | gates limit =>
        have hissues : (procs i).Issues CreatesNone := by
          rw [hi]
          exact Txn.Tx.issues_withSession (createsNone_sweep limit) trivial
        exact returns_iff (sweepsOn_sweep limit []) (fun _ => id)
          (fun _ _ happ => (List.pairwise_append.mp happ).1) hruns (pairwise_persists hs hissues h)
          fun ev hev => hinders_answered (hready ev hev)
  constructor
  · exact fun hdone => hreturns.mp hdone.1
  · intro hnone
    obtain ⟨n, rfl⟩ := hreturns.mpr hnone
    exact ⟨⟨n, rfl⟩, processesAll_of_runs hruns⟩

end Phase

/-- Two executions are queued, under ids 0 and 2. -/
def pairDatabase : Database (Fin 2) :=
  Db.init (fun t n => match t, n with
    | .execution, 0 => some smallExecution
    | .execution, 2 => some smallExecution
    | .workflow, 1 => some smallWorkflow
    | _, _ => none) 3 (.still 0) fun t n hn => by
      match n with
      | 0 => omega
      | 1 => omega
      | 2 => omega
      | n + 3 => cases t <;> rfl

/-- The worker drains the queue, and a user cancels the first execution. -/
def raceClients : Fin 2 → Tx ℕ
  | 0 => (Phase.queued (fun _ _ => .returned "a") 10).program smallSettings
  | 1 => (Txn.Tx.withSession (WorkflowExecutionService.cancel none 1 0 none)).bind fun _ => .ret 0

/-- Without the user, the worker processes both. -/
lemma completes_iff_pair : ∃ c, Pool.Reach (postgres (Fin 2)) (.start raceClients pairDatabase) c
    ∧ ∃ n, c.procs 0 = some (.ret n)
      ∧ ((∃ m, (.ok n : Except Exn ℕ) = .ok m)
          ∧ (Phase.queued (fun _ _ => .returned "a") 10).ProcessesAll smallSettings
            (history (postgres (Fin 2)) 0 c.trace)
        ↔ ∀ ev ∈ own 0 c.trace, ¬ LosesRace ev) := by
  have hrun : ((Pool.start raceClients pairDatabase).run (postgres (Fin 2))
      (List.replicate 21 (.step 0))).any (fun c => c.returned 0) = true := by
    decide +kernel
  obtain ⟨c, hc, hret⟩ := Pool.exists_of_run hrun
  obtain ⟨n, hn⟩ := Pool.returned_iff.mp hret
  exact ⟨c, hc, n, hn, Phase.completes_iff (.queued (fun _ _ => .returned "a") 10) rfl
    (Db.settled_init _ _ _ _) hc hn rfl⟩

/-- The statement lists execution `n` in a batch of the drain. -/
def lists (n : ℕ) (ev : Happened (Fin 2)) : Bool :=
  match ev.stmt with
  | .scan (.getQueuedForOrg org) =>
      (ev.before.rows ev.pid (.getQueuedForOrg org)).any fun row => row.1 = n
  | _ => false

/-- The statement reads or writes execution `n`. -/
def addresses (n : ℕ) (ev : Happened (Fin 2)) : Bool :=
  match ev.stmt with
  | .select .execution m => m = n
  | .update (.transition _) m => m = n
  | _ => false

/-- **A lost race aborts the drain**: the first execution of the batch is cancelled after the worker
has listed both, and the worker dies without a look at the second, which stays queued. -/
theorem race_aborts_drain :
    ∃ c, Pool.Reach (postgres (Fin 2)) (.start raceClients pairDatabase) c
      ∧ (c.procs 0).bind Prog.result? = some (.error .missingGreenlet)
      ∧ (∃ ev ∈ own 0 c.trace, lists 2 ev = true) ∧ (∀ ev ∈ own 0 c.trace, addresses 2 ev = false)
      ∧ c.store.committed .execution 2 = some smallExecution := by
  have hrun : ((Pool.start raceClients pairDatabase).run (postgres (Fin 2))
      (List.replicate 3 (.step 0) ++ List.replicate 5 (.step 1) ++ List.replicate 5 (.step 0))).any
        (fun c => decide ((c.procs 0).bind Prog.result? = some (.error .missingGreenlet))
          && (own 0 c.trace).any (lists 2) && (own 0 c.trace).all (fun ev => !addresses 2 ev)
          && decide (c.store.committed .execution 2 = some smallExecution)) = true := by
    decide +kernel
  obtain ⟨c, hc, hdied⟩ := Pool.exists_of_run hrun
  simp only [Bool.and_eq_true, decide_eq_true_eq, List.any_eq_true, List.all_eq_true,
    Bool.not_eq_true'] at hdied
  obtain ⟨⟨⟨hresult, hlists⟩, haddresses⟩, hrow⟩ := hdied
  exact ⟨c, hc, hresult, hlists, haddresses, hrow⟩

end Automation
