import AgencyOS.Automation.FounderExecution
import AgencyOS.Automation.LinkedRequests

/-!
The outcome of an approved proposal.

The approval is committed first; the action and the record of its outcome share the transaction that
follows.  An error before the task is flushed is recorded there.  After a failed flush the session
refuses to record anything, and is rolled back.

* `ReachesFlush`, `Storable`: which proposals come to the flush of a task, and which tasks the
  database takes;
* `ends_execute`: what an execution ends in;
* `Ready`, `ends_ready`, `ends_refused`: the approvals that come to an execution, and all others;
* `Atomic`, `atomic_iff`: **deciding a proposal is atomic exactly when** the database takes every task
  that is flushed.
-/

namespace Automation

open Txn FounderActionService FounderActionProposalRepository

/-! ### What is executed -/

/-- The value is a string. -/
def JsonValue.isStr : JsonValue → Bool
  | str _ => true
  | other _ _ => false

/-- The value of a key, when it is neither missing nor falsy. -/
def payloadEntry (payload : JsonObject) (key : String) : Option JsonValue :=
  (payloadGet payload key).filter (·.truthy)

lemma filter_truthy (payload : JsonObject) (key : String) :
    (payloadGet payload key).filter (·.truthy) = payloadEntry payload key := rfl

/-- The title of the task. -/
def taskTitle (p : Proposal) : String :=
  match payloadEntry p.payload "title" with
  | some (.str title) => title
  | _ => p.title

/-- The time that is read from the value of `due_at`. -/
def Readers.dueAt (readers : Readers) (raw : JsonValue) : Except DateError Time :=
  readers.fromisoformat (raw.text.replace "Z" "+00:00")

/-- Executing the proposal comes to the flush of a task. -/
structure ReachesFlush (readers : Readers) (p : Proposal) : Prop where
  action : p.actionType = .createTask
  priority : ∀ raw, payloadEntry p.payload "priority" = some raw → raw.isStr = true
  dueAt : ∀ raw, payloadEntry p.payload "due_at" = some raw → readers.dueAt raw ≠ .error .overflow

/-- The database takes the task of the proposal. -/
structure Storable (readers : Readers) (users : ℕ → Option User) (p : Proposal) : Prop where
  title : ∀ raw, payloadEntry p.payload "title" = some raw → raw.isStr = true
  description : ∀ raw, payloadGet p.payload "description" = some raw → raw.isStr = true
  dueAt : ∀ raw t, payloadEntry p.payload "due_at" = some raw → readers.dueAt raw = .ok t →
    readers.writable t = true
  notBlank : isBlank (taskTitle p) = false
  assignee : ∀ raw u, payloadEntry p.payload "assignee_user_id" = some raw →
    readers.uuid raw.text = some u → (users u).isSome = true

/-- What is flushed, and whether it is stored, is not a matter of the proposal's own lifecycle. -/
lemma flush_iff {readers : Readers} {users : ℕ → Option User} {p q : Proposal}
    (haction : q.actionType = p.actionType) (hpayload : q.payload = p.payload) (htitle : q.title = p.title) :
    (ReachesFlush readers q → Storable readers users q)
      ↔ (ReachesFlush readers p → Storable readers users p) := by
  have hname : taskTitle q = taskTitle p := by rw [taskTitle, taskTitle, hpayload, htitle]
  have hreaches : ReachesFlush readers q ↔ ReachesFlush readers p := by
    constructor <;> rintro ⟨h₁, h₂, h₃⟩ <;> constructor <;> simp_all
  have hstorable : Storable readers users q ↔ Storable readers users p := by
    constructor <;> rintro ⟨h₁, h₂, h₃, h₄, h₅⟩ <;> constructor <;> simp_all
  rw [hreaches, hstorable]

/-- What an execution adds to the tasks: one task, or nothing when the action is no task. -/
def Effect (p : Proposal) (tasks tasks' : ℕ → Option Task) : Prop :=
  if p.actionType = .createTask then
    ∃ k task, tasks k = none ∧ tasks' = Function.update tasks k (some task)
  else tasks' = tasks

/-! ### The execution -/

section Execute

variable {ι : Type} [DecidableEq ι] {i : ι} {s : Database ι} {v c : Rowset automation}
  {readers : Readers} {p : Proposal}

/-- A priority that is no text has no `lower`. -/
lemma taskPriority_cases (payload : JsonObject) :
    (∃ priority, taskPriority payload = .ret priority
        ∧ ∀ raw, payloadEntry payload "priority" = some raw → raw.isStr = true)
      ∨ taskPriority payload = .raise (.other "AttributeError")
        ∧ ∃ raw, payloadEntry payload "priority" = some raw ∧ raw.isStr = false := by
  rw [taskPriority, ← payloadEntry]
  cases payloadEntry payload "priority" with
  | none => exact .inl ⟨_, rfl, by simp⟩
  | some raw =>
      cases raw with
      | str text =>
          refine .inl ?_
          dsimp only
          split <;> exact ⟨_, rfl, fun _ h => Option.some.inj h ▸ rfl⟩
      | other text truthy => exact .inr ⟨rfl, _, rfl, rfl⟩

/-- A due time is read, left out, or overflows. -/
lemma taskDueAt_cases (readers : Readers) (payload : JsonObject) :
    (∃ due, taskDueAt readers payload = .ret due
        ∧ (∀ raw, payloadEntry payload "due_at" = some raw → readers.dueAt raw ≠ .error .overflow)
        ∧ ∀ t, due = some t ↔ ∃ raw, payloadEntry payload "due_at" = some raw ∧ readers.dueAt raw = .ok t)
      ∨ taskDueAt readers payload = .raise (.other "OverflowError")
        ∧ ∃ raw, payloadEntry payload "due_at" = some raw ∧ readers.dueAt raw = .error .overflow := by
  rw [taskDueAt, ← payloadEntry]
  cases payloadEntry payload "due_at" with
  | none => exact .inl ⟨none, rfl, by simp, by simp⟩
  | some raw =>
      dsimp only
      rw [← Readers.dueAt]
      cases hdue : readers.dueAt raw with
      | ok t =>
          refine .inl ⟨some t, rfl, ?_, ?_⟩
          · rintro _ ⟨⟩
            simp [hdue]
          · simp [hdue]
      | error e =>
          cases e with
          | value =>
              refine .inl ⟨none, rfl, ?_, ?_⟩
              · rintro _ ⟨⟩
                simp [hdue]
              · simp [hdue]
          | overflow => exact .inr ⟨rfl, raw, rfl, hdue⟩

/-- Only a text can be bound. -/
lemma textColumn_cases (value : Option JsonValue) :
    (∃ text, textColumn value = .ret text ∧ (∀ raw, value = some raw → raw.isStr = true)
        ∧ ∀ title, value = some (.str title) → text = some title)
      ∨ textColumn value = .raise flushFailed ∧ ∃ raw, value = some raw ∧ raw.isStr = false := by
  match value with
  | none => exact .inl ⟨none, rfl, nofun, nofun⟩
  | some (.str text) =>
      refine .inl ⟨some text, rfl, fun _ h => Option.some.inj h ▸ rfl, ?_⟩
      rintro _ ⟨⟩
      rfl
  | some (.other text truthy) => exact .inr ⟨rfl, _, rfl, rfl⟩

/-- The title that is bound. -/
lemma titleColumn_cases (p : Proposal) :
    (∃ text, textColumn ((payloadEntry p.payload "title").or (some (.str p.title))) = .ret text
        ∧ text.getD p.title = taskTitle p
        ∧ ∀ raw, payloadEntry p.payload "title" = some raw → raw.isStr = true)
      ∨ textColumn ((payloadEntry p.payload "title").or (some (.str p.title))) = .raise flushFailed
        ∧ ∃ raw, payloadEntry p.payload "title" = some raw ∧ raw.isStr = false := by
  rw [taskTitle]
  match payloadEntry p.payload "title" with
  | none => exact .inl ⟨_, rfl, rfl, nofun⟩
  | some (.str text) => exact .inl ⟨_, rfl, rfl, fun _ h => Option.some.inj h ▸ rfl⟩
  | some (.other text truthy) => exact .inr ⟨rfl, _, rfl, rfl⟩

/-- **What an execution ends in.**  An error of the flush, when the database does not take the task; an
error before the flush; or the effect of the action, in the transaction. -/
def ExecutionEnds (readers : Readers) (p : Proposal) (i : ι) (v c : Rowset automation)
    (x : Except Exn JsonObject) (s' : Database ι) : Prop :=
  (¬ (ReachesFlush readers p → Storable readers (v .user) p) ∧ Seen i s' v c ∧ x = .error flushFailed)
    ∨ (ReachesFlush readers p → Storable readers (v .user) p)
      ∧ ((Seen i s' v c ∧ ∃ e, e ≠ flushFailed ∧ x = .error e)
        ∨ ∃ v' reference, Seen i s' v' c ∧ x = .ok reference ∧ (∀ t, t ≠ .task → v' t = v t)
          ∧ Effect p (v .task) (v' .task))

/-- The flush fails. -/
lemma ExecutionEnds.of_not_storable (h : Seen i s v c) (hreaches : ReachesFlush readers p)
    (hnot : ¬ Storable readers (v .user) p) : ExecutionEnds readers p i v c (.error flushFailed) s :=
  .inl ⟨fun hstored => hnot (hstored hreaches), h, rfl⟩

/-- The execution raises before the flush. -/
lemma ExecutionEnds.of_not_reaches (h : Seen i s v c) (hnot : ¬ ReachesFlush readers p) {e : Exn}
    (he : e ≠ flushFailed) : ExecutionEnds readers p i v c (.error e) s :=
  .inr ⟨fun hreaches => absurd hreaches hnot, .inl ⟨h, e, he, rfl⟩⟩

/-- The task is in the transaction. -/
lemma ExecutionEnds.of_task (h : Seen i s v c) (haction : p.actionType = .createTask)
    (hstorable : Storable readers (v .user) p) (task : Task) (reference : JsonObject) :
    ExecutionEnds readers p i v c (.ok reference) (Db.effect i (.insert (.task task)) s) := by
  refine .inr ⟨fun _ => hstorable, .inr ⟨_, reference, h.insert (.task task), rfl, ?_, ?_⟩⟩
  · exact fun t ht => put_of_ne (S := automation) v _ _ ht
  · rw [Effect, if_pos haction]
    exact ⟨s.fresh, task, (h.fresh .task).1, put_same (S := automation) v .task _ _⟩

/-- Creating the task once its texts are bound: the driver, the check on the title and the foreign key. -/
lemma ends_insertTask (h : Seen i s v c) (hreaches : ReachesFlush readers p)
    (htitle : ∀ raw, payloadEntry p.payload "title" = some raw → raw.isStr = true)
    (hdescription : ∀ raw, payloadGet p.payload "description" = some raw → raw.isStr = true)
    {due : Option Time} (hdue : ∀ t, due = some t ↔
      ∃ raw, payloadEntry p.payload "due_at" = some raw ∧ readers.dueAt raw = .ok t)
    {task : Task} {reference : ℕ → JsonObject} :
    Ends i (do
      if due.any (!readers.writable ·) || isBlank (taskTitle p) then
        throw flushFailed
      if let some user := (payloadEntry p.payload "assignee_user_id").bind (readers.uuid ·.text) then
        let found ← Tx.select (S := automation) Table.user user
        if found.isNone then
          throw flushFailed
      let taskId ← Tx.insert (S := automation) (.task task)
      return reference taskId) s (ExecutionEnds readers p i v c) := by
  by_cases hchecks : (due.any (!readers.writable ·) || isBlank (taskTitle p)) = true
  · rw [if_pos hchecks]
    refine .of_not_storable h hreaches fun hstorable => ?_
    rcases Bool.or_eq_true_iff.mp hchecks with hlate | hblank
    · obtain ⟨t, ht, hno⟩ := (Option.any_eq_true _ _).mp hlate
      obtain ⟨raw, hraw, hok⟩ := (hdue t).mp ht
      rw [hstorable.dueAt raw t hraw hok] at hno
      cases hno
    · exact nomatch hblank.symm.trans hstorable.notBlank
  · rw [if_neg hchecks]
    have hwritable : ∀ t, due = some t → readers.writable t = true := by
      rintro t rfl
      by_contra hno
      exact hchecks (by simp [hno])
    have hnotBlank : isBlank (taskTitle p) = false := by
      by_contra hblank
      exact hchecks (by simp [hblank])
    cases hassignee : (payloadEntry p.payload "assignee_user_id").bind (readers.uuid ·.text) with
    | none =>
        refine ExecutionEnds.of_task h hreaches.action ⟨htitle, hdescription, ?_, hnotBlank, ?_⟩ task _
        · exact fun raw t hraw hok => hwritable t ((hdue t).mpr ⟨raw, hraw, hok⟩)
        · intro raw u hraw hu
          rw [hraw, Option.bind_some, hu] at hassignee
          cases hassignee
    | some user =>
        simp only [Prog.bind_eq, Tx.select, Prog.call_bind, Prog.ret_bind, h.ends_select]
        cases huser : v .user user with
        | none =>
            refine .of_not_storable h hreaches fun hstorable => ?_
            obtain ⟨raw, hraw, hu⟩ := Option.bind_eq_some_iff.mp hassignee
            have hsome := hstorable.assignee raw user hraw hu
            rw [huser] at hsome
            cases hsome
        | some _ =>
            refine ExecutionEnds.of_task h hreaches.action ⟨htitle, hdescription, ?_, hnotBlank, ?_⟩ task _
            · exact fun raw t hraw hok => hwritable t ((hdue t).mpr ⟨raw, hraw, hok⟩)
            · intro raw u hraw hu
              rw [hraw, Option.bind_some, hu] at hassignee
              obtain rfl := Option.some.inj hassignee
              rw [huser]
              rfl

/-- Creating the task checks its entries in the order of the code. -/
lemma ends_executeCreateTask (h : Seen i s v c) (haction : p.actionType = .createTask) (actor : ℕ) :
    Ends i (executeCreateTask readers p actor) s (ExecutionEnds readers p i v c) := by
  unfold executeCreateTask
  rcases taskPriority_cases p.payload with ⟨priority, hpriority, htext⟩ | ⟨hraise, raw, hraw, hno⟩
  · rcases taskDueAt_cases readers p.payload with ⟨due, hdue, hkept, hread⟩ | ⟨hraise, raw, hraw, hover⟩
    · have hreaches : ReachesFlush readers p := ⟨haction, htext, hkept⟩
      simp only [hpriority, hdue, Prog.bind_eq, Prog.ret_bind, filter_truthy]
      rcases titleColumn_cases p with ⟨title, htitle, hname, htitles⟩ | ⟨hraise, raw, hraw, hno⟩
      · rcases textColumn_cases (payloadGet p.payload "description") with
          ⟨description, hdescription, hdescriptions, -⟩ | ⟨hraise, raw, hraw, hno⟩
        · simp only [htitle, hdescription, hname, Prog.ret_bind]
          exact ends_insertTask h hreaches htitles hdescriptions hread
        · simp only [htitle, hraise, Prog.ret_bind, Prog.raise_bind]
          refine .of_not_storable h hreaches fun hstorable => ?_
          exact absurd ((hstorable.description raw hraw).symm.trans hno) (by simp)
      · simp only [hraise, Prog.raise_bind]
        refine .of_not_storable h hreaches fun hstorable => ?_
        exact absurd ((hstorable.title raw hraw).symm.trans hno) (by simp)
    · simp only [hpriority, hraise, Prog.bind_eq, Prog.ret_bind, Prog.raise_bind]
      exact .of_not_reaches h (fun hreaches => hreaches.dueAt raw hraw hover) (by simp [flushFailed])
  · simp only [hraise, Prog.bind_eq, Prog.raise_bind]
    refine .of_not_reaches h (fun hreaches => ?_) (by simp [flushFailed])
    exact absurd ((hreaches.priority raw hraw).symm.trans hno) (by simp)

/-- What an execution ends in. -/
lemma ends_execute (h : Seen i s v c) (actor : ℕ) :
    Ends i (execute readers p actor) s (ExecutionEnds readers p i v c) := by
  unfold execute
  split_ifs with haction
  · exact ends_executeCreateTask h haction actor
  · refine .inr ⟨fun hreaches => absurd hreaches.action haction, .inr ⟨v, _, h, rfl, fun _ _ => rfl, ?_⟩⟩
    rw [Effect, if_neg haction]

/-! ### The record of the outcome -/

/-- The proposal is FAILED and there is no effect, or it is SUCCEEDED and there is one. -/
def Recorded (n : ℕ) (p : Proposal) (c c' : Rowset automation) : Prop :=
  (c' .proposal n).map (·.status) = some .failed ∧ c' .task = c .task
    ∨ (c' .proposal n).map (·.status) = some .succeeded ∧ Effect p (c .task) (c' .task)

variable {n : ℕ} {stored : Proposal}

/-- What is committed after the approval: the outcome, unless the flush fails; then nothing. -/
lemma ends_outcome (h : Seen i s c c) (hstored : c .proposal n = some stored)
    (happroved : p.status = .approved) (actor : ℕ) :
    Ends i (executeApproved readers n p actor) s fun _ s' => ∃ v' c', Seen i s' v' c'
      ∧ ((ReachesFlush readers p → Storable readers (c .user) p) → Recorded n p c c')
      ∧ (¬ (ReachesFlush readers p → Storable readers (c .user) p) → c' = c) := by
  unfold executeApproved
  rw [Prog.bind_eq]
  have hrecorded : ∀ {s₁ : Database ι} {v₁ : Rowset automation} (reference : JsonObject)
      {outcome : ProposalStatus}, Seen i s₁ v₁ c → (∀ t, t ≠ .task → v₁ t = c t) →
      (outcome = .succeeded ∨ outcome = .failed) →
      Ends i ((recordExecution n p outcome actor reference).bind fun q => save n p q) s₁
        fun _ s' => ∃ c', Seen i s' c' c' ∧ (c' .proposal n).map (·.status) = some outcome
          ∧ c' .task = v₁ .task := by
    intro s₁ v₁ reference outcome hseen hkept houtcome
    have hstored₁ : v₁ .proposal n = some stored := by rw [hkept .proposal nofun, hstored]
    refine (ends_record hseen hstored₁ happroved actor reference houtcome).mono ?_
    rintro _ s₂ ⟨c', q, hseen', hothers, hproposals, hstatus, -, -⟩
    exact ⟨c', hseen', by rw [hproposals, Function.update_self, Option.map_some, hstatus],
      hothers .task nofun⟩
  refine Ends.bind (R := fun x s' => match x with
    | .ok (some _) => (ReachesFlush readers p → Storable readers (c .user) p) ∧ ∃ v', Seen i s' v' c
        ∧ (∀ t, t ≠ .task → v' t = c t) ∧ Effect p (c .task) (v' .task)
    | .ok none => (ReachesFlush readers p → Storable readers (c .user) p) ∧ Seen i s' c c
    | .error _ => ¬ (ReachesFlush readers p → Storable readers (c .user) p) ∧ Seen i s' c c) ?_ ?_ ?_
  · refine ends_tryCatch.2 ((ends_execute h actor).bind (fun reference s' hs' => ?_) fun e s' hs' => ?_)
    · rcases hs' with ⟨-, -, hok⟩ | ⟨htaken, ⟨-, e, -, hok⟩ | ⟨v', reference', hseen, -, hkept, heffect⟩⟩
      · cases hok
      · cases hok
      · exact ⟨htaken, v', hseen, hkept, heffect⟩
    · rcases hs' with ⟨hnot, hseen, he⟩ | ⟨htaken, ⟨hseen, e', he', he⟩ | ⟨v', reference, -, he, -⟩⟩
      · obtain rfl := Except.error.inj he
        exact ⟨hnot, hseen⟩
      · obtain rfl := Except.error.inj he
        dsimp only
        rw [if_neg he']
        exact ⟨htaken, hseen⟩
      · cases he
  · rintro reference s' hs'
    cases reference with
    | none =>
        obtain ⟨htaken, hseen⟩ := hs'
        refine (hrecorded _ hseen (fun _ _ => rfl) (Or.inr rfl)).mono ?_
        rintro _ s₂ ⟨c', hseen', hstatus, htasks⟩
        exact ⟨c', c', hseen', fun _ => Or.inl ⟨hstatus, htasks⟩, fun hnot => absurd htaken hnot⟩
    | some reference =>
        obtain ⟨htaken, v', hseen, hkept, heffect⟩ := hs'
        refine (hrecorded _ hseen hkept (Or.inl rfl)).mono ?_
        rintro _ s₂ ⟨c', hseen', hstatus, htasks⟩
        exact ⟨c', c', hseen', fun _ => Or.inr ⟨hstatus, htasks ▸ heffect⟩, fun hnot => absurd htaken hnot⟩
  · rintro e s' ⟨hnot, hseen⟩
    exact ⟨c, c, hseen, fun htaken => absurd htaken hnot, fun _ => rfl⟩

end Execute

/-! ### The approval -/

section Approve

variable {ι : Type} [DecidableEq ι] {i : ι} {s : Database ι} {c : Rowset automation}
  {readers : Readers} {org actor n : ℕ} {p : Proposal}

/-- An approval of the proposal comes to its execution: nothing refuses it. -/
structure Ready (s : Database ι) (org user n : ℕ) (p : Proposal) : Prop where
  proposal : s.committed .proposal n = some p
  organization : p.organizationId = org
  enabled : (s.committed .organization org).any (fun o => o.settingsWellFormed && !o.aiKillSwitch) = true
  proposed : p.status = .proposed
  inTime : p.expiresAt.any (· < s.time) = false
  actor : (s.committed .user user).isSome = true
  request : ∃ a r, p.approvalRequestId = some a ∧ s.committed .approvalRequest a = some r
    ∧ CanDecide org (s.clock.read (s.ticks + 1)) r

/-- An approval that comes to the execution commits the outcome, unless the flush fails; then the
proposal is left APPROVED. -/
lemma ends_ready (h : Seen i s c c) (hready : Ready s org actor n p) (note : Option String) :
    Ends i (decideProposal readers org actor n true note) s fun _ s' => ∃ v' c', Seen i s' v' c'
      ∧ ((ReachesFlush readers p → Storable readers (c .user) p) → Recorded n p c c')
      ∧ (¬ (ReachesFlush readers p → Storable readers (c .user) p) →
        (c' .proposal n).map (·.status) = some .approved) := by
  obtain ⟨hp, horg, henabled, hopen, htime, hactor, a, r, ha, hr, hrequest⟩ := hready
  rw [h.committed] at hp henabled hactor hr
  obtain ⟨user, huser⟩ := Option.isSome_iff_exists.mp hactor
  unfold decideProposal getProposal FounderActionProposalRepository.get assertAiEnabled isAiEnabled
    loadActor raise utcnow commitWithRetry
  simp only [Prog.bind_eq, Tx.select, Tx.now, Prog.call_bind, Prog.ret_bind, Prog.pure_eq,
    Prog.throw_eq, h.ends_select, hp, Option.filter, horg, decide_true, if_true, henabled, hopen, ne_eq,
    not_true, if_false, Bool.not_true, Bool.false_eq_true, ends_now, htime, ha, h.now.ends_select, huser,
    Option.isNone_some]
  refine (ends_decide h.now org actor a true note).bind ?_ ?_
  · rintro _ s' ⟨c', hseen, hothers, -⟩
    have hstored : c' .proposal n = some p := by rw [hothers .proposal (by simp) (by simp), hp]
    simp only [Prog.ret_bind, ends_now, if_true, applyTransition, hopen, allowedTransitions,
      stampsDecision, reduceCtorEq, if_false, List.mem_cons, true_or, not_true_eq_false, Prog.pure_eq]
    refine (ends_save _ _ hseen.now hstored).bind (fun _ s₁ hs₁ => ?_) fun e s₁ hs₁ => (by cases hs₁.1)
    obtain ⟨-, w, hw, hproposals, hkept⟩ := hs₁
    have hnew := congrFun hproposals n
    rw [Function.update_self] at hnew
    refine (ends_outcome hw hnew rfl actor).mono ?_
    rintro _ s₂ ⟨v', c'', hseen', hrecorded, hlost⟩
    have husers : w .user = c .user := by rw [hkept .user (by simp), hothers .user (by simp) (by simp)]
    have htasks : w .task = c .task := by rw [hkept .task (by simp), hothers .task (by simp) (by simp)]
    rw [husers] at hrecorded hlost
    refine ⟨v', c'', hseen', fun htaken => ?_, fun hnot => ?_⟩
    · have houtcome := hrecorded ((flush_iff (by rfl) (by rfl) (by rfl)).mpr htaken)
      rw [Recorded, Effect, htasks] at houtcome
      rw [Recorded, Effect]
      exact houtcome
    · rw [hlost ((flush_iff (by rfl) (by rfl) (by rfl)).not.mpr hnot), hnew]
      simp [Proposal.flush, flushed, hopen]
  · rintro e s' ⟨c', -, -, hnot, -⟩
    exact absurd hrequest (hnot r hr)

/-- The proposal is as it was, or has expired, and no task is created. -/
def Untouched (n : ℕ) (c c' : Rowset automation) : Prop :=
  (c' .proposal n = c .proposal n ∨ (c' .proposal n).map (·.status) = some .expired)
    ∧ c' .task = c .task

lemma Untouched.refl (n : ℕ) (c : Rowset automation) : Untouched n c c := ⟨.inl rfl, rfl⟩

/-- An approval that is refused executes nothing. -/
lemma ends_refused (h : Seen i s c c) (hnot : ∀ p, ¬ Ready s org actor n p) (note : Option String) :
    Ends i (decideProposal readers org actor n true note) s fun _ s' => ∃ v' c', Seen i s' v' c'
      ∧ Untouched n c c' := by
  unfold decideProposal getProposal FounderActionProposalRepository.get assertAiEnabled isAiEnabled
    loadActor raise utcnow commitWithRetry
  simp only [Prog.bind_eq, Tx.select, Tx.now, Prog.call_bind, Prog.ret_bind, Prog.pure_eq,
    Prog.throw_eq, h.ends_select]
  have hsame : ∀ {s' : Database ι}, Seen i s' c c → ∃ v' c', Seen i s' v' c' ∧ Untouched n c c' :=
    fun hseen => ⟨c, c, hseen, .refl n c⟩
  cases hp : c .proposal n with
  | none => exact hsame h
  | some p =>
      simp only [Option.filter]
      by_cases horg : p.organizationId = org
      swap
      · simp only [horg, decide_false]
        exact hsame h
      simp only [horg, decide_true, if_true, Prog.ret_bind, h.ends_select]
      cases hai : Option.any (fun org => org.settingsWellFormed && !org.aiKillSwitch)
          (c Table.organization org) with
      | false => exact hsame h
      | true =>
          by_cases hopen : p.status = .proposed
          swap
          · simp only [hopen, ne_eq, not_false_eq_true, if_true]
            exact hsame h
          simp only [hopen, ne_eq, not_true, if_false, Bool.not_true, Bool.false_eq_true, Prog.ret_bind,
            ends_now]
          cases htime : p.expiresAt.any (· < s.time) with
          | true =>
              -- too late: the expiry is committed
              simp only [if_true, FounderActionProposalRepository.markExpired, Tx.update, Prog.bind_eq,
                Prog.call_bind, Prog.ret_bind, h.now.ends_update]
              refine ⟨_, _, (h.now.update (.expireProposal org s.time) n).commit, .inr ?_,
                put_of_ne (S := automation) c _ _ (by simp)⟩
              have hguard : (Update.expireProposal org s.time).act.guard p = true := by
                show (decide (p.organizationId = org) && decide (p.status = .proposed)) = true
                simp [horg, hopen]
              rw [put_same (S := automation), Function.update_self, hp, Option.map_some,
                GuardedUpdate.step_of_guard hguard]
              rfl
          | false =>
              simp only [Bool.false_eq_true, if_false]
              cases ha : p.approvalRequestId with
              | none => exact hsame h.now
              | some a =>
                  simp only [h.now.ends_select]
                  cases hactor : c .user actor with
                  | none => exact hsame h.now
                  | some _ =>
                      refine (ends_decide h.now org actor a true note).bind ?_ ?_
                      · rintro _ s' ⟨c', -, -, r, -, hr, hrequest, -⟩
                        refine absurd ⟨?_, horg, ?_, hopen, htime, ?_, a, r, ha, ?_, hrequest⟩ (hnot p)
                        all_goals rw [h.committed]
                        · exact hp
                        · exact hai
                        · rw [hactor]
                          rfl
                        · exact hr
                      · rintro e s' ⟨c', hseen, hothers, -⟩
                        refine ⟨c', c', hseen, .inl ?_, ?_⟩
                        · exact congrFun (hothers .proposal (by simp) (by simp)) n
                        · exact hothers .task (by simp) (by simp)

/-! ### The promise -/

/-- The database after an approval in a session of its own. -/
def approveIn (readers : Readers) (i : ι) (org user n : ℕ) (note : Option String) (s : Database ι) :
    Database ι :=
  (alone i (client (decideProposal readers org user n true note)) s).2

/-- **What is promised of an approval.**  One that comes to the execution leaves the proposal FAILED
without an effect, or SUCCEEDED with one; all others leave it as it was, or EXPIRED. -/
structure Atomic (org user n : ℕ) (s s' : Database ι) : Prop where
  executed : ∀ p, Ready s org user n p → Recorded n p s.committed s'.committed
  refused : (∀ p, ¬ Ready s org user n p) → Untouched n s.committed s'.committed

/-- What a session has committed is what is left of it. -/
lemma committed_client {α : Type} {q : Tx α} {Q : Rowset automation → Prop}
    (hq : Ends i q s fun _ s' => ∃ v' c', Seen i s' v' c' ∧ Q c') :
    Q (alone i (client q) s).2.committed := by
  have hclient : Ends i (client q) s fun _ s' => Q s'.committed := by
    have hkept : ∀ s₁ : Database ι, (∃ v' c', Seen i s₁ v' c' ∧ Q c') → Q (s₁.rollback i).committed := by
      rintro s₁ ⟨v', c', hseen, hQ⟩
      rwa [Db.committed_rollback, hseen.committed]
    refine hq.withSession.bind ?_ ?_
    · rintro _ s' ⟨s₁, hs₁, rfl⟩
      exact hkept s₁ hs₁
    · rintro _ s' ⟨s₁, hs₁, rfl⟩
      exact hkept s₁ hs₁
  exact hclient

/-- **Deciding a proposal is atomic exactly when** the database takes every task that is flushed. -/
theorem atomic_iff (hs : s.Settled) (note : Option String) :
    Atomic org actor n s (approveIn readers i org actor n note s)
      ↔ ∀ p, Ready s org actor n p → ReachesFlush readers p →
        Storable readers (s.committed .user) p := by
  have h := Seen.of_settled hs i
  constructor
  · intro hatomic p hready
    by_contra hnot
    have hends : Ends i (decideProposal readers org actor n true note) s fun _ s' => ∃ v' c',
        Seen i s' v' c' ∧ (c' .proposal n).map (·.status) = some .approved :=
      (ends_ready h hready note).mono fun _ _ ⟨v', c', hseen, _, hleft⟩ => ⟨v', c', hseen, hleft hnot⟩
    have hleft := committed_client hends
    rcases hatomic.executed p hready with ⟨hfailed, -⟩ | ⟨hsucceeded, -⟩
    · exact nomatch hleft.symm.trans hfailed
    · exact nomatch hleft.symm.trans hsucceeded
  · intro hstored
    refine ⟨fun p hready => ?_, fun hnot => ?_⟩
    · exact committed_client ((ends_ready h hready note).mono fun _ _ ⟨v', c', hseen, hrecorded, _⟩ =>
        ⟨v', c', hseen, hrecorded (hstored p hready)⟩)
    · exact committed_client (ends_refused h hnot note)

end Approve

/-- A task with a title is created. -/
theorem atomic_openProposal :
    Atomic 1 2 1 (proposalDatabase openRequest openProposal)
      (approveIn noReaders () 1 2 1 none (proposalDatabase openRequest openProposal)) := by
  refine (atomic_iff (Db.settled_init _ _ _ _) none).mpr fun p hready _ => ?_
  obtain rfl : openProposal = p := Option.some.inj hready.proposal
  exact ⟨nofun, nofun, nofun, by decide, nofun⟩

/-- The assignee of the task is no user. -/
def strangerProposal : Proposal :=
  { openProposal with payload := [("assignee_user_id", .str "00000000-0000-0000-0000-000000000007")] }

/-- Readers that read one id. -/
def oneReader : Readers where
  fromisoformat _ := .error .value
  uuid text := if text = "00000000-0000-0000-0000-000000000007" then some 7 else none
  writable _ := true

/-- A task for a user who is not there: the flush fails, and the proposal is left APPROVED. -/
theorem not_atomic_strangerProposal :
    ¬ Atomic 1 2 1 (proposalDatabase openRequest strangerProposal)
      (approveIn oneReader () 1 2 1 none (proposalDatabase openRequest strangerProposal)) := by
  intro hatomic
  have hready : Ready (proposalDatabase (ι := Unit) openRequest strangerProposal) 1 2 1 strangerProposal :=
    ⟨rfl, rfl, rfl, rfl, by decide, rfl, 0, openRequest, rfl, rfl, rfl, rfl, by decide⟩
  have hreaches : ReachesFlush oneReader strangerProposal := ⟨rfl, nofun, nofun⟩
  have hstorable := (atomic_iff (Db.settled_init _ _ _ _) none).mp hatomic _ hready hreaches
  have huser := hstorable.assignee _ 7 rfl (by decide)
  cases huser

end Automation
