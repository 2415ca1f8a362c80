import AgencyOS.Accounts.Model
import AgencyOS.Python.Calendar
import AgencyOS.Python.Collections
import AgencyOS.Python.Rotation
import AgencyOS.Txn.OrderBy

/-!
The assignment of leads to the users of an organization.

The rule of an organization keeps the place of the user who was last assigned a lead, and the next
lead goes to the place after it.

* `autoAssign`, `assignUnassigned`: the assignment of one lead, and the sweep;
* `Progress`: the turns that were taken, and the place that the rule keeps;
* `Run`, `fair_of_run`: **whatever the sequence of assignments and sweeps, every candidate has a
  fair share of the leads**.
-/

namespace Assignment

open Python Txn Accounts

/-! ### The store -/

inductive AssignmentStrategy where
  | manual | roundRobin | rules
  deriving DecidableEq, Repr

def AssignmentStrategy.value : AssignmentStrategy → String
  | .manual => "manual"
  | .roundRobin => "round_robin"
  | .rules => "rules"

inductive AssignmentMethod where
  | manual | roundRobin | rules | bulk | unassigned
  deriving DecidableEq, Repr

/-- `AssignmentMethod(strategy.value)`. -/
def AssignmentMethod.ofStrategy : AssignmentStrategy → AssignmentMethod
  | .manual => .manual
  | .roundRobin => .roundRobin
  | .rules => .rules

/-- The rule of an organization, with the texts of the sources that its conditions name. -/
structure LeadAssignmentRule where
  strategy : AssignmentStrategy
  enabled : Bool
  targetUserIds : List ℕ
  sourceIds : List String
  lastAssignedIndex : ℤ
  deriving DecidableEq, Repr

structure Member where
  id : ℕ
  organizationId : ℕ
  fullName : String
  role : UserRole
  isActive : Bool
  deriving DecidableEq, Repr

structure Lead where
  id : ℕ
  organizationId : ℕ
  leadSourceId : Option ℕ
  ownerUserId : Option ℕ
  deletedAt : Option Datetime
  createdAt : Datetime
  deriving DecidableEq, Repr

structure LeadAssignmentLog where
  organizationId : ℕ
  leadId : ℕ
  fromUserId : Option ℕ
  toUserId : Option ℕ
  method : AssignmentMethod
  assignedByUserId : Option ℕ
  reason : Option String
  deriving DecidableEq, Repr

/-- A `LEAD_ASSIGNED` entry of the activity log. -/
structure LeadAssigned where
  organizationId : ℕ
  leadId : ℕ
  description : String
  toUserId : ℕ
  strategy : String
  occurredAt : Datetime
  deriving DecidableEq, Repr

/-- The tables; an organization has one rule at most. -/
structure Store where
  users : List Member
  usersNodup : (users.map Member.id).Nodup
  rules : ℕ → Option LeadAssignmentRule
  leads : List Lead
  logs : List LeadAssignmentLog
  activity : List LeadAssigned

def salesRoles : List UserRole := [.member, .salesAgent, .manager, .admin]

/-- `list_assignable`. -/
def listAssignable (s : Store) (organizationId : ℕ) (userIds : List ℕ) : List Member :=
  sortedBy Member.id (s.users.filter fun user => user.organizationId = organizationId
    && user.isActive && user.role ∈ salesRoles && (userIds = [] || user.id ∈ userIds))

/-- `_candidates`, of a rule that is there. -/
def candidates (s : Store) (organizationId : ℕ) (rule : LeadAssignmentRule) : List Member :=
  listAssignable s organizationId rule.targetUserIds

/-- The leads of `list_unassigned`, before its order and its limit. -/
def unassigned (s : Store) (organizationId : ℕ) : List Lead :=
  s.leads.filter fun lead => lead.organizationId = organizationId
    && lead.deletedAt = none && lead.ownerUserId = none

/-- An answer to the query of `list_unassigned`, before its limit. -/
structure Unassigned (s : Store) (organizationId : ℕ) where
  rows : List Lead
  ordered : OrderedBy Lead.createdAt (unassigned s organizationId) rows

/-! ### The service -/

/-- `_next_from_candidates`, with the rule as it then stands. -/
def nextFromCandidates (rule : LeadAssignmentRule) (candidates : List Member) :
    Option (Member × LeadAssignmentRule) :=
  if candidates = [] then none
  else
    let idx := (rule.lastAssignedIndex + 1) % candidates.length
    (candidates[idx.toNat]?).map fun user => (user, { rule with lastAssignedIndex := idx })

variable (str : Option ℕ → String)

/-- `_matches_conditions`. -/
def matchesConditions (rule : LeadAssignmentRule) (lead : Lead) : Bool :=
  if rule.sourceIds = [] then false else str lead.leadSourceId ∈ rule.sourceIds

/-- The new owner of a lead, and the entry of the assignment log. -/
def Store.assign (s : Store) (organizationId : ℕ) (lead : Lead) (user : Member)
    (method : AssignmentMethod) (reason : String) : Store :=
  { s with
    leads := s.leads.map fun row => if row.id = lead.id then { row with ownerUserId := some user.id }
      else row
    logs := s.logs ++ [⟨organizationId, lead.id, none, some user.id, method, none, some reason⟩] }

/-- The rule as it is written with the next flush. -/
def Store.saveRule (s : Store) (organizationId : ℕ) (rule : LeadAssignmentRule) : Store :=
  { s with rules := Function.update s.rules organizationId (some rule) }

/-- Whether a rule leaves a lead alone. -/
def passesOver (rule : LeadAssignmentRule) (lead : Lead) : Bool :=
  rule.strategy = .rules && !matchesConditions str rule lead

/-- `auto_assign`. -/
def autoAssign (s : Store) (organizationId : ℕ) (lead : Lead) (occurredAt : Datetime) : Store :=
  if lead.ownerUserId ≠ none then s
  else
    match s.rules organizationId with
    | none => s
    | some rule =>
        if ¬ rule.enabled ∨ rule.strategy = .manual then s
        else if passesOver str rule lead then s
        else
          match nextFromCandidates rule (candidates s organizationId rule) with
          | none => s
          | some (user, rule) =>
              let s := (s.assign organizationId lead user (.ofStrategy rule.strategy)
                "auto-assignment").saveRule organizationId rule
              { s with
                activity := s.activity ++ [⟨organizationId, lead.id,
                  "Auto-assigned to " ++ user.fullName, user.id, rule.strategy.value, occurredAt⟩] }

/-- The loop of the sweep, with the rule as it is changed and the count. -/
def sweep (organizationId : ℕ) (candidates : List Member) :
    List Lead → LeadAssignmentRule → Store → ℕ → LeadAssignmentRule × Store × ℕ
  | [], rule, s, count => (rule, s, count)
  | lead :: leads, rule, s, count =>
      if passesOver str rule lead then sweep organizationId candidates leads rule s count
      else
        match nextFromCandidates rule candidates with
        | none => sweep organizationId candidates leads rule s count
        | some (user, rule) =>
            sweep organizationId candidates leads rule
              (s.assign organizationId lead user .bulk "bulk assignment sweep") (count + 1)

/-- `assign_unassigned`, with the number of leads that were assigned. -/
def assignUnassigned {s : Store} {organizationId : ℕ} (answer : Unassigned s organizationId)
    (limit : ℕ) : Store × ℕ :=
  match s.rules organizationId with
  | none => (s, 0)
  | some rule =>
      if ¬ rule.enabled ∨ rule.strategy = .manual then (s, 0)
      else if candidates s organizationId rule = [] then (s, 0)
      else
        let (rule, s, count) := sweep str organizationId (candidates s organizationId rule)
          (answer.rows.take limit) rule s 0
        (s.saveRule organizationId rule, count)

/-! ### Runs -/

/-- The candidates of an organization; there are none without a rule. -/
def candidatesOf (s : Store) (organizationId : ℕ) : List Member :=
  ((s.rules organizationId).map (candidates s organizationId)).getD []

/-- The stores that assignments and sweeps lead to, in any order.  In between, other tables and rows
may change, but not the candidates nor the place that the rule keeps. -/
inductive Run (organizationId : ℕ) (start : Store) : Store → Prop where
  | start : Run organizationId start start
  | autoAssign {s} (lead : Lead) (occurredAt : Datetime) (hrun : Run organizationId start s) :
      Run organizationId start (autoAssign str s organizationId lead occurredAt)
  | assignUnassigned {s} (answer : Unassigned s organizationId) (limit : ℕ)
      (hrun : Run organizationId start s) :
      Run organizationId start (assignUnassigned str answer limit).1
  | others {s s'} (hrun : Run organizationId start s)
      (hcandidates : candidatesOf s' organizationId = candidatesOf s organizationId)
      (hindex : (s'.rules organizationId).map LeadAssignmentRule.lastAssignedIndex
        = (s.rules organizationId).map LeadAssignmentRule.lastAssignedIndex)
      (hlogs : s'.logs = s.logs) :
      Run organizationId start s'

/-- **What is promised of a run**: of the leads that it has assigned, every candidate has a fair
share. -/
def Fair (organizationId : ℕ) (start s : Store) : Prop :=
  ∃ assigned, s.logs = start.logs ++ assigned ∧ ∀ user ∈ candidatesOf start organizationId,
    FairShare (candidatesOf start organizationId).length assigned.length
      (assigned.countP fun log => log.toUserId = some user.id)

/-! ### The turns -/

/-- So many turns have been taken among the members, from a place on, since the log was `logs₀`. -/
structure Progress (members : List Member) (place turn : ℕ) (logs₀ logs : List LeadAssignmentLog)
    (index : ℤ) : Prop where
  index : members ≠ [] → (index + 1) % members.length = ((place + turn) % members.length : ℕ)
  logs : ∃ assigned, logs = logs₀ ++ assigned
    ∧ assigned.map LeadAssignmentLog.toUserId
      = (turns place members.length turn).map fun i => (members.map Member.id)[i]?

variable {str} {members : List Member} {place turn : ℕ} {logs₀ logs : List LeadAssignmentLog}
  {rule rule' : LeadAssignmentRule} {user : Member} {organizationId : ℕ} {s start : Store}

lemma nextFromCandidates_some (h : nextFromCandidates rule members = some (user, rule')) :
    members ≠ []
      ∧ members[((rule.lastAssignedIndex + 1) % members.length).toNat]? = some user
      ∧ rule' = { rule with lastAssignedIndex := (rule.lastAssignedIndex + 1) % members.length } := by
  rw [nextFromCandidates] at h
  split_ifs at h with hne
  obtain ⟨found, hfound, heq⟩ := Option.map_eq_some_iff.1 h
  cases heq
  exact ⟨hne, hfound, rfl⟩

/-- **The next candidate takes the next turn.** -/
lemma Progress.next (h : Progress members place turn logs₀ logs rule.lastAssignedIndex)
    (hnext : nextFromCandidates rule members = some (user, rule')) (log : LeadAssignmentLog)
    (hlog : log.toUserId = some user.id) :
    Progress members place (turn + 1) logs₀ (logs ++ [log]) rule'.lastAssignedIndex := by
  obtain ⟨hne, huser, rfl⟩ := nextFromCandidates_some hnext
  obtain ⟨assigned, hassigned, hturns⟩ := h.logs
  rw [h.index hne, Int.toNat_natCast] at huser
  constructor
  · intro _
    dsimp only
    rw [h.index hne]
    push_cast
    rw [← add_assoc, Int.emod_add_emod]
  · refine ⟨assigned ++ [log], ?_, ?_⟩
    · rw [hassigned, List.append_assoc]
    · rw [List.map_append, List.map_singleton, hturns, turns_succ, List.map_append,
        List.map_singleton, hlog, List.getElem?_map, huser, Option.map_some]

variable (str organizationId) in
/-- A sweep takes turns. -/
lemma sweep_progress (leads : List Lead) (count : ℕ)
    (h : Progress members place turn logs₀ s.logs rule.lastAssignedIndex) :
    ∃ turn', Progress members place turn' logs₀
        (sweep str organizationId members leads rule s count).2.1.logs
        (sweep str organizationId members leads rule s count).1.lastAssignedIndex
      ∧ (sweep str organizationId members leads rule s count).1.targetUserIds = rule.targetUserIds
      ∧ (sweep str organizationId members leads rule s count).2.1.users = s.users := by
  induction leads generalizing rule s turn count with
  | nil => exact ⟨turn, h, rfl, rfl⟩
  | cons lead leads ih =>
      rw [sweep]
      split_ifs with hpass
      · exact ih count h
      · split
        · exact ih count h
        · next user rule' hnext =>
            obtain ⟨-, -, hrule'⟩ := nextFromCandidates_some hnext
            have hstep : Progress members place (turn + 1) logs₀
                (s.assign organizationId lead user .bulk "bulk assignment sweep").logs
                rule'.lastAssignedIndex := h.next hnext _ rfl
            obtain ⟨turn', hprogress, htargets, husers⟩ := ih (count + 1) hstep
            exact ⟨turn', hprogress, htargets.trans (by rw [hrule']), husers⟩

/-! ### Every candidate's share -/

/-- The place that the rule of an organization keeps. -/
def keptIndex (s : Store) (organizationId : ℕ) : ℤ :=
  ((s.rules organizationId).map LeadAssignmentRule.lastAssignedIndex).getD (-1)

/-- The place of the first turn. -/
def firstPlace (start : Store) (organizationId : ℕ) : ℕ :=
  ((keptIndex start organizationId + 1) % (candidatesOf start organizationId).length).toNat

/-- What a run keeps: the candidates, and the turns that they take. -/
structure Kept (organizationId : ℕ) (start s : Store) : Prop where
  candidates : candidatesOf s organizationId = candidatesOf start organizationId
  progress : ∃ turn, Progress (candidatesOf start organizationId) (firstPlace start organizationId)
    turn start.logs s.logs (keptIndex s organizationId)

lemma kept_start : Kept organizationId start start := by
  refine ⟨rfl, 0, fun hne => ?_, [], (List.append_nil _).symm, rfl⟩
  have hpos : (0 : ℤ) < (candidatesOf start organizationId).length := by
    exact_mod_cast List.length_pos_iff.2 hne
  have hmod := Int.emod_nonneg (keptIndex start organizationId + 1) hpos.ne'
  rw [firstPlace, Nat.add_zero]
  push_cast
  rw [Int.toNat_of_nonneg hmod, Int.emod_emod]

lemma candidatesOf_of_rule (hrule : s.rules organizationId = some rule) :
    candidatesOf s organizationId = Assignment.candidates s organizationId rule := by
  rw [candidatesOf, hrule]
  rfl

/-- A rule with the same targets has the same candidates. -/
lemma candidatesOf_saveRule (s' : Store) (hrule : s.rules organizationId = some rule)
    (husers : s'.users = s.users) (htargets : rule'.targetUserIds = rule.targetUserIds) :
    candidatesOf (s'.saveRule organizationId rule') organizationId = candidatesOf s organizationId := by
  have hsaved : (s'.saveRule organizationId rule').rules organizationId = some rule' :=
    Function.update_self ..
  have husers' : (s'.saveRule organizationId rule').users = s.users := husers
  rw [candidatesOf_of_rule hsaved, candidatesOf_of_rule hrule, Assignment.candidates,
    Assignment.candidates, listAssignable, listAssignable, htargets, husers']

lemma keptIndex_of_rule (hrule : s.rules organizationId = some rule) :
    keptIndex s organizationId = rule.lastAssignedIndex := by
  rw [keptIndex, hrule]
  rfl

lemma keptIndex_saveRule (s : Store) (organizationId : ℕ) :
    keptIndex (s.saveRule organizationId rule) organizationId = rule.lastAssignedIndex :=
  keptIndex_of_rule (Function.update_self ..)

/-- **An assignment takes a turn, or changes nothing.** -/
lemma kept_autoAssign (h : Kept organizationId start s) (lead : Lead) (occurredAt : Datetime) :
    Kept organizationId start (autoAssign str s organizationId lead occurredAt) := by
  obtain ⟨hcandidates, turn, hprogress⟩ := h
  rw [autoAssign]
  split_ifs with howner
  · exact ⟨hcandidates, turn, hprogress⟩
  · cases hrule : s.rules organizationId with
    | none => exact ⟨hcandidates, turn, hprogress⟩
    | some rule =>
        dsimp only
        split_ifs
        · exact ⟨hcandidates, turn, hprogress⟩
        · exact ⟨hcandidates, turn, hprogress⟩
        · rw [← candidatesOf_of_rule hrule, hcandidates]
          split
          · exact ⟨hcandidates, turn, hprogress⟩
          · next user rule' hnext =>
              obtain ⟨-, -, hrule'⟩ := nextFromCandidates_some hnext
              rw [keptIndex_of_rule hrule] at hprogress
              have hnextProgress := hprogress.next hnext ⟨organizationId, lead.id, none,
                some user.id, .ofStrategy rule'.strategy, none, some "auto-assignment"⟩ rfl
              rw [← keptIndex_saveRule s organizationId] at hnextProgress
              refine ⟨?_, turn + 1, hnextProgress⟩
              rw [← hcandidates]
              exact candidatesOf_saveRule s hrule rfl (by rw [hrule'])

/-- **A sweep takes turns.** -/
lemma kept_assignUnassigned (h : Kept organizationId start s) (answer : Unassigned s organizationId)
    (limit : ℕ) : Kept organizationId start (assignUnassigned str answer limit).1 := by
  obtain ⟨hcandidates, turn, hprogress⟩ := h
  rw [assignUnassigned]
  cases hrule : s.rules organizationId with
  | none => exact ⟨hcandidates, turn, hprogress⟩
  | some rule =>
      dsimp only
      split_ifs
      · exact ⟨hcandidates, turn, hprogress⟩
      · exact ⟨hcandidates, turn, hprogress⟩
      · rw [← candidatesOf_of_rule hrule]
        rw [keptIndex_of_rule hrule, ← hcandidates] at hprogress
        obtain ⟨turn', hprogress', htargets, husers⟩ := sweep_progress str organizationId
          (answer.rows.take limit) 0 hprogress
        have hsame := (candidatesOf_saveRule _ hrule husers htargets).trans hcandidates
        rw [hcandidates] at hprogress' hsame ⊢
        refine ⟨hsame, turn', ?_⟩
        rw [keptIndex_saveRule]
        exact hprogress'

lemma kept_of_run (h : Run str organizationId start s) : Kept organizationId start s := by
  induction h with
  | start => exact kept_start
  | autoAssign lead occurredAt _ ih => exact kept_autoAssign ih lead occurredAt
  | assignUnassigned answer limit _ ih => exact kept_assignUnassigned ih answer limit
  | others _ hcandidates hindex hlogs ih =>
      obtain ⟨turn, hprogress⟩ := ih.progress
      refine ⟨hcandidates.trans ih.candidates, turn, ?_⟩
      rwa [hlogs, keptIndex, hindex]

lemma nodup_candidatesOf (s : Store) (organizationId : ℕ) :
    ((candidatesOf s organizationId).map Member.id).Nodup := by
  rw [candidatesOf]
  cases s.rules organizationId with
  | none => exact List.nodup_nil
  | some rule =>
      refine ((sortedBy_perm _ _).map Member.id).nodup_iff.2 ?_
      exact s.usersNodup.sublist (List.filter_sublist.map Member.id)

/-- **Every candidate has a fair share of the leads that a run has assigned.** -/
theorem fair_of_run (h : Run str organizationId start s) : Fair organizationId start s := by
  obtain ⟨turn, -, assigned, hlogs, hturns⟩ := (kept_of_run h).progress
  refine ⟨assigned, hlogs, fun user huser => ?_⟩
  have hlength : assigned.length = turn := by simpa using congrArg List.length hturns
  have hshare := countP_turns (nodup_candidatesOf start organizationId) (List.mem_map_of_mem huser)
    (firstPlace start organizationId) turn
  rw [List.length_map, ← hturns] at hshare
  have hcount : (assigned.map LeadAssignmentLog.toUserId).count (some user.id)
      = assigned.countP fun log => log.toUserId = some user.id := by
    rw [List.count, List.countP_map]
    refine List.countP_congr fun log _ => ?_
    simp
  rwa [hlength, ← hcount]

/-! ### Two users and a rule that has seen more -/

def member (id : ℕ) : Member := ⟨id, 1, "", .member, true⟩

/-- Two users, three leads without an owner, and a rule that was left at the seventh place. -/
def twoUsers : Store where
  users := [member 2, member 1]
  usersNodup := by decide
  rules := fun _ => some ⟨.roundRobin, true, [], [], 6⟩
  leads := [⟨1, 1, none, none, none, 0⟩, ⟨2, 1, none, none, none, 1⟩, ⟨3, 1, none, none, none, 2⟩]
  logs := []
  activity := []

def twoUsersAnswer : Unassigned twoUsers 1 := ⟨twoUsers.leads, .refl _, by decide⟩

/-- A sweep and an assignment make four assignments, two for each user. -/
theorem fair_twoUsers :
    Fair 1 twoUsers (autoAssign (fun _ => "") (assignUnassigned (fun _ => "") twoUsersAnswer 500).1 1
      ⟨4, 1, none, none, none, 3⟩ 3) :=
  fair_of_run (.autoAssign _ _ (.assignUnassigned twoUsersAnswer 500 .start))

end Assignment
