import Mathlib.Data.List.Basic

/-!
Row level security (`0033_tenant_isolation_rls.sql`, and the tables that came later): which rows a
statement of the application role sees and which it may leave behind.

A statement is run against what its snapshot shows of each table, whatever that is.

* `Table.scope`, `admits`: the policies, which have five shapes;
* `Role.standing`: the role a connection has, against the policies;
* `evaluateRole`, `standing_of_evaluateRole`: the check at startup, and what it leaves open;
* `execute`: a statement under the policies;
* `belongs_of_execute`: what it reads and writes belongs to the tenant.
-/

namespace Tenancy

/-! ### Tables -/

inductive Table where
  | organizations | users | leadSources | leads | leadResearch | outreachMessages
  | outreachAttempts | followUps | manualOutreachQueue | conversations | conversationMessages
  | activityLogs | importJobs | importRowErrors | providerUsage | refreshTokens | teamInvites
  | leadAssignmentRules | leadAssignmentLogs | pipelineStages | closeReasons | tasks | notes
  | workflows | workflowTriggers | workflowExecutions | workflowEvents | credentials
  | executionEvents | aiMemories | knowledgeItems | agentRuns | agentState | notifications
  | approvalRequests | approvalLogs | briefings | growthMetrics | growthForecasts
  | businessInsights | deliveries | deliveryEvents | growthHealthWeights | growthAnalyses
  | growthScenarios | growthRecommendations | founderConversations | founderMessages
  | founderActionProposals | intelligenceSignals | authTokens | userRecoveryCodes
  | systemSettings | credentialKeyVersions | workerHealth
  deriving DecidableEq, Repr

/-- What the policies of a table look at. -/
inductive Scope where
  | ownId | organization | user | shared | readOnly
  deriving DecidableEq, Repr

def Table.scope : Table → Scope
  | .organizations => .ownId
  | .authTokens | .userRecoveryCodes => .user
  | .systemSettings | .credentialKeyVersions => .shared
  | .workerHealth => .readOnly
  | _ => .organization

/-- The tables that hold the data of tenants. -/
def Table.IsTenant (table : Table) : Prop := table.scope ≠ .shared ∧ table.scope ≠ .readOnly

instance (table : Table) : Decidable table.IsTenant :=
  inferInstanceAs (Decidable (table.scope ≠ .shared ∧ table.scope ≠ .readOnly))

/-- A row, with the columns the policies read. -/
structure Row (Id Data : Type) where
  id : Id
  organizationId : Option Id
  userId : Option Id
  data : Data
  deriving DecidableEq

/-- What a statement's snapshot shows of each table. -/
abbrev Snapshot (Id Data : Type) := Table → List (Row Id Data)

inductive Command where
  | select | insert | update | delete
  deriving DecidableEq, Repr

section Policies

variable {Id Data : Type} [DecidableEq Id]

/-- `organization_id = public.tenant_org_id()`, which is not true of a null. -/
def sameTenant (organizationId tenantOrgId : Option Id) : Bool :=
  tenantOrgId.any fun tenant => organizationId = some tenant

/-- The policies for the role `agencyos_app`: whether a command may see or leave a row. -/
def admits (tenantOrgId : Option Id) (snapshot : Snapshot Id Data) (command : Command) (table : Table)
    (row : Row Id Data) : Bool :=
  match table.scope with
  | .ownId => sameTenant (some row.id) tenantOrgId
  | .organization => sameTenant row.organizationId tenantOrgId
  | .user => (snapshot .users).any fun user =>
      sameTenant user.organizationId tenantOrgId && row.userId = some user.id
  | .shared => true
  | .readOnly => command = .select

/-- A row of a tenant's: by its own id, its organization, or its user's organization. -/
def Belongs (snapshot : Snapshot Id Data) (tenant : Id) (table : Table) (row : Row Id Data) : Prop :=
  match table.scope with
  | .ownId => row.id = tenant
  | .organization => row.organizationId = some tenant
  | .user => ∃ user ∈ snapshot .users, user.organizationId = some tenant ∧ row.userId = some user.id
  | .shared | .readOnly => False

theorem sameTenant_iff {organizationId tenantOrgId : Option Id} :
    sameTenant organizationId tenantOrgId = true ↔
      ∃ tenant, tenantOrgId = some tenant ∧ organizationId = some tenant := by
  cases tenantOrgId <;> simp [sameTenant]

/-- A policy of a tenant's table admits the rows of the tenant and no other. -/
theorem admits_iff_belongs {tenantOrgId : Option Id} {snapshot : Snapshot Id Data} {command : Command}
    {table : Table} {row : Row Id Data} (htable : table.IsTenant) :
    admits tenantOrgId snapshot command table row = true ↔
      ∃ tenant, tenantOrgId = some tenant ∧ Belongs snapshot tenant table row := by
  obtain ⟨hshared, hreadOnly⟩ := htable
  cases hscope : table.scope with
  | ownId => simp [admits, Belongs, hscope, sameTenant_iff]
  | organization => simp [admits, Belongs, hscope, sameTenant_iff]
  | user =>
      simp only [admits, Belongs, hscope, List.any_eq_true, Bool.and_eq_true, sameTenant_iff,
        decide_eq_true_eq]
      constructor
      · rintro ⟨user, hmem, ⟨tenant, htenant, horg⟩, hid⟩
        exact ⟨tenant, htenant, user, hmem, horg, hid⟩
      · rintro ⟨tenant, htenant, user, hmem, horg, hid⟩
        exact ⟨user, hmem, ⟨tenant, htenant, horg⟩, hid⟩
  | shared => exact absurd hscope hshared
  | readOnly => exact absurd hscope hreadOnly

end Policies

/-! ### Roles -/

/-- A role of the cluster, with the attributes that decide whether the policies hold for it. -/
structure Role where
  rolname : Option String
  rolsuper : Bool
  rolbypassrls : Bool
  ownsTables : Bool
  appMember : Bool
  workerMember : Bool
  deriving DecidableEq, Repr

/-- Where a role stands: beyond the policies, under those of `agencyos_app`, or under none. -/
inductive Standing where
  | bypass | policies | denied
  deriving DecidableEq, Repr

/-- The policies are not forced, so that an owner is beyond them like a superuser. -/
def Role.standing (role : Role) : Standing :=
  if role.rolsuper || role.rolbypassrls || role.ownsTables then .bypass
  else if role.appMember then .policies
  else .denied

inductive Group where
  | app | worker
  deriving DecidableEq, Repr

def Group.name : Group → String
  | .app => "agencyos_app"
  | .worker => "agencyos_worker"

/-- `evaluate_role`: why a role would not honour the policies. -/
def evaluateRole (role : Role) (dsnLabel : String) (requireGroup : Group) : Option String :=
  match role.rolname with
  | none => some (dsnLabel ++ ": could not resolve the current database role")
  | some rolname =>
      if rolname = "" then some (dsnLabel ++ ": could not resolve the current database role")
      else if role.rolsuper then
        some (dsnLabel ++ ": role '" ++ rolname ++ "' is a SUPERUSER, which bypasses row " ++
          "level security entirely. Connect as a LOGIN role that is a member " ++
          "of '" ++ requireGroup.name ++ "' instead (see docs/database.md — Row Level " ++
          "Security).")
      else if requireGroup = .app && !role.appMember then
        some (dsnLabel ++ ": role '" ++ rolname ++ "' is not a member of 'agencyos_app', so " ++
          "the tenant RLS policies do not apply to it. Grant membership with " ++
          "'GRANT agencyos_app TO " ++ rolname ++ ";'.")
      else if requireGroup = .worker && !role.workerMember then
        some (dsnLabel ++ ": role '" ++ rolname ++ "' is not a member of " ++
          "'agencyos_worker'. Grant membership with " ++
          "'GRANT agencyos_worker TO " ++ rolname ++ ";'.")
      else none

/-- The check looks neither at `rolbypassrls` nor at who owns the tables. -/
theorem standing_of_evaluateRole {role : Role} {dsnLabel : String}
    (hrole : evaluateRole role dsnLabel .app = none) (hbypass : role.rolbypassrls = false)
    (howns : role.ownsTables = false) : role.standing = .policies := by
  have hattributes : role.rolsuper = false ∧ role.appMember = true := by
    unfold evaluateRole at hrole
    cases hname : role.rolname with
    | none => simp [hname] at hrole
    | some rolname =>
        by_cases hempty : rolname = "" <;> by_cases hsuper : role.rolsuper = true <;>
          by_cases happ : role.appMember = true <;> simp [hname, hempty, hsuper, happ] at hrole ⊢
  simp [Role.standing, hattributes, hbypass, howns]

/-! ### Statements -/

/-- The lookups that run as their definer, before a tenant is known. -/
inductive Lookup where
  | getUserById | getUserByEmail | findActiveUserByEmail | getValidRefreshToken
  | getOrganizationBySlug | slugAvailable | getTeamInviteByTokenHash | getAuthToken
  deriving DecidableEq, Repr

def Lookup.table : Lookup → Table
  | .getUserById | .getUserByEmail | .findActiveUserByEmail => .users
  | .getValidRefreshToken => .refreshTokens
  | .getOrganizationBySlug | .slugAvailable => .organizations
  | .getTeamInviteByTokenHash => .teamInvites
  | .getAuthToken => .authTokens

inductive Statement (Id Data : Type) where
  | select (table : Table) (condition : Row Id Data → Bool)
  | insert (table : Table) (rows : List (Row Id Data))
  | update (table : Table) (condition : Row Id Data → Bool) (set : Row Id Data → Row Id Data)
  | delete (table : Table) (condition : Row Id Data → Bool)
  | lookup (lookup : Lookup) (condition : Row Id Data → Bool)

/-- What a statement did: the rows it read under the policies, those a lookup handed out, and the
versions it took away and left behind. -/
structure Outcome (Id Data : Type) where
  read : List (Table × Row Id Data)
  handed : List (Table × Row Id Data)
  written : List (Table × Row Id Data)

section Statements

variable {Id Data : Type} [DecidableEq Id]

/-- Whether a command of a role with this standing may see or leave a row. -/
def allows (standing : Standing) (tenantOrgId : Option Id) (snapshot : Snapshot Id Data)
    (command : Command) (table : Table) (row : Row Id Data) : Bool :=
  match standing with
  | .bypass => true
  | .policies => admits tenantOrgId snapshot command table row
  | .denied => false

/-- The rows a command gets at: a `WHERE` clause reads, so that the policies for `SELECT` hold too. -/
def visibleTo (standing : Standing) (tenantOrgId : Option Id) (snapshot : Snapshot Id Data)
    (command : Command) (table : Table) (condition : Row Id Data → Bool) : List (Row Id Data) :=
  (snapshot table).filter fun row =>
    allows standing tenantOrgId snapshot .select table row &&
      allows standing tenantOrgId snapshot command table row && condition row

/-- A statement under the policies; `none` where a row it would leave fails a check. -/
def execute (standing : Standing) (tenantOrgId : Option Id) (snapshot : Snapshot Id Data) :
    Statement Id Data → Option (Outcome Id Data)
  | .select table condition =>
      let rows := visibleTo standing tenantOrgId snapshot .select table condition
      some ⟨rows.map (table, ·), [], []⟩
  | .insert table rows =>
      if rows.all (allows standing tenantOrgId snapshot .insert table) then
        some ⟨[], [], rows.map (table, ·)⟩
      else none
  | .update table condition set =>
      let rows := visibleTo standing tenantOrgId snapshot .update table condition
      if (rows.map set).all (allows standing tenantOrgId snapshot .update table) then
        some ⟨rows.map (table, ·), [], (rows ++ rows.map set).map (table, ·)⟩
      else none
  | .delete table condition =>
      let rows := visibleTo standing tenantOrgId snapshot .delete table condition
      some ⟨rows.map (table, ·), [], rows.map (table, ·)⟩
  | .lookup lookup condition =>
      some ⟨[], ((snapshot lookup.table).filter condition).map (lookup.table, ·), []⟩

/-- All rows of a list are the tenant's, those of the tenants' tables. -/
def AllBelong (snapshot : Snapshot Id Data) (tenantOrgId : Option Id)
    (rows : List (Table × Row Id Data)) : Prop :=
  ∀ table row, (table, row) ∈ rows → table.IsTenant →
    ∃ tenant, tenantOrgId = some tenant ∧ Belongs snapshot tenant table row

variable {tenantOrgId : Option Id} {snapshot : Snapshot Id Data}

theorem allBelong_of_forall {table : Table} {rows : List (Row Id Data)} (command : Command)
    (h : ∀ row ∈ rows, admits tenantOrgId snapshot command table row = true) :
    AllBelong snapshot tenantOrgId (rows.map (table, ·)) := by
  intro table' row hmem htable
  obtain ⟨row', hrow, hpair⟩ := List.mem_map.mp hmem
  obtain ⟨rfl, rfl⟩ := Prod.mk.inj hpair
  exact (admits_iff_belongs htable).mp (h row' hrow)

theorem admits_of_mem_visibleTo {command : Command} {table : Table} {condition : Row Id Data → Bool}
    {row : Row Id Data}
    (hmem : row ∈ visibleTo .policies tenantOrgId snapshot command table condition) :
    admits tenantOrgId snapshot command table row = true := by
  have hfilter := (List.mem_filter.mp hmem).2
  simp only [allows, Bool.and_eq_true] at hfilter
  exact hfilter.1.2

/-- Under the policies a statement reads, takes away and leaves rows of the tenant alone. -/
theorem belongs_of_execute {statement : Statement Id Data} {outcome : Outcome Id Data}
    (h : execute .policies tenantOrgId snapshot statement = some outcome) :
    AllBelong snapshot tenantOrgId (outcome.read ++ outcome.written) := by
  cases statement with
  | select table condition =>
      obtain rfl := Option.some.inj h
      rw [List.append_nil]
      exact allBelong_of_forall _ fun row hrow => admits_of_mem_visibleTo hrow
  | insert table rows =>
      obtain ⟨hall, houtcome⟩ := Option.ite_none_right_eq_some.mp h
      obtain rfl := Option.some.inj houtcome
      exact allBelong_of_forall _ (List.all_eq_true.mp hall)
  | update table condition set =>
      obtain ⟨hall, houtcome⟩ := Option.ite_none_right_eq_some.mp h
      obtain rfl := Option.some.inj houtcome
      rw [← List.map_append]
      refine allBelong_of_forall .update fun row hrow => ?_
      rcases List.mem_append.mp hrow with hold | hold
      · exact admits_of_mem_visibleTo hold
      · rcases List.mem_append.mp hold with hold | hnew
        · exact admits_of_mem_visibleTo hold
        · exact List.all_eq_true.mp hall row hnew
  | delete table condition =>
      obtain rfl := Option.some.inj h
      rw [← List.map_append]
      refine allBelong_of_forall .delete fun row hrow => ?_
      exact admits_of_mem_visibleTo ((List.mem_append.mp hrow).elim id id)
  | lookup lookup condition =>
      obtain rfl := Option.some.inj h
      intro table' row hmem
      simp at hmem

end Statements

end Tenancy
