import Mathlib.Logic.Function.Basic
import AgencyOS.Tenancy.Policies

/-!
The tenant of a transaction (`core/tenant_context.py`, `core/database.py`).

Requests share a pool of connections.  A connection keeps `app.current_organization_id` when its
transaction commits; a rollback, also one to a savepoint, takes it back to what it was.  Every
transaction begins with the listener that sets it from the context of the request.

* `readLiteral_escape`: the literal the listener builds is read as the value it was built from;
* `step`, `run`: requests in any order on any connections, with all their savepoints and rollbacks;
* `Sound`: a connection in use holds nothing but what its request may see;
* `sound_activateOrg`, `sound_perform`: each step keeps it.
-/

namespace Tenancy

/-! ### The literal -/

def apostrophe : Char := Char.ofNat 39

/-- `value.replace("'", "''")`. -/
def escape (value : List Char) : List Char :=
  value.flatMap fun c => if c = apostrophe then [apostrophe, apostrophe] else [c]

/-- A string literal after its opening apostrophe, as PostgreSQL reads it: the value and what follows. -/
def readLiteral : List Char → Option (List Char × List Char)
  | [] => none
  | c :: cs =>
      if c = apostrophe then
        match cs with
        | [] => some ([], [])
        | d :: rest =>
            if d = apostrophe then (readLiteral rest).map fun (value, rest) => (apostrophe :: value, rest)
            else some ([], d :: rest)
      else (readLiteral cs).map fun (value, rest) => (c :: value, rest)

/-- Whatever the value, the literal ends where it should and reads as the value. -/
theorem readLiteral_escape (value rest : List Char) (hrest : rest.head? ≠ some apostrophe) :
    readLiteral (escape value ++ apostrophe :: rest) = some (value, rest) := by
  induction value with
  | nil =>
      cases rest with
      | nil => simp [escape, readLiteral]
      | cons d rest =>
          have hd : d ≠ apostrophe := by simpa using hrest
          simp [escape, readLiteral, hd]
  | cons c value ih =>
      by_cases hc : c = apostrophe
      · have hsplit : escape (c :: value) = apostrophe :: apostrophe :: escape value := by
          simp [escape, hc]
        rw [hsplit, List.cons_append, List.cons_append, readLiteral.eq_def]
        simp [ih, hc]
      · have hsplit : escape (c :: value) = c :: escape value := by simp [escape, hc]
        rw [hsplit, List.cons_append, readLiteral.eq_def]
        simp [ih, hc]

/-! ### Requests and connections -/

/-- How an id is written, and read by `::uuid`. -/
structure UuidText (Id : Type) where
  str : Id → List Char
  uuid : List Char → Option Id
  uuid_str : ∀ id, uuid (str id) = some id
  str_ne_nil : ∀ id, str id ≠ []

/-- What a deployment fixes: the role of its connections, how ids are written, and the organization that
a managed `auth` schema would name, if there is one. -/
structure Deployment (Id : Type) where
  role : Role
  text : UuidText Id
  authOrganization : Option Id

/-- A connection: the setting, and the values that a rollback of its transaction and of its savepoints
(innermost first) goes back to. -/
structure Connection where
  guc : List Char
  beginning : List Char
  savepoints : List (List Char)

structure State (Id Request Conn : Type) where
  context : Request → Option Id
  session : Request → Option Conn
  owner : Conn → Option Request
  connection : Conn → Connection

/-- What a request does next. -/
inductive Action (Id Data : Type) where
  | activateOrg (organizationId : Option Id)
  | execute (snapshot : Snapshot Id Data) (statement : Statement Id Data)
  | beginNested
  | rollbackNested
  | releaseNested
  | commit
  | rollback

/-- A step: the request, the connection the pool would hand out, and the action; or an idle connection
that is replaced by a new one. -/
inductive Event (Id Data Request Conn : Type) where
  | act (request : Request) (pooled : Conn) (action : Action Id Data)
  | reconnect (idle : Conn)

/-- A statement that was executed, with the tenant it ran for. -/
structure Performed (Id Data Request : Type) where
  request : Request
  tenantOrgId : Option Id
  snapshot : Snapshot Id Data
  statement : Statement Id Data
  outcome : Outcome Id Data

section Requests

variable {Id Data Request Conn : Type} [DecidableEq Request] [DecidableEq Conn]

/-- The text of an organization, or of none. -/
def UuidText.setting (text : UuidText Id) (organizationId : Option Id) : List Char :=
  (organizationId.map text.str).getD []

/-- `tenant_org_id()`. -/
def tenantOrgId (d : Deployment Id) (guc : List Char) : Option Id :=
  if guc = [] then d.authOrganization else d.text.uuid guc

/-- `_restore_tenant_guc`: the statement built from the context, as the database reads it. -/
def restoreTenantGuc (d : Deployment Id) (organizationId : Option Id) (before : List Char) : List Char :=
  match readLiteral (escape (d.text.setting organizationId) ++ apostrophe :: ", false)".toList) with
  | some (value, _) => value
  | none => before

namespace State

def setConnection (s : State Id Request Conn) (c : Conn) (connection : Connection) :
    State Id Request Conn :=
  { s with connection := Function.update s.connection c connection }

/-- The transaction of a request: the one it is in, or a new one on a connection that is idle, with the
listener run. -/
def begin (d : Deployment Id) (s : State Id Request Conn) (request : Request) (pooled : Conn) :
    Option (State Id Request Conn × Conn) :=
  match s.session request with
  | some c => some (s, c)
  | none =>
      match s.owner pooled with
      | some _ => none
      | none =>
          let guc := (s.connection pooled).guc
          some ({ s with
            session := Function.update s.session request (some pooled)
            owner := Function.update s.owner pooled (some request)
            connection := Function.update s.connection pooled
              ⟨restoreTenantGuc d (s.context request) guc, guc, []⟩ }, pooled)

/-- The connection goes back to the pool with the setting it is left with. -/
def giveBack (s : State Id Request Conn) (request : Request) (c : Conn) (guc : List Char) :
    State Id Request Conn :=
  { s with
    session := Function.update s.session request none
    owner := Function.update s.owner c none
    connection := Function.update s.connection c ⟨guc, guc, []⟩ }

def setContext (s : State Id Request Conn) (request : Request) (organizationId : Option Id) :
    State Id Request Conn :=
  { s with context := Function.update s.context request organizationId }

/-- `activate_org`: the context, then the setting of the transaction.  Where no connection can be had
the context stays. -/
def activateOrg (d : Deployment Id) (s : State Id Request Conn) (request : Request) (pooled : Conn)
    (organizationId : Option Id) : State Id Request Conn :=
  match (s.setContext request organizationId).begin d request pooled with
  | some (s, c) => s.setConnection c { s.connection c with guc := d.text.setting organizationId }
  | none => s.setContext request organizationId

/-- The values the open savepoints of a request would go back to. -/
def savepoints (s : State Id Request Conn) (request : Request) : List (List Char) :=
  match s.session request with
  | none => []
  | some c => (s.connection c).savepoints

/-- A server that has started: no request has a context or a transaction.  The settings the connections
hold are whatever they are. -/
structure Idle (s : State Id Request Conn) : Prop where
  context : ∀ request, s.context request = none
  session : ∀ request, s.session request = none
  owner : ∀ c, s.owner c = none

end State

variable [DecidableEq Id]

/-- One action of a request. -/
def perform (d : Deployment Id) (s : State Id Request Conn) (request : Request) (pooled : Conn) :
    Action Id Data → Option (State Id Request Conn × Option (Performed Id Data Request))
  | .activateOrg organizationId => some (s.activateOrg d request pooled organizationId, none)
  | .execute snapshot statement =>
      (s.begin d request pooled).map fun (s, c) =>
        let tenant := tenantOrgId d (s.connection c).guc
        (s, (execute d.role.standing tenant snapshot statement).map fun outcome =>
          ⟨request, tenant, snapshot, statement, outcome⟩)
  | .beginNested =>
      (s.begin d request pooled).map fun (s, c) =>
        let connection := s.connection c
        (s.setConnection c { connection with
          savepoints := connection.guc :: connection.savepoints }, none)
  | .rollbackNested =>
      (s.session request).bind fun c =>
        match (s.connection c).savepoints with
        | guc :: savepoints =>
            some (s.setConnection c { s.connection c with guc := guc, savepoints := savepoints }, none)
        | [] => none
  | .releaseNested =>
      (s.session request).bind fun c =>
        match (s.connection c).savepoints with
        | _ :: savepoints =>
            some (s.setConnection c { s.connection c with savepoints := savepoints }, none)
        | [] => none
  | .commit =>
      (s.session request).map fun c => (s.giveBack request c (s.connection c).guc, none)
  | .rollback =>
      (s.session request).map fun c => (s.giveBack request c (s.connection c).beginning, none)

def step (d : Deployment Id) (s : State Id Request Conn) :
    Event Id Data Request Conn → Option (State Id Request Conn × Option (Performed Id Data Request))
  | .act request pooled action => perform d s request pooled action
  | .reconnect idle =>
      match s.owner idle with
      | some _ => none
      | none => some (s.setConnection idle ⟨[], [], []⟩, none)

/-- The requests in the order of the events, and the statements that were executed. -/
def run (d : Deployment Id) (s : State Id Request Conn) :
    List (Event Id Data Request Conn) →
      Option (State Id Request Conn × List (Performed Id Data Request))
  | [] => some (s, [])
  | event :: events =>
      (step d s event).bind fun (s, performed) =>
        (run d s events).map fun (s, more) => (s, performed.toList ++ more)

/-- The organization an event activates for a request. -/
def Event.activates (request : Request) : Event Id Data Request Conn → Option (Option Id)
  | .act request' _ (.activateOrg organizationId) =>
      if request' = request then some organizationId else none
  | _ => none

/-- What a request has activated, in order. -/
def activations (request : Request) (events : List (Event Id Data Request Conn)) : List (Option Id) :=
  events.filterMap (Event.activates request)

/-- What a request has activated last: no organization before it activates one. -/
def lastActivated (request : Request) (events : List (Event Id Data Request Conn)) : Option Id :=
  (activations request events).getLastD none

/-! ### What a connection holds -/

variable {d : Deployment Id} {s s' : State Id Request Conn} {request : Request} {pooled c : Conn}
  {P P' : Request → List Char → Prop}

omit [DecidableEq Request] [DecidableEq Conn] [DecidableEq Id] in
theorem restoreTenantGuc_eq (organizationId : Option Id) (before : List Char) :
    restoreTenantGuc d organizationId before = d.text.setting organizationId := by
  have hrest : (", false)".toList).head? ≠ some apostrophe := by decide
  rw [restoreTenantGuc, readLiteral_escape _ _ hrest]

omit [DecidableEq Request] [DecidableEq Conn] [DecidableEq Id] in
theorem tenantOrgId_setting (hauth : d.authOrganization = none) (organizationId : Option Id) :
    tenantOrgId d (d.text.setting organizationId) = organizationId := by
  cases organizationId with
  | none => simp [tenantOrgId, UuidText.setting, hauth]
  | some id => simp [tenantOrgId, UuidText.setting, d.text.str_ne_nil, d.text.uuid_str]

/-- What a connection holds, or goes back to with a rollback to a savepoint. -/
def Connection.values (connection : Connection) : List (List Char) :=
  connection.guc :: connection.savepoints

/-- A connection in use belongs to one request, and every value it holds or may go back to is one that
the request may see. -/
structure Sound (d : Deployment Id) (P : Request → List Char → Prop) (s : State Id Request Conn) :
    Prop where
  owned : ∀ request c, s.session request = some c ↔ s.owner c = some request
  context : ∀ request, P request (d.text.setting (s.context request))
  values : ∀ request c, s.owner c = some request → ∀ value ∈ (s.connection c).values, P request value

omit [DecidableEq Request] [DecidableEq Conn] [DecidableEq Id] in
theorem sound_of_idle (hs : s.Idle) (hP : ∀ request, P request []) : Sound d P s where
  owned request c := by simp [hs.session request, hs.owner c]
  context request := by simpa [hs.context request, UuidText.setting] using hP request
  values request c howner := by simp [hs.owner c] at howner

omit [DecidableEq Request] [DecidableEq Conn] [DecidableEq Id] in
theorem Sound.guc (hs : Sound d P s) (hsession : s.session request = some c) :
    P request (s.connection c).guc :=
  hs.values request c ((hs.owned request c).mp hsession) _ List.mem_cons_self

omit [DecidableEq Request] [DecidableEq Conn] [DecidableEq Id] in
theorem Sound.savepoints (hs : Sound d P s) (hsession : s.session request = some c) {value : List Char}
    (hvalue : value ∈ (s.connection c).savepoints) : P request value :=
  hs.values request c ((hs.owned request c).mp hsession) _ (List.mem_cons_of_mem _ hvalue)

omit [DecidableEq Id] in
/-- A transaction that begins holds what the context says. -/
theorem sound_begin (hs : Sound d P s) (h : s.begin d request pooled = some (s', c)) :
    Sound d P s' ∧ s'.session request = some c := by
  unfold State.begin at h
  cases hsession : s.session request with
  | some c' =>
      simp only [hsession, Option.some.injEq, Prod.mk.injEq] at h
      obtain ⟨rfl, rfl⟩ := h
      exact ⟨hs, hsession⟩
  | none =>
      cases howner : s.owner pooled with
      | some r => simp [hsession, howner] at h
      | none =>
          simp only [hsession, howner, Option.some.injEq, Prod.mk.injEq] at h
          obtain ⟨rfl, rfl⟩ := h
          refine ⟨⟨fun r c => ?_, hs.context, fun r c hr => ?_⟩, by simp⟩
          · have hrc := hs.owned r c
            by_cases hr : r = request <;> by_cases hc : c = pooled
            · simp [hr, hc]
            · have hne : s.owner c ≠ some request := fun h => by
                simp [(hs.owned request c).mpr h] at hsession
              simp [hr, hc, Ne.symm hc, hne]
            · have hne : s.session r ≠ some pooled := fun h => by
                simp [(hs.owned r pooled).mp h] at howner
              simp [hr, hc, Ne.symm hr, hne]
            · simpa [hr, hc] using hrc
          · by_cases hc : c = pooled
            · subst hc
              simp only [Function.update_self, Option.some.injEq] at hr
              subst hr
              simpa [Connection.values, restoreTenantGuc_eq] using hs.context request
            · simp only [Function.update_of_ne hc] at hr ⊢
              exact hs.values r c hr

omit [DecidableEq Request] [DecidableEq Id] in
/-- A connection is changed to values that the request which holds it, if any, may see. -/
theorem sound_setConnection (hs : Sound d P s) {connection : Connection}
    (hvalues : ∀ r, s.owner c = some r → ∀ value ∈ connection.values, P r value) :
    Sound d P (s.setConnection c connection) where
  owned := hs.owned
  context := hs.context
  values r c' hr := by
    by_cases hc : c' = c
    · subst hc
      simpa [State.setConnection] using hvalues r hr
    · simpa [State.setConnection, Function.update_of_ne hc] using hs.values r c' hr

omit [DecidableEq Request] [DecidableEq Id] in
/-- The same of a connection that a request holds. -/
theorem sound_setHeld (hs : Sound d P s) {connection : Connection} (hsession : s.session request = some c)
    (hvalues : ∀ value ∈ connection.values, P request value) :
    Sound d P (s.setConnection c connection) := by
  refine sound_setConnection hs fun r hr => ?_
  obtain rfl := Option.some.inj (((hs.owned request c).mp hsession).symm.trans hr)
  exact hvalues

omit [DecidableEq Id] in
/-- A connection in the pool may hold anything. -/
theorem sound_giveBack (hs : Sound d P s) (hsession : s.session request = some c) (guc : List Char) :
    Sound d P (s.giveBack request c guc) where
  owned r c' := by
    have howner := (hs.owned request c).mp hsession
    have hrc := hs.owned r c'
    by_cases hr : r = request <;> by_cases hc : c' = c
    · simp [State.giveBack, hr, hc]
    · have hne : s.owner c' ≠ some request := fun h => by
        have := (hs.owned request c').mpr h
        rw [hsession] at this
        exact hc (Option.some.inj this).symm
      simp [State.giveBack, hr, hc, hne]
    · have hne : s.session r ≠ some c := fun h => by
        have := (hs.owned r c).mp h
        rw [howner] at this
        exact hr (Option.some.inj this).symm
      simp [State.giveBack, hr, hc, hne]
    · simpa [State.giveBack, hr, hc] using hrc
  context := hs.context
  values r c' hr := by
    by_cases hc : c' = c
    · simp [State.giveBack, hc] at hr
    · simp only [State.giveBack, Function.update_of_ne hc] at hr ⊢
      exact hs.values r c' hr

omit [DecidableEq Id] in
/-- `activate_org` changes what its request may see: what its savepoints hold it goes on seeing, and the
other requests see what they saw. -/
theorem sound_activateOrg {organizationId : Option Id} (hs : Sound d P s)
    (hothers : ∀ r, r ≠ request → ∀ value, P r value → P' r value)
    (hnew : P' request (d.text.setting organizationId))
    (hsavepoints : ∀ value ∈ s.savepoints request, P' request value) :
    Sound d P' (s.activateOrg d request pooled organizationId) := by
  have hcontext : ∀ r, P' r (d.text.setting ((s.setContext request organizationId).context r)) := by
    intro r
    by_cases hr : r = request
    · subst hr
      simpa [State.setContext] using hnew
    · simpa [State.setContext, Function.update_of_ne hr] using hothers r hr _ (hs.context r)
  cases hsession : s.session request with
  | none =>
      have hne : ∀ r c, s.owner c = some r → r ≠ request := fun r c hr hrequest => by
        rw [hrequest] at hr
        simp [(hs.owned request c).mpr hr] at hsession
      have hset : Sound d P' (s.setContext request organizationId) :=
        ⟨hs.owned, hcontext, fun r c hr value hvalue =>
          hothers r (hne r c hr) _ (hs.values r c hr value hvalue)⟩
      unfold State.activateOrg
      cases hbegin : (s.setContext request organizationId).begin d request pooled with
      | none => exact hset
      | some begun =>
          obtain ⟨hsound, hc⟩ := sound_begin hset hbegin
          refine sound_setHeld hsound hc fun value hvalue => ?_
          rcases List.mem_cons.mp hvalue with rfl | hvalue
          · exact hnew
          · exact hsound.savepoints hc hvalue
  | some c =>
      have hactivate : s.activateOrg d request pooled organizationId =
          (s.setContext request organizationId).setConnection c
            { s.connection c with guc := d.text.setting organizationId } := by
        simp [State.activateOrg, State.begin, State.setContext, hsession]
      have howner := (hs.owned request c).mp hsession
      rw [hactivate]
      refine ⟨hs.owned, hcontext, fun r c' hr => ?_⟩
      by_cases hc : c' = c
      · subst hc
        obtain rfl := Option.some.inj (howner.symm.trans hr)
        simp only [State.savepoints, hsession] at hsavepoints
        simpa [State.setConnection, Connection.values] using ⟨hnew, hsavepoints⟩
      · have hne : r ≠ request := fun hrequest => by
          rw [hrequest] at hr
          have := (hs.owned request c').mpr hr
          rw [hsession] at this
          exact hc (Option.some.inj this).symm
        intro value hvalue
        simp only [State.setConnection, State.setContext, Function.update_of_ne hc] at hvalue
        exact hothers r hne _ (hs.values r c' hr value hvalue)

/-- Every other action leaves a sound state, and a statement runs with a value its request may see. -/
theorem sound_perform {action : Action Id Data} {performed : Option (Performed Id Data Request)}
    (hs : Sound d P s) (haction : ∀ organizationId, action ≠ .activateOrg organizationId)
    (h : perform d s request pooled action = some (s', performed)) :
    Sound d P s' ∧ ∀ p ∈ performed, (∃ value, P p.request value ∧ p.tenantOrgId = tenantOrgId d value) ∧
      execute d.role.standing p.tenantOrgId p.snapshot p.statement = some p.outcome := by
  -- what is popped off the savepoints has been seen before
  have hpop : ∀ c value savepoints guc, s.session request = some c →
      (s.connection c).savepoints = value :: savepoints → (guc = value ∨ guc = (s.connection c).guc) →
      Sound d P (s.setConnection c { s.connection c with guc := guc, savepoints := savepoints }) := by
    intro c value savepoints guc hsession hstack hguc
    refine sound_setHeld hs hsession fun value' hvalue => ?_
    rcases List.mem_cons.mp hvalue with rfl | hvalue
    · rcases hguc with rfl | rfl
      · exact hs.savepoints hsession (hstack ▸ List.mem_cons_self)
      · exact hs.guc hsession
    · exact hs.savepoints hsession (hstack ▸ List.mem_cons_of_mem _ hvalue)
  cases action with
  | activateOrg organizationId => exact absurd rfl (haction organizationId)
  | execute snapshot statement =>
      obtain ⟨⟨s₁, c⟩, hbegin, hstep⟩ := Option.map_eq_some_iff.mp h
      obtain ⟨hsound, hsession⟩ := sound_begin hs hbegin
      simp only [Prod.mk.injEq] at hstep
      obtain ⟨rfl, rfl⟩ := hstep
      refine ⟨hsound, fun p hp => ?_⟩
      obtain ⟨outcome, hexecute, rfl⟩ := Option.map_eq_some_iff.mp hp
      exact ⟨⟨_, hsound.guc hsession, rfl⟩, hexecute⟩
  | beginNested =>
      obtain ⟨⟨s₁, c⟩, hbegin, hstep⟩ := Option.map_eq_some_iff.mp h
      obtain ⟨hsound, hsession⟩ := sound_begin hs hbegin
      simp only [Prod.mk.injEq] at hstep
      obtain ⟨rfl, rfl⟩ := hstep
      refine ⟨sound_setHeld hsound hsession fun value hvalue => ?_, by simp⟩
      rcases List.mem_cons.mp hvalue with rfl | hvalue
      · exact hsound.guc hsession
      · exact hsound.values request c ((hsound.owned request c).mp hsession) value hvalue
  | rollbackNested =>
      obtain ⟨c, hsession, hstep⟩ := Option.bind_eq_some_iff.mp h
      cases hstack : (s.connection c).savepoints with
      | nil => simp [hstack] at hstep
      | cons value savepoints =>
          simp only [hstack, Option.some.injEq, Prod.mk.injEq] at hstep
          obtain ⟨rfl, rfl⟩ := hstep
          exact ⟨hpop c value savepoints value hsession hstack (Or.inl rfl), by simp⟩
  | releaseNested =>
      obtain ⟨c, hsession, hstep⟩ := Option.bind_eq_some_iff.mp h
      cases hstack : (s.connection c).savepoints with
      | nil => simp [hstack] at hstep
      | cons value savepoints =>
          simp only [hstack, Option.some.injEq, Prod.mk.injEq] at hstep
          obtain ⟨rfl, rfl⟩ := hstep
          exact ⟨hpop c value savepoints _ hsession hstack (Or.inr rfl), by simp⟩
  | commit =>
      obtain ⟨c, hsession, hstep⟩ := Option.map_eq_some_iff.mp h
      simp only [Prod.mk.injEq] at hstep
      obtain ⟨rfl, rfl⟩ := hstep
      exact ⟨sound_giveBack hs hsession _, by simp⟩
  | rollback =>
      obtain ⟨c, hsession, hstep⟩ := Option.map_eq_some_iff.mp h
      simp only [Prod.mk.injEq] at hstep
      obtain ⟨rfl, rfl⟩ := hstep
      exact ⟨sound_giveBack hs hsession _, by simp⟩

end Requests

end Tenancy
