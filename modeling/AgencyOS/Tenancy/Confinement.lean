import AgencyOS.Tenancy.Sessions

/-!
What a request can get at, whatever the other requests do and whatever connections it is given.

* `sound_step`, `sound_run`: a connection in use holds nothing but what its request has activated;
* `confined`: a statement gets at no row of an organization that its request has not activated;
* `sound_run_of_flat`, `tenant_eq_lastActivated`: without an activation under a savepoint, a statement
  runs for the organization last activated.
-/

namespace Tenancy

section Requests

variable {Id Data Request Conn : Type} [DecidableEq Request] [DecidableEq Conn] [DecidableEq Id]
  {d : Deployment Id} {s s' : State Id Request Conn} {request : Request}

/-! ### Runs -/

/-- What a request may find set: no organization, or one that it has activated. -/
def MayHold (d : Deployment Id) (events : List (Event Id Data Request Conn)) (request : Request)
    (value : List Char) : Prop :=
  ∃ organizationId ∈ none :: activations request events, value = d.text.setting organizationId

/-- What a request finds set when nothing comes in between: what it has activated last. -/
def HoldsLast (d : Deployment Id) (events : List (Event Id Data Request Conn)) (request : Request)
    (value : List Char) : Prop :=
  value = d.text.setting (lastActivated request events)

/-- No organization is activated while its request has a savepoint open. -/
def Event.Flat (s : State Id Request Conn) : Event Id Data Request Conn → Prop
  | .act request _ (.activateOrg _) => s.savepoints request = []
  | _ => True

def Flat (d : Deployment Id) : State Id Request Conn → List (Event Id Data Request Conn) → Prop
  | _, [] => True
  | s, event :: events =>
      event.Flat s ∧
        match step d s event with
        | none => True
        | some (s', _) => Flat d s' events

variable {before events : List (Event Id Data Request Conn)} {event : Event Id Data Request Conn}
  {performed : Option (Performed Id Data Request)} {p : Performed Id Data Request}

omit [DecidableEq Conn] [DecidableEq Id] in
@[simp]
theorem activations_append (request : Request) (events more : List (Event Id Data Request Conn)) :
    activations request (events ++ more) = activations request events ++ activations request more := by
  simp [activations]

omit [DecidableEq Conn] [DecidableEq Id] in
theorem activations_snoc (request : Request) (events : List (Event Id Data Request Conn))
    (event : Event Id Data Request Conn) :
    activations request (events ++ [event]) =
      activations request events ++ (event.activates request).toList := by
  cases h : event.activates request <;> simp [activations, h]

omit [DecidableEq Conn] [DecidableEq Id] in
theorem lastActivated_snoc (request : Request) (events : List (Event Id Data Request Conn))
    (event : Event Id Data Request Conn) :
    lastActivated request (events ++ [event]) =
      (event.activates request).getD (lastActivated request events) := by
  rw [lastActivated, activations_snoc]
  cases event.activates request <;> simp [lastActivated]

omit [DecidableEq Conn] [DecidableEq Id] in
/-- An event activates for one request. -/
theorem activates_eq_none_of_ne {organizationId : Option Id} {r : Request}
    (h : event.activates request = some organizationId) (hr : r ≠ request) :
    event.activates r = none := by
  cases event with
  | reconnect idle => rfl
  | act request' pooled action =>
      cases action with
      | activateOrg organizationId =>
          have hrequest : request' = request := by
            by_contra hne
            simp [Event.activates, hne] at h
          simp [Event.activates, hrequest, Ne.symm hr]
      | execute | beginNested | rollbackNested | releaseNested | commit | rollback => rfl

omit [DecidableEq Conn] [DecidableEq Id] in
theorem savepoints_of_flat {organizationId : Option Id} (hflat : event.Flat s)
    (h : event.activates request = some organizationId) : s.savepoints request = [] := by
  cases event with
  | reconnect idle => simp [Event.activates] at h
  | act request' pooled action =>
      cases action with
      | activateOrg organizationId =>
          have hrequest : request' = request := by
            by_contra hne
            simp [Event.activates, hne] at h
          rwa [hrequest] at hflat
      | execute | beginNested | rollbackNested | releaseNested | commit | rollback =>
          simp [Event.activates] at h

omit [DecidableEq Conn] [DecidableEq Id] in
theorem MayHold.mono {value : List Char} (h : MayHold d before request value)
    (events : List (Event Id Data Request Conn)) : MayHold d (before ++ events) request value := by
  obtain ⟨organizationId, hmem, hvalue⟩ := h
  refine ⟨organizationId, ?_, hvalue⟩
  rw [activations_append]
  exact List.mem_cons.mpr ((List.mem_cons.mp hmem).imp id (List.mem_append_left _))

/-- One step, for what requests may see before it and after it: an event that activates nothing leaves
that as it was, and an activation changes it for its request. -/
theorem sound_step {P Q : Request → List Char → Prop} (hs : Sound d P s)
    (hsame : (∀ request, event.activates request = none) → ∀ request value, P request value →
      Q request value)
    (hactivate : ∀ request organizationId, event.activates request = some organizationId →
      (∀ r, r ≠ request → ∀ value, P r value → Q r value) ∧
        Q request (d.text.setting organizationId) ∧
        ∀ value ∈ s.savepoints request, P request value → Q request value)
    (h : step d s event = some (s', performed)) :
    Sound d Q s' ∧ ∀ p ∈ performed, (∃ value, P p.request value ∧ p.tenantOrgId = tenantOrgId d value) ∧
      execute d.role.standing p.tenantOrgId p.snapshot p.statement = some p.outcome := by
  have weaken : ∀ s' : State Id Request Conn, Sound d P s' →
      (∀ request value, P request value → Q request value) → Sound d Q s' := fun s' hs' hP =>
    ⟨hs'.owned, fun r => hP r _ (hs'.context r),
      fun r c hr value hvalue => hP r _ (hs'.values r c hr value hvalue)⟩
  cases event with
  | act request pooled action =>
      by_cases haction : ∃ organizationId, action = .activateOrg organizationId
      · obtain ⟨organizationId, rfl⟩ := haction
        obtain ⟨hothers, hnew, hsavepoints⟩ :=
          hactivate request organizationId (by simp [Event.activates])
        simp only [step, perform, Option.some.injEq, Prod.mk.injEq] at h
        obtain ⟨rfl, rfl⟩ := h
        refine ⟨sound_activateOrg hs hothers hnew fun value hvalue => hsavepoints value hvalue ?_,
          by simp⟩
        cases hsession : s.session request with
        | none => simp [State.savepoints, hsession] at hvalue
        | some c =>
            simp only [State.savepoints, hsession] at hvalue
            exact hs.savepoints hsession hvalue
      · have hnone : ∀ r, (Event.act request pooled action :
            Event Id Data Request Conn).activates r = none := by
          intro r
          cases action <;> simp_all [Event.activates]
        obtain ⟨hsound, hperformed⟩ := sound_perform hs (fun organizationId hactivates =>
          haction ⟨organizationId, hactivates⟩) h
        exact ⟨weaken s' hsound (hsame hnone), hperformed⟩
  | reconnect idle =>
      cases howner : s.owner idle with
      | some r => simp [step, howner] at h
      | none =>
          simp only [step, howner, Option.some.injEq, Prod.mk.injEq] at h
          obtain ⟨rfl, rfl⟩ := h
          have hfree : Sound d P (s.setConnection idle ⟨[], [], []⟩) :=
            sound_setConnection hs fun r hr => absurd (howner.symm.trans hr) (by simp)
          exact ⟨weaken _ hfree (hsame fun r => by simp [Event.activates]), by simp⟩

/-- Whatever the order of the requests, a connection in use holds nothing but what its request has
activated. -/
theorem sound_run {s : State Id Request Conn} {ps : List (Performed Id Data Request)}
    (hs : Sound d (MayHold d before) s) (h : run d s events = some (s', ps)) :
    Sound d (MayHold d (before ++ events)) s' ∧ ∀ p ∈ ps,
      (∃ value, MayHold d (before ++ events) p.request value ∧ p.tenantOrgId = tenantOrgId d value) ∧
      execute d.role.standing p.tenantOrgId p.snapshot p.statement = some p.outcome := by
  induction events generalizing before s s' ps with
  | nil =>
      simp only [run, Option.some.injEq, Prod.mk.injEq] at h
      obtain ⟨rfl, rfl⟩ := h
      simpa using hs
  | cons event events ih =>
      obtain ⟨⟨s₁, performed⟩, hstep, hrest⟩ := Option.bind_eq_some_iff.mp h
      obtain ⟨⟨s₂, more⟩, hrun, hfinal⟩ := Option.map_eq_some_iff.mp hrest
      simp only [Prod.mk.injEq] at hfinal
      obtain ⟨rfl, rfl⟩ := hfinal
      obtain ⟨hsound, hperformed⟩ := sound_step (Q := MayHold d (before ++ [event])) hs
        (fun _ request value hvalue => hvalue.mono [event])
        (fun request organizationId hactivates => ⟨fun r _ value hvalue => hvalue.mono [event],
          ⟨organizationId, List.mem_cons_of_mem _ (by rw [activations_snoc, hactivates]; simp), rfl⟩,
          fun value _ hvalue => hvalue.mono [event]⟩) hstep
      have hsplit : before ++ event :: events = before ++ [event] ++ events := by simp
      obtain ⟨hfinal, hmore⟩ := ih hsound hrun
      rw [hsplit]
      refine ⟨hfinal, fun p hp => ?_⟩
      rcases List.mem_append.mp hp with hfirst | hlater
      · obtain ⟨⟨value, hvalue, htenant⟩, hexecute⟩ := hperformed p (Option.mem_toList.mp hfirst)
        exact ⟨⟨value, (hvalue.mono [event]).mono events, htenant⟩, hexecute⟩
      · exact hmore p hlater

/-- A run in which no savepoint comes in between keeps every connection in use at what its request has
activated last. -/
theorem sound_run_of_flat {s : State Id Request Conn} {ps : List (Performed Id Data Request)}
    (hs : Sound d (HoldsLast d before) s) (hflat : Flat d s events)
    (h : run d s events = some (s', ps)) : Sound d (HoldsLast d (before ++ events)) s' := by
  induction events generalizing before s s' ps with
  | nil =>
      simp only [run, Option.some.injEq, Prod.mk.injEq] at h
      obtain ⟨rfl, rfl⟩ := h
      simpa using hs
  | cons event events ih =>
      obtain ⟨⟨s₁, performed⟩, hstep, hrest⟩ := Option.bind_eq_some_iff.mp h
      obtain ⟨⟨s₂, more⟩, hrun, hfinal⟩ := Option.map_eq_some_iff.mp hrest
      simp only [Prod.mk.injEq] at hfinal
      obtain ⟨rfl, rfl⟩ := hfinal
      obtain ⟨hopen, hflat⟩ := hflat
      rw [hstep] at hflat
      have hothers : ∀ r, event.activates r = none → ∀ value, HoldsLast d before r value →
          HoldsLast d (before ++ [event]) r value := by
        intro r hr value hvalue
        simpa [HoldsLast, lastActivated_snoc, hr] using hvalue
      obtain ⟨hsound, -⟩ := sound_step (Q := HoldsLast d (before ++ [event])) hs
        (fun hnone request => hothers request (hnone request))
        (fun request organizationId hactivates => ⟨fun r hr =>
            hothers r (activates_eq_none_of_ne hactivates hr),
          by simp [HoldsLast, lastActivated_snoc, hactivates],
          fun value hvalue => by simp [savepoints_of_flat hopen hactivates] at hvalue⟩) hstep
      simpa using ih hsound hflat hrun

/-- **Confinement**: whatever the order of the requests and whatever their rollbacks, a request's
statements read and change rows of those organizations alone that the request has activated. -/
theorem confined (d : Deployment Id) (dsnLabel : String) (s s' : State Id Request Conn)
    (events : List (Event Id Data Request Conn)) (ps : List (Performed Id Data Request))
    (hrole : evaluateRole d.role dsnLabel .app = none) (hbypass : d.role.rolbypassrls = false)
    (howns : d.role.ownsTables = false) (hauth : d.authOrganization = none) (hidle : s.Idle)
    (h : run d s events = some (s', ps)) :
    ∀ p ∈ ps, ∀ table row, (table, row) ∈ p.outcome.read ++ p.outcome.written → table.IsTenant →
      ∃ organization, some organization ∈ activations p.request events ∧
        Belongs p.snapshot organization table row := by
  intro p hp table row hmem htable
  have hstart : Sound d (MayHold d ([] : List (Event Id Data Request Conn))) s :=
    sound_of_idle hidle fun request => ⟨none, by simp, rfl⟩
  obtain ⟨⟨value, ⟨organizationId, hactivated, rfl⟩, htenant⟩, hexecute⟩ :=
    (sound_run hstart h).2 p hp
  rw [standing_of_evaluateRole hrole hbypass howns] at hexecute
  rw [tenantOrgId_setting hauth] at htenant
  obtain ⟨tenant, hsome, hrow⟩ := belongs_of_execute hexecute table row hmem htable
  rw [htenant] at hsome
  refine ⟨tenant, ?_, hrow⟩
  rw [hsome] at hactivated
  simpa using hactivated

end Requests

/-! ### One connection, two requests -/

/-- Organizations told apart by a letter, and a role that the check at startup accepts. -/
def letters : Deployment Bool where
  role := ⟨some "api", false, false, false, true, false⟩
  text := ⟨fun id => if id then ['t'] else ['f'], fun value => some (value = ['t']), by decide, by decide⟩
  authOrganization := none

def freshServer : State Bool ℕ Unit := ⟨fun _ => none, fun _ => none, fun _ => none, fun _ => ⟨['f'], [], []⟩⟩

/-- A lead of each organization. -/
def twoLeads : Snapshot Bool Unit
  | .leads => [⟨true, some true, none, ()⟩, ⟨false, some false, none, ()⟩]
  | _ => []

def readLeads : Action Bool Unit := .execute twoLeads (.select .leads fun _ => true)

def twoRequests : List (Event Bool Unit ℕ Unit) :=
  [.act 0 () (.activateOrg (some true)), .act 0 () readLeads, .act 0 () .commit, .act 1 () readLeads]

theorem confined_twoRequests : ∃ s' ps, run letters freshServer twoRequests = some (s', ps) ∧
    ps.map (fun p => p.outcome.read.length) = [1, 0] ∧
    ∀ p ∈ ps, ∀ table row, (table, row) ∈ p.outcome.read ++ p.outcome.written → table.IsTenant →
      ∃ organization, some organization ∈ activations p.request twoRequests ∧
        Belongs p.snapshot organization table row :=
  ⟨_, _, rfl, rfl, confined letters "DATABASE_URL" freshServer _ twoRequests _ (by decide) rfl rfl rfl
    ⟨fun _ => rfl, fun _ => rfl, fun _ => rfl⟩ rfl⟩

/-- The request goes on after its transaction was rolled back and another request had the connection. -/
def afterRollback : List (Event Bool Unit ℕ Unit) :=
  [.act 0 () (.activateOrg (some true)), .act 0 () .beginNested, .act 0 () .rollbackNested,
    .act 0 () .rollback, .act 1 () readLeads, .act 1 () .commit]

end Tenancy
