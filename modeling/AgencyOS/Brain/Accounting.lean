import AgencyOS.Brain.Model

/-!
Authorization and accounting of the tool calls.

Every call of a reply is refused, fails or returns, and leaves one entry in the trace.  It leaves one
result as well, unless the tool returned a result that has no text: that one stays in the results,
and the error of its text is added to them.

* `permitted`, `textFails`: what becomes of a call, from what the run is given;
* `requestedCalls`: the calls that the replies ask for;
* `handleCall_spec`, `handleCalls_spec`, `loop_spec`: a call, a reply, the loop;
* `brain_accounted_iff`: authorization, bound and trace hold always, and the results agree with the
  trace exactly when the text of no result fails.
-/

namespace Brain

variable {Args : Type} (world : World Args) (registry : List Tool) (request : Request)

/-- The checks on the name of a tool. -/
def permitted (name : String) : Bool :=
  request.allowedTools.all (name ∈ ·) && (get registry name).isSome &&
    request.callerPermissions.all fun callerPermissions =>
      (requiredPermissionFor name).any (· ∈ callerPermissions)

/-- The tool is executed and returns a result whose text raises. -/
def textFails (step position : ℕ) (call : ToolCall) : Bool :=
  permitted registry request call.name &&
    match parseArguments world call.arguments with
    | .error _ => false
    | .ok arguments =>
        match world.runTool step position call.name arguments with
        | .error _ => false
        | .ok result =>
            match result.text with
            | .error _ => true
            | .ok _ => false

/-- The calls of the replies, up to the first reply without any. -/
def requestedCalls : ℕ → ℕ → List (ℕ × ℕ × ToolCall)
  | 0, _ => []
  | left + 1, step =>
      match world.chat step with
      | .error _ => []
      | .ok result =>
          if result.toolCalls = [] then []
          else (result.toolCalls.zipIdx.map fun (call, position) => (step, position, call)) ++
            requestedCalls left (step + 1)

def Event.isChat : Event Args → Bool
  | .chat _ _ => true
  | .execute _ _ => false

/-- The guarantees of a run for the calls that were requested. -/
structure Accounted (maxSteps : ℤ) (calls : List (ℕ × ℕ × ToolCall)) (state : State Args) : Prop where
  /-- Only permitted tools are executed. -/
  authorized : ∀ name arguments, Event.execute name arguments ∈ state.events →
    (∀ allowed, request.allowedTools = some allowed → name ∈ allowed) ∧
    ∀ callerPermissions, request.callerPermissions = some callerPermissions →
      ∃ required, requiredPermissionFor name = some required ∧ required ∈ callerPermissions
  bounded : state.events.countP Event.isChat ≤ maxSteps.toNat
  /-- One entry for each call, in order. -/
  traced : state.toolTrace.map TraceEntry.tool = calls.map fun call => call.2.2.name
  counted : state.toolResults.length = state.toolTrace.length

/-! ### A call -/

/-- What handling some calls, with at most so many calls of the model, appends to a state. -/
structure Handled (calls : List (ℕ × ℕ × ToolCall)) (chats : ℕ) (state state' : State Args) :
    Prop where
  trace : ∃ entries, state'.toolTrace = state.toolTrace ++ entries ∧
    entries.map TraceEntry.tool = calls.map fun call => call.2.2.name
  results : state'.toolResults.length = state.toolResults.length + calls.length +
    calls.countP fun call => textFails world registry request call.1 call.2.1 call.2.2
  events : ∃ executed, state'.events = state.events ++ executed ∧
    executed.countP Event.isChat ≤ chats ∧
    ∀ name arguments, Event.execute name arguments ∈ executed → permitted registry request name

variable {world registry request}

lemma Handled.nil (chats : ℕ) (state : State Args) :
    Handled world registry request [] chats state state :=
  ⟨⟨[], by simp, rfl⟩, by simp, ⟨[], by simp, by simp, by simp⟩⟩

lemma Handled.append {calls calls' : List (ℕ × ℕ × ToolCall)} {chats chats' : ℕ}
    {state state' state'' : State Args} (h : Handled world registry request calls chats state state')
    (h' : Handled world registry request calls' chats' state' state'') :
    Handled world registry request (calls ++ calls') (chats + chats') state state'' := by
  obtain ⟨⟨entries, htrace, htools⟩, hresults, ⟨executed, hevents, hchats, hpermitted⟩⟩ := h
  obtain ⟨⟨entries', htrace', htools'⟩, hresults', ⟨executed', hevents', hchats', hpermitted'⟩⟩ := h'
  refine ⟨⟨entries ++ entries', ?_, ?_⟩, ?_, ⟨executed ++ executed', ?_, ?_, ?_⟩⟩
  · rw [htrace', htrace, List.append_assoc]
  · rw [List.map_append, List.map_append, htools, htools']
  · rw [hresults', hresults, List.length_append, List.countP_append]
    omega
  · rw [hevents', hevents, List.append_assoc]
  · rw [List.countP_append]
    omega
  · intro name arguments hevent
    rcases List.mem_append.1 hevent with hevent | hevent
    · exact hpermitted name arguments hevent
    · exact hpermitted' name arguments hevent

lemma permitted_of_checks {name : String} (hallowed : ¬ request.allowedTools.any (name ∉ ·))
    {tool : Tool} (hget : get registry name = some tool)
    (hinvoke : assertCanInvokeTool world request name = .ok ()) : permitted registry request name := by
  have hnames : request.allowedTools.all (name ∈ ·) := by
    cases htools : request.allowedTools <;> simp_all
  have hpermissions : request.callerPermissions.all fun callerPermissions =>
      (requiredPermissionFor name).any (· ∈ callerPermissions) := by
    rw [assertCanInvokeTool] at hinvoke
    cases hcaller : request.callerPermissions with
    | none => rfl
    | some callerPermissions =>
        rw [hcaller] at hinvoke
        cases hrequired : requiredPermissionFor name with
        | none => simp [hrequired] at hinvoke
        | some required =>
            by_cases hmem : required ∈ callerPermissions
            · simpa using hmem
            · simp [hrequired, hmem] at hinvoke
  simp [permitted, hnames, hget, hpermissions]

/-- A refused call is not permitted, whichever check refuses it. -/
lemma not_permitted_of_denial {name denial : String}
    (hinvoke : assertCanInvokeTool world request name = .error denial) :
    permitted registry request name = false := by
  rw [assertCanInvokeTool] at hinvoke
  cases hcaller : request.callerPermissions with
  | none => simp [hcaller] at hinvoke
  | some callerPermissions =>
      rw [hcaller] at hinvoke
      cases hrequired : requiredPermissionFor name with
      | none => simp [permitted, hcaller, hrequired]
      | some required =>
          by_cases hmem : required ∈ callerPermissions
          · simp [hrequired, hmem] at hinvoke
          · simp [permitted, hcaller, hrequired, hmem]

lemma deny_spec {step position : ℕ} {call : ToolCall} (state : State Args) (allowed : Bool)
    (denial : String) (hdenied : permitted registry request call.name = false) :
    Handled world registry request [(step, position, call)] 0 state
      (deny request state call allowed denial) where
  trace := ⟨[_], rfl, rfl⟩
  results := by simp [deny, textFails, hdenied]
  events := ⟨[], by simp [deny], by simp, by simp⟩

/-- An executed call appends one entry, and a second result when the text of the first fails. -/
lemma execute_spec {step position : ℕ} {call : ToolCall} (state : State Args)
    (hpermitted : permitted registry request call.name) :
    Handled world registry request [(step, position, call)] 0 state
      (execute world request step position state call) := by
  rw [execute]
  cases hparse : parseArguments world call.arguments with
  | error raised =>
      exact ⟨⟨[_], rfl, rfl⟩, by simp [fail, textFails, hparse], ⟨[], by simp [fail], by simp, by simp⟩⟩
  | ok arguments =>
      have hchats : [Event.execute call.name arguments].countP Event.isChat ≤ 0 := by
        simp [Event.isChat]
      have hexecuted : ∀ name given, Event.execute name given ∈ [Event.execute call.name arguments] →
          permitted registry request name := by
        intro name given hmem
        have hname : name = call.name ∧ given = arguments := by simpa using hmem
        exact hname.1 ▸ hpermitted
      dsimp only
      cases hrun : world.runTool step position call.name arguments with
      | error raised =>
          exact ⟨⟨[_], rfl, rfl⟩, by simp [fail, textFails, hparse, hrun], ⟨[_], rfl, hchats, hexecuted⟩⟩
      | ok result =>
          dsimp only
          cases htext : result.text with
          | error raised =>
              refine ⟨⟨[_], rfl, rfl⟩, ?_, ⟨[_], rfl, hchats, hexecuted⟩⟩
              simp [fail, textFails, hparse, hrun, htext, hpermitted]
          | ok text =>
              refine ⟨⟨[_], rfl, rfl⟩, ?_, ⟨[_], rfl, hchats, hexecuted⟩⟩
              simp [textFails, hparse, hrun, htext]

lemma handleCall_spec (step position : ℕ) (call : ToolCall) (state : State Args) :
    Handled world registry request [(step, position, call)] 0 state
      (handleCall world registry request step position state call) := by
  rw [handleCall]
  split
  · next hallowed =>
    refine deny_spec state _ _ ?_
    cases htools : request.allowedTools <;> simp_all [permitted]
  · next hallowed =>
    cases hget : get registry call.name with
    | none => exact deny_spec state _ _ (by simp [permitted, hget])
    | some tool =>
        cases hinvoke : assertCanInvokeTool world request call.name with
        | error denial => exact deny_spec state _ _ (not_permitted_of_denial hinvoke)
        | ok _ => exact execute_spec state (permitted_of_checks hallowed hget hinvoke)

/-! ### A reply, the loop -/

lemma handleCalls_spec (step : ℕ) (calls : List (ToolCall × ℕ)) (state : State Args) :
    Handled world registry request (calls.map fun (call, position) => (step, position, call)) 0 state
      (calls.foldl (fun state (call, position) =>
        handleCall world registry request step position state call) state) := by
  induction calls generalizing state with
  | nil => exact Handled.nil 0 state
  | cons call calls ih =>
      exact (handleCall_spec step call.2 call.1 state).append (ih _)

/-- A call of the model changes neither the results nor the trace. -/
lemma chat_spec (state : State Args) :
    Handled world registry request [] 1 state
      { state with events := state.events ++ [.chat state.messages registry] } :=
  ⟨⟨[], by simp, rfl⟩, by simp, ⟨[_], rfl, by simp [Event.isChat], by simp⟩⟩

/-- The loop handles the requested calls, one call of the model a step. -/
lemma loop_spec (maxSteps : ℤ) (left steps : ℕ) (state : State Args) :
    Handled world registry request (requestedCalls world left steps) left state
      (loop world registry request maxSteps left steps state).2 := by
  induction left generalizing steps state with
  | zero => exact Handled.nil 0 state
  | succ left ih =>
      have hfirst : Handled world registry request [] (left + 1) state
          { state with events := state.events ++ [.chat state.messages registry] } := by
        simpa [Nat.add_comm] using (chat_spec state).append (Handled.nil left _)
      rw [loop, requestedCalls]
      cases hchat : world.chat steps with
      | error raised => exact hfirst
      | ok result =>
          by_cases hnone : result.toolCalls = []
          · simpa [hnone] using hfirst
          · have hcalls := (chat_spec state).append
              ((handleCalls_spec steps result.toolCalls.zipIdx _).append (ih (steps + 1) _))
            simpa [hnone, handleCalls, Nat.add_comm] using hcalls

/-! ### The run -/

lemma run_spec (world : World Args) (registry : List Tool) (request : Request) (maxSteps : ℤ) :
    Handled world registry request (requestedCalls world maxSteps.toNat 0) maxSteps.toNat
      ⟨initialMessages request, [], [], []⟩ (run world registry request maxSteps).2 :=
  loop_spec maxSteps maxSteps.toNat 0 _

lemma checks_of_permitted {name : String} (hpermitted : permitted registry request name) :
    (∀ allowed, request.allowedTools = some allowed → name ∈ allowed) ∧
    ∀ callerPermissions, request.callerPermissions = some callerPermissions →
      ∃ required, requiredPermissionFor name = some required ∧ required ∈ callerPermissions := by
  simp only [permitted, Bool.and_eq_true, Option.all_eq_true, decide_eq_true_eq] at hpermitted
  obtain ⟨⟨hallowed, -⟩, hcaller⟩ := hpermitted
  refine ⟨fun allowed h => hallowed allowed h, fun callerPermissions h => ?_⟩
  simpa [Option.any_eq_true] using hcaller callerPermissions h

/-- **Authorization and accounting**: a run executes only permitted tools, calls the model at most
`max_steps` times, leaves one entry for each requested call in order and as many results as entries,
exactly when no tool that is executed returns a result whose text raises. -/
theorem brain_accounted_iff (world : World Args) (registry : List Tool) (request : Request)
    (maxSteps : ℤ) :
    Accounted request maxSteps (requestedCalls world maxSteps.toNat 0)
        (run world registry request maxSteps).2 ↔
      ∀ call ∈ requestedCalls world maxSteps.toNat 0,
        textFails world registry request call.1 call.2.1 call.2.2 = false := by
  obtain ⟨⟨entries, htrace, htools⟩, hresults, ⟨executed, hevents, hchats, hpermitted⟩⟩ :=
    run_spec world registry request maxSteps
  rw [List.nil_append] at htrace hevents
  have hlength : entries.length = (requestedCalls world maxSteps.toNat 0).length := by
    simpa using congrArg List.length htools
  -- every failing text adds a result that the trace does not have
  have hcounted : (run world registry request maxSteps).2.toolResults.length
      = (run world registry request maxSteps).2.toolTrace.length ↔
      ∀ call ∈ requestedCalls world maxSteps.toNat 0,
        textFails world registry request call.1 call.2.1 call.2.2 = false := by
    rw [hresults, htrace, hlength, List.length_nil, Nat.zero_add, Nat.add_eq_left,
      List.countP_eq_zero]
    simp only [Bool.not_eq_true]
  constructor
  · exact fun haccounted => hcounted.1 haccounted.counted
  · intro hreadable
    refine ⟨fun name arguments hevent => ?_, ?_, ?_, hcounted.2 hreadable⟩
    · exact checks_of_permitted (hpermitted name arguments (hevents ▸ hevent))
    · rw [hevents]
      exact hchats
    · rw [htrace, htools]

/-- Whatever the texts, only permitted tools are executed. -/
theorem brain_authorized (world : World Args) (registry : List Tool) (request : Request)
    (maxSteps : ℤ) {name : String} {arguments : Args}
    (hevent : Event.execute name arguments ∈ (run world registry request maxSteps).2.events) :
    permitted registry request name := by
  obtain ⟨-, -, ⟨executed, hevents, -, hpermitted⟩⟩ :=
    run_spec world registry request maxSteps
  exact hpermitted name arguments (by simpa [hevents] using hevent)

/-- A registry with the dispatch tool. -/
def dispatchRegistry : List Tool := [⟨"n8n_dispatch", "Dispatch a payload to a webhook.", "object"⟩]

def dispatchRequest : Request :=
  ⟨"follow_up", [], none, some {.leadWrite}, some {"n8n_dispatch"}, none, none, none⟩

/-- The model asks for one dispatch and then answers; the reply of the webhook is nested as deep as
it can just be read, and one level deeper in the result. -/
def nestedReply : World Unit where
  repr s := "'" ++ s ++ "'"
  loads _ := .ok (some ())
  emptyArgs := ()
  chat step := .ok (if step = 0 then ⟨"", [⟨"call_1", "n8n_dispatch", ""⟩]⟩ else ⟨"done", []⟩)
  runTool _ _ _ _ := .ok ⟨true, .value (.error ⟨.other, "maximum recursion depth exceeded"⟩) (.ok ""),
    none⟩
  durationMs _ _ := 1

/-- One call is requested and traced, with two results. -/
theorem brain_counts_twice :
    ¬ Accounted dispatchRequest 8 (requestedCalls nestedReply 8 0)
      (run nestedReply dispatchRegistry dispatchRequest 8).2 :=
  fun haccounted => absurd haccounted.counted (by decide)

end Brain
