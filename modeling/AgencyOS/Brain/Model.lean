import Mathlib.Data.Finset.Basic
import Mathlib.Tactic

/-!
The brain: the loop that lets a language model call tools.

The replies of the model, what a tool returns or raises and how long it takes are the world's, and
any of them can come.  The message history is given; the brain appends to it.

* `requiredPermissionFor`, `assertCanInvokeTool`: the manifest and the check against it;
* `ToolResult.text`: a result as text, which can fail;
* `handleCall`: one tool call, denied or executed;
* `run`: the loop, with the events it causes outside.
-/

namespace Brain

/-! ### Permissions -/

inductive Permission where
  | leadRead | leadWrite | leadDelete | leadAssign | pipelineManage | aiManage | taskRead
  | taskWrite | taskManage | noteRead | noteWrite | search | «export» | analyticsRead | teamManage
  | inviteManage | auditRead | workflowRead | workflowWrite | workflowManage | executionRead
  | executionWrite | executionManage | automationRead | automationWrite | automationManage
  | automationControl | credentialManage | credentialRead | credentialWrite | credentialDelete
  | memoryRead | memoryWrite | approvalRead | approvalManage | notificationRead
  | notificationWrite | growthRead | growthManage | agentRead | agentManage | deliveryRead
  | deliveryWrite | deliveryManage | founderRead | founderManage | aiRun | intelligenceRead
  deriving DecidableEq, Repr

def Permission.value : Permission → String
  | leadRead => "lead_read"
  | leadWrite => "lead_write"
  | leadDelete => "lead_delete"
  | leadAssign => "lead_assign"
  | pipelineManage => "pipeline_manage"
  | aiManage => "ai_manage"
  | taskRead => "task_read"
  | taskWrite => "task_write"
  | taskManage => "task_manage"
  | noteRead => "note_read"
  | noteWrite => "note_write"
  | search => "search"
  | «export» => "export"
  | analyticsRead => "analytics_read"
  | teamManage => "team_manage"
  | inviteManage => "invite_manage"
  | auditRead => "audit_read"
  | workflowRead => "workflow_read"
  | workflowWrite => "workflow_write"
  | workflowManage => "workflow_manage"
  | executionRead => "execution_read"
  | executionWrite => "execution_write"
  | executionManage => "execution_manage"
  | automationRead => "automation_read"
  | automationWrite => "automation_write"
  | automationManage => "automation_manage"
  | automationControl => "automation_control"
  | credentialManage => "credential_manage"
  | credentialRead => "credential_read"
  | credentialWrite => "credential_write"
  | credentialDelete => "credential_delete"
  | memoryRead => "memory_read"
  | memoryWrite => "memory_write"
  | approvalRead => "approval_read"
  | approvalManage => "approval_manage"
  | notificationRead => "notification_read"
  | notificationWrite => "notification_write"
  | growthRead => "growth_read"
  | growthManage => "growth_manage"
  | agentRead => "agent_read"
  | agentManage => "agent_manage"
  | deliveryRead => "delivery_read"
  | deliveryWrite => "delivery_write"
  | deliveryManage => "delivery_manage"
  | founderRead => "founder_read"
  | founderManage => "founder_manage"
  | aiRun => "ai_run"
  | intelligenceRead => "intelligence_read"

/-- The name and the required permission of each tool of the manifest. -/
def toolManifest : List (String × Permission) :=
  [("lead_search", .leadRead),
    ("lead_research", .leadRead),
    ("http_get", .aiRun),
    ("web_search", .aiRun),
    ("draft_outreach", .leadWrite),
    ("n8n_dispatch", .leadWrite),
    ("growth_analysis", .growthRead),
    ("intelligence_signals", .intelligenceRead),
    ("summarize_context", .founderRead),
    ("get_recent_activity", .founderRead),
    ("create_task", .founderManage),
    ("propose_founder_action", .founderManage)]

def requiredPermissionFor (name : String) : Option Permission := toolManifest.lookup name

/-! ### Results of tools -/

/-- The exceptions that the code tells apart. -/
inductive ErrorKind where
  | jsonDecodeError | valueError | typeError | other
  deriving DecidableEq, Repr

structure Raised where
  kind : ErrorKind
  message : String
  deriving DecidableEq, Repr

/-- The content of a result.  A value is told by what `json.dumps` and `str` make of it. -/
inductive Content where
  | none
  | text (s : String)
  | value (dumps str : Except Raised String)

structure ToolResult where
  ok : Bool
  content : Content
  error : Option String

/-- A result as text.  Only the errors that `json.dumps` is known for are caught: a value nested
deeper than the interpreter's recursion limit raises another. -/
def ToolResult.text (result : ToolResult) : Except Raised String :=
  if result.ok = false ∧ result.error.getD "" ≠ "" then
    .ok (result.error.getD "")
  else
    match result.content with
    | .none => .ok ""
    | .text s => .ok s
    | .value dumps str =>
        match dumps with
        | .ok s => .ok s
        | .error raised =>
            if raised.kind = .other then .error raised else str

/-! ### Messages -/

inductive MessageRole where
  | system | user | assistant | tool
  deriving DecidableEq, Repr

structure ToolCall where
  id : String
  name : String
  arguments : String
  deriving DecidableEq, Repr

structure LLMMessage where
  role : MessageRole
  content : String
  toolCallId : Option String
  toolCalls : Option (List ToolCall)
  deriving DecidableEq, Repr

structure ChatResult where
  text : String
  toolCalls : List ToolCall
  deriving DecidableEq, Repr

/-- A registered tool as the model sees it. -/
structure Tool where
  name : String
  description : String
  parameters : String
  deriving DecidableEq, Repr

/-- `ToolRegistry.get`. -/
def get (registry : List Tool) (name : String) : Option Tool :=
  registry.find? fun tool => tool.name = name

/-! ### The run -/

/-- What a run is asked for.  Without a set of tools or of permissions its check is skipped. -/
structure Request where
  goal : String
  messages : List LLMMessage
  planOverride : Option (List (String × String))
  callerPermissions : Option (Finset Permission)
  allowedTools : Option (Finset String)
  organizationId : Option String
  traceId : Option String
  runId : Option String

/-- The world outside the brain: how Python shows a string and reads JSON (`none` for a value that is
not an object), and at each step the reply of the model and what its calls come to. -/
structure World (Args : Type) where
  repr : String → String
  loads : String → Except Raised (Option Args)
  emptyArgs : Args
  chat : ℕ → Except Raised ChatResult
  runTool : ℕ → ℕ → String → Args → Except Raised ToolResult
  durationMs : ℕ → ℕ → ℚ

structure TraceEntry where
  tool : String
  goal : String
  organizationId : Option String
  traceId : Option String
  runId : Option String
  allowed : Bool
  authorized : Bool
  ok : Bool
  error : Option String
  durationMs : ℚ
  charLen : ℕ
  deriving DecidableEq, Repr

/-- What a run causes outside: a call of the model, or of a tool. -/
inductive Event (Args : Type) where
  | chat (messages : List LLMMessage) (tools : List Tool)
  | execute (name : String) (arguments : Args)

structure State (Args : Type) where
  messages : List LLMMessage
  toolResults : List ToolResult
  toolTrace : List TraceEntry
  events : List (Event Args)

structure BrainResult where
  success : Bool
  response : Option String
  error : Option String
  stepsTaken : ℕ
  organizationId : Option String
  traceId : Option String
  runId : Option String
  deriving DecidableEq, Repr

section Run

variable {Args : Type} (world : World Args) (registry : List Tool) (request : Request)

/-- `assert_can_invoke_tool`: why a tool is refused. -/
def assertCanInvokeTool (name : String) : Except String Unit :=
  match request.callerPermissions with
  | none => .ok ()
  | some callerPermissions =>
      match requiredPermissionFor name with
      | none =>
          .error ("tool " ++ world.repr name ++ " is not registered and cannot be authorized")
      | some required =>
          if required ∈ callerPermissions then .ok ()
          else .error ("caller lacks permission " ++ world.repr required.value ++
            " required for tool " ++ world.repr name)

/-- `_parse_arguments`. -/
def parseArguments (raw : String) : Except Raised Args :=
  if raw = "" then .ok world.emptyArgs
  else
    match world.loads raw with
    | .ok (some arguments) => .ok arguments
    | .ok none => .ok world.emptyArgs
    | .error raised =>
        if raised.kind = .jsonDecodeError then .ok world.emptyArgs else .error raised

/-- The audit entry of a call. -/
def entry (call : ToolCall) (allowed authorized ok : Bool) (error : Option String)
    (durationMs : ℚ) (charLen : ℕ) : TraceEntry :=
  { tool := call.name
    goal := request.goal
    organizationId := request.organizationId
    traceId := request.traceId
    runId := request.runId
    allowed := allowed
    authorized := authorized
    ok := ok
    error := error
    durationMs := durationMs
    charLen := charLen }

/-- A call that is refused: the error goes into the results and the trace. -/
def deny (state : State Args) (call : ToolCall) (allowed : Bool) (denial : String) : State Args :=
  { state with
    toolResults := state.toolResults ++ [⟨false, .none, some denial⟩]
    toolTrace := state.toolTrace ++ [entry request call allowed false false (some denial) 0 0] }

/-- A call that raised: the same, for one that passed the checks. -/
def fail (state : State Args) (call : ToolCall) (durationMs : ℚ) (raised : Raised) : State Args :=
  { state with
    toolResults := state.toolResults ++ [⟨false, .none, some raised.message⟩]
    toolTrace := state.toolTrace ++
      [entry request call true true false (some raised.message) durationMs 0] }

/-- An authorized call.  The result is kept before its text is made. -/
def execute (step position : ℕ) (state : State Args) (call : ToolCall) : State Args :=
  let durationMs := world.durationMs step position
  match parseArguments world call.arguments with
  | .error raised => fail request state call durationMs raised
  | .ok arguments =>
      let state := { state with events := state.events ++ [.execute call.name arguments] }
      match world.runTool step position call.name arguments with
      | .error raised => fail request state call durationMs raised
      | .ok result =>
          let state := { state with toolResults := state.toolResults ++ [result] }
          match result.text with
          | .error raised => fail request state call durationMs raised
          | .ok text =>
              { state with
                messages := state.messages ++ [⟨.tool, text, some call.id, none⟩]
                toolTrace := state.toolTrace ++
                  [entry request call true true result.ok result.error durationMs text.length] }

/-- One tool call of a reply: the allow-list, the registry, the permission, the execution. -/
def handleCall (step position : ℕ) (state : State Args) (call : ToolCall) : State Args :=
  if request.allowedTools.any (call.name ∉ ·) then
    deny request state call false
      ("tool " ++ world.repr call.name ++ " is not permitted for goal " ++ world.repr request.goal)
  else
    match get registry call.name with
    | none => deny request state call true ("unknown tool: " ++ call.name)
    | some _ =>
        match assertCanInvokeTool world request call.name with
        | .error denial => deny request state call true denial
        | .ok _ => execute world request step position state call

/-- The calls of a reply, in order. -/
def handleCalls (step : ℕ) (state : State Args) (calls : List ToolCall) : State Args :=
  calls.zipIdx.foldl (fun state (call, position) =>
    handleCall world registry request step position state call) state

def brainResult (success : Bool) (response error : Option String) (stepsTaken : ℕ) : BrainResult :=
  ⟨success, response, error, stepsTaken, request.organizationId, request.traceId, request.runId⟩

/-- The loop, with the steps that are left and the steps taken. -/
def loop (maxSteps : ℤ) : ℕ → ℕ → State Args → BrainResult × State Args
  | 0, steps, state =>
      (brainResult request false none
        (some ("max steps (" ++ toString maxSteps ++ ") reached")) steps, state)
  | left + 1, steps, state =>
      let state := { state with events := state.events ++ [.chat state.messages registry] }
      match world.chat steps with
      | .error raised =>
          (brainResult request false none (some ("LLM call failed: " ++ raised.message)) (steps + 1),
            state)
      | .ok result =>
          if result.toolCalls = [] then
            (brainResult request true (some result.text) none (steps + 1), state)
          else
            loop maxSteps left (steps + 1) (handleCalls world registry request steps state
              result.toolCalls)

/-- The history, with the plan as a reply of the model when there is one. -/
def initialMessages : List LLMMessage :=
  match request.planOverride with
  | none | some [] => request.messages
  | some plan =>
      request.messages ++ [⟨.assistant, "", none, some (plan.zipIdx.map fun ((tool, input), i) =>
        ⟨"plan_" ++ toString i, tool, input⟩)⟩]

/-- `Brain.run`. -/
def run (maxSteps : ℤ) : BrainResult × State Args :=
  loop world registry request maxSteps maxSteps.toNat 0 ⟨initialMessages request, [], [], []⟩

end Run

end Brain
