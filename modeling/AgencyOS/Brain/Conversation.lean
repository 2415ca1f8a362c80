import AgencyOS.Brain.Accounting

/-!
The message lists that the model is sent.

A call that was executed is answered by a message with its identifier.  The reply that asked for it is
not put into the history, so the answer stands there without its question, unless the plan names a call
of that identifier; and a call that was refused or failed has no answer.

* `buildMessageHistory`: the history a run begins with, in which nobody calls or answers;
* `answer`: the message that a call leaves;
* `histories`, `histories_spec`: the lists sent in a run, from the replies;
* `Paired`, `Answered`, `Conversation`: the protocol between calls and answers;
* `conversation_iff`: **a run keeps the protocol exactly when every call it goes on from is answered and
  named in the plan**.
-/

namespace Brain

/-! ### The history before the run -/

/-- A stored message, with what `get` falls back to. -/
structure RecentMessage where
  role : Option String
  content : Option String
  deriving DecidableEq, Repr

/-- A stored message as one of the conversation. -/
def RecentMessage.toMessage (msg : RecentMessage) : LLMMessage :=
  let role := msg.role.getD "user"
  let content := msg.content.getD ""
  if role = "assistant" then ⟨.assistant, content, none, none⟩
  else if role = "tool" then ⟨.user, "[Tool Result] " ++ content, none, none⟩
  else ⟨.user, content, none, none⟩

/-- `build_message_history`: the last ten turns after the system prompt. -/
def buildMessageHistory (recentMessages : Option (List RecentMessage)) (systemPrompt : String) :
    List LLMMessage :=
  let recent := recentMessages.getD []
  (if systemPrompt = "" then [] else [⟨.system, systemPrompt, none, none⟩])
    ++ (recent.drop (recent.length - 10)).map RecentMessage.toMessage

/-- Nobody calls a tool, and no tool answers. -/
def LLMMessage.Plain (m : LLMMessage) : Prop := m.role ≠ .tool ∧ m.toolCalls = none

lemma RecentMessage.plain (msg : RecentMessage) : msg.toMessage.Plain := by
  rw [RecentMessage.toMessage]
  split_ifs <;> exact ⟨by simp, rfl⟩

lemma plain_of_mem_buildMessageHistory {recentMessages : Option (List RecentMessage)}
    {systemPrompt : String} {m : LLMMessage} (h : m ∈ buildMessageHistory recentMessages systemPrompt) :
    m.Plain := by
  rw [buildMessageHistory, List.mem_append] at h
  rcases h with h | h
  · split_ifs at h
    · cases h
    · obtain rfl := List.mem_singleton.1 h
      exact ⟨by simp, rfl⟩
  · obtain ⟨msg, -, rfl⟩ := List.mem_map.1 h
    exact msg.plain

/-! ### The protocol -/

/-- Every answer of a tool comes after a message of the assistant with the call it answers. -/
def Paired (messages : List LLMMessage) : Prop :=
  ∀ front m rest, messages = front ++ m :: rest → m.role = .tool →
    ∃ a ∈ front, a.role = .assistant ∧
      ∃ calls, a.toolCalls = some calls ∧ ∃ call ∈ calls, m.toolCallId = some call.id

/-- The answers of the tools are one for each of the calls, in their order. -/
def Answered (messages : List LLMMessage) (calls : List (ℕ × ℕ × ToolCall)) : Prop :=
  (messages.filter fun m => m.role = .tool).map LLMMessage.toolCallId
    = calls.map fun call => some call.2.2.id

variable {Args : Type}

/-- The message list of a call of the model. -/
def Event.sent : Event Args → Option (List LLMMessage)
  | .chat messages _ => some messages
  | .execute _ _ => none

/-- Every message list that is sent pairs answers with calls, and answers the replies before it. -/
def Conversation (world : World Args) (state : State Args) : Prop :=
  ∀ step messages, (state.events.filterMap Event.sent)[step]? = some messages →
    Paired messages ∧ Answered messages (requestedCalls world step 0)

/-! ### What a call leaves -/

variable (world : World Args) (registry : List Tool) (request : Request)

/-- The answer to a call that is executed and whose result has a text. -/
def answer (step position : ℕ) (call : ToolCall) : Option LLMMessage :=
  if permitted registry request call.name then do
    let arguments ← (parseArguments world call.arguments).toOption
    let result ← (world.runTool step position call.name arguments).toOption
    let text ← result.text.toOption
    some ⟨.tool, text, some call.id, none⟩
  else none

/-- The answers to some calls, in order. -/
def answers (calls : List (ℕ × ℕ × ToolCall)) : List LLMMessage :=
  calls.filterMap fun call => answer world registry request call.1 call.2.1 call.2.2

/-- The message lists that are sent from a step on. -/
def histories : ℕ → ℕ → List LLMMessage → List (List LLMMessage)
  | 0, _, _ => []
  | left + 1, step, messages =>
      messages :: match world.chat step with
        | .error _ => []
        | .ok result =>
            if result.toolCalls = [] then []
            else histories left (step + 1) (messages ++ answers world registry request
              (result.toolCalls.zipIdx.map fun (call, position) => (step, position, call)))

variable {world registry request}

lemma answer_eq_some {step position : ℕ} {call : ToolCall} {m : LLMMessage}
    (h : answer world registry request step position call = some m) :
    m.role = .tool ∧ m.toolCallId = some call.id := by
  rw [answer] at h
  split_ifs at h
  obtain ⟨arguments, -, h⟩ := Option.bind_eq_some_iff.1 h
  obtain ⟨result, -, h⟩ := Option.bind_eq_some_iff.1 h
  obtain ⟨text, -, h⟩ := Option.bind_eq_some_iff.1 h
  obtain rfl := Option.some.inj h
  exact ⟨rfl, rfl⟩

/-- What a call appends to the history, and to the lists that were sent. -/
structure Says (messages : List LLMMessage) (state state' : State Args) : Prop where
  messages : state'.messages = state.messages ++ messages
  sent : state'.events.filterMap Event.sent = state.events.filterMap Event.sent

lemma deny_says (state : State Args) (call : ToolCall) (allowed : Bool) (denial : String) :
    Says [] state (deny request state call allowed denial) :=
  ⟨(List.append_nil _).symm, rfl⟩

lemma execute_says {step position : ℕ} {call : ToolCall} (state : State Args)
    (hpermitted : permitted registry request call.name) :
    Says (answer world registry request step position call).toList state
      (execute world request step position state call) := by
  rw [execute, answer, if_pos hpermitted]
  cases hparse : parseArguments world call.arguments with
  | error raised => exact ⟨(List.append_nil _).symm, rfl⟩
  | ok arguments =>
      have hsent : ∀ state' : State Args,
          state'.events = state.events ++ [.execute call.name arguments] →
          state'.events.filterMap Event.sent = state.events.filterMap Event.sent := by
        intro state' hevents
        rw [hevents, List.filterMap_append]
        exact List.append_nil _
      dsimp only [Except.toOption, Option.bind_eq_bind, Option.bind_some]
      cases hrun : world.runTool step position call.name arguments with
      | error raised => exact ⟨(List.append_nil _).symm, hsent _ rfl⟩
      | ok result =>
          dsimp only [Option.bind_some]
          cases htext : result.text with
          | error raised => exact ⟨(List.append_nil _).symm, hsent _ rfl⟩
          | ok text => exact ⟨rfl, hsent _ rfl⟩

lemma answer_of_not_permitted {step position : ℕ} {call : ToolCall}
    (h : permitted registry request call.name = false) :
    answer world registry request step position call = none := by
  rw [answer, if_neg (by simp [h])]

variable (world registry request) in
lemma handleCall_says (step position : ℕ) (call : ToolCall) (state : State Args) :
    Says (answer world registry request step position call).toList state
      (handleCall world registry request step position state call) := by
  rw [handleCall]
  split
  · next hallowed =>
    rw [answer_of_not_permitted]
    · exact deny_says state call _ _
    · cases htools : request.allowedTools <;> simp_all [permitted]
  · next hallowed =>
    cases hget : get registry call.name with
    | none =>
        rw [answer_of_not_permitted (by simp [permitted, hget])]
        exact deny_says state call _ _
    | some tool =>
        cases hinvoke : assertCanInvokeTool world request call.name with
        | error denial =>
            rw [answer_of_not_permitted (not_permitted_of_denial hinvoke)]
            exact deny_says state call _ _
        | ok _ => exact execute_says state (permitted_of_checks hallowed hget hinvoke)

variable (world registry request) in
lemma handleCalls_says (step : ℕ) (calls : List (ToolCall × ℕ)) (state : State Args) :
    Says (answers world registry request (calls.map fun (call, position) => (step, position, call)))
      state (calls.foldl (fun state (call, position) =>
        handleCall world registry request step position state call) state) := by
  induction calls generalizing state with
  | nil => exact ⟨(List.append_nil _).symm, rfl⟩
  | cons call calls ih =>
      obtain ⟨hmessages, hsent⟩ := handleCall_says world registry request step
        call.2 call.1 state
      obtain ⟨hrest, hrestSent⟩ := ih (handleCall world registry request step call.2 state call.1)
      refine ⟨?_, hrestSent.trans hsent⟩
      rw [List.foldl_cons, hrest, hmessages, List.append_assoc, answers, answers, List.map_cons,
        List.filterMap_cons]
      cases answer world registry request step call.2 call.1 <;> rfl

/-- **The lists that a run sends**, after those sent before. -/
lemma loop_sent (maxSteps : ℤ) (left step : ℕ) (state : State Args) :
    (loop world registry request maxSteps left step state).2.events.filterMap Event.sent
      = state.events.filterMap Event.sent
        ++ histories world registry request left step state.messages := by
  induction left generalizing step state with
  | zero => exact (List.append_nil _).symm
  | succ left ih =>
      have hfirst : (state.events ++ [Event.chat state.messages registry]).filterMap Event.sent
          = state.events.filterMap Event.sent ++ [state.messages] := List.filterMap_append
      rw [loop, histories]
      dsimp only
      cases hchat : world.chat step with
      | error raised => exact hfirst
      | ok result =>
          dsimp only
          split_ifs with hnone
          · exact hfirst
          · obtain ⟨hmessages, hsent⟩ := handleCalls_says world registry request
              step result.toolCalls.zipIdx
              { state with events := state.events ++ [.chat state.messages registry] }
            rw [ih, handleCalls, hmessages, hsent, hfirst, List.append_assoc]
            rfl

/-- **A list that is sent** holds the answers to the replies before it. -/
lemma histories_spec {left step k : ℕ} {messages messages' : List LLMMessage}
    (h : (histories world registry request left step messages)[k]? = some messages') :
    k < left ∧ messages' = messages ++ answers world registry request (requestedCalls world k step) := by
  induction left generalizing step k messages with
  | zero => cases h
  | succ left ih =>
      rw [histories] at h
      cases k with
      | zero =>
          refine ⟨Nat.succ_pos left, ?_⟩
          obtain rfl := Option.some.inj h
          exact (List.append_nil _).symm
      | succ k =>
          rw [List.getElem?_cons_succ] at h
          rw [requestedCalls]
          cases hchat : world.chat step with
          | error raised =>
              rw [hchat] at h
              cases h
          | ok result =>
              rw [hchat] at h
              dsimp only at h ⊢
              split_ifs at h ⊢ with hnone
              · cases h
              · obtain ⟨hlt, hmessages⟩ := ih h
                refine ⟨Nat.succ_lt_succ hlt, ?_⟩
                rw [hmessages, answers, answers, answers, List.filterMap_append, List.append_assoc]

variable (world registry request) in
/-- The last list is sent after all replies that the run goes on from. -/
lemma exists_last_history (left step : ℕ) (messages : List LLMMessage) :
    ∃ k messages', (histories world registry request (left + 1) step messages)[k]? = some messages'
      ∧ requestedCalls world k step = requestedCalls world left step := by
  induction left generalizing step messages with
  | zero => exact ⟨0, messages, rfl, rfl⟩
  | succ left ih =>
      rw [histories, requestedCalls]
      cases hchat : world.chat step with
      | error raised => exact ⟨0, messages, rfl, rfl⟩
      | ok result =>
          dsimp only
          split_ifs with hnone
          · exact ⟨0, messages, rfl, rfl⟩
          · obtain ⟨k, messages', hk, hcalls⟩ := ih (step + 1) (messages ++ answers world registry
              request (result.toolCalls.zipIdx.map fun (call, position) => (step, position, call)))
            refine ⟨k + 1, messages', hk, ?_⟩
            rw [requestedCalls, hchat]
            dsimp only
            rw [if_neg hnone, hcalls]

lemma mem_requestedCalls_of_le {k left step : ℕ} (hle : k ≤ left) {call : ℕ × ℕ × ToolCall}
    (h : call ∈ requestedCalls world k step) : call ∈ requestedCalls world left step := by
  induction k generalizing left step with
  | zero => cases h
  | succ k ih =>
      obtain ⟨left, rfl⟩ := Nat.exists_eq_add_one_of_ne_zero (by omega : left ≠ 0)
      rw [requestedCalls] at h ⊢
      cases hchat : world.chat step with
      | error raised =>
          rw [hchat] at h
          cases h
      | ok result =>
          rw [hchat] at h
          dsimp only at h ⊢
          split_ifs at h ⊢ with hnone
          · cases h
          · rw [List.mem_append] at h ⊢
            exact h.imp_right (ih (by omega))

/-! ### The lists in the protocol -/

/-- The calls that the plan names. -/
def plannedCalls (request : Request) : List ToolCall :=
  (request.planOverride.getD []).zipIdx.map fun ((tool, input), i) =>
    ⟨"plan_" ++ toString i, tool, input⟩

lemma mem_initialMessages {m : LLMMessage} : m ∈ initialMessages request ↔
    m ∈ request.messages
      ∨ plannedCalls request ≠ [] ∧ m = ⟨.assistant, "", none, some (plannedCalls request)⟩ := by
  rw [initialMessages, plannedCalls]
  rcases hplan : request.planOverride with _ | _ | ⟨call, plan⟩
  · simp
  · simp
  · simp only [List.mem_append, List.mem_singleton, Option.getD_some]
    simp

/-- Answers after messages that are none are paired by those messages. -/
lemma paired_append {messages answers : List LLMMessage} (hplain : ∀ m ∈ messages, m.role ≠ .tool)
    (htool : ∀ m ∈ answers, m.role = .tool) : Paired (messages ++ answers) ↔
      ∀ m ∈ answers, ∃ a ∈ messages, a.role = .assistant ∧
        ∃ calls, a.toolCalls = some calls ∧ ∃ call ∈ calls, m.toolCallId = some call.id := by
  constructor
  · intro hpaired m hm
    obtain ⟨front, rest, hsplit⟩ := List.append_of_mem hm
    obtain ⟨a, ha, hrole, hcalls⟩ := hpaired (messages ++ front) m rest
      (by rw [hsplit, List.append_assoc]) (htool m hm)
    refine ⟨a, (List.mem_append.1 ha).resolve_right fun ha => ?_, hrole, hcalls⟩
    have ha' := htool a (hsplit ▸ List.mem_append_left _ ha)
    rw [hrole] at ha'
    cases ha'
  · intro hall front m rest hsplit hm
    rcases List.append_eq_append_iff.1 hsplit with ⟨tail, hfront, hanswers⟩ | ⟨tail, hmessages, hrest⟩
    · obtain ⟨a, ha, hpair⟩ := hall m (by rw [hanswers]; simp)
      exact ⟨a, hfront ▸ List.mem_append_left tail ha, hpair⟩
    · cases tail with
      | nil =>
          obtain ⟨a, ha, hpair⟩ := hall m (by rw [← List.nil_append answers, ← hrest]; simp)
          rw [List.append_nil] at hmessages
          exact ⟨a, hmessages ▸ ha, hpair⟩
      | cons b tail =>
          obtain ⟨rfl, -⟩ := List.cons.inj hrest
          exact absurd hm (hplain m (by rw [hmessages]; simp))

lemma answered_append {messages : List LLMMessage} (hplain : ∀ m ∈ messages, m.role ≠ .tool)
    (calls : List (ℕ × ℕ × ToolCall)) :
    Answered (messages ++ answers world registry request calls) calls ↔
      ∀ call ∈ calls, (answer world registry request call.1 call.2.1 call.2.2).isSome := by
  have hfilter : (messages ++ answers world registry request calls).filter (fun m => m.role = .tool)
      = answers world registry request calls := by
    rw [List.filter_append, List.filter_eq_nil_iff.2 fun m hm => by simpa using hplain m hm,
      List.nil_append, List.filter_eq_self]
    intro m hm
    obtain ⟨call, -, hcall⟩ := List.mem_filterMap.1 hm
    simp [(answer_eq_some hcall).1]
  rw [Answered, hfilter]
  constructor
  · intro hanswered
    have hlength := congrArg List.length hanswered
    rw [List.length_map, List.length_map] at hlength
    exact List.filterMap_length_eq_length.1 hlength
  · intro hall
    clear hfilter
    induction calls with
    | nil => rfl
    | cons call calls ih =>
        obtain ⟨m, hm⟩ := Option.isSome_iff_exists.1 (hall call List.mem_cons_self)
        have hrest := ih fun call hcall => hall call (List.mem_cons_of_mem _ hcall)
        rw [answers, List.filterMap_cons_some (by exact hm), List.map_cons, List.map_cons,
          (answer_eq_some hm).2]
        exact congrArg _ hrest

/-- The request with its history built. -/
def Request.begun (request : Request) (recentMessages : Option (List RecentMessage))
    (systemPrompt : String) : Request :=
  { request with messages := buildMessageHistory recentMessages systemPrompt }

/-- A list with some answers keeps the protocol exactly when each of the calls is answered, and named
in the plan. -/
lemma protocol_iff {recentMessages : Option (List RecentMessage)} {systemPrompt : String}
    (calls : List (ℕ × ℕ × ToolCall)) :
    Paired (initialMessages (request.begun recentMessages systemPrompt)
          ++ answers world registry (request.begun recentMessages systemPrompt) calls)
        ∧ Answered (initialMessages (request.begun recentMessages systemPrompt)
          ++ answers world registry (request.begun recentMessages systemPrompt) calls) calls ↔
      ∀ call ∈ calls, (answer world registry request call.1 call.2.1 call.2.2).isSome
        ∧ ∃ planned ∈ plannedCalls request, planned.id = call.2.2.id := by
  have hinitial : ∀ {m}, m ∈ initialMessages (request.begun recentMessages systemPrompt) →
      m.Plain ∨ plannedCalls request ≠ []
        ∧ m = ⟨.assistant, "", none, some (plannedCalls request)⟩ :=
    fun hm => (mem_initialMessages.1 hm).imp_left plain_of_mem_buildMessageHistory
  have hplain : ∀ m ∈ initialMessages (request.begun recentMessages systemPrompt),
      m.role ≠ .tool := by
    intro m hm
    rcases hinitial hm with hm | ⟨-, rfl⟩
    · exact hm.1
    · simp
  have htool : ∀ m ∈ answers world registry (request.begun recentMessages systemPrompt) calls,
      m.role = .tool := by
    intro m hm
    obtain ⟨call, -, hcall⟩ := List.mem_filterMap.1 hm
    exact (answer_eq_some hcall).1
  rw [paired_append hplain htool, answered_append hplain]
  constructor
  · rintro ⟨hpaired, hanswered⟩ call hcall
    refine ⟨hanswered call hcall, ?_⟩
    obtain ⟨m, hm⟩ := Option.isSome_iff_exists.1 (hanswered call hcall)
    obtain ⟨a, ha, -, named, hnamed, planned, hplanned, hid⟩ :=
      hpaired m (List.mem_filterMap.2 ⟨call, hcall, hm⟩)
    rw [(answer_eq_some hm).2] at hid
    rcases hinitial ha with ha | ⟨-, rfl⟩
    · rw [ha.2] at hnamed
      cases hnamed
    · obtain rfl := Option.some.inj hnamed
      exact ⟨planned, hplanned, (Option.some.inj hid).symm⟩
  · intro hall
    refine ⟨fun m hm => ?_, fun call hcall => (hall call hcall).1⟩
    obtain ⟨call, hcall, hm⟩ := List.mem_filterMap.1 hm
    obtain ⟨-, planned, hplanned, hid⟩ := hall call hcall
    exact ⟨_, mem_initialMessages.2 (.inr ⟨List.ne_nil_of_mem hplanned, rfl⟩), rfl, _, rfl, planned,
      hplanned, by rw [(answer_eq_some hm).2, hid]⟩

/-- **A run keeps the protocol exactly when each call of a reply that it goes on from is executed, has a
result with a text, and bears an identifier of the plan.** -/
theorem conversation_iff (world : World Args) (registry : List Tool) (request : Request)
    (recentMessages : Option (List RecentMessage)) (systemPrompt : String) (maxSteps : ℤ) :
    Conversation world
        (run world registry (request.begun recentMessages systemPrompt) maxSteps).2 ↔
      ∀ call ∈ requestedCalls world (maxSteps.toNat - 1) 0,
        (answer world registry request call.1 call.2.1 call.2.2).isSome
          ∧ ∃ planned ∈ plannedCalls request, planned.id = call.2.2.id := by
  have hsent : (run world registry (request.begun recentMessages systemPrompt)
      maxSteps).2.events.filterMap Event.sent
      = histories world registry (request.begun recentMessages systemPrompt) maxSteps.toNat 0
        (initialMessages (request.begun recentMessages systemPrompt)) := loop_sent ..
  rw [Conversation, hsent]
  constructor
  · intro hall
    cases hsteps : maxSteps.toNat with
    | zero => exact fun call hcall => absurd hcall List.not_mem_nil
    | succ left =>
        rw [hsteps] at hall
        obtain ⟨k, messages, hk, hcalls⟩ := exists_last_history world
          registry (request.begun recentMessages systemPrompt) left 0
          (initialMessages (request.begun recentMessages systemPrompt))
        have hprotocol := hall k messages hk
        rw [(histories_spec hk).2, hcalls] at hprotocol
        exact (protocol_iff _).1 hprotocol
  · intro hall k messages hk
    obtain ⟨hlt, rfl⟩ := histories_spec hk
    exact (protocol_iff _).2 fun call hcall => hall call (mem_requestedCalls_of_le (by omega) hcall)

/-- The model asks for one dispatch, which succeeds, and then answers. -/
def dispatched : World Unit :=
  { nestedReply with runTool := fun _ _ _ _ => .ok ⟨true, .text "sent", none⟩ }

/-- The second list is the result of the dispatch alone: nobody has asked for it. -/
theorem conversation_unpaired :
    ¬ Conversation dispatched
      (run dispatched dispatchRegistry (dispatchRequest.begun none "") 8).2 := by
  intro hconversation
  obtain ⟨hpaired, -⟩ := hconversation 1 [⟨.tool, "sent", some "call_1", none⟩] rfl
  obtain ⟨a, ha, -⟩ := hpaired [] _ [] rfl rfl
  cases ha

end Brain
