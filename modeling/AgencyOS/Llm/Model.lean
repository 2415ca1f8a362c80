import AgencyOS.Python.Collections

/-!
The language models: what a call costs, where its usage is recorded, and the budget of an
organization.

What a provider answers and how far a consumer iterates a stream are the world's.  Costs are exact
here where Python computes with floats; the column of the costs keeps millionths of a dollar.  A
service of an organization with a session is modelled, with the default recorder.

* `estimateCost`: the price of a call;
* `Table`, `upsertDaily`, `totalsSince`: the daily rollups of the usage;
* `withRetry`, `openaiStream`, `anthropicStream`, `geminiStream`: what the clients make of the
  replies;
* `enforceBudget`, `run`: the checks before a call of the service, and the call.
-/

namespace Llm

open Python

/-! ### Prices -/

/-- The providers of `ProviderType`. -/
inductive Provider where
  | openai | anthropic | gemini | openaiCompatible | ollama | deepseek
  deriving DecidableEq, Repr

/-- The input and the output tokens of a call. -/
abbrev Tokens : Type := ℕ × ℕ

/-- Per-1k-token cost for a model. -/
structure ModelPricing where
  inputUsdPer1k : ℚ
  outputUsdPer1k : ℚ
  deriving DecidableEq, Repr

def prices : Provider → List (String × ModelPricing)
  | .openai =>
      [("gpt-4o-mini", ⟨0.000150, 0.000600⟩),
        ("gpt-4o", ⟨0.002500, 0.001000⟩),
        ("gpt-4.1-mini", ⟨0.000200, 0.000800⟩),
        ("gpt-4.1", ⟨0.002000, 0.000800⟩),
        ("o1-mini", ⟨0.001100, 0.004400⟩)]
  | .anthropic =>
      [("claude-3-5-sonnet-20241022", ⟨0.000300, 0.001500⟩),
        ("claude-3-7-sonnet-20250219", ⟨0.000300, 0.001500⟩),
        ("claude-3-haiku-20240307", ⟨0.000025, 0.000125⟩)]
  | .gemini =>
      [("gemini-1.5-flash", ⟨0.000035, 0.000105⟩),
        ("gemini-2.0-flash", ⟨0.000035, 0.000105⟩),
        ("gemini-1.5-pro", ⟨0.000175, 0.000700⟩),
        ("gemini-2.5-pro", ⟨0.000175, 0.000700⟩)]
  | .deepseek =>
      [("deepseek-chat", ⟨0.000001, 0.000002⟩),
        ("deepseek-reasoner", ⟨0.000140, 0.000280⟩)]
  | .openaiCompatible | .ollama => []

/-- The price of a model: that of the first model of the provider when it is not listed. -/
def pricing (provider : Provider) (model : String) : ModelPricing :=
  (((prices provider).lookup model).or ((prices provider).head?.map Prod.snd)).getD ⟨0, 0⟩

def estimateCost (provider : Provider) (model : String) (tokens : Tokens) : ℚ :=
  (pricing provider model).inputUsdPer1k * tokens.1 / 1000 +
    (pricing provider model).outputUsdPer1k * tokens.2 / 1000

/-! ### The daily rollups -/

/-- What a rollup is unique for; days are counted. -/
structure Key where
  organization : ℕ
  provider : Provider
  feature : String
  usageDate : ℤ
  deriving DecidableEq, Repr

/-- A rollup, its cost in millionths of a dollar. -/
structure Row where
  requestCount : ℕ
  inputTokens : ℕ
  outputTokens : ℕ
  costMicros : ℕ
  deriving DecidableEq, Repr

abbrev Table : Type := OrderedDict Key Row

/-- A cost in dollars from the column. -/
def dollars (micros : ℕ) : ℚ := micros / 10 ^ 6

/-- A cost as the column `Numeric(12, 6)` takes it, rounded half up. -/
def numeric (cost : ℚ) : ℕ := ⌊cost * 10 ^ 6 + 1 / 2⌋₊

def Row.add (row : Row) (tokens : Tokens) (costUsd : ℚ) : Row where
  requestCount := row.requestCount + 1
  inputTokens := row.inputTokens + tokens.1
  outputTokens := row.outputTokens + tokens.2
  costMicros := numeric (dollars row.costMicros + costUsd)

/-- The values of a rollup are within its columns. -/
def Row.fits (row : Row) : Bool :=
  row.requestCount < 2 ^ 31 && row.inputTokens < 2 ^ 31 && row.outputTokens < 2 ^ 31 &&
    row.costMicros < 10 ^ 12

def Row.zero : Row := ⟨0, 0, 0, 0⟩

/-- The rollup of a key, of nothing where there is none. -/
def Table.row (table : Table) (key : Key) : Row := (table.items.lookup key).getD .zero

/-- The row that an increment comes to is within the columns, and the feature is not blank. -/
def Table.takes (table : Table) (key : Key) (tokens : Tokens) (costUsd : ℚ) : Bool :=
  ((table.row key).add tokens costUsd).fits && key.feature.toList.any (· ≠ ' ')

/-- Increment the rollup of the day; a row that the constraints refuse raises. -/
def upsertDaily (table : Table) (key : Key) (tokens : Tokens) (costUsd : ℚ) : Option Table :=
  if table.takes key tokens costUsd then
    some (table.update .zero (Row.add · tokens costUsd) key)
  else none

structure Totals where
  requests : ℕ
  inputTokens : ℕ
  outputTokens : ℕ
  costUsd : ℚ
  deriving DecidableEq, Repr

/-- The totals of an organization since a day. -/
def totalsSince (table : Table) (organization : ℕ) (cutoff : ℤ) : Totals :=
  let rows := (table.items.filter fun item =>
    item.1.organization = organization ∧ cutoff ≤ item.1.usageDate).map Prod.snd
  { requests := (rows.map Row.requestCount).sum
    inputTokens := (rows.map Row.inputTokens).sum
    outputTokens := (rows.map Row.outputTokens).sum
    costUsd := dollars (rows.map Row.costMicros).sum }

/-! ### The clients -/

/-- One call of a provider: the tokens that its reply cost, and whether it raises, either since the
provider failed or since the client can make nothing of the reply; if so, whether the error is one
of `_is_retryable`. -/
structure Attempt where
  tokens : Tokens
  raised : Option Bool
  deriving DecidableEq, Repr

/-- The attempts that are made, from the `i`-th one on. -/
def made (attempts : ℕ → Attempt) : ℕ → ℕ → List Attempt
  | 0, _ => []
  | left + 1, i =>
      attempts i :: if (attempts i).raised = some true then made attempts left (i + 1) else []

/-- The usage of the attempt that returns. -/
def returned (attempts : List Attempt) : Option Tokens :=
  attempts.getLast?.bind fun attempt => if attempt.raised = none then some attempt.tokens else none

/-- What a stream delivers: the usage that the provider reports in it, if any, and texts. -/
structure StreamEvent where
  usage : Option Tokens
  texts : List String
  deriving DecidableEq, Repr

/-- A stream: what is delivered, whether an error follows, and the tokens that the reply cost. -/
structure Stream where
  events : List StreamEvent
  fails : Bool
  tokens : Tokens
  deriving DecidableEq, Repr

/-- The usage of the chunks with texts. -/
def deltas (events : List StreamEvent) : List Tokens :=
  ((events.flatMap StreamEvent.texts).filter (· ≠ "")).map fun _ => (0, 0)

/-- The last usage that was reported. -/
def lastUsage (events : List StreamEvent) : Tokens :=
  (events.filterMap StreamEvent.usage).getLast?.getD (0, 0)

/-- The usage of each chunk that a client yields: the last one follows the end of the stream. -/
def chunks (final : List StreamEvent → Tokens) (stream : Stream) : List Tokens :=
  deltas stream.events ++ if stream.fails then [] else [final stream.events]

def openaiStream (stream : Stream) : List Tokens := chunks lastUsage stream

def anthropicStream (stream : Stream) : List Tokens := chunks lastUsage stream

/-- Gemini's client reads no usage. -/
def geminiStream (stream : Stream) : List Tokens := chunks (fun _ => (0, 0)) stream

/-! ### The service -/

structure Settings where
  aiOrgDailyTokenBudget : ℤ
  aiOrgDailyCostBudgetUsd : ℚ
  llmMaxRetries : ℤ
  deriving DecidableEq, Repr

inductive Operation where
  | chat
  | embeddings
  /-- The consumer asks for so many chunks. -/
  | chatStream (pulls : ℕ)
  deriving DecidableEq, Repr

/-- A call of the service with its surroundings: the client, the time in seconds and the day, whether
the check of the budget fails, and what the provider does. -/
structure Call where
  operation : Operation
  provider : Provider
  model : String
  feature : String
  now : ℤ
  today : ℤ
  checkFails : Bool
  attempts : ℕ → Attempt
  stream : Stream

/-- The day of the time 24 hours ago. -/
def Call.cutoff (call : Call) : ℤ := (call.now - 24 * 3600) / (24 * 3600)

inductive Denied where
  | notConfigured | checkFailed | exceeded
  deriving DecidableEq, Repr

def Denied.code : Denied → String
  | notConfigured => "ai.budget_not_configured"
  | checkFailed => "ai.budget_check_failed"
  | exceeded => "ai.budget_exceeded"

def Denied.statusCode : Denied → ℕ
  | notConfigured => 403
  | checkFailed => 503
  | exceeded => 429

section Service

variable (settings : Settings) (organization : ℕ) (table : Table) (call : Call)

/-- `_enforce_budget`. -/
def enforceBudget : Except Denied Unit :=
  if settings.aiOrgDailyTokenBudget ≤ 0 ∧ settings.aiOrgDailyCostBudgetUsd ≤ 0 then
    .error .notConfigured
  else if call.checkFails then .error .checkFailed
  else
    let totals := totalsSince table organization call.cutoff
    if 0 < settings.aiOrgDailyTokenBudget ∧
        settings.aiOrgDailyTokenBudget ≤ totals.inputTokens + totals.outputTokens then
      .error .exceeded
    else if 0 < settings.aiOrgDailyCostBudgetUsd ∧
        settings.aiOrgDailyCostBudgetUsd ≤ totals.costUsd then
      .error .exceeded
    else .ok ()

/-- `_with_retry`: the attempts that are made. -/
def withRetry : List Attempt := made call.attempts (max 1 settings.llmMaxRetries).toNat 0

def Call.key : Key := ⟨organization, call.provider, call.feature, call.today⟩

/-- `_record`: usage that the database refuses is not recorded. -/
def record (usage : Tokens) : Table :=
  (upsertDaily table (call.key organization) usage
    (estimateCost call.provider call.model usage)).getD table

/-- The table after a call, and the tokens of each reply of the provider to it. -/
structure Outcome where
  table : Table
  replies : List Tokens

/-- The call does not reach the provider. -/
def unasked : Outcome := ⟨table, []⟩

/-- A call that is retried; the usage of the attempt that returns is recorded. -/
def retried : Outcome where
  table := ((returned (withRetry settings call)).map (record organization table call)).getD table
  replies := (withRetry settings call).map Attempt.tokens

def chat : Outcome :=
  match enforceBudget settings organization table call with
  | .error _ => unasked table
  | .ok () => retried settings organization table call

/-- The clients of Anthropic and Gemini have no embeddings. -/
def embeddings : Outcome :=
  match call.provider with
  | .anthropic | .gemini => unasked table
  | .openai | .openaiCompatible | .ollama | .deepseek => retried settings organization table call

/-- Iterating over a stream: what follows the last chunk runs only when the consumer asks for one
more. -/
def iterate (pulls : ℕ) (usages : List Tokens) : Outcome where
  table :=
    if usages.length < pulls ∧ call.stream.fails = false then
      (usages.getLast?.map (record organization table call)).getD table
    else table
  replies := [call.stream.tokens]

/-- A generator: nothing runs before it is asked for the first chunk.  The OpenAI-compatible client
posts at once and answers, if at all, with no iterator. -/
def chatStream (pulls : ℕ) : Outcome :=
  if pulls = 0 then unasked table
  else
    match enforceBudget settings organization table call with
    | .error _ => unasked table
    | .ok () =>
        match call.provider with
        | .openai => iterate organization table call pulls (openaiStream call.stream)
        | .anthropic => iterate organization table call pulls (anthropicStream call.stream)
        | .gemini => iterate organization table call pulls (geminiStream call.stream)
        | .openaiCompatible | .ollama | .deepseek =>
            ⟨table, (withRetry settings call).map Attempt.tokens⟩

def run : Outcome :=
  match call.operation with
  | .chat => chat settings organization table call
  | .embeddings => embeddings settings organization table call
  | .chatStream pulls => chatStream settings organization table call pulls

end Service

end Llm
