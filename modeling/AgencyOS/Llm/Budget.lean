import AgencyOS.Llm.Model
import AgencyOS.Txn.Machine
import Mathlib.Algebra.Order.Monoid.Prod

/-!
Whether the budget of an organization is a ceiling.

A call keeps the books if it asks the provider only while the budget is open, and adds to the
rollups exactly the tokens and the cost of the replies.

* `Closed`, `Adds`, `Kept`: the budget, the books, and what a call has to keep;
* `adds_record_iff`: what is recorded is what the replies cost, up to the columns;
* `Lossless`, `Passes`: what the provider and the consumer must do for it;
* `kept_iff`, `ceiling_iff`: a call keeps the books exactly when it passes, and so does a sequence
  of calls.
-/

namespace Llm

open Python

variable (settings : Settings) (organization : ℕ) (table : Table) (call : Call)

/-! ### What a call has to keep -/

/-- No budget is configured, or the usage since the cutoff has reached one. -/
def Closed : Prop :=
  (settings.aiOrgDailyTokenBudget ≤ 0 ∧ settings.aiOrgDailyCostBudgetUsd ≤ 0) ∨
    (0 < settings.aiOrgDailyTokenBudget ∧ settings.aiOrgDailyTokenBudget ≤
      (totalsSince table organization call.cutoff).inputTokens +
        (totalsSince table organization call.cutoff).outputTokens) ∨
    (0 < settings.aiOrgDailyCostBudgetUsd ∧
      settings.aiOrgDailyCostBudgetUsd ≤ (totalsSince table organization call.cutoff).costUsd)

/-- One rollup has grown by these tokens and this cost, and no other has changed. -/
structure Adds (key : Key) (tokens : Tokens) (costUsd : ℚ) (before after : Table) : Prop where
  others : ∀ k, k ≠ key → after.row k = before.row k
  input : (after.row key).inputTokens = (before.row key).inputTokens + tokens.1
  output : (after.row key).outputTokens = (before.row key).outputTokens + tokens.2
  cost : dollars (after.row key).costMicros = dollars (before.row key).costMicros + costUsd

/-- The provider is asked only while the budget is open, and what its replies cost is recorded. -/
structure Kept : Prop where
  guarded : (run settings organization table call).replies ≠ [] →
    ¬ Closed settings organization table call
  recorded : Adds (call.key organization) (run settings organization table call).replies.sum
    ((run settings organization table call).replies.map
      (estimateCost call.provider call.model)).sum
    table (run settings organization table call).table

/-- Every call of a sequence keeps the books. -/
def Ceiling (calls : List Call) : Prop :=
  Txn.Machine.Every (fun table call => (run settings organization table call).table)
    (Kept settings organization) table calls

/-! ### What it takes -/

/-- The cost of the tokens is a whole number of millionths of a dollar. -/
def Call.exact (call : Call) (tokens : Tokens) : Prop :=
  ∃ micros : ℕ, estimateCost call.provider call.model tokens = dollars micros

/-- What the books take of the tokens of one reply: all of them, or there are none. -/
def Booked (tokens : Tokens) : Prop :=
  if table.takes (call.key organization) tokens (estimateCost call.provider call.model tokens) then
    call.exact tokens
  else tokens = 0

/-- The attempts of a retried call lose nothing. -/
def Lossless.retried (attempts : List Attempt) : Prop :=
  ∀ attempt ∈ attempts, if attempt.raised = none then Booked organization table call attempt.tokens
    else attempt.tokens = 0

/-- A stream loses nothing: the consumer asks beyond its last chunk, it does not fail, and the last
usage that it reports is that of the reply; or the reply has cost nothing. -/
def Lossless.stream (pulls : ℕ) : Prop :=
  if (deltas call.stream.events).length + 1 < pulls ∧ call.stream.fails = false then
    if table.takes (call.key organization) (lastUsage call.stream.events)
        (estimateCost call.provider call.model (lastUsage call.stream.events)) then
      lastUsage call.stream.events = call.stream.tokens ∧ call.exact call.stream.tokens
    else call.stream.tokens = 0
  else call.stream.tokens = 0

/-- The provider is asked by a call that is not refused. -/
def Asks : Prop :=
  match call.operation with
  | .chat => True
  | .embeddings => call.provider ≠ .anthropic ∧ call.provider ≠ .gemini
  | .chatStream pulls => pulls ≠ 0

/-- The budget is checked before the provider is asked, and the check denies. -/
def Refused : Prop :=
  call.operation ≠ .embeddings ∧ (call.checkFails = true ∨ Closed settings organization table call)

/-- What the provider and the consumer do loses nothing. -/
def Lossless : Prop :=
  match call.operation with
  | .chat | .embeddings => Lossless.retried organization table call (withRetry settings call)
  | .chatStream pulls =>
      match call.provider with
      | .openai | .anthropic => Lossless.stream organization table call pulls
      | .gemini => call.stream.tokens = 0
      | .openaiCompatible | .ollama | .deepseek =>
          ∀ attempt ∈ withRetry settings call, attempt.tokens = 0

def Passes : Prop :=
  Asks call → ¬ Refused settings organization table call →
    ¬ Closed settings organization table call ∧ Lossless settings organization table call

/-! ### The books -/

lemma floor_dollars (micros : ℕ) {cost : ℚ} (h : 0 ≤ cost) :
    numeric (dollars micros + cost) = micros + numeric cost := by
  have hsum : (dollars micros + cost) * 10 ^ 6 + 1 / 2 = (cost * 10 ^ 6 + 1 / 2) + micros := by
    rw [dollars]
    ring
  rw [numeric, numeric, hsum, Nat.floor_add_natCast (by positivity), Nat.add_comm]

lemma dollars_add (m n : ℕ) : dollars (m + n) = dollars m + dollars n := by
  rw [dollars, dollars, dollars]
  push_cast
  ring

lemma numeric_dollars (micros : ℕ) : numeric (dollars micros) = micros := by
  have h := floor_dollars micros le_rfl
  rw [add_zero] at h
  rw [h]
  have hzero : numeric 0 = 0 := by
    rw [numeric, Nat.floor_eq_zero]
    norm_num
  rw [hzero, Nat.add_zero]

/-- The column keeps a cost exactly when it is a whole number of millionths. -/
lemma dollars_numeric_iff (cost : ℚ) :
    dollars (numeric cost) = cost ↔ ∃ micros : ℕ, cost = dollars micros := by
  constructor
  · intro h
    exact ⟨numeric cost, h.symm⟩
  · rintro ⟨micros, rfl⟩
    rw [numeric_dollars]

lemma pricing_nonneg (provider : Provider) (model : String) :
    0 ≤ (pricing provider model).inputUsdPer1k ∧ 0 ≤ (pricing provider model).outputUsdPer1k := by
  have hlisted : ∀ item ∈ prices provider,
      0 ≤ item.2.inputUsdPer1k ∧ 0 ≤ item.2.outputUsdPer1k := by
    intro item hitem
    cases provider <;> fin_cases hitem <;> constructor <;> norm_num
  rw [pricing]
  rcases hor : ((prices provider).lookup model).or ((prices provider).head?.map Prod.snd) with _ | price
  · exact ⟨le_rfl, le_rfl⟩
  · rw [Option.getD_some]
    rcases Option.or_eq_some_iff.1 hor with hlookup | ⟨-, hhead⟩
    · obtain ⟨before, after, heq, -⟩ := List.lookup_eq_some_iff.1 hlookup
      exact hlisted (model, price) (by rw [heq]; simp)
    · obtain ⟨item, hitem, rfl⟩ := Option.map_eq_some_iff.1 hhead
      exact hlisted item (List.mem_of_mem_head? hitem)

lemma estimateCost_nonneg (provider : Provider) (model : String) (tokens : Tokens) :
    0 ≤ estimateCost provider model tokens := by
  obtain ⟨hinput, houtput⟩ := pricing_nonneg provider model
  rw [estimateCost]
  positivity

@[simp] lemma estimateCost_zero (provider : Provider) (model : String) :
    estimateCost provider model 0 = 0 := by
  simp [estimateCost]

lemma estimateCost_add (provider : Provider) (model : String) (a b : Tokens) :
    estimateCost provider model (a + b)
      = estimateCost provider model a + estimateCost provider model b := by
  rw [estimateCost, estimateCost, estimateCost, Prod.fst_add, Prod.snd_add]
  push_cast
  ring

/-- The cost of several replies is that of all their tokens. -/
lemma sum_estimateCost (provider : Provider) (model : String) (replies : List Tokens) :
    (replies.map (estimateCost provider model)).sum = estimateCost provider model replies.sum := by
  induction replies with
  | nil => simp
  | cons tokens replies ih =>
      rw [List.map_cons, List.sum_cons, List.sum_cons, ih, estimateCost_add]

lemma row_update (f : Row → Row) (key k : Key) :
    Table.row (table.update .zero f key) k = if k = key then f (table.row key) else table.row k := by
  rw [Table.row, OrderedDict.update, lookup_upsert]
  by_cases hk : k = key
  · rw [if_pos hk, if_pos hk]
    rfl
  · rw [if_neg hk, if_neg hk]
    rfl

/-- The books are right without an entry exactly when the replies have cost nothing. -/
lemma adds_unchanged_iff (tokens : Tokens) :
    Adds (call.key organization) tokens (estimateCost call.provider call.model tokens) table table
      ↔ tokens = 0 := by
  constructor
  · intro h
    have hinput := h.input
    have houtput := h.output
    exact Prod.ext (by simpa using hinput) (by simpa using houtput)
  · rintro rfl
    refine ⟨fun k hk => rfl, rfl, rfl, ?_⟩
    rw [estimateCost_zero, add_zero]

/-- The entry of a usage is right for the tokens of the replies exactly when these are its tokens, and
their cost is not rounded; where no entry is made, they must have cost nothing. -/
lemma adds_record_iff (usage tokens : Tokens) :
    Adds (call.key organization) tokens (estimateCost call.provider call.model tokens) table
        (record organization table call usage)
      ↔ if table.takes (call.key organization) usage
            (estimateCost call.provider call.model usage) then
          usage = tokens ∧ call.exact tokens
        else tokens = 0 := by
  by_cases htakes : table.takes (call.key organization) usage
      (estimateCost call.provider call.model usage)
  · have hrow : ∀ k, (record organization table call usage).row k
        = if k = call.key organization then (table.row (call.key organization)).add usage
            (estimateCost call.provider call.model usage)
          else table.row k := by
      intro k
      rw [record, upsertDaily, if_pos htakes, Option.getD_some, row_update]
    have hcost : dollars ((table.row (call.key organization)).add usage
          (estimateCost call.provider call.model usage)).costMicros
        = dollars (table.row (call.key organization)).costMicros
          + dollars (numeric (estimateCost call.provider call.model usage)) := by
      rw [← dollars_add, ← floor_dollars _ (estimateCost_nonneg _ _ usage)]
      rfl
    rw [if_pos htakes]
    constructor
    · intro h
      have hinput := h.input
      have houtput := h.output
      have hdollars := h.cost
      rw [hrow, if_pos rfl] at hinput houtput hdollars
      rw [hcost] at hdollars
      have heq : usage = tokens :=
        Prod.ext (Nat.add_left_cancel hinput) (Nat.add_left_cancel houtput)
      subst heq
      exact ⟨rfl, (dollars_numeric_iff _).1 (add_left_cancel hdollars)⟩
    · rintro ⟨rfl, hexact⟩
      refine ⟨fun k hk => by rw [hrow, if_neg hk], ?_, ?_, ?_⟩
      · rw [hrow, if_pos rfl]
        rfl
      · rw [hrow, if_pos rfl]
        rfl
      · rw [hrow, if_pos rfl, hcost, (dollars_numeric_iff _).2 hexact]
  · rw [if_neg htakes, record, upsertDaily, if_neg htakes]
    exact adds_unchanged_iff organization table call tokens

/-! ### Retries -/

/-- All attempts before the last one have raised. -/
lemma made_eq (attempts : ℕ → Attempt) (n i : ℕ) :
    ∃ init last, made attempts (n + 1) i = init ++ [last] ∧
      ∀ attempt ∈ init, attempt.raised = some true := by
  induction n generalizing i with
  | zero =>
      refine ⟨[], attempts i, ?_, nofun⟩
      rw [made, made]
      split <;> rfl
  | succ n ih =>
      by_cases hraised : (attempts i).raised = some true
      · obtain ⟨init, last, heq, hinit⟩ := ih (i + 1)
        refine ⟨attempts i :: init, last, ?_, ?_⟩
        · rw [made, if_pos hraised, heq, List.cons_append]
        · exact List.forall_mem_cons.2 ⟨hraised, hinit⟩
      · exact ⟨[], attempts i, by rw [made, if_neg hraised]; rfl, nofun⟩

lemma withRetry_eq :
    ∃ init last, withRetry settings call = init ++ [last] ∧
      ∀ attempt ∈ init, attempt.raised = some true := by
  obtain ⟨n, hn⟩ : ∃ n, (max 1 settings.llmMaxRetries).toNat = n + 1 :=
    Nat.exists_eq_add_one.2 (by omega)
  rw [withRetry, hn]
  exact made_eq call.attempts n 0

lemma sum_tokens_eq_zero_iff (attempts : List Attempt) :
    (attempts.map Attempt.tokens).sum = 0 ↔ ∀ attempt ∈ attempts, attempt.tokens = 0 := by
  rw [List.sum_eq_zero_iff, List.forall_mem_map]

/-- The books of a retried call. -/
lemma adds_retried_iff :
    Adds (call.key organization) ((withRetry settings call).map Attempt.tokens).sum
        (estimateCost call.provider call.model ((withRetry settings call).map Attempt.tokens).sum)
        table (retried settings organization table call).table
      ↔ Lossless.retried organization table call (withRetry settings call) := by
  obtain ⟨init, last, heq, hinit⟩ := withRetry_eq settings call
  have hsum : ((withRetry settings call).map Attempt.tokens).sum
      = (init.map Attempt.tokens).sum + last.tokens := by
    rw [heq, List.map_append, List.sum_append, List.map_singleton, List.sum_singleton]
  have hlast : returned (withRetry settings call)
      = if last.raised = none then some last.tokens else none := by
    rw [returned, heq, List.getLast?_concat]
    rfl
  have hlossless : Lossless.retried organization table call (withRetry settings call)
      ↔ (init.map Attempt.tokens).sum = 0 ∧
        if last.raised = none then Booked organization table call last.tokens
        else last.tokens = 0 := by
    rw [Lossless.retried, heq, List.forall_mem_append, List.forall_mem_singleton,
      sum_tokens_eq_zero_iff]
    refine and_congr_left fun _ => forall₂_congr fun attempt hattempt => ?_
    rw [hinit attempt hattempt, if_neg (by simp)]
  rw [hlossless, hsum, retried, hlast]
  by_cases hraised : last.raised = none
  · rw [if_pos hraised, if_pos hraised, Option.map_some, Option.getD_some, adds_record_iff, Booked]
    split_ifs with htakes
    · constructor
      · rintro ⟨htokens, hexact⟩
        have hzero : (init.map Attempt.tokens).sum = 0 := by
          exact add_right_cancel (b := last.tokens) (by rw [zero_add]; exact htokens.symm)
        rw [hzero, zero_add] at hexact
        exact ⟨hzero, hexact⟩
      · rintro ⟨hzero, hexact⟩
        rw [hzero, zero_add]
        exact ⟨rfl, hexact⟩
    · exact add_eq_zero
  · rw [if_neg hraised, if_neg hraised, Option.map_none, Option.getD_none, adds_unchanged_iff]
    exact add_eq_zero

/-! ### The calls -/

/-- The budget is enforced: a call goes on exactly when the check answers and the budget is open. -/
lemma enforceBudget_eq_ok_iff :
    enforceBudget settings organization table call = .ok () ↔
      call.checkFails = false ∧ ¬ Closed settings organization table call := by
  rw [enforceBudget, Closed, ← Bool.not_eq_true]
  dsimp only
  split_ifs with h₁ h₂ h₃ h₄
  · exact iff_of_false nofun fun h => h.2 (.inl h₁)
  · exact iff_of_false nofun fun h => h.1 h₂
  · exact iff_of_false nofun fun h => h.2 (.inr (.inl h₃))
  · exact iff_of_false nofun fun h => h.2 (.inr (.inr h₄))
  · exact iff_of_true rfl ⟨h₂, by tauto⟩

/-- A call that does not reach the provider keeps the books. -/
lemma kept_of_unasked (h : run settings organization table call = unasked table) :
    Kept settings organization table call := by
  refine ⟨fun hne => absurd (by rw [h]; rfl) hne, ?_⟩
  rw [h, sum_estimateCost, unasked]
  exact (adds_unchanged_iff organization table call 0).2 rfl

/-- A call that reaches the provider keeps the books exactly when the budget is open, and the replies
are recorded. -/
lemma kept_iff_of_asked (h : (run settings organization table call).replies ≠ []) :
    Kept settings organization table call ↔ ¬ Closed settings organization table call ∧
      Adds (call.key organization) (run settings organization table call).replies.sum
        (estimateCost call.provider call.model (run settings organization table call).replies.sum)
        table (run settings organization table call).table := by
  constructor
  · rintro ⟨hguarded, hrecorded⟩
    rw [sum_estimateCost] at hrecorded
    exact ⟨hguarded h, hrecorded⟩
  · rintro ⟨hopen, hrecorded⟩
    rw [← sum_estimateCost] at hrecorded
    exact ⟨fun _ => hopen, hrecorded⟩

lemma replies_retried_ne_nil : (retried settings organization table call).replies ≠ [] := by
  obtain ⟨init, last, heq, -⟩ := withRetry_eq settings call
  rw [retried, heq]
  simp

lemma length_chunks {final : List StreamEvent → Tokens} {stream : Stream}
    (h : stream.fails = false) :
    (chunks final stream).length = (deltas stream.events).length + 1 ∧
      (chunks final stream).getLast? = some (final stream.events) := by
  rw [chunks, h]
  simp

/-- The books of a stream whose client yields these usages. -/
lemma adds_iterate_iff (pulls : ℕ) (final : List StreamEvent → Tokens) :
    Adds (call.key organization) call.stream.tokens
        (estimateCost call.provider call.model call.stream.tokens) table
        (iterate organization table call pulls (chunks final call.stream)).table
      ↔ if (deltas call.stream.events).length + 1 < pulls ∧ call.stream.fails = false then
          if table.takes (call.key organization) (final call.stream.events)
              (estimateCost call.provider call.model (final call.stream.events)) then
            final call.stream.events = call.stream.tokens ∧ call.exact call.stream.tokens
          else call.stream.tokens = 0
        else call.stream.tokens = 0 := by
  rw [iterate]
  dsimp only
  by_cases hfails : call.stream.fails = false
  · obtain ⟨hlength, hlast⟩ := @length_chunks final _ hfails
    rw [hlength, hlast]
    by_cases hend : (deltas call.stream.events).length + 1 < pulls ∧ call.stream.fails = false
    · rw [if_pos hend, if_pos hend]
      exact adds_record_iff organization table call _ _
    · rw [if_neg hend, if_neg hend]
      exact adds_unchanged_iff organization table call _
  · rw [if_neg fun h => hfails h.2, if_neg fun h => hfails h.2]
    exact adds_unchanged_iff organization table call _

/-- The call once the budget is no obstacle. -/
def answered : Outcome :=
  match call.operation with
  | .chat | .embeddings => retried settings organization table call
  | .chatStream pulls =>
      match call.provider with
      | .openai | .anthropic => iterate organization table call pulls (chunks lastUsage call.stream)
      | .gemini => iterate organization table call pulls (chunks (fun _ => (0, 0)) call.stream)
      | .openaiCompatible | .ollama | .deepseek =>
          ⟨table, (withRetry settings call).map Attempt.tokens⟩

lemma run_of_not_asks (h : ¬ Asks call) : run settings organization table call = unasked table := by
  unfold Asks at h
  rw [run]
  cases hop : call.operation with
  | chat =>
      rw [hop] at h
      exact absurd trivial h
  | embeddings =>
      rw [hop] at h
      dsimp only at h ⊢
      rw [embeddings]
      cases hprovider : call.provider with
      | anthropic | gemini => rfl
      | openai | openaiCompatible | ollama | deepseek => exact absurd (by simp [hprovider]) h
  | chatStream pulls =>
      rw [hop] at h
      dsimp only at h ⊢
      rw [chatStream, if_pos (not_not.1 h)]

lemma run_of_refused (h : Refused settings organization table call) :
    run settings organization table call = unasked table := by
  obtain ⟨hop, hclosed⟩ := h
  have hdenied : ∃ denied, enforceBudget settings organization table call = .error denied := by
    cases henforce : enforceBudget settings organization table call with
    | error denied => exact ⟨denied, rfl⟩
    | ok =>
        obtain ⟨hchecks, hopen⟩ :=
          (enforceBudget_eq_ok_iff settings organization table call).1 henforce
        rcases hclosed with hfails | hclosed
        · exact absurd hfails (by simp [hchecks])
        · exact absurd hclosed hopen
  obtain ⟨denied, hdenied⟩ := hdenied
  rw [run]
  cases hcase : call.operation with
  | chat =>
      dsimp only
      rw [chat, hdenied]
  | embeddings => exact absurd hcase hop
  | chatStream pulls =>
      dsimp only
      rw [chatStream, hdenied]
      split_ifs <;> rfl

lemma run_eq_answered (hasks : Asks call)
    (h : ¬ Refused settings organization table call) :
    run settings organization table call = answered settings organization table call := by
  have hgoes : call.operation ≠ .embeddings →
      enforceBudget settings organization table call = .ok () := by
    intro hop
    rw [enforceBudget_eq_ok_iff, ← Bool.not_eq_true]
    exact ⟨fun hfails => h ⟨hop, .inl hfails⟩, fun hclosed => h ⟨hop, .inr hclosed⟩⟩
  unfold Asks at hasks
  rw [run, answered]
  cases hop : call.operation with
  | chat =>
      dsimp only
      rw [chat, hgoes (by simp [hop])]
  | embeddings =>
      rw [hop] at hasks
      dsimp only at hasks ⊢
      rw [embeddings]
      cases hprovider : call.provider with
      | anthropic => exact absurd hprovider hasks.1
      | gemini => exact absurd hprovider hasks.2
      | openai | openaiCompatible | ollama | deepseek => rfl
  | chatStream pulls =>
      rw [hop] at hasks
      dsimp only at hasks ⊢
      rw [chatStream, if_neg hasks, hgoes (by simp [hop])]
      rfl

lemma answered_spec :
    (answered settings organization table call).replies ≠ [] ∧
      (Adds (call.key organization) (answered settings organization table call).replies.sum
          (estimateCost call.provider call.model
            (answered settings organization table call).replies.sum)
          table (answered settings organization table call).table
        ↔ Lossless settings organization table call) := by
  have hretried := replies_retried_ne_nil settings organization table call
  rw [answered, Lossless]
  cases call.operation with
  | chat => exact ⟨hretried, adds_retried_iff settings organization table call⟩
  | embeddings => exact ⟨hretried, adds_retried_iff settings organization table call⟩
  | chatStream pulls =>
      have hsingle : ∀ usages, (iterate organization table call pulls usages).replies
          = [call.stream.tokens] := fun _ => rfl
      cases hprovider : call.provider with
      | openai | anthropic =>
          dsimp only
          rw [hsingle, List.sum_singleton, Lossless.stream, ← hprovider]
          exact ⟨by simp, adds_iterate_iff organization table call pulls lastUsage⟩
      | gemini =>
          dsimp only
          rw [hsingle, List.sum_singleton, ← hprovider, adds_iterate_iff]
          refine ⟨by simp, ?_⟩
          split_ifs
          · constructor
            · rintro ⟨hzero, -⟩
              exact hzero.symm
            · intro hzero
              refine ⟨hzero.symm, 0, ?_⟩
              rw [hzero, estimateCost_zero]
              simp [dollars]
          · exact Iff.rfl
          · exact Iff.rfl
      | openaiCompatible | ollama | deepseek =>
          dsimp only
          rw [← hprovider, adds_unchanged_iff, sum_tokens_eq_zero_iff]
          exact ⟨hretried, Iff.rfl⟩

/-- A call keeps the books exactly when it passes. -/
theorem kept_iff :
    Kept settings organization table call ↔ Passes settings organization table call := by
  by_cases hasks : Asks call
  · by_cases hrefused : Refused settings organization table call
    · refine iff_of_true ?_ fun _ h => absurd hrefused h
      exact kept_of_unasked _ _ _ _ (run_of_refused _ _ _ _ hrefused)
    · have hrun := run_eq_answered settings organization table call hasks hrefused
      obtain ⟨hreplies, hlossless⟩ := answered_spec settings organization table call
      rw [kept_iff_of_asked _ _ _ _ (by rw [hrun]; exact hreplies), hrun, hlossless]
      exact ⟨fun h _ _ => h, fun h => h hasks hrefused⟩
  · refine iff_of_true ?_ fun h => absurd h hasks
    exact kept_of_unasked _ _ _ _ (run_of_not_asks _ _ _ _ hasks)

end Llm
