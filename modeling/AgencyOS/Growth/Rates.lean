import AgencyOS.Growth.Bottleneck
import AgencyOS.Growth.Weighted
import Mathlib.Data.Finset.Sort

/-!
The rates of the growth engines.

Each rate divides a count of rows by another one.  The won leads are among the decided ones, the leads on
a stage among those that have entered it; but a reply moves an attempt out of the sent ones.

* `computeActivity`, `computeConversion`, `computeFunnel`: the engines;
* `getD_countChannels`, `sum_countP_channel`: what the counters of the channels hold, and add up to;
* `Rounds`: what the rates need of the rounding;
* `Proportions`: what is promised of the rates;
* `proportions_iff`: **the rates are proportions exactly when** neither the attempts in all nor those of a
  channel have more replies than sent ones, if there are any sent.
-/

namespace Growth

open Python

variable (round : ℚ → ℕ → ℚ) (context : GrowthContext)

/-! ### Activity -/

def AttemptPoint.isSent (attempt : AttemptPoint) : Bool := attempt.status ∈ sentStatuses

def AttemptPoint.isReplied (attempt : AttemptPoint) : Bool := attempt.status = "replied"

/-- `attempt.channel or "unknown"`. -/
def AttemptPoint.channelName (attempt : AttemptPoint) : String :=
  if attempt.channel = "" then "unknown" else attempt.channel

/-- A `Counter` of the channels after the loop over the attempts. -/
def countChannels (p : AttemptPoint → Bool) (attempts : List AttemptPoint) : Dict String ℕ :=
  attempts.foldl (fun counter attempt =>
    if p attempt then counter.insert attempt.channelName (counter.getD attempt.channelName 0 + 1)
    else counter) ∅

structure ChannelRow where
  channel : String
  sent : ℕ
  replied : ℕ
  replyRate : ℚ
  deriving DecidableEq, Repr

structure Activity where
  totalAttempts : ℕ
  sent : ℕ
  replied : ℕ
  failed : ℕ
  replyRate : ℚ
  byChannel : List ChannelRow
  tasksCreated : ℕ
  tasksCompleted : ℕ
  tasksOpen : ℕ
  completionRate : ℚ
  eventsTotal : ℕ
  eventsTop : List (String × ℕ)
  deriving DecidableEq, Repr

def computeActivity : Activity :=
  let sent := context.attempts.countP (·.isSent)
  let replied := context.attempts.countP (·.isReplied)
  let replyRate : ℚ := if sent = 0 then 0 else replied / sent
  let channelSent := countChannels (·.isSent) context.attempts
  let channelReplied := countChannels (·.isReplied) context.attempts
  let tasksCreated := context.tasks.length
  let tasksCompleted := context.tasks.countP (·.completedAt ≠ none)
  let completionRate : ℚ := if tasksCreated = 0 then 0 else tasksCompleted / tasksCreated
  let eventCounts := OrderedDict.tally id 0 (fun count _ => count + 1)
    (context.activity.map (·.eventType))
  { totalAttempts := context.attempts.length
    sent := sent
    replied := replied
    failed := context.attempts.countP (·.status = "failed")
    replyRate := round replyRate 4
    byChannel := (channelSent.keys ∪ channelReplied.keys).sort.map fun channel =>
      let sent := channelSent.getD channel 0
      let replied := channelReplied.getD channel 0
      { channel := channel
        sent := sent
        replied := replied
        replyRate := if sent = 0 then 0 else round (replied / sent) 4 }
    tasksCreated := tasksCreated
    tasksCompleted := tasksCompleted
    tasksOpen := tasksCreated - tasksCompleted
    completionRate := round completionRate 4
    eventsTotal := context.activity.length
    eventsTop := (sortedBy (fun item => OrderDual.toDual item.2) eventCounts.items).take 8 }

/-! ### Conversion -/

structure StageToStage where
  fromStage : String
  fromStageId : ℕ
  toStage : String
  toStageId : ℕ
  countFrom : ℕ
  countTo : ℕ
  conversion : ℚ
  deriving DecidableEq, Repr

structure Conversion where
  winRate : ℚ
  lossRate : ℚ
  overallConversion : ℚ
  stageToStage : List StageToStage
  proposalWinConversion : ℚ
  meetingToWon : ℚ
  proposalCount : ℕ
  meetingCount : ℕ
  deriving DecidableEq, Repr

/-- `text in stage.name.lower()`. -/
def StagePoint.names (stage : StagePoint) (text : String) : Bool :=
  decide (text.toList <:+: stage.name.toLower.toList)

def computeConversion : Conversion :=
  let won := context.leads.countP (·.status = "won")
  let lost := context.leads.countP (·.status = "lost")
  let total := context.leads.length
  let decided := won + lost
  let openStages := openStagesInOrder context
  let counts := stageCount context
  let proposals := ((openStages.filter (·.names "proposal")).map counts).sum
  let meetings := ((openStages.filter (·.names "meeting")).map counts).sum
  { winRate := if decided = 0 then 0 else round (won / decided) 4
    lossRate := if decided = 0 then 0 else round (lost / decided) 4
    overallConversion := if total = 0 then 0 else round (won / total) 4
    stageToStage := List.zipWith (fun stage nxt =>
      { fromStage := stage.name
        fromStageId := stage.id
        toStage := nxt.name
        toStageId := nxt.id
        countFrom := counts stage
        countTo := counts nxt
        conversion := if counts stage = 0 then 0 else round (counts nxt / counts stage) 4 })
      openStages openStages.tail
    proposalWinConversion := if proposals + won = 0 then 0 else round (won / (proposals + won : ℕ)) 4
    meetingToWon := if meetings + won = 0 then 0 else round (won / (meetings + won : ℕ)) 4
    proposalCount := proposals
    meetingCount := meetings }

/-! ### Funnel -/

structure FunnelRow where
  stageId : ℕ
  name : String
  position : ℤ
  count : ℕ
  entered : ℕ
  stageConversion : ℚ
  dropoff : ℕ
  deriving DecidableEq, Repr

structure Funnel where
  funnel : List FunnelRow
  entry : ℕ
  exitWon : ℕ
  exitLost : ℕ
  note : String
  deriving DecidableEq, Repr

/-- The loop over the open stages, with the running total `entered`. -/
def funnelRows (count : StagePoint → ℕ) : ℕ → List StagePoint → List FunnelRow
  | _, [] => []
  | entered, stage :: stages =>
      let entered := entered + count stage
      { stageId := stage.id
        name := stage.name
        position := stage.position
        count := count stage
        entered := entered
        stageConversion := if entered = 0 then 0 else round (count stage / entered) 4
        dropoff := entered - count stage } :: funnelRows count entered stages

def computeFunnel : Funnel where
  funnel := funnelRows round (stageCount context) 0 (openStagesInOrder context)
  entry := context.leads.length
  exitWon := context.leads.countP (·.status = "won")
  exitLost := context.leads.countP (·.status = "lost")
  note := "Snapshot approximation: counts reflect current stage placement; " ++
    "stage_transition history is not stored."

/-! ### The counters -/

section Counters

variable (p : AttemptPoint → Bool) (attempts : List AttemptPoint)

/-- What a counter holds after more attempts. -/
lemma foldl_countChannels (counter : Dict String ℕ) (channel : String) :
    (attempts.foldl (fun counter attempt =>
        if p attempt then counter.insert attempt.channelName (counter.getD attempt.channelName 0 + 1)
        else counter) counter).getD channel 0
      = counter.getD channel 0 + attempts.countP fun a => p a && a.channelName = channel := by
  induction attempts generalizing counter with
  | nil => simp
  | cons a attempts ih =>
      rw [List.foldl_cons, ih, List.countP_cons]
      by_cases hp : p a = true
      · by_cases hchannel : a.channelName = channel
        · subst hchannel
          simp [hp, Dict.getD, Finmap.lookup_insert]
          omega
        · simp [hp, hchannel, Dict.getD, Finmap.lookup_insert_of_ne _ (Ne.symm hchannel)]
      · simp [hp]

/-- A counter holds the number of attempts on the channel. -/
@[simp] lemma getD_countChannels (channel : String) :
    (countChannels p attempts).getD channel 0 = attempts.countP fun a => p a && a.channelName = channel := by
  rw [countChannels, foldl_countChannels, Dict.getD, Finmap.lookup_empty, Option.getD_none, zero_add]

/-- A counter has the channels of the attempts that it counts. -/
lemma mem_countChannels {a : AttemptPoint} (ha : a ∈ attempts) (hp : p a = true) :
    a.channelName ∈ (countChannels p attempts).keys := by
  rw [Finmap.mem_keys]
  by_contra hnot
  have hnone := getD_countChannels p attempts a.channelName
  rw [Dict.getD, Finmap.lookup_eq_none.mpr hnot, Option.getD_none, eq_comm, List.countP_eq_zero] at hnone
  exact hnone a ha (by simp [hp])

/-- The attempts are spread over their channels. -/
lemma sum_countP_channel (channels : Finset String)
    (hmem : ∀ a ∈ attempts, p a = true → a.channelName ∈ channels) :
    ∑ channel ∈ channels, attempts.countP (fun a => p a && a.channelName = channel)
      = attempts.countP p := by
  induction attempts with
  | nil => simp
  | cons a attempts ih =>
      rw [List.forall_mem_cons] at hmem
      simp only [List.countP_cons, Finset.sum_add_distrib, ih hmem.2]
      by_cases hp : p a = true
      · simp [hp, Finset.sum_ite_eq, hmem.1 hp]
      · simp [hp]

end Counters

/-! ### The promise -/

def IsProportion (q : ℚ) : Prop := 0 ≤ q ∧ q ≤ 1

/-- **What is promised of the rates.** -/
structure Proportions : Prop where
  kpis : IsProportion (computeKpis round context).winRate
    ∧ IsProportion (computeKpis round context).conversionRate
  conversion : IsProportion (computeConversion round context).winRate
    ∧ IsProportion (computeConversion round context).lossRate
    ∧ IsProportion (computeConversion round context).overallConversion
    ∧ IsProportion (computeConversion round context).proposalWinConversion
    ∧ IsProportion (computeConversion round context).meetingToWon
  stages : ∀ row ∈ (computeFunnel round context).funnel, IsProportion row.stageConversion
  tasks : IsProportion (computeActivity round context).completionRate
  replies : IsProportion (computeKpis round context).replyRate
    ∧ IsProportion (computeActivity round context).replyRate
    ∧ ∀ row ∈ (computeActivity round context).byChannel, IsProportion row.replyRate
  decided : (∃ lead ∈ context.leads, lead.status = "won" ∨ lead.status = "lost") →
    (computeKpis round context).winRate + (computeConversion round context).lossRate = 1
      ∧ (computeConversion round context).winRate + (computeConversion round context).lossRate = 1
  channels : ((computeActivity round context).byChannel.map (·.sent)).sum
      = (computeActivity round context).sent
    ∧ ((computeActivity round context).byChannel.map (·.replied)).sum
      = (computeActivity round context).replied

/-- **The condition** on some attempts: no more replies than sent ones, up to `slack`, if any are sent. -/
def RepliesWithin (slack : ℚ) (attempts : List AttemptPoint) : Prop :=
  attempts.countP (·.isSent) = 0
    ∨ (attempts.countP (·.isReplied) : ℚ) ≤ (1 + slack) * attempts.countP (·.isSent)

/-- The condition on all attempts and on those of each channel. -/
def AllRepliesWithin (slack : ℚ) : Prop :=
  RepliesWithin slack context.attempts
    ∧ ∀ channel, RepliesWithin slack (context.attempts.filter (·.channelName = channel))

/-- What the rates need of the rounding: it keeps the sign, rounds to at most one what is above by at most
`slack`, and rounds a part and the rest to a part and the rest. -/
structure Rounds (round : ℚ → ℕ → ℚ) (slack : ℚ) : Prop where
  slack_nonneg : 0 ≤ slack
  nonneg : ∀ q, 0 ≤ q → 0 ≤ round q 4
  le_one : ∀ q, round q 4 ≤ 1 ↔ q ≤ 1 + slack
  rest : ∀ q, round (1 - q) 4 = 1 - round q 4

lemma rounds_exact : Rounds exact 0 := by
  constructor <;> simp [exact]

lemma rounds_roundTo : Rounds roundTo (1 / 20000) where
  slack_nonneg := by norm_num
  nonneg q hq := roundTo_nonneg hq 4
  le_one q := by
    have hiff : roundTo q 4 ≤ ((1 : ℤ) : ℚ) ↔ q * 10 ^ 4 ≤ ((1 : ℤ) : ℚ) * 10 ^ 4 + 1 / 2 :=
      roundTo_le_iff (by norm_num)
    rw [Int.cast_one] at hiff
    rw [hiff]
    constructor <;> intro h <;> linarith
  rest q := by
    have hrest : roundTo (((1 : ℤ) : ℚ) - q) 4 = ((1 : ℤ) : ℚ) - roundTo q 4 := roundTo_sub (by norm_num) q
    rwa [Int.cast_one] at hrest

section Rates

variable {round} {context} {slack : ℚ} (h : Rounds round slack)

include h

/-- A rate is a proportion exactly when the part is within the whole. -/
lemma isProportion_round_iff (part whole : ℕ) :
    IsProportion (round (if whole = 0 then 0 else (part : ℚ) / whole) 4)
      ↔ whole = 0 ∨ (part : ℚ) ≤ (1 + slack) * whole := by
  by_cases hwhole : whole = 0
  · rw [if_pos hwhole]
    have hle := (h.le_one 0).mpr (by linarith [h.slack_nonneg])
    exact iff_of_true ⟨h.nonneg 0 le_rfl, hle⟩ (Or.inl hwhole)
  · have hpos : (0 : ℚ) < whole := by exact_mod_cast Nat.pos_of_ne_zero hwhole
    rw [if_neg hwhole, IsProportion, h.le_one, div_le_iff₀ hpos, or_iff_right hwhole]
    exact and_iff_right (h.nonneg _ (by positivity))

/-- The same, of a rate that is rounded only if there is one. -/
lemma isProportion_rate_iff (part whole : ℕ) :
    IsProportion (if whole = 0 then 0 else round ((part : ℚ) / whole) 4)
      ↔ whole = 0 ∨ (part : ℚ) ≤ (1 + slack) * whole := by
  by_cases hwhole : whole = 0
  · rw [if_pos hwhole]
    exact iff_of_true ⟨le_rfl, zero_le_one⟩ (Or.inl hwhole)
  · have hround := isProportion_round_iff h part whole
    rwa [if_neg hwhole] at hround ⊢

/-- A part of the whole. -/
lemma part_within {part whole : ℕ} (hle : part ≤ whole) :
    whole = 0 ∨ (part : ℚ) ≤ (1 + slack) * whole := by
  refine Or.inr ?_
  have hcast : (part : ℚ) ≤ whole := by exact_mod_cast hle
  have hslack : 0 ≤ slack * whole := mul_nonneg h.slack_nonneg (Nat.cast_nonneg _)
  calc (part : ℚ) ≤ whole := hcast
    _ ≤ (1 + slack) * whole := by linarith

/-- A stage has no more leads than have entered it. -/
lemma isProportion_funnelRows (count : StagePoint → ℕ) (entered : ℕ) (stages : List StagePoint) :
    ∀ row ∈ funnelRows round count entered stages, IsProportion row.stageConversion := by
  induction stages generalizing entered with
  | nil => simp [funnelRows]
  | cons stage stages ih =>
      rw [funnelRows, List.forall_mem_cons]
      refine ⟨(isProportion_rate_iff h _ _).mpr (part_within h ?_), ih _⟩
      omega

/-- The won and the lost share is one. -/
lemma rates_add {won lost : ℕ} (hdecided : won + lost ≠ 0) :
    round ((won : ℚ) / (won + lost : ℕ)) 4 + round ((lost : ℚ) / (won + lost : ℕ)) 4 = 1 := by
  have hne : ((won + lost : ℕ) : ℚ) ≠ 0 := by exact_mod_cast hdecided
  have hrest : (lost : ℚ) / (won + lost : ℕ) = 1 - won / (won + lost : ℕ) := by
    field_simp
    push_cast
    ring
  rw [hrest, h.rest]
  ring

omit h in
/-- The condition on a channel, by its counters. -/
lemma repliesWithin_channel (channel : String) :
    RepliesWithin slack (context.attempts.filter (·.channelName = channel))
      ↔ (countChannels (·.isSent) context.attempts).getD channel 0 = 0
        ∨ ((countChannels (·.isReplied) context.attempts).getD channel 0 : ℚ)
          ≤ (1 + slack) * (countChannels (·.isSent) context.attempts).getD channel 0 := by
  rw [RepliesWithin, List.countP_filter, List.countP_filter, getD_countChannels, getD_countChannels]

/-- The rates of the channels are proportions exactly under the condition on each. -/
lemma isProportion_byChannel_iff :
    (∀ row ∈ (computeActivity round context).byChannel, IsProportion row.replyRate)
      ↔ ∀ channel, RepliesWithin slack (context.attempts.filter (·.channelName = channel)) := by
  constructor
  · intro hrows channel
    rw [repliesWithin_channel]
    by_cases hmem : channel ∈ (countChannels (·.isSent) context.attempts).keys
    · have hsort := (Finset.mem_sort (· ≤ ·)).mpr (Finset.mem_union_left
        (countChannels (·.isReplied) context.attempts).keys hmem)
      exact (isProportion_rate_iff h _ _).mp (hrows _ (List.mem_map_of_mem hsort))
    · left
      rw [Finmap.mem_keys, ← Finmap.lookup_eq_none] at hmem
      rw [Dict.getD, hmem, Option.getD_none]
  · intro hchannels row hrow
    obtain ⟨channel, -, rfl⟩ := List.mem_map.mp hrow
    exact (isProportion_rate_iff h _ _).mpr ((repliesWithin_channel channel).mp (hchannels channel))

omit h in
/-- The counts of the channels add up. -/
lemma sum_byChannel :
    ((computeActivity round context).byChannel.map (·.sent)).sum = (computeActivity round context).sent
      ∧ ((computeActivity round context).byChannel.map (·.replied)).sum
        = (computeActivity round context).replied := by
  have hsum : ∀ (s : Finset String) (p : AttemptPoint → Bool),
      (∀ a ∈ context.attempts, p a = true → a.channelName ∈ s) →
      (s.sort.map fun channel => (countChannels p context.attempts).getD channel 0).sum
        = context.attempts.countP p := by
    intro s p hmem
    rw [← sum_countP_channel p context.attempts s hmem, ← List.sum_toFinset _ (Finset.sort_nodup _ _),
      Finset.sort_toFinset]
    simp
  constructor
  · refine Eq.trans (congrArg List.sum (List.map_map ..)) (hsum _ (·.isSent) fun a ha hp => ?_)
    exact Finset.mem_union_left _ (mem_countChannels _ _ ha hp)
  · refine Eq.trans (congrArg List.sum (List.map_map ..)) (hsum _ (·.isReplied) fun a ha hp => ?_)
    exact Finset.mem_union_right _ (mem_countChannels _ _ ha hp)

/-- With any rounding of this kind. -/
lemma proportions_iff_of_rounds : Proportions round context ↔ AllRepliesWithin context slack := by
  have hreplies : IsProportion (computeKpis round context).replyRate
      ↔ RepliesWithin slack context.attempts := isProportion_round_iff h _ _
  constructor
  · exact fun hrates => ⟨hreplies.mp hrates.replies.1, (isProportion_byChannel_iff h).mp hrates.replies.2.2⟩
  · rintro ⟨hall, hchannels⟩
    refine ⟨⟨?_, ?_⟩, ⟨?_, ?_, ?_, ?_, ?_⟩, isProportion_funnelRows h _ _ _, ?_,
      ⟨hreplies.mpr hall, hreplies.mpr hall, (isProportion_byChannel_iff h).mpr hchannels⟩, ?_,
      sum_byChannel⟩
    · exact (isProportion_round_iff h _ _).mpr (part_within h (Nat.le_add_right _ _))
    · exact (isProportion_round_iff h _ _).mpr (part_within h (List.length_filter_le _ _))
    · exact (isProportion_rate_iff h _ _).mpr (part_within h (Nat.le_add_right _ _))
    · exact (isProportion_rate_iff h _ _).mpr (part_within h (Nat.le_add_left _ _))
    · exact (isProportion_rate_iff h _ _).mpr (part_within h List.countP_le_length)
    · exact (isProportion_rate_iff h _ _).mpr (part_within h (Nat.le_add_left _ _))
    · exact (isProportion_rate_iff h _ _).mpr (part_within h (Nat.le_add_left _ _))
    · exact (isProportion_round_iff h _ _).mpr (part_within h List.countP_le_length)
    · rintro ⟨lead, hlead, hstatus⟩
      have hdecided : context.leads.countP (·.status = "won") + context.leads.countP (·.status = "lost")
          ≠ 0 := by
        intro hzero
        rw [Nat.add_eq_zero_iff, List.countP_eq_zero, List.countP_eq_zero] at hzero
        rcases hstatus with hwon | hlost
        · exact hzero.1 lead hlead (decide_eq_true hwon)
        · exact hzero.2 lead hlead (decide_eq_true hlost)
      have hadd := rates_add h hdecided
      rw [computeKpis, computeConversion]
      simp only [← List.countP_eq_length_filter, if_neg hdecided]
      exact ⟨hadd, hadd⟩

end Rates

/-- **The rates are proportions exactly when** neither the attempts in all nor those of a channel have more
replies than sent ones, if any are sent: with the rates as they are, and up to half of the last place with the
rates as they are rounded. -/
theorem proportions_iff (context : GrowthContext) :
    (Proportions exact context ↔ AllRepliesWithin context 0)
      ∧ (Proportions roundTo context ↔ AllRepliesWithin context (1 / 20000)) :=
  ⟨proportions_iff_of_rounds rounds_exact, proportions_iff_of_rounds rounds_roundTo⟩

/-- One attempt that is sent, and two that are answered. -/
def answered : GrowthContext where
  organizationId := 1
  periodStart := 0
  periodEnd := 31
  stages := []
  leads := []
  metrics := []
  attempts := [⟨"sent", "email", 1⟩, ⟨"replied", "email", 2⟩, ⟨"replied", "email", 3⟩]
  tasks := []
  activity := []
  healthWeights := []

/-- Twice as many are answered as are sent. -/
theorem not_proportions_answered : ¬ Proportions exact answered ∧ ¬ Proportions roundTo answered := by
  have hsent : answered.attempts.countP (·.isSent) = 1 := by decide
  have hreplied : answered.attempts.countP (·.isReplied) = 2 := by decide
  have hmore : ∀ slack : ℚ, slack < 1 → ¬ AllRepliesWithin answered slack := by
    rintro slack hslack ⟨hnone | hwithin, -⟩
    · rw [hsent] at hnone
      cases hnone
    · rw [hsent, hreplied] at hwithin
      norm_num at hwithin
      linarith
  refine ⟨fun hrates => ?_, fun hrates => ?_⟩
  · exact hmore 0 (by norm_num) ((proportions_iff answered).1.mp hrates)
  · exact hmore (1 / 20000) (by norm_num) ((proportions_iff answered).2.mp hrates)

end Growth
