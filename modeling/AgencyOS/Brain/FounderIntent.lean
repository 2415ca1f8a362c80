import AgencyOS.Python.Text

/-!
How the founder assistant classifies a message.

A message is compared with tables of words, and the first table with a match decides.  Greetings are
compared first, and with the start of the text only.

* `classify`: the classification;
* `classify_cases`: which table decides;
* `proposes_iff`: tools that act are suggested exactly where approval is required;
* `Routed`, `routed_iff`: **no action is hidden, and only greetings are taken for greetings, exactly when
  the text is a greeting or begins with none**.
-/

namespace Brain

open Python

inductive FounderIntentType where
  | status | action | casual | brainstorm
  deriving DecidableEq, Repr

structure FounderIntent where
  intentType : FounderIntentType
  confidence : ℚ
  suggestedTools : List String
  requiresApproval : Bool
  reason : String
  deriving DecidableEq, Repr

/-! ### The tables -/

def readTools : List String := ["summarize_context", "get_recent_activity", "growth_analysis", "lead_search"]

def actionTools : List String := ["create_task", "draft_email", "propose_founder_action"]

def greetingTokens : List String :=
  ["hi", "hello", "hey", "yo", "sup", "hiya", "good morning", "good evening"]

def actionKeywords : List String :=
  ["create a task", "new task", "add a task", "send", "email", "draft", "outreach", "run the workflow",
    "run workflow", "export", "propose", "schedule", "assign"]

def statusKeywords : List String :=
  ["what", "how many", "how much", "show", "report", "summarize", "status", "pipeline", "revenue", "leads",
    "tasks", "approvals", "proposals", "health", "kpi", "conversion", "forecast", "trend", "overview", "list"]

def brainstormKeywords : List String :=
  ["idea", "brainstorm", "what if", "should we", "how could", "strategy", "plan for", "think about"]

/-! ### The classification -/

/-- One of the keywords is in the text. -/
def mentions (keywords : List String) (text : List Char) : Bool :=
  keywords.any fun kw => kw.toList <:+: text

/-- The text is one of the tokens. -/
def isToken (tokens : List String) (text : List Char) : Bool := tokens.any fun g => g.toList = text

/-- The text begins with one of the tokens. -/
def beginsWith (tokens : List String) (text : List Char) : Bool := tokens.any fun g => g.toList <+: text

def emptyVerdict : FounderIntent :=
  ⟨.casual, 1 / 2, readTools, false, "empty message; default to read-only context"⟩

def greetingVerdict : FounderIntent := ⟨.casual, 9 / 10, readTools, false, "greeting detected"⟩

def actionVerdict : FounderIntent :=
  ⟨.action, 17 / 20, actionTools, true, "action keyword detected; route through approval"⟩

def brainstormVerdict : FounderIntent :=
  ⟨.brainstorm, 7 / 10, readTools, false, "brainstorm keyword detected; grounded Q&A"⟩

def statusVerdict : FounderIntent :=
  ⟨.status, 4 / 5, readTools, false, "status/question keyword detected"⟩

def defaultVerdict : FounderIntent := ⟨.status, 1 / 2, readTools, false, "default to grounded Q&A"⟩

variable (lower : List Char → List Char)

/-- `(message or "").strip().lower()`. -/
def normalized (message : Option (List Char)) : List Char := lower (strip (message.getD []))

/-- `FounderIntentService.classify`. -/
def classify (message : Option (List Char)) : FounderIntent :=
  let text := normalized lower message
  if text = [] then emptyVerdict
  else if isToken greetingTokens text || beginsWith greetingTokens text then greetingVerdict
  else if mentions actionKeywords text then actionVerdict
  else if mentions brainstormKeywords text then brainstormVerdict
  else if mentions statusKeywords text then statusVerdict
  else defaultVerdict

/-! ### Which table decides -/

/-- A token is at its own start. -/
lemma beginsWith_of_isToken {tokens : List String} {text : List Char} (h : isToken tokens text = true) :
    beginsWith tokens text = true := by
  obtain ⟨g, hg, heq⟩ := List.any_eq_true.mp h
  refine List.any_eq_true.mpr ⟨g, hg, ?_⟩
  rw [decide_eq_true_eq] at heq ⊢
  rw [heq]

/-- No keyword is in an empty text. -/
lemma mentions_nil {keywords : List String} (h : "" ∉ keywords) : mentions keywords [] = false := by
  rw [mentions, List.any_eq_false]
  intro kw hkw
  rw [decide_eq_true_eq, List.infix_nil, String.toList_eq_nil_iff]
  rintro rfl
  exact h hkw

lemma beginsWith_nil {tokens : List String} (h : "" ∉ tokens) : beginsWith tokens [] = false := by
  rw [beginsWith, List.any_eq_false]
  intro g hg
  rw [decide_eq_true_eq, List.prefix_nil, String.toList_eq_nil_iff]
  rintro rfl
  exact h hg

variable {lower} {message : Option (List Char)}

/-- A text that begins with a greeting is taken for one, whatever else is in it. -/
lemma classify_greeting (h : beginsWith greetingTokens (normalized lower message) = true) :
    classify lower message = greetingVerdict := by
  have hne : normalized lower message ≠ [] := by
    intro hnil
    rw [hnil, beginsWith_nil (by decide)] at h
    cases h
  rw [classify, if_neg hne, h, Bool.or_true, if_pos rfl]

/-- All other texts are classified by what they mention. -/
lemma classify_of_not_greeting (h : beginsWith greetingTokens (normalized lower message) = false) :
    classify lower message =
      if normalized lower message = [] then emptyVerdict
      else if mentions actionKeywords (normalized lower message) then actionVerdict
      else if mentions brainstormKeywords (normalized lower message) then brainstormVerdict
      else if mentions statusKeywords (normalized lower message) then statusVerdict
      else defaultVerdict := by
  have htoken : isToken greetingTokens (normalized lower message) = false := by
    by_contra htoken
    rw [Bool.not_eq_false] at htoken
    exact nomatch h.symm.trans (beginsWith_of_isToken htoken)
  simp only [classify, htoken, h, Bool.or_false, Bool.false_eq_true, if_false]

/-- **Which table decides.** -/
lemma classify_cases (lower : List Char → List Char) (message : Option (List Char)) :
    classify lower message = greetingVerdict ∧ beginsWith greetingTokens (normalized lower message) = true
      ∨ beginsWith greetingTokens (normalized lower message) = false
        ∧ (classify lower message = actionVerdict
            ∧ mentions actionKeywords (normalized lower message) = true
          ∨ mentions actionKeywords (normalized lower message) = false
            ∧ classify lower message ∈ [emptyVerdict, brainstormVerdict, statusVerdict, defaultVerdict]) := by
  cases hgreeting : beginsWith greetingTokens (normalized lower message) with
  | true => exact .inl ⟨classify_greeting hgreeting, rfl⟩
  | false =>
      rw [classify_of_not_greeting hgreeting]
      refine .inr ⟨rfl, ?_⟩
      by_cases hnil : normalized lower message = []
      · rw [hnil, mentions_nil (by decide)]
        exact .inr ⟨rfl, by simp⟩
      · cases haction : mentions actionKeywords (normalized lower message) with
        | true => exact .inl ⟨by simp [hnil], rfl⟩
        | false =>
            refine .inr ⟨rfl, ?_⟩
            rw [if_neg hnil, if_neg Bool.false_ne_true]
            split_ifs <;> simp

/-- **Tools that act are suggested exactly where approval is required**, which is where the intent is an
action. -/
theorem proposes_iff (lower : List Char → List Char) (message : Option (List Char)) :
    ((classify lower message).suggestedTools = actionTools ↔ (classify lower message).requiresApproval = true)
      ∧ ((classify lower message).requiresApproval = true ↔ (classify lower message).intentType = .action) := by
  rcases classify_cases lower message with ⟨h, -⟩ | ⟨-, ⟨h, -⟩ | ⟨-, h⟩⟩
  · rw [h]
    decide
  · rw [h]
    decide
  · have hall : ∀ verdict ∈ [emptyVerdict, brainstormVerdict, statusVerdict, defaultVerdict],
        (verdict.suggestedTools = actionTools ↔ verdict.requiresApproval = true)
          ∧ (verdict.requiresApproval = true ↔ verdict.intentType = .action) := by decide
    exact hall _ h

/-! ### Actions and greetings -/

/-- What is promised of a message: a text with an action keyword that is not just a greeting is an action
that requires approval, and only a greeting is taken for one. -/
structure Routed (lower : List Char → List Char) (message : Option (List Char)) : Prop where
  action : mentions actionKeywords (normalized lower message) = true →
    isToken greetingTokens (normalized lower message) = false →
      (classify lower message).intentType = .action ∧ (classify lower message).requiresApproval = true
  greeting : classify lower message = greetingVerdict →
    isToken greetingTokens (normalized lower message) = true

/-- **No action is hidden, and only greetings are taken for greetings**, exactly when the text is a
greeting or begins with none. -/
theorem routed_iff (lower : List Char → List Char) (message : Option (List Char)) : Routed lower message
    ↔ (isToken greetingTokens (normalized lower message) = true
      ∨ beginsWith greetingTokens (normalized lower message) = false) := by
  constructor
  · intro h
    cases hgreeting : beginsWith greetingTokens (normalized lower message) with
    | true => exact .inl (h.greeting (classify_greeting hgreeting))
    | false => exact .inr rfl
  · rintro (htoken | hgreeting)
    · constructor
      · intro _ hnot
        exact nomatch htoken.symm.trans hnot
      · intro _
        exact htoken
    · rcases classify_cases lower message with ⟨-, h⟩ | ⟨-, ⟨h, -⟩ | ⟨hnone, h⟩⟩
      · exact nomatch h.symm.trans hgreeting
      · constructor
        · intro _ _
          rw [h]
          exact ⟨rfl, rfl⟩
        · intro hverdict
          exact absurd (h.symm.trans hverdict) (by decide)
      · constructor
        · intro hsome
          exact nomatch hnone.symm.trans hsome
        · intro hverdict
          have hreasons : ∀ verdict ∈ [emptyVerdict, brainstormVerdict, statusVerdict, defaultVerdict],
              verdict.reason ≠ greetingVerdict.reason := by decide
          exact absurd (congrArg FounderIntent.reason hverdict) (hreasons _ h)

/-- A greeting before a request hides the request. -/
theorem not_routed_greetedRequest : ¬ ∀ (lower : List Char → List Char) (message : Option (List Char)),
    Routed lower message := by
  intro h
  have hrouted := (routed_iff _ _).mp (h (List.map Char.toLower) (some "Hi, send the email".toList))
  exact absurd hrouted (by decide +kernel)

end Brain
