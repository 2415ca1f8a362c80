import AgencyOS.Python.Calendar
import AgencyOS.Python.Text
import Mathlib.Tactic

/-!
The memories of an organization, their types and their scores.

The lower case of a text is a parameter, and scores are exact.

* `AiMemory`: a memory;
* `normalizeContent`, `inferScope`, `classifyCanonicalType`: its classification;
* `scoreMemory`: its score for a query.
-/

namespace Memory

open Python

inductive MemoryType where
  | working | longTerm
  deriving DecidableEq, Repr

inductive MemoryScope where
  | conversation | research | workflow | sharedContext | knowledge | manual
  deriving DecidableEq, Repr

def MemoryScope.value : MemoryScope → List Char
  | .conversation => "conversation".toList
  | .research => "research".toList
  | .workflow => "workflow".toList
  | .sharedContext => "shared_context".toList
  | .knowledge => "knowledge".toList
  | .manual => "manual".toList

/-- What the metadata hold under `category`: a text, or some other value, which may be false. -/
inductive Category where
  | text (value : List Char)
  | other (truth : Bool)
  deriving DecidableEq, Repr

/-- A row of `ai_memories`. -/
structure AiMemory where
  id : ℕ
  organizationId : ℕ
  memoryType : MemoryType
  scope : MemoryScope
  title : Option (List Char)
  content : List Char
  importance : ℤ
  category : Option Category
  createdAt : Datetime
  deriving DecidableEq, Repr

/-! ### Classification -/

inductive CanonicalMemoryType where
  | founder | business | crm | knowledge | conversation | research | workflow | sharedContext
  deriving DecidableEq, Repr

def CanonicalMemoryType.value : CanonicalMemoryType → List Char
  | .founder => "founder".toList
  | .business => "business".toList
  | .crm => "crm".toList
  | .knowledge => "knowledge".toList
  | .conversation => "conversation".toList
  | .research => "research".toList
  | .workflow => "workflow".toList
  | .sharedContext => "shared_context".toList

def knowledgeCategories : List CanonicalMemoryType := [.founder, .business, .crm, .knowledge]

def workingTypes : List CanonicalMemoryType := [.conversation, .research, .workflow, .sharedContext]

inductive MemoryError where
  | attributeError
  deriving DecidableEq, Repr

variable (lower : List Char → List Char)

/-- `re.sub(r"\s+", " ", content)`, with whether the last character was a space. -/
def collapse : Bool → List Char → List Char
  | _, [] => []
  | spaced, c :: cs =>
      if isSpace c then
        if spaced then collapse true cs else ' ' :: collapse true cs
      else c :: collapse false cs

/-- `normalize_content`, with its `max_len` of 400. -/
def normalizeContent (content : List Char) : List Char :=
  (lower (strip (collapse false content))).take 400

/-- `infer_scope`. -/
def inferScope (source : Option (List Char)) : MemoryScope :=
  match source with
  | none | some [] => .research
  | some source =>
      ([.conversation, .research, .workflow, .sharedContext, .knowledge].find? fun scope =>
        lower (strip source) = MemoryScope.value scope).getD .research

/-- `classify_canonical_type`. -/
def classifyCanonicalType (memoryType : MemoryType) (scope : MemoryScope)
    (category : Option Category) : Except MemoryError CanonicalMemoryType :=
  match memoryType with
  | .longTerm =>
      match category with
      | none | some (.other false) | some (.text []) => .ok .business
      -- `category.lower()`
      | some (.other true) => .error .attributeError
      | some (.text category) =>
          .ok ((knowledgeCategories.find? fun known => lower category = known.value).getD .business)
  | .working => .ok ((workingTypes.find? fun canonical => scope.value = canonical.value).getD .research)

/-! ### Scores -/

def recencyHalfLifeDays : ℚ := 30

def importanceScale : ℤ := 5

def recencyWeight : ℚ := 4 / 10

def importanceWeight : ℚ := 3 / 10

def provenanceMatchBonus : ℚ := 2 / 10

def provenanceMismatchPenalty : ℚ := -(2 / 10)

def recencyScore (memory : AiMemory) (now : Datetime) : ℚ :=
  let age := Datetime.secondsFrom memory.createdAt now
  let ageDays := max 0 (age / 86400)
  let decay := max 0 (1 - ageDays / recencyHalfLifeDays)
  decay * recencyWeight

def importanceScore (memory : AiMemory) : ℚ :=
  -- no importance counts as 1
  let importance := max 1 (min (if memory.importance = 0 then 1 else memory.importance) importanceScale)
  importance / importanceScale * importanceWeight

/-- `_provenance_score`, for the text of the scope that is asked for. -/
def provenanceScore (memory : AiMemory) (queryScope : Option (List Char)) : ℚ :=
  match queryScope with
  | none | some [] => 0
  | some queryScope =>
      if memory.scope.value = lower queryScope then provenanceMatchBonus
      else provenanceMismatchPenalty

def scoreMemory (memory : AiMemory) (queryScope : Option (List Char)) (now : Datetime) : ℚ :=
  let total := recencyScore memory now + importanceScore memory + provenanceScore lower memory queryScope
  max 0 (min 1 total)

end Memory
