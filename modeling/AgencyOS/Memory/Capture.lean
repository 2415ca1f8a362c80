import AgencyOS.Memory.Model
import AgencyOS.Txn.OrderBy

/-!
The memories that the agents capture.

A working memory is not written again while one of the same normalized content lies within a window.
The lookup reads the hundred newest working memories of the window and no more.

* `captureMemory`: the write path;
* `Unique`: that no memory was captured within the window of one of the same content;
* `Run`, `unique_of_seen`: **a run keeps it if the duplicate of every capture is among the hundred
  newest**;
* `not_unique_repeated`: a memory that is captured again after a hundred others.
-/

namespace Memory

open Python Txn

/-! ### The write path -/

/-- A call: what is to be kept, the clock at the lookup, and the time and the key that the store
gives to the row. -/
structure CaptureCall where
  organizationId : ℕ
  memoryType : MemoryType
  scope : Option MemoryScope
  source : Option (List Char)
  title : Option (List Char)
  content : Option (List Char)
  importance : Option ℤ
  category : Option Category
  ttlWindow : Option ℤ
  now : Datetime
  createdAt : Datetime
  id : ℕ
  deriving DecidableEq, Repr

def minContentChars : ℕ := 10

def minImportance : ℤ := 2

/-- `_DEDUP_WINDOW`, in microseconds. -/
def dedupWindow : ℤ := microsecondsPerDay

/-- `clean_content`. -/
def CaptureCall.cleanContent (call : CaptureCall) : List Char := strip (call.content.getD [])

/-- `ttl_window or _DEDUP_WINDOW`. -/
def CaptureCall.window (call : CaptureCall) : ℤ :=
  match call.ttlWindow with
  | none => dedupWindow
  | some window => if window = 0 then dedupWindow else window

/-- The rows that the lookup of a call may read. -/
def recentWorking (memories : List AiMemory) (call : CaptureCall) : List AiMemory :=
  memories.filter fun memory => memory.organizationId = call.organizationId
    && memory.memoryType = .working && (call.now : ℤ) - call.window ≤ memory.createdAt

def newest (memory : AiMemory) : ℕᵒᵈ := OrderDual.toDual memory.createdAt

/-- An answer to the query of `find_duplicate`, before its limit. -/
structure Recent (memories : List AiMemory) (call : CaptureCall) where
  rows : List AiMemory
  ordered : OrderedBy newest (recentWorking memories call) rows

def duplicateLimit : ℕ := 100

inductive CaptureResult where
  | skipped
  | existing (memory : AiMemory)
  | refused
  | written (memory : AiMemory)
  deriving DecidableEq, Repr

/-- The constraints of the table. -/
def Admitted (memory : AiMemory) : Prop :=
  1 ≤ memory.importance ∧ memory.importance ≤ 5
    ∧ memory.content.any (· ≠ ' ')
    ∧ (memory.title.all fun title => title.any (· ≠ ' '))

instance (memory : AiMemory) : Decidable (Admitted memory) :=
  inferInstanceAs (Decidable (_ ∧ _))

section Code

variable (lower : List Char → List Char)

/-- The row that a call writes. -/
def newMemory (call : CaptureCall) : AiMemory where
  id := call.id
  organizationId := call.organizationId
  memoryType := call.memoryType
  scope := call.scope.getD (inferScope lower call.source)
  title := call.title
  content := call.cleanContent
  importance := call.importance.getD 0
  category := call.category
  createdAt := call.createdAt

variable {memories : List AiMemory} {call : CaptureCall}

/-- `find_duplicate`. -/
def findDuplicate (answer : Recent memories call) (normalizedContent : List Char) : Option AiMemory :=
  (answer.rows.take duplicateLimit).find? fun memory =>
    normalizeContent lower memory.content = normalizedContent

/-- `existing`: only working memories are looked up. -/
def existingMemory (answer : Recent memories call) : Option AiMemory :=
  if call.memoryType = .working then
    findDuplicate lower answer (normalizeContent lower call.cleanContent)
  else none

/-- `capture_memory`. -/
def captureMemory (answer : Recent memories call) : CaptureResult :=
  if call.cleanContent.length < minContentChars ∨ call.importance.getD 0 < minImportance then .skipped
  else
    match existingMemory lower answer with
    | some memory => .existing memory
    | none =>
        if Admitted (newMemory lower call) then .written (newMemory lower call) else .refused

end Code

/-! ### Runs -/

/-- A captured memory, and the window of the call that captured it. -/
structure Captured where
  memory : AiMemory
  window : ℤ
  deriving DecidableEq, Repr

variable (lower : List Char → List Char)

/-- Working memories of one organization with the same normalized content. -/
def Rivals (memory memory' : AiMemory) : Prop :=
  memory.memoryType = .working ∧ memory'.memoryType = .working
    ∧ memory.organizationId = memory'.organizationId
    ∧ normalizeContent lower memory.content = normalizeContent lower memory'.content

/-- **What is promised of the captured memories**, the last one first: each was captured when all
earlier ones of the same content lay before its window. -/
def Unique (log : List Captured) : Prop :=
  log.Pairwise fun later earlier => Rivals lower later.memory earlier.memory →
    (earlier.memory.createdAt : ℤ) + later.window < later.memory.createdAt

/-- The log after a call. -/
def after (log : List Captured) {call : CaptureCall} (answer : Recent (log.map Captured.memory) call) :
    List Captured :=
  match captureMemory lower answer with
  | .written memory => ⟨memory, call.window⟩ :: log
  | _ => log

/-- The logs that calls lead to, where each meets a condition. -/
inductive Run (allowed : List AiMemory → CaptureCall → Prop) : List Captured → Prop where
  | start {log} (h : Unique lower log) : Run allowed log
  | call {log} {call : CaptureCall} (answer : Recent (log.map Captured.memory) call)
      (hrun : Run allowed log) (hallowed : allowed (log.map Captured.memory) call) :
      Run allowed (after lower log answer)

/-- **The condition** on a call: if a memory of the same content lies within its window, then such a
one was made after the clock less the window, and at most a hundred of these, itself included, are
as new. -/
def Seen (memories : List AiMemory) (call : CaptureCall) : Prop :=
  (∃ memory ∈ memories, Rivals lower (newMemory lower call) memory
      ∧ (call.createdAt : ℤ) ≤ memory.createdAt + call.window) →
    ∃ memory ∈ recentWorking memories call,
      normalizeContent lower memory.content = normalizeContent lower call.cleanContent
        ∧ (upTo newest (recentWorking memories call) memory).length ≤ duplicateLimit

variable {lower} {memories : List AiMemory} {call : CaptureCall}

/-- A duplicate that is seen is found. -/
lemma findDuplicate_of_seen (answer : Recent memories call) {memory : AiMemory}
    (hmem : memory ∈ recentWorking memories call)
    (hsame : normalizeContent lower memory.content = normalizeContent lower call.cleanContent)
    (hlimit : (upTo newest (recentWorking memories call) memory).length ≤ duplicateLimit) :
    findDuplicate lower answer (normalizeContent lower call.cleanContent) ≠ none := by
  intro hnone
  rw [findDuplicate, List.find?_eq_none] at hnone
  have htake := mem_take_of_upTo answer.ordered hmem hlimit
  exact hnone memory htake (by simpa using hsame)

/-- What a call writes is a new memory, and no duplicate of it was found. -/
lemma captureMemory_written {answer : Recent memories call} {memory : AiMemory}
    (h : captureMemory lower answer = .written memory) :
    memory = newMemory lower call ∧ existingMemory lower answer = none := by
  rw [captureMemory] at h
  by_cases hskip : call.cleanContent.length < minContentChars ∨ call.importance.getD 0 < minImportance
  · rw [if_pos hskip] at h
    exact nomatch h
  · rw [if_neg hskip] at h
    cases hfound : existingMemory lower answer with
    | some found =>
        rw [hfound] at h
        exact nomatch h
    | none =>
        rw [hfound] at h
        dsimp only at h
        split_ifs at h
        exact ⟨(CaptureResult.written.inj h).symm, rfl⟩

/-- **A call that sees its duplicate keeps the captured memories unique.** -/
lemma unique_after {log : List Captured} (answer : Recent (log.map Captured.memory) call)
    (hseen : Seen lower (log.map Captured.memory) call) (h : Unique lower log) :
    Unique lower (after lower log answer) := by
  rw [after]
  split
  · next memory hwritten =>
      obtain ⟨rfl, hnone⟩ := captureMemory_written hwritten
      refine List.pairwise_cons.2 ⟨fun earlier hearlier hrivals => ?_, h⟩
      by_contra hwithin
      rw [not_lt] at hwithin
      obtain ⟨memory, hmem, hsame, hlimit⟩ :=
        hseen ⟨earlier.memory, List.mem_map_of_mem hearlier, hrivals, hwithin⟩
      have hworking : call.memoryType = .working := hrivals.1
      rw [existingMemory, if_pos hworking] at hnone
      exact findDuplicate_of_seen answer hmem hsame hlimit hnone
  · exact h

/-- **Captured memories stay unique in every run whose calls see their duplicates.** -/
theorem unique_of_seen {log : List Captured} (h : Run lower (Seen lower) log) : Unique lower log := by
  induction h with
  | start h => exact h
  | call answer _ hseen ih => exact unique_after answer hseen ih

/-! ### A memory that is captured again -/

/-- A text that needs no normalizing. -/
def letters (n : ℕ) : List Char := List.replicate (minContentChars + n) 'a'

/-- A call at a time, with a text of its own. -/
def letter (n time : ℕ) : CaptureCall :=
  ⟨1, .working, none, none, none, some (letters n), some 2, none, none, time, time, time⟩

/-- The log of calls with different texts, one after the other. -/
def lettersLog : ℕ → List Captured
  | 0 => []
  | n + 1 => ⟨newMemory id (letter n n), dedupWindow⟩ :: lettersLog n

lemma strip_replicate (n : ℕ) : strip (List.replicate n 'a') = List.replicate n 'a' := by
  have hspace : isSpace 'a' = false := by decide
  simp [strip, List.rdropWhile, hspace]

lemma collapse_replicate (n : ℕ) (spaced : Bool) :
    collapse spaced (List.replicate n 'a') = List.replicate n 'a' := by
  induction n generalizing spaced with
  | zero => rfl
  | succ n ih =>
      have hspace : isSpace 'a' = false := by decide
      rw [List.replicate_succ, collapse, hspace, if_neg Bool.false_ne_true, ih]

lemma normalizeContent_replicate {n : ℕ} (hn : n ≤ 400) :
    normalizeContent id (List.replicate n 'a') = List.replicate n 'a' := by
  rw [normalizeContent, collapse_replicate, strip_replicate, id, List.take_of_length_le]
  rwa [List.length_replicate]

lemma normalizeContent_letters {n : ℕ} (hn : n ≤ 300) : normalizeContent id (letters n) = letters n :=
  normalizeContent_replicate (by rw [minContentChars]; omega)

lemma cleanContent_letter (n time : ℕ) : (letter n time).cleanContent = letters n :=
  strip_replicate _

lemma letters_injective {n m : ℕ} (h : letters n = letters m) : n = m := by
  have hlength := congrArg List.length h
  rw [letters, letters, List.length_replicate, List.length_replicate] at hlength
  omega

/-- A call writes if its text is not among the newest. -/
lemma captureMemory_letter {memories : List AiMemory} {n time : ℕ} (hn : n ≤ 300)
    (answer : Recent memories (letter n time))
    (hnew : ∀ memory ∈ answer.rows.take duplicateLimit, ∃ m ≤ 300, memory.content = letters m ∧ m ≠ n) :
    captureMemory id answer = .written (newMemory id (letter n time)) := by
  have hnone : findDuplicate id answer (normalizeContent id (letter n time).cleanContent) = none := by
    rw [findDuplicate, List.find?_eq_none]
    intro memory hmem hsame
    obtain ⟨m, hm, hcontent, hne⟩ := hnew memory hmem
    rw [decide_eq_true_eq, hcontent, cleanContent_letter, normalizeContent_letters hm,
      normalizeContent_letters hn] at hsame
    exact hne (letters_injective hsame)
  have hlong : ¬ ((letter n time).cleanContent.length < minContentChars
      ∨ (letter n time).importance.getD 0 < minImportance) := by
    rw [cleanContent_letter, letters, List.length_replicate]
    simp [letter, minImportance]
  have hcontent : (letters n).any (· ≠ ' ') = true := by
    rw [letters, minContentChars]
    simp
  have hadmitted : Admitted (newMemory id (letter n time)) := by
    rw [Admitted, newMemory, cleanContent_letter]
    exact ⟨by simp [letter], by simp [letter], hcontent, rfl⟩
  have hexisting : existingMemory id answer = none := (if_pos rfl).trans hnone
  rw [captureMemory, if_neg hlong, hexisting]
  exact if_pos hadmitted

/-- The last entries are those of the last texts. -/
lemma mem_take_lettersLog {n m : ℕ} {captured : Captured} (h : captured ∈ (lettersLog n).take m) :
    ∃ k < n, n ≤ k + m ∧ captured = ⟨newMemory id (letter k k), dedupWindow⟩ := by
  induction n generalizing m with
  | zero => simp [lettersLog] at h
  | succ n ih =>
      cases m with
      | zero => simp at h
      | succ m =>
          rw [lettersLog, List.take_succ_cons] at h
          rcases List.mem_cons.1 h with rfl | h
          · exact ⟨n, by omega, by omega, rfl⟩
          · obtain ⟨k, hk, hle, rfl⟩ := ih h
            exact ⟨k, by omega, by omega, rfl⟩

lemma mem_lettersLog {n : ℕ} {captured : Captured} (h : captured ∈ lettersLog n) :
    ∃ k < n, captured = ⟨newMemory id (letter k k), dedupWindow⟩ := by
  rw [← List.take_length (l := lettersLog n)] at h
  obtain ⟨k, hk, -, hcaptured⟩ := mem_take_lettersLog h
  exact ⟨k, hk, hcaptured⟩

/-- The log answers a lookup as it stands. -/
def lettersAnswer (k n : ℕ) (hn : n ≤ 300) : Recent ((lettersLog n).map Captured.memory) (letter k n) where
  rows := (lettersLog n).map Captured.memory
  ordered := by
    constructor
    · rw [recentWorking, List.filter_eq_self.2]
      intro memory hmem
      obtain ⟨captured, hcaptured, rfl⟩ := List.mem_map.1 hmem
      obtain ⟨j, -, rfl⟩ := mem_lettersLog hcaptured
      have hwindow : ((n : ℕ) : ℤ) - dedupWindow ≤ ((j : ℕ) : ℤ) := by
        rw [dedupWindow, microsecondsPerDay]
        omega
      simp [newMemory, letter, CaptureCall.window, hwindow]
    · clear hn
      induction n with
      | zero => exact .nil
      | succ n ih =>
          refine List.pairwise_cons.2 ⟨fun memory hmem => ?_, ih⟩
          obtain ⟨captured, hcaptured, rfl⟩ := List.mem_map.1 hmem
          obtain ⟨j, hj, rfl⟩ := mem_lettersLog hcaptured
          exact OrderDual.toDual_le_toDual.2 hj.le

/-- A text that is not among the last hundred is captured. -/
lemma after_lettersLog {k n : ℕ} (hk : k ≤ 300) (hn : n ≤ 300) (hnew : n ≤ k ∨ k + 100 < n) :
    after id (lettersLog n) (lettersAnswer k n hn)
      = ⟨newMemory id (letter k n), dedupWindow⟩ :: lettersLog n := by
  have hwritten : captureMemory id (lettersAnswer k n hn) = .written (newMemory id (letter k n)) := by
    refine captureMemory_letter hk _ fun memory hmem => ?_
    rw [lettersAnswer, ← List.map_take] at hmem
    obtain ⟨captured, hcaptured, rfl⟩ := List.mem_map.1 hmem
    obtain ⟨j, hj, hle, rfl⟩ := mem_take_lettersLog hcaptured
    rw [duplicateLimit] at hle
    exact ⟨j, by omega, cleanContent_letter j j, by omega⟩
  rw [after, hwritten]
  rfl

lemma run_lettersLog {n : ℕ} (hn : n ≤ 300) : Run id (fun _ _ => True) (lettersLog n) := by
  induction n with
  | zero => exact .start .nil
  | succ n ih =>
      have hrun := Run.call (lettersAnswer n n (by omega)) (ih (by omega)) trivial
      rwa [after_lettersLog (by omega) (by omega) (.inl le_rfl)] at hrun

/-- A memory is captured again, and found. -/
theorem unique_letters : Unique id (after id (lettersLog 1) (lettersAnswer 0 1 (by omega))) := by
  refine unique_of_seen (.call _ (.start (List.pairwise_singleton _ _)) fun _ => ?_)
  refine ⟨newMemory id (letter 0 0), (lettersAnswer 0 1 (by omega)).ordered.perm.subset ?_, rfl, ?_⟩
  · exact List.mem_singleton_self _
  · calc (upTo newest (recentWorking _ _) _).length
        ≤ (recentWorking ((lettersLog 1).map Captured.memory) (letter 0 1)).length :=
          List.length_filter_le _ _
      _ ≤ ((lettersLog 1).map Captured.memory).length := List.length_filter_le _ _
      _ ≤ duplicateLimit := by decide

/-- **The first of a hundred and one memories is captured again**, in less than a millisecond. -/
theorem not_unique_repeated : ∃ log, Run id (fun _ _ => True) log ∧ ¬ Unique id log := by
  have hrun := Run.call (lettersAnswer 0 101 (by omega)) (run_lettersLog (by omega)) trivial
  rw [after_lettersLog (by omega) (by omega) (.inr (by omega))] at hrun
  refine ⟨_, hrun, fun hunique => ?_⟩
  have hfirst : (⟨newMemory id (letter 0 0), dedupWindow⟩ : Captured) ∈ lettersLog 101 := by
    simp [lettersLog]
  have hwithin := (List.pairwise_cons.1 hunique).1 _ hfirst ⟨rfl, rfl, rfl, rfl⟩
  revert hwithin
  decide

end Memory
