import AgencyOS.Memory.Model
import AgencyOS.Txn.Purge

/-!
The memory worker: expired working memories are deleted, one organization after the other.

Memories are captured while the worker runs; they are not expired.

* `isExpired`: the rule of the lifecycle module;
* `cleanupTick`: one sweep of the worker, at most a thousand organizations;
* `cleanupOrg_eq_purge`: its loop, which reads before it deletes, is the loop that deletes in chunks;
* `Swept`, `cleanupTick_swept`: the sweep ends, deletes what is expired of the organizations it has
  found, and nothing else.
-/

namespace Memory

open Python Txn

/-! ### The rule -/

/-- `working_ttl_cutoff`. -/
def workingTtlCutoff (ttlDays : ℕ) (now : ℤ) : ℤ := now - max ttlDays 1 * microsecondsPerDay

/-- `is_expired`. -/
def isExpired (memory : AiMemory) (ttlDays : ℕ) (now : ℤ) : Bool :=
  memory.memoryType = .working && (memory.createdAt : ℤ) < workingTtlCutoff ttlDays now

/-! ### The worker -/

/-- The settings of the worker, with the check of `validate_runtime` on its window. -/
structure CleanupSettings where
  memoryCleanupEnabled : Bool
  memoryWorkingTtlDays : ℕ
  memoryCleanupBatchSize : ℤ
  memoryWorkingTtlDays_pos : 1 ≤ memoryWorkingTtlDays

/-- `_MAX_ORGS_PER_TICK`. -/
def maxOrgsPerTick : ℕ := 1000

/-- A working memory from before a time. -/
def workingBefore (before : ℤ) (memory : AiMemory) : Bool :=
  memory.memoryType = .working && (memory.createdAt : ℤ) < before

/-- The rows that `list_expired_working` asks for. -/
def expiredWorking (before : ℤ) (organizationId : ℕ) (memory : AiMemory) : Bool :=
  memory.organizationId = organizationId && workingBefore before memory

/-- An answer to `_orgs_with_expired_working`: a thousand organizations, or all. -/
structure OrgsAnswer (before : ℤ) (memories : List AiMemory) where
  orgs : List ℕ
  nodup : orgs.Nodup
  expired : ∀ org ∈ orgs, ∃ memory ∈ memories, expiredWorking before org memory = true
  all : orgs.length = maxOrgsPerTick ∨ orgs.length < maxOrgsPerTick ∧
    ∀ memory ∈ memories, workingBefore before memory = true → memory.organizationId ∈ orgs

/-- `datetime.now(UTC) - timedelta(days=settings.MEMORY_WORKING_TTL_DAYS)`. -/
def CleanupSettings.cutoff (settings : CleanupSettings) (now : ℤ) : ℤ :=
  now - settings.memoryWorkingTtlDays * microsecondsPerDay

/-- `max(settings.MEMORY_CLEANUP_BATCH_SIZE, 1)`. -/
def CleanupSettings.batch (settings : CleanupSettings) : ℕ := (max settings.memoryCleanupBatchSize 1).toNat

/-- What happens around a sweep: the clock, the organizations found, and around each statement. -/
structure CleanupSurroundings (settings : CleanupSettings) where
  now : ℤ
  answer : (memories : List AiMemory) → OrgsAnswer (settings.cutoff now) memories
  course : (organizationId : ℕ) →
    Course AiMemory.createdAt (expiredWorking (settings.cutoff now) organizationId)

/-- `delete_many`: the rows that are left, and how many were deleted. -/
def deleteMany (organizationId : ℕ) (ids : List ℕ) (memories : List AiMemory) : List AiMemory × ℕ :=
  (memories.filter fun memory => !(memory.organizationId = organizationId && decide (memory.id ∈ ids)),
    memories.countP fun memory => memory.organizationId = organizationId && decide (memory.id ∈ ids))

section Sweep

variable (settings : CleanupSettings) (around : CleanupSurroundings settings)

/-- The loop for an organization: at most a batch of the oldest is read, and deleted. -/
def cleanupOrg (organizationId : ℕ) : ℕ → ℕ → List AiMemory → ℕ → Option (Purged AiMemory)
  | 0, _, _, _ => none
  | fuel + 1, i, memories, deleted =>
      let course := around.course organizationId
      let expired := (course.choose i memories).chosen settings.batch
      if expired.isEmpty then some ⟨memories ++ course.arrives i, deleted, i + 1⟩
      else
        let (left, count) := deleteMany organizationId (expired.map AiMemory.id) memories
        let memories := left ++ course.arrives i
        if count < settings.batch then some ⟨memories, deleted + count, i + 1⟩
        else cleanupOrg organizationId fuel (i + 1) memories (deleted + count)

/-- The organizations in turn. -/
def cleanupOrgs (fuel : ℕ) : List ℕ → Purged AiMemory → Option (Purged AiMemory)
  | [], purged => some purged
  | org :: orgs, purged =>
      (cleanupOrg settings around org fuel purged.next purged.rows purged.deleted).bind
        (cleanupOrgs fuel orgs)

structure CleanupStats where
  orgsSwept : ℕ
  expiredDeleted : ℕ
  deriving DecidableEq, Repr

/-- `cleanup_tick`; `none` where the fuel does not last. -/
def cleanupTick (fuel : ℕ) (memories : List AiMemory) : Option (List AiMemory × CleanupStats) :=
  if settings.memoryCleanupEnabled then
    let orgs := (around.answer memories).orgs
    (cleanupOrgs settings around fuel orgs ⟨memories, 0, 0⟩).map fun purged =>
      (purged.rows, ⟨orgs.length, purged.deleted⟩)
  else some (memories, ⟨0, 0⟩)

variable {settings around} {organizationId fuel : ℕ} {memories : List AiMemory}

theorem batch_pos (settings : CleanupSettings) : 1 ≤ settings.batch := by
  simp only [CleanupSettings.batch]
  omega

/-- To read and delete by id is to delete the chunk. -/
theorem deleteMany_chosen {before : ℤ}
    (chunk : Chunk AiMemory.createdAt (expiredWorking before organizationId) memories)
    (hid : ∀ x ∈ memories, ∀ y ∈ memories, x.id = y.id → x = y) (limit : ℕ) :
    deleteMany organizationId ((chunk.chosen limit).map AiMemory.id) memories =
      (chunk.left AiMemory.id limit, chunk.count AiMemory.id limit) := by
  have hsame : ∀ memory ∈ memories, (memory.organizationId = organizationId &&
      decide (memory.id ∈ (chunk.chosen limit).map AiMemory.id)) =
        decide (memory.id ∈ (chunk.chosen limit).map AiMemory.id) := by
    intro memory hmemory
    rw [Bool.eq_iff_iff]
    simp only [Bool.and_eq_true, decide_eq_true_eq, and_iff_right_iff_imp]
    intro hchosen
    have hold := (chunk.mem_of_mem_chosen ((chunk.mem_map_chosen hid hmemory).mp hchosen)).2
    simp only [expiredWorking, Bool.and_eq_true, decide_eq_true_eq] at hold
    exact hold.1
  rw [deleteMany, Chunk.left, Chunk.count, Prod.mk.injEq]
  constructor
  · refine List.filter_congr fun memory hmemory => ?_
    rw [hsame memory hmemory, decide_not]
  · refine List.countP_congr fun memory hmemory => ?_
    rw [hsame memory hmemory]

/-- The loop that reads first is the loop that deletes in chunks. -/
theorem cleanupOrg_eq_purge (hcalm : (around.course organizationId).Calm AiMemory.id memories)
    (fuel i deleted : ℕ) :
    cleanupOrg settings around organizationId fuel i memories deleted =
      purge AiMemory.id settings.batch settings.batch (around.course organizationId) fuel i memories
        deleted := by
  induction fuel generalizing i memories deleted with
  | zero => rfl
  | succ fuel ih =>
      have hbatch := batch_pos settings
      have hdelete := deleteMany_chosen ((around.course organizationId).choose i memories)
        hcalm.ids_rows settings.batch
      rw [cleanupOrg, purge]
      dsimp only
      rw [hdelete]
      by_cases hempty : (((around.course organizationId).choose i memories).chosen settings.batch).isEmpty
      · have hnil := List.isEmpty_iff.mp hempty
        have hcount : ((around.course organizationId).choose i memories).count AiMemory.id
            settings.batch = 0 := by simp [Chunk.count, hnil]
        have hleft : ((around.course organizationId).choose i memories).left AiMemory.id
            settings.batch = memories := by simp [Chunk.left, hnil]
        rw [if_pos hempty, hcount, hleft, if_pos (by omega)]
        rfl
      · rw [if_neg hempty]
        split_ifs
        · rfl
        · exact ih (hcalm.next _ i) _ _

/-! ### What a sweep deletes -/

/-- Whatever arrives during a sweep. -/
def Arrives (around : CleanupSurroundings settings) (memory : AiMemory) : Prop :=
  ∃ org i, memory ∈ (around.course org).arrives i

/-- Memories told apart by their ids, whatever arrives; and what arrives is not expired. -/
structure Steady (around : CleanupSurroundings settings) (memories : List AiMemory) : Prop where
  nodup : (memories.filter (workingBefore (settings.cutoff around.now))).Nodup
  young : ∀ memory, Arrives around memory → workingBefore (settings.cutoff around.now) memory = false
  ids : ∀ x y, (x ∈ memories ∨ Arrives around x) → (y ∈ memories ∨ Arrives around y) → x.id = y.id → x = y

theorem Steady.calm (h : Steady around memories) (organizationId : ℕ) :
    (around.course organizationId).Calm AiMemory.id memories where
  nodup := by
    have hsplit : memories.filter (expiredWorking (settings.cutoff around.now) organizationId) =
        (memories.filter (workingBefore (settings.cutoff around.now))).filter
          fun memory => memory.organizationId = organizationId := by
      rw [List.filter_filter]
      exact List.filter_congr fun memory _ => rfl
    rw [hsplit]
    exact h.nodup.filter _
  young i memory hmemory := by
    simp [expiredWorking, h.young memory ⟨organizationId, i, hmemory⟩]
  ids x y hx hy := h.ids x y (hx.imp_right fun ⟨i, hi⟩ => ⟨organizationId, i, hi⟩)
    (hy.imp_right fun ⟨i, hi⟩ => ⟨organizationId, i, hi⟩)

theorem Steady.of_sublist {left arrived : List AiMemory} (h : Steady around memories)
    (hleft : left.Sublist memories) (harrived : ∀ memory ∈ arrived, Arrives around memory) :
    Steady around (left ++ arrived) where
  nodup := by
    have hyoung : arrived.filter (workingBefore (settings.cutoff around.now)) = [] :=
      List.filter_eq_nil_iff.mpr fun memory hmemory => by simp [h.young memory (harrived memory hmemory)]
    rw [List.filter_append, hyoung, List.append_nil]
    exact h.nodup.sublist (hleft.filter _)
  young := h.young
  ids x y hx hy := by
    have hmem : ∀ z, (z ∈ left ++ arrived ∨ Arrives around z) → (z ∈ memories ∨ Arrives around z) := by
      rintro z (hz | hz)
      · exact (List.mem_append.mp hz).imp hleft.mem (harrived z)
      · exact Or.inr hz
    exact h.ids x y (hmem x hx) (hmem y hy)

/-- Whether a memory is expired and of one of the organizations. -/
def doomed (before : ℤ) (orgs : List ℕ) (memory : AiMemory) : Bool :=
  workingBefore before memory && decide (memory.organizationId ∈ orgs)

theorem doomed_cons (before : ℤ) (org : ℕ) (orgs : List ℕ) (memory : AiMemory) :
    doomed before (org :: orgs) memory =
      (expiredWorking before org memory || doomed before orgs memory) := by
  rw [Bool.eq_iff_iff]
  simp only [doomed, expiredWorking, List.mem_cons, Bool.and_eq_true, Bool.or_eq_true, decide_eq_true_eq]
  tauto

theorem not_expired_of_doomed {before : ℤ} {org : ℕ} {orgs : List ℕ} (horg : org ∉ orgs)
    {memory : AiMemory} (h : doomed before orgs memory = true) :
    expiredWorking before org memory = false := by
  simp only [doomed, Bool.and_eq_true, decide_eq_true_eq] at h
  have hne : memory.organizationId ≠ org := fun heq => horg (heq ▸ h.2)
  simp [expiredWorking, hne]

section Rest

variable {before : ℤ} {org : ℕ} {orgs : List ℕ} {arrived : List AiMemory}
  (hyoung : ∀ memory ∈ arrived, workingBefore before memory = false)
include hyoung

/-- What is left when one organization and then the others are done. -/
theorem filter_doomed_cons :
    ((memories.filter fun memory => !expiredWorking before org memory) ++ arrived).filter
        (fun memory => !doomed before orgs memory) =
      (memories.filter fun memory => !doomed before (org :: orgs) memory) ++ arrived := by
  rw [List.filter_append, List.filter_filter]
  congr 1
  · refine List.filter_congr fun memory _ => ?_
    rw [doomed_cons, Bool.not_or, Bool.and_comm]
  · exact List.filter_eq_self.mpr fun memory hmemory => by simp [doomed, hyoung memory hmemory]

/-- And what is deleted. -/
theorem countP_doomed_cons (horg : org ∉ orgs) :
    memories.countP (expiredWorking before org) +
        ((memories.filter fun memory => !expiredWorking before org memory) ++ arrived).countP
          (doomed before orgs) =
      memories.countP (doomed before (org :: orgs)) := by
  have harrived : arrived.countP (doomed before orgs) = 0 :=
    List.countP_eq_zero.mpr fun memory hmemory => by simp [doomed, hyoung memory hmemory]
  rw [List.countP_append, harrived, Nat.add_zero, List.countP_filter]
  induction memories with
  | nil => rfl
  | cons memory memories ih =>
      simp only [List.countP_cons, doomed_cons] at ih ⊢
      cases hdoomed : doomed before orgs memory with
      | true => simp [not_expired_of_doomed horg hdoomed]; omega
      | false => cases expiredWorking before org memory <;> simp <;> omega

end Rest

/-- The organizations in turn lose what is expired, and nothing else is deleted. -/
theorem cleanupOrgs_eq {orgs : List ℕ} (hnodup : orgs.Nodup) (h : Steady around memories)
    (hfuel : memories.countP (workingBefore (settings.cutoff around.now)) / settings.batch < fuel)
    (deleted next : ℕ) :
    ∃ arrived next', (∀ memory ∈ arrived, Arrives around memory) ∧
      cleanupOrgs settings around fuel orgs ⟨memories, deleted, next⟩ =
        some ⟨(memories.filter fun memory => !doomed (settings.cutoff around.now) orgs memory) ++ arrived,
          deleted + memories.countP (doomed (settings.cutoff around.now) orgs), next'⟩ := by
  induction orgs generalizing memories deleted next with
  | nil =>
      refine ⟨[], next, by simp, ?_⟩
      simp [cleanupOrgs, doomed]
  | cons org orgs ih =>
      obtain ⟨horg, hnodup⟩ := List.nodup_cons.mp hnodup
      have hle : memories.countP (expiredWorking (settings.cutoff around.now) org) ≤
          memories.countP (workingBefore (settings.cutoff around.now)) :=
        List.countP_mono_left fun memory _ hmemory => (Bool.and_eq_true_iff.mp hmemory).2
      have hpurge := purge_eq (batch_pos settings) (h.calm org) ((Nat.div_le_div_right hle).trans_lt hfuel) next
        deleted
      set arrived := (around.course org).arrived next
        (memories.countP (expiredWorking (settings.cutoff around.now) org) / settings.batch + 1)
      have harrived : ∀ memory ∈ arrived, Arrives around memory := fun memory hmemory => by
        obtain ⟨k, -, hk⟩ := List.mem_flatMap.mp hmemory
        exact ⟨org, _, hk⟩
      have hyoung : ∀ memory ∈ arrived, workingBefore (settings.cutoff around.now) memory = false :=
        fun memory hmemory => h.young memory (harrived memory hmemory)
      have hsteady := h.of_sublist (List.filter_sublist (p := fun memory =>
        !expiredWorking (settings.cutoff around.now) org memory)) harrived
      have hfuel' : ((memories.filter fun memory =>
          !expiredWorking (settings.cutoff around.now) org memory) ++ arrived).countP
            (workingBefore (settings.cutoff around.now)) / settings.batch < fuel := by
        have hnone : arrived.countP (workingBefore (settings.cutoff around.now)) = 0 :=
          List.countP_eq_zero.mpr fun memory hmemory => by simp [hyoung memory hmemory]
        rw [List.countP_append, hnone, Nat.add_zero]
        exact (Nat.div_le_div_right (List.filter_sublist.countP_le)).trans_lt hfuel
      obtain ⟨more, next', hmore, hrest⟩ := ih hnodup hsteady hfuel'
        (deleted + memories.countP (expiredWorking (settings.cutoff around.now) org))
        (next + (memories.countP (expiredWorking (settings.cutoff around.now) org) / settings.batch + 1))
      refine ⟨arrived ++ more, next', fun memory hmemory =>
        (List.mem_append.mp hmemory).elim (harrived memory) (hmore memory), ?_⟩
      rw [cleanupOrgs, cleanupOrg_eq_purge (h.calm org), hpurge, Option.bind_some, hrest,
        filter_doomed_cons hyoung, List.append_assoc, Nat.add_assoc, countP_doomed_cons hyoung horg]

/-- What a sweep is for: what it deletes is expired and of the organizations it has found, all of that is
gone, and with fewer than a thousand organizations nothing expired is left. -/
structure Swept (settings : CleanupSettings) (around : CleanupSurroundings settings)
    (memories after : List AiMemory) (stats : CleanupStats) : Prop where
  kept : ∀ memory ∈ memories, isExpired memory settings.memoryWorkingTtlDays around.now = false →
    memory ∈ after
  gone : ∀ memory ∈ after, memory.organizationId ∈ (around.answer memories).orgs →
    isExpired memory settings.memoryWorkingTtlDays around.now = false
  others : ∀ memory ∈ memories, memory.organizationId ∉ (around.answer memories).orgs → memory ∈ after
  from_before : ∀ memory ∈ after, memory ∈ memories ∨ Arrives around memory
  done : stats.orgsSwept < maxOrgsPerTick → ∀ memory ∈ after,
    isExpired memory settings.memoryWorkingTtlDays around.now = false
  orgsSwept : stats.orgsSwept = (around.answer memories).orgs.length
  expiredDeleted : stats.expiredDeleted = memories.countP fun memory =>
    isExpired memory settings.memoryWorkingTtlDays around.now &&
      decide (memory.organizationId ∈ (around.answer memories).orgs)

/-- The cutoff of the worker is the one of the rule. -/
theorem isExpired_eq (memory : AiMemory) (now : ℤ) :
    isExpired memory settings.memoryWorkingTtlDays now = workingBefore (settings.cutoff now) memory := by
  rw [isExpired, workingBefore, workingTtlCutoff, CleanupSettings.cutoff,
    Nat.max_eq_left settings.memoryWorkingTtlDays_pos]

/-- **A sweep ends** and is what it is for. -/
theorem cleanupTick_swept (settings : CleanupSettings) (around : CleanupSurroundings settings)
    (memories : List AiMemory) (fuel : ℕ) (henabled : settings.memoryCleanupEnabled = true)
    (hsteady : Steady around memories)
    (hfuel : (memories.countP fun memory => isExpired memory settings.memoryWorkingTtlDays around.now) /
      settings.batch < fuel) :
    ∃ after stats, cleanupTick settings around fuel memories = some (after, stats) ∧
      Swept settings around memories after stats := by
  simp only [isExpired_eq] at hfuel
  set answer := around.answer memories
  obtain ⟨arrived, next, harrived, hsweep⟩ := cleanupOrgs_eq answer.nodup hsteady hfuel 0 0
  have hyoung : ∀ memory ∈ arrived, workingBefore (settings.cutoff around.now) memory = false :=
    fun memory hmemory => hsteady.young memory (harrived memory hmemory)
  have hgone : ∀ memory ∈ (memories.filter fun memory =>
      !doomed (settings.cutoff around.now) answer.orgs memory) ++ arrived,
      memory.organizationId ∈ answer.orgs → workingBefore (settings.cutoff around.now) memory = false := by
    intro memory hmemory horg
    rcases List.mem_append.mp hmemory with hleft | hnew
    · simpa [doomed, horg] using (List.mem_filter.mp hleft).2
    · exact hyoung memory hnew
  have hkept : ∀ memory ∈ memories, doomed (settings.cutoff around.now) answer.orgs memory = false →
      memory ∈ (memories.filter fun memory =>
        !doomed (settings.cutoff around.now) answer.orgs memory) ++ arrived :=
    fun memory hmemory hdoomed => List.mem_append_left _ (List.mem_filter.mpr ⟨hmemory, by simp [hdoomed]⟩)
  rw [cleanupTick, if_pos henabled]
  dsimp only
  rw [hsweep]
  refine ⟨_, _, rfl, fun memory hmemory hexpired => ?_, fun memory hmemory horg => ?_,
    fun memory hmemory horg => ?_, fun memory hmemory => ?_, fun hfew memory hmemory => ?_, rfl, ?_⟩
  · rw [isExpired_eq] at hexpired
    exact hkept memory hmemory (by simp [doomed, hexpired])
  · rw [isExpired_eq]
    exact hgone memory hmemory horg
  · exact hkept memory hmemory (by simp [doomed, answer, horg])
  · rcases List.mem_append.mp hmemory with hleft | hnew
    · exact Or.inl (List.mem_filter.mp hleft).1
    · exact Or.inr (harrived memory hnew)
  · rw [isExpired_eq]
    by_cases horg : memory.organizationId ∈ answer.orgs
    · exact hgone memory hmemory horg
    · rcases List.mem_append.mp hmemory with hleft | hnew
      · by_contra hexpired
        rcases answer.all with hfull | ⟨-, hall⟩
        · exact absurd hfew (by simp [answer, hfull])
        · exact horg (hall memory (List.mem_filter.mp hleft).1 (by simpa using hexpired))
      · exact hyoung memory hnew
  · simp only [isExpired_eq, Nat.zero_add]
    rfl

end Sweep

/-! ### Two memories -/

/-- The organizations with expired memories, in the order of the rows. -/
def expiredOrgs (before : ℤ) (memories : List AiMemory) : List ℕ :=
  ((memories.filter (workingBefore before)).map AiMemory.organizationId).dedup

theorem mem_expiredOrgs {before : ℤ} {memories : List AiMemory} {org : ℕ} :
    org ∈ expiredOrgs before memories ↔
      ∃ memory ∈ memories, workingBefore before memory = true ∧ memory.organizationId = org := by
  simp [expiredOrgs, and_assoc]

theorem expiredOrgs_all (before : ℤ) (memories : List AiMemory) :
    ((expiredOrgs before memories).take maxOrgsPerTick).length = maxOrgsPerTick ∨
      ((expiredOrgs before memories).take maxOrgsPerTick).length < maxOrgsPerTick ∧
        ∀ memory ∈ memories, workingBefore before memory = true →
          memory.organizationId ∈ (expiredOrgs before memories).take maxOrgsPerTick := by
  rcases Nat.lt_or_ge (expiredOrgs before memories).length maxOrgsPerTick with hfew | hmany
  · refine Or.inr ⟨by simpa using hfew, fun memory hmemory hexpired => ?_⟩
    rw [List.take_of_length_le hfew.le]
    exact mem_expiredOrgs.mpr ⟨memory, hmemory, hexpired, rfl⟩
  · exact Or.inl (by simpa using hmany)

theorem expiredOrgs_expired (before : ℤ) (memories : List AiMemory) :
    ∀ org ∈ (expiredOrgs before memories).take maxOrgsPerTick,
      ∃ memory ∈ memories, expiredWorking before org memory = true := by
  intro org horg
  obtain ⟨memory, hmemory, hexpired, hsame⟩ := mem_expiredOrgs.mp (List.mem_of_mem_take horg)
  exact ⟨memory, hmemory, by simp [expiredWorking, hexpired, hsame]⟩

/-- A store that answers in the order of the rows. -/
def OrgsAnswer.first (before : ℤ) (memories : List AiMemory) : OrgsAnswer before memories where
  orgs := (expiredOrgs before memories).take maxOrgsPerTick
  nodup := (List.nodup_dedup _).sublist (List.take_sublist _ _)
  expired := expiredOrgs_expired before memories
  all := expiredOrgs_all before memories

lemma one_le_oneDay : 1 ≤ 1 := le_rfl

/-- A window of a day, and chunks of one. -/
def oneDay : CleanupSettings := ⟨true, 1, 0, one_le_oneDay⟩

def tenthDay : CleanupSurroundings oneDay where
  now := 10 * microsecondsPerDay
  answer := OrgsAnswer.first _
  course _ := ⟨fun _ => Chunk.stable _ _, fun _ => []⟩

def written (id days : ℕ) (memoryType : MemoryType) : AiMemory :=
  ⟨id, 1, memoryType, .manual, none, [], 0, none, days * microsecondsPerDay⟩

def someMemories : List AiMemory := [written 1 2 .working, written 2 2 .longTerm, written 3 10 .working]

theorem someMemories_steady : Steady tenthDay someMemories where
  nodup := (show someMemories.Nodup by simp [someMemories, written]).filter _
  young memory h := by
    obtain ⟨org, i, hmemory⟩ := h
    simp [tenthDay] at hmemory
  ids := by
    simp only [someMemories, Arrives, tenthDay, List.mem_cons, List.not_mem_nil, or_false, exists_const]
    rintro x y (rfl | rfl | rfl) (rfl | rfl | rfl) <;> simp [written]

theorem cleanupTick_someMemories : ∃ after stats,
    cleanupTick oneDay tenthDay 5 someMemories = some (after, stats) ∧
      Swept oneDay tenthDay someMemories after stats :=
  cleanupTick_swept oneDay tenthDay someMemories 5 rfl someMemories_steady
    ((Nat.div_le_self _ _).trans_lt ((List.countP_le_length).trans_lt (by decide)))

end Memory
