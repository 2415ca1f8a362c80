import AgencyOS.Leads.ImportWorker

/-!
The figures of an import job.

A job that completes accounts for every row: the processed ones are the leads it inserted, the failed
ones its error rows.  A row that the database rejects is meant to be recorded as well, but its lead
is flushed before the savepoint, so that the whole transaction is lost and the job fails.

* `fate`, `Accepted`: what becomes of a row, and that the database takes it;
* `Going`, `Doomed`: a session that goes on, and one that cannot commit;
* `importRow_going`, `importRow_fails`: one row;
* `importJob_spec`, `import_accounted_iff`: the loop, and the job.
-/

namespace Leads

open Python

/-! ### The fate of a row -/

/-- A row ends as an error row or as a lead. -/
inductive RowFate where
  | rejected (error : RowError)
  | inserted (parsed : Parsed)

variable (env : ImportEnv)

/-- What becomes of a row, given the tables before it. -/
def fate (jobId : ℕ) (db : Db) (index : ℕ) (raw : RawRow) : RowFate :=
  match parseRow env.n raw with
  | .error message =>
      .rejected ⟨jobId, env.organizationId, index, "import.invalid_row", message, raw⟩
  | .ok parsed =>
      let keys := workerKeys env.n parsed.contact
      if findDuplicates env.n db env.organizationId keys.email keys.phone keys.domain = [] then
        .inserted parsed
      else .rejected ⟨jobId, env.organizationId, index, "import.duplicate", "Lead already exists", raw⟩

/-- The database takes the row. -/
def RowFate.accepted (db : Db) (index : ℕ) : RowFate → Prop
  | .rejected error => env.refuses.rowError error = false
  | .inserted parsed => rejects env db index parsed = false

instance RowFate.decidableAccepted (db : Db) (index : ℕ) :
    (row : RowFate) → Decidable (row.accepted env db index)
  | .rejected error => inferInstanceAs (Decidable (env.refuses.rowError error = false))
  | .inserted parsed => inferInstanceAs (Decidable (rejects env db index parsed = false))

/-- The tables after the row. -/
def RowFate.after (db : Db) : RowFate → Db
  | .rejected _ => db
  | .inserted parsed => db.insertLead (buildLead env db.nextId parsed)

/-- The counts after the row. -/
def RowFate.count (counts : ℕ × ℕ) : RowFate → ℕ × ℕ
  | .rejected _ => (counts.1, counts.2 + 1)
  | .inserted _ => (counts.1 + 1, counts.2)

/-- The database takes every row of the file, each after those before it. -/
def Accepted (jobId : ℕ) : Db → ℕ → List RawRow → Prop
  | _, _, [] => True
  | db, index, raw :: rows =>
      (fate env jobId db index raw).accepted env db index ∧
        Accepted jobId ((fate env jobId db index raw).after env db) (index + 1) rows

instance decidableAccepted (jobId : ℕ) :
    (db : Db) → (index : ℕ) → (rows : List RawRow) → Decidable (Accepted env jobId db index rows)
  | _, _, [] => isTrue trivial
  | db, index, raw :: rows =>
      have := decidableAccepted jobId ((fate env jobId db index raw).after env db) (index + 1) rows
      inferInstanceAs (Decidable (_ ∧ _))

/-! ### Sessions -/

/-- A session between two rows: nothing that it holds is refused, and its counts are those of the
leads and the error rows. -/
structure Going (tables : ImportTables) (job : ImportJob) (counts : ℕ × ℕ) (db : Db) (s : Session) :
    Prop where
  valid : s.invalid = false
  lead : s.lead = none
  logs : s.logs = []
  written : s.tables.db = db
  accepted : ∀ error ∈ s.rowErrors, env.refuses.rowError error = false
  loaded : s.job = { job with processedRows := counts.1, failedRows := counts.2 }
  leads : ∃ leads, db.leads = tables.db.leads ++ leads ∧ leads.length = counts.1
  rowErrors : ∃ errors, s.tables.rowErrors ++ s.rowErrors = tables.rowErrors ++ errors ∧
    errors.length = counts.2 ∧ ∀ error ∈ errors, error.importJobId = job.id

/-- The next flush of the session fails. -/
def Doomed (s : Session) : Prop :=
  s.invalid = true ∨ ∃ error ∈ s.rowErrors, env.refuses.rowError error = true

/-- The program raises, or leaves a session with the property. -/
def Leaves {α : Type} (Q : Session → Prop) (x : ImportM α) (s : Session) : Prop :=
  ∀ a s', x s = .ok a s' → Q s'

variable {env}

lemma bind_of_ok {α β : Type} {x : ImportM α} {f : α → ImportM β} {s s' : Session} {a : α}
    (h : x s = .ok a s') : (x >>= f) s = f a s' := by
  show EStateM.bind x f s = _
  rw [EStateM.bind, h]

lemma Leaves.bind {α β : Type} {Q R : Session → Prop} {x : ImportM α} {f : α → ImportM β}
    {s : Session} (hx : Leaves Q x s) (hf : ∀ a s', Q s' → Leaves R (f a) s') :
    Leaves R (x >>= f) s := by
  intro b s'' h
  cases hrun : x s with
  | error e s' =>
      have hbind : (x >>= f) s = .error e s' := by
        show EStateM.bind x f s = _
        rw [EStateM.bind, hrun]
      exact nomatch hbind.symm.trans h
  | ok a s' =>
      rw [bind_of_ok hrun] at h
      exact hf a s' (hx a s' hrun) b s'' h

/-! ### Flushes -/

lemma refused_of_doomed {s : Session} (h : Doomed env s) : s.invalid = true ∨ s.refused env = true := by
  rcases h with hinvalid | ⟨error, hmem, hrefused⟩
  · exact Or.inl hinvalid
  · refine Or.inr ?_
    rw [Session.refused, Bool.or_eq_true, List.any_eq_true]
    exact Or.inr ⟨error, hmem, hrefused⟩

lemma flush_ok {s : Session} (hvalid : s.invalid = false) (htaken : s.refused env = false) :
    flush env s = .ok () (s.written env) := by
  rw [flush, if_neg (ne_true_of_eq_false hvalid), if_neg (ne_true_of_eq_false htaken)]

lemma flush_refused {s : Session} (hvalid : s.invalid = false) (hrefused : s.refused env = true) :
    flush env s = .error .integrityError { s with invalid := true } := by
  rw [flush, if_neg (ne_true_of_eq_false hvalid), if_pos hrefused]

lemma flush_doomed {s : Session} (h : Doomed env s) :
    ∃ e s', flush env s = .error e s' ∧ Doomed env s' := by
  rcases refused_of_doomed h with hinvalid | hrefused
  · exact ⟨_, _, by rw [flush, if_pos hinvalid], Or.inl hinvalid⟩
  · by_cases hvalid : s.invalid = true
    · exact ⟨_, _, by rw [flush, if_pos hvalid], Or.inl hvalid⟩
    · exact ⟨_, _, flush_refused (Bool.eq_false_of_not_eq_true hvalid) hrefused, Or.inl rfl⟩

lemma flush_fails {s : Session} (h : Doomed env s) : Leaves (Doomed env) (flush env) s := by
  obtain ⟨e, s', herror, -⟩ := flush_doomed h
  intro a s'' hrun
  exact nomatch herror.symm.trans hrun

lemma Going.refused {tables : ImportTables} {job : ImportJob} {counts : ℕ × ℕ} {db : Db} {s : Session}
    (h : Going env tables job counts db s) (lead : Option (ℕ × Parsed)) :
    Session.refused env { s with lead := lead }
      = lead.any fun (index, parsed) => rejects env db index parsed := by
  have herrors : s.rowErrors.any env.refuses.rowError = false := by
    rw [List.any_eq_false]
    intro error hmem
    rw [h.accepted error hmem]
    decide
  rw [Session.refused, herrors, Bool.or_false, h.written]

/-- A session with no lead to be added leaves the leads alone. -/
lemma written_db {s : Session} (h : s.lead = none) : (s.written env).tables.db = s.tables.db := by
  simp only [Session.written, h]

/-- A flush writes what the session holds. -/
lemma Going.flush {tables : ImportTables} {job : ImportJob} {counts : ℕ × ℕ} {db : Db} {s : Session}
    (h : Going env tables job counts db s) :
    Leads.flush env s = .ok () (s.written env) ∧ Going env tables job counts db (s.written env) := by
  have hrefused : s.refused env = false := by
    have hsame : s = { s with lead := none } := by rw [← h.lead]
    rw [hsame, h.refused none]
    rfl
  refine ⟨flush_ok h.valid hrefused, h.valid, rfl, rfl, ?_, ?_, h.loaded, h.leads, ?_⟩
  · exact (written_db h.lead).trans h.written
  · exact fun error hmem => absurd hmem List.not_mem_nil
  · obtain ⟨errors, hsplit, hrest⟩ := h.rowErrors
    exact ⟨errors, by rw [← hsplit]; exact List.append_nil _, hrest⟩

/-! ### One row -/

/-- An error row is recorded. -/
lemma Going.reject {tables : ImportTables} {job : ImportJob} {counts : ℕ × ℕ} {db : Db} {s : Session}
    (h : Going env tables job counts db s) {error : RowError} (hjob : error.importJobId = job.id)
    (haccepted : env.refuses.rowError error = false) :
    Going env tables job (counts.1, counts.2 + 1) db
      { s with
        rowErrors := s.rowErrors ++ [error]
        job := { s.job with failedRows := counts.2 + 1 } } := by
  refine ⟨h.valid, h.lead, h.logs, h.written, ?_, ?_, h.leads, ?_⟩
  · intro other hmem
    rcases List.mem_append.1 hmem with hmem | hmem
    · exact h.accepted other hmem
    · rw [List.mem_singleton.1 hmem]
      exact haccepted
  · show { s.job with failedRows := counts.2 + 1 } = _
    rw [h.loaded]
  · obtain ⟨errors, hsplit, hlength, hjobs⟩ := h.rowErrors
    refine ⟨errors ++ [error], ?_, by rw [List.length_append, hlength]; rfl, ?_⟩
    · show s.tables.rowErrors ++ (s.rowErrors ++ [error]) = _
      rw [← List.append_assoc, hsplit, List.append_assoc]
    · intro other hmem
      rcases List.mem_append.1 hmem with hmem | hmem
      · exact hjobs other hmem
      · rw [List.mem_singleton.1 hmem]
        exact hjob

/-- A lead is inserted. -/
lemma Going.insert {tables : ImportTables} {job : ImportJob} {counts : ℕ × ℕ} {db : Db} {s : Session}
    (h : Going env tables job counts db s) (index : ℕ) (parsed : Parsed) :
    Going env tables job (counts.1 + 1, counts.2)
      (db.insertLead (buildLead env db.nextId parsed))
      { Session.written env { s with lead := some (index, parsed) } with
        job := { s.job with processedRows := counts.1 + 1 } } := by
  refine ⟨h.valid, rfl, rfl, ?_, fun error hmem => absurd hmem List.not_mem_nil, ?_, ?_, ?_⟩
  · show s.tables.db.insertLead (buildLead env s.tables.db.nextId parsed) = _
    rw [h.written]
  · show { s.job with processedRows := counts.1 + 1 } = _
    rw [h.loaded]
  · obtain ⟨leads, hleads, hlength⟩ := h.leads
    refine ⟨leads ++ [buildLead env db.nextId parsed], ?_, by rw [List.length_append, hlength]; rfl⟩
    show db.leads ++ [_] = _
    rw [hleads, List.append_assoc]
  · obtain ⟨errors, hsplit, hrest⟩ := h.rowErrors
    exact ⟨errors, by rw [← hsplit]; exact List.append_nil _, hrest⟩

/-- The insert of a lead, by the flush before the savepoint. -/
lemma insertWithSavepoint_eq (index : ℕ) (raw : RawRow) (parsed : Parsed) (s : Session) :
    insertWithSavepoint env index raw parsed s
      = match flush env { s with lead := some (index, parsed) } with
        | .ok _ s' =>
            match flushNested env s' with
            | .ok _ s'' => .ok () s''
            | .error .integrityError s'' =>
                addRowError env index "import.duplicate" "Lead already exists (race condition)" raw s''
            | .error e s'' => .error e s''
        | .error .integrityError s' =>
            addRowError env index "import.duplicate" "Lead already exists (race condition)" raw s'
        | .error e s' => .error e s' := by
  show EStateM.tryCatch (EStateM.bind (flush env) fun _ => flushNested env) _
    { s with lead := some (index, parsed) } = _
  unfold EStateM.tryCatch EStateM.bind
  cases flush env { s with lead := some (index, parsed) } with
  | error e s' => cases e <;> rfl
  | ok u s' =>
      dsimp only
      cases flushNested env s' with
      | ok u s'' => rfl
      | error e s'' => cases e <;> rfl

/-- Nothing is left for the flush inside of the savepoint. -/
lemma flushNested_written {s : Session} (h : s.invalid = false) :
    flushNested env (s.written env) = .ok () ((s.written env).written env) := by
  rw [flushNested, if_neg (by rw [show (s.written env).invalid = s.invalid from rfl, h]; decide)]
  rfl

/-- A lead that the database takes is inserted; one that it rejects invalidates the transaction. -/
lemma insertWithSavepoint_spec {tables : ImportTables} {job : ImportJob} {counts : ℕ × ℕ} {db : Db}
    {s : Session} (h : Going env tables job counts db s) (index : ℕ) (raw : RawRow)
    (parsed : Parsed) :
    (rejects env db index parsed = false → ∃ s', insertWithSavepoint env index raw parsed s = .ok () s' ∧
      Going env tables job (counts.1 + 1, counts.2) (db.insertLead (buildLead env db.nextId parsed))
        { s' with job := { s'.job with processedRows := counts.1 + 1 } }) ∧
    (rejects env db index parsed = true → Leaves (Doomed env) (insertWithSavepoint env index raw parsed) s) := by
  have hrefused : Session.refused env { s with lead := some (index, parsed) }
      = rejects env db index parsed := h.refused (some (index, parsed))
  have hvalid : Session.invalid { s with lead := some (index, parsed) } = false := h.valid
  constructor
  · intro htaken
    have hflush : flush env { s with lead := some (index, parsed) }
        = .ok () (Session.written env { s with lead := some (index, parsed) }) :=
      flush_ok hvalid (hrefused.trans htaken)
    refine ⟨(Session.written env { s with lead := some (index, parsed) }).written env, ?_, ?_⟩
    · rw [insertWithSavepoint_eq, hflush]
      dsimp only
      rw [flushNested_written hvalid]
    · have hgoing := (h.insert index parsed).flush.2
      exact ⟨hgoing.valid, hgoing.lead, hgoing.logs, hgoing.written, hgoing.accepted,
        hgoing.loaded, hgoing.leads, hgoing.rowErrors⟩
  · intro hrejected a s' hrun
    have hflush : flush env { s with lead := some (index, parsed) }
        = .error .integrityError { s with lead := some (index, parsed), invalid := true } :=
      flush_refused hvalid (hrefused.trans hrejected)
    rw [insertWithSavepoint_eq, hflush] at hrun
    obtain ⟨-, rfl⟩ := EStateM.Result.ok.inj hrun
    exact Or.inl rfl

lemma insertWithSavepoint_doomed {s : Session} (h : Doomed env s) (index : ℕ) (raw : RawRow)
    (parsed : Parsed) : Leaves (Doomed env) (insertWithSavepoint env index raw parsed) s := by
  have hdoomed : Doomed env { s with lead := some (index, parsed) } := h
  obtain ⟨e, s', herror, hdoomed'⟩ := flush_doomed hdoomed
  intro a s'' hrun
  rw [insertWithSavepoint_eq, herror] at hrun
  cases e with
  | integrityError =>
      obtain ⟨-, rfl⟩ := EStateM.Result.ok.inj hrun
      rcases hdoomed' with hinvalid | ⟨error, hmem, hrefused⟩
      · exact Or.inl hinvalid
      · exact Or.inr ⟨error, List.mem_append_left _ hmem, hrefused⟩
  | pendingRollback => exact nomatch hrun

/-- The duplicate check reads what the job has inserted so far as well. -/
lemma queryDuplicates_going {tables : ImportTables} {job : ImportJob} {counts : ℕ × ℕ} {db : Db}
    {s : Session} (h : Going env tables job counts db s) (keys : Keys) :
    ∃ s', queryDuplicates env keys s
        = .ok (findDuplicates env.n db env.organizationId keys.email keys.phone keys.domain) s' ∧
      Going env tables job counts db s' := by
  rw [queryDuplicates]
  split_ifs with hkeys
  · refine ⟨s, ?_, h⟩
    have hnone : findDuplicates env.n db env.organizationId keys.email keys.phone keys.domain = [] := by
      simp [findDuplicates, hkeys, clash]
    rw [hnone]
    rfl
  · obtain ⟨hflush, hgoing⟩ := h.flush
    refine ⟨s.written env, ?_, hgoing⟩
    rw [bind_of_ok hflush, ← hgoing.written]
    rfl

lemma queryDuplicates_doomed {s : Session} (h : Doomed env s) (keys : Keys) :
    Leaves (Doomed env) (queryDuplicates env keys) s := by
  rw [queryDuplicates]
  split_ifs with hkeys
  · intro a s' hrun
    obtain ⟨-, rfl⟩ := EStateM.Result.ok.inj hrun
    exact h
  · refine (flush_fails h).bind fun _ s' h' => ?_
    intro a s'' hrun
    obtain ⟨-, rfl⟩ := EStateM.Result.ok.inj hrun
    exact h'

/-- A row that the database takes goes on with the next one. -/
theorem importRow_going {tables : ImportTables} {job : ImportJob} {counts : ℕ × ℕ} {db : Db}
    {s : Session} (h : Going env tables job counts db s) {index : ℕ} {raw : RawRow}
    (haccepted : (fate env job.id db index raw).accepted env db index) :
    ∃ s', importRow env index raw counts s = .ok ((fate env job.id db index raw).count counts) s' ∧
      Going env tables job ((fate env job.id db index raw).count counts)
        ((fate env job.id db index raw).after env db) s' := by
  have hid : s.job.id = job.id := by rw [h.loaded]
  rw [importRow, fate] at *
  cases hparse : parseRow env.n raw with
  | error message =>
      rw [hparse] at haccepted
      dsimp only at haccepted ⊢
      rw [← hid] at haccepted
      exact ⟨_, rfl, h.reject hid haccepted⟩
  | ok parsed =>
      rw [hparse] at haccepted
      dsimp only at haccepted ⊢
      obtain ⟨s', hquery, h'⟩ := queryDuplicates_going h (workerKeys env.n parsed.contact)
      rw [bind_of_ok hquery]
      have hid' : s'.job.id = job.id := by rw [h'.loaded]
      generalize findDuplicates env.n db env.organizationId (workerKeys env.n parsed.contact).email
        (workerKeys env.n parsed.contact).phone (workerKeys env.n parsed.contact).domain
        = duplicates at haccepted ⊢
      by_cases hnone : duplicates = []
      · rw [if_pos hnone] at haccepted ⊢
        rw [if_neg (not_not.2 hnone)]
        obtain ⟨s'', hinsert, h''⟩ := (insertWithSavepoint_spec h' index raw parsed).1 haccepted
        rw [bind_of_ok hinsert]
        split_ifs with hchunk
        · obtain ⟨hflush, hgoing⟩ := h''.flush
          exact ⟨_, bind_of_ok hflush, hgoing⟩
        · exact ⟨_, rfl, h''⟩
      · rw [if_neg hnone] at haccepted ⊢
        rw [if_pos hnone]
        rw [← hid'] at haccepted
        exact ⟨_, rfl, h'.reject hid' haccepted⟩

lemma addRowError_doomed {s : Session} (h : Doomed env s) (index : ℕ) (errorCode errorMessage : String)
    (raw : RawRow) : Leaves (Doomed env) (addRowError env index errorCode errorMessage raw) s := by
  intro a s' hrun
  obtain ⟨-, rfl⟩ := EStateM.Result.ok.inj hrun
  rcases h with hinvalid | ⟨error, hmem, hrefused⟩
  · exact Or.inl hinvalid
  · exact Or.inr ⟨error, List.mem_append_left _ hmem, hrefused⟩

/-- A count is set, and the session stays what it is. -/
lemma setProcessed_doomed {s : Session} (h : Doomed env s) (processed : ℕ) :
    Leaves (Doomed env) (setProcessed processed) s := by
  intro a s' hrun
  obtain ⟨-, rfl⟩ := EStateM.Result.ok.inj hrun
  exact h

lemma setFailed_doomed {s : Session} (h : Doomed env s) (failed : ℕ) :
    Leaves (Doomed env) (setFailed failed) s := by
  intro a s' hrun
  obtain ⟨-, rfl⟩ := EStateM.Result.ok.inj hrun
  exact h

lemma pure_doomed {α : Type} {s : Session} (h : Doomed env s) (a : α) :
    Leaves (Doomed env) (pure a) s := by
  intro b s' hrun
  obtain ⟨-, rfl⟩ := EStateM.Result.ok.inj hrun
  exact h

/-- The rest of a row that is recorded as an error. -/
lemma recorded_doomed {s : Session} (h : Doomed env s) (index : ℕ) (errorCode errorMessage : String)
    (raw : RawRow) (counts : ℕ × ℕ) :
    Leaves (Doomed env) (do
      addRowError env index errorCode errorMessage raw
      setFailed (counts.2 + 1)
      return (counts.1, counts.2 + 1)) s :=
  (addRowError_doomed h index errorCode errorMessage raw).bind fun _ _ h =>
    (setFailed_doomed h _).bind fun _ _ h => pure_doomed h _

/-- The rest of a row that is inserted. -/
lemma counted_doomed {s : Session} (h : Doomed env s) (counts : ℕ × ℕ) :
    Leaves (Doomed env) (do
      setProcessed (counts.1 + 1)
      if (counts.1 + 1 + counts.2) % env.chunkSize = 0 then
        flush env
      return (counts.1 + 1, counts.2)) s := by
  refine (setProcessed_doomed h _).bind fun _ s' h => ?_
  split_ifs
  · exact (flush_fails h).bind fun _ _ h => pure_doomed h _
  · exact pure_doomed h _

lemma importRow_doomed {s : Session} (h : Doomed env s) (index : ℕ) (raw : RawRow) (counts : ℕ × ℕ) :
    Leaves (Doomed env) (importRow env index raw counts) s := by
  rw [importRow]
  cases parseRow env.n raw with
  | error message => exact recorded_doomed h index _ message raw counts
  | ok parsed =>
      refine (queryDuplicates_doomed h _).bind fun duplicate s' h => ?_
      by_cases hnone : duplicate ≠ []
      · simp only [if_pos hnone]
        exact recorded_doomed h index _ _ raw counts
      · simp only [if_neg hnone]
        exact (insertWithSavepoint_doomed h index raw parsed).bind fun _ _ h =>
          counted_doomed h counts

/-- An error row that is refused stays in the session. -/
lemma recorded_fails {s : Session} {index : ℕ} {errorCode errorMessage : String} {raw : RawRow}
    (hrefused : env.refuses.rowError
      ⟨s.job.id, env.organizationId, index, errorCode, errorMessage, raw⟩ ≠ false) (counts : ℕ × ℕ) :
    Leaves (Doomed env) (do
      addRowError env index errorCode errorMessage raw
      setFailed (counts.2 + 1)
      return (counts.1, counts.2 + 1)) s := by
  refine Leaves.bind (fun a s' hrun => ?_) fun _ _ h => (setFailed_doomed h _).bind
    fun _ _ h => pure_doomed h _
  obtain ⟨-, rfl⟩ := EStateM.Result.ok.inj hrun
  exact Or.inr ⟨_, List.mem_append_right _ List.mem_cons_self, Bool.eq_true_of_not_eq_false hrefused⟩

/-- A row that the database does not take leaves nothing to commit. -/
theorem importRow_fails {tables : ImportTables} {job : ImportJob} {counts : ℕ × ℕ} {db : Db}
    {s : Session} (h : Going env tables job counts db s) {index : ℕ} {raw : RawRow}
    (hrejected : ¬ (fate env job.id db index raw).accepted env db index) :
    Leaves (Doomed env) (importRow env index raw counts) s := by
  have hid : s.job.id = job.id := by rw [h.loaded]
  rw [importRow]
  rw [fate] at hrejected
  cases hparse : parseRow env.n raw with
  | error message =>
      rw [hparse] at hrejected
      dsimp only at hrejected
      rw [← hid] at hrejected
      exact recorded_fails hrejected counts
  | ok parsed =>
      rw [hparse] at hrejected
      dsimp only at hrejected ⊢
      obtain ⟨s', hquery, h'⟩ := queryDuplicates_going h (workerKeys env.n parsed.contact)
      have hid' : s'.job.id = job.id := by rw [h'.loaded]
      intro b s'' hrun
      rw [bind_of_ok hquery] at hrun
      revert hrun
      generalize findDuplicates env.n db env.organizationId (workerKeys env.n parsed.contact).email
        (workerKeys env.n parsed.contact).phone (workerKeys env.n parsed.contact).domain
        = duplicates at hrejected ⊢
      by_cases hnone : duplicates = []
      · rw [if_pos hnone] at hrejected
        rw [if_neg (not_not.2 hnone)]
        have hinsert := (insertWithSavepoint_spec h' index raw parsed).2
          (Bool.eq_true_of_not_eq_false hrejected)
        exact hinsert.bind (fun _ _ h => counted_doomed h counts) b s''
      · rw [if_neg hnone, ← hid'] at hrejected
        rw [if_pos hnone]
        exact recorded_fails hrejected counts b s''

/-! ### The loop -/

lemma importRows_doomed (rows : List RawRow) {s : Session} (h : Doomed env s) (index : ℕ)
    (counts : ℕ × ℕ) : Leaves (Doomed env) (importRows env index rows counts) s := by
  induction rows generalizing s index counts with
  | nil => exact pure_doomed h counts
  | cons raw rows ih => exact (importRow_doomed h index raw counts).bind fun _ _ h => ih h _ _

/-- The loop accounts for each row, or leaves nothing to commit. -/
theorem importRows_spec (rows : List RawRow) {tables : ImportTables} {job : ImportJob}
    {counts : ℕ × ℕ} {db : Db} {s : Session} (h : Going env tables job counts db s) (index : ℕ) :
    (Accepted env job.id db index rows → ∃ counts' db' s',
      importRows env index rows counts s = .ok counts' s' ∧
        Going env tables job counts' db' s' ∧
        counts'.1 + counts'.2 = counts.1 + counts.2 + rows.length) ∧
    (¬ Accepted env job.id db index rows → Leaves (Doomed env) (importRows env index rows counts) s) := by
  induction rows generalizing counts db s index with
  | nil =>
      exact ⟨fun _ => ⟨counts, db, s, rfl, h, rfl⟩, fun hrejected => absurd trivial hrejected⟩
  | cons raw rows ih =>
      by_cases hrow : (fate env job.id db index raw).accepted env db index
      · obtain ⟨s', hrun, h'⟩ := importRow_going h hrow
        obtain ⟨hgoes, hfails⟩ := ih h' (index + 1)
        have hsum : ((fate env job.id db index raw).count counts).1
            + ((fate env job.id db index raw).count counts).2 = counts.1 + counts.2 + 1 := by
          cases fate env job.id db index raw <;> simp only [RowFate.count] <;> omega
        constructor
        · rintro ⟨-, hrest⟩
          obtain ⟨counts', db', s'', hrun', h'', hcounts⟩ := hgoes hrest
          refine ⟨counts', db', s'', ?_, h'', ?_⟩
          · rw [importRows, bind_of_ok hrun, hrun']
          · rw [hcounts, hsum, List.length_cons]
            omega
        · intro hrejected b s'' hrun'
          rw [importRows, bind_of_ok hrun] at hrun'
          exact hfails (fun hrest => hrejected ⟨hrow, hrest⟩) b s'' hrun'
      · refine ⟨fun haccepted => absurd haccepted.1 hrow, fun _ => ?_⟩
        exact (importRow_fails h hrow).bind fun _ _ h => importRows_doomed rows h _ _

/-! ### The job -/

/-- The figures of a job that completed add up. -/
structure Accounted (before after : ImportTables) (job : ImportJob) : Prop where
  total : job.processedRows + job.failedRows = job.totalRows
  processed : ∃ leads, after.db.leads = before.db.leads ++ leads ∧ leads.length = job.processedRows
  failed : ∃ errors, after.rowErrors = before.rowErrors ++ errors ∧
    errors.length = job.failedRows ∧ ∀ error ∈ errors, error.importJobId = job.id

/-- The session once the job is read. -/
lemma going_init (tables : ImportTables) (job : ImportJob)
    (hfresh : job.processedRows = 0 ∧ job.failedRows = 0) :
    Going env tables job (0, 0) tables.db ⟨tables, job, none, [], [], false⟩ := by
  refine ⟨rfl, rfl, rfl, rfl, fun error hmem => absurd hmem List.not_mem_nil, ?_, ⟨[], by simp⟩,
    ⟨[], by simp⟩⟩
  cases job
  simp_all

/-- The commit of a session that goes on. -/
lemma commit_going {tables : ImportTables} {job : ImportJob} {counts : ℕ × ℕ} {db : Db} {s : Session}
    (h : Going env tables job counts db s) (hcounts : counts.1 + counts.2 = job.totalRows)
    (finished : Datetime) : ∃ s' job',
      (do finishJob env counts finished; flush env : ImportM Unit) s = .ok () s' ∧
        s'.tables.jobs job.id = some job' ∧ job'.id = job.id ∧ job'.status = .completed ∧
        Accounted tables s'.tables job' := by
  have hid : s.job.id = job.id := by rw [h.loaded]
  have htaken : s.refused env = false := by
    have hsame : s = { s with lead := none } := by rw [← h.lead]
    rw [hsame, h.refused none]
    rfl
  set job' : ImportJob := { s.job with status := .completed, finishedAt := some finished } with hjob'
  have hflush : ∀ logs, flush env { s with job := job', logs := logs }
      = .ok () (Session.written env { s with job := job', logs := logs }) :=
    fun logs => flush_ok h.valid htaken
  refine ⟨_, job', hflush _, ?_, hid, rfl, ?_, ?_, ?_⟩
  · show Function.update s.tables.jobs s.job.id (some job') job.id = some job'
    rw [hid, Function.update_self]
  · show s.job.processedRows + s.job.failedRows = s.job.totalRows
    rw [h.loaded]
    exact hcounts
  · obtain ⟨leads, hleads, hlength⟩ := h.leads
    refine ⟨leads, ?_, ?_⟩
    · rw [written_db]
      · show s.tables.db.leads = _
        rw [h.written, hleads]
      · exact h.lead
    · show leads.length = s.job.processedRows
      rw [h.loaded, hlength]
  · obtain ⟨errors, hsplit, hlength, hjobs⟩ := h.rowErrors
    refine ⟨errors, hsplit, ?_, fun error hmem => (hjobs error hmem).trans hid.symm⟩
    show errors.length = s.job.failedRows
    rw [h.loaded, hlength]

/-- A session that cannot commit raises here at the latest. -/
lemma commit_doomed {s : Session} (h : Doomed env s) (counts : ℕ × ℕ) (finished : Datetime) :
    Leaves (fun _ => False) (do finishJob env counts finished; flush env : ImportM Unit) s := by
  have hfinish : Leaves (Doomed env) (finishJob env counts finished) s := by
    intro a s' hrun
    obtain ⟨-, rfl⟩ := EStateM.Result.ok.inj hrun
    exact h
  refine hfinish.bind fun _ s' h' a s'' hrun => ?_
  obtain ⟨e, s₁, herror, -⟩ := flush_doomed h'
  exact nomatch herror.symm.trans hrun

/-- The job completes and accounts for every row when the database takes every row, and raises
otherwise. -/
theorem importJob_spec {tables : ImportTables} {job : ImportJob} {rows : List RawRow}
    {started finished : Datetime} (hfresh : job.processedRows = 0 ∧ job.failedRows = 0) :
    (Accepted env job.id tables.db 2 rows → ∃ s' job',
      importJob env rows started finished ⟨tables, job, none, [], [], false⟩ = .ok () s' ∧
        s'.tables.jobs job.id = some job' ∧ job'.id = job.id ∧ job'.status = .completed ∧
        Accounted tables s'.tables job') ∧
    (¬ Accepted env job.id tables.db 2 rows → Leaves (fun _ => False)
      (importJob env rows started finished) ⟨tables, job, none, [], [], false⟩) := by
  set job₀ : ImportJob :=
    { job with status := .processing, totalRows := rows.length, startedAt := some started }
  have hinit : Going env tables job₀ (0, 0) tables.db ⟨tables, job₀, none, [], [], false⟩ :=
    going_init tables job₀ hfresh
  obtain ⟨hgoes, hfails⟩ := importRows_spec rows hinit 2
  have hstart : startJob rows.length started ⟨tables, job, none, [], [], false⟩
      = .ok () ⟨tables, job₀, none, [], [], false⟩ := rfl
  constructor
  · intro haccepted
    obtain ⟨counts, db, s, hrun, h, hcounts⟩ := hgoes haccepted
    rw [importJob, bind_of_ok hstart, bind_of_ok hrun]
    refine commit_going h ?_ finished
    rw [hcounts]
    exact Nat.zero_add _
  · intro hrejected a s' hrun
    rw [importJob, bind_of_ok hstart] at hrun
    exact (hfails hrejected).bind (fun counts s h => commit_doomed h counts finished) a s' hrun

/-- What a job has to do with the rows of a file that could be read: account for them when it
completes, and not fail over one of them. -/
structure ImportSound (before after : ImportTables) (jobId : ℕ) : Prop where
  accounted : ∀ job, after.jobs jobId = some job → job.status = .completed →
    Accounted before after job
  finishes : ∀ job, after.jobs jobId = some job → job.status ≠ .failed

/-- A job as it is created: pending, and nothing counted yet. -/
structure PendingJob (env : ImportEnv) (job : ImportJob) : Prop where
  organizationId : job.organizationId = env.organizationId
  status : job.status = .pending
  fresh : job.processedRows = 0 ∧ job.failedRows = 0

lemma claim_pending {tables : ImportTables} {job : ImportJob} (hjob : tables.jobs job.id = some job)
    (h : PendingJob env job) : tables.claim env.organizationId job.id = some job := by
  rw [ImportTables.claim, hjob, Option.filter_some, if_pos]
  rw [h.organizationId, h.status]
  simp

/-- A job that is marked failed. -/
lemma markFailed_job {tables : ImportTables} {job : ImportJob} (hjob : tables.jobs job.id = some job)
    (h : PendingJob env job) (now : Datetime) :
    (tables.markFailed env.organizationId job.id now).jobs job.id
      = some { job with status := .failed, finishedAt := some now } := by
  rw [ImportTables.markFailed, hjob, Option.filter_some, if_pos (by rw [h.organizationId]; simp)]
  exact Function.update_self _ _ _

lemma not_sound_of_markFailed {tables : ImportTables} {job : ImportJob}
    (hjob : tables.jobs job.id = some job) (h : PendingJob env job) (now : Datetime) :
    ¬ ImportSound tables (tables.markFailed env.organizationId job.id now) job.id :=
  fun hsound => hsound.finishes _ (markFailed_job hjob h now) rfl

/-- **Import accounting**: a job accounts for every row and fails over none, just when no record has
values past the last header and the database takes every row, each after those before it. -/
theorem import_accounted_iff {tables : ImportTables} {job : ImportJob} {records : List CsvRecord}
    {started finished : Datetime} (hjob : tables.jobs job.id = some job) (h : PendingJob env job) :
    ImportSound tables (processJob env tables job.id (some records) started finished) job.id ↔
      ∃ rows, parseCsv env.n records = some rows ∧ Accepted env job.id tables.db 2 rows := by
  rw [processJob, Option.bind_some]
  cases hparse : parseCsv env.n records with
  | none =>
      refine ⟨fun hsound => absurd hsound (not_sound_of_markFailed hjob h finished), ?_⟩
      rintro ⟨rows, hrows, -⟩
      exact nomatch hrows
  | some rows =>
      dsimp only
      rw [claim_pending hjob h]
      dsimp only
      obtain ⟨hgoes, hfails⟩ := @importJob_spec env tables job rows started finished h.fresh
      by_cases haccepted : Accepted env job.id tables.db 2 rows
      · obtain ⟨s', job', hrun, hjob', -, hstatus, haccounted⟩ := hgoes haccepted
        rw [hrun]
        refine iff_of_true ⟨fun other hother _ => ?_, fun other hother => ?_⟩ ⟨rows, rfl, haccepted⟩
        · rw [Option.some.inj (hother.symm.trans hjob')]
          exact haccounted
        · rw [Option.some.inj (hother.symm.trans hjob'), hstatus]
          decide
      · have hraises := hfails haccepted
        cases hrun : importJob env rows started finished ⟨tables, job, none, [], [], false⟩ with
        | ok a s' => exact (hraises a s' hrun).elim
        | error e s' =>
            refine iff_of_false (not_sound_of_markFailed hjob h finished) ?_
            rintro ⟨rows', hrows, h'⟩
            exact haccepted (Option.some.inj hrows ▸ h')

/-- A database that refuses nothing but what breaks a unique index. -/
def plainEnv : ImportEnv := ⟨.ascii, ⟨fun _ _ => false, fun _ => false⟩, 1, none, 200⟩

def newJob : ImportJob := ⟨7, 1, 3, .pending, "leads.csv", 0, 0, 0, none, none⟩

/-- One lead with a phone, and the job. -/
def someTables : ImportTables where
  db := Db.empty.insertLead (newLead 0 1 ⟨none, none, none, none, ⟨none, some "123", none, none⟩⟩)
  jobs := fun id => if id = 7 then some newJob else none
  rowErrors := []
  logs := []

/-- A record of one value. -/
def oneValue (header value : String) : CsvRecord := ⟨[(header, some value)], []⟩

theorem import_accounted_two_rows :
    ImportSound someTables (processJob plainEnv someTables 7
      (some [oneValue "Email" "a@b.c", oneValue "Phone" "123"]) 5 6) 7 := by
  refine (@import_accounted_iff plainEnv someTables newJob _ 5 6 rfl ⟨rfl, rfl, rfl, rfl⟩).2 ?_
  exact ⟨_, rfl, by decide +kernel⟩

/-- A row with the known number as its whatsapp passes the check, and the job fails over it. -/
theorem import_aborts : ¬ ∀ (env : ImportEnv) (tables : ImportTables) (job : ImportJob)
    (records : List CsvRecord) (started finished : Datetime), tables.jobs job.id = some job →
    PendingJob env job →
    ImportSound tables (processJob env tables job.id (some records) started finished) job.id := by
  intro h
  have hsound := h plainEnv someTables newJob [oneValue "WhatsApp" "123", oneValue "Email" "a@b.c"]
    5 6 rfl ⟨rfl, rfl, rfl, rfl⟩
  have hfailed : ((processJob plainEnv someTables 7
      (some [oneValue "WhatsApp" "123", oneValue "Email" "a@b.c"]) 5 6).jobs 7).map (·.status)
        = some .failed := by
    decide +kernel
  obtain ⟨job, hjob, hstatus⟩ := Option.map_eq_some_iff.1 hfailed
  exact hsound.finishes job hjob hstatus

end Leads
