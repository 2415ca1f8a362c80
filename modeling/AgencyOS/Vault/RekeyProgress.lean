import AgencyOS.Txn.Backlog
import AgencyOS.Vault.Corruption

/-!
The progress of the rekey worker.

A sweep takes the stale rows that were updated longest ago.  A row that it cannot read stays where it
is, at the head of every sweep, so a batch of such rows stops the worker for those behind them.

* `opens`: the row can be read with the keys at hand;
* `sealedRow`, `sweep_rows`: what a sweep makes of the rows of its batch;
* `Tick`, `after`: sweeps one after another, with the rows of one time in whatever order;
* `stale_tick`: a sweep is a round of the backlog of stale rows;
* `rekey_progresses`: **a sweep reseals a row, and some number of sweeps every row, exactly when fewer
  unreadable rows than a batch are as old as one of them, or as any**.
-/

namespace Vault

open Python Txn

variable {κ : Type} (p : Primitives κ) (s : Settings)

/-! ### One sweep -/

/-- The row can be read with the keys at hand. -/
def opens (c : Credential) : Bool := (decryptSecret p s c.keyVersion c.encryptedValue).isOk

/-- The row as the sweep leaves it. -/
def sealedRow (nonces : ℕ → Nonce) (now : ℕ) (c : Credential) : Credential :=
  match decryptSecret p s c.keyVersion c.encryptedValue with
  | .error _ => c
  | .ok plaintext => (reseal p s (nonces c.id) now c plaintext).toOption.getD c

def isStale (c : Credential) : Bool := decide (c.keyVersion ≠ s.credentialKeyVersion)

/-- The rows that are under another version. -/
def stale (db : Database) : List Credential := db.credentials.filter (isStale s)

variable {p s} {nonces : ℕ → Nonce} {now : ℕ} {db : Database} {c : Credential}

lemma opens_eq_true : opens p s c = true ↔
    ∃ plaintext, decryptSecret p s c.keyVersion c.encryptedValue = .ok plaintext := by
  rw [opens]
  cases decryptSecret p s c.keyVersion c.encryptedValue with
  | ok plaintext => simp [Except.isOk, Except.toBool]
  | error e => simp [Except.isOk, Except.toBool]

lemma exists_error_of_opens_eq_false (h : opens p s c = false) :
    ∃ e, decryptSecret p s c.keyVersion c.encryptedValue = .error e := by
  cases hread : decryptSecret p s c.keyVersion c.encryptedValue with
  | error e => exact ⟨e, rfl⟩
  | ok plaintext => simp [opens, hread, Except.isOk, Except.toBool] at h

variable (nonces now) in
/-- A row that was read comes out under the current key. -/
lemma sealedRow_of_opens (hkey : s.credentialsEncKey ≠ []) {plaintext : Text}
    (h : decryptSecret p s c.keyVersion c.encryptedValue = .ok plaintext) :
    reseal p s (nonces c.id) now c plaintext = .ok (sealedRow p s nonces now c) := by
  have hencrypt : ∃ value, encrypt p s (nonces c.id) plaintext = .ok value :=
    ⟨_, mapError_eq_ok.2 (by rw [encryptSecret, keyFor_current hkey]; rfl)⟩
  obtain ⟨value, hvalue⟩ := hencrypt
  rw [sealedRow, h]
  dsimp only
  rw [reseal, hvalue]
  rfl

lemma sealedRow_id (c : Credential) : (sealedRow p s nonces now c).id = c.id := by
  rw [sealedRow]
  split
  · rfl
  · rename_i plaintext _
    cases hreseal : reseal p s (nonces c.id) now c plaintext with
    | error e => rfl
    | ok c' => exact (reseal_spec hreseal).id

variable (nonces now) in
/-- One row of the batch. -/
lemma rekeyRow_rows (hkey : s.credentialsEncKey ≠ []) (sweep : ℕ × Database) (c : Credential) :
    ∃ rekeyed db', rekeyRow p s nonces now sweep c = .ok (rekeyed, db')
      ∧ db'.credentials = sweep.2.credentials.map fun d =>
        if d.id = c.id ∧ opens p s c = true then sealedRow p s nonces now c else d := by
  cases hopens : opens p s c with
  | true =>
      obtain ⟨plaintext, hread⟩ := opens_eq_true.1 hopens
      refine ⟨sweep.1 + 1, sweep.2.save (sealedRow p s nonces now c), ?_, ?_⟩
      · rw [rekeyRow, decrypt_eq_ok.2 hread]
        dsimp only
        rw [sealedRow_of_opens nonces now hkey hread]
        rfl
      · simp [Database.save, sealedRow_id]
  | false =>
      obtain ⟨e, he⟩ := exists_error_of_opens_eq_false hopens
      exact ⟨sweep.1, sweep.2, rekeyRow_of_error nonces now sweep he, by simp⟩

variable (nonces now) in
/-- The batch of a sweep, row by row. -/
lemma sweep_rows (hkey : s.credentialsEncKey ≠ []) {batch : List Credential}
    (hbatch : (batch.map (·.id)).Nodup) (sweep : ℕ × Database) :
    ∃ rekeyed db', batch.foldlM (rekeyRow p s nonces now) sweep = .ok (rekeyed, db')
      ∧ db'.credentials = sweep.2.credentials.map fun d =>
        match batch.find? fun c => decide (c.id = d.id) with
        | some c => if opens p s c then sealedRow p s nonces now c else d
        | none => d := by
  induction batch generalizing sweep with
  | nil => exact ⟨sweep.1, sweep.2, rfl, by simp⟩
  | cons c batch ih =>
      rw [List.map_cons, List.nodup_cons] at hbatch
      obtain ⟨rekeyed, db, hrow, hrows⟩ := rekeyRow_rows nonces now hkey sweep c
      obtain ⟨rekeyed', db', hrest, hrows'⟩ := ih hbatch.2 (rekeyed, db)
      refine ⟨rekeyed', db', ?_, ?_⟩
      · rw [List.foldlM_cons, hrow]
        exact hrest
      · rw [hrows', hrows, List.map_map]
        refine List.map_congr_left fun d _ => ?_
        rw [Function.comp_apply, List.find?_cons]
        by_cases hid : c.id = d.id
        · have hnone : ∀ d' : Credential, d'.id = c.id →
              (batch.find? fun c => decide (c.id = d'.id)) = none := by
            intro d' hd'
            rw [List.find?_eq_none]
            intro c' hc' heq
            exact hbatch.1 (List.mem_map.2 ⟨c', hc', (of_decide_eq_true heq).trans hd'⟩)
          simp only [hid, decide_true, true_and]
          split_ifs with hopens
          · rw [hnone _ (sealedRow_id c)]
          · rw [hnone d hid.symm]
        · simp [hid, Ne.symm hid]

lemma exists_recordKeyVersions (hkey : s.credentialsEncKey ≠ []) (db : Database) :
    ∃ db', recordKeyVersions p s db = .ok db' := by
  have hcurrent : ∃ fingerprint, (keyFingerprint p s s.credentialKeyVersion).mapError
      CredentialError.crypto = .ok fingerprint :=
    ⟨_, mapError_eq_ok.2 (by rw [keyFingerprint, keyFor_current hkey]; rfl)⟩
  have hprevious : ∀ version, previousKeyVersion s = some version →
      ∃ fingerprint, (keyFingerprint p s version).mapError CredentialError.crypto
        = .ok fingerprint := by
    intro version hversion
    rw [previousKeyVersion] at hversion
    split_ifs at hversion with hnil
    obtain rfl := Option.some.inj hversion
    have hraw : (keyMaterial s (previousVersion s.credentialKeyVersion)).isSome := by
      rw [keyMaterial]
      split_ifs with hsame hboth
      · rfl
      · rfl
      · exact absurd ⟨rfl, hnil⟩ hboth
    obtain ⟨raw, hraw⟩ := Option.isSome_iff_exists.1 hraw
    exact ⟨_, mapError_eq_ok.2 (by rw [keyFingerprint, keyFor, hraw]; rfl)⟩
  obtain ⟨fingerprint, hfingerprint⟩ := hcurrent
  cases hversion : previousKeyVersion s with
  | none =>
      refine ⟨db.upsertKeyVersion s.credentialKeyVersion fingerprint,
        bind_eq_ok.2 ⟨fingerprint, hfingerprint, ?_⟩⟩
      simp only [hversion]
  | some version =>
      obtain ⟨fingerprint', hfingerprint'⟩ := hprevious version hversion
      refine ⟨(db.upsertKeyVersion s.credentialKeyVersion fingerprint).upsertKeyVersion version
        fingerprint', bind_eq_ok.2 ⟨fingerprint, hfingerprint, ?_⟩⟩
      simp only [hversion]
      exact bind_eq_ok.2 ⟨fingerprint', hfingerprint', rfl⟩

lemma ids_listStaleKey (hids : (db.credentials.map (·.id)).Nodup) (version : Text) (limit : ℕ) :
    ((db.listStaleKey version limit).map (·.id)).Nodup := by
  have hfilter : ((db.credentials.filter (·.keyVersion ≠ version)).map (·.id)).Nodup :=
    hids.sublist (List.filter_sublist.map _)
  have hsort := (((List.perm_insertionSort (·.updatedAt ≤ ·.updatedAt)
    (db.credentials.filter (·.keyVersion ≠ version))).map (·.id)).nodup_iff).2 hfilter
  exact hsort.sublist ((List.take_sublist _ _).map _)

variable (nonces now) in
/-- **A sweep reseals the readable rows of its batch**, and leaves the others. -/
lemma rekeyTick_rows (henabled : s.credentialRekeyEnabled = true) (hkey : s.credentialsEncKey ≠ [])
    (hids : (db.credentials.map (·.id)).Nodup) :
    ∃ stats db', rekeyTick p s nonces now db = .ok (stats, db')
      ∧ db'.credentials = db.credentials.map fun c =>
        if c ∈ db.listStaleKey s.credentialKeyVersion s.credentialRekeyBatch ∧ opens p s c = true
        then sealedRow p s nonces now c else c := by
  obtain ⟨recorded, hrecorded⟩ := exists_recordKeyVersions (p := p) hkey db
  have hrows := (recordKeyVersions_spec hrecorded).1
  have hbatch : recorded.listStaleKey s.credentialKeyVersion s.credentialRekeyBatch
      = db.listStaleKey s.credentialKeyVersion s.credentialRekeyBatch := by
    rw [Database.listStaleKey, Database.listStaleKey, hrows]
  obtain ⟨rekeyed, swept, hswept, hsweptRows⟩ := sweep_rows (p := p) nonces now
    hkey (ids_listStaleKey hids s.credentialKeyVersion s.credentialRekeyBatch) (0, recorded)
  refine ⟨⟨rekeyed, swept.countStaleKey s.credentialKeyVersion⟩,
    retirePrevious s now (swept.countStaleKey s.credentialKeyVersion) swept, ?_, ?_⟩
  · rw [rekeyTick, if_neg (by simp [henabled])]
    refine bind_eq_ok.2 ⟨recorded, hrecorded, bind_eq_ok.2 ⟨(rekeyed, swept), ?_, rfl⟩⟩
    rw [hbatch]
    exact hswept
  · rw [retirePrevious_credentials, hsweptRows]
    dsimp only
    rw [hrows]
    refine List.map_congr_left fun c hc => ?_
    cases hfind : (db.listStaleKey s.credentialKeyVersion s.credentialRekeyBatch).find?
        fun d => decide (d.id = c.id) with
    | none =>
        have hmem : c ∉ db.listStaleKey s.credentialKeyVersion s.credentialRekeyBatch := by
          intro hmem
          have hne := List.find?_eq_none.1 hfind c hmem
          simp at hne
        dsimp only
        rw [if_neg fun h => hmem h.1]
    | some d =>
        have hmem := List.mem_of_find?_eq_some hfind
        have hid : d.id = c.id := by simpa using List.find?_some hfind
        have hd : d ∈ db.credentials :=
          (List.mem_filter.1 ((List.mem_insertionSort _).1 (List.mem_of_mem_take hmem))).1
        obtain rfl := List.inj_on_of_nodup_map hids hd hc hid
        simp [hmem]

/-! ### Sweeps one after another -/

/-- What a sweep draws, and the order in which the table hands out its rows. -/
structure Tick where
  nonces : ℕ → Nonce
  now : ℕ
  order : List Credential → List Credential
  perm : ∀ rows, (order rows).Perm rows

/-- The table in the order of the sweep. -/
def Tick.ordered (t : Tick) (db : Database) : Database :=
  { db with credentials := t.order db.credentials }

variable (p s) in
/-- One sweep; one that raises leaves the rows. -/
def tick (t : Tick) (db : Database) : Database :=
  match rekeyTick p s t.nonces t.now (t.ordered db) with
  | .ok (_, db') => db'
  | .error _ => t.ordered db

variable (p s) in
def after (ticks : ℕ → Tick) (db : Database) : ℕ → Database
  | 0 => db
  | n + 1 => tick p s (ticks n) (after ticks db n)

variable (p s) in
/-- The secret of the row is stored under the current key. -/
def Rekeyed (c : Credential) (db : Database) : Prop :=
  ∃ plaintext c', decryptSecret p s c.keyVersion c.encryptedValue = .ok plaintext
    ∧ c' ∈ db.credentials ∧ Resealed p s plaintext c c'

/-- The rows of a sweep, in its order. -/
def Tick.backlog (t : Tick) (s : Settings) (db : Database) : List Credential :=
  (stale s (t.ordered db)).insertionSort (·.updatedAt ≤ ·.updatedAt)

lemma backlog_perm (t : Tick) (db : Database) : (t.backlog s db).Perm (stale s db) :=
  (List.perm_insertionSort _ _).trans ((t.perm db.credentials).filter _)

lemma ids_ordered (t : Tick) (hids : (db.credentials.map (·.id)).Nodup) :
    ((t.ordered db).credentials.map (·.id)).Nodup :=
  ((t.perm db.credentials).map _).nodup_iff.2 hids

/-- The rows after a sweep. -/
lemma tick_rows (t : Tick) (henabled : s.credentialRekeyEnabled = true)
    (hkey : s.credentialsEncKey ≠ []) (hids : (db.credentials.map (·.id)).Nodup) :
    (tick p s t db).credentials = (t.order db.credentials).map fun c =>
      if c ∈ (t.backlog s db).take s.credentialRekeyBatch ∧ opens p s c = true
      then sealedRow p s t.nonces t.now c else c := by
  obtain ⟨stats, db', htick, hrows⟩ := rekeyTick_rows (p := p) t.nonces t.now
    henabled hkey (ids_ordered t hids)
  rw [tick, htick]
  exact hrows

lemma isStale_of_resealed {plaintext : Text} {c' : Credential} (h : Resealed p s plaintext c c') :
    isStale s c' = false := by
  simp [isStale, h.keyVersion]

/-- Rows that a map leaves, and rows that it takes out. -/
lemma filter_map_eq_filter {rows : List Credential} {f : Credential → Credential}
    {keeps : Credential → Bool}
    (hkept : ∀ c ∈ rows, keeps c = true → f c = c ∧ isStale s c = true)
    (hlost : ∀ c ∈ rows, keeps c = false → isStale s (f c) = false) :
    (rows.map f).filter (isStale s) = rows.filter keeps := by
  induction rows with
  | nil => rfl
  | cons c rows ih =>
      have ih := ih (fun d hd => hkept d (List.mem_cons_of_mem c hd))
        fun d hd => hlost d (List.mem_cons_of_mem c hd)
      cases hkeeps : keeps c with
      | true =>
          obtain ⟨hsame, hstale⟩ := hkept c List.mem_cons_self hkeeps
          rw [List.map_cons, hsame, List.filter_cons_of_pos hstale, List.filter_cons_of_pos hkeeps,
            ih]
      | false =>
          have hstale := hlost c List.mem_cons_self hkeeps
          rw [List.map_cons, List.filter_cons_of_neg (by simp [hstale]),
            List.filter_cons_of_neg (by simp [hkeeps]), ih]

/-- **A sweep is a round of the stale rows.** -/
lemma stale_tick (t : Tick) (henabled : s.credentialRekeyEnabled = true)
    (hkey : s.credentialsEncKey ≠ []) (hids : (db.credentials.map (·.id)).Nodup) :
    (stale s (tick p s t db)).Perm
      (Backlog.serve (opens p s) s.credentialRekeyBatch (t.backlog s db)) := by
  let batch := (t.backlog s db).take s.credentialRekeyBatch
  let keeps : Credential → Bool := fun c => !(decide (c ∈ batch) && opens p s c)
  have hstale : stale s (tick p s t db)
      = (t.order db.credentials).filter fun c => keeps c && isStale s c := by
    rw [stale, tick_rows t henabled hkey hids]
    refine filter_map_eq_filter (fun c hc hkeeps => ?_) fun c hc hkeeps => ?_
    · obtain ⟨hkeeps, hstale⟩ := Bool.and_eq_true_iff.1 hkeeps
      refine ⟨if_neg fun h => ?_, hstale⟩
      simp [keeps, batch, h.1, h.2] at hkeeps
    · split_ifs with h
      · obtain ⟨plaintext, hread⟩ := opens_eq_true.1 h.2
        exact isStale_of_resealed (reseal_spec (sealedRow_of_opens _ _ hkey hread))
      · have hkeep : keeps c = true := by
          simp only [keeps, Bool.not_eq_true', Bool.and_eq_false_iff, decide_eq_false_iff_not]
          exact not_and_or.1 h |>.imp_right Bool.eq_false_of_not_eq_true
        simpa [hkeep] using hkeeps
  have hserve : Backlog.serve (opens p s) s.credentialRekeyBatch (t.backlog s db)
      = (t.backlog s db).filter keeps := by
    have hnodup : (t.backlog s db).Nodup := by
      refine (backlog_perm t db).nodup_iff.2 ?_
      exact (List.Nodup.of_map _ hids).filter _
    have hsplit := List.take_append_drop s.credentialRekeyBatch (t.backlog s db)
    rw [← hsplit] at hnodup
    have hdisjoint := List.disjoint_of_nodup_append hnodup
    calc Backlog.serve (opens p s) s.credentialRekeyBatch (t.backlog s db)
        = batch.filter keeps ++ ((t.backlog s db).drop s.credentialRekeyBatch).filter keeps := by
          rw [Backlog.serve]
          congr 1
          · exact List.filter_congr fun c hc => by simp [keeps, batch, hc]
          · refine (List.filter_eq_self.2 fun c hc => ?_).symm
            have hnot : c ∉ batch := fun hmem => hdisjoint hmem hc
            simp [keeps, hnot]
      _ = (t.backlog s db).filter keeps := by
          rw [← List.filter_append, hsplit]
  rw [hstale, hserve, ← List.filter_filter]
  exact ((List.perm_insertionSort _ _).filter keeps).symm

/-- A worker that is not enabled, or has no key to seal with, leaves the rows. -/
lemma tick_idle (t : Tick) (db : Database)
    (h : ¬ (s.credentialRekeyEnabled = true ∧ s.credentialsEncKey ≠ [])) :
    (tick p s t db).credentials = t.order db.credentials := by
  rw [tick]
  split
  · rename_i stats db' htick
    rw [rekeyTick] at htick
    split_ifs at htick with hdisabled
    · obtain ⟨-, rfl⟩ := Prod.mk.inj (Except.ok.inj htick)
      rfl
    · obtain ⟨recorded, hrecorded, -⟩ := bind_eq_ok.1 htick
      exact absurd ⟨by simpa using hdisabled, (recordKeyVersions_spec hrecorded).2⟩ h
  · rfl

lemma ids_tick (t : Tick) (hids : (db.credentials.map (·.id)).Nodup) :
    ((tick p s t db).credentials.map (·.id)).Nodup := by
  have hordered := ids_ordered t hids
  by_cases hruns : s.credentialRekeyEnabled = true ∧ s.credentialsEncKey ≠ []
  · rw [tick_rows t hruns.1 hruns.2 hids, List.map_map]
    convert hordered using 1
    refine List.map_congr_left fun c _ => ?_
    rw [Function.comp_apply]
    split_ifs
    · exact sealedRow_id c
    · rfl
  · rw [tick_idle t db hruns]
    exact hordered

lemma rekeyed_of_mem_take (t : Tick) (henabled : s.credentialRekeyEnabled = true)
    (hkey : s.credentialsEncKey ≠ []) (hids : (db.credentials.map (·.id)).Nodup)
    (hc : c ∈ (t.backlog s db).take s.credentialRekeyBatch) (hopens : opens p s c = true) :
    Rekeyed p s c (tick p s t db) := by
  obtain ⟨plaintext, hread⟩ := opens_eq_true.1 hopens
  have hmem : c ∈ t.order db.credentials :=
    (List.mem_filter.1 ((List.mem_insertionSort _).1 (List.mem_of_mem_take hc))).1
  refine ⟨plaintext, _, hread, ?_, reseal_spec (sealedRow_of_opens t.nonces
    t.now hkey hread)⟩
  rw [tick_rows t henabled hkey hids]
  exact List.mem_map.2 ⟨c, hmem, if_pos ⟨hc, hopens⟩⟩

/-- A sweep leaves a row, or reseals it. -/
lemma mem_tick (t : Tick) (hids : (db.credentials.map (·.id)).Nodup) (hc : c ∈ db.credentials) :
    c ∈ (tick p s t db).credentials ∨ isStale s c = true ∧ Rekeyed p s c (tick p s t db) := by
  have hmem : c ∈ t.order db.credentials := (t.perm _).mem_iff.2 hc
  by_cases hruns : s.credentialRekeyEnabled = true ∧ s.credentialsEncKey ≠ []
  · by_cases hbatch : c ∈ (t.backlog s db).take s.credentialRekeyBatch ∧ opens p s c = true
    · have hstale := ((backlog_perm t db).mem_iff.1 (List.mem_of_mem_take hbatch.1))
      exact .inr ⟨(List.mem_filter.1 hstale).2,
        rekeyed_of_mem_take t hruns.1 hruns.2 hids hbatch.1 hbatch.2⟩
    · refine .inl ?_
      rw [tick_rows t hruns.1 hruns.2 hids]
      exact List.mem_map.2 ⟨c, hmem, if_neg hbatch⟩
  · rw [tick_idle t db hruns]
    exact .inl hmem

lemma not_rekeyed_of_mem (hids : (db.credentials.map (·.id)).Nodup) (hc : c ∈ stale s db) :
    ¬ Rekeyed p s c db := by
  rintro ⟨plaintext, c', -, hc', hresealed⟩
  obtain ⟨hmem, hstale⟩ := List.mem_filter.1 hc
  obtain rfl := List.inj_on_of_nodup_map hids hc' hmem hresealed.id
  rw [isStale_of_resealed hresealed] at hstale
  cases hstale

/-! ### Any number of sweeps -/

lemma ids_after (ticks : ℕ → Tick) (hids : (db.credentials.map (·.id)).Nodup) (n : ℕ) :
    ((after p s ticks db n).credentials.map (·.id)).Nodup := by
  induction n with
  | zero => exact hids
  | succ n ih => exact ids_tick (ticks n) ih

lemma mem_or_rekeyed_after (ticks : ℕ → Tick) (hids : (db.credentials.map (·.id)).Nodup)
    (hc : c ∈ db.credentials) (n : ℕ) :
    c ∈ (after p s ticks db n).credentials ∨ Rekeyed p s c (after p s ticks db n) := by
  induction n with
  | zero => exact .inl hc
  | succ n ih =>
      have hids := ids_after (p := p) (s := s) ticks hids n
      rcases ih with hmem | ⟨plaintext, c', hread, hc', hresealed⟩
      · exact (mem_tick (ticks n) hids hmem).imp_right And.right
      · rcases mem_tick (p := p) (s := s) (ticks n) hids hc' with hmem | ⟨hstale, -⟩
        · exact .inr ⟨plaintext, c', hread, hmem, hresealed⟩
        · rw [isStale_of_resealed hresealed] at hstale
          cases hstale

variable (p s) in
/-- A sweep whose table hands out the unreadable rows of a time first. -/
def worstTick : Tick where
  nonces := fun _ => ⟨List.replicate nonceSize 0, List.length_replicate⟩
  now := 0
  order := Backlog.worst (opens p s) (·.updatedAt)
  perm := Backlog.worst_perm

lemma backlog_worstTick (db : Database) :
    ((worstTick p s).backlog s db).Pairwise (Backlog.before (opens p s) (·.updatedAt)) := by
  have hsorted : (stale s ((worstTick p s).ordered db)).Pairwise
      (Backlog.before (opens p s) (·.updatedAt)) := (Backlog.worst_pairwise _).filter _
  have hsame : (worstTick p s).backlog s db = stale s ((worstTick p s).ordered db) :=
    (hsorted.imp Backlog.before.rank_le).insertionSort_eq
  rw [hsame]
  exact hsorted

lemma stale_after_idle (ticks : ℕ → Tick)
    (h : ¬ (s.credentialRekeyEnabled = true ∧ s.credentialsEncKey ≠ [])) (hc : c ∈ stale s db)
    (n : ℕ) : c ∈ stale s (after p s ticks db n) := by
  induction n with
  | zero => exact hc
  | succ n ih =>
      obtain ⟨hmem, hstale⟩ := List.mem_filter.1 ih
      refine List.mem_filter.2 ⟨?_, hstale⟩
      rw [after, tick_idle (ticks n) _ h]
      exact ((ticks n).perm _).mem_iff.2 hmem

/-- What is blocked stays so under these sweeps. -/
lemma stale_after_blocked (henabled : s.credentialRekeyEnabled = true)
    (hkey : s.credentialsEncKey ≠ []) (hids : (db.credentials.map (·.id)).Nodup)
    (hc : Backlog.Blocked (opens p s) (·.updatedAt) s.credentialRekeyBatch (stale s db) c) (n : ℕ) :
    c ∈ stale s (after p s (fun _ => worstTick p s) db n) := by
  refine (Backlog.Blocked.run (fun n => stale s (after p s (fun _ => worstTick p s) db n))
    (fun n => ?_) hc n).mem
  exact ⟨_, backlog_perm _ _, backlog_worstTick _, stale_tick _ henabled hkey (ids_after _ hids n)⟩

/-- **Rekeying makes progress exactly when too few unreadable rows are old.**  A sweep reseals a row,
in whatever order rows of one time come, exactly when the worker is enabled and has a key, and fewer
unreadable rows than a batch are as old as some readable row.  Some number of sweeps reseals every
readable row exactly when that is so of every readable row. -/
theorem rekey_progresses (p : Primitives κ) (s : Settings) (db : Database)
    (hids : (db.credentials.map (·.id)).Nodup) (hsome : ∃ c ∈ stale s db, opens p s c = true) :
    ((∀ t, ∃ c ∈ stale s db, Rekeyed p s c (tick p s t db)) ↔
        s.credentialRekeyEnabled = true ∧ s.credentialsEncKey ≠ [] ∧
          ∃ c ∈ stale s db, opens p s c = true ∧
            Backlog.ahead (opens p s) (·.updatedAt) (stale s db) c < s.credentialRekeyBatch)
      ∧ ((∀ ticks, ∃ n, ∀ c ∈ stale s db, opens p s c = true →
          Rekeyed p s c (after p s ticks db n)) ↔
        s.credentialRekeyEnabled = true ∧ s.credentialsEncKey ≠ [] ∧
          ∀ c ∈ stale s db, opens p s c = true →
            Backlog.ahead (opens p s) (·.updatedAt) (stale s db) c < s.credentialRekeyBatch) := by
  refine ⟨⟨fun hall => ?_, fun ⟨henabled, hkey, c, hc, hopens, hahead⟩ t => ?_⟩,
    fun hall => ?_, fun ⟨henabled, hkey, hreach⟩ ticks => ?_⟩
  · obtain ⟨c, hc, hrekeyed⟩ := hall (worstTick p s)
    have hstays : ∀ h : c ∈ stale s (after p s (fun _ => worstTick p s) db 1), False :=
      fun h => not_rekeyed_of_mem (ids_after _ hids 1) h hrekeyed
    have hruns : s.credentialRekeyEnabled = true ∧ s.credentialsEncKey ≠ [] := by
      by_contra hidle
      exact hstays (stale_after_idle _ hidle hc 1)
    obtain ⟨plaintext, c', hread, -⟩ := hrekeyed
    have hopens : opens p s c = true := opens_eq_true.2 ⟨plaintext, hread⟩
    refine ⟨hruns.1, hruns.2, c, hc, hopens, ?_⟩
    by_contra hahead
    exact hstays (stale_after_blocked hruns.1 hruns.2 hids ⟨hc, hopens, not_lt.1 hahead⟩ 1)
  · have hmem := (backlog_perm t db).mem_iff.2 hc
    have hsorted : (t.backlog s db).Pairwise fun c d => c.updatedAt ≤ d.updatedAt :=
      List.pairwise_insertionSort _ _
    rw [← Backlog.ahead_perm (backlog_perm t db)] at hahead
    obtain ⟨d, hd, hopensd⟩ := Backlog.exists_mem_take hsorted hmem hopens hahead
    exact ⟨d, (backlog_perm t db).mem_iff.1 (List.mem_of_mem_take hd),
      rekeyed_of_mem_take t henabled hkey hids hd hopensd⟩
  · obtain ⟨n, hn⟩ := hall fun _ => worstTick p s
    have hstays : ∀ c ∈ stale s db, opens p s c = true →
        c ∉ stale s (after p s (fun _ => worstTick p s) db n) :=
      fun c hc hopens h => not_rekeyed_of_mem (ids_after _ hids n) h (hn c hc hopens)
    have hruns : s.credentialRekeyEnabled = true ∧ s.credentialsEncKey ≠ [] := by
      by_contra hidle
      obtain ⟨c, hc, hopens⟩ := hsome
      exact hstays c hc hopens (stale_after_idle _ hidle hc n)
    refine ⟨hruns.1, hruns.2, fun c hc hopens => ?_⟩
    by_contra hahead
    exact hstays c hc hopens
      (stale_after_blocked hruns.1 hruns.2 hids ⟨hc, hopens, not_lt.1 hahead⟩ n)
  · obtain ⟨n, hclear⟩ := Backlog.Reachable.clear
      (fun n => stale s (after p s ticks db n)) (fun n => ⟨(ticks n).backlog s _,
        backlog_perm _ _, List.pairwise_insertionSort _ _,
        stale_tick _ henabled hkey (ids_after ticks hids n)⟩) hreach
    refine ⟨n, fun c hc hopens => ?_⟩
    obtain ⟨hmem, hstale⟩ := List.mem_filter.1 hc
    refine (mem_or_rekeyed_after ticks hids hmem n).resolve_left fun hmem => ?_
    have hbad := hclear c (List.mem_filter.2 ⟨hmem, hstale⟩)
    rw [hopens] at hbad
    cases hbad

/-! ### Two tables -/

/-- A row whose key is gone, and a row that is readable. -/
def retiredRow (updatedAt : ℕ) : Credential :=
  ⟨1, 1, "old".toList, sealedUnder "seventh".toList 7, "h2".toList, label 7, none, updatedAt⟩

def readableRow (updatedAt : ℕ) : Credential :=
  ⟨2, 1, "mail".toList, "hunter2".toList, "h2".toList, legacyVersion, none, updatedAt⟩

/-- With room for both in a batch the readable row is resealed. -/
theorem rekey_progresses_twice :
    (∀ t, ∃ c ∈ stale (firstSettings true) ⟨[retiredRow 10, readableRow 20], []⟩,
        Rekeyed rawKeys (firstSettings true) c
          (tick rawKeys (firstSettings true) t ⟨[retiredRow 10, readableRow 20], []⟩))
      ∧ ∀ ticks, ∃ n, ∀ c ∈ stale (firstSettings true) ⟨[retiredRow 10, readableRow 20], []⟩,
        opens rawKeys (firstSettings true) c = true → Rekeyed rawKeys (firstSettings true) c
          (after rawKeys (firstSettings true) ticks ⟨[retiredRow 10, readableRow 20], []⟩ n) := by
  have hprogress := rekey_progresses rawKeys (firstSettings true)
    ⟨[retiredRow 10, readableRow 20], []⟩ (by decide +kernel) (by decide +kernel)
  exact ⟨hprogress.1.2 (by decide +kernel), hprogress.2.2 (by decide +kernel)⟩

def singly : Settings := { firstSettings true with credentialRekeyBatch := 1 }

/-- With batches of one row the row whose key is gone is taken every time, and the other row never. -/
theorem rekey_stalls :
    readableRow 20 ∈ stale singly ⟨[retiredRow 10, readableRow 20], []⟩
      ∧ opens rawKeys singly (readableRow 20) = true
      ∧ rekeyTick rawKeys singly (fun _ => someNonce) 30 ⟨[retiredRow 10, readableRow 20], []⟩
        = .ok (⟨0, 2⟩, ⟨[retiredRow 10, readableRow 20],
            [⟨label 1, rawKeys.digest (deriveKey rawKeys "first".toList), none⟩]⟩) :=
  ⟨by decide +kernel, by decide +kernel, by decide +kernel⟩

end Vault
