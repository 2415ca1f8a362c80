import AgencyOS.Python.Exceptions
import AgencyOS.Vault.CredentialService

/-!
Credentials over any sequence of calls, sweeps and replacements of the encryption key.

Two keys are at hand, the current one and the one before.  A row labelled with the current version is
under the current key, so once a sweep has counted no other row the key before can go.  A worker that
is not enabled also returns no stale rows, and has not counted any.

* `Stored`: the formats of a row, each with the secret it stores;
* `Readable`, `Sound`: the invariant, of the tables and of the whole system;
* `step_sound`: every call keeps it, if keys are replaced after a sweep;
* `Start`: any rows to begin with;
* `credentials_survive`, `credentials_lost`: every run, and a run under a worker that is not enabled.
-/

namespace Vault

open Python Txn.Machine

variable {κ : Type} {p : Primitives κ} {s : Settings}

/-! ### The invariant -/

/-- The row stores the secret: sealed with a key at hand, with its version or without, or verbatim.
Rows that are labelled with the current version are envelopes. -/
inductive Stored (p : Primitives κ) (s : Settings) (secret : Text) (c : Credential) : Prop
  | envelope {n : ℕ} {key : κ} (hversion : c.keyVersion = label n)
      (hkey : keyFor p s (label n) = .ok key)
      (hvalue : Envelope p key (label n) secret c.encryptedValue)
  | legacy {version : Text} {key : κ} (hstale : c.keyVersion ≠ s.credentialKeyVersion)
      (hversion : version ≠ []) (hkey : keyFor p s version = .ok key)
      (hvalue : Legacy p key secret c.encryptedValue)
  | verbatim (hstale : c.keyVersion ≠ s.credentialKeyVersion) (hvalue : c.encryptedValue = secret)
      (hclosed : Verbatim p secret)

/-- Every row reads as what was stored, and is under the current key if it is labelled so. -/
structure Readable (p : Primitives κ) (s : Settings) (stored : ℕ → Option Text) (db : Database) :
    Prop where
  ids : (db.credentials.map (·.id)).Nodup
  row : ∀ id secret, stored id = some secret → ∃ c ∈ db.credentials, c.id = id
  reads : ∀ c ∈ db.credentials, ∃ secret, stored c.id = some secret ∧
    decryptSecret p s c.keyVersion c.encryptedValue = .ok secret
  current : ∀ c ∈ db.credentials, c.keyVersion = s.credentialKeyVersion →
    ∃ secret, stored c.id = some secret ∧ s.credentialsEncKey ≠ [] ∧
      Envelope p (deriveKey p s.credentialsEncKey) s.credentialKeyVersion secret c.encryptedValue

/-- No row is labelled with another version. -/
def Database.Current (db : Database) (version : Text) : Prop :=
  ∀ c ∈ db.credentials, c.keyVersion = version

/-- The version is a number, in the form that is configured. -/
def Settings.Numbered (s : Settings) : Prop :=
  ∃ n, s.credentialKeyVersion = label n ∧ int? (label n) = some n

/-- A tick returned no stale rows since the key was replaced. -/
def System.Reported (x : System) : Prop := ∃ r ∈ x.reports, r.stats.stale = 0

/-- A tick of an enabled worker returned no stale rows since the key was replaced. -/
def System.Swept (x : System) : Prop := ∃ r ∈ x.reports, r.enabled = true ∧ r.stats.stale = 0

instance (x : System) : Decidable x.Reported := by
  unfold System.Reported
  infer_instance

instance (x : System) : Decidable x.Swept := by
  unfold System.Swept
  infer_instance

structure Sound (p : Primitives κ) (x : System) : Prop where
  numbered : x.settings.Numbered
  readable : Readable p x.settings x.stored x.db
  swept : x.Swept →
    x.settings.credentialsEncKey ≠ [] ∧ x.db.Current x.settings.credentialKeyVersion

/-- Keys are replaced when the condition holds. -/
def RotatesWhen (reported : System → Prop) (x : System) : Action → Prop
  | .rotateKey _ => reported x
  | _ => True

instance (reported : System → Prop) [DecidablePred reported] (x : System) (a : Action) :
    Decidable (RotatesWhen reported x a) := by
  cases a <;> unfold RotatesWhen <;> infer_instance

/-- Every credential that was stored is there, and `get_secret` returns its plaintext. -/
structure Served (p : Primitives κ) (x : System) : Prop where
  row : ∀ id secret, x.stored id = some secret → ∃ c ∈ x.db.credentials, c.id = id
  secret : ∀ c ∈ x.db.credentials, ∃ secret, x.stored c.id = some secret ∧
    getSecret p x.settings c.organizationId c.id x.db = .ok secret

/-! ### Sealing a row -/

lemma keyFor_current (h : s.credentialsEncKey ≠ []) :
    keyFor p s s.credentialKeyVersion = .ok (deriveKey p s.credentialsEncKey) := by
  simp [keyFor, keyMaterial, h]

lemma key_ne_nil {key : κ} (h : keyFor p s s.credentialKeyVersion = .ok key) :
    s.credentialsEncKey ≠ [] := by
  intro hnil
  simp [keyFor, keyMaterial, hnil] at h

/-- What is sealed is an envelope under the current key. -/
lemma encrypt_spec {nonce : Nonce} {plaintext value : Text}
    (h : encrypt p s nonce plaintext = .ok value) :
    s.credentialsEncKey ≠ [] ∧
      Envelope p (deriveKey p s.credentialsEncKey) s.credentialKeyVersion plaintext value := by
  obtain ⟨key, hkey, hvalue⟩ := map_eq_ok.1 (mapError_eq_ok.1 h)
  have hne : s.credentialsEncKey ≠ [] := key_ne_nil hkey
  rw [keyFor_current hne] at hkey
  rw [← Except.ok.inj hkey] at hvalue
  exact ⟨hne, nonce.1, nonce.2, hvalue.symm⟩

/-- A row that was read, with its secret sealed under the current key. -/
structure Resealed (p : Primitives κ) (s : Settings) (plaintext : Text) (c c' : Credential) :
    Prop where
  id : c'.id = c.id
  keyVersion : c'.keyVersion = s.credentialKeyVersion
  key : s.credentialsEncKey ≠ []
  value : Envelope p (deriveKey p s.credentialsEncKey) s.credentialKeyVersion plaintext
    c'.encryptedValue

lemma reseal_spec {nonce : Nonce} {now : ℕ} {c c' : Credential} {plaintext : Text}
    (h : reseal p s nonce now c plaintext = .ok c') : Resealed p s plaintext c c' := by
  obtain ⟨value, hvalue, rfl⟩ := map_eq_ok.1 h
  obtain ⟨hkey, henvelope⟩ := encrypt_spec hvalue
  exact ⟨rfl, rfl, hkey, henvelope⟩

/-- An envelope under the current key is read back. -/
lemma reads_current (hs : s.Numbered) (hkey : s.credentialsEncKey ≠ []) {secret value : Text}
    (keyVersion : Text)
    (h : Envelope p (deriveKey p s.credentialsEncKey) s.credentialKeyVersion secret value) :
    decryptSecret p s keyVersion value = .ok secret := by
  obtain ⟨n, hversion, -⟩ := hs
  rw [hversion] at h
  refine decryptSecret_of_envelope keyVersion h ?_
  rw [← hversion]
  exact keyFor_current hkey

lemma decrypt_eq_ok {c : Credential} {plaintext : Text} :
    decrypt p s c = .ok plaintext ↔
      decryptSecret p s c.keyVersion c.encryptedValue = .ok plaintext := by
  rw [decrypt, mapError_eq_ok]

/-! ### Reading and writing rows -/

variable {stored : ℕ → Option Text} {db : Database}

lemma mem_save {c c' : Credential} :
    c' ∈ (db.save c).credentials ↔
      (c' ∈ db.credentials ∧ c'.id ≠ c.id) ∨ (c' = c ∧ ∃ d ∈ db.credentials, d.id = c.id) := by
  rw [Database.save, List.mem_map]
  constructor
  · rintro ⟨d, hd, rfl⟩
    split_ifs with hid
    · exact Or.inr ⟨rfl, d, hd, hid⟩
    · exact Or.inl ⟨hd, hid⟩
  · rintro (⟨hmem, hid⟩ | ⟨rfl, d, hd, hid⟩)
    · exact ⟨c', hmem, if_neg hid⟩
    · exact ⟨d, hd, if_pos hid⟩

lemma ids_save (c : Credential) :
    (db.save c).credentials.map (·.id) = db.credentials.map (·.id) := by
  rw [Database.save, List.map_map]
  refine List.map_congr_left fun d _ => ?_
  show (if d.id = c.id then c else d).id = d.id
  split_ifs with hid
  · exact hid.symm
  · rfl

/-- A row that was read can be written back resealed. -/
lemma Readable.save (h : Readable p s stored db) (hs : s.Numbered) {c c' : Credential}
    {plaintext : Text} (hstored : stored c.id = some plaintext)
    (hc : Resealed p s plaintext c c') : Readable p s stored (db.save c') where
  ids := by
    rw [ids_save]
    exact h.ids
  row := by
    intro id secret hid
    obtain ⟨d, hd, rfl⟩ := h.row id secret hid
    by_cases hsame : d.id = c'.id
    · exact ⟨c', mem_save.2 (Or.inr ⟨rfl, d, hd, hsame⟩), hsame.symm⟩
    · exact ⟨d, mem_save.2 (Or.inl ⟨hd, hsame⟩), rfl⟩
  reads := by
    intro d hd
    obtain ⟨hmem, -⟩ | ⟨rfl, -⟩ := mem_save.1 hd
    · exact h.reads d hmem
    · exact ⟨plaintext, hc.id ▸ hstored, reads_current hs hc.key _ hc.value⟩
  current := by
    intro d hd hversion
    obtain ⟨hmem, -⟩ | ⟨rfl, -⟩ := mem_save.1 hd
    · exact h.current d hmem hversion
    · exact ⟨plaintext, hc.id ▸ hstored, hc.key, hc.value⟩

lemma Database.Current.save {version : Text} (h : db.Current version) {c : Credential}
    (hc : c.keyVersion = version) : (db.save c).Current version := by
  intro d hd
  obtain ⟨hmem, -⟩ | ⟨rfl, -⟩ := mem_save.1 hd
  · exact h d hmem
  · exact hc

lemma getOr404_spec {organizationId id : ℕ} {c : Credential}
    (h : getOr404 organizationId id db = .ok c) :
    c ∈ db.credentials ∧ c.organizationId = organizationId ∧ c.id = id := by
  rw [getOr404] at h
  split at h
  · exact nomatch h
  · rename_i found hfind
    cases Except.ok.inj h
    have hp := List.find?_some hfind
    exact ⟨List.mem_of_find?_eq_some hfind, by simpa using hp⟩

/-- The only row of its identifier is the one that is found. -/
lemma getOr404_of_mem (hids : (db.credentials.map (·.id)).Nodup) {c : Credential}
    (hc : c ∈ db.credentials) : getOr404 c.organizationId c.id db = .ok c := by
  cases hfind : db.get c.organizationId c.id with
  | none =>
      have hnot := List.find?_eq_none.1 hfind c hc
      simp at hnot
  | some d =>
      have hd : getOr404 c.organizationId c.id db = .ok d := by rw [getOr404, hfind]
      obtain ⟨hmem, -, hid⟩ := getOr404_spec hd
      rw [hd, List.inj_on_of_nodup_map hids hmem hc hid]

/-- Only the rows of the credentials count. -/
lemma Readable.congr {db' : Database} (h : Readable p s stored db)
    (hrows : db'.credentials = db.credentials) : Readable p s stored db' where
  ids := by
    rw [hrows]
    exact h.ids
  row := by
    rw [hrows]
    exact h.row
  reads := by
    rw [hrows]
    exact h.reads
  current := by
    rw [hrows]
    exact h.current

/-! ### The service -/

/-- A credential that is created is a new row, sealed under the current key. -/
lemma create_spec {id : ℕ} {data : CredentialCreate} {nonce : Nonce} {now : ℕ} {db' : Database}
    (h : create p s id data nonce now db = .ok db') :
    ∃ c : Credential, db'.credentials = db.credentials ++ [c] ∧ c.id = id ∧
      (∀ d ∈ db.credentials, d.id ≠ id) ∧ Resealed p s data.encryptedValue c c := by
  unfold create at h
  split at h
  · exact nomatch h
  · rename_i organizationId horganization
    split at h
    · exact nomatch h
    · obtain ⟨value, hvalue, h⟩ := bind_eq_ok.1 h
      dsimp only at h
      split_ifs at h with hrefused
      obtain ⟨hkey, henvelope⟩ := encrypt_spec hvalue
      cases Except.ok.inj h
      refine ⟨_, rfl, rfl, fun d hd hid => hrefused ?_, rfl, rfl, hkey, henvelope⟩
      rw [Database.refuses, Bool.or_eq_true]
      exact Or.inr (List.any_eq_true.2 ⟨d, hd, by simp [hid]⟩)

lemma Readable.insert (h : Readable p s stored db) (hs : s.Numbered) {db' : Database}
    {c : Credential} {plaintext : Text} (hrows : db'.credentials = db.credentials ++ [c])
    (hfresh : ∀ d ∈ db.credentials, d.id ≠ c.id) (hc : Resealed p s plaintext c c) :
    Readable p s (Function.update stored c.id (some plaintext)) db' where
  ids := by
    rw [hrows, List.map_append, List.map_singleton, ← List.concat_eq_append]
    refine List.Nodup.concat ?_ h.ids
    intro hmem
    obtain ⟨d, hd, hid⟩ := List.mem_map.1 hmem
    exact hfresh d hd hid
  row := by
    intro id secret hid
    rw [hrows]
    by_cases hsame : id = c.id
    · exact ⟨c, List.mem_append_right _ List.mem_cons_self, hsame.symm⟩
    · rw [Function.update_of_ne hsame] at hid
      obtain ⟨d, hd, rfl⟩ := h.row id secret hid
      exact ⟨d, List.mem_append_left _ hd, rfl⟩
  reads := by
    intro d hd
    rw [hrows, List.mem_append, List.mem_singleton] at hd
    obtain hd | rfl := hd
    · rw [Function.update_of_ne (hfresh d hd)]
      exact h.reads d hd
    · exact ⟨plaintext, Function.update_self .., reads_current hs hc.key _ hc.value⟩
  current := by
    intro d hd hversion
    rw [hrows, List.mem_append, List.mem_singleton] at hd
    obtain hd | rfl := hd
    · rw [Function.update_of_ne (hfresh d hd)]
      exact h.current d hd hversion
    · exact ⟨plaintext, Function.update_self .., hc.key, hc.value⟩

/-- A row that is rotated keeps its secret. -/
lemma rotate_spec (h : Readable p s stored db) {organizationId id : ℕ} {nonce : Nonce} {now : ℕ}
    {db' : Database} (hrotate : rotate p s organizationId id nonce now db = .ok db') :
    ∃ c c' plaintext, db' = db.save c' ∧ stored c.id = some plaintext ∧
      Resealed p s plaintext c c' := by
  obtain ⟨c, hc, hrotate⟩ := bind_eq_ok.1 hrotate
  obtain ⟨plaintext, hplain, hrotate⟩ := bind_eq_ok.1 hrotate
  obtain ⟨c', hc', hrotate⟩ := bind_eq_ok.1 hrotate
  obtain ⟨secret, hstored, hreads⟩ := h.reads c (getOr404_spec hc).1
  rw [decrypt_eq_ok.1 hplain] at hreads
  cases Except.ok.inj hreads
  exact ⟨c, c', plaintext, (Except.ok.inj hrotate).symm, hstored, reseal_spec hc'⟩

/-! ### The worker -/

/-- A round of the sweep keeps the secrets, and labels no row but with the current version. -/
lemma rekeyRow_kept (hs : s.Numbered) {nonces : ℕ → Nonce} {now : ℕ} {sweep sweep' : ℕ × Database}
    {c : Credential} (hsweep : Readable p s stored sweep.2) (hc : ∃ secret, stored c.id = some secret ∧
      decryptSecret p s c.keyVersion c.encryptedValue = .ok secret)
    (h : rekeyRow p s nonces now sweep c = .ok sweep') :
    Readable p s stored sweep'.2 ∧
      (sweep.2.Current s.credentialKeyVersion → sweep'.2.Current s.credentialKeyVersion) := by
  obtain ⟨secret, hstored, hreads⟩ := hc
  rw [rekeyRow, decrypt_eq_ok.2 hreads] at h
  obtain ⟨c', hc', rfl⟩ := map_eq_ok.1 h
  have hresealed := reseal_spec hc'
  exact ⟨hsweep.save hs hstored hresealed, fun hcurrent => hcurrent.save hresealed.keyVersion⟩

lemma recordKeyVersions_spec {db' : Database} (h : recordKeyVersions p s db = .ok db') :
    db'.credentials = db.credentials ∧ s.credentialsEncKey ≠ [] := by
  have hupsert : ∀ (db : Database) version fingerprint,
      (db.upsertKeyVersion version fingerprint).credentials = db.credentials := by
    intro db version fingerprint
    rw [Database.upsertKeyVersion]
    split_ifs <;> rfl
  obtain ⟨fingerprint, hfingerprint, h⟩ := bind_eq_ok.1 h
  obtain ⟨key, hkey, -⟩ := map_eq_ok.1 (mapError_eq_ok.1 hfingerprint)
  refine ⟨?_, key_ne_nil hkey⟩
  dsimp only at h
  split at h
  · cases Except.ok.inj h
    exact hupsert _ _ _
  · obtain ⟨fingerprint', -, h⟩ := bind_eq_ok.1 h
    cases Except.ok.inj h
    rw [hupsert, hupsert]

@[simp] lemma retirePrevious_credentials (now stale : ℕ) :
    (retirePrevious s now stale db).credentials = db.credentials := by
  rw [retirePrevious]
  split
  · split_ifs <;> rfl
  · rfl

/-- No row is stale once none is counted. -/
lemma current_of_countStaleKey {version : Text} (h : db.countStaleKey version = 0) :
    db.Current version := by
  intro c hc
  rw [Database.countStaleKey, List.length_eq_zero_iff, List.filter_eq_nil_iff] at h
  simpa using h c hc

/-- **A sweep keeps the secrets**, and when it counts no stale row every row is labelled with the
current version. -/
lemma rekeyTick_spec (hs : s.Numbered) (h : Readable p s stored db) {nonces : ℕ → Nonce} {now : ℕ}
    {stats : RekeyStats} {db' : Database} (htick : rekeyTick p s nonces now db = .ok (stats, db')) :
    Readable p s stored db' ∧
      (db.Current s.credentialKeyVersion → db'.Current s.credentialKeyVersion) ∧
      (s.credentialRekeyEnabled = true → stats.stale = 0 →
        s.credentialsEncKey ≠ [] ∧ db'.Current s.credentialKeyVersion) := by
  rw [rekeyTick] at htick
  split_ifs at htick with hdisabled
  · obtain ⟨-, rfl⟩ := Prod.mk.inj (Except.ok.inj htick)
    refine ⟨h, id, fun henabled => ?_⟩
    rw [hdisabled] at henabled
    exact nomatch henabled
  · obtain ⟨recorded, hrecorded, htick⟩ := bind_eq_ok.1 htick
    obtain ⟨⟨rekeyed, swept⟩, hswept, htick⟩ := bind_eq_ok.1 htick
    obtain ⟨rfl, rfl⟩ := Prod.mk.inj (Except.ok.inj htick)
    obtain ⟨hrows, hkey⟩ := recordKeyVersions_spec hrecorded
    have hrecordedReads := h.congr hrows
    have hkept : Readable p s stored swept ∧
        (recorded.Current s.credentialKeyVersion → swept.Current s.credentialKeyVersion) := by
      refine foldlM_invariant (I := fun sweep : ℕ × Database => Readable p s stored sweep.2 ∧
        (recorded.Current s.credentialKeyVersion → sweep.2.Current s.credentialKeyVersion))
        ?_ ⟨hrecordedReads, id⟩ hswept
      rintro c hc sweep sweep' ⟨hreads, hcurrent⟩ hround
      have hmem : c ∈ recorded.credentials :=
        (List.mem_filter.1 ((List.mem_insertionSort _).1 (List.mem_of_mem_take hc))).1
      obtain ⟨hreads', hcurrent'⟩ := rekeyRow_kept hs hreads (hrecordedReads.reads c hmem) hround
      exact ⟨hreads', hcurrent' ∘ hcurrent⟩
    refine ⟨hkept.1.congr (retirePrevious_credentials ..), fun hcurrent c hc => ?_,
      fun _ hstale => ⟨hkey, fun c hc => ?_⟩⟩
    · rw [retirePrevious_credentials] at hc
      refine hkept.2 (fun d hd => hcurrent d ?_) c hc
      rw [← hrows]
      exact hd
    · rw [retirePrevious_credentials] at hc
      exact current_of_countStaleKey hstale c hc

/-! ### The settings -/

lemma rotateKey_numbered {newKey : Text} {n : ℕ} (hversion : s.credentialKeyVersion = label n)
    (hn : int? (label n) = some n) (hvalid : (rotateKey s newKey).Valid) :
    (rotateKey s newKey).credentialKeyVersion = label (n + 1) ∧
      int? (label (n + 1)) = some (n + 1) := by
  have hnext : (rotateKey s newKey).credentialKeyVersion = label (n + 1) := by
    rw [rotateKey, hversion, hn, Option.getD_some]
  refine ⟨hnext, ?_⟩
  obtain ⟨version, hread, -⟩ := hvalid
  rw [hnext, label, int?_toDigits] at hread
  split_ifs at hread with hlong
  · exact absurd hread (Option.not_mem_none _)
  · rw [label, int?_toDigits, if_neg hlong]

/-- The key that was current is at hand under the version that was current. -/
lemma keyFor_rotateKey {newKey : Text} {n : ℕ} (hversion : s.credentialKeyVersion = label n)
    (hn : int? (label n) = some n) (hkey : s.credentialsEncKey ≠ [])
    (hvalid : (rotateKey s newKey).Valid) :
    label n ≠ (rotateKey s newKey).credentialKeyVersion ∧
      keyFor p (rotateKey s newKey) (label n) = .ok (deriveKey p s.credentialsEncKey) := by
  obtain ⟨hnext, hread⟩ := rotateKey_numbered hversion hn hvalid
  have hne : label n ≠ label (n + 1) := by
    intro h
    rw [h, hread] at hn
    exact absurd (Option.some.inj hn) (by omega)
  have hprevious : previousVersion (label (n + 1)) = label n := by
    rw [previousVersion, hread]
    rfl
  rw [hnext]
  refine ⟨hne, ?_⟩
  have hmaterial : keyMaterial (rotateKey s newKey) (label n) = some s.credentialsEncKey := by
    rw [keyMaterial, hnext, if_neg hne, hprevious, if_pos ⟨rfl, hkey⟩]
    rfl
  rw [keyFor, hmaterial]

/-- **The key is replaced** without loss once every row is under it. -/
lemma Readable.rotateKey (h : Readable p s stored db) (hs : s.Numbered) {newKey : Text}
    (hvalid : (rotateKey s newKey).Valid) (hkey : s.credentialsEncKey ≠ [])
    (hcurrent : db.Current s.credentialKeyVersion) :
    Readable p (rotateKey s newKey) stored db where
  ids := h.ids
  row := h.row
  reads := by
    intro c hc
    obtain ⟨n, hversion, hn⟩ := hs
    obtain ⟨secret, hstored, -, hvalue⟩ := h.current c hc (hcurrent c hc)
    rw [hversion] at hvalue
    exact ⟨secret, hstored, decryptSecret_of_envelope c.keyVersion hvalue
      (keyFor_rotateKey hversion hn hkey hvalid).2⟩
  current := by
    intro c hc hversion'
    obtain ⟨n, hversion, hn⟩ := hs
    rw [hcurrent c hc, hversion] at hversion'
    exact absurd hversion' (keyFor_rotateKey (p := p) hversion hn hkey hvalid).1

/-! ### Every run -/

lemma Sound.served {x : System} (h : Sound p x) : Served p x where
  row := h.readable.row
  secret := by
    intro c hc
    obtain ⟨secret, hstored, hreads⟩ := h.readable.reads c hc
    refine ⟨secret, hstored, bind_eq_ok.2 ⟨c, getOr404_of_mem h.readable.ids hc, ?_⟩⟩
    exact decrypt_eq_ok.2 hreads

/-- **Every call keeps the secrets**, if the key is replaced after a sweep that found no stale
row. -/
theorem step_sound {x : System} {a : Action} (h : Sound p x) (ha : RotatesWhen System.Swept x a) :
    Sound p (step p x a) := by
  obtain ⟨hs, hreadable, hswept⟩ := h
  cases a with
  | create id data nonce now =>
      rw [step]
      split
      · rename_i db' hcreate
        obtain ⟨c, hrows, rfl, hfresh, hc⟩ := create_spec hcreate
        refine ⟨hs, hreadable.insert hs hrows hfresh hc, fun hreport => ⟨hc.key, fun d hd => ?_⟩⟩
        rw [hrows, List.mem_append, List.mem_singleton] at hd
        obtain hd | rfl := hd
        · exact (hswept hreport).2 d hd
        · exact hc.keyVersion
      · exact ⟨hs, hreadable, hswept⟩
  | rotate organizationId id nonce now =>
      rw [step]
      split
      · rename_i db' hrotate
        obtain ⟨c, c', plaintext, rfl, hstored, hc⟩ := rotate_spec hreadable hrotate
        exact ⟨hs, hreadable.save hs hstored hc,
          fun hreport => ⟨hc.key, (hswept hreport).2.save hc.keyVersion⟩⟩
      · exact ⟨hs, hreadable, hswept⟩
  | rekeyTick nonces now =>
      rw [step]
      split
      · rename_i stats db' htick
        obtain ⟨hreadable', hkept, hcounted⟩ := rekeyTick_spec hs hreadable htick
        refine ⟨hs, hreadable', ?_⟩
        rintro ⟨r, hr, henabled, hstale⟩
        rw [List.mem_append, List.mem_singleton] at hr
        obtain hr | rfl := hr
        · obtain ⟨hkey, hcurrent⟩ := hswept ⟨r, hr, henabled, hstale⟩
          exact ⟨hkey, hkept hcurrent⟩
        · exact hcounted henabled hstale
      · exact ⟨hs, hreadable, hswept⟩
  | rotateKey newKey =>
      rw [step]
      split_ifs with hvalid
      · obtain ⟨hkey, hcurrent⟩ := hswept ha
        obtain ⟨n, hversion, hn⟩ := hs
        refine ⟨⟨n + 1, rotateKey_numbered hversion hn hvalid⟩,
          hreadable.rotateKey ⟨n, hversion, hn⟩ hvalid hkey hcurrent, ?_⟩
        rintro ⟨r, hr, -⟩
        exact absurd hr List.not_mem_nil
      · exact ⟨hs, hreadable, hswept⟩
  | configure rekeyEnabled rekeyBatch =>
      rw [step]
      dsimp only
      split_ifs with hvalid
      · exact ⟨hs, ⟨hreadable.ids, hreadable.row, hreadable.reads, hreadable.current⟩, hswept⟩
      · exact ⟨hs, hreadable, hswept⟩
  | reorder credentials =>
      rw [step]
      split_ifs with hperm
      · have hperm := List.isPerm_iff.1 hperm
        refine ⟨hs, ⟨(hperm.map _).nodup_iff.2 hreadable.ids, fun id secret hid => ?_,
          fun c hc => hreadable.reads c (hperm.mem_iff.1 hc),
          fun c hc => hreadable.current c (hperm.mem_iff.1 hc)⟩,
          fun hreport => ⟨(hswept hreport).1, fun c hc =>
            (hswept hreport).2 c (hperm.mem_iff.1 hc)⟩⟩
        obtain ⟨c, hc, hid⟩ := hreadable.row id secret hid
        exact ⟨c, hperm.mem_iff.2 hc, hid⟩
      · exact ⟨hs, hreadable, hswept⟩

lemma Stored.reads {secret : Text} {c : Credential} (h : Stored p s secret c) :
    decryptSecret p s c.keyVersion c.encryptedValue = .ok secret := by
  cases h with
  | envelope hversion hkey hvalue => exact decryptSecret_of_envelope c.keyVersion hvalue hkey
  | legacy hstale hversion hkey hvalue =>
      exact decryptSecret_of_legacy c.keyVersion hvalue hversion hkey
  | verbatim hstale hvalue hclosed =>
      rw [hvalue]
      exact decryptSecret_of_verbatim c.keyVersion hclosed

lemma Stored.current {secret : Text} {c : Credential} (h : Stored p s secret c)
    (hversion : c.keyVersion = s.credentialKeyVersion) :
    s.credentialsEncKey ≠ [] ∧
      Envelope p (deriveKey p s.credentialsEncKey) s.credentialKeyVersion secret
        c.encryptedValue := by
  cases h with
  | envelope hlabel hkey hvalue =>
      rw [← hlabel, hversion] at hkey hvalue
      have hne := key_ne_nil hkey
      rw [keyFor_current hne] at hkey
      cases Except.ok.inj hkey
      exact ⟨hne, hvalue⟩
  | legacy hstale _ _ _ => exact absurd hversion hstale
  | verbatim hstale _ _ => exact absurd hversion hstale

/-- Any rows to begin with, in whatever formats, and no report yet. -/
structure Start (p : Primitives κ) (x : System) : Prop where
  numbered : x.settings.Numbered
  ids : (x.db.credentials.map (·.id)).Nodup
  row : ∀ id secret, x.stored id = some secret → ∃ c ∈ x.db.credentials, c.id = id
  stored : ∀ c ∈ x.db.credentials, ∃ secret, x.stored c.id = some secret ∧
    Stored p x.settings secret c
  reports : x.reports = []

lemma Start.sound {x : System} (h : Start p x) : Sound p x where
  numbered := h.numbered
  readable :=
    { ids := h.ids
      row := h.row
      reads := by
        intro c hc
        obtain ⟨secret, hstored, hrow⟩ := h.stored c hc
        exact ⟨secret, hstored, hrow.reads⟩
      current := by
        intro c hc hversion
        obtain ⟨secret, hstored, hrow⟩ := h.stored c hc
        exact ⟨secret, hstored, hrow.current hversion⟩ }
  swept := by
    rintro ⟨r, hr, -⟩
    rw [h.reports] at hr
    exact absurd hr List.not_mem_nil

/-- **Credentials survive the replacement of keys**: around every call, and in the end, every
credential reads as what was last stored, if each replacement of the key follows a sweep of an enabled
worker that found no stale row. -/
theorem credentials_survive {x : System} {actions : List Action} (hstart : Start p x)
    (hactions : Every (step p) (RotatesWhen System.Swept) x actions) :
    Served p (run (step p) x actions) ∧
      Every (step p) (fun x a => Served p x ∧ Served p (step p x a)) x actions := by
  obtain ⟨hend, hevery⟩ := hactions.invariant (I := Sound p) (fun x a => step_sound) hstart.sound
  exact ⟨hend.served, hevery.mono fun x a h => ⟨h.1.served, h.2.2.served⟩⟩

/-! ### Two replacements -/

/-- Keys that are the first bytes of the raw text, and their own tag. -/
def rawKeys : Primitives Crypto.TagKey where
  aead := Crypto.keyTag
  hkdf _ _ raw := ⟨((utf8 raw ++ List.replicate 16 0).take 16), by simp⟩
  digest key := key.1.map fun byte => Char.ofNat byte.toNat
  tagSize := rfl

def firstSettings (rekeyEnabled : Bool) : Settings :=
  { secretKey := "secret".toList
    credentialsEncKey := "first".toList
    credentialsEncKeyPrevious := []
    credentialKeyVersion := label 1
    credentialRekeyEnabled := rekeyEnabled
    credentialRekeyBatch := 100 }

def noCredentials (rekeyEnabled : Bool) : System :=
  ⟨firstSettings rekeyEnabled, ⟨[], []⟩, fun _ => none, []⟩

def someNonce : Nonce := ⟨List.replicate 12 7, rfl⟩

/-- A credential, and two replacements of the key, a tick before each. -/
def twoReplacements : List Action :=
  [.create 1 ⟨some 1, "mail".toList, "hunter2".toList, "h2".toList⟩ someNonce 10,
    .rekeyTick (fun _ => someNonce) 20, .rotateKey "second".toList,
    .rekeyTick (fun _ => someNonce) 30, .rotateKey "third".toList]

lemma start_noCredentials (rekeyEnabled : Bool) : Start rawKeys (noCredentials rekeyEnabled) where
  numbered := ⟨1, rfl, by decide⟩
  ids := List.nodup_nil
  row := fun _ _ h => nomatch h
  stored := fun _ hc => absurd hc List.not_mem_nil
  reports := rfl

theorem credentials_survive_two :
    Served rawKeys (run (step rawKeys) (noCredentials true) twoReplacements) ∧
      Every (step rawKeys) (fun x a => Served rawKeys x ∧ Served rawKeys (step rawKeys x a))
        (noCredentials true) twoReplacements :=
  credentials_survive (start_noCredentials true) (by decide +kernel)

/-- A worker that is not enabled returns no stale rows either.  After two replacements the key of the
credential is gone. -/
theorem credentials_lost :
    Start rawKeys (noCredentials false) ∧
      Every (step rawKeys) (RotatesWhen System.Reported) (noCredentials false) twoReplacements ∧
      (run (step rawKeys) (noCredentials false) twoReplacements).stored 1 =
        some "hunter2".toList ∧
      getSecret rawKeys (run (step rawKeys) (noCredentials false) twoReplacements).settings 1 1
        (run (step rawKeys) (noCredentials false) twoReplacements).db =
        .error (.crypto (.unsupportedVersion (label 1))) :=
  ⟨start_noCredentials false, by decide +kernel, by decide +kernel, by decide +kernel⟩

end Vault
