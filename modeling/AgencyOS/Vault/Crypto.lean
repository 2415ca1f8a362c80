import AgencyOS.Crypto.Aead
import AgencyOS.Python.Base64
import AgencyOS.Python.Text

/-!
Encryption of stored credentials.

A credential is stored as an envelope, which names the version of the key it is under.  Values from
before that are an envelope without a version, or the secret itself.

* `Settings`, `Primitives`: the configuration, and the functions of the cryptography library;
* `keyMaterial`, `keyFor`: the key of a version, the current one or the one before;
* `parseEnvelope`, `legacyCandidates`, `encryptSecret`, `decryptSecret`: the envelopes;
* `Envelope`, `decryptSecret_of_envelope`: what is read from an envelope, under any settings;
* `Legacy`, `Verbatim`, `decryptSecret_of_legacy`, `decryptSecret_of_verbatim`: the values from
  before.
-/

namespace Vault

open Python

abbrev Text := List Char

structure Settings where
  secretKey : Text
  credentialsEncKey : Text
  credentialsEncKeyPrevious : Text
  credentialKeyVersion : Text
  credentialRekeyEnabled : Bool
  credentialRekeyBatch : ℕ
  deriving DecidableEq, Repr

/-- AES-GCM, HKDF for a salt and an info, and the SHA-256 digest of a key. -/
structure Primitives (κ : Type) where
  aead : Crypto.Aead κ
  hkdf : String → String → Text → κ
  digest : κ → Text
  tagSize : aead.tagSize = 16

inductive CryptoError where
  | unsupportedVersion (version : Text)
  | invalidTag
  | unicodeDecodeError
  deriving DecidableEq, Repr

/-! ### Keys -/

variable {κ : Type} (p : Primitives κ) (s : Settings)

/-- `_derive_key`. -/
def deriveKey (raw : Text) : κ :=
  p.hkdf "agencyos-credential-salt" "agencyos-credential-encryption" raw

/-- The label of a version. -/
def label (n : ℕ) : Text := Nat.toDigits 10 n

/-- `_LEGACY_VERSION`. -/
def legacyVersion : Text := ['0']

/-- `_previous_version`. -/
def previousVersion (current : Text) : Text :=
  match int? current with
  | some n => label (n - 1)
  | none => legacyVersion

/-- `_key_material`. -/
def keyMaterial (version : Text) : Option Text :=
  if version = s.credentialKeyVersion then
    if s.credentialsEncKey = [] then none else some s.credentialsEncKey
  else if version = previousVersion s.credentialKeyVersion ∧ s.credentialsEncKeyPrevious ≠ [] then
    some s.credentialsEncKeyPrevious
  else none

/-- `_key_for`. -/
def keyFor (version : Text) : Except CryptoError κ :=
  match keyMaterial s version with
  | some raw => .ok (deriveKey p raw)
  | none => .error (.unsupportedVersion version)

/-- `previous_key_version`. -/
def previousKeyVersion : Option Text :=
  if s.credentialsEncKeyPrevious = [] then none else some (previousVersion s.credentialKeyVersion)

/-- `key_fingerprint`. -/
def keyFingerprint (version : Text) : Except CryptoError Text :=
  (keyFor p s version).map p.digest

/-! ### Envelopes -/

def nonceSize : ℕ := 12

/-- `_MIN_BLOB_LENGTH`. -/
def minBlobLength : ℕ := nonceSize + 16

def isAsciiDigit (c : Char) : Bool := '0' ≤ c && c ≤ '9'

/-- `_parse_envelope`. -/
def parseEnvelope (value : Text) : Option (Text × List UInt8) :=
  match value with
  | 'v' :: rest =>
      match rest.dropWhile isAsciiDigit with
      | ':' :: encoded =>
          if rest.takeWhile isAsciiDigit = [] then none
          else
            match b64decode encoded with
            | some blob =>
                if blob.length < minBlobLength then none
                else some (rest.takeWhile isAsciiDigit, blob)
            | none => none
      | _ => none
  | _ => none

/-- `_legacy_candidates`: the known versions among the one stored, the current and the previous. -/
def legacyCandidates (dbVersion : Text) : List Text :=
  ([dbVersion, s.credentialKeyVersion, previousVersion s.credentialKeyVersion].foldl
    (fun known version =>
      if version ≠ [] ∧ version ∉ known ∧ (keyMaterial s version).isSome then known ++ [version]
      else known) [])

/-- `encrypt_secret`, with the nonce that is drawn. -/
def encryptSecret (nonce : List UInt8) (plaintext : Text) : Except CryptoError Text :=
  (keyFor p s s.credentialKeyVersion).map fun key =>
    'v' :: s.credentialKeyVersion ++
      ':' :: b64encode (nonce ++ p.aead.encrypt key nonce (utf8 plaintext))

/-- Opens a blob: the nonce, and what it sealed. -/
def openBlob (key : κ) (blob : List UInt8) : Option (List UInt8) :=
  p.aead.decrypt key (blob.take nonceSize) (blob.drop nonceSize)

def decodeText (bytes : List UInt8) : Except CryptoError Text :=
  match utf8? bytes with
  | some text => .ok text
  | none => .error .unicodeDecodeError

/-- The first of the versions under which the blob opens. -/
def openLegacy (versions : List Text) (blob : List UInt8) : Option (List UInt8) :=
  versions.findSome? fun version =>
    match keyFor p s version with
    | .ok key => openBlob p key blob
    | .error _ => none

/-- `decrypt_secret`. -/
def decryptSecret (keyVersion value : Text) : Except CryptoError Text :=
  match parseEnvelope value with
  | some (version, blob) =>
      match keyFor p s version with
      | .error e => .error e
      | .ok key =>
          match openBlob p key blob with
          | some bytes => decodeText bytes
          | none => .error .invalidTag
  | none =>
      match b64decode value with
      | none => .ok value
      | some blob =>
          if blob.length < minBlobLength then .ok value
          else
            match openLegacy p s (legacyCandidates s keyVersion) blob with
            | some bytes => decodeText bytes
            | none => .ok value

/-! ### What is read back -/

variable {p s}

/-- The value is an envelope of the secret, under a key with the label of its version. -/
def Envelope (p : Primitives κ) (key : κ) (version secret value : Text) : Prop :=
  ∃ nonce : List UInt8, nonce.length = nonceSize ∧
    value = 'v' :: version ++ ':' :: b64encode (nonce ++ p.aead.encrypt key nonce (utf8 secret))

lemma isAsciiDigit_label (n : ℕ) : ∀ c ∈ label n, isAsciiDigit c = true := by
  intro c hc
  have hdigit := Nat.isDigit_of_mem_toDigits (by decide) (by decide) hc
  simpa [isAsciiDigit, Char.isDigit, Char.le_def] using hdigit

lemma length_blob (key : κ) {nonce : List UInt8} (hnonce : nonce.length = nonceSize)
    (text : List UInt8) : ¬ (nonce ++ p.aead.encrypt key nonce text).length < minBlobLength := by
  rw [List.length_append, p.aead.length_encrypt, p.tagSize, hnonce, minBlobLength]
  omega

lemma openBlob_encrypt (key : κ) {nonce : List UInt8} (hnonce : nonce.length = nonceSize)
    (text : List UInt8) : openBlob p key (nonce ++ p.aead.encrypt key nonce text) = some text := by
  rw [openBlob, ← hnonce, List.take_left, List.drop_left, p.aead.decrypt_encrypt]

lemma openBlob_other {key key' : κ} (hkey : key ≠ key') {nonce : List UInt8}
    (hnonce : nonce.length = nonceSize) (text : List UInt8) :
    openBlob p key' (nonce ++ p.aead.encrypt key nonce text) = none := by
  rw [openBlob, ← hnonce, List.take_left, List.drop_left,
    p.aead.decrypt_other key key' nonce text hkey]

lemma parseEnvelope_of_envelope {key : κ} {n : ℕ} {secret value : Text}
    (h : Envelope p key (label n) secret value) :
    ∃ blob, parseEnvelope value = some (label n, blob) ∧
      openBlob p key blob = some (utf8 secret) := by
  obtain ⟨nonce, hnonce, rfl⟩ := h
  have hne : label n ≠ [] := Nat.toDigits_ne_nil
  have hcolon : isAsciiDigit ':' = false := by decide
  have htake : ∀ rest, (label n ++ ':' :: rest).takeWhile isAsciiDigit = label n := by
    intro rest
    rw [List.takeWhile_append_of_pos (isAsciiDigit_label n),
      List.takeWhile_cons_of_neg (by simp [hcolon]), List.append_nil]
  have hdrop : ∀ rest, (label n ++ ':' :: rest).dropWhile isAsciiDigit = ':' :: rest := by
    intro rest
    rw [List.dropWhile_append_of_pos (isAsciiDigit_label n),
      List.dropWhile_cons_of_neg (by simp [hcolon])]
  refine ⟨_, ?_, openBlob_encrypt key hnonce (utf8 secret)⟩
  simp only [parseEnvelope, List.cons_append, htake, hdrop, if_neg hne, b64decode_b64encode,
    if_neg (length_blob key hnonce (utf8 secret))]

/-- **An envelope is read back** under any settings that have its key for its version. -/
theorem decryptSecret_of_envelope {key : κ} {n : ℕ} {secret value : Text} (keyVersion : Text)
    (h : Envelope p key (label n) secret value) (hkey : keyFor p s (label n) = .ok key) :
    decryptSecret p s keyVersion value = .ok secret := by
  obtain ⟨blob, hparse, hopen⟩ := parseEnvelope_of_envelope h
  rw [decryptSecret, hparse]
  dsimp only
  rw [hkey]
  dsimp only
  rw [hopen]
  dsimp only
  rw [decodeText, utf8?_utf8]

/-! ### The values from before -/

/-- The value is an envelope of the secret without a version. -/
def Legacy (p : Primitives κ) (key : κ) (secret value : Text) : Prop :=
  ∃ nonce : List UInt8, nonce.length = nonceSize ∧
    value = b64encode (nonce ++ p.aead.encrypt key nonce (utf8 secret))

/-- The value is a text that no key opens. -/
def Verbatim (p : Primitives κ) (value : Text) : Prop :=
  parseEnvelope value = none ∧ ∀ blob, b64decode value = some blob →
    ¬ blob.length < minBlobLength → ∀ key, openBlob p key blob = none

lemma parseEnvelope_b64encode (bytes : List UInt8) : parseEnvelope (b64encode bytes) = none := by
  have hcolon : ':' ∉ b64encode bytes := by
    intro h
    rcases mem_b64encode h with h | h
    · exact absurd h (by decide +kernel)
    · exact absurd h (by decide)
  unfold parseEnvelope
  split
  · rename_i rest heq
    split
    · rename_i encoded hdrop
      refine absurd ?_ hcolon
      rw [heq]
      refine List.mem_cons_of_mem _ ((List.dropWhile_suffix isAsciiDigit).subset ?_)
      rw [hdrop]
      exact List.mem_cons_self
    · rfl
  · rfl

/-- The versions that are tried are those among the three that have a key. -/
lemma mem_legacyCandidates {dbVersion version : Text} :
    version ∈ legacyCandidates s dbVersion ↔
      version ∈ [dbVersion, s.credentialKeyVersion, previousVersion s.credentialKeyVersion] ∧
        version ≠ [] ∧ (keyMaterial s version).isSome := by
  suffices hfold : ∀ versions known : List Text,
      version ∈ versions.foldl (fun known version =>
          if version ≠ [] ∧ version ∉ known ∧ (keyMaterial s version).isSome then known ++ [version]
          else known) known ↔
        version ∈ known ∨
          version ∈ versions ∧ version ≠ [] ∧ (keyMaterial s version).isSome by
    rw [legacyCandidates, hfold, or_iff_right List.not_mem_nil]
  intro versions
  induction versions with
  | nil => simp
  | cons v versions ih =>
      intro known
      rw [List.foldl_cons, ih]
      split_ifs with hv
      · rw [List.mem_append, List.mem_singleton, List.mem_cons]
        constructor
        · rintro ((h | rfl) | ⟨h, hknown⟩)
          · exact Or.inl h
          · exact Or.inr ⟨Or.inl rfl, hv.1, hv.2.2⟩
          · exact Or.inr ⟨Or.inr h, hknown⟩
        · rintro (h | ⟨rfl | h, hknown⟩)
          · exact Or.inl (Or.inl h)
          · exact Or.inl (Or.inr rfl)
          · exact Or.inr ⟨h, hknown⟩
      · rw [List.mem_cons]
        constructor
        · rintro (h | ⟨h, hknown⟩)
          · exact Or.inl h
          · exact Or.inr ⟨Or.inr h, hknown⟩
        · rintro (h | ⟨rfl | h, hknown⟩)
          · exact Or.inl h
          · refine Or.inl ?_
            by_contra hmem
            exact hv ⟨hknown.1, hmem, hknown.2⟩
          · exact Or.inr ⟨h, hknown⟩

lemma keyMaterial_isSome {version : Text} {key : κ} (h : keyFor p s version = .ok key) :
    (keyMaterial s version).isSome := by
  rw [keyFor] at h
  cases hraw : keyMaterial s version with
  | some raw => rfl
  | none =>
      rw [hraw] at h
      exact nomatch h

/-- A version with a key is the current one or the one before. -/
lemma version_of_keyFor {version : Text} {key : κ} (h : keyFor p s version = .ok key) :
    version = s.credentialKeyVersion ∨ version = previousVersion s.credentialKeyVersion := by
  have hraw := keyMaterial_isSome h
  rw [keyMaterial] at hraw
  by_cases hcurrent : version = s.credentialKeyVersion
  · exact Or.inl hcurrent
  · by_cases hprevious :
        version = previousVersion s.credentialKeyVersion ∧ s.credentialsEncKeyPrevious ≠ []
    · exact Or.inr hprevious.1
    · rw [if_neg hcurrent, if_neg hprevious] at hraw
      exact nomatch hraw

/-- Whatever key comes first, the blob opens to what was sealed. -/
lemma openLegacy_encrypt {versions : List Text} {version : Text} {key : κ} {nonce text : List UInt8}
    (hnonce : nonce.length = nonceSize) (hmem : version ∈ versions)
    (hkey : keyFor p s version = .ok key) :
    openLegacy p s versions (nonce ++ p.aead.encrypt key nonce text) = some text := by
  rw [openLegacy]
  induction versions with
  | nil => exact absurd hmem List.not_mem_nil
  | cons v versions ih =>
      rw [List.findSome?_cons]
      cases hv : keyFor p s v with
      | error e =>
          dsimp only
          refine ih ((List.mem_cons.1 hmem).resolve_left ?_)
          rintro rfl
          rw [hkey] at hv
          exact nomatch hv
      | ok k =>
          dsimp only
          by_cases hk : key = k
          · rw [← hk, openBlob_encrypt key hnonce text]
          · rw [openBlob_other hk hnonce text]
            refine ih ((List.mem_cons.1 hmem).resolve_left ?_)
            rintro rfl
            rw [hkey] at hv
            exact hk (Except.ok.inj hv)

/-- **An envelope without a version is read back** while its key is the current one or the one
before. -/
theorem decryptSecret_of_legacy {key : κ} {version secret value : Text} (keyVersion : Text)
    (h : Legacy p key secret value) (hversion : version ≠ [])
    (hkey : keyFor p s version = .ok key) : decryptSecret p s keyVersion value = .ok secret := by
  obtain ⟨nonce, hnonce, rfl⟩ := h
  have hmem : version ∈ legacyCandidates s keyVersion := by
    refine mem_legacyCandidates.2 ⟨?_, hversion, keyMaterial_isSome hkey⟩
    rcases version_of_keyFor hkey with h | h
    · simp [h]
    · simp [h]
  rw [decryptSecret, parseEnvelope_b64encode]
  dsimp only
  rw [b64decode_b64encode]
  dsimp only
  rw [if_neg (length_blob key hnonce (utf8 secret)), openLegacy_encrypt hnonce hmem hkey]
  dsimp only
  rw [decodeText, utf8?_utf8]

/-- **A text is read as it is** unless a key opens it. -/
theorem decryptSecret_of_verbatim {value : Text} (keyVersion : Text) (h : Verbatim p value) :
    decryptSecret p s keyVersion value = .ok value := by
  obtain ⟨hparse, hclosed⟩ := h
  rw [decryptSecret, hparse]
  dsimp only
  cases hblob : b64decode value with
  | none => rfl
  | some blob =>
      dsimp only
      split_ifs with hshort
      · rfl
      · have hopen : openLegacy p s (legacyCandidates s keyVersion) blob = none := by
          rw [openLegacy, List.findSome?_eq_none_iff]
          intro version hmem
          cases keyFor p s version with
          | error e => rfl
          | ok key => exact hclosed blob hblob hshort key
        rw [hopen]

end Vault
