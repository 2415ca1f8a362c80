import AgencyOS.Vault.KeyRotation

/-!
Stored values that were damaged, or whose key is gone.

What is not an envelope, and is opened by no key at hand as one without a version, is taken for a secret
that was never sealed.  So a damaged value is returned as it is, and the worker seals it as a new
secret.

* `Unforged`: nothing but the secret comes out of the value;
* `Recognised`: the value is still an envelope, or one without a version that a key opens;
* `decryptSecret_of_recognised`, `decryptSecret_of_not_recognised`: what is read in either case;
* `sealed_or_raised`: **the secret or an exception comes out exactly of the values recognised**, and the
  worker seals the stored string itself of all others.
-/

namespace Vault

open Python

variable {κ : Type} {p : Primitives κ} {s : Settings} {secret value keyVersion : Text}

/-- No key at hand opens the value to anything but the secret: nobody without a key can seal. -/
structure Unforged (p : Primitives κ) (s : Settings) (secret value : Text) : Prop where
  envelope : ∀ {version blob key bytes}, parseEnvelope value = some (version, blob) →
    keyFor p s version = .ok key → openBlob p key blob = some bytes → bytes = utf8 secret
  legacy : ∀ {version blob key bytes}, b64decode value = some blob →
    keyFor p s version = .ok key → openBlob p key blob = some bytes → bytes = utf8 secret

/-- The value is an envelope, or one without a version that a key at hand opens. -/
def Recognised (p : Primitives κ) (s : Settings) (keyVersion value : Text) : Prop :=
  (parseEnvelope value).isSome ∨ ∃ blob, b64decode value = some blob ∧
    ¬ blob.length < minBlobLength ∧ (openLegacy p s (legacyCandidates s keyVersion) blob).isSome

/-! ### Lengths -/

lemma length_le_of_b64decode {cs : List Char} {bytes : List UInt8} (h : b64decode cs = some bytes) :
    bytes.length ≤ cs.length := by
  fun_induction b64decode cs generalizing bytes with
  | case1 =>
      obtain rfl := Option.some.inj h
      simp
  | case2 p q r s cs _ _ _ _ _ _ _ _ ih =>
      obtain ⟨rest, hrest, rfl⟩ := Option.map_eq_some_iff.1 h
      have hle := ih hrest
      simp only [List.length_cons]
      omega
  | case3 | case5 =>
      obtain rfl := Option.some.inj h
      simp only [List.length_cons, List.length_nil]
      omega
  | case4 | case6 | case7 | case8 => cases h

lemma length_le_length_utf8 (cs : List Char) : cs.length ≤ (utf8 cs).length := by
  have hsize : ∀ cs : List Char, cs.length ≤ (String.ofList cs).utf8ByteSize := by
    intro cs
    induction cs with
    | nil => exact Nat.zero_le _
    | cons c cs ih =>
        rw [String.ofList_cons, String.utf8ByteSize_append, String.utf8ByteSize_singleton,
          List.length_cons]
        have hpos : 0 < c.utf8Size := c.utf8Size_pos
        omega
  exact hsize cs

/-- What a blob opens to is shorter than the blob. -/
lemma length_of_openBlob {key : κ} {blob bytes : List UInt8} (h : openBlob p key blob = some bytes) :
    bytes.length < blob.length := by
  have hsealed := (p.aead.decrypt_eq_some ..).1 h
  have hlength := congrArg List.length hsealed
  rw [p.aead.length_encrypt, p.tagSize, List.length_drop] at hlength
  omega

lemma length_le_of_parseEnvelope {version : Text} {blob : List UInt8}
    (h : parseEnvelope value = some (version, blob)) : blob.length ≤ value.length := by
  unfold parseEnvelope at h
  split at h
  · rename_i rest
    split at h
    · rename_i encoded hdrop
      split_ifs at h
      split at h
      · rename_i blob' hblob
        split_ifs at h
        obtain ⟨-, rfl⟩ := Prod.mk.inj (Option.some.inj h)
        have hsuffix := (List.dropWhile_suffix isAsciiDigit (l := rest)).length_le
        have hle := length_le_of_b64decode hblob
        rw [hdrop, List.length_cons] at hsuffix
        rw [List.length_cons]
        omega
      · cases h
    · cases h
  · cases h

/-! ### What is read -/

lemma decodeText_unforged {bytes : List UInt8} (h : bytes = utf8 secret) :
    decodeText bytes = .ok secret := by
  rw [h, decodeText, utf8?_utf8]

/-- What a blob of the value opens to is the secret, which is shorter than the value. -/
lemma read_unforged {key : κ} {blob bytes : List UInt8} (hbytes : bytes = utf8 secret)
    (hopen : openBlob p key blob = some bytes) (hle : blob.length ≤ value.length) :
    decodeText bytes = .ok secret ∧ secret.length < value.length := by
  refine ⟨decodeText_unforged hbytes, ?_⟩
  calc secret.length ≤ (utf8 secret).length := length_le_length_utf8 secret
    _ = bytes.length := by rw [hbytes]
    _ < blob.length := length_of_openBlob hopen
    _ ≤ value.length := hle

/-- The version under which a blob opens has a key. -/
lemma openLegacy_spec {versions : List Text} {blob bytes : List UInt8}
    (h : openLegacy p s versions blob = some bytes) :
    ∃ version key, keyFor p s version = .ok key ∧ openBlob p key blob = some bytes := by
  obtain ⟨version, -, hversion⟩ := List.exists_of_findSome?_eq_some h
  cases hkey : keyFor p s version with
  | error e =>
      rw [hkey] at hversion
      cases hversion
  | ok key =>
      rw [hkey] at hversion
      exact ⟨version, key, hkey, hversion⟩

/-- A value that is recognised reads as the secret, or raises. -/
lemma decryptSecret_of_recognised (hu : Unforged p s secret value)
    (hr : Recognised p s keyVersion value) :
    (∃ e, decryptSecret p s keyVersion value = .error e)
      ∨ decryptSecret p s keyVersion value = .ok secret ∧ secret.length < value.length := by
  cases hparse : parseEnvelope value with
  | some envelope =>
      obtain ⟨version, blob⟩ := envelope
      rw [decryptSecret, hparse]
      dsimp only
      cases hkey : keyFor p s version with
      | error e => exact .inl ⟨e, rfl⟩
      | ok key =>
          dsimp only
          cases hopen : openBlob p key blob with
          | none => exact .inl ⟨_, rfl⟩
          | some bytes =>
              exact .inr (read_unforged (hu.envelope hparse hkey hopen) hopen
                (length_le_of_parseEnvelope hparse))
  | none =>
      rw [Recognised, hparse] at hr
      obtain ⟨blob, hblob, hlong, hsome⟩ := hr.resolve_left (by simp)
      obtain ⟨bytes, hbytes⟩ := Option.isSome_iff_exists.1 hsome
      obtain ⟨version, key, hkey, hopen⟩ := openLegacy_spec hbytes
      rw [decryptSecret, hparse]
      dsimp only
      rw [hblob]
      dsimp only
      rw [if_neg hlong, hbytes]
      exact .inr (read_unforged (hu.legacy hblob hkey hopen) hopen (length_le_of_b64decode hblob))

/-- A value that is not recognised reads as itself. -/
lemma decryptSecret_of_not_recognised (hr : ¬ Recognised p s keyVersion value) :
    decryptSecret p s keyVersion value = .ok value := by
  rw [Recognised, not_or] at hr
  obtain ⟨hparse, hlegacy⟩ := hr
  rw [decryptSecret, Option.not_isSome_iff_eq_none.1 hparse]
  dsimp only
  cases hblob : b64decode value with
  | none => rfl
  | some blob =>
      dsimp only
      split_ifs with hshort
      · rfl
      · cases hopen : openLegacy p s (legacyCandidates s keyVersion) blob with
        | none => rfl
        | some bytes => exact absurd ⟨blob, hblob, hshort, by simp [hopen]⟩ hlegacy

/-! ### The worker -/

/-- The worker seals what it has read. -/
lemma rekeyRow_of_ok (hkey : s.credentialsEncKey ≠ []) (nonces : ℕ → Nonce) (now : ℕ)
    (sweep : ℕ × Database) {c : Credential} {plaintext : Text}
    (h : decryptSecret p s c.keyVersion c.encryptedValue = .ok plaintext) :
    ∃ c', rekeyRow p s nonces now sweep c = .ok (sweep.1 + 1, sweep.2.save c')
      ∧ Resealed p s plaintext c c' := by
  have hencrypt : ∃ value, encrypt p s (nonces c.id) plaintext = .ok value :=
    ⟨_, mapError_eq_ok.2 (by rw [encryptSecret, keyFor_current hkey]; rfl)⟩
  obtain ⟨value, hvalue⟩ := hencrypt
  have hreseal : reseal p s (nonces c.id) now c plaintext = .ok
      { c with
        encryptedValue := value
        keyVersion := s.credentialKeyVersion
        lastRotatedAt := some now
        updatedAt := now } := by
    rw [reseal, hvalue]
    rfl
  refine ⟨_, ?_, reseal_spec hreseal⟩
  rw [rekeyRow, decrypt_eq_ok.2 h]
  dsimp only
  rw [hreseal]
  rfl

/-- The worker skips what it cannot read. -/
lemma rekeyRow_of_error (nonces : ℕ → Nonce) (now : ℕ) (sweep : ℕ × Database) {c : Credential}
    {e : CryptoError} (h : decryptSecret p s c.keyVersion c.encryptedValue = .error e) :
    rekeyRow p s nonces now sweep c = .ok sweep := by
  rw [rekeyRow, decrypt, h]
  rfl

/-- **A stored value reads as the secret or raises, and never reads as itself, exactly when it is
recognised**; then the worker skips its row or seals the secret, and otherwise it seals the stored
string as a new secret. -/
theorem sealed_or_raised (p : Primitives κ) (s : Settings) (secret value keyVersion : Text)
    (hu : Unforged p s secret value) :
    ((∀ text, decryptSecret p s keyVersion value = .ok text → text = secret ∧ text ≠ value)
        ↔ Recognised p s keyVersion value)
      ∧ ∀ (c : Credential) (nonces : ℕ → Nonce) (now : ℕ) (sweep : ℕ × Database),
        c.encryptedValue = value → c.keyVersion = keyVersion → s.credentialsEncKey ≠ [] →
        (Recognised p s keyVersion value → rekeyRow p s nonces now sweep c = .ok sweep
          ∨ ∃ c', rekeyRow p s nonces now sweep c = .ok (sweep.1 + 1, sweep.2.save c')
            ∧ Resealed p s secret c c')
        ∧ (¬ Recognised p s keyVersion value →
          ∃ c', rekeyRow p s nonces now sweep c = .ok (sweep.1 + 1, sweep.2.save c')
            ∧ Resealed p s value c c') := by
  refine ⟨⟨fun hall => ?_, fun hr text htext => ?_⟩, ?_⟩
  · by_contra hr
    exact (hall value (decryptSecret_of_not_recognised hr)).2 rfl
  · rcases decryptSecret_of_recognised hu hr with ⟨e, he⟩ | ⟨hsecret, hlt⟩
    · rw [he] at htext
      cases htext
    · rw [hsecret] at htext
      obtain rfl := Except.ok.inj htext
      refine ⟨rfl, ?_⟩
      rintro rfl
      exact lt_irrefl _ hlt
  · rintro c nonces now sweep rfl rfl hkey
    refine ⟨fun hr => ?_, fun hr => ?_⟩
    · rcases decryptSecret_of_recognised hu hr with ⟨e, he⟩ | ⟨hsecret, -⟩
      · exact .inl (rekeyRow_of_error nonces now sweep he)
      · exact .inr (rekeyRow_of_ok hkey nonces now sweep hsecret)
    · exact rekeyRow_of_ok hkey nonces now sweep (decryptSecret_of_not_recognised hr)

/-! ### Two values -/

/-- A value that was sealed under the key of a version. -/
def sealedUnder (raw : Text) (n : ℕ) : Text :=
  'v' :: label n ++ ':' :: b64encode (someNonce.1
    ++ rawKeys.aead.encrypt (deriveKey rawKeys raw) someNonce.1 (utf8 "hunter2".toList))

/-- A value under a key that is gone is recognised, and raises. -/
theorem sealed_or_raised_retired :
    Recognised rawKeys (firstSettings true) (label 7) (sealedUnder "seventh".toList 7)
      ∧ ∀ text, decryptSecret rawKeys (firstSettings true) (label 7)
          (sealedUnder "seventh".toList 7) = .ok text →
        text = "hunter2".toList ∧ text ≠ sealedUnder "seventh".toList 7 := by
  have hversion : (parseEnvelope (sealedUnder "seventh".toList 7)).map Prod.fst = some (label 7) := by
    decide +kernel
  have hnone : b64decode (sealedUnder "seventh".toList 7) = none := by decide +kernel
  have hu : Unforged rawKeys (firstSettings true) "hunter2".toList
      (sealedUnder "seventh".toList 7) := by
    refine ⟨fun hparse hkey _ => ?_, fun hblob => ?_⟩
    · rw [hparse] at hversion
      obtain rfl := Option.some.inj hversion
      have hraw : keyMaterial (firstSettings true) (label 7) = none := by decide +kernel
      have hsome := keyMaterial_isSome hkey
      rw [hraw] at hsome
      cases hsome
    · rw [hnone] at hblob
      cases hblob
  have hr : Recognised rawKeys (firstSettings true) (label 7) (sealedUnder "seventh".toList 7) := by
    refine .inl ?_
    rw [← Option.isSome_map (f := Prod.fst), hversion]
    rfl
  exact ⟨hr, (sealed_or_raised _ _ _ _ _ hu).1.2 hr⟩

/-- A value whose last letter was cut off is returned as the secret. -/
theorem damaged_value_read :
    Envelope rawKeys (deriveKey rawKeys "first".toList) (label 1) "hunter2".toList
        (sealedUnder "first".toList 1)
      ∧ keyFor rawKeys (firstSettings true) (label 1) = .ok (deriveKey rawKeys "first".toList)
      ∧ Unforged rawKeys (firstSettings true) "hunter2".toList
        (sealedUnder "first".toList 1).dropLast
      ∧ decryptSecret rawKeys (firstSettings true) (label 1) (sealedUnder "first".toList 1).dropLast
        = .ok (sealedUnder "first".toList 1).dropLast := by
  have hparse : parseEnvelope (sealedUnder "first".toList 1).dropLast = none := by decide +kernel
  have hblob : b64decode (sealedUnder "first".toList 1).dropLast = none := by decide +kernel
  refine ⟨⟨someNonce.1, someNonce.2, rfl⟩, rfl, ⟨fun h => ?_, fun h => ?_⟩, ?_⟩
  · rw [hparse] at h
    cases h
  · rw [hblob] at h
    cases h
  · refine decryptSecret_of_not_recognised fun hr => ?_
    rw [Recognised, hparse, hblob] at hr
    rcases hr with hr | ⟨_, hr, -⟩
    · cases hr
    · cases hr

end Vault
