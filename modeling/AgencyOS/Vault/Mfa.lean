import AgencyOS.Vault.KeyRotation

/-!
The second factor under a replaced encryption key.

The shared secret of a user is sealed under a key from the same settings as the credentials, without
a version and without a key before.  It is read back just when the settings still give the key that
sealed it.

* `mfaMaterial`, `mfaKey`, `encryptMfaSecret`, `decryptMfaSecret`: the primitives;
* `enroll`, `activate`, `pendingSecret`, `verifyFactor`: the service;
* `Enrolled`, `enrolled_of_activate`: the users with a second factor;
* `decryptMfaSecret_self`, `decryptMfaSecret_other`: what is read back under other settings;
* `mfa_survives_iff`: the secret of an enrolled user after the key is replaced;
* `verifyFactor_of_lost`: a user whose secret is lost has recovery codes at most.
-/

namespace Vault

open Python

variable {κ : Type} (p : Primitives κ) (s : Settings)

/-! ### Primitives -/

/-- The text that the key is derived from. -/
def mfaMaterial : Text := if s.credentialsEncKey = [] then s.secretKey else s.credentialsEncKey

/-- `_key`. -/
def mfaKey : κ := p.hkdf "agencyos-mfa-salt" "agencyos-mfa-secret-v1" (mfaMaterial s)

inductive MfaError where
  | binascii
  | invalidTag
  | unicodeDecodeError
  | alreadyEnabled
  | notEnrolled
  | invalidCode
  deriving DecidableEq, Repr

/-- `encrypt_mfa_secret`. -/
def encryptMfaSecret (nonce : Nonce) (plaintext : Text) : Text :=
  b64encode (nonce.1 ++ p.aead.encrypt (mfaKey p s) nonce.1 (utf8 plaintext))

/-- `decrypt_mfa_secret`. -/
def decryptMfaSecret (value : Text) : Except MfaError Text :=
  match b64decode value with
  | none => .error .binascii
  | some blob =>
      match openBlob p (mfaKey p s) blob with
      | none => .error .invalidTag
      | some bytes =>
          match utf8? bytes with
          | none => .error .unicodeDecodeError
          | some text => .ok text

/-! ### The service -/

structure User where
  mfaEnabled : Bool
  mfaSecretEnc : Option Text
  deriving DecidableEq, Repr

/-- `enroll`, with the secret that is drawn. -/
def enroll (nonce : Nonce) (secret : Text) (user : User) : Except MfaError User :=
  if user.mfaEnabled then .error .alreadyEnabled
  else .ok { user with mfaSecretEnc := some (encryptMfaSecret p s nonce secret) }

/-- `_pending_secret`. -/
def pendingSecret (user : User) : Option Text :=
  match user.mfaSecretEnc with
  | none => none
  | some value => if value = [] then none else (decryptMfaSecret p s value).toOption

/-- `activate`, with `verify_code` as a function of secret and code. -/
def activate (verifyCode : Text → Text → Bool) (code : Text) (user : User) :
    Except MfaError User :=
  if user.mfaEnabled then .error .alreadyEnabled
  else
    match pendingSecret p s user with
    | none => .error .notEnrolled
    | some secret =>
        if verifyCode secret code then .ok { user with mfaEnabled := true }
        else .error .invalidCode

/-- `_verify_factor`, with `verify_code` and `_consume_recovery_code` as functions. -/
def verifyFactor (verifyCode : Text → Text → Bool) (consumeRecoveryCode : Text → Bool) (user : User)
    (code : Text) : Bool :=
  match pendingSecret p s user with
  | some secret => verifyCode secret code || consumeRecoveryCode code
  | none => consumeRecoveryCode code

/-! ### What is read back -/

variable {p s}

/-- The second factor of the user is on, with this secret. -/
structure Enrolled (p : Primitives κ) (s : Settings) (secret : Text) (user : User) : Prop where
  mfaEnabled : user.mfaEnabled = true
  mfaSecretEnc : ∃ nonce, user.mfaSecretEnc = some (encryptMfaSecret p s nonce secret)

lemma decryptMfaSecret_self {s' : Settings} (nonce : Nonce) (secret : Text)
    (hkey : mfaKey p s' = mfaKey p s) :
    decryptMfaSecret p s' (encryptMfaSecret p s nonce secret) = .ok secret := by
  rw [decryptMfaSecret, encryptMfaSecret, b64decode_b64encode, hkey]
  dsimp only
  rw [openBlob_encrypt _ nonce.2]
  dsimp only
  rw [utf8?_utf8]

/-- Under another key nothing is read. -/
lemma decryptMfaSecret_other {s' : Settings} (nonce : Nonce) (secret : Text)
    (hkey : mfaKey p s' ≠ mfaKey p s) :
    decryptMfaSecret p s' (encryptMfaSecret p s nonce secret) = .error .invalidTag := by
  rw [decryptMfaSecret, encryptMfaSecret, b64decode_b64encode]
  dsimp only
  rw [openBlob_other hkey.symm nonce.2]

lemma encryptMfaSecret_ne_nil (nonce : Nonce) (secret : Text) :
    encryptMfaSecret p s nonce secret ≠ [] := by
  intro hnil
  have hread := b64decode_b64encode (nonce.1 ++ p.aead.encrypt (mfaKey p s) nonce.1 (utf8 secret))
  rw [encryptMfaSecret] at hnil
  rw [hnil] at hread
  have hblob : [] = nonce.1 ++ p.aead.encrypt (mfaKey p s) nonce.1 (utf8 secret) :=
    Option.some.inj hread
  have hnonce : nonce.1 = [] := (List.append_eq_nil_iff.1 hblob.symm).1
  have hsize : (0 : ℕ) = 12 := by
    calc (0 : ℕ) = nonce.1.length := by rw [hnonce, List.length_nil]
      _ = 12 := nonce.2
  omega

/-- The pending secret of a user who has one is what decrypts. -/
lemma pendingSecret_eq {user : User} {nonce : Nonce} {secret : Text} (s' : Settings)
    (h : user.mfaSecretEnc = some (encryptMfaSecret p s nonce secret)) :
    pendingSecret p s' user =
      (decryptMfaSecret p s' (encryptMfaSecret p s nonce secret)).toOption := by
  rw [pendingSecret, h]
  dsimp only
  rw [if_neg (encryptMfaSecret_ne_nil nonce secret)]

/-- A user who enrolls and activates has the second factor on, with the secret that was drawn. -/
theorem enrolled_of_activate {verifyCode : Text → Text → Bool} {code secret : Text} {nonce : Nonce}
    {user pending user' : User} (henroll : enroll p s nonce secret user = .ok pending)
    (hactivate : activate p s verifyCode code pending = .ok user') :
    Enrolled p s secret user' ∧ verifyCode secret code = true := by
  rw [enroll] at henroll
  split_ifs at henroll with hbefore
  cases Except.ok.inj henroll
  have hpending : pendingSecret p s { user with
      mfaSecretEnc := some (encryptMfaSecret p s nonce secret) } = some secret := by
    rw [pendingSecret_eq s rfl, decryptMfaSecret_self nonce secret rfl]
    rfl
  rw [activate, hpending] at hactivate
  dsimp only at hactivate
  split_ifs at hactivate with hcode
  cases Except.ok.inj hactivate
  exact ⟨⟨rfl, nonce, rfl⟩, hcode⟩

/-! ### The key is replaced -/

/-- Other settings read the secret just if they give the same key, and nothing else instead. -/
lemma pendingSecret_of_enrolled {secret : Text} {user : User} (h : Enrolled p s secret user)
    (s' : Settings) :
    (mfaKey p s' = mfaKey p s → pendingSecret p s' user = some secret) ∧
      (mfaKey p s' ≠ mfaKey p s → pendingSecret p s' user = none) := by
  obtain ⟨-, nonce, hvalue⟩ := h
  rw [pendingSecret_eq s' hvalue]
  constructor
  · intro hkey
    rw [decryptMfaSecret_self nonce secret hkey]
    rfl
  · intro hkey
    rw [decryptMfaSecret_other nonce secret hkey]
    rfl

/-- A user whose key is gone is left with recovery codes, whatever the authenticator shows. -/
theorem verifyFactor_of_lost {secret : Text} {user : User} {s' : Settings}
    (h : Enrolled p s secret user) (hkey : mfaKey p s' ≠ mfaKey p s)
    (verifyCode : Text → Text → Bool) (consumeRecoveryCode : Text → Bool) (code : Text) :
    verifyFactor p s' verifyCode consumeRecoveryCode user code = consumeRecoveryCode code := by
  rw [verifyFactor, (pendingSecret_of_enrolled h s').2 hkey]

/-- **The secret of an enrolled user survives** a replacement of the encryption key just when the
material of the key stays the same. -/
theorem mfa_survives_iff {secret : Text} {user : User} {newKey : Text}
    (henrolled : Enrolled p s secret user)
    (hhkdf : mfaKey p (rotateKey s newKey) = mfaKey p s →
      mfaMaterial (rotateKey s newKey) = mfaMaterial s) :
    pendingSecret p (rotateKey s newKey) user = some secret ↔
      mfaMaterial (rotateKey s newKey) = mfaMaterial s := by
  obtain ⟨hsame, hother⟩ := pendingSecret_of_enrolled henrolled (rotateKey s newKey)
  constructor
  · intro hread
    by_contra hmaterial
    rw [hother fun hkey => hmaterial (hhkdf hkey)] at hread
    exact nomatch hread
  · intro hmaterial
    refine hsame ?_
    rw [mfaKey, hmaterial, mfaKey]

/-- A user with a second factor under the first key. -/
def firstUser : User := ⟨true, some (encryptMfaSecret rawKeys (firstSettings true) someNonce
  "JBSWY3DP".toList)⟩

lemma enrolled_firstUser : Enrolled rawKeys (firstSettings true) "JBSWY3DP".toList firstUser :=
  ⟨rfl, someNonce, rfl⟩

theorem mfa_survives_iff_second :
    pendingSecret rawKeys (rotateKey (firstSettings true) "second".toList) firstUser =
        some "JBSWY3DP".toList ↔
      mfaMaterial (rotateKey (firstSettings true) "second".toList) =
        mfaMaterial (firstSettings true) :=
  mfa_survives_iff enrolled_firstUser fun hkey => absurd hkey (by decide +kernel)

/-- The key is replaced, a credential of the old key is still read, and the second factor is lost. -/
theorem mfa_lost :
    Enrolled rawKeys (firstSettings true) "JBSWY3DP".toList firstUser ∧
      pendingSecret rawKeys (firstSettings true) firstUser = some "JBSWY3DP".toList ∧
      (rotateKey (firstSettings true) "second".toList).Valid ∧
      pendingSecret rawKeys (rotateKey (firstSettings true) "second".toList) firstUser = none ∧
      (encryptSecret rawKeys (firstSettings true) someNonce.1 "hunter2".toList).bind
          (decryptSecret rawKeys (rotateKey (firstSettings true) "second".toList) (label 1)) =
        .ok "hunter2".toList :=
  ⟨enrolled_firstUser, (pendingSecret_of_enrolled enrolled_firstUser _).1 rfl, by decide +kernel,
    (pendingSecret_of_enrolled enrolled_firstUser _).2 (by decide +kernel), by decide +kernel⟩

end Vault
