import AgencyOS.Txn.Machine
import AgencyOS.Vault.Crypto

/-!
The credential service and the rekey worker.

Calls follow one another, each in a transaction of its own.  A nonce is drawn for every value that is
sealed, and enters as an argument.

* `Credential`, `CredentialKeyVersion`, `Database`: the tables, and the queries of the repository;
* `create`, `getSecret`, `rotate`: the service;
* `rekeyTick`: one sweep of the worker;
* `rotateKey`: the settings after the encryption key is replaced;
* `System`, `step`: the calls as a machine, with what was stored and reported beside it.
-/

namespace Vault

open Python

/-! ### Tables -/

structure Credential where
  id : ℕ
  organizationId : ℕ
  name : Text
  encryptedValue : Text
  valuePreview : Text
  keyVersion : Text
  lastRotatedAt : Option ℕ
  updatedAt : ℕ
  deriving DecidableEq, Repr

structure CredentialKeyVersion where
  version : Text
  keyFingerprint : Text
  retiredAt : Option ℕ
  deriving DecidableEq, Repr

structure Database where
  credentials : List Credential
  keyVersions : List CredentialKeyVersion
  deriving DecidableEq, Repr

inductive CredentialError where
  | organizationRequired
  | nameTaken
  | notFound
  | crypto (error : CryptoError)
  deriving DecidableEq, Repr

namespace Database

variable (db : Database)

def get (organizationId id : ℕ) : Option Credential :=
  db.credentials.find? fun c => c.organizationId = organizationId ∧ c.id = id

def getByName (organizationId : ℕ) (name : Text) : Option Credential :=
  db.credentials.find? fun c => c.organizationId = organizationId ∧ c.name = name

/-- Writes a row that was read. -/
def save (c : Credential) : Database :=
  { db with credentials := db.credentials.map fun c' => if c'.id = c.id then c else c' }

/-- The constraints of the table refuse the row. -/
def refuses (c : Credential) : Bool :=
  c.name.all (· = ' ') || c.valuePreview = [] ||
    db.credentials.any fun c' =>
      c'.id = c.id || (c'.organizationId = c.organizationId && c'.name = c.name)

/-- `list_stale_key`; rows of one time come in the order of the table. -/
def listStaleKey (currentVersion : Text) (limit : ℕ) : List Credential :=
  ((db.credentials.filter (·.keyVersion ≠ currentVersion)).insertionSort
    (·.updatedAt ≤ ·.updatedAt)).take limit

/-- `count_stale_key`. -/
def countStaleKey (currentVersion : Text) : ℕ :=
  (db.credentials.filter (·.keyVersion ≠ currentVersion)).length

/-- `upsert_key_version`. -/
def upsertKeyVersion (version fingerprint : Text) : Database :=
  if db.keyVersions.any (·.version = version) then
    { db with keyVersions := db.keyVersions.map fun row =>
        if row.version = version then { row with keyFingerprint := fingerprint } else row }
  else { db with keyVersions := db.keyVersions ++ [⟨version, fingerprint, none⟩] }

/-- `retire_key_version`. -/
def retireKeyVersion (version : Text) (now : ℕ) : Database :=
  { db with keyVersions := db.keyVersions.map fun row =>
      if row.version = version ∧ row.retiredAt = none then { row with retiredAt := some now }
      else row }

end Database

/-! ### The service -/

variable {κ : Type} (p : Primitives κ) (s : Settings)

/-- The bytes drawn for one value. -/
abbrev Nonce : Type := { bytes : List UInt8 // bytes.length = nonceSize }

structure CredentialCreate where
  organizationId : Option ℕ
  name : Text
  encryptedValue : Text
  valuePreview : Text
  deriving DecidableEq, Repr

def encrypt (nonce : Nonce) (plaintext : Text) : Except CredentialError Text :=
  (encryptSecret p s nonce.1 plaintext).mapError .crypto

def decrypt (c : Credential) : Except CredentialError Text :=
  (decryptSecret p s c.keyVersion c.encryptedValue).mapError .crypto

/-- `create`, with the identifier that is drawn. -/
def create (id : ℕ) (data : CredentialCreate) (nonce : Nonce) (now : ℕ) (db : Database) :
    Except CredentialError Database :=
  match data.organizationId with
  | none => .error .organizationRequired
  | some organizationId =>
      if (db.getByName organizationId data.name).isSome then .error .nameTaken
      else do
        let value ← encrypt p s nonce data.encryptedValue
        let c : Credential :=
          { id, organizationId, name := data.name, encryptedValue := value,
            valuePreview := data.valuePreview, keyVersion := s.credentialKeyVersion,
            lastRotatedAt := none, updatedAt := now }
        if db.refuses c then .error .nameTaken
        else .ok { db with credentials := db.credentials ++ [c] }

/-- `get_or_404`. -/
def getOr404 (organizationId id : ℕ) (db : Database) : Except CredentialError Credential :=
  match db.get organizationId id with
  | none => .error .notFound
  | some c => .ok c

/-- `get_secret`. -/
def getSecret (organizationId id : ℕ) (db : Database) : Except CredentialError Text := do
  let c ← getOr404 organizationId id db
  decrypt p s c

/-- The row with the plaintext sealed under the current key. -/
def reseal (nonce : Nonce) (now : ℕ) (c : Credential) (plaintext : Text) :
    Except CredentialError Credential :=
  (encrypt p s nonce plaintext).map fun value =>
    { c with
      encryptedValue := value
      keyVersion := s.credentialKeyVersion
      lastRotatedAt := some now
      updatedAt := now }

/-- `rotate`. -/
def rotate (organizationId id : ℕ) (nonce : Nonce) (now : ℕ) (db : Database) :
    Except CredentialError Database := do
  let c ← getOr404 organizationId id db
  let plaintext ← decrypt p s c
  let c ← reseal p s nonce now c plaintext
  .ok (db.save c)

/-! ### The worker -/

structure RekeyStats where
  rekeyed : ℕ
  stale : ℕ
  deriving DecidableEq, Repr

/-- One row of the batch: a row that does not decrypt is skipped. -/
def rekeyRow (nonces : ℕ → Nonce) (now : ℕ) (sweep : ℕ × Database) (c : Credential) :
    Except CredentialError (ℕ × Database) :=
  match decrypt p s c with
  | .error _ => .ok sweep
  | .ok plaintext =>
      (reseal p s (nonces c.id) now c plaintext).map fun c => (sweep.1 + 1, sweep.2.save c)

/-- The key versions in use are recorded, with their fingerprints. -/
def recordKeyVersions (db : Database) : Except CredentialError Database := do
  let fingerprint ← (keyFingerprint p s s.credentialKeyVersion).mapError .crypto
  let db := db.upsertKeyVersion s.credentialKeyVersion fingerprint
  match previousKeyVersion s with
  | none => .ok db
  | some previous => do
      let fingerprint ← (keyFingerprint p s previous).mapError .crypto
      .ok (db.upsertKeyVersion previous fingerprint)

/-- The version before is retired once no row is stale. -/
def retirePrevious (now stale : ℕ) (db : Database) : Database :=
  match previousKeyVersion s with
  | some previous => if stale = 0 then db.retireKeyVersion previous now else db
  | none => db

/-- `rekey_tick`. -/
def rekeyTick (nonces : ℕ → Nonce) (now : ℕ) (db : Database) :
    Except CredentialError (RekeyStats × Database) :=
  if s.credentialRekeyEnabled = false then .ok (⟨0, 0⟩, db)
  else do
    let db ← recordKeyVersions p s db
    let batch := db.listStaleKey s.credentialKeyVersion s.credentialRekeyBatch
    let (rekeyed, db) ← batch.foldlM (rekeyRow p s nonces now) (0, db)
    let stale := db.countStaleKey s.credentialKeyVersion
    .ok (⟨rekeyed, stale⟩, retirePrevious s now stale db)

/-! ### Settings -/

/-- `_validate_enc_key`. -/
def Settings.Valid : Prop :=
  ∃ version ∈ int? s.credentialKeyVersion, 1 ≤ version ∧
    (s.credentialsEncKeyPrevious ≠ [] → 2 ≤ version) ∧ 1 ≤ s.credentialRekeyBatch

instance : Decidable s.Valid :=
  inferInstanceAs (Decidable (∃ version ∈ int? s.credentialKeyVersion, _))

/-- The settings with another encryption key: the old one moves to the previous-key setting, and the
version goes up by one. -/
def rotateKey (newKey : Text) : Settings :=
  { s with
    credentialsEncKey := newKey
    credentialsEncKeyPrevious := s.credentialsEncKey
    credentialKeyVersion := label ((int? s.credentialKeyVersion).getD 0 + 1) }

/-! ### The machine -/

/-- What a tick returned, and whether the worker was enabled. -/
structure Report where
  enabled : Bool
  stats : RekeyStats
  deriving DecidableEq, Repr

/-- The service and its settings.  Beside them: the plaintext last stored for each credential, and
the reports of the worker since the encryption key was replaced. -/
structure System where
  settings : Settings
  db : Database
  stored : ℕ → Option Text
  reports : List Report

inductive Action where
  | create (id : ℕ) (data : CredentialCreate) (nonce : Nonce) (now : ℕ)
  | rotate (organizationId id : ℕ) (nonce : Nonce) (now : ℕ)
  | rekeyTick (nonces : ℕ → Nonce) (now : ℕ)
  | rotateKey (newKey : Text)
  | configure (rekeyEnabled : Bool) (rekeyBatch : ℕ)
  | reorder (credentials : List Credential)

/-- One call.  A call that fails leaves the system as it was, and settings that are not valid do not
come into force.  The rows of a table have no order of their own. -/
def step (x : System) : Action → System
  | .create id data nonce now =>
      match create p x.settings id data nonce now x.db with
      | .ok db => { x with db, stored := Function.update x.stored id (some data.encryptedValue) }
      | .error _ => x
  | .rotate organizationId id nonce now =>
      match rotate p x.settings organizationId id nonce now x.db with
      | .ok db => { x with db }
      | .error _ => x
  | .rekeyTick nonces now =>
      match rekeyTick p x.settings nonces now x.db with
      | .ok (stats, db) =>
          { x with db, reports := x.reports ++ [⟨x.settings.credentialRekeyEnabled, stats⟩] }
      | .error _ => x
  | .rotateKey newKey =>
      if (rotateKey x.settings newKey).Valid then
        { x with settings := rotateKey x.settings newKey, reports := [] }
      else x
  | .configure rekeyEnabled rekeyBatch =>
      let settings :=
        { x.settings with credentialRekeyEnabled := rekeyEnabled, credentialRekeyBatch := rekeyBatch }
      if settings.Valid then { x with settings } else x
  | .reorder credentials =>
      if credentials.isPerm x.db.credentials then { x with db := { x.db with credentials } } else x

end Vault
