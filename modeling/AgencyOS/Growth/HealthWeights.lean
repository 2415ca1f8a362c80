import AgencyOS.Txn.UniqueIndex

/-!
The versions of the health weights of an organization.

A call that saves new weights reads the active version, deactivates every version of the
organization and inserts the next one, and then commits.  The one index that backs it keeps two
versions from being active together; it says nothing of their numbers.

* `GrowthHealthWeight`, `healthWeights`, `activeKey`: the table, its statements and its index;
* `active`, `deactivateAll`, `upsertHealthWeights`: the repository and the service;
* `Current`, `Advances`: the one active version is the greatest, and a commit that adds a greater one;
* `Undisturbed`: nobody has committed since the call that commits read the active version.
-/

namespace Growth

open Txn

/-! ### The table -/

structure GrowthHealthWeight where
  organizationId : ℕ
  version : ℕ
  weights : List (String × ℚ)
  isActive : Bool
  createdByUserId : Option ℕ
  deriving DecidableEq, Repr

inductive HealthWeightUpdate where
  | deactivate (organizationId : ℕ)

inductive HealthWeightQuery where
  | active (organizationId : ℕ)
  | ofOrganization (organizationId : ℕ)

def HealthWeightUpdate.act : HealthWeightUpdate → GuardedUpdate GrowthHealthWeight
  | deactivate organizationId => {
      guard := fun r => r.organizationId = organizationId
      set := fun r => { r with isActive := false } }

def HealthWeightQuery.matching : HealthWeightQuery → GrowthHealthWeight → Bool
  | active organizationId => fun r => r.organizationId = organizationId && r.isActive
  | ofOrganization organizationId => fun r => r.organizationId = organizationId

/-- The table of health weights and the statements put to it. -/
@[reducible] def healthWeights : Schema where
  Table := Unit
  Row := fun _ => GrowthHealthWeight
  Update := HealthWeightUpdate
  target := fun _ => ()
  act := HealthWeightUpdate.act
  Insert := GrowthHealthWeight
  into := fun _ => ()
  new := fun x => x
  Query := HealthWeightQuery
  source := fun _ => ()
  matching := HealthWeightQuery.matching

/-- `uq_growth_health_weights_org_active`. -/
def activeKey : Index healthWeights ℕ := fun _ (r : GrowthHealthWeight) =>
  if r.isActive then some r.organizationId else none

abbrev WeightDb (ι : Type) : Type := Db healthWeights ι

abbrev weightServer (ι : Type) [DecidableEq ι] : Server (indexedSql healthWeights) ι (WeightDb ι) :=
  indexedServer activeKey ι

/-! ### The repository and the service -/

inductive WeightError where
  | integrityError
  | multipleResultsFound
  deriving DecidableEq, Repr

abbrev WeightTx (α : Type) : Type := Prog (indexedSql healthWeights) WeightError α

/-- One statement; a refused one raises `IntegrityError`. -/
def execute (q : Sql healthWeights) : WeightTx q.Resp := executeOr .integrityError q

/-- `scalar_one_or_none`. -/
def scalarOneOrNone : List (ℕ × GrowthHealthWeight) → WeightTx (Option GrowthHealthWeight)
  | [] => .ret none
  | [row] => .ret (some row.2)
  | _ => .raise .multipleResultsFound

/-- The active version of an organization. -/
def active (organizationId : ℕ) : WeightTx (Option GrowthHealthWeight) :=
  (execute (.scan (HealthWeightQuery.active organizationId))).bind scalarOneOrNone

/-- One `UPDATE` of every version of the organization: the rows picked by the statement, each
rechecked under its lock. -/
def deactivateAll (organizationId : ℕ) : WeightTx ℕ :=
  (execute (.scan (HealthWeightQuery.ofOrganization organizationId))).bind fun rows =>
    Prog.tally rows fun row =>
      (execute (.update (HealthWeightUpdate.deactivate organizationId) row.1)).bind fun r =>
        .ret (if r.isSome then 1 else 0)

/-- The number after that of the active version. -/
def nextVersion (active : Option GrowthHealthWeight) : ℕ :=
  (active.map GrowthHealthWeight.version).getD 0 + 1

/-- `upsert_health_weights`, in a session that rolls back when it raises. -/
def upsertHealthWeights (organizationId : ℕ) (weights : List (String × ℚ))
    (createdByUserId : Option ℕ) : WeightTx GrowthHealthWeight :=
  ((active organizationId).bind fun current =>
    (deactivateAll organizationId).bind fun _ =>
      let row : GrowthHealthWeight := {
        organizationId := organizationId
        version := nextVersion current
        weights := weights
        isActive := true
        createdByUserId := createdByUserId }
      (execute (.insert row)).bind fun _ =>
        (execute .commit).bind fun _ => .ret row).tryCatch fun e =>
          (execute .rollback).bind fun _ => .raise e

/-! ### What the versions promise -/

variable {ι : Type} {org : ℕ} {s s' s₀ : WeightDb ι}

/-- The organization has the committed version `r` under `n`. -/
def HasVersion (org : ℕ) (s : WeightDb ι) (n : ℕ) (r : GrowthHealthWeight) : Prop :=
  s.committed () n = some r ∧ r.organizationId = org

/-- Exactly one version is active, it is greater than the others, and no two have one number. -/
structure Current (org : ℕ) (s : WeightDb ι) : Prop where
  distinct : ∀ m n r r', HasVersion org s m r → HasVersion org s n r' → r.version = r'.version →
    m = n
  greatest : ∃ n r, HasVersion org s n r ∧ r.isActive = true ∧
    ∀ m r', HasVersion org s m r' → m ≠ n → r'.isActive = false ∧ r'.version < r.version

/-- The organization has no versions yet, or a current one. -/
def Consistent (org : ℕ) (s : WeightDb ι) : Prop :=
  (∀ n r, ¬ HasVersion org s n r) ∨ Current org s

abbrev WeightEvent (ι : Type) : Type := Event (indexedSql healthWeights) ι (WeightDb ι)

/-- The event leaves a current version, and what it adds is greater than what was there. -/
structure Advances (org : ℕ) (ev : WeightEvent ι) : Prop where
  current : Current org ev.after
  increasing : ∀ n r, HasVersion org ev.after n r → ev.before.committed () n = none →
    ∀ m r', HasVersion org ev.before m r' → r'.version < r.version

/-- Since the first event `h`, nobody has committed anything. -/
def Unchanged (h : List (WeightEvent ι)) (ev : WeightEvent ι) : Prop :=
  ∀ ev₀ ∈ h.head?, ev₀.before.committed = ev.before.committed

/-- A call commits what it has built on the versions that are still there: nobody has committed
since its first statement, which reads the active version. -/
def Undisturbed [DecidableEq ι] (past : List (WeightEvent ι)) (ev : WeightEvent ι) : Prop :=
  ev.stmt = .commit → Unchanged (own ev.pid past) ev

end Growth
