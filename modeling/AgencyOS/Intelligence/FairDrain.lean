import AgencyOS.Intelligence.TopCap
import AgencyOS.Txn.Drain

/-!
Whether the triage worker comes round to every organization.

Each pass of the worker takes the first organizations, by their creation, that may need a sweep.
Being swept does not take an organization out of the selection, which follows from its sources.

* `TriageTables`, `candidateOrgs`: the tables that the selection reads, and the organizations that
  it matches;
* `FairDrain`: every organization that stays a candidate is swept again and again;
* `fairDrain_iff`: **so it is exactly if each of them finds a pass in which the organizations created
  no later than it fit into the limit**;
* `not_fairDrain_busy`: an older organization that is always taken.
-/

namespace Intelligence

open Python Txn

structure Organization where
  id : ℕ
  createdAt : ℤ
  deriving DecidableEq, Repr

/-- The tables that `candidate_orgs` reads. -/
structure TriageTables where
  organizations : List Organization
  recommendations : List GrowthRecommendation
  insights : List BusinessInsight
  analyses : List GrowthAnalysis
  leads : List Lead
  signals : List IntelligenceSignal
  organizationIds : (organizations.map Organization.id).Nodup

/-- The `UNION ALL` of the selection: an organization for every row that asks for a sweep. -/
def candidateOrgIds (t : TriageTables) : List ℕ :=
  (t.recommendations.filter fun r => r.status = .active).map GrowthRecommendation.organizationId
    ++ (t.insights.filter fun r => r.status = .active).map BusinessInsight.organizationId
    ++ (t.analyses.filter fun r => r.status = .completed).map GrowthAnalysis.organizationId
    ++ (t.leads.filter fun r => r.deletedAt.isNone && pipelineStatuses.contains r.status
        && r.dealValue.any (pipelineValueThreshold ≤ ·)).map Lead.organizationId
    ++ (t.signals.filter fun r => r.status = .active).map IntelligenceSignal.organizationId

/-- The organizations that `candidate_orgs` matches, before its order and its `LIMIT`. -/
def candidateOrgs (t : TriageTables) : List Organization :=
  t.organizations.filter fun o => (candidateOrgIds t).contains o.id

lemma nodup_candidateOrgs (t : TriageTables) : (candidateOrgs t).Nodup :=
  t.organizationIds.of_map.filter _

/-- The organizations that `sweep_once` sweeps, of an answer to `ORDER BY created_at`. -/
def sweptOrgs (orgsPerSweep : ℕ) (answer : List Organization) : List Organization :=
  Served orgsPerSweep answer

/-- **What is promised of the worker**, for the tables that each of its passes finds: however ties
are answered, an organization that stays a candidate from some pass on is swept in a later one. -/
def FairDrain (orgsPerSweep : ℕ) (tables : ℕ → TriageTables) : Prop :=
  ∀ answers : ℕ → List Organization,
    (∀ k, OrderedBy Organization.createdAt (candidateOrgs (tables k)) (answers k)) →
    ∀ o k₀, (∀ k, k₀ ≤ k → o ∈ candidateOrgs (tables k)) →
      ∃ k, k₀ ≤ k ∧ o ∈ sweptOrgs orgsPerSweep (answers k)

/-- The candidates of a pass created no later than an organization, itself among them. -/
def queueUpTo (t : TriageTables) (o : Organization) : List Organization :=
  (candidateOrgs t).filter fun o' => o'.createdAt ≤ o.createdAt

/-- **The worker comes round to every candidate exactly if each finds a pass in which the candidates
created no later than it fit into the limit.** -/
theorem fairDrain_iff (orgsPerSweep : ℕ) (tables : ℕ → TriageTables) :
    FairDrain orgsPerSweep tables
      ↔ ∀ o k₀, (∀ k, k₀ ≤ k → o ∈ candidateOrgs (tables k)) →
          ∃ k, k₀ ≤ k ∧ (queueUpTo (tables k) o).length ≤ orgsPerSweep :=
  @drains_iff _ _ _ Organization.createdAt orgsPerSweep (fun k => candidateOrgs (tables k)) fun k =>
    nodup_candidateOrgs (tables k)

/-! ### Two organizations with active recommendations -/

/-- Two organizations, each with an active recommendation; every pass after the first one finds the
signal that it has made for the older one. -/
def busy (k : ℕ) : TriageTables where
  organizations := [⟨1, 0⟩, ⟨2, 1⟩]
  recommendations := [tidyUp, { tidyUp with id := ⟨3, by norm_num⟩, organizationId := 2 }]
  insights := []
  analyses := []
  leads := []
  signals := if k = 0 then []
    else [newSignal mixedDigest 1 (normalizeRecommendation tidyUp) (405 / 1000) 0]
  organizationIds := by decide

lemma candidateOrgs_busy (k : ℕ) : candidateOrgs (busy k) = [⟨1, 0⟩, ⟨2, 1⟩] := by
  by_cases hk : k = 0
  · subst hk
    rfl
  · simp [candidateOrgs, candidateOrgIds, busy, hk, tidyUp, newSignal]

/-- With a limit of one, the younger organization is never swept. -/
theorem not_fairDrain_busy : ¬ FairDrain 1 busy := by
  intro h
  obtain ⟨k, -, hserved⟩ := h (fun _ => [⟨1, 0⟩, ⟨2, 1⟩])
    (fun k => by
      rw [candidateOrgs_busy]
      exact ⟨.refl _, by simp⟩)
    ⟨2, 1⟩ 0 fun k _ => by simp [candidateOrgs_busy]
  simp [sweptOrgs, Served] at hserved

end Intelligence
