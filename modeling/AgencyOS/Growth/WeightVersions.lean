import AgencyOS.Growth.HealthWeights

/-!
The versions of the health weights, whatever calls run at once.

* `Same`, `Kept`, `Grown`: the commits of a run keep the versions and their numbers, and if one has
  changed anything, there is a version greater than all that were there before;
* `weightContract`: what a call may count on while others run;
* `Draft`: what a call has deactivated and added before it commits, and `Draft.advances_iff`:
  **committing a draft advances the versions exactly when nobody has committed since the active
  version was read**;
* `meets_upsertHealthWeights`, `versions_advance_iff`: the call, and every run of such calls;
* `version_taken_twice`: two calls at once give one number to two versions.
-/

namespace Growth

open Txn

variable {ι : Type} {org : ℕ} {s s' s₀ : WeightDb ι}

/-! ### What commits keep -/

/-- A version keeps its organization and its number. -/
def Same (t : healthWeights.Table) (r r' : healthWeights.Row t) : Prop :=
  GrowthHealthWeight.organizationId r' = GrowthHealthWeight.organizationId r ∧
    GrowthHealthWeight.version r' = GrowthHealthWeight.version r

lemma Same.refl (t : healthWeights.Table) (r : healthWeights.Row t) : Same t r r := ⟨rfl, rfl⟩

/-- The versions of `s₀` are still there in `s`, with their numbers. -/
def Kept (org : ℕ) (s₀ s : WeightDb ι) : Prop :=
  ∀ n r, HasVersion org s₀ n r → ∃ r', HasVersion org s n r' ∧ r'.version = r.version

/-- The versions of `s₀` are still there in `s`, and if anything has been committed, then a version
greater than all of them. -/
structure Grown (org : ℕ) (s₀ s : WeightDb ι) : Prop where
  kept : Kept org s₀ s
  greater : s₀.committed ≠ s.committed → ∃ n r, HasVersion org s n r ∧ 0 < r.version ∧
    ∀ m r', HasVersion org s₀ m r' → r'.version < r.version

lemma Grown.of_eq (h : s₀.committed = s.committed) : Grown org s₀ s where
  kept := fun _ r hr => ⟨r, ⟨h ▸ hr.1, hr.2⟩, rfl⟩
  greater := fun hne => absurd h hne

lemma Kept.trans {s₁ s₂ : WeightDb ι} (h₁ : Kept org s₀ s₁) (h₂ : Kept org s₁ s₂) :
    Kept org s₀ s₂ := by
  intro n r hr
  obtain ⟨r₁, hr₁, hv₁⟩ := h₁ n r hr
  obtain ⟨r₂, hr₂, hv₂⟩ := h₂ n r₁ hr₁
  exact ⟨r₂, hr₂, hv₂.trans hv₁⟩

lemma Grown.trans {s₁ s₂ : WeightDb ι} (h₁ : Grown org s₀ s₁) (h₂ : Grown org s₁ s₂) :
    Grown org s₀ s₂ where
  kept := h₁.kept.trans h₂.kept
  greater := by
    intro hne
    by_cases h₁₂ : s₁.committed = s₂.committed
    · obtain ⟨n, r, hr, hpos, hgt⟩ := h₁.greater (h₁₂ ▸ hne)
      exact ⟨n, r, ⟨h₁₂ ▸ hr.1, hr.2⟩, hpos, hgt⟩
    · obtain ⟨n, r, hr, hpos, hgt⟩ := h₂.greater h₁₂
      refine ⟨n, r, hr, hpos, fun m r' hr' => ?_⟩
      obtain ⟨r₁, hr₁, hv₁⟩ := h₁.kept m r' hr'
      rw [← hv₁]
      exact hgt m r₁ hr₁

lemma Consistent.of_eq (h : Consistent org s) (heq : s'.committed = s.committed) :
    Consistent org s' := by
  have hsame : ∀ n r, HasVersion org s' n r ↔ HasVersion org s n r := by
    intro n r
    rw [HasVersion, HasVersion, heq]
  rcases h with hnone | hcur
  · exact Or.inl fun n r hr => hnone n r ((hsame n r).mp hr)
  · refine Or.inr ⟨fun m n r r' hm hn => hcur.distinct m n r r' ((hsame m r).mp hm)
      ((hsame n r').mp hn), ?_⟩
    obtain ⟨n, r, hr, hact, hmax⟩ := hcur.greatest
    exact ⟨n, r, (hsame n r).mpr hr, hact, fun m r' hr' => hmax m r' ((hsame m r').mp hr')⟩

variable [DecidableEq ι] {i j : ι}

/-- What commits keep of the versions, for any statement. -/
lemma kept_effect (h : Ahead Same s) (i : ι) (q : Sql healthWeights) :
    Kept org s (Db.effect i q s) := by
  intro n r hr
  obtain ⟨r', hr', horg, hversion⟩ := h.committed Same.refl i q hr.1
  exact ⟨r', ⟨hr', horg.trans hr.2⟩, hversion⟩

/-- Statements write versions with the number and the organization that they had. -/
lemma ahead_effect (h : Ahead Same s) (i : ι) (q : Sql healthWeights) :
    Ahead Same (Db.effect i q s) := by
  refine h.effect Same.refl ?_
  rintro ⟨organizationId⟩ n r rfl - - rc - hsame
  exact hsame

lemma ahead_indexed (h : Ahead Same s) (i : ι) (q : Sql healthWeights) :
    Ahead Same ((weightServer ι).effect i q s) := by
  rcases indexedServer_effect_cases activeKey i q s with heq | heq
  · rw [heq]
    exact h
  · rw [heq]
    exact ahead_effect h i q

lemma committed_indexed {q : Sql healthWeights} (hq : q ≠ .commit) :
    ((weightServer ι).effect i q s).committed = s.committed := by
  rcases indexedServer_effect_cases activeKey i q s with heq | heq
  · rw [heq]
  · rw [heq]
    exact Db.committed_effect hq

/-! ### The contract of the calls -/

/-- The committed versions are consistent, uncommitted ones have their numbers, and they have only
grown along the trace. -/
structure Orderly (org : ℕ) (tr : List (WeightEvent ι)) (s : WeightDb ι) : Prop where
  consistent : Consistent org s
  ahead : Ahead Same s
  grown : ∀ ev ∈ tr, Grown org ev.before s

/-- As long as each commit is undisturbed or advances the versions, the versions stay orderly, and
a commit advances them exactly when it is undisturbed; what a call has written nobody touches. -/
def weightContract (org : ℕ) : Contract (indexedSql healthWeights) ι (WeightDb ι) where
  inv := Orderly org
  assume := fun past ev => ev.stmt = .commit → Unchanged (own ev.pid past) ev ∨ Advances org ev
  guar := fun _ h ev => ev.stmt = .commit → (Unchanged h ev ↔ Advances org ev)
  rely := fun i _ s s' => Frame i s s'

/-- A statement that does not commit keeps the versions orderly. -/
lemma Orderly.step {tr : List (WeightEvent ι)} (h : Orderly org tr s) {q : Sql healthWeights}
    (hq : q ≠ .commit) :
    Orderly org (tr ++ [⟨i, q, s, (weightServer ι).effect i q s⟩])
      ((weightServer ι).effect i q s) where
  consistent := h.consistent.of_eq (committed_indexed hq)
  ahead := ahead_indexed h.ahead i q
  grown := by
    intro ev hev
    have hlast : Grown org s ((weightServer ι).effect i q s) :=
      .of_eq (committed_indexed hq).symm
    rcases List.mem_append.mp hev with hold | hnew
    · exact (h.grown ev hold).trans hlast
    · rw [List.mem_singleton.mp hnew]
      exact hlast

lemma weightContract_compatible :
    (weightContract org : Contract _ ι _).Compatible (weightServer ι) where
  refl := fun i _ s => Frame.refl i s
  trans := fun _ _ _ _ _ h₁ h₂ => h₁.trans h₂
  step := by
    intro tr ev j hj _ _ _ hafter _
    show Frame j ev.before ev.after
    rw [hafter]
    exact frame_indexed (fun h => hj h.symm) ev.stmt ev.before
  hangup := fun tr i s hI _ _ => ⟨hI.step (by simp [indexedServer]), fun h => by cases h⟩

/-! ### Drafts -/

/-- The numbers that a new version may have after those of `s`. -/
def Above (org : ℕ) (s : WeightDb ι) : Set ℕ :=
  {v | 0 < v ∧ ∀ n r, HasVersion org s n r → r.version < v}

/-- What session `i` has written is inactive versions of committed rows, among them every version
of `s₀` but those still to come under `ids`. -/
structure Deactivating (i : ι) (org : ℕ) (s₀ : WeightDb ι) (ids : List ℕ) (s : WeightDb ι) :
    Prop where
  inactive : ∀ n r, s.dirty () n = some (i, r) →
    GrowthHealthWeight.isActive r = false ∧ ∃ rc, s.committed () n = some rc
  covers : ∀ n r, HasVersion org s₀ n r → n ∈ ids ∨ ∃ r', s.dirty () n = some (i, r')

/-- What session `i` has written is the new row under `n₀`, and inactive versions of committed rows,
among them every version of `s₀`. -/
structure Draft (i : ι) (org : ℕ) (s₀ : WeightDb ι) (row : GrowthHealthWeight) (n₀ : ℕ)
    (s : WeightDb ι) : Prop where
  added : s.dirty () n₀ = some (i, row)
  fresh : s.committed () n₀ = none
  inactive : ∀ n r, s.dirty () n = some (i, r) → n ≠ n₀ →
    GrowthHealthWeight.isActive r = false ∧ ∃ rc, s.committed () n = some rc
  covers : ∀ n r, HasVersion org s₀ n r → ∃ r', s.dirty () n = some (i, r')

lemma Deactivating.frame {ids : List ℕ} (h : Deactivating i org s₀ ids s) (hf : Frame i s s') :
    Deactivating i org s₀ ids s' where
  inactive := by
    intro n r hd
    have hd' := (hf.dirty () n r).mp hd
    obtain ⟨hr, rc, hc⟩ := h.inactive n r hd'
    exact ⟨hr, rc, (hf.committed () n r hd').trans hc⟩
  covers := by
    intro n r hr
    rcases h.covers n r hr with hn | ⟨r', hd⟩
    · exact Or.inl hn
    · exact Or.inr ⟨r', (hf.dirty () n r').mpr hd⟩

lemma Draft.frame {row : GrowthHealthWeight} {n₀ : ℕ} (h : Draft i org s₀ row n₀ s)
    (hf : Frame i s s') : Draft i org s₀ row n₀ s' where
  added := (hf.dirty () n₀ row).mpr h.added
  fresh := (hf.committed () n₀ row h.added).trans h.fresh
  inactive := by
    intro n r hd hne
    have hd' := (hf.dirty () n r).mp hd
    obtain ⟨hr, rc, hc⟩ := h.inactive n r hd' hne
    exact ⟨hr, rc, (hf.committed () n r hd').trans hc⟩
  covers := by
    intro n r hr
    obtain ⟨r', hd⟩ := h.covers n r hr
    exact ⟨r', (hf.dirty () n r').mpr hd⟩

section Commit

variable {row : GrowthHealthWeight} {n₀ : ℕ}

/-- What is committed with a draft on the versions that it has covered: the new row, and inactive
rows that had the number before. -/
lemma Draft.committed_cases (h : Draft i org s₀ row n₀ s) (ha : Ahead Same s)
    (hsame : s₀.committed = s.committed) {n : ℕ} {r : GrowthHealthWeight}
    (hr : HasVersion org (s.commit i) n r) :
    n = n₀ ∧ r = row ∨ n ≠ n₀ ∧ r.isActive = false ∧
      ∃ rc, HasVersion org s n rc ∧ rc.version = r.version := by
  obtain ⟨hv, horg⟩ := hr
  rcases s.view_cases i () n with ⟨r', hd, hv'⟩ | ⟨hown, hv'⟩
  · obtain rfl := Option.some.inj (hv.symm.trans hv')
    by_cases hn : n = n₀
    · subst hn
      exact Or.inl ⟨rfl, (Prod.mk.inj (Option.some.inj (hd.symm.trans h.added))).2⟩
    · obtain ⟨hact, rc, hc⟩ := h.inactive n r hd hn
      obtain ⟨horg', hversion⟩ := ha () n i r rc hd hc
      exact Or.inr ⟨hn, hact, rc, ⟨hc, horg'.symm.trans horg⟩, hversion.symm⟩
  · -- a version that is not in the draft would have been there when the draft was begun
    have hc : s₀.committed () n = some r := by
      rw [hsame]
      exact hv'.symm.trans hv
    obtain ⟨r', hd⟩ := h.covers n r ⟨hc, horg⟩
    exact absurd hd (hown r')

lemma Draft.hasVersion (h : Draft i org s₀ row n₀ s) (horg : row.organizationId = org) :
    HasVersion org (s.commit i) n₀ row := ⟨Db.view_of_own h.added, horg⟩

/-- A draft committed on the versions it has covered advances them. -/
lemma Draft.advances (h : Draft i org s₀ row n₀ s) (ha : Ahead Same s) (hc : Consistent org s)
    (horg : row.organizationId = org) (hact : row.isActive = true)
    (habove : row.version ∈ Above org s₀) (hsame : s₀.committed = s.committed) :
    Advances org ⟨i, .commit, s, s.commit i⟩ := by
  have hlt : ∀ n r, HasVersion org s n r → r.version < row.version := fun n r hr =>
    habove.2 n r ⟨hsame ▸ hr.1, hr.2⟩
  refine ⟨⟨?_, n₀, row, h.hasVersion horg, hact, ?_⟩, ?_⟩
  · intro m n r r' hm hn heq
    rcases h.committed_cases ha hsame hm with ⟨rfl, rfl⟩ | ⟨-, -, rc, hrc, hv⟩ <;>
      rcases h.committed_cases ha hsame hn with ⟨rfl, rfl⟩ | ⟨-, -, rc', hrc', hv'⟩
    · rfl
    · exact absurd (hlt n rc' hrc') (by omega)
    · exact absurd (hlt m rc hrc) (by omega)
    · rcases hc with hnone | hcur
      · exact absurd hrc (hnone m rc)
      · exact hcur.distinct m n rc rc' hrc hrc' (by omega)
  · intro m r hr hne
    rcases h.committed_cases ha hsame hr with ⟨rfl, -⟩ | ⟨-, hinactive, rc, hrc, hv⟩
    · exact absurd rfl hne
    · exact ⟨hinactive, hv ▸ hlt m rc hrc⟩
  · intro n r hr hnone m r' hr'
    rcases h.committed_cases ha hsame hr with ⟨-, rfl⟩ | ⟨-, -, rc, hrc, -⟩
    · exact hlt m r' hr'
    · exact absurd (hnone.symm.trans hrc.1) (by simp)

/-- **A draft with the least number above the versions it was begun on** advances the versions when
it is committed exactly if they are still the committed ones. -/
theorem Draft.advances_iff (h : Draft i org s₀ row n₀ s) (ha : Ahead Same s)
    (hc : Consistent org s) (hg : Grown org s₀ s) (horg : row.organizationId = org)
    (hact : row.isActive = true) (hnext : IsLeast (Above org s₀) row.version) :
    s₀.committed = s.committed ↔ Advances org ⟨i, .commit, s, s.commit i⟩ := by
  constructor
  · exact h.advances ha hc horg hact hnext.1
  · intro hadv
    by_contra hne
    obtain ⟨n, r, hr, hpos, hgt⟩ := hg.greater hne
    have hle : row.version ≤ r.version := hnext.2 ⟨hpos, hgt⟩
    have hlt : r.version < row.version :=
      hadv.increasing n₀ row (h.hasVersion horg) h.fresh n r hr
    omega

end Commit

/-! ### The statements of a call -/

lemma scalarOneOrNone_cases (rows : List (ℕ × GrowthHealthWeight)) :
    (∃ current, scalarOneOrNone rows = .ret current) ∨ ∃ e, scalarOneOrNone rows = .raise e := by
  cases rows with
  | nil => exact Or.inl ⟨none, rfl⟩
  | cons row rest =>
      cases rest with
      | nil => exact Or.inl ⟨some row.2, rfl⟩
      | cons row' rest => exact Or.inr ⟨.multipleResultsFound, rfl⟩

/-- The number of the next version is the least above the versions that are there. -/
lemma nextVersion_isLeast (hc : Consistent org s) (hown : ∀ n r, s.dirty () n ≠ some (i, r))
    {current : Option GrowthHealthWeight}
    (h : scalarOneOrNone (s.rows i (HealthWeightQuery.active org)) = .ret current) :
    IsLeast (Above org s) (nextVersion current) := by
  have hview : ∀ n, s.view i () n = s.committed () n := fun n => Db.view_of_not_own (hown n)
  have hrows : ∀ n (r : GrowthHealthWeight), (n, r) ∈ s.rows i (HealthWeightQuery.active org) ↔
      HasVersion org s n r ∧ r.isActive = true := by
    intro n r
    refine Db.mem_rows.trans ?_
    rw [hview n]
    simp [HealthWeightQuery.matching, HasVersion, and_assoc]
  cases hl : s.rows i (HealthWeightQuery.active org) with
  | nil =>
      rw [hl] at h hrows
      obtain rfl : none = current := by simpa [scalarOneOrNone] using h
      -- nothing is active, so there is no version at all
      have hnone : ∀ n r, ¬ HasVersion org s n r := by
        rcases hc with hnone | hcur
        · exact hnone
        · obtain ⟨n, r, hr, hact, -⟩ := hcur.greatest
          exact absurd ((hrows n r).mpr ⟨hr, hact⟩) (by simp)
      exact ⟨⟨Nat.succ_pos _, fun n r hr => absurd hr (hnone n r)⟩, fun v hv => hv.1⟩
  | cons row rest =>
      cases rest with
      | cons row' rest =>
          rw [hl] at h
          simp [scalarOneOrNone] at h
      | nil =>
          rw [hl] at h hrows
          obtain rfl : some row.2 = current := by simpa [scalarOneOrNone] using h
          obtain ⟨hrow, hact⟩ := (hrows row.1 row.2).mp (by simp)
          have hmax : ∀ n r, HasVersion org s n r → r.version ≤ row.2.version := by
            intro n r hr
            rcases hc with hnone | hcur
            · exact absurd hr (hnone n r)
            · obtain ⟨n₀, r₀, hr₀, hact₀, hgreatest⟩ := hcur.greatest
              obtain heq := List.mem_singleton.mp ((hrows n₀ r₀).mpr ⟨hr₀, hact₀⟩)
              by_cases hn : n = n₀
              · subst hn
                obtain rfl := Option.some.inj (hr.1.symm.trans hr₀.1)
                rw [← heq]
              · rw [← heq]
                exact (hgreatest n r hr hn).2.le
          exact ⟨⟨Nat.succ_pos _, fun n r hr => Nat.lt_succ_of_le (hmax n r hr)⟩,
            fun v hv => hv.2 row.1 row.2 hrow⟩

/-- A row of the organization that was committed when the call began is deactivated by its
`UPDATE`, and nothing else is touched. -/
lemma Deactivating.update {n : ℕ} {ids : List ℕ} (h : Deactivating i org s₀ (n :: ids) s)
    (ha : Ahead Same s) (hkept : Kept org s₀ s)
    (hready : Db.ready i (.update (HealthWeightUpdate.deactivate org) n) s = true) :
    Deactivating i org s₀ ids (Db.effect i (.update (HealthWeightUpdate.deactivate org) n) s) where
  inactive := by
    intro m r hd
    rw [Db.committed_effect (by simp)]
    rcases Db.dirty_effect_cases hd with
      ⟨hold, -⟩ | ⟨-, ⟨u, r₀, hu, hv, -, heq⟩ | ⟨x, hx, -⟩⟩
    · exact h.inactive m r hold
    · obtain ⟨rfl, rfl⟩ := Sql.update.inj hu
      cases heq
      refine ⟨rfl, ?_⟩
      rcases s.view_cases i () n with ⟨r₁, hd₁, -⟩ | ⟨-, hv₁⟩
      · exact (h.inactive n r₁ hd₁).2
      · exact ⟨r₀, hv₁.symm.trans hv⟩
    · cases hx
  covers := by
    intro m r hr
    have hold : ∀ r', s.dirty () m = some (i, r') → ∃ r',
        (Db.effect i (.update (HealthWeightUpdate.deactivate org) n) s).dirty () m
          = some (i, r') := by
      intro r' hd
      obtain ⟨r'', hd', -⟩ := Db.dirty_effect_own
        (q := .update (HealthWeightUpdate.deactivate org) n) hd (by simp) (by simp)
      exact ⟨r'', hd'⟩
    rcases h.covers m r hr with hm | ⟨r', hd⟩
    · rcases List.mem_cons.mp hm with rfl | hm
      · obtain ⟨rc, hrc, -⟩ := hkept m r hr
        have hguard : ∀ r', s.view i () m = some r' →
            (HealthWeightUpdate.act (.deactivate org)).guard r' = true := by
          intro r' hv
          have horg := (ha.view Same.refl hv hrc.1).1.trans hrc.2
          simpa [HealthWeightUpdate.act] using horg
        cases hw : s.written i (HealthWeightUpdate.deactivate org) m with
        | some r' => exact Or.inr ⟨r', Db.dirty_update hw⟩
        | none =>
            -- the row is there and meets the condition, so the statement has written it
            obtain ⟨r', hv⟩ : ∃ r', s.view i () m = some r' := by
              rcases s.view_cases i () m with ⟨r', -, hv⟩ | ⟨-, hv⟩
              · exact ⟨r', hv⟩
              · exact ⟨rc, hv.trans hrc.1⟩
            have hfail := Db.guard_of_written_eq_none hready hw hv
            rw [show (healthWeights.act (HealthWeightUpdate.deactivate org)).guard r' = true
              from hguard r' hv] at hfail
            cases hfail
      · exact Or.inl hm
    · exact Or.inr (hold r' hd)

/-! ### A call among others -/

/-- A statement that does not commit, among the calls of the others. -/
lemma meets_execute {q : Sql healthWeights} (hq : q ≠ .commit) {h : List (WeightEvent ι)}
    {P : WeightDb ι → Prop}
    (hP : ∀ tr s₁, own i tr = h → Frame i s s₁ → Orderly org tr s₁ → Db.ready i q s₁ = true → P s₁) :
    Meets (weightContract org) (weightServer ι) i
      (fun h' r s' => r = .error WeightError.integrityError ∨ ∃ s₁, P s₁
        ∧ h' = h ++ [⟨i, q, s₁, Db.effect i q s₁⟩] ∧ r = .ok (Db.answer i q s₁)
        ∧ Frame i (Db.effect i q s₁) s')
      (execute q) h s := by
  refine meets_executeOr fun tr s₁ ht hr hI hready _ => ?_
  have hready' : Db.ready i q s₁ = true := by
    simp only [indexedServer, Bool.and_eq_true] at hready
    exact hready.1
  exact ⟨hI.step hq, fun hcommit => absurd hcommit hq, hP tr s₁ ht hr hI hready'⟩

/-- Nothing in the store is written by session `i`. -/
def Clean (i : ι) (s : WeightDb ι) : Prop := ∀ n r, s.dirty () n ≠ some (i, r)

lemma Clean.frame (h : Clean i s) (hf : Frame i s s') : Clean i s' :=
  fun n r hd => h n r ((hf.dirty () n r).mp hd)

lemma meets_active (hclean : Clean i s) :
    Meets (weightContract org) (weightServer ι) i
      (fun h r s' => (∃ e, r = .error e) ∨ ∃ ev₀ current, h = [ev₀] ∧ r = .ok current
        ∧ IsLeast (Above org ev₀.before) (nextVersion current) ∧ Clean i s')
      (active org) [] s := by
  refine (meets_execute (P := fun s₁ => Consistent org s₁ ∧ Clean i s₁) (by simp)
    fun tr s₁ _ hr hI _ => ⟨hI.consistent, hclean.frame hr⟩).bind weightContract_compatible ?_ ?_
  · rintro h rows s₂ (herr | ⟨s₁, ⟨hc, hown⟩, rfl, hrows, hf⟩)
    · cases herr
    · have hleast : ∀ current, scalarOneOrNone rows = .ret current →
          IsLeast (Above org s₁) (nextVersion current) := by
        intro current hcurrent
        rw [Except.ok.inj hrows] at hcurrent
        exact nextVersion_isLeast hc hown hcurrent
      rcases scalarOneOrNone_cases rows with ⟨current, hcurrent⟩ | ⟨e, he⟩
      · rw [hcurrent]
        exact fun _ _ _ hr' _ =>
          Or.inr ⟨_, current, rfl, rfl, hleast current hcurrent, (Clean.frame hown hf).frame hr'⟩
      · rw [he]
        exact fun _ _ _ _ _ => Or.inl ⟨e, rfl⟩
  · exact fun h e s' _ => Or.inl ⟨e, rfl⟩

/-- The versions have grown since the first event of a call. -/
lemma Orderly.grown_of_own {tr : List (WeightEvent ι)} (h : Orderly org tr s)
    {ev₀ : WeightEvent ι} {rest : List (WeightEvent ι)} (hown : own i tr = ev₀ :: rest) :
    Grown org ev₀.before s :=
  h.grown ev₀ (mem_own.mp (hown ▸ List.mem_cons_self)).1

lemma meets_deactivateAll {ev₀ : WeightEvent ι} (hclean : Clean i s) :
    Meets (weightContract org) (weightServer ι) i
      (fun h r s' => (∃ e, r = .error e) ∨ ∃ rest, h = ev₀ :: rest
        ∧ Deactivating i org ev₀.before [] s')
      (deactivateAll org) [ev₀] s := by
  refine (meets_execute (P := fun s₁ => Clean i s₁ ∧ Kept org ev₀.before s₁) (by simp)
    fun tr s₁ ht hr hI _ => ⟨hclean.frame hr, (hI.grown_of_own ht).kept⟩).bind
      weightContract_compatible ?_ fun h e s' _ => Or.inl ⟨e, rfl⟩
  rintro h rows s₂ (herr | ⟨s₁, ⟨hown, hkept⟩, rfl, hrows, hf⟩)
  · cases herr
  obtain rfl := Except.ok.inj hrows
  -- the loop over the rows that the statement has picked
  refine Meets.tally weightContract_compatible
    (J := fun rows h s => (∃ rest, h = ev₀ :: rest)
      ∧ Deactivating i org ev₀.before (rows.map Prod.fst) s)
    (fun rows h s s' hJ hr => ⟨hJ.1, hJ.2.frame hr⟩) ?_ ?_ _ ⟨⟨_, rfl⟩, ?_⟩
  · rintro row rows h s ⟨⟨rest, rfl⟩, hJ⟩
    refine (meets_execute (P := fun s₁ =>
        Deactivating i org ev₀.before (rows.map Prod.fst)
          (Db.effect i (.update (HealthWeightUpdate.deactivate org) row.1) s₁)) (by simp)
      fun tr s₁ ht hr hI hready => ?_).bind weightContract_compatible ?_ fun h e s' _ =>
        Or.inl ⟨e, rfl⟩
    · exact (hJ.frame hr).update hI.ahead (hI.grown_of_own ht).kept hready
    · rintro h r s₃ (herr | ⟨s₁, hP, rfl, -, hf₁⟩)
      · cases herr
      · exact fun _ _ _ hr' _ => ⟨⟨_, rfl⟩, (hP.frame hf₁).frame hr'⟩
  · rintro n h s ⟨⟨rest, rfl⟩, hJ⟩
    exact Or.inr ⟨rest, rfl, hJ⟩
  · refine ⟨fun n r hd => absurd hd ((hown.frame hf) n r), fun n r hr => Or.inl ?_⟩
    obtain ⟨r', hr', -⟩ := hkept n r hr
    have hv : s₁.view i () n = some r' := (Db.view_of_not_own (hown n)).trans hr'.1
    have hmem : (n, r') ∈ s₁.rows i (HealthWeightQuery.ofOrganization org) :=
      Db.mem_rows.mpr ⟨hv, by simpa [HealthWeightQuery.matching] using hr'.2⟩
    exact List.mem_map.mpr ⟨(n, r'), hmem, rfl⟩

/-- A new row makes a draft of what has been deactivated. -/
lemma Deactivating.insert (h : Deactivating i org s₀ [] s) (row : GrowthHealthWeight) :
    Draft i org s₀ row s.fresh (Db.effect i (.insert row : Sql healthWeights) s) where
  added := Db.dirty_insert i row s
  fresh := (s.alloc () s.fresh le_rfl).1
  inactive := by
    intro n r hd hne
    rcases Db.dirty_effect_cases hd with ⟨hold, -⟩ | ⟨-, ⟨u, r₀, hu, -⟩ | ⟨x, -, hn, -⟩⟩
    · exact h.inactive n r hold
    · cases hu
    · exact absurd hn hne
  covers := by
    intro n r hr
    rcases h.covers n r hr with hn | ⟨r', hd⟩
    · cases hn
    · obtain ⟨r'', hd', -⟩ := Db.dirty_effect_own (q := .insert row) hd (by simp) (by simp)
      exact ⟨r'', hd'⟩

/-- The commit of a draft: if it is undisturbed or advances the versions, then both, and the
versions are orderly after it. -/
lemma Draft.commit {tr : List (WeightEvent ι)} {ev₀ : WeightEvent ι} {rest : List (WeightEvent ι)}
    {row : GrowthHealthWeight} {n₀ : ℕ} (hd : Draft i org ev₀.before row n₀ s)
    (hI : Orderly org tr s) (hown : own i tr = ev₀ :: rest) (horg : row.organizationId = org)
    (hact : row.isActive = true) (hnext : IsLeast (Above org ev₀.before) row.version)
    (hassume : (weightContract org).assume tr ⟨i, .commit, s, s.commit i⟩) :
    Orderly org (tr ++ [⟨i, .commit, s, s.commit i⟩]) (s.commit i)
      ∧ (weightContract org).guar i (ev₀ :: rest) ⟨i, .commit, s, s.commit i⟩ := by
  have hiff : ev₀.before.committed = s.committed ↔ Advances org ⟨i, .commit, s, s.commit i⟩ :=
    hd.advances_iff hI.ahead hI.consistent (hI.grown_of_own hown) horg hact hnext
  have hunchanged : Unchanged (ev₀ :: rest) ⟨i, .commit, s, s.commit i⟩
      ↔ ev₀.before.committed = s.committed := by
    simp [Unchanged]
  have hadv : Advances org ⟨i, .commit, s, s.commit i⟩ := by
    rcases hassume rfl with hund | hadv
    · rw [hown] at hund
      exact hiff.mp (hunchanged.mp hund)
    · exact hadv
  have hlast : Grown org s (s.commit i) :=
    ⟨kept_effect hI.ahead i .commit, fun _ => ⟨n₀, row, hd.hasVersion horg, hnext.1.1,
      fun m r' hr' => hadv.increasing n₀ row (hd.hasVersion horg) hd.fresh m r' hr'⟩⟩
  refine ⟨⟨Or.inr hadv.current, ahead_effect hI.ahead i .commit, fun ev hev => ?_⟩,
    fun _ => hunchanged.trans hiff⟩
  rcases List.mem_append.mp hev with hold | hnew
  · exact (hI.grown ev hold).trans hlast
  · rw [List.mem_singleton.mp hnew]
    exact hlast

/-- **One call among others** keeps the contract: its commit advances the versions exactly if it is
undisturbed. -/
theorem meets_upsertHealthWeights (weights : List (String × ℚ)) (createdByUserId : Option ℕ)
    (hclean : Clean i s) :
    Meets (weightContract org) (weightServer ι) i (fun _ _ _ => True)
      (upsertHealthWeights org weights createdByUserId) [] s := by
  refine (?_ : Meets (weightContract org) (weightServer ι) i (fun _ _ _ => True) _ [] s).tryCatch
    weightContract_compatible (fun _ _ _ _ => trivial) ?_
  · refine (meets_active hclean).bind weightContract_compatible ?_ fun _ _ _ _ => trivial
    rintro h current s₁ (⟨e, he⟩ | ⟨ev₀, current', rfl, hcurrent, hleast, hclean⟩)
    · cases he
    obtain rfl := Except.ok.inj hcurrent
    refine (meets_deactivateAll hclean).bind weightContract_compatible ?_ fun _ _ _ _ => trivial
    rintro h n s₂ (⟨e, he⟩ | ⟨rest, rfl, hdeactivated⟩)
    · cases he
    let row : GrowthHealthWeight :=
      ⟨org, nextVersion current, weights, true, createdByUserId⟩
    refine (meets_execute (P := fun s => Draft i org ev₀.before row s.fresh
        (Db.effect i (.insert row : Sql healthWeights) s)) (by simp)
      fun tr s₁ _ hr _ _ => (hdeactivated.frame hr).insert row).bind
        weightContract_compatible ?_ fun _ _ _ _ => trivial
    rintro h _ s₃ (herr | ⟨s₂, hdraft, rfl, -, hf⟩)
    · cases herr
    refine (meets_executeOr (P := fun _ => True) fun tr s₄ ht hr hI _ hassume => ?_).bind
      weightContract_compatible (fun _ _ _ _ => fun _ _ _ _ _ => trivial) fun _ _ _ _ => trivial
    obtain ⟨hI', hguar⟩ := ((hdraft.frame hf).frame hr).commit hI ht rfl rfl hleast hassume
    exact ⟨hI', hguar, trivial⟩
  · intro h e s₁ _
    exact (meets_execute (P := fun _ => True) (by simp) fun _ _ _ _ _ _ => trivial).bind
      weightContract_compatible (fun _ _ _ _ => fun _ _ _ _ _ => trivial) fun _ _ _ _ => trivial

/-! ### Every run -/

/-- **Every commit of a run advances the versions exactly when every commit is undisturbed**,
however many calls there are and however they interleave. -/
theorem versions_advance_iff {weights : ι → List (String × ℚ)} {createdByUserId : ι → Option ℕ}
    (hs : s.Settled) (hc : Consistent org s)
    {c : Pool (indexedSql healthWeights) ι (WeightDb ι) WeightError GrowthHealthWeight}
    (h : Pool.Reach (weightServer ι)
      (.start (fun i => upsertHealthWeights org (weights i) (createdByUserId i)) s) c) :
    Along Undisturbed c.trace
      ↔ Along (fun _ (ev : WeightEvent ι) => ev.stmt = .commit → Advances org ev) c.trace := by
  have hmeets : ∀ i, Meets (weightContract org) (weightServer ι) i (fun _ _ _ => True)
      (upsertHealthWeights org (weights i) (createdByUserId i)) [] s := fun i =>
    meets_upsertHealthWeights _ _ fun n r hd => by
      rw [hs () n] at hd
      cases hd
  have hstart : (weightContract org).inv [] s :=
    ⟨hc, hs.ahead Same, fun ev hev => by cases hev⟩
  have hguar : Along (weightContract org).assume c.trace →
      Along (fun past ev => (weightContract org).guar ev.pid (own ev.pid past) ev) c.trace :=
    fun hassume => (h.meets weightContract_compatible hstart hmeets hassume).2.1
  constructor
  · intro hund
    refine ((hguar (hund.mono fun _ _ hev hcommit => Or.inl (hev hcommit))).and hund).mono ?_
    exact fun _ _ hev hcommit => (hev.1 hcommit).mp (hev.2 hcommit)
  · intro hadv
    refine ((hguar (hadv.mono fun _ _ hev hcommit => Or.inr (hev hcommit))).and hadv).mono ?_
    exact fun _ _ hev hcommit => (hev.1 hcommit).mpr (hev.2 hcommit)

/-- An organization without versions, and two calls. -/
def noVersions : WeightDb Bool := .init (fun _ _ => none) 0 (.still 0) fun _ _ _ => rfl

def twoCalls : Pool (indexedSql healthWeights) Bool (WeightDb Bool) WeightError GrowthHealthWeight :=
  .start (fun _ => upsertHealthWeights 1 [] none) noVersions

/-- Two calls one after the other. -/
lemma versions_advance_iff_twoCalls : ∃ c, Pool.Reach (weightServer Bool) twoCalls c
    ∧ c.returned false = true ∧ c.returned true = true
    ∧ (Along Undisturbed c.trace
      ↔ Along (fun _ (ev : WeightEvent Bool) => ev.stmt = .commit → Advances 1 ev) c.trace) := by
  have hrun : (twoCalls.run (weightServer Bool)
      (List.replicate 4 (.step false) ++ List.replicate 5 (.step true))).any
        (fun c => c.returned false && c.returned true) = true := by
    decide +kernel
  obtain ⟨c, hc, hret⟩ := Pool.exists_of_run hrun
  rw [Bool.and_eq_true] at hret
  exact ⟨c, hc, hret.1, hret.2, versions_advance_iff (fun _ _ => rfl) (Or.inl fun _ _ hr => by cases hr.1) hc⟩

/-- **Two calls at once give one number to two versions**: both read that nothing is active, and the
second deactivates and inserts after the first has committed. -/
theorem version_taken_twice : ¬ ∀ c, Pool.Reach (weightServer Bool) twoCalls c →
    Along (fun _ (ev : WeightEvent Bool) => ev.stmt = .commit → Advances 1 ev) c.trace := by
  intro hclaim
  have hrun : (twoCalls.run (weightServer Bool)
      ([.step false, .step true] ++ List.replicate 3 (.step false)
        ++ List.replicate 4 (.step true))).any (fun c => c.trace.any fun ev =>
          decide (ev.stmt = .commit)
            && decide (ev.after.committed () 0 = some ⟨1, 1, [], false, none⟩)
            && decide (ev.after.committed () 1 = some ⟨1, 1, [], true, none⟩)) = true := by
    decide +kernel
  obtain ⟨c, hc, htwice⟩ := Pool.exists_of_run hrun
  obtain ⟨ev, hev, htest⟩ := List.any_eq_true.mp htwice
  simp only [Bool.and_eq_true, decide_eq_true_eq] at htest
  obtain ⟨⟨hcommit, hfirst⟩, hsecond⟩ := htest
  have hadv := along_iff_forall_mem.mp (hclaim c hc) ev hev hcommit
  exact absurd (hadv.current.distinct 0 1 _ _ ⟨hfirst, rfl⟩ ⟨hsecond, rfl⟩ rfl) (by decide)

end Growth
