import AgencyOS.Txn.OrderBy

/-!
Draining a population by repeated `SELECT .. ORDER BY key LIMIT n`.

Each round serves the first rows of an answer.  The rows may change from round to round, and ties
may be answered in another order every time.

* `Served`: the rows that a round serves;
* `Drains`: every row that stays in the population is served, from whatever round on;
* `forall_served_iff`: a round serves a row in every order if there is room for all rows ahead of it
  or tied with it;
* `drains_iff`: **a population is drained exactly if each row that stays finds such a round**.
-/

namespace Txn

variable {α κ : Type} [LinearOrder κ]

/-- The rows that a round serves, of an answer. -/
def Served (limit : ℕ) (answer : List α) : List α := answer.take limit

/-- However ties are answered, a row that stays in the population from some round on is served in a
later round. -/
def Drains (key : α → κ) (limit : ℕ) (population : ℕ → List α) : Prop :=
  ∀ answers : ℕ → List α, (∀ k, OrderedBy key (population k) (answers k)) →
    ∀ x k₀, (∀ k, k₀ ≤ k → x ∈ population k) → ∃ k, k₀ ≤ k ∧ x ∈ Served limit (answers k)

variable {key : α → κ} {limit : ℕ} {rows : List α} {population : ℕ → List α} {x : α}

omit [LinearOrder κ] in
lemma cut_eq_served (l : List α) : cut limit (fun _ => true) limit l = Served limit l := by
  rw [cut, List.filter_true, List.take_take, min_self, Served]

/-- A row is served in every order if there is room for all rows ahead of it or tied with it. -/
theorem forall_served_iff (hn : rows.Nodup) (hx : x ∈ rows) :
    (∀ l, OrderedBy key rows l → x ∈ Served limit l) ↔ (upTo key rows x).length ≤ limit := by
  have h : (∀ l, OrderedBy key rows l → x ∈ cut limit (fun _ => true) limit l)
      ↔ (upTo key rows x).length ≤ limit ∧ (upTo key rows x).countP (fun _ => true) ≤ limit :=
    forall_mem_cut_iff hn hx rfl
  simp only [cut_eq_served, List.countP_true, and_self] at h
  exact h

/-- **A population is drained exactly if each row that stays in it finds room in some later
round.** -/
theorem drains_iff (hn : ∀ k, (population k).Nodup) :
    Drains key limit population
      ↔ ∀ x k₀, (∀ k, k₀ ≤ k → x ∈ population k) →
          ∃ k, k₀ ≤ k ∧ (upTo key (population k) x).length ≤ limit := by
  constructor
  · intro h x k₀ hstay
    by_contra hfull
    push Not at hfull
    -- in each of these rounds some order leaves the row out
    have hlast : ∀ k, ∃ l, OrderedBy key (population k) l ∧ (k₀ ≤ k → x ∉ Served limit l) := by
      intro k
      by_cases hk : k₀ ≤ k
      · have hnot := mt (forall_served_iff (hn k) (hstay k hk)).mp (hfull k hk).not_ge
        push Not at hnot
        obtain ⟨l, hl, hout⟩ := hnot
        exact ⟨l, hl, fun _ => hout⟩
      · obtain ⟨l, hl⟩ := exists_orderedBy key (population k)
        exact ⟨l, hl, fun hk' => absurd hk' hk⟩
    choose answers hanswers hout using hlast
    obtain ⟨k, hk, hserved⟩ := h answers hanswers x k₀ hstay
    exact hout k hk hserved
  · intro h answers hanswers x k₀ hstay
    obtain ⟨k, hk, hroom⟩ := h x k₀ hstay
    exact ⟨k, hk, (forall_served_iff (hn k) (hstay k hk)).mpr hroom _ (hanswers k)⟩

end Txn
