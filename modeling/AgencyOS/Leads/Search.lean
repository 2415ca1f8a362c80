import AgencyOS.Leads.Model
import AgencyOS.Txn.Pages
import Mathlib.Data.String.Basic

/-!
The search over leads.

A search returns a page and a total.  The page comes from a query with all filters, and the total
from one that leaves the bounds of the score out.  The rows are ordered by one column, so that rows
with the same value may come in another order on the next page.

* `LeadRow`, `LeadFilters`, `SortColumn`: a lead as the search reads it, and what is asked for;
* `searchWhere`, `countWhere`: the conditions of the two queries;
* `sortsBefore`: `ORDER BY`, with the nulls where the database puts them;
* `search`, `total_iff`, `search_pages_iff`: the pages and the total, and when they agree.
-/

namespace Leads

open Python Txn.Pages

/-- A lead with the columns that are searched. -/
structure LeadRow extends Lead where
  score : ℤ
  firstName : Option String
  lastName : Option String
  company : Option String
  position : Option String
  createdAt : Datetime
  updatedAt : Datetime
  deriving DecidableEq, Repr

structure LeadFilters where
  query : Option String
  status : Option LeadStatus
  sourceId : Option ℕ
  ownerUserId : Option ℕ
  minScore : Option ℤ
  maxScore : Option ℤ
  deriving DecidableEq, Repr

/-- The columns that the endpoint sorts by. -/
inductive SortColumn where
  | createdAt | updatedAt | score | firstName | company
  deriving DecidableEq, Repr

/-- How the database matches and orders text. -/
structure TextColumns (κ : Type) where
  ilike : String → String → Bool
  collate : String → κ

/-- `_MAX_PAGE_SIZE`. -/
def maxPageSize : ℕ := 200

variable {κ : Type} [LinearOrder κ] (text : TextColumns κ)

/-! ### The queries -/

/-- The clause of `query`, which is left out when that is empty. -/
def queryClause (query : Option String) (row : LeadRow) : Bool :=
  match query with
  | none => true
  | some query =>
      query = "" ||
        [row.firstName, row.lastName, row.company, row.email, row.position].any fun value =>
          value.any fun value => text.ilike value ("%" ++ query ++ "%")

/-- `column == value`, when there is a value. -/
def equalClause {α : Type} [DecidableEq α] (value column : Option α) : Bool :=
  value = none || column = value

/-- The bounds of the score. -/
def scoreClause (filters : LeadFilters) (row : LeadRow) : Bool :=
  filters.minScore.all (fun minScore => minScore ≤ row.score) &&
    filters.maxScore.all (fun maxScore => row.score ≤ maxScore)

/-- The condition of `LeadRepository.search`. -/
def searchWhere (organizationId : ℕ) (filters : LeadFilters) (row : LeadRow) : Bool :=
  row.organizationId = organizationId && row.deletedAt = none &&
    queryClause text filters.query row && equalClause filters.status (some row.status) &&
    equalClause filters.sourceId row.leadSourceId && equalClause filters.ownerUserId row.ownerUserId &&
    scoreClause filters row

/-- The condition of `LeadRepository.count`, which takes no bounds of the score. -/
def countWhere (organizationId : ℕ) (filters : LeadFilters) (row : LeadRow) : Bool :=
  row.organizationId = organizationId && row.deletedAt = none &&
    queryClause text filters.query row && equalClause filters.status (some row.status) &&
    equalClause filters.sourceId row.leadSourceId && equalClause filters.ownerUserId row.ownerUserId

/-- Values that go up, and then the nulls. -/
def nullsLast : Option κ → Option κ → Prop
  | _, none => True
  | none, some _ => False
  | some x, some y => x ≤ y

/-- The column goes up from a row to the other, nulls last. -/
def SortColumn.le : SortColumn → LeadRow → LeadRow → Prop
  | .createdAt, a, b => a.createdAt ≤ b.createdAt
  | .updatedAt, a, b => a.updatedAt ≤ b.updatedAt
  | .score, a, b => a.score ≤ b.score
  | .firstName, a, b => nullsLast (a.firstName.map text.collate) (b.firstName.map text.collate)
  | .company, a, b => nullsLast (a.company.map text.collate) (b.company.map text.collate)

/-- `ORDER BY`: a row may stand before the other.  Downwards, nulls come first. -/
def sortsBefore (sort : SortColumn) (descending : Bool) (a b : LeadRow) : Prop :=
  if descending then sort.le text b a else sort.le text a b

instance : DecidableRel (nullsLast (κ := κ))
  | _, none => isTrue (by simp [nullsLast])
  | none, some _ => isFalse id
  | some x, some y => inferInstanceAs (Decidable (x ≤ y))

instance (sort : SortColumn) : DecidableRel (sort.le text) := fun a b =>
  match sort with
  | .createdAt => inferInstanceAs (Decidable (a.createdAt ≤ b.createdAt))
  | .updatedAt => inferInstanceAs (Decidable (a.updatedAt ≤ b.updatedAt))
  | .score => inferInstanceAs (Decidable (a.score ≤ b.score))
  | .firstName =>
      inferInstanceAs (Decidable
        (nullsLast (a.firstName.map text.collate) (b.firstName.map text.collate)))
  | .company =>
      inferInstanceAs (Decidable
        (nullsLast (a.company.map text.collate) (b.company.map text.collate)))

instance (sort : SortColumn) (descending : Bool) :
    DecidableRel (sortsBefore text sort descending) := fun a b =>
  inferInstanceAs (Decidable (if descending then sort.le text b a else sort.le text a b))

/-! ### The search -/

/-- `LeadRepository.search`, of the order in which the database gives the rows. -/
def searchPage (limit offset : ℕ) (order : List LeadRow) : List LeadRow :=
  (order.drop offset).take (min limit maxPageSize)

/-- `LeadRepository.count`. -/
def countLeads (leads : List LeadRow) (organizationId : ℕ) (filters : LeadFilters) : ℕ :=
  leads.countP (countWhere text organizationId filters)

/-- `LeadService.search`. -/
def search (leads : List LeadRow) (organizationId : ℕ) (filters : LeadFilters) (limit offset : ℕ)
    (order : List LeadRow) : List LeadRow × ℕ :=
  (searchPage limit offset order, countLeads text leads organizationId filters)

/-- The leads that match all of the filters. -/
def matching (leads : List LeadRow) (organizationId : ℕ) (filters : LeadFilters) : List LeadRow :=
  leads.filter (searchWhere text organizationId filters)

/-! ### The order -/

variable {text} {sort : SortColumn} {descending : Bool}

lemma nullsLast_trans {x y z : Option κ} (hxy : nullsLast x y) (hyz : nullsLast y z) :
    nullsLast x z := by
  cases z with
  | none => trivial
  | some z =>
      cases y with
      | none => exact absurd hyz id
      | some y =>
          cases x with
          | none => exact absurd hxy id
          | some x => exact le_trans (α := κ) hxy hyz

lemma nullsLast_total (x y : Option κ) : nullsLast x y ∨ nullsLast y x := by
  cases x with
  | none => exact .inr trivial
  | some x =>
      cases y with
      | none => exact .inl trivial
      | some y => exact le_total x y

lemma SortColumn.le_trans {a b c : LeadRow} (hab : sort.le text a b) (hbc : sort.le text b c) :
    sort.le text a c := by
  cases sort with
  | createdAt => exact Nat.le_trans hab hbc
  | updatedAt => exact Nat.le_trans hab hbc
  | score => exact Int.le_trans hab hbc
  | firstName => exact nullsLast_trans hab hbc
  | company => exact nullsLast_trans hab hbc

lemma SortColumn.le_total (a b : LeadRow) : sort.le text a b ∨ sort.le text b a := by
  cases sort with
  | createdAt => exact Nat.le_total _ _
  | updatedAt => exact Nat.le_total _ _
  | score => exact Int.le_total _ _
  | firstName => exact nullsLast_total _ _
  | company => exact nullsLast_total _ _

instance : IsTrans LeadRow (sortsBefore text sort descending) where
  trans a b c hab hbc := by
    rw [sortsBefore] at hab hbc ⊢
    cases descending with
    | false => exact SortColumn.le_trans hab hbc
    | true => exact SortColumn.le_trans hbc hab

instance : Std.Total (sortsBefore text sort descending) where
  total a b := by
    rw [sortsBefore, sortsBefore]
    cases descending with
    | false => exact SortColumn.le_total a b
    | true => exact SortColumn.le_total b a

variable (text) in
/-- The leads that match, in one order of the query. -/
def sorted (sort : SortColumn) (descending : Bool) (leads : List LeadRow) (organizationId : ℕ)
    (filters : LeadFilters) : List LeadRow :=
  (matching text leads organizationId filters).insertionSort (sortsBefore text sort descending)

lemma inOrder_sorted (leads : List LeadRow) (organizationId : ℕ) (filters : LeadFilters) :
    InOrder (sortsBefore text sort descending) (matching text leads organizationId filters)
      (sorted text sort descending leads organizationId filters) :=
  ⟨List.perm_insertionSort _ _, List.pairwise_insertionSort _ _⟩

/-! ### The total -/

omit [LinearOrder κ] in
lemma searchWhere_eq (organizationId : ℕ) (filters : LeadFilters) :
    searchWhere text organizationId filters
      = fun row => countWhere text organizationId filters row && scoreClause filters row := rfl

omit [LinearOrder κ] in
/-- **The total** is that of the leads that match exactly when the bounds of the score leave none
out. -/
lemma total_iff (leads : List LeadRow) (organizationId : ℕ) (filters : LeadFilters) :
    countLeads text leads organizationId filters
        = (matching text leads organizationId filters).length
      ↔ ∀ row ∈ leads, countWhere text organizationId filters row = true →
          scoreClause filters row = true := by
  rw [countLeads, matching, ← List.countP_eq_length_filter, searchWhere_eq]
  induction leads with
  | nil => simp
  | cons row leads ih =>
      have hle : leads.countP (fun row => countWhere text organizationId filters row
            && scoreClause filters row)
          ≤ leads.countP (countWhere text organizationId filters) :=
        List.countP_mono_left fun row _ h => (Bool.and_eq_true_iff.1 h).1
      rw [List.forall_mem_cons, ← ih, List.countP_cons, List.countP_cons]
      cases countWhere text organizationId filters row with
      | false => simp
      | true =>
          cases scoreClause filters row with
          | true => simp
          | false =>
              have hne : leads.countP (countWhere text organizationId filters) + 1
                  ≠ leads.countP fun row => countWhere text organizationId filters row
                    && scoreClause filters row := by omega
              simpa using hne

/-! ### The pages -/

/-- **The pages and the total of a search agree exactly when** the bounds of the score leave no lead
out, no page is asked for that is longer than 200 leads, unless there are no more than these, and no
two leads with the same value stand on both sides of a page. -/
theorem search_pages_iff (text : TextColumns κ) (leads : List LeadRow)
    (hids : (leads.map (·.id)).Nodup) (organizationId : ℕ) (filters : LeadFilters)
    (sort : SortColumn) (descending : Bool) {limit : ℕ} (hlimit : 0 < limit) :
    (∀ orders : ℕ → List LeadRow,
        (∀ k, InOrder (sortsBefore text sort descending)
          (matching text leads organizationId filters) (orders k)) →
        let found := fun k => search text leads organizationId filters limit (k * limit) (orders k)
        (∀ k, (found k).2 = (matching text leads organizationId filters).length)
          ∧ ((List.range
              (pageCount limit (matching text leads organizationId filters).length)).flatMap
                fun k => (found k).1).Perm (matching text leads organizationId filters))
      ↔ (∀ row ∈ leads, countWhere text organizationId filters row = true →
            scoreClause filters row = true)
          ∧ (limit ≤ maxPageSize
            ∨ (matching text leads organizationId filters).length ≤ maxPageSize)
          ∧ ∀ k, Cut (sortsBefore text sort descending) (k * limit)
              (sorted text sort descending leads organizationId filters) := by
  have hn : (matching text leads organizationId filters).Nodup :=
    (List.Nodup.of_map _ hids).filter _
  rw [← total_iff, ← pages_perm_iff hlimit hn (inOrder_sorted leads organizationId filters)]
  constructor
  · intro h
    exact ⟨(h _ fun _ => inOrder_sorted leads organizationId filters).1 0,
      fun orders horders => (h orders horders).2⟩
  · rintro ⟨htotal, hpages⟩ orders horders
    exact ⟨fun _ => htotal, hpages orders horders⟩

/-- ASCII text under a pattern that looks for a part of it, in the order of its characters. -/
def asciiText : TextColumns String where
  ilike value pattern :=
    decide ((pattern.toList.drop 1).dropLast.map Char.toLower <:+: value.toList.map Char.toLower)
  collate := id

/-- A lead with a score, created at an instant. -/
def exampleRow (id : ℕ) (score : ℤ) (createdAt : Datetime) : LeadRow :=
  ⟨⟨id, 1, none, none, .new, none, none, none, none, none, none, none, none, none⟩, score, none, none,
    none, none, createdAt, createdAt⟩

/-- Three leads on two pages, of which two that were created at once are on the first. -/
theorem search_pages_cut :
    let leads := [exampleRow 1 10 5, exampleRow 2 60 5, exampleRow 3 80 0]
    let filters : LeadFilters := ⟨none, some .new, none, none, some 10, none⟩
    let found := fun k => search asciiText leads 1 filters 2 (k * 2) leads
    (∀ k, (found k).2 = (matching asciiText leads 1 filters).length)
      ∧ ((List.range (pageCount 2 (matching asciiText leads 1 filters).length)).flatMap
          fun k => (found k).1).Perm (matching asciiText leads 1 filters) :=
  (search_pages_iff asciiText [exampleRow 1 10 5, exampleRow 2 60 5, exampleRow 3 80 0]
    (by decide) 1 ⟨none, some .new, none, none, some 10, none⟩ .createdAt true (by decide)).2
    ⟨by decide, .inl (by decide), cut_of_lt_length (by decide) (by decide +kernel)⟩
    (fun _ => [exampleRow 1 10 5, exampleRow 2 60 5, exampleRow 3 80 0])
    fun _ => ⟨by decide, by decide⟩

/-- A lead below the bound is in the total, and of two leads created at once one is on both pages. -/
theorem search_pages_tie :
    (countLeads asciiText [exampleRow 1 10 5] 1 ⟨none, none, none, none, some 50, none⟩ = 1
        ∧ matching asciiText [exampleRow 1 10 5] 1 ⟨none, none, none, none, some 50, none⟩ = [])
      ∧ ∃ orders : ℕ → List LeadRow,
        (∀ k, InOrder (sortsBefore asciiText .createdAt true)
          (matching asciiText [exampleRow 1 10 5, exampleRow 2 60 5] 1
            ⟨none, none, none, none, none, none⟩) (orders k))
        ∧ ¬ ((List.range 2).flatMap fun k =>
            (search asciiText [exampleRow 1 10 5, exampleRow 2 60 5] 1
              ⟨none, none, none, none, none, none⟩ 1 (k * 1) (orders k)).1).Perm
            (matching asciiText [exampleRow 1 10 5, exampleRow 2 60 5] 1
              ⟨none, none, none, none, none, none⟩) := by
  refine ⟨by decide, fun k => if k = 0 then [exampleRow 1 10 5, exampleRow 2 60 5]
    else [exampleRow 2 60 5, exampleRow 1 10 5], fun k => ?_, by decide⟩
  have hleft : InOrder (sortsBefore asciiText .createdAt true)
      (matching asciiText [exampleRow 1 10 5, exampleRow 2 60 5] 1
        ⟨none, none, none, none, none, none⟩) [exampleRow 1 10 5, exampleRow 2 60 5] :=
    ⟨by decide, by decide⟩
  have hright : InOrder (sortsBefore asciiText .createdAt true)
      (matching asciiText [exampleRow 1 10 5, exampleRow 2 60 5] 1
        ⟨none, none, none, none, none, none⟩) [exampleRow 2 60 5, exampleRow 1 10 5] :=
    ⟨by decide, by decide⟩
  cases k with
  | zero => exact hleft
  | succ k => exact hright

end Leads
