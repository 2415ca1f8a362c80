import Mathlib.Data.List.Sort
import Mathlib.Data.List.Count
import Mathlib.Data.List.Nodup
import Mathlib.Data.List.Perm.Basic

/-!
Answers to `SELECT .. ORDER BY key LIMIT n`, where the order leaves ties open.

A store may hand out rows of one key in any order, and in another order the next time.  What a
`LIMIT` lets through is then fixed only up to the ties at the cut.

* `OrderedBy`: the orders in which the rows may be answered;
* `cut`: the rows a client keeps of an answer: those within the `LIMIT` that pass a test, up to
  the room it has for them;
* `ahead`, `upTo`: the rows that come before a row in every order, and those that come before it
  in some order, itself included;
* `Untied`, `untied_iff`: whether the cut treats a row the same in every order, counted from the
  rows themselves.
-/

namespace Txn

variable {α κ : Type} [LinearOrder κ] {key : α → κ} {rows l l₁ l₂ : List α} {x : α}
  {limit room : ℕ} {p : α → Bool}

/-- The answers to `SELECT rows ORDER BY key`: rows of one key come in any order. -/
structure OrderedBy (key : α → κ) (rows l : List α) : Prop where
  perm : l.Perm rows
  sorted : l.Pairwise fun y z => key y ≤ key z

/-- What is kept of an answer: the rows within the `LIMIT` that pass the test, up to `room`. -/
def cut (limit : ℕ) (p : α → Bool) (room : ℕ) (l : List α) : List α :=
  ((l.take limit).filter p).take room

/-- The rows that come before `x` in every order. -/
def ahead (key : α → κ) (rows : List α) (x : α) : List α := rows.filter fun y => key y < key x

/-- The rows that come before `x` in some order, and `x` itself. -/
def upTo (key : α → κ) (rows : List α) (x : α) : List α := rows.filter fun y => key y ≤ key x

/-- Whether the cut treats `x` the same in every order: if `x` is kept in the order most
favourable to it, it is kept in the least favourable one. -/
def Untied (key : α → κ) (rows : List α) (limit : ℕ) (p : α → Bool) (room : ℕ) (x : α) : Prop :=
  (ahead key rows x).length < limit → (ahead key rows x).countP p < room →
    (upTo key rows x).length ≤ limit ∧ (upTo key rows x).countP p ≤ room

instance (key : α → κ) (rows : List α) (limit : ℕ) (p : α → Bool) (room : ℕ) (x : α) :
    Decidable (Untied key rows limit p room x) :=
  inferInstanceAs (Decidable (_ → _ → _))

/-! ### The place of a row in an answer -/

omit [LinearOrder κ] in
/-- The first rows of a list contain an element if fewer come before it. -/
lemma mem_take_middle (hx : x ∉ l₁) (n : ℕ) : x ∈ (l₁ ++ x :: l₂).take n ↔ l₁.length < n := by
  rw [List.take_append]
  constructor
  · intro h
    by_contra hn
    have hz : n - l₁.length = 0 := by omega
    rw [hz, List.take_zero, List.append_nil] at h
    exact hx (List.mem_of_mem_take h)
  · intro h
    obtain ⟨d, hd⟩ : ∃ d, n - l₁.length = d + 1 := ⟨n - l₁.length - 1, by omega⟩
    rw [hd, List.take_succ_cons]
    exact List.mem_append_right _ List.mem_cons_self

omit [LinearOrder κ] in
/-- A row is kept if few enough rows come before it. -/
lemma mem_cut_middle (hx : x ∉ l₁) (hp : p x = true) :
    x ∈ cut limit p room (l₁ ++ x :: l₂) ↔ l₁.length < limit ∧ l₁.countP p < room := by
  by_cases h : l₁.length < limit
  · obtain ⟨d, hd⟩ : ∃ d, limit - l₁.length = d + 1 := ⟨limit - l₁.length - 1, by omega⟩
    have hcut : cut limit p room (l₁ ++ x :: l₂)
        = (l₁.filter p ++ x :: (l₂.take d).filter p).take room := by
      rw [cut, List.take_append, List.take_of_length_le h.le, hd, List.take_succ_cons,
        List.filter_append, List.filter_cons_of_pos hp]
    rw [hcut, mem_take_middle (fun hm => hx (List.mem_of_mem_filter hm)), List.countP_eq_length_filter]
    exact ⟨fun hlt => ⟨h, hlt⟩, fun hlt => hlt.2⟩
  · refine ⟨fun hm => ?_, fun hlt => absurd hlt.1 h⟩
    have htake := List.mem_of_mem_filter (List.mem_of_mem_take hm)
    exact absurd ((mem_take_middle hx limit).mp htake) h

/-- At least the rows strictly ahead come before a row. -/
lemma countP_ahead_le (h : OrderedBy key rows (l₁ ++ x :: l₂)) (q : α → Bool) :
    (ahead key rows x).countP q ≤ l₁.countP q := by
  have hrest : (x :: l₂).filter (fun y => key y < key x) = [] := by
    refine List.filter_eq_nil_iff.mpr fun y hy => ?_
    rcases List.mem_cons.mp hy with rfl | hy
    · simp
    · have := (List.pairwise_cons.mp (List.pairwise_append.mp h.sorted).2.1).1 y hy
      simpa using this
  calc (ahead key rows x).countP q
      = ((l₁ ++ x :: l₂).filter fun y => key y < key x).countP q :=
        ((h.perm.filter _).countP_eq q).symm
    _ = (l₁.filter fun y => key y < key x).countP q := by
        rw [List.filter_append, hrest, List.append_nil]
    _ ≤ l₁.countP q := List.filter_sublist.countP_le

/-- At most the rows ahead of or tied with a row come before it, not counting itself. -/
lemma countP_lt_upTo (h : OrderedBy key rows (l₁ ++ x :: l₂)) {q : α → Bool} (hq : q x = true) :
    l₁.countP q < (upTo key rows x).countP q := by
  have hfirst : l₁.filter (fun y => key y ≤ key x) = l₁ := by
    refine List.filter_eq_self.mpr fun y hy => ?_
    simpa using (List.pairwise_append.mp h.sorted).2.2 y hy x List.mem_cons_self
  have hsub : (l₁ ++ [x]).Sublist ((l₁ ++ x :: l₂).filter fun y => key y ≤ key x) := by
    rw [List.filter_append, hfirst, List.filter_cons_of_pos (by simp)]
    exact (List.Sublist.refl l₁).append (List.singleton_sublist.mpr List.mem_cons_self)
  calc l₁.countP q
      < (l₁ ++ [x]).countP q := by simp [hq]
    _ ≤ ((l₁ ++ x :: l₂).filter fun y => key y ≤ key x).countP q := hsub.countP_le
    _ = (upTo key rows x).countP q := (h.perm.filter _).countP_eq q

/-- A row is within the `LIMIT` if the rows ahead of or tied with it are. -/
lemma mem_take_of_upTo (h : OrderedBy key rows l) (hx : x ∈ rows)
    (hlimit : (upTo key rows x).length ≤ limit) : x ∈ l.take limit := by
  obtain ⟨l₁, l₂, rfl⟩ := List.append_of_mem (h.perm.mem_iff.mpr hx)
  have hlt := countP_lt_upTo (q := fun _ => true) h rfl
  simp only [List.countP_true] at hlt
  have hfirst : l₁ ++ [x] <+: (l₁ ++ x :: l₂).take limit := by
    refine List.prefix_take_iff.mpr ⟨⟨l₂, by simp⟩, ?_⟩
    rw [List.length_append, List.length_singleton]
    omega
  exact hfirst.subset (List.mem_append_right _ List.mem_cons_self)

/-! ### The most and the least favourable order -/

omit [LinearOrder κ] in
/-- Rows that pass one of two tests, of which none passes both. -/
lemma perm_filter_or (l : List α) {q r t : α → Bool} (ht : ∀ y, t y = (q y || r y))
    (hqr : ∀ y, q y = true → r y = false) :
    (l.filter q ++ l.filter r).Perm (l.filter t) := by
  have h := List.filter_append_perm q (l.filter t)
  rw [List.filter_filter, List.filter_filter] at h
  have hq : (fun y => q y && t y) = q := by
    funext y
    cases hy : q y <;> simp [ht, hy]
  have hr : (fun y => (!q y) && t y) = r := by
    funext y
    cases hy : q y
    · simp [ht, hy]
    · simp [hqr y hy]
  rwa [hq, hr] at h

/-- The rows of the key of `x` in any order make an answer with the sorted rows around them. -/
lemma orderedBy_of_ties {ties : List α} (hties : ties.Perm (rows.filter fun y => key y = key x)) :
    OrderedBy key rows
      ((ahead key rows x).insertionSort (fun y z => key y ≤ key z)
        ++ (ties ++ (rows.filter fun y => key x < key y).insertionSort
          fun y z => key y ≤ key z)) where
  perm := by
    have hties' : ((ahead key rows x).insertionSort (fun y z => key y ≤ key z) ++ ties).Perm
        (upTo key rows x) := by
      refine ((List.perm_insertionSort _ _).append hties).trans (perm_filter_or rows ?_ ?_)
      · intro y
        simp [le_iff_lt_or_eq]
      · intro y hy
        simpa using (of_decide_eq_true hy).ne
    have hall := perm_filter_or rows (q := fun y => decide (key y ≤ key x))
      (r := fun y => decide (key x < key y)) (t := fun _ => true) (fun y => by
        simpa using le_or_gt (key y) (key x)) fun y hy => by simpa using hy
    rw [List.filter_true] at hall
    rw [← List.append_assoc]
    exact (hties'.append (List.perm_insertionSort _ _)).trans hall
  sorted := by
    have hsort : ∀ r : List α, (r.insertionSort fun y z => key y ≤ key z).Pairwise
        fun y z => key y ≤ key z := fun r =>
      haveI : IsTrans α fun y z => key y ≤ key z := ⟨fun _ _ _ => le_trans⟩
      haveI : Std.Total fun y z : α => key y ≤ key z := ⟨fun y z => le_total (key y) (key z)⟩
      List.pairwise_insertionSort _ r
    have hlow : ∀ y ∈ (ahead key rows x).insertionSort (fun y z => key y ≤ key z),
        key y < key x := fun y hy => by
      simpa using (List.mem_filter.mp ((List.mem_insertionSort _).mp hy)).2
    have hmid : ∀ y ∈ ties, key y = key x := fun y hy => by
      simpa using (List.mem_filter.mp (hties.mem_iff.mp hy)).2
    have hhigh : ∀ y ∈ (rows.filter fun y => key x < key y).insertionSort
        (fun y z => key y ≤ key z), key x < key y := fun y hy => by
      simpa using (List.mem_filter.mp ((List.mem_insertionSort _).mp hy)).2
    refine List.pairwise_append.mpr ⟨hsort _, List.pairwise_append.mpr ⟨?_, hsort _, ?_⟩, ?_⟩
    · refine List.pairwise_of_forall_mem_list fun y hy z hz => ?_
      rw [hmid y hy, hmid z hz]
    · intro y hy z hz
      exact (hmid y hy).le.trans (hhigh z hz).le
    · intro y hy z hz
      rcases List.mem_append.mp hz with hz | hz
      · exact (hlow y hy).le.trans (hmid z hz).ge
      · exact (hlow y hy).le.trans (hhigh z hz).le

/-- Some order puts `x` before every row tied with it. -/
lemma exists_first (key : α → κ) (hx : x ∈ rows) :
    ∃ l₁ l₂, OrderedBy key rows (l₁ ++ x :: l₂) ∧ l₁.Perm (ahead key rows x) := by
  obtain ⟨s, t, hst⟩ := List.append_of_mem (List.mem_filter.mpr ⟨hx, by simp⟩ :
    x ∈ rows.filter fun y => key y = key x)
  have hties : (x :: (s ++ t)).Perm (rows.filter fun y => key y = key x) := by
    rw [hst]
    exact List.perm_middle.symm
  exact ⟨_, _, orderedBy_of_ties hties, List.perm_insertionSort _ _⟩

/-- Some order puts `x` after every row tied with it. -/
lemma exists_last (key : α → κ) (hx : x ∈ rows) :
    ∃ l₁ l₂, OrderedBy key rows (l₁ ++ x :: l₂) ∧ (l₁ ++ [x]).Perm (upTo key rows x) := by
  obtain ⟨s, t, hst⟩ := List.append_of_mem (List.mem_filter.mpr ⟨hx, by simp⟩ :
    x ∈ rows.filter fun y => key y = key x)
  have hties : ((s ++ t) ++ [x]).Perm (rows.filter fun y => key y = key x) := by
    rw [hst]
    exact (List.perm_append_singleton x (s ++ t)).trans List.perm_middle.symm
  have ho := orderedBy_of_ties hties
  rw [List.append_assoc (s ++ t), ← List.append_assoc, List.singleton_append] at ho
  refine ⟨_, _, ho, ?_⟩
  rw [List.append_assoc]
  refine ((List.perm_insertionSort _ _).append hties).trans (perm_filter_or rows ?_ ?_)
  · intro y
    simp [le_iff_lt_or_eq]
  · intro y hy
    simpa using (of_decide_eq_true hy).ne

/-- Rows can be answered in some order. -/
lemma exists_orderedBy (key : α → κ) (rows : List α) : ∃ l, OrderedBy key rows l := by
  cases rows with
  | nil => exact ⟨[], .refl _, .nil⟩
  | cons x rows =>
      obtain ⟨l₁, l₂, hl, -⟩ := exists_first key (List.mem_cons_self : x ∈ x :: rows)
      exact ⟨_, hl⟩

/-! ### What the cut lets through -/

lemma notMem_of_nodup (hn : rows.Nodup) (h : OrderedBy key rows (l₁ ++ x :: l₂)) : x ∉ l₁ := by
  have := h.perm.nodup_iff.mpr hn
  intro hx
  exact (List.nodup_append.mp this).2.2 x hx x List.mem_cons_self rfl

/-- A row is kept in some order if the rows strictly ahead of it leave room for it. -/
theorem exists_mem_cut_iff (hn : rows.Nodup) (hx : x ∈ rows) (hp : p x = true) :
    (∃ l, OrderedBy key rows l ∧ x ∈ cut limit p room l)
      ↔ (ahead key rows x).length < limit ∧ (ahead key rows x).countP p < room := by
  constructor
  · rintro ⟨l, hl, hcut⟩
    obtain ⟨l₁, l₂, rfl⟩ := List.append_of_mem (hl.perm.mem_iff.mpr hx)
    obtain ⟨h₁, h₂⟩ := (mem_cut_middle (notMem_of_nodup hn hl) hp).mp hcut
    have hlen := countP_ahead_le hl fun _ => true
    simp only [List.countP_true] at hlen
    exact ⟨hlen.trans_lt h₁, (countP_ahead_le hl p).trans_lt h₂⟩
  · rintro ⟨h₁, h₂⟩
    obtain ⟨l₁, l₂, hl, hperm⟩ := exists_first key hx
    refine ⟨_, hl, (mem_cut_middle (notMem_of_nodup hn hl) hp).mpr ⟨?_, ?_⟩⟩
    · rwa [hperm.length_eq]
    · rwa [hperm.countP_eq]

/-- A row is kept in every order if there is room for all rows ahead of or tied with it. -/
theorem forall_mem_cut_iff (hn : rows.Nodup) (hx : x ∈ rows) (hp : p x = true) :
    (∀ l, OrderedBy key rows l → x ∈ cut limit p room l)
      ↔ (upTo key rows x).length ≤ limit ∧ (upTo key rows x).countP p ≤ room := by
  constructor
  · intro h
    obtain ⟨l₁, l₂, hl, hperm⟩ := exists_last key hx
    obtain ⟨h₁, h₂⟩ := (mem_cut_middle (notMem_of_nodup hn hl) hp).mp (h _ hl)
    rw [← hperm.length_eq, ← hperm.countP_eq]
    simp only [List.length_append, List.length_singleton, List.countP_append, List.countP_singleton, hp]
    exact ⟨h₁, h₂⟩
  · rintro ⟨h₁, h₂⟩ l hl
    obtain ⟨l₁, l₂, rfl⟩ := List.append_of_mem (hl.perm.mem_iff.mpr hx)
    have hlen := countP_lt_upTo (q := fun _ => true) hl rfl
    simp only [List.countP_true] at hlen
    exact (mem_cut_middle (notMem_of_nodup hn hl) hp).mpr
      ⟨hlen.trans_le h₁, (countP_lt_upTo hl hp).trans_le h₂⟩

/-- **Ties at a cut**: every two answers keep a row together exactly when it is untied. -/
theorem untied_iff (hn : rows.Nodup) (hx : x ∈ rows) (hp : p x = true) :
    Untied key rows limit p room x
      ↔ ∀ l l', OrderedBy key rows l → OrderedBy key rows l' →
          x ∈ cut limit p room l → x ∈ cut limit p room l' := by
  have hex : (∃ l, OrderedBy key rows l ∧ x ∈ cut limit p room l) ↔ _ := exists_mem_cut_iff hn hx hp
  have hall : (∀ l, OrderedBy key rows l → x ∈ cut limit p room l) ↔ _ := forall_mem_cut_iff hn hx hp
  constructor
  · intro h l l' hl hl' hcut
    obtain ⟨h₁, h₂⟩ := hex.mp ⟨l, hl, hcut⟩
    exact hall.mpr (h h₁ h₂) l' hl'
  · intro h h₁ h₂
    obtain ⟨l, hl, hcut⟩ := hex.mpr ⟨h₁, h₂⟩
    exact hall.mp fun l' hl' => h l l' hl hl' hcut

end Txn
