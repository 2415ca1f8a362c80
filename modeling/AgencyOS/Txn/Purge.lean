import AgencyOS.Txn.OrderBy
import Mathlib.Tactic.Ring

/-!
Deleting the old rows of a table in chunks.

A statement deletes the first `limit` of the old rows, by their ids; which ones, where the order leaves
ties open, is up to the store.  The statement is repeated until it deletes fewer than a batch.  Other
rows may arrive all the while.

* `Chunk`: what a statement deletes and leaves; `Chunk.key_le_of_mem_chosen`: it begins with the oldest;
* `purge`: the loop, with the statements it has taken;
* `purge_eq`: alone with its old rows the loop ends, all of them are gone, and nothing else is.
-/

namespace Txn

variable {α ι κ : Type} [LinearOrder κ] [DecidableEq ι] {key : α → κ} {id : α → ι} {old : α → Bool}
  {rows : List α} {limit batch : ℕ}

omit [DecidableEq ι] in
lemma orderedBy_insertionSort (key : α → κ) (rows : List α) :
    OrderedBy key rows (rows.insertionSort fun x y => key x ≤ key y) where
  perm := List.perm_insertionSort _ rows
  sorted := by
    have : Std.Total (fun x y : α => key x ≤ key y) := ⟨fun x y => le_total (key x) (key y)⟩
    have : IsTrans α fun x y => key x ≤ key y := ⟨fun _ _ _ => le_trans⟩
    exact List.pairwise_insertionSort _ rows

/-- The old rows of a table, in the order a statement takes them. -/
structure Chunk (key : α → κ) (old : α → Bool) (rows : List α) where
  order : List α
  ordered : OrderedBy key (rows.filter old) order

namespace Chunk

variable (chunk : Chunk key old rows)

/-- The rows the statement picks. -/
def chosen (limit : ℕ) : List α := chunk.order.take limit

/-- The rows it leaves: it deletes by id. -/
def left (id : α → ι) (limit : ℕ) : List α := rows.filter fun x => id x ∉ (chunk.chosen limit).map id

/-- How many rows it deletes. -/
def count (id : α → ι) (limit : ℕ) : ℕ := rows.countP fun x => id x ∈ (chunk.chosen limit).map id

lemma mem_of_mem_chosen {x : α} (hx : x ∈ chunk.chosen limit) : x ∈ rows ∧ old x = true :=
  List.mem_filter.mp (chunk.ordered.perm.mem_iff.mp (List.mem_of_mem_take hx))

lemma length_order : chunk.order.length = rows.countP old := by
  rw [chunk.ordered.perm.length_eq, List.countP_eq_length_filter]

omit [DecidableEq ι] in
lemma mem_map_chosen (hid : ∀ x ∈ rows, ∀ y ∈ rows, id x = id y → x = y) {x : α} (hx : x ∈ rows) :
    id x ∈ (chunk.chosen limit).map id ↔ x ∈ chunk.chosen limit := by
  constructor
  · intro h
    obtain ⟨y, hy, hxy⟩ := List.mem_map.mp h
    rwa [← hid y (chunk.mem_of_mem_chosen hy).1 x hx hxy]
  · exact List.mem_map_of_mem

omit [DecidableEq ι] in
/-- No old row that is passed over comes before one that is picked. -/
lemma key_le_of_mem_chosen {x y : α} (hx : x ∈ chunk.chosen limit) (hy : y ∈ rows)
    (hold : old y = true) (hleft : y ∉ chunk.chosen limit) : key x ≤ key y := by
  have horder : y ∈ chunk.order :=
    chunk.ordered.perm.mem_iff.mpr (List.mem_filter.mpr ⟨hy, hold⟩)
  have hsorted := chunk.ordered.sorted
  rw [← List.take_append_drop limit chunk.order] at hsorted horder
  have hdrop : y ∈ chunk.order.drop limit := (List.mem_append.mp horder).resolve_left hleft
  exact (List.pairwise_append.mp hsorted).2.2 x hx y hdrop

variable (limit) in
/-- The young rows are left, in their order. -/
lemma filter_left (hid : ∀ x ∈ rows, ∀ y ∈ rows, id x = id y → x = y) :
    (chunk.left id limit).filter (fun x => !old x) = rows.filter fun x => !old x := by
  rw [left, List.filter_filter]
  refine List.filter_congr fun x hx => ?_
  rw [Bool.eq_iff_iff]
  simp only [Bool.and_eq_true, Bool.not_eq_true', decide_eq_true_eq, and_iff_left_iff_imp]
  intro hyoung hchosen
  have hold := (chunk.mem_of_mem_chosen ((chunk.mem_map_chosen hid hx).mp hchosen)).2
  simp [hold] at hyoung

variable (limit) in
/-- A statement deletes a whole chunk, or all old rows when they are fewer. -/
lemma count_eq (hid : ∀ x ∈ rows, ∀ y ∈ rows, id x = id y → x = y) (hn : (rows.filter old).Nodup) :
    chunk.count id limit = min limit (rows.countP old) := by
  classical
  have hchosen : (chunk.chosen limit).Nodup :=
    (chunk.ordered.perm.nodup_iff.mpr hn).sublist (List.take_sublist _ _)
  have hperm : (rows.filter fun x => id x ∈ (chunk.chosen limit).map id).Perm (chunk.chosen limit) := by
    have hsame : (rows.filter fun x => id x ∈ (chunk.chosen limit).map id) =
        (rows.filter old).filter fun x => x ∈ chunk.chosen limit := by
      rw [List.filter_filter]
      refine List.filter_congr fun x hx => ?_
      rw [Bool.eq_iff_iff]
      simp only [Bool.and_eq_true, decide_eq_true_eq, chunk.mem_map_chosen hid hx]
      exact ⟨fun h => ⟨h, (chunk.mem_of_mem_chosen h).2⟩, And.left⟩
    rw [hsame]
    refine (List.perm_ext_iff_of_nodup (hn.filter _) hchosen).mpr fun x => ?_
    simp only [List.mem_filter, decide_eq_true_eq]
    exact ⟨And.right, fun h => ⟨chunk.mem_of_mem_chosen h, h⟩⟩
  rw [count, List.countP_eq_length_filter, hperm.length_eq, chosen, List.length_take, chunk.length_order]

lemma left_sublist : (chunk.left id limit).Sublist rows := List.filter_sublist

variable (limit) in
/-- The old rows that are left are those that were not deleted. -/
lemma countP_left (hid : ∀ x ∈ rows, ∀ y ∈ rows, id x = id y → x = y) (hn : (rows.filter old).Nodup) :
    (chunk.left id limit).countP old = rows.countP old - limit := by
  have hsplit : (chunk.left id limit).countP old + chunk.count id limit = rows.countP old := by
    have hcount : chunk.count id limit =
        rows.countP fun x => old x && decide (id x ∈ (chunk.chosen limit).map id) := by
      refine List.countP_congr fun x hx => ?_
      simp only [decide_eq_true_eq, Bool.and_eq_true, chunk.mem_map_chosen hid hx]
      exact ⟨fun h => ⟨(chunk.mem_of_mem_chosen h).2, h⟩, And.right⟩
    rw [hcount, left, List.countP_filter]
    have := List.countP_eq_countP_filter_add rows old fun x => id x ∈ (chunk.chosen limit).map id
    simp only [List.countP_filter] at this
    rw [this, Nat.add_comm]
    simp only [decide_not]
  have hcount := chunk.count_eq limit hid hn
  omega

end Chunk

omit [DecidableEq ι] in
/-- A store that takes the rows of one key as they stand. -/
def Chunk.stable (key : α → κ) (old : α → Bool) (rows : List α) : Chunk key old rows where
  order := (rows.filter old).insertionSort fun x y => key x ≤ key y
  ordered := orderedBy_insertionSort key (rows.filter old)

/-! ### The loop -/

/-- What happens around the loop: the order each statement finds, and the rows that arrive after it. -/
structure Course (key : α → κ) (old : α → Bool) where
  choose : ℕ → (rows : List α) → Chunk key old rows
  arrives : ℕ → List α

/-- How a loop has ended: the rows, how many were deleted, and the number of the next statement. -/
structure Purged (α : Type) where
  rows : List α
  deleted : ℕ
  next : ℕ

/-- The loop from statement `i` on; `none` where the fuel does not last. -/
def purge (id : α → ι) (limit batch : ℕ) (course : Course key old) :
    ℕ → ℕ → List α → ℕ → Option (Purged α)
  | 0, _, _, _ => none
  | fuel + 1, i, rows, deleted =>
      let chunk := course.choose i rows
      let count := chunk.count id limit
      let rows := chunk.left id limit ++ course.arrives i
      if count < batch then some ⟨rows, deleted + count, i + 1⟩
      else purge id limit batch course fuel (i + 1) rows (deleted + count)

/-- The rows that arrive during a number of statements. -/
def Course.arrived (course : Course key old) (i n : ℕ) : List α :=
  (List.range n).flatMap fun k => course.arrives (i + k)

lemma Course.arrived_succ (course : Course key old) (i n : ℕ) :
    course.arrived i (n + 1) = course.arrives i ++ course.arrived (i + 1) n := by
  simp [Course.arrived, List.range_succ_eq_map, List.flatMap_cons, List.flatMap_map, Nat.add_assoc,
    Nat.add_comm 1]

/-- A table whose old rows differ, told apart by their ids whatever arrives; what arrives is young. -/
structure Course.Calm (course : Course key old) (id : α → ι) (rows : List α) : Prop where
  nodup : (rows.filter old).Nodup
  young : ∀ i, ∀ x ∈ course.arrives i, old x = false
  ids : ∀ x y, (x ∈ rows ∨ ∃ i, x ∈ course.arrives i) → (y ∈ rows ∨ ∃ i, y ∈ course.arrives i) →
    id x = id y → x = y

variable {course : Course key old}

omit [DecidableEq ι] in
lemma Course.Calm.ids_rows (h : course.Calm id rows) :
    ∀ x ∈ rows, ∀ y ∈ rows, id x = id y → x = y :=
  fun x hx y hy => h.ids x y (Or.inl hx) (Or.inl hy)

variable (limit) in
/-- A statement leaves a calm table calm. -/
lemma Course.Calm.next (h : course.Calm id rows) (i : ℕ) :
    course.Calm id ((course.choose i rows).left id limit ++ course.arrives i) := by
  have hyoung : (course.arrives i).filter old = [] :=
    List.filter_eq_nil_iff.mpr fun x hx => by simp [h.young i x hx]
  have hmem : ∀ x, (x ∈ (course.choose i rows).left id limit ++ course.arrives i ∨
      ∃ k, x ∈ course.arrives k) → (x ∈ rows ∨ ∃ k, x ∈ course.arrives k) := by
    rintro x (hx | hx)
    · rcases List.mem_append.mp hx with hleft | harrives
      · exact Or.inl ((course.choose i rows).left_sublist.mem hleft)
      · exact Or.inr ⟨i, harrives⟩
    · exact Or.inr hx
  refine ⟨?_, h.young, fun x y hx hy => h.ids x y (hmem x hx) (hmem y hy)⟩
  rw [List.filter_append, hyoung, List.append_nil]
  exact h.nodup.sublist ((course.choose i rows).left_sublist.filter old)

lemma countP_next (h : course.Calm id rows) (i : ℕ) :
    ((course.choose i rows).left id limit ++ course.arrives i).countP old =
      rows.countP old - limit := by
  have hyoung : (course.arrives i).countP old = 0 :=
    List.countP_eq_zero.mpr fun x hx => by simp [h.young i x hx]
  rw [List.countP_append, hyoung, Nat.add_zero, Chunk.countP_left limit _ h.ids_rows h.nodup]

lemma filter_next (h : course.Calm id rows) (i : ℕ) :
    ((course.choose i rows).left id limit ++ course.arrives i).filter (fun x => !old x) =
      (rows.filter fun x => !old x) ++ course.arrives i := by
  rw [List.filter_append, Chunk.filter_left limit _ h.ids_rows]
  congr 1
  exact List.filter_eq_self.mpr fun x hx => by simp [h.young i x hx]

/-- **The loop ends** once it has statements enough, with the young rows, those that arrived, and no
other; and it has deleted as many rows as were old. -/
theorem purge_eq (hbatch : 1 ≤ batch) (h : course.Calm id rows) {fuel : ℕ}
    (hfuel : rows.countP old / batch < fuel) (i deleted : ℕ) :
    purge id batch batch course fuel i rows deleted =
      some ⟨(rows.filter fun x => !old x) ++ course.arrived i (rows.countP old / batch + 1),
        deleted + rows.countP old, i + (rows.countP old / batch + 1)⟩ := by
  induction fuel generalizing i rows deleted with
  | zero => exact absurd hfuel (Nat.not_lt_zero _)
  | succ fuel ih =>
      have hcount := (course.choose i rows).count_eq batch h.ids_rows h.nodup
      by_cases hfew : rows.countP old < batch
      · have hzero : rows.countP old / batch = 0 := Nat.div_eq_of_lt hfew
        have hnone : (course.choose i rows).left id batch =
            rows.filter fun x => !old x := by
          rw [← (course.choose i rows).filter_left batch h.ids_rows]
          refine (List.filter_eq_self.mpr fun x hx => ?_).symm
          have hcountP := (course.choose i rows).countP_left batch h.ids_rows h.nodup
          have hyoung := List.countP_eq_zero.mp (hcountP.trans (by omega)) x hx
          simpa using hyoung
        rw [purge, if_pos (by omega), hcount, Nat.min_eq_right hfew.le, hzero, hnone]
        simp [Course.arrived]
      · have hrest : (rows.countP old - batch) / batch + 1 = rows.countP old / batch := by
          rw [Nat.div_eq_sub_div hbatch (not_lt.mp hfew)]
        have hnext := ih (h.next batch i) (by rw [countP_next h]; omega) (i + 1)
          (deleted + (course.choose i rows).count id batch)
        have hadd : ∀ a b c : ℕ, batch ≤ b → a + batch + (b - batch) = a + b := fun a b c hb => by omega
        rw [purge, if_neg (by omega), hnext, countP_next h, filter_next h, hcount,
          Nat.min_eq_left (not_lt.mp hfew), hrest, hadd _ _ 0 (not_lt.mp hfew), course.arrived_succ i,
          List.append_assoc, Nat.add_assoc, Nat.add_comm 1]

end Txn
