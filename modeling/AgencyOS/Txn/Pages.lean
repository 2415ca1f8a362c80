import Mathlib.Tactic
import Mathlib.Data.List.Sort

/-!
Pages of an ordered query.

A query orders its rows by a relation that may leave ties, and each page is a query of its own: rows
that tie may come in another order on each page.

* `InOrder`, `page`, `pages`: an order of the rows, a page of it, and the pages one after the other;
* `Cut`: no two rows that tie stand on both sides of a position;
* `take_perm_of_cut`: then the rows before the position are the same in every order;
* `pages_perm_iff`: the pages give every row once exactly when they are not longer than the cap and
  every page is cut off from the next.
-/

namespace Txn.Pages

variable {α : Type} (r : α → α → Prop)

/-- The rows in an order of the query. -/
def InOrder (rows order : List α) : Prop := order.Perm rows ∧ order.Pairwise r

/-- The page after `k` pages; a page is never longer than the cap. -/
def page (limit cap k : ℕ) (order : List α) : List α :=
  (order.drop (k * limit)).take (min limit cap)

/-- The pages that start inside of so many rows. -/
def pageCount (limit size : ℕ) : ℕ := (size + limit - 1) / limit

/-- The pages one after the other, each from an order of its own. -/
def pages (limit cap size : ℕ) (orders : ℕ → List α) : List α :=
  (List.range (pageCount limit size)).flatMap fun k => page limit cap k (orders k)

/-- No row before the position ties with one after it. -/
def Cut (i : ℕ) (order : List α) : Prop := ∀ a ∈ order.take i, ∀ b ∈ order.drop i, ¬ r b a

instance [DecidableRel r] (i : ℕ) (order : List α) : Decidable (Cut r i order) :=
  inferInstanceAs (Decidable (∀ a ∈ order.take i, ∀ b ∈ order.drop i, ¬ r b a))

variable {r} {rows order order' : List α} {limit cap : ℕ}

lemma mem_page {k : ℕ} {a : α} :
    a ∈ page limit cap k order
      ↔ ∃ i, order[i]? = some a ∧ k * limit ≤ i ∧ i < k * limit + min limit cap := by
  rw [page, List.mem_iff_getElem?]
  constructor
  · rintro ⟨i, hi⟩
    rw [List.getElem?_take] at hi
    split_ifs at hi with hlt
    rw [List.getElem?_drop] at hi
    exact ⟨k * limit + i, hi, Nat.le_add_right _ _, by omega⟩
  · rintro ⟨i, hi, hle, hlt⟩
    refine ⟨i - k * limit, ?_⟩
    rw [List.getElem?_take_of_lt (by omega), List.getElem?_drop, Nat.add_sub_cancel' hle, hi]

/-- The page of a place. -/
lemma mem_page_of_getElem? (hlimit : 0 < limit) (hfits : limit ≤ cap) {i : ℕ} {a : α}
    (hi : order[i]? = some a) : a ∈ page limit cap (i / limit) order := by
  have hdiv := Nat.div_add_mod i limit
  have hmod := Nat.mod_lt i hlimit
  rw [Nat.mul_comm] at hdiv
  exact mem_page.2 ⟨i, hi, by omega, by omega⟩

lemma page_eq (hfits : limit ≤ cap ∨ order.length ≤ cap) (k : ℕ) :
    page limit cap k order = (order.drop (k * limit)).take limit := by
  rcases hfits with hle | hle
  · rw [page, min_eq_left hle]
  · have hlength : (order.drop (k * limit)).length ≤ cap := by
      rw [List.length_drop]
      omega
    rcases le_total limit cap with hlimit | hlimit
    · rw [page, min_eq_left hlimit]
    · rw [page, min_eq_right hlimit, List.take_of_length_le hlength,
        List.take_of_length_le (hlength.trans hlimit)]

lemma size_le_pageCount_mul (hlimit : 0 < limit) (size : ℕ) :
    size ≤ pageCount limit size * limit := by
  have hdiv := Nat.div_add_mod (size + limit - 1) limit
  have hmod := Nat.mod_lt (size + limit - 1) hlimit
  rw [pageCount, Nat.mul_comm]
  omega

lemma lt_pageCount (hlimit : 0 < limit) {size i : ℕ} (hi : i < size) :
    i / limit < pageCount limit size := by
  rw [pageCount, Nat.div_lt_iff_lt_mul hlimit]
  have hle := size_le_pageCount_mul hlimit size
  rw [pageCount] at hle
  omega

/-! ### Cuts -/

lemma cut_of_length_le {i : ℕ} (h : order.length ≤ i) : Cut r i order := by
  rw [Cut, List.drop_eq_nil_of_le h]
  simp

/-- Only the cuts inside of the list matter. -/
lemma cut_of_lt_length (hlimit : 0 < limit)
    (h : ∀ k < order.length, Cut r (k * limit) order) (k : ℕ) : Cut r (k * limit) order := by
  rcases Nat.lt_or_ge k order.length with hlt | hle
  · exact h k hlt
  · exact cut_of_length_le (hle.trans (Nat.le_mul_of_pos_right k hlimit))

/-- In a sorted list, what is closed towards the front is a prefix. -/
lemma filter_eq_take {p : α → Bool} (hsorted : order.Pairwise r)
    (hp : ∀ a b, r a b → p b = true → p a = true) :
    order.filter p = order.take (order.countP p) := by
  induction order with
  | nil => rfl
  | cons a order ih =>
      obtain ⟨hfirst, hrest⟩ := List.pairwise_cons.1 hsorted
      by_cases ha : p a = true
      · rw [List.filter_cons_of_pos ha, List.countP_cons_of_pos ha, List.take_succ_cons, ih hrest]
      · have hnone : ∀ b ∈ order, ¬ p b = true := fun b hb hpb => ha (hp a b (hfirst b hb) hpb)
        rw [List.filter_cons_of_neg ha, List.countP_cons_of_neg ha, List.countP_eq_zero.2 hnone,
          List.take_zero, List.filter_eq_nil_iff.2 hnone]

section

variable [IsTrans α r] [Std.Total r]

/-- **A cut** has the same rows before it in every order. -/
theorem take_perm_of_cut (h : InOrder r rows order) (h' : InOrder r rows order') {i : ℕ}
    (hcut : Cut r i order) : (order'.take i).Perm (order.take i) := by
  classical
  have hperm : order'.Perm order := h'.1.trans h.1.symm
  rcases le_or_gt order.length i with hle | hlt
  · rw [List.take_of_length_le hle, List.take_of_length_le (hperm.length_eq.trans_le hle)]
    exact hperm
  · -- what stands strictly before everything after the cut
    let p : α → Bool := fun a => decide (∀ b ∈ order.drop i, ¬ r b a)
    have hclosed : ∀ a b, r a b → p b = true → p a = true := by
      intro a b hab hb
      have hb := of_decide_eq_true hb
      exact decide_eq_true fun c hc hca => hb c hc (Trans.trans hca hab)
    have hbefore : (order.take i).filter p = order.take i :=
      List.filter_eq_self.2 fun a ha => decide_eq_true (hcut a ha)
    have hafter : (order.drop i).filter p = [] := by
      refine List.filter_eq_nil_iff.2 fun b hb hpb => ?_
      exact of_decide_eq_true hpb b hb (Std.Refl.refl b)
    have hfilter : order.filter p = order.take i := by
      rw [← List.take_append_drop i order, List.filter_append, hbefore, hafter, List.append_nil,
        List.take_append_drop]
    have hcount : order'.countP p = i := by
      rw [hperm.countP_eq, List.countP_eq_length_filter, hfilter, List.length_take]
      omega
    calc order'.take i
        = order'.filter p := by rw [filter_eq_take h'.2 hclosed, hcount]
      List.Perm _ (order.filter p) := hperm.filter p
      _ = order.take i := hfilter

/-! ### Pages -/

/-- **Pages that are cut** give every row once, whatever order each page comes in. -/
theorem pages_perm (hlimit : 0 < limit) (hfits : limit ≤ cap ∨ rows.length ≤ cap)
    (h : InOrder r rows order) (hcut : ∀ k, Cut r (k * limit) order) {orders : ℕ → List α}
    (horders : ∀ k, InOrder r rows (orders k)) :
    (pages limit cap rows.length orders).Perm rows := by
  have hpages : ∀ n, ((List.range n).flatMap fun k => page limit cap k (orders k)).Perm
      (order.take (n * limit)) := by
    intro n
    induction n with
    | zero => simp
    | succ n ih =>
        have hpage : page limit cap n (orders n) = ((orders n).drop (n * limit)).take limit :=
          page_eq (hfits.imp_right (horders n).1.length_eq.trans_le) n
        have hsplit : (orders n).take ((n + 1) * limit)
            = (orders n).take (n * limit) ++ page limit cap n (orders n) := by
          rw [hpage, Nat.succ_mul, List.take_add]
        rw [List.range_succ, List.flatMap_append, List.flatMap_singleton]
        have hbefore := take_perm_of_cut h (horders n) (hcut n)
        calc List.Perm
              ((List.range n).flatMap (fun k => page limit cap k (orders k))
                ++ page limit cap n (orders n))
              (order.take (n * limit) ++ page limit cap n (orders n)) := ih.append_right _
          List.Perm _ ((orders n).take (n * limit) ++ page limit cap n (orders n)) :=
            hbefore.symm.append_right _
          _ = (orders n).take ((n + 1) * limit) := hsplit.symm
          List.Perm _ (order.take ((n + 1) * limit)) :=
            take_perm_of_cut h (horders n) (hcut (n + 1))
  have hall : order.take (pageCount limit rows.length * limit) = order :=
    List.take_of_length_le (h.1.length_eq.trans_le (size_le_pageCount_mul hlimit _))
  have hrows := hpages (pageCount limit rows.length)
  rw [hall] at hrows
  exact hrows.trans h.1

end

/-- The place of a row in an order without duplicates. -/
lemma eq_of_getElem? (hn : order.Nodup) {i j : ℕ} {a : α} (hi : order[i]? = some a)
    (hj : order[j]? = some a) : i = j := by
  obtain ⟨hlt, hi⟩ := List.getElem?_eq_some_iff.1 hi
  obtain ⟨hlt', hj⟩ := List.getElem?_eq_some_iff.1 hj
  exact (List.Nodup.getElem_inj_iff hn).1 (hi.trans hj.symm)

/-- Pages that are longer than the cap lose the first row past it. -/
lemma fits_of_pages_perm (hn : rows.Nodup) (h : InOrder r rows order)
    (hpages : (pages limit cap rows.length fun _ => order).Perm rows) :
    limit ≤ cap ∨ rows.length ≤ cap := by
  by_contra hlong
  rw [not_or, not_le, not_le] at hlong
  have hlt : cap < order.length := h.1.length_eq ▸ hlong.2
  have hat : order[cap]? = some order[cap] := List.getElem?_eq_getElem hlt
  have hmem : order[cap] ∈ pages limit cap rows.length fun _ => order :=
    hpages.mem_iff.2 (h.1.mem_iff.1 (List.getElem_mem hlt))
  obtain ⟨k, -, hk⟩ := List.mem_flatMap.1 hmem
  obtain ⟨i, hi, hle, hlt'⟩ := mem_page.1 hk
  obtain rfl := eq_of_getElem? (h.1.nodup_iff.2 hn) hi hat
  rw [min_eq_right hlong.1.le] at hlt'
  -- only the first page starts before the cap, and it ends there
  have hzero : k = 0 := by
    by_contra hk0
    have hle' : limit ≤ k * limit := Nat.le_mul_of_pos_left limit (Nat.pos_of_ne_zero hk0)
    omega
  subst hzero
  omega

/-- Rows that tie can change places. -/
lemma InOrder.swap [IsTrans α r] [Std.Total r] [DecidableEq α] (hn : rows.Nodup)
    (h : InOrder r rows order) {a b : α} (ha : a ∈ order) (hb : b ∈ order) (hab : r a b)
    (hba : r b a) : InOrder r rows (order.map (Equiv.swap a b)) := by
  have hno : order.Nodup := h.1.nodup_iff.2 hn
  have htie : ∀ c, r c (Equiv.swap a b c) ∧ r (Equiv.swap a b c) c := by
    intro c
    rw [Equiv.swap_apply_def]
    split_ifs with hca hcb
    · exact hca ▸ ⟨hab, hba⟩
    · exact hcb ▸ ⟨hba, hab⟩
    · exact ⟨Std.Refl.refl c, Std.Refl.refl c⟩
  have hmem : ∀ c, c ∈ order → Equiv.swap a b c ∈ order := by
    intro c hc
    rw [Equiv.swap_apply_def]
    split_ifs
    · exact hb
    · exact ha
    · exact hc
  constructor
  · refine List.Perm.trans ?_ h.1
    refine (List.perm_ext_iff_of_nodup (hno.map (Equiv.swap a b).injective) hno).2 fun c => ?_
    rw [List.mem_map]
    constructor
    · rintro ⟨d, hd, rfl⟩
      exact hmem d hd
    · intro hc
      exact ⟨Equiv.swap a b c, hmem c hc, Equiv.swap_apply_self a b c⟩
  · rw [List.pairwise_map]
    refine h.2.imp fun {c d} hcd => ?_
    exact Trans.trans (Trans.trans (htie c).2 hcd) (htie d).1

/-- **Rows that tie across a page** come twice, from two orders. -/
theorem cut_of_pages_perm [IsTrans α r] [Std.Total r] (hlimit : 0 < limit) (hn : rows.Nodup)
    (hfits : limit ≤ cap ∨ rows.length ≤ cap) (h : InOrder r rows order)
    (hpages : ∀ orders : ℕ → List α, (∀ k, InOrder r rows (orders k)) →
      (pages limit cap rows.length orders).Perm rows) (k : ℕ) : Cut r (k * limit) order := by
  classical
  intro a ha b hb hba
  have hno : order.Nodup := h.1.nodup_iff.2 hn
  obtain ⟨i, hi⟩ := List.mem_iff_getElem?.1 ha
  rw [List.getElem?_take] at hi
  split_ifs at hi with hik
  obtain ⟨j, hj⟩ := List.mem_iff_getElem?.1 hb
  rw [List.getElem?_drop] at hj
  have hjlt : k * limit + j < rows.length :=
    (List.getElem?_eq_some_iff.1 hj).1.trans_eq h.1.length_eq
  have hlimit' : limit ≤ cap := by
    have hk : 0 < k := Nat.pos_of_ne_zero (by rintro rfl; omega)
    have hle : limit ≤ k * limit := Nat.le_mul_of_pos_left limit hk
    omega
  -- the page of `b` comes with `a` in the place of `b`
  have hab : r a b := by
    have hpair := List.pairwise_append.1 ((List.take_append_drop (k * limit) order).symm ▸ h.2)
    exact hpair.2.2 a ha b hb
  let later := order.map (Equiv.swap a b)
  have hlater : InOrder r rows later :=
    h.swap hn (List.mem_of_mem_take ha) (List.mem_of_mem_drop hb) hab hba
  let page₁ := i / limit
  let page₂ := (k * limit + j) / limit
  let orders : ℕ → List α := fun m => if m = page₂ then later else order
  have horders : ∀ m, InOrder r rows (orders m) := by
    intro m
    by_cases hm : m = page₂
    · simpa only [orders, if_pos hm] using hlater
    · simpa only [orders, if_neg hm] using h
  have hne : page₁ ≠ page₂ := by
    have hlt : i / limit < k := (Nat.div_lt_iff_lt_mul hlimit).2 hik
    have hle : k ≤ (k * limit + j) / limit := (Nat.le_div_iff_mul_le hlimit).2 (Nat.le_add_right _ _)
    exact (hlt.trans_le hle).ne
  have hfirst : a ∈ page limit cap page₁ (orders page₁) := by
    simpa only [orders, if_neg hne] using mem_page_of_getElem? hlimit hlimit' hi
  have hsecond : a ∈ page limit cap page₂ (orders page₂) := by
    simp only [orders, if_pos]
    refine mem_page_of_getElem? hlimit hlimit' ?_
    rw [List.getElem?_map, hj, Option.map_some, Equiv.swap_apply_right]
  have hnodup := (hpages orders horders).nodup_iff.2 hn
  rw [pages, List.nodup_flatMap] at hnodup
  have hlt₁ : page₁ < pageCount limit rows.length := lt_pageCount hlimit (by omega)
  have hlt₂ : page₂ < pageCount limit rows.length := lt_pageCount hlimit hjlt
  have hsymm : Std.Symm (Function.onFun List.Disjoint fun m => page limit cap m (orders m)) :=
    ⟨fun _ _ hd => hd.symm⟩
  exact hnodup.2.forall (List.mem_range.2 hlt₁) (List.mem_range.2 hlt₂) hne hfirst hsecond

/-- **The pages of a query** give every row once, whatever order each page comes in, exactly when no
page is longer than the cap and no tie spans two pages. -/
theorem pages_perm_iff [IsTrans α r] [Std.Total r] (hlimit : 0 < limit) (hn : rows.Nodup)
    (h : InOrder r rows order) :
    (∀ orders : ℕ → List α, (∀ k, InOrder r rows (orders k)) →
        (pages limit cap rows.length orders).Perm rows)
      ↔ (limit ≤ cap ∨ rows.length ≤ cap) ∧ ∀ k, Cut r (k * limit) order := by
  constructor
  · intro hpages
    have hfits := fits_of_pages_perm hn h (hpages _ fun _ => h)
    exact ⟨hfits, cut_of_pages_perm hlimit hn hfits h hpages⟩
  · rintro ⟨hfits, hcut⟩ orders horders
    exact pages_perm hlimit hfits h hcut horders

end Txn.Pages
