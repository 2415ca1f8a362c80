import Mathlib.Data.List.Count
import Mathlib.Data.List.Perm.Basic
import Mathlib.Data.List.Sort

/-!
The first elements of a ranking.

* `TopOf`: a choice of the elements with the greatest keys, where ties are open;
* `topOf_take`: the first elements of a sorted list are such a choice;
* `topOf_append_iff`: **a choice from a part is one from the whole exactly if each element left out
  of the part has enough elements of the part at least as high**.
-/

namespace Python

variable {α κ : Type} [LinearOrder κ] {key : α → κ} {limit : ℕ} {items items' top l : List α}

/-- The `limit` elements with the greatest keys, from the greatest on. -/
structure TopOf (key : α → κ) (limit : ℕ) (items top : List α) : Prop where
  rest : ∃ rest, items.Perm (top ++ rest) ∧ ∀ x ∈ rest, ∀ y ∈ top, key x ≤ key y
  length : top.length = min limit items.length
  descending : top.Pairwise fun y x => key x ≤ key y

/-- The order of the elements to choose from does not matter. -/
lemma TopOf.congr (h : TopOf key limit items top) (hp : items.Perm items') :
    TopOf key limit items' top := by
  obtain ⟨rest, hrest, hle⟩ := h.rest
  exact ⟨⟨rest, hp.symm.trans hrest, hle⟩, hp.length_eq ▸ h.length, h.descending⟩

lemma topOf_congr (hp : items.Perm items') : TopOf key limit items top ↔ TopOf key limit items' top :=
  ⟨fun h => h.congr hp, fun h => h.congr hp.symm⟩

/-- The first elements of a sorted list are at the top. -/
lemma topOf_take (hp : l.Perm items) (hsorted : l.Pairwise fun y x => key x ≤ key y) :
    TopOf key limit items (l.take limit) := by
  have hsplit : (l.take limit ++ l.drop limit).Pairwise fun y x => key x ≤ key y := by
    rwa [List.take_append_drop]
  obtain ⟨htake, -, hcross⟩ := List.pairwise_append.1 hsplit
  refine ⟨⟨l.drop limit, ?_, fun x hx y hy => hcross y hy x hx⟩, ?_, htake⟩
  · rw [List.take_append_drop]
    exact hp.symm
  · rw [List.length_take, hp.length_eq]

section Parts

variable {pool outside : List α}

/-- Enough elements of the part that are at least as high bound the choice from below. -/
lemma TopOf.le_of_countP (h : TopOf key limit pool top) {x y : α} (hy : y ∈ top)
    (hx : limit ≤ pool.countP fun z => key x ≤ key z) : key x ≤ key y := by
  obtain ⟨rest, hperm, hle⟩ := h.rest
  by_contra hlt
  rw [not_le] at hlt
  -- what is left out is below `y`, and `y` itself is below `x`
  have hrest : rest.countP (fun z => key x ≤ key z) = 0 := by
    rw [List.countP_eq_zero]
    intro z hz
    have hzy := hle z hz y hy
    simpa using hzy.trans_lt hlt
  have htop : top.countP (fun z => key x ≤ key z) < top.length := by
    refine lt_of_le_of_ne List.countP_le_length fun hall => ?_
    have hxy := List.countP_eq_length.1 hall y hy
    exact absurd hlt (not_lt.2 (by simpa using hxy))
  have hcount := hperm.countP_eq fun z => key x ≤ key z
  have hlength := h.length
  rw [List.countP_append] at hcount
  omega

/-- **The choice from a part is one from the whole exactly if each element outside has enough
elements of the part at least as high.** -/
theorem topOf_append_iff (h : TopOf key limit pool top) :
    TopOf key limit (pool ++ outside) top
      ↔ ∀ x ∈ outside, limit ≤ pool.countP fun z => key x ≤ key z := by
  obtain ⟨rest, hperm, hle⟩ := h.rest
  have hlength := h.length
  have hwhole : (pool ++ outside).Perm (top ++ (rest ++ outside)) := by
    rw [← List.append_assoc]
    exact hperm.append_right outside
  constructor
  · intro hall x hx
    obtain ⟨rest', hperm', hle'⟩ := hall.rest
    have hlength' := hall.length
    have hpos : 0 < outside.length := List.length_pos_of_mem hx
    rw [List.length_append] at hlength'
    have hfull : top.length = limit := by omega
    have hxrest : x ∈ rest' :=
      ((List.perm_append_left_iff top).1 (hwhole.symm.trans hperm')).subset (by simp [hx])
    calc limit = top.length := hfull.symm
      _ = top.countP fun z => key x ≤ key z := by
          refine (List.countP_eq_length.2 fun y hy => ?_).symm
          simpa using hle' x hxrest y hy
      _ ≤ pool.countP fun z => key x ≤ key z := by
          rw [hperm.countP_eq, List.countP_append]
          exact Nat.le_add_right _ _
  · intro hcount
    refine ⟨⟨rest ++ outside, hwhole, fun x hx y hy => ?_⟩, ?_, h.descending⟩
    · rcases List.mem_append.1 hx with hrest | houtside
      · exact hle x hrest y hy
      · exact h.le_of_countP hy (hcount x houtside)
    · rw [List.length_append]
      cases outside with
      | nil => simpa using hlength
      | cons x outside =>
          have hx := hcount x List.mem_cons_self
          have hpool := List.countP_le_length (p := fun z => decide (key x ≤ key z)) (l := pool)
          omega

end Parts

end Python
