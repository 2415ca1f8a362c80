import Mathlib.Data.Int.CardIntervalMod
import Mathlib.Data.List.Count
import Mathlib.Tactic

/-!
Taking turns.

* `turns`: the places that take their turn, one after the other and from the first again;
* `FairShare`: a share of `k` turns among `n` that is off by less than one;
* `count_turns`: **every place has its fair share of the turns**;
* `countP_turns`: the same for a list of different elements.
-/

namespace Python

variable {start n k : ℕ}

/-- The places of `k` turns among `n`. -/
def turns (start n k : ℕ) : List ℕ := (List.range k).map fun j => (start + j) % n

@[simp] lemma length_turns (start n k : ℕ) : (turns start n k).length = k := by
  rw [turns, List.length_map, List.length_range]

lemma turns_succ (start n k : ℕ) : turns start n (k + 1) = turns start n k ++ [(start + k) % n] := by
  rw [turns, List.range_succ, List.map_append, List.map_singleton, turns]

/-- The share is `k / n`, rounded down or up. -/
def FairShare (n k share : ℕ) : Prop := share = k / n ∨ share = (k + n - 1) / n

instance (n k share : ℕ) : Decidable (FairShare n k share) := inferInstanceAs (Decidable (_ ∨ _))

lemma fairShare_succ (hn : 0 < n) (hmod : 0 < k % n) : FairShare n k (k / n + 1) := by
  have hlt := Nat.mod_lt k hn
  have hdiv := Nat.div_add_mod k n
  have hone : (k / n + 1) * n = n * (k / n) + n := by ring
  have htwo : (k / n + 1 + 1) * n = n * (k / n) + n + n := by ring
  exact Or.inr (Nat.div_eq_of_lt_le (by omega) (by omega)).symm

/-- A place has its turn when the number of turns so far leaves it so. -/
lemma count_turns_eq {i : ℕ} (hi : i < n) (start k : ℕ) :
    (turns start n k).count i = k.count (· ≡ i + (n - start % n) [MOD n]) := by
  have hn : 0 < n := by omega
  have hstart := Nat.mod_lt start hn
  induction k with
  | zero => rfl
  | succ k ih =>
      rw [turns_succ, List.count_append, ih, Nat.count_succ, List.count_singleton]
      congr 1
      have hiff : (start + k) % n = i ↔ k ≡ i + (n - start % n) [MOD n] := by
        rw [Nat.ModEq]
        constructor
        · rintro rfl
          have hadd : (start + k) % n + (n - start % n) ≡ k [MOD n] := by
            calc (start + k) % n + (n - start % n)
                ≡ start + k + (n - start % n) [MOD n] := (Nat.mod_modEq _ _).add_right _
              _ ≡ start % n + k + (n - start % n) [MOD n] :=
                  (((Nat.mod_modEq start n).symm).add_right k).add_right _
              _ = k + n := by omega
              _ ≡ k [MOD n] := Nat.add_modEq_right
          exact hadd.symm
        · intro h
          have hadd : start + k ≡ i [MOD n] := by
            calc start + k
                ≡ start % n + k [MOD n] := ((Nat.mod_modEq start n).symm).add_right k
              _ ≡ start % n + (i + (n - start % n)) [MOD n] := Nat.ModEq.add_left _ h
              _ = i + n := by omega
              _ ≡ i [MOD n] := Nat.add_modEq_right
          rw [← Nat.mod_eq_of_lt hi]
          exact hadd
      by_cases hturn : (start + k) % n = i
      · rw [if_pos (hiff.1 hturn), if_pos (by simpa using hturn)]
      · rw [if_neg (fun h => hturn (hiff.2 h)), if_neg (by simpa using hturn)]

/-- **Every place has its fair share of the turns.** -/
theorem count_turns {i : ℕ} (hi : i < n) (start k : ℕ) : FairShare n k ((turns start n k).count i) := by
  have hn : 0 < n := by omega
  rw [count_turns_eq hi, Nat.count_modEq_card k hn]
  split_ifs with hlt
  · exact fairShare_succ hn (by omega)
  · exact Or.inl rfl

/-- **Every one of some different elements has its fair share of the turns.** -/
theorem countP_turns {α : Type} [DecidableEq α] {l : List α} (hl : l.Nodup) {a : α} (ha : a ∈ l)
    (start k : ℕ) :
    FairShare l.length k (((turns start l.length k).map fun i => l[i]?).count (some a)) := by
  obtain ⟨i, hi, rfl⟩ := List.getElem_of_mem ha
  have hcount : ((turns start l.length k).map fun i => l[i]?).count (some l[i])
      = (turns start l.length k).count i := by
    rw [List.count, List.countP_map, List.count]
    refine List.countP_congr fun j hj => ?_
    obtain ⟨m, -, rfl⟩ := List.mem_map.1 hj
    have hlt : (start + m) % l.length < l.length := Nat.mod_lt _ (by omega)
    simp [List.getElem?_eq_getElem hlt, hl.getElem_inj_iff]
  rw [hcount]
  exact count_turns hi start k

end Python
