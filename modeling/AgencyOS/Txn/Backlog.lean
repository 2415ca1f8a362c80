import Mathlib.Tactic

/-!
A backlog that is served from its head.

Each round takes the first elements of the backlog, in an order that goes by rank.  Those that can be
served leave it, and the others stay where they are; so what cannot be served blocks the head.

* `serve`, `Round`: one round, in whatever order equal ranks come;
* `ahead`: how many that cannot be served may come before an element;
* `exists_mem_take`, `Reachable.clear`: with fewer ahead than a round takes, the round serves something,
  and some number of rounds serves everything;
* `not_mem_take_of_before`, `Blocked.run`: with as many ahead, no number of rounds need serve the
  element.
-/

namespace Txn.Backlog

variable {α : Type} (good : α → Bool) (rank : α → ℕ) (k : ℕ)

/-- What a round leaves of the backlog, taken in this order. -/
def serve (order : List α) : List α := (order.take k).filter (fun a => !good a) ++ order.drop k

/-- One round. -/
def Round (l l' : List α) : Prop :=
  ∃ order : List α, order.Perm l ∧ order.Pairwise (fun a b => rank a ≤ rank b)
    ∧ l'.Perm (serve good k order)

/-- Nothing is left that can be served. -/
def Clear (l : List α) : Prop := ∀ a ∈ l, good a = false

/-- Those that cannot be served and may come before `a`. -/
def ahead (l : List α) (a : α) : ℕ := l.countP fun b => !good b && decide (rank b ≤ rank a)

/-- A round is longer than what is ahead of any element that can be served. -/
def Reachable (l : List α) : Prop := ∀ a ∈ l, good a = true → ahead good rank l a < k

variable {good rank k} {l l' order : List α} {a : α}

lemma ahead_perm (h : l.Perm l') (a : α) : ahead good rank l a = ahead good rank l' a :=
  h.countP_eq _

/-- A round leaves those that cannot be served. -/
lemma ahead_serve (order : List α) (a : α) :
    ahead good rank (serve good k order) a = ahead good rank order a := by
  have hfilter : ∀ l : List α, ahead good rank (l.filter fun b => !good b) a
      = ahead good rank l a := by
    intro l
    rw [ahead, ahead, List.countP_filter]
    exact List.countP_congr fun b _ => by cases good b <;> simp
  calc ahead good rank (serve good k order) a
      = ahead good rank ((order.take k).filter fun b => !good b) a
        + ahead good rank (order.drop k) a := List.countP_append
    _ = ahead good rank (order.take k) a + ahead good rank (order.drop k) a := by rw [hfilter]
    _ = ahead good rank (order.take k ++ order.drop k) a := List.countP_append.symm
    _ = ahead good rank order a := by rw [List.take_append_drop]

/-- What a round leaves was there before. -/
lemma mem_of_mem_serve (h : a ∈ serve good k order) : a ∈ order := by
  rw [serve, List.mem_append] at h
  rcases h with h | h
  · exact List.mem_of_mem_take (List.mem_filter.1 h).1
  · exact List.mem_of_mem_drop h

variable (good k) in
/-- A round is shorter by what it serves. -/
lemma length_serve (order : List α) :
    (serve good k order).length + (order.take k).countP good = order.length := by
  have hcount : (order.take k).length
      = (order.take k).countP good + ((order.take k).filter fun a => !good a).length := by
    rw [List.length_eq_countP_add_countP good (l := order.take k), ← List.countP_eq_length_filter]
    simp
  have hsplit := congrArg List.length (List.take_append_drop k order)
  rw [List.length_append] at hsplit
  rw [serve, List.length_append]
  omega

/-! ### What is reached -/

/-- The first element that can be served is among those a round takes. -/
lemma exists_mem_take (hsorted : order.Pairwise fun a b => rank a ≤ rank b) (ha : a ∈ order)
    (hgood : good a = true) (hahead : ahead good rank order a < k) :
    ∃ b ∈ order.take k, good b = true := by
  have hsome : (order.find? good).isSome := List.find?_isSome.2 ⟨a, ha, hgood⟩
  obtain ⟨b, hb⟩ := Option.isSome_iff_exists.1 hsome
  obtain ⟨hgoodb, front, rest, hsplit, hbad⟩ := List.find?_eq_some_iff_append.1 hb
  -- all that come before the first one stand ahead of `a`
  have hfront : front.length ≤ ahead good rank order a := by
    have hmem : a ∈ b :: rest := by
      rw [hsplit, List.mem_append] at ha
      refine ha.resolve_left fun hfront => ?_
      have := hbad a hfront
      simp [hgood] at this
    rw [hsplit, List.pairwise_append] at hsorted
    calc front.length
        = front.countP (fun c => !good c && decide (rank c ≤ rank a)) := by
          refine (List.countP_eq_length.2 fun c hc => ?_).symm
          have hle := hsorted.2.2 c hc a hmem
          have hbadc := hbad c hc
          simp_all
      _ ≤ ahead good rank order a := by
          rw [ahead, hsplit, List.countP_append]
          omega
  refine ⟨b, ?_, hgoodb⟩
  have hlt : front.length < k := by omega
  rw [hsplit, List.take_append, List.take_of_length_le hlt.le]
  obtain ⟨n, hn⟩ := Nat.exists_eq_succ_of_ne_zero (Nat.sub_ne_zero_of_lt hlt)
  rw [hn, List.take_succ_cons]
  exact List.mem_append_right front List.mem_cons_self

lemma Round.mem (h : Round good rank k l l') (ha : a ∈ l') : a ∈ l := by
  obtain ⟨order, hperm, -, hleft⟩ := h
  exact hperm.mem_iff.1 (mem_of_mem_serve (hleft.mem_iff.1 ha))

lemma Reachable.round (hl : Reachable good rank k l) (h : Round good rank k l l') :
    Reachable good rank k l' := by
  intro a ha hgood
  have hmem := h.mem ha
  obtain ⟨order, hperm, -, hleft⟩ := h
  rw [ahead_perm hleft, ahead_serve, ahead_perm hperm]
  exact hl a hmem hgood

lemma Round.length_lt (h : Round good rank k l l') (hl : Reachable good rank k l)
    (hclear : ¬ Clear good l) : l'.length < l.length := by
  obtain ⟨order, hperm, hsorted, hleft⟩ := h
  have hsome : ∃ a ∈ l, good a = true := by simpa [Clear] using hclear
  obtain ⟨a, ha, hgood⟩ := hsome
  have hahead : ahead good rank order a < k := by
    rw [ahead_perm hperm]
    exact hl a ha hgood
  obtain ⟨b, hb, hgoodb⟩ := exists_mem_take hsorted (hperm.mem_iff.2 ha) hgood hahead
  have hpos : 0 < (order.take k).countP good := List.countP_pos_iff.2 ⟨b, hb, hgoodb⟩
  have hlength := length_serve good k order
  have hleft := hleft.length_eq
  have hperm := hperm.length_eq
  omega

/-- As many rounds as there are elements serve everything that is reachable. -/
lemma Reachable.clear (run : ℕ → List α) (hrun : ∀ n, Round good rank k (run n) (run (n + 1)))
    (hl : Reachable good rank k (run 0)) : ∃ n, Clear good (run n) := by
  by_contra hnone
  rw [not_exists] at hnone
  have hreach : ∀ n, Reachable good rank k (run n) := by
    intro n
    induction n with
    | zero => exact hl
    | succ n ih => exact ih.round (hrun n)
  have hshort : ∀ n, (run n).length + n ≤ (run 0).length := by
    intro n
    induction n with
    | zero => exact le_rfl
    | succ n ih =>
        have hlt := (hrun n).length_lt (hreach n) (hnone n)
        omega
  have hend := hshort ((run 0).length + 1)
  omega

/-! ### What is blocked -/

/-- Lower ranks first, and those that cannot be served before the others. -/
def before (good : α → Bool) (rank : α → ℕ) (a b : α) : Prop :=
  rank a < rank b ∨ rank a = rank b ∧ (good a = true → good b = true)

instance (a b : α) : Decidable (before good rank a b) := by
  unfold before
  infer_instance

/-- The order in which a round serves least. -/
def worst (good : α → Bool) (rank : α → ℕ) (l : List α) : List α :=
  l.insertionSort (before good rank)

lemma before_total (a b : α) : before good rank a b ∨ before good rank b a := by
  unfold before
  rcases lt_trichotomy (rank a) (rank b) with h | h | h
  · exact .inl (.inl h)
  · cases ha : good a with
    | false => exact .inl (.inr ⟨h, by simp⟩)
    | true => exact .inr (.inr ⟨h.symm, by simp⟩)
  · exact .inr (.inl h)

lemma before_trans {a b c : α} (hab : before good rank a b) (hbc : before good rank b c) :
    before good rank a c := by
  rcases hab with hab | ⟨hab, hgood⟩
  · rcases hbc with hbc | ⟨hbc, -⟩
    · exact .inl (hab.trans hbc)
    · exact .inl (hbc ▸ hab)
  · rcases hbc with hbc | ⟨hbc, hgood'⟩
    · exact .inl (hab ▸ hbc)
    · exact .inr ⟨hab.trans hbc, hgood' ∘ hgood⟩

lemma worst_perm (l : List α) : (worst good rank l).Perm l := List.perm_insertionSort _ l

lemma worst_pairwise (l : List α) : (worst good rank l).Pairwise (before good rank) :=
  haveI : Std.Total (before good rank) := ⟨before_total⟩
  haveI : IsTrans α (before good rank) := ⟨fun _ _ _ => before_trans⟩
  List.pairwise_insertionSort _ l

lemma before.rank_le {b : α} (h : before good rank a b) : rank a ≤ rank b := by
  rcases h with h | ⟨h, -⟩
  · exact h.le
  · exact h.le

/-- No round takes what stands behind as many as it takes. -/
lemma not_mem_take_of_before (hsorted : order.Pairwise (before good rank)) (hgood : good a = true)
    (hahead : k ≤ ahead good rank order a) : a ∉ order.take k := by
  intro hmem
  obtain ⟨front, rest, hsplit⟩ := List.append_of_mem hmem
  have horder : order = front ++ a :: (rest ++ order.drop k) := by
    calc order = order.take k ++ order.drop k := (List.take_append_drop k order).symm
      _ = front ++ a :: (rest ++ order.drop k) := by
          rw [hsplit, List.append_assoc, List.cons_append]
  have hsorted' := hsorted
  rw [horder, List.pairwise_append, List.pairwise_cons] at hsorted'
  -- what is ahead of `a` stands before it
  have hrest : (a :: (rest ++ order.drop k)).countP
      (fun b => !good b && decide (rank b ≤ rank a)) = 0 := by
    rw [List.countP_eq_zero]
    rintro b hb hcount
    rcases List.mem_cons.1 hb with rfl | hb
    · simp [hgood] at hcount
    · simp only [Bool.and_eq_true, Bool.not_eq_true', decide_eq_true_eq] at hcount
      rcases hsorted'.2.1.1 b hb with hlt | ⟨-, himp⟩
      · omega
      · rw [himp hgood] at hcount
        cases hcount.1
  have hle : k ≤ front.length := by
    calc k ≤ ahead good rank order a := hahead
      _ = front.countP fun b => !good b && decide (rank b ≤ rank a) := by
          rw [horder, ahead, List.countP_append, hrest, Nat.add_zero]
      _ ≤ front.length := List.countP_le_length
  have hlength := congrArg List.length hsplit
  rw [List.length_append, List.length_cons, List.length_take] at hlength
  omega

/-- The element could be served, and as many as a round takes are ahead of it. -/
structure Blocked (good : α → Bool) (rank : α → ℕ) (k : ℕ) (l : List α) (a : α) : Prop where
  mem : a ∈ l
  servable : good a = true
  behind : k ≤ ahead good rank l a

lemma Blocked.perm (h : Blocked good rank k l a) (hperm : l.Perm l') : Blocked good rank k l' a :=
  ⟨hperm.mem_iff.1 h.mem, h.servable, ahead_perm hperm a ▸ h.behind⟩

lemma Blocked.serve (h : Blocked good rank k order a) (hsorted : order.Pairwise (before good rank)) :
    Blocked good rank k (serve good k order) a := by
  refine ⟨?_, h.servable, by rw [ahead_serve]; exact h.behind⟩
  have hmem := h.mem
  rw [← List.take_append_drop k order, List.mem_append] at hmem
  exact List.mem_append_right _
    (hmem.resolve_left (not_mem_take_of_before hsorted h.servable h.behind))

/-- In that order no number of rounds serves what is blocked. -/
lemma Blocked.run (run : ℕ → List α)
    (hrun : ∀ n, ∃ order : List α, order.Perm (run n) ∧ order.Pairwise (before good rank)
      ∧ (run (n + 1)).Perm (Backlog.serve good k order))
    (h : Blocked good rank k (run 0) a) (n : ℕ) : Blocked good rank k (run n) a := by
  induction n with
  | zero => exact h
  | succ n ih =>
      obtain ⟨order, hperm, hsorted, hleft⟩ := hrun n
      exact ((ih.perm hperm.symm).serve hsorted).perm hleft.symm

end Txn.Backlog
