import Mathlib.Tactic

/-!
Texts that Python makes of values.

* `hexDigits`, `UUID.str`: `str` of a UUID, which determines the UUID (`UUID.str_injective`);
* `roundHalfEven`, `thousands`: `format(amount, ",.0f")`.
-/

namespace Python

/-! ### UUIDs -/

/-- The last `w` hexadecimal digits of a number. -/
def hexDigits : ℕ → ℕ → List Char
  | 0, _ => []
  | w + 1, v => hexDigits w (v / 16) ++ [Nat.digitChar (v % 16)]

@[simp] lemma length_hexDigits (w v : ℕ) : (hexDigits w v).length = w := by
  induction w generalizing v with
  | zero => rfl
  | succ w ih => simp [hexDigits, ih]

lemma digitChar_injOn {a b : ℕ} (ha : a < 16) (hb : b < 16)
    (h : Nat.digitChar a = Nat.digitChar b) : a = b := by
  have key : ∀ a b : Fin 16, Nat.digitChar a = Nat.digitChar b → a = b := by decide
  exact congrArg Fin.val (key ⟨a, ha⟩ ⟨b, hb⟩ h)

/-- The digits of a number that fits are those of no other. -/
lemma hexDigits_injOn {w v v' : ℕ} (hv : v < 16 ^ w) (hv' : v' < 16 ^ w)
    (h : hexDigits w v = hexDigits w v') : v = v' := by
  induction w generalizing v v' with
  | zero =>
      rw [pow_zero] at hv hv'
      omega
  | succ w ih =>
      rw [hexDigits, hexDigits] at h
      obtain ⟨hhigh, hlow⟩ := List.append_inj h (by simp)
      have hq : v / 16 = v' / 16 := by
        refine ih ?_ ?_ hhigh
        · rw [pow_succ] at hv
          omega
        · rw [pow_succ] at hv'
          omega
      have hr : v % 16 = v' % 16 := by
        refine digitChar_injOn (Nat.mod_lt _ (by norm_num)) (Nat.mod_lt _ (by norm_num)) ?_
        simpa using hlow
      omega

lemma digitChar_ne {v : ℕ} (h : v < 16) : Nat.digitChar v ≠ '-' ∧ Nat.digitChar v ≠ '|' := by
  have key : ∀ v : Fin 16, Nat.digitChar v ≠ '-' ∧ Nat.digitChar v ≠ '|' := by decide
  exact key ⟨v, h⟩

/-- Digits are no separators. -/
lemma ne_of_mem_hexDigits {w v : ℕ} {c : Char} (h : c ∈ hexDigits w v) : c ≠ '-' ∧ c ≠ '|' := by
  induction w generalizing v with
  | zero => simp [hexDigits] at h
  | succ w ih =>
      rw [hexDigits, List.mem_append, List.mem_singleton] at h
      rcases h with h | rfl
      · exact ih h
      · exact digitChar_ne (Nat.mod_lt _ (by norm_num))

/-- `uuid.UUID`. -/
structure UUID where
  int : ℕ
  lt : int < 16 ^ 32
  deriving DecidableEq

/-- `str(uuid)`: the digits in groups of 8, 4, 4, 4 and 12. -/
def UUID.str (u : UUID) : List Char :=
  let digits := hexDigits 32 u.int
  digits.take 8 ++ '-' :: ((digits.drop 8).take 4 ++ '-' :: ((digits.drop 12).take 4
    ++ '-' :: ((digits.drop 16).take 4 ++ '-' :: digits.drop 20)))

/-- The text of a UUID without the hyphens is its digits. -/
lemma UUID.filter_str (u : UUID) : u.str.filter (· ≠ '-') = hexDigits 32 u.int := by
  have hkeep : ∀ l : List Char, l ⊆ hexDigits 32 u.int → l.filter (· ≠ '-') = l := fun l hl =>
    List.filter_eq_self.mpr fun c hc => by simpa using (ne_of_mem_hexDigits (hl hc)).1
  have htake : ∀ a b, ((hexDigits 32 u.int).drop a).take b ⊆ hexDigits 32 u.int := fun a b =>
    List.Subset.trans (List.take_subset _ _) (List.drop_subset _ _)
  calc u.str.filter (· ≠ '-')
      = (hexDigits 32 u.int).take 8 ++ (((hexDigits 32 u.int).drop 8).take 4
          ++ (((hexDigits 32 u.int).drop 12).take 4 ++ (((hexDigits 32 u.int).drop 16).take 4
            ++ (hexDigits 32 u.int).drop 20))) := by
        have hhyphen : ∀ l : List Char, ('-' :: l).filter (· ≠ '-') = l.filter (· ≠ '-') := fun l =>
          List.filter_cons_of_neg (by simp)
        simp only [UUID.str, List.filter_append, hhyphen]
        rw [hkeep _ (List.take_subset _ _), hkeep _ (htake 8 4), hkeep _ (htake 12 4),
          hkeep _ (htake 16 4), hkeep _ (List.drop_subset _ _)]
    _ = hexDigits 32 u.int := by
        rw [← List.drop_drop (i := 4) (j := 16), List.take_append_drop,
          ← List.drop_drop (i := 4) (j := 12), List.take_append_drop,
          ← List.drop_drop (i := 4) (j := 8), List.take_append_drop, List.take_append_drop]

/-- **A UUID can be read back from its text.** -/
theorem UUID.str_injective : Function.Injective UUID.str := by
  intro u u' h
  have hdigits := u.filter_str
  rw [h, u'.filter_str] at hdigits
  have := hexDigits_injOn u'.lt u.lt hdigits
  cases u
  cases u'
  simp_all

lemma UUID.bar_notMem_str (u : UUID) : '|' ∉ u.str := by
  have hdigit : ∀ l : List Char, l ⊆ hexDigits 32 u.int → '|' ∉ l := fun l hl h =>
    (ne_of_mem_hexDigits (hl h)).2 rfl
  have htake : ∀ a b, ((hexDigits 32 u.int).drop a).take b ⊆ hexDigits 32 u.int := fun a b =>
    List.Subset.trans (List.take_subset _ _) (List.drop_subset _ _)
  simp only [UUID.str, List.mem_append, List.mem_cons, not_or]
  refine ⟨hdigit _ (List.take_subset _ _), by decide, hdigit _ (htake 8 4), by decide,
    hdigit _ (htake 12 4), by decide, hdigit _ (htake 16 4), by decide, hdigit _ (List.drop_subset _ _)⟩

/-! ### Amounts -/

/-- `round` of an amount in cents to a whole number, halves to the even one. -/
def roundHalfEven (cents : ℕ) : ℕ :=
  if cents % 100 < 50 ∨ (cents % 100 = 50 ∧ cents / 100 % 2 = 0) then cents / 100
  else cents / 100 + 1

/-- Digits, the last one first, with a comma after every third. -/
def groupThousands : List Char → List Char
  | a :: b :: c :: d :: rest => a :: b :: c :: ',' :: groupThousands (d :: rest)
  | digits => digits

/-- `format(amount, ",.0f")`, of an amount in cents. -/
def thousands (cents : ℕ) : List Char :=
  (groupThousands (Nat.toDigits 10 (roundHalfEven cents)).reverse).reverse

example : thousands 123456750 = "1,234,568".toList := by decide +kernel

end Python
