import Mathlib.Data.Rat.Floor
import Mathlib.Tactic.Linarith
import Mathlib.Tactic.NormNum
import Mathlib.Tactic.Positivity
import Mathlib.Tactic.Ring

/-!
`round`, of exact numbers.

Halves go to the even neighbour.  The floats that are rounded are taken as the numbers that they
stand for.

* `roundEven`, `roundTo`: rounding to a whole number, and to a number of decimal places;
* `roundEven_mono`, `roundTo_mono`: rounding keeps the order;
* `roundTo_intCast`, `roundTo_nonneg`: whole numbers stay, and so do bounds by them;
* `roundEven_le_iff`: what is rounded to at most an even number;
* `roundEven_sub`, `roundTo_sub`: what is left of an even number is rounded to the rest.
-/

namespace Python

/-- `round(q)`. -/
def roundEven (q : ℚ) : ℤ :=
  if q - ⌊q⌋ < 1 / 2 ∨ (q - ⌊q⌋ = 1 / 2 ∧ ⌊q⌋ % 2 = 0) then ⌊q⌋ else ⌊q⌋ + 1

/-- `round(q, digits)`. -/
def roundTo (q : ℚ) (digits : ℕ) : ℚ := roundEven (q * 10 ^ digits) / 10 ^ digits

variable {q q' : ℚ} {z : ℤ}

@[simp] lemma roundEven_intCast (z : ℤ) : roundEven z = z := by
  simp [roundEven]

lemma floor_le_roundEven (q : ℚ) : ⌊q⌋ ≤ roundEven q := by
  unfold roundEven
  split_ifs <;> omega

lemma roundEven_le_floor_add_one (q : ℚ) : roundEven q ≤ ⌊q⌋ + 1 := by
  unfold roundEven
  split_ifs <;> omega

/-- **Rounding keeps the order.** -/
theorem roundEven_mono (h : q ≤ q') : roundEven q ≤ roundEven q' := by
  have hfloor : ⌊q⌋ ≤ ⌊q'⌋ := Int.floor_le_floor h
  rcases hfloor.eq_or_lt with heq | hlt
  · -- between the same whole numbers, what is rounded up stays rounded up
    unfold roundEven
    rw [heq]
    split_ifs with hdown _ hdown'
    · exact le_rfl
    · omega
    · exfalso
      refine hdown ?_
      rcases hdown' with hless | ⟨hhalf, heven⟩
      · exact Or.inl (by linarith)
      · rcases h.lt_or_eq with hlt | rfl
        · exact Or.inl (by linarith)
        · exact Or.inr ⟨hhalf, heven⟩
    · exact le_rfl
  · calc roundEven q ≤ ⌊q⌋ + 1 := roundEven_le_floor_add_one q
      _ ≤ ⌊q'⌋ := hlt
      _ ≤ roundEven q' := floor_le_roundEven q'

/-- Exactly the numbers up to half above an even one are rounded to at most that one. -/
theorem roundEven_le_iff (hz : z % 2 = 0) : roundEven q ≤ z ↔ q ≤ z + 1 / 2 := by
  have hhalf : roundEven (z + 1 / 2) = z := by
    have hfloor : ⌊(z : ℚ) + 1 / 2⌋ = z := by
      rw [Int.floor_eq_iff]
      constructor <;> linarith
    rw [roundEven, hfloor, if_pos (Or.inr ⟨by ring, hz⟩)]
  constructor
  · intro h
    by_contra hlt
    push Not at hlt
    -- above the half it is rounded up, as its floor is the even number or more
    have hfloor : z ≤ ⌊q⌋ := Int.le_floor.mpr (by linarith)
    rcases hfloor.eq_or_lt with heq | hgt
    · have hup : roundEven q = ⌊q⌋ + 1 := by
        rw [roundEven, if_neg, ← heq]
        rw [← heq]
        rintro (hless | ⟨hhalf, -⟩) <;> linarith
      omega
    · have := floor_le_roundEven q
      omega
  · exact fun h => (roundEven_mono h).trans hhalf.le

/-- **Rounding to decimal places keeps the order.** -/
theorem roundTo_mono (h : q ≤ q') (digits : ℕ) : roundTo q digits ≤ roundTo q' digits := by
  have hpos : (0 : ℚ) < 10 ^ digits := by positivity
  have hround : roundEven (q * 10 ^ digits) ≤ roundEven (q' * 10 ^ digits) :=
    roundEven_mono (mul_le_mul_of_nonneg_right h hpos.le)
  exact div_le_div_of_nonneg_right (by exact_mod_cast hround) hpos.le

/-- A whole number stays what it is. -/
@[simp] lemma roundTo_intCast (z : ℤ) (digits : ℕ) : roundTo z digits = z := by
  have hpos : (0 : ℚ) < 10 ^ digits := by positivity
  have hcast : (z : ℚ) * 10 ^ digits = ((z * 10 ^ digits : ℤ) : ℚ) := by push_cast; ring
  rw [roundTo, hcast, roundEven_intCast]
  push_cast
  exact mul_div_cancel_right₀ _ hpos.ne'

lemma roundTo_nonneg (h : 0 ≤ q) (digits : ℕ) : 0 ≤ roundTo q digits := by
  simpa using (roundTo_intCast 0 digits).ge.trans (roundTo_mono (by simpa using h) digits)

/-- A number between 0 and 1 is rounded to one. -/
lemma roundTo_mem_unit (h₀ : 0 ≤ q) (h₁ : q ≤ 1) (digits : ℕ) :
    0 ≤ roundTo q digits ∧ roundTo q digits ≤ 1 := by
  refine ⟨roundTo_nonneg h₀ digits, ?_⟩
  have hone := roundTo_mono h₁ digits
  have hcast : roundTo 1 digits = 1 := by simpa using roundTo_intCast 1 digits
  rwa [hcast] at hone

/-- Exactly the numbers up to half a place above are rounded to at most one whose last place is
even. -/
lemma roundTo_le_iff {digits : ℕ} (hz : z * 10 ^ digits % 2 = 0) :
    roundTo q digits ≤ z ↔ q * 10 ^ digits ≤ z * 10 ^ digits + 1 / 2 := by
  have hpos : (0 : ℚ) < 10 ^ digits := by positivity
  have hiff := roundEven_le_iff (q := q * 10 ^ digits) hz
  push_cast at hiff
  rw [roundTo, div_le_iff₀ hpos, ← hiff]
  exact_mod_cast Iff.rfl

/-- What is left of an even number is rounded to what the rest leaves. -/
lemma roundEven_sub (hz : z % 2 = 0) (q : ℚ) : roundEven (z - q) = z - roundEven q := by
  have hle : (⌊q⌋ : ℚ) ≤ q := Int.floor_le q
  have hlt : q < ⌊q⌋ + 1 := Int.lt_floor_add_one q
  rcases hle.eq_or_lt with heq | hgt
  · have hleft : (z : ℚ) - q = ((z - ⌊q⌋ : ℤ) : ℚ) := by
      push_cast
      rw [heq]
    rw [hleft, roundEven_intCast]
    conv_rhs => rw [← heq, roundEven_intCast]
  · have hfloor : ⌊(z : ℚ) - q⌋ = z - ⌊q⌋ - 1 := by
      rw [Int.floor_eq_iff]
      push_cast
      constructor <;> linarith
    have hfrac : (z : ℚ) - q - ((z - ⌊q⌋ - 1 : ℤ) : ℚ) = 1 - (q - ⌊q⌋) := by
      push_cast
      ring
    rw [roundEven, roundEven, hfloor, hfrac]
    generalize q - (⌊q⌋ : ℚ) = r
    rcases lt_trichotomy r (1 / 2) with hr | hr | hr
    · rw [if_neg (by rintro (h | ⟨h, -⟩) <;> linarith), if_pos (Or.inl hr)]
      omega
    · -- one of the two neighbours is even
      subst hr
      norm_num
      split_ifs <;> omega
    · rw [if_pos (Or.inl (by linarith)), if_neg (by rintro (h | ⟨h, -⟩) <;> linarith)]
      omega

/-- What is left of a number whose last place is even is rounded to what the rest leaves. -/
lemma roundTo_sub {digits : ℕ} (hz : z * 10 ^ digits % 2 = 0) (q : ℚ) :
    roundTo (z - q) digits = z - roundTo q digits := by
  have hpos : (0 : ℚ) < 10 ^ digits := by positivity
  have hscale : ((z : ℚ) - q) * 10 ^ digits = ((z * 10 ^ digits : ℤ) : ℚ) - q * 10 ^ digits := by
    push_cast
    ring
  rw [roundTo, roundTo, hscale, roundEven_sub hz]
  push_cast
  field_simp

example : roundTo (1245 / 1000) 2 = 124 / 100 := by decide +kernel

end Python
