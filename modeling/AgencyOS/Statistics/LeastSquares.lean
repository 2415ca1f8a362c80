import Mathlib.Tactic

/-!
Lines of least squares.

The points are a finite family over an ordered field, and a line is judged by its residuals.  A line that
meets the normal equations misses the points by no more than any other, by the Pythagorean identity
between the two lines, and the line through the means with the slope `sxy / sxx` meets them.

* `Line`, `Line.residual`, `rss`: a line, how it misses a point, and the sum of the squares;
* `Normal`: the normal equations, and `rss_eq_add`: **the Pythagorean identity**;
* `Normal.le`, `Normal.rss_eq_zero`: a normal line is best, and goes through points that are on a line;
* `Normal.rSquared_mem`: the share of the variation that a normal line explains is a proportion;
* `normal_fit`: the line through the means, with the slope `sxy / sxx`, is normal; `slope_fit_of_line`: for
  points on a line it has the slope of the line.
-/

namespace Statistics

variable {ι K : Type} [Fintype ι] [Field K]

/-! ### Lines and their residuals -/

structure Line (K : Type) where
  slope : K
  intercept : K

/-- The height of the line at `x`. -/
def Line.height (l : Line K) (x : K) : K := l.slope * x + l.intercept

/-- By how much the line misses the point `i`. -/
def Line.residual (l : Line K) (x y : ι → K) (i : ι) : K := y i - l.height (x i)

/-- The residual sum of squares. -/
def rss (l : Line K) (x y : ι → K) : K := ∑ i, l.residual x y i ^ 2

/-- The normal equations: the residuals cancel out, and are orthogonal to the places. -/
structure Normal (l : Line K) (x y : ι → K) : Prop where
  balanced : ∑ i, l.residual x y i = 0
  orthogonal : ∑ i, l.residual x y i * x i = 0

variable {l : Line K} {x y : ι → K}

/-- The residuals of a normal line are orthogonal to every line. -/
lemma Normal.orthogonal_line (h : Normal l x y) (a b : K) :
    ∑ i, l.residual x y i * (a * x i + b) = 0 := by
  calc ∑ i, l.residual x y i * (a * x i + b)
      = a * ∑ i, l.residual x y i * x i + b * ∑ i, l.residual x y i := by
        rw [Finset.mul_sum, Finset.mul_sum, ← Finset.sum_add_distrib]
        exact Finset.sum_congr rfl fun i _ => by ring
    _ = 0 := by rw [h.orthogonal, h.balanced, mul_zero, mul_zero, add_zero]

/-- **The Pythagorean identity**: what a line misses is what a normal line misses, and how far the two
are apart. -/
theorem Normal.rss_eq_add (h : Normal l x y) (l' : Line K) :
    rss l' x y = rss l x y + ∑ i, (l.height (x i) - l'.height (x i)) ^ 2 := by
  have hcross := h.orthogonal_line (l.slope - l'.slope) (l.intercept - l'.intercept)
  calc rss l' x y
      = ∑ i, (l.residual x y i ^ 2
          + 2 * (l.residual x y i * ((l.slope - l'.slope) * x i + (l.intercept - l'.intercept)))
          + (l.height (x i) - l'.height (x i)) ^ 2) :=
        Finset.sum_congr rfl fun i _ => by
          simp only [Line.residual, Line.height]
          ring
    _ = rss l x y + 2 * ∑ i, l.residual x y i
            * ((l.slope - l'.slope) * x i + (l.intercept - l'.intercept))
          + ∑ i, (l.height (x i) - l'.height (x i)) ^ 2 := by
        rw [Finset.sum_add_distrib, Finset.sum_add_distrib, ← Finset.mul_sum, rss]
    _ = rss l x y + ∑ i, (l.height (x i) - l'.height (x i)) ^ 2 := by rw [hcross, mul_zero, add_zero]

/-- The sum of the squared deviations from a height. -/
lemma rss_horizontal (m : K) : rss ⟨0, m⟩ x y = ∑ i, (y i - m) ^ 2 := by
  simp [rss, Line.residual, Line.height]

section Ordered

variable [LinearOrder K] [IsStrictOrderedRing K]

lemma rss_nonneg (l : Line K) (x y : ι → K) : 0 ≤ rss l x y :=
  Finset.sum_nonneg fun _ _ => sq_nonneg _

/-- **A normal line is best.** -/
theorem Normal.le (h : Normal l x y) (l' : Line K) : rss l x y ≤ rss l' x y := by
  rw [h.rss_eq_add l']
  exact le_add_of_nonneg_right (Finset.sum_nonneg fun _ _ => sq_nonneg _)

/-- A normal line goes through points that are on a line. -/
lemma Normal.rss_eq_zero (h : Normal l x y) {l' : Line K} (hline : ∀ i, y i = l'.height (x i)) :
    rss l x y = 0 := by
  have hzero : rss l' x y = 0 := by simp [rss, Line.residual, hline]
  exact le_antisymm (hzero ▸ h.le l') (rss_nonneg l x y)

/-- **The share of the variation that a normal line explains is a proportion.** -/
theorem Normal.rSquared_mem (h : Normal l x y) {m : K} (hvar : ∑ i, (y i - m) ^ 2 ≠ 0) :
    0 ≤ 1 - rss l x y / ∑ i, (y i - m) ^ 2 ∧ 1 - rss l x y / ∑ i, (y i - m) ^ 2 ≤ 1 := by
  have hpos : 0 < ∑ i, (y i - m) ^ 2 :=
    lt_of_le_of_ne (Finset.sum_nonneg fun _ _ => sq_nonneg _) hvar.symm
  have hle : rss l x y ≤ ∑ i, (y i - m) ^ 2 := rss_horizontal (x := x) m ▸ h.le ⟨0, m⟩
  have hshare : rss l x y / ∑ i, (y i - m) ^ 2 ≤ 1 := (div_le_one hpos).2 hle
  have hnonneg : 0 ≤ rss l x y / ∑ i, (y i - m) ^ 2 := div_nonneg (rss_nonneg l x y) hpos.le
  constructor <;> linarith

/-- Values that differ do not all have the mean: their squared deviations do not cancel out. -/
lemma sum_sq_deviation_ne_zero {f : ι → K} {i j : ι} (hne : f i ≠ f j) (m : K) :
    ∑ k, (f k - m) ^ 2 ≠ 0 := by
  intro hzero
  have hall := (Finset.sum_eq_zero_iff_of_nonneg fun k _ => sq_nonneg (f k - m)).1 hzero
  have hi : f i - m = 0 := pow_eq_zero_iff two_ne_zero |>.1 (hall i (Finset.mem_univ i))
  have hj : f j - m = 0 := pow_eq_zero_iff two_ne_zero |>.1 (hall j (Finset.mem_univ j))
  exact hne ((sub_eq_zero.1 hi).trans (sub_eq_zero.1 hj).symm)

end Ordered

/-! ### The line through the means -/

/-- The mean of a family, 0 of the empty one. -/
def average (f : ι → K) : K := (∑ i, f i) / Fintype.card ι

/-- The sum of the squared deviations of the places. -/
def sxx (x : ι → K) : K := ∑ i, (x i - average x) ^ 2

/-- The sum of the mixed deviations. -/
def sxy (x y : ι → K) : K := ∑ i, (x i - average x) * (y i - average y)

/-- The line through the means with the slope `sxy / sxx`. -/
def fit (x y : ι → K) : Line K where
  slope := sxy x y / sxx x
  intercept := average y - sxy x y / sxx x * average x

lemma residual_fit (x y : ι → K) (i : ι) :
    (fit x y).residual x y i = y i - average y - sxy x y / sxx x * (x i - average x) := by
  simp only [Line.residual, Line.height, fit]
  ring

section CharZero

variable [CharZero K] [Nonempty ι]

/-- The deviations from the mean cancel out. -/
lemma sum_deviation (f : ι → K) : ∑ i, (f i - average f) = 0 := by
  have hcard : (Fintype.card ι : K) ≠ 0 := Nat.cast_ne_zero.2 Fintype.card_ne_zero
  rw [Finset.sum_sub_distrib, Finset.sum_const, Finset.card_univ, nsmul_eq_mul, average,
    mul_div_cancel₀ _ hcard, sub_self]

/-- **The line through the means with the slope `sxy / sxx` is normal**, if the places differ. -/
theorem normal_fit (hsxx : sxx x ≠ 0) : Normal (fit x y) x y := by
  have hbalanced : ∑ i, (fit x y).residual x y i = 0 := by
    simp only [residual_fit]
    rw [Finset.sum_sub_distrib, ← Finset.mul_sum, sum_deviation, sum_deviation, mul_zero, sub_zero]
  refine ⟨hbalanced, ?_⟩
  -- the mean of the places may be taken off, as the residuals cancel out
  calc ∑ i, (fit x y).residual x y i * x i
      = ∑ i, (fit x y).residual x y i * (x i - average x)
          + (∑ i, (fit x y).residual x y i) * average x := by
        rw [Finset.sum_mul, ← Finset.sum_add_distrib]
        exact Finset.sum_congr rfl fun i _ => by ring
    _ = ∑ i, ((x i - average x) * (y i - average y) - sxy x y / sxx x * (x i - average x) ^ 2) := by
        rw [hbalanced, zero_mul, add_zero]
        exact Finset.sum_congr rfl fun i _ => by
          rw [residual_fit]
          ring
    _ = sxy x y - sxy x y / sxx x * sxx x := by
        rw [Finset.sum_sub_distrib, ← Finset.mul_sum, sxy, sxx]
    _ = 0 := by rw [div_mul_cancel₀ _ hsxx, sub_self]

/-- The mean of points on a line is on the line. -/
lemma average_of_line (hline : ∀ i, y i = l.height (x i)) : average y = l.height (average x) := by
  have hcard : (Fintype.card ι : K) ≠ 0 := Nat.cast_ne_zero.2 Fintype.card_ne_zero
  have hsum : ∑ i, y i = l.slope * ∑ i, x i + Fintype.card ι * l.intercept := by
    simp only [hline, Line.height]
    rw [Finset.sum_add_distrib, ← Finset.mul_sum, Finset.sum_const, Finset.card_univ, nsmul_eq_mul]
  rw [average, average, Line.height, hsum]
  field_simp

/-- The fit of points on a line has its slope. -/
lemma slope_fit_of_line (hline : ∀ i, y i = l.height (x i)) (hsxx : sxx x ≠ 0) :
    (fit x y).slope = l.slope := by
  have hsxy : sxy x y = l.slope * sxx x := by
    rw [sxy, sxx, average_of_line hline, Finset.mul_sum]
    refine Finset.sum_congr rfl fun i _ => ?_
    rw [hline, Line.height, Line.height]
    ring
  rw [fit, hsxy]
  exact mul_div_cancel_right₀ _ hsxx

end CharZero

end Statistics
