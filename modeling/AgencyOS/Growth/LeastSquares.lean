import AgencyOS.Growth.Model
import AgencyOS.Statistics.LeastSquares
import Mathlib.Data.Real.Basic

/-!
`linear_fit` is least squares.

The two sequences are a finite family of points, and the sums of `linear_fit` are those of the line through
the means.

* `linearFit_ofFn`: what `linear_fit` returns, over the family of the points;
* `residualsOf`, `LeastSquares`: what is promised of a fit;
* `linearFit_leastSquares`: **the fit is the line of least squares**, if the places differ.
-/

namespace Growth

open Statistics

variable {K : Type} {n : ℕ}

/-! ### Sequences as families -/

lemma zipWith_ofFn (f : K → K → K) (x y : Fin n → K) :
    List.zipWith f (List.ofFn x) (List.ofFn y) = List.ofFn fun i => f (x i) (y i) := by
  refine List.ext_getElem (by simp) fun i _ _ => ?_
  simp

variable [Field K]

lemma sum_map_ofFn (f : K → K) (x : Fin n → K) : ((List.ofFn x).map f).sum = ∑ i, f (x i) := by
  rw [List.map_ofFn, List.sum_ofFn]
  rfl

lemma mean_ofFn (x : Fin n → K) : mean (List.ofFn x) = average x := by
  rw [mean, average, List.sum_ofFn, List.length_ofFn, Fintype.card_fin]
  split_ifs with hnil
  · have hn : n = 0 := by simpa using congrArg List.length hnil
    simp [hn]
  · rfl

/-- What `linear_fit` returns: the line through the means, its determination and its residuals. -/
theorem linearFit_ofFn [DecidableEq K] {x : Fin n → K} (y : Fin n → K) (hn : 2 ≤ n) (hsxx : sxx x ≠ 0) :
    linearFit (List.ofFn x) (List.ofFn y) =
      { slope := (fit x y).slope
        intercept := (fit x y).intercept
        rSquared :=
          if ∑ i, (y i - average y) ^ 2 = 0 then 0
          else 1 - rss (fit x y) x y / ∑ i, (y i - average y) ^ 2
        residuals := List.ofFn ((fit x y).residual x y) } := by
  have hlength : ¬ ((List.ofFn x).length < 2 ∨ (List.ofFn x).length ≠ (List.ofFn y).length) := by
    simp only [List.length_ofFn]
    omega
  rw [linearFit]
  dsimp only
  rw [if_neg hlength, mean_ofFn, mean_ofFn, sum_map_ofFn, ← sxx, if_neg hsxx, zipWith_ofFn, zipWith_ofFn,
    List.sum_ofFn, ← sxy, sum_map_ofFn, sum_map_ofFn]
  simp only [rss, sq]
  rfl

/-! ### What is promised of a fit -/

/-- The residuals of a line. -/
def residualsOf (slope intercept : K) (xs ys : List K) : List K :=
  List.zipWith (fun x y => y - (slope * x + intercept)) xs ys

/-- The sum of the squares. -/
def sumSquares (rs : List K) : K := (rs.map fun r => r ^ 2).sum

/-- The fit is the line of least squares through the points: it minimises the sum of the squared
residuals, these cancel out and are orthogonal to the places, and the determination is a proportion, 1 for
the points of a line that is not horizontal. -/
structure LeastSquares [LinearOrder K] (xs ys : List K) (fit : LinearFit K) : Prop where
  residuals : fit.residuals = residualsOf fit.slope fit.intercept xs ys
  least : ∀ slope intercept, sumSquares fit.residuals ≤ sumSquares (residualsOf slope intercept xs ys)
  balanced : fit.residuals.sum = 0
  orthogonal : (List.zipWith (· * ·) fit.residuals xs).sum = 0
  rSquared_mem : 0 ≤ fit.rSquared ∧ fit.rSquared ≤ 1
  rSquared_line : ∀ slope intercept, slope ≠ 0 → ys = xs.map (fun x => slope * x + intercept) →
    fit.rSquared = 1

lemma residualsOf_ofFn (l : Line K) (x y : Fin n → K) :
    residualsOf l.slope l.intercept (List.ofFn x) (List.ofFn y) = List.ofFn (l.residual x y) := by
  rw [residualsOf, zipWith_ofFn]
  rfl

lemma sumSquares_residual (l : Line K) (x y : Fin n → K) :
    sumSquares (List.ofFn (l.residual x y)) = rss l x y := by
  rw [sumSquares, sum_map_ofFn, rss]

variable [LinearOrder K] [IsStrictOrderedRing K] [DecidableEq K]

/-- The determination of points on a line that is not horizontal. -/
lemma rSquared_of_line {x y : Fin n → K} {l : Line K} (hnormal : Normal (fit x y) x y)
    (hslope : l.slope ≠ 0) (hline : ∀ i, y i = l.height (x i)) {i j : Fin n} (hne : x i ≠ x j) :
    (if ∑ i, (y i - average y) ^ 2 = 0 then 0
      else 1 - rss (fit x y) x y / ∑ i, (y i - average y) ^ 2) = 1 := by
  have hy : y i ≠ y j := by
    rw [hline, hline]
    intro heq
    exact hne (mul_left_cancel₀ hslope (add_right_cancel heq))
  rw [if_neg (sum_sq_deviation_ne_zero hy _), hnormal.rss_eq_zero hline, zero_div, sub_zero]

/-- **`linear_fit` is least squares**, for sequences of one length with at least two distinct places. -/
theorem linearFit_leastSquares {xs ys : List K} (hlength : xs.length = ys.length) {a b : K}
    (ha : a ∈ xs) (hb : b ∈ xs) (hab : a ≠ b) : LeastSquares xs ys (linearFit xs ys) := by
  -- the points as a family
  obtain ⟨n, x, y, rfl, rfl⟩ : ∃ (n : ℕ) (x y : Fin n → K), xs = List.ofFn x ∧ ys = List.ofFn y := by
    refine ⟨xs.length, xs.get, fun i => ys.get (i.cast hlength), (List.ofFn_get xs).symm, ?_⟩
    refine List.ext_getElem (by simp [hlength]) fun i _ _ => ?_
    simp
  obtain ⟨i, rfl⟩ := (List.mem_ofFn' ..).1 ha
  obtain ⟨j, rfl⟩ := (List.mem_ofFn' ..).1 hb
  have hij : i ≠ j := fun heq => hab (congrArg x heq)
  have hn : 2 ≤ n := by omega
  have hsxx : sxx x ≠ 0 := sum_sq_deviation_ne_zero hab _
  have : Nonempty (Fin n) := ⟨i⟩
  have hnormal : Normal (fit x y) x y := normal_fit hsxx
  rw [linearFit_ofFn y hn hsxx]
  refine ⟨?_, ?_, ?_, ?_, ?_, ?_⟩
  · exact (residualsOf_ofFn (fit x y) x y).symm
  · intro slope intercept
    dsimp only
    rw [residualsOf_ofFn ⟨slope, intercept⟩, sumSquares_residual, sumSquares_residual]
    exact hnormal.le _
  · dsimp only
    rw [List.sum_ofFn]
    exact hnormal.balanced
  · dsimp only
    rw [zipWith_ofFn, List.sum_ofFn]
    exact hnormal.orthogonal
  · dsimp only
    split_ifs with hvar
    · exact ⟨le_rfl, zero_le_one⟩
    · exact hnormal.rSquared_mem hvar
  · intro slope intercept hslope hline
    rw [List.map_ofFn] at hline
    have hpoints := List.ofFn_injective hline
    exact rSquared_of_line (l := ⟨slope, intercept⟩) hnormal hslope (congrFun hpoints) hab

/-- Three points that are not on a line. -/
theorem linearFit_leastSquares_three :
    ([0, 1, 2] : List ℝ).length = ([1, 3, 4] : List ℝ).length
      ∧ (0 : ℝ) ∈ ([0, 1, 2] : List ℝ) ∧ (1 : ℝ) ∈ ([0, 1, 2] : List ℝ) ∧ (0 : ℝ) ≠ 1
      ∧ LeastSquares ([0, 1, 2] : List ℝ) [1, 3, 4] (linearFit [0, 1, 2] [1, 3, 4]) := by
  have ha : (0 : ℝ) ∈ ([0, 1, 2] : List ℝ) := by simp
  have hb : (1 : ℝ) ∈ ([0, 1, 2] : List ℝ) := by simp
  exact ⟨rfl, ha, hb, zero_ne_one, linearFit_leastSquares rfl ha hb zero_ne_one⟩

/-- Points on a line. -/
example : linearFit ([0, 1, 2] : List ℚ) [1, 3, 5] = ⟨2, 1, 1, [0, 0, 0]⟩ := by decide +kernel

end Growth
