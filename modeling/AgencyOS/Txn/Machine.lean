import Mathlib.Tactic

/-!
Deterministic machines: a step function, its runs, and conditions along them.

* `Machine.run`: the state after a sequence of actions;
* `Machine.Every`: a condition met by every action of a run, given the state it meets;
* `Machine.Every.invariant`: the invariant rule for runs whose actions meet a condition;
* `Machine.count`: how many actions of a run pass a test, given the state each meets.
-/

namespace Txn.Machine

variable {σ α : Type} (step : σ → α → σ)

/-- The state after a sequence of actions. -/
def run (x : σ) (as : List α) : σ := as.foldl step x

@[simp] lemma run_nil (x : σ) : run step x [] = x := rfl

@[simp] lemma run_cons (x : σ) (a : α) (as : List α) :
    run step x (a :: as) = run step (step x a) as := rfl

/-- Every action of the run meets the condition, given the state it meets. -/
def Every (P : σ → α → Prop) : σ → List α → Prop
  | _, [] => True
  | x, a :: as => P x a ∧ Every P (step x a) as

instance decidableEvery (P : σ → α → Prop) [∀ x a, Decidable (P x a)] :
    ∀ x as, Decidable (Every step P x as)
  | _, [] => .isTrue trivial
  | x, a :: as =>
      let _ : Decidable (Every step P (step x a) as) := decidableEvery P (step x a) as
      inferInstanceAs (Decidable (P x a ∧ Every step P (step x a) as))

variable {step} {P Q : σ → α → Prop} {x : σ} {as : List α}

/-- A condition met along a run can be weakened. -/
lemma Every.mono (h : Every step P x as) (hPQ : ∀ x a, P x a → Q x a) : Every step Q x as := by
  induction as generalizing x with
  | nil => trivial
  | cons a as ih => exact ⟨hPQ x a h.1, ih h.2⟩

lemma every_and :
    Every step (fun x a => P x a ∧ Q x a) x as ↔ Every step P x as ∧ Every step Q x as := by
  induction as generalizing x with
  | nil => exact ⟨fun _ => ⟨trivial, trivial⟩, fun _ => trivial⟩
  | cons a as ih =>
      constructor
      · rintro ⟨⟨hp, hq⟩, has⟩
        obtain ⟨hps, hqs⟩ := ih.mp has
        exact ⟨⟨hp, hps⟩, hq, hqs⟩
      · rintro ⟨⟨hp, hps⟩, hq, hqs⟩
        exact ⟨⟨hp, hq⟩, ih.mpr ⟨hps, hqs⟩⟩

/-- **The invariant rule**: an invariant kept by every action that meets a condition holds around
every action of a run along which the condition is met, and in the end. -/
theorem Every.invariant {I : σ → Prop} (hstep : ∀ x a, I x → P x a → I (step x a)) (hx : I x)
    (h : Every step P x as) :
    I (run step x as) ∧ Every step (fun x a => I x ∧ P x a ∧ I (step x a)) x as := by
  induction as generalizing x with
  | nil => exact ⟨hx, trivial⟩
  | cons a as ih =>
      have hx' : I (step x a) := hstep x a hx h.1
      obtain ⟨hend, hevery⟩ := ih hx' h.2
      exact ⟨hend, ⟨hx, h.1, hx'⟩, hevery⟩

/-- Conditions that agree wherever an invariant holds agree along a run from such a state, if
either keeps the invariant. -/
theorem every_congr {I : σ → Prop} (hstep : ∀ x a, I x → P x a → I (step x a))
    (hPQ : ∀ x a, I x → (P x a ↔ Q x a)) (hx : I x) : Every step P x as ↔ Every step Q x as := by
  induction as generalizing x with
  | nil => exact Iff.rfl
  | cons a as ih =>
      constructor
      · rintro ⟨ha, has⟩
        exact ⟨(hPQ x a hx).mp ha, (ih (hstep x a hx ha)).mp has⟩
      · rintro ⟨ha, has⟩
        have hP : P x a := (hPQ x a hx).mpr ha
        exact ⟨hP, (ih (hstep x a hx hP)).mpr has⟩

/-- How many actions of the run pass the test, given the state each meets. -/
def count (step : σ → α → σ) (p : σ → α → Bool) : σ → List α → ℕ
  | _, [] => 0
  | x, a :: as => (p x a).toNat + count step p (step x a) as

end Txn.Machine
