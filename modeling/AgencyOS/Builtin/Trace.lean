import AgencyOS.Builtin.Interpreter

/-!
The trace of a builtin run.

* `Nested`: a sequence of steps, each between its start and its end, which fails with its last step;
* `starts`, `ends`: the indices that are told as started, and as completed or failed;
* `runSteps_extends`: what a list of steps adds to the trace;
* `trace_wellBracketed`: **the trace of a run is nested, with the indices 1, 2, … in the order of the
  starts.**
-/

namespace Builtin

open Python Python.Json

variable {F : Type}

/-! ### Nested traces -/

/-- A sequence of steps; `true` when the last one fails.  The steps inside a completed one have all
completed, and nothing follows a failed one. -/
inductive Nested : Bool → List (Event F) → Prop where
  | nil : Nested false []
  | completed {index : ℕ} {stepId : Value F} {inner rest : List (Event F)} {failed : Bool}
      (hinner : Nested false inner) (hrest : Nested failed rest) :
      Nested failed (⟨.started, index, stepId⟩ :: (inner ++ ⟨.completed, index, stepId⟩ :: rest))
  | failed {index : ℕ} {stepId : Value F} {inner : List (Event F)} {failed : Bool}
      (hinner : Nested failed inner) :
      Nested true (⟨.started, index, stepId⟩ :: (inner ++ [⟨.failed, index, stepId⟩]))

def Event.started? (e : Event F) : Option ℕ := if e.kind = .started then some e.index else none

def Event.ended? (e : Event F) : Option ℕ := if e.kind = .started then none else some e.index

/-- The indices of the steps that started. -/
def starts (trace : List (Event F)) : List ℕ := trace.filterMap Event.started?

/-- The indices of the steps that completed or failed. -/
def ends (trace : List (Event F)) : List ℕ := trace.filterMap Event.ended?

@[simp] lemma starts_nil : starts ([] : List (Event F)) = [] := rfl

@[simp] lemma ends_nil : ends ([] : List (Event F)) = [] := rfl

@[simp] lemma starts_append (t t' : List (Event F)) : starts (t ++ t') = starts t ++ starts t' :=
  List.filterMap_append

@[simp] lemma ends_append (t t' : List (Event F)) : ends (t ++ t') = ends t ++ ends t' :=
  List.filterMap_append

@[simp] lemma starts_cons_started (index : ℕ) (stepId : Value F) (t : List (Event F)) :
    starts (⟨.started, index, stepId⟩ :: t) = index :: starts t := rfl

@[simp] lemma starts_cons_completed (index : ℕ) (stepId : Value F) (t : List (Event F)) :
    starts (⟨.completed, index, stepId⟩ :: t) = starts t := rfl

@[simp] lemma starts_cons_failed (index : ℕ) (stepId : Value F) (t : List (Event F)) :
    starts (⟨.failed, index, stepId⟩ :: t) = starts t := rfl

@[simp] lemma ends_cons_started (index : ℕ) (stepId : Value F) (t : List (Event F)) :
    ends (⟨.started, index, stepId⟩ :: t) = ends t := rfl

@[simp] lemma ends_cons_completed (index : ℕ) (stepId : Value F) (t : List (Event F)) :
    ends (⟨.completed, index, stepId⟩ :: t) = index :: ends t := rfl

@[simp] lemma ends_cons_failed (index : ℕ) (stepId : Value F) (t : List (Event F)) :
    ends (⟨.failed, index, stepId⟩ :: t) = index :: ends t := rfl

/-- Each start has its end. -/
lemma Nested.perm {failed : Bool} {t : List (Event F)} (h : Nested failed t) :
    (ends t).Perm (starts t) := by
  induction h with
  | nil => exact .nil
  | @completed index stepId inner rest failed _ _ hinner hrest =>
      simp only [ends_cons_started, ends_append, ends_cons_completed, starts_cons_started,
        starts_append, starts_cons_completed]
      exact List.perm_middle.trans ((hinner.append hrest).cons index)
  | @failed index stepId inner failed _ hinner =>
      simp only [ends_cons_started, ends_append, ends_cons_failed, starts_cons_started,
        starts_append, starts_cons_failed]
      exact List.perm_middle.trans ((hinner.append (.refl _)).cons index)

/-- The trace is nested, its steps start with the indices 1, 2, … in order, each start has one end,
and there are no more of them than the limit. -/
def WellBracketed (limit : ℕ) (trace : List (Event F)) : Prop :=
  ∃ n failed, Nested failed trace ∧ starts trace = List.range' 1 n
    ∧ (ends trace).Perm (List.range' 1 n) ∧ n ≤ limit

/-! ### What a run adds -/

/-- An exception other than `BuiltinExecutionError`. -/
def Foreign {α : Type} (r : Except (Exn F) α) : Prop := ∃ e, r = .error e ∧ ∀ b, e ≠ .builtin b

/-- The trace grows by a nested sequence with the next indices, within the limit of steps. -/
def Extends (limit : ℕ) (s : State F) (o : Outcome F) : Prop :=
  ∃ t n failed, o.1.trace = s.trace ++ t ∧ Nested failed t
    ∧ starts t = List.range' (s.budget + 1) n ∧ s.budget + n ≤ limit
    ∧ (o.2 = .ok () → failed = false ∧ o.1.budget = s.budget + n)

/-- A run of a list of steps that ends or fails as it should extends the trace. -/
def Extending (limit : ℕ) (run : List (Value F) → State F → Outcome F) : Prop :=
  ∀ steps s, s.budget ≤ limit → ¬ Foreign (run steps s).2 → Extends limit s (run steps s)

section Runs

variable {eng : Engine F} {nested : Option (List (Value F) → State F → Outcome F)} {step : Value F}
  {s : State F}

lemma Extends.same {limit : ℕ} {o : Outcome F} (hle : s.budget ≤ limit) (htrace : o.1.trace = s.trace)
    (hbudget : o.1.budget = s.budget) : Extends limit s o :=
  ⟨[], 0, false, by rw [htrace, List.append_nil], .nil, rfl, hle, fun _ => ⟨rfl, hbudget⟩⟩

/-- A step leaves the trace and the budget as they are, or it runs a branch. -/
lemma perform_cases :
    ((perform eng nested step s).1.trace = s.trace ∧ (perform eng nested step s).1.budget = s.budget)
      ∨ ∃ run branch, nested = some run ∧ perform eng nested step s = run branch s := by
  unfold perform
  split
  · exact Or.inl ⟨rfl, rfl⟩
  · split_ifs
    · split <;> exact Or.inl ⟨rfl, rfl⟩
    · split <;> exact Or.inl ⟨rfl, rfl⟩
    · cases nested with
      | none => exact Or.inl ⟨rfl, rfl⟩
      | some run =>
          simp only
          split
          · exact Or.inr ⟨run, _, rfl, rfl⟩
          · exact Or.inl ⟨rfl, rfl⟩
    · exact Or.inl ⟨rfl, rfl⟩
    · exact Or.inl ⟨rfl, rfl⟩
  · exact Or.inl ⟨rfl, rfl⟩

lemma perform_extends (hnested : ∀ run, nested = some run → Extending eng.maxSteps run)
    (hle : s.budget ≤ eng.maxSteps) (hend : ¬ Foreign (perform eng nested step s).2) :
    Extends eng.maxSteps s (perform eng nested step s) := by
  rcases @perform_cases F eng nested step s with
    ⟨htrace, hbudget⟩ | ⟨run, branch, hrun, heq⟩
  · exact .same hle htrace hbudget
  · rw [heq] at hend ⊢
    exact hnested run hrun branch s hle hend

/-- A step tells its start, the steps inside and its end. -/
lemma runStep_extends (hnested : ∀ run, nested = some run → Extending eng.maxSteps run)
    (hle : s.budget ≤ eng.maxSteps) (hend : ¬ Foreign (runStep eng nested step s).2) :
    ∃ inner n failed, Nested failed inner ∧ starts inner = List.range' (s.budget + 1) n
      ∧ s.budget + n ≤ eng.maxSteps
      ∧ ((runStep eng nested step s).2 = .ok () ∧ failed = false
          ∧ (runStep eng nested step s).1.budget = s.budget + n
          ∧ (runStep eng nested step s).1.trace = s.trace ++ (⟨.started, s.budget, stepId step⟩
            :: (inner ++ [⟨.completed, s.budget, stepId step⟩]))
        ∨ (runStep eng nested step s).2 ≠ .ok ()
          ∧ (runStep eng nested step s).1.trace = s.trace ++ (⟨.started, s.budget, stepId step⟩
            :: (inner ++ [⟨.failed, s.budget, stepId step⟩]))) := by
  have hperform := @perform_extends F eng nested step (s.emit .started s.budget (stepId step)) hnested
    hle
  rw [runStep] at hend ⊢
  generalize perform eng nested step (s.emit .started s.budget (stepId step)) = o at hperform hend ⊢
  obtain ⟨s', r⟩ := o
  cases r with
  | ok u =>
      obtain ⟨inner, n, failed, htrace, hinner, hstarts, hlimit, hok⟩ :=
        hperform (by rintro ⟨e, he, -⟩; cases he)
      obtain ⟨rfl, hbudget⟩ := hok rfl
      refine ⟨inner, n, false, hinner, hstarts, hlimit, Or.inl ⟨rfl, rfl, hbudget, ?_⟩⟩
      simp only [State.emit] at htrace ⊢
      rw [htrace, List.append_assoc, List.append_assoc]
      rfl
  | error e =>
      cases e with
      | builtin b =>
          obtain ⟨inner, n, failed, htrace, hinner, hstarts, hlimit, -⟩ :=
            hperform (by rintro ⟨e, he, hb⟩; exact hb b (Except.error.inj he).symm)
          refine ⟨inner, n, failed, hinner, hstarts, hlimit, Or.inr ⟨nofun, ?_⟩⟩
          simp only [State.emit] at htrace ⊢
          rw [htrace, List.append_assoc, List.append_assoc]
          rfl
      | _ => exact absurd ⟨_, rfl, nofun⟩ hend

/-- A list of steps extends the trace when the branches of its conditions do. -/
lemma runList_extends (hnested : ∀ run, nested = some run → Extending eng.maxSteps run) :
    Extending eng.maxSteps (runList eng nested) := by
  intro steps
  induction steps with
  | nil => exact fun s hle _ => .same hle rfl rfl
  | cons step steps ih =>
      intro s hle hend
      rw [runList] at hend ⊢
      by_cases hbudget : s.budget + 1 > eng.maxSteps
      · rw [checkBudget, if_pos hbudget] at hend ⊢
        exact .same hle rfl rfl
      rw [checkBudget, if_neg hbudget] at hend ⊢
      simp only at hend ⊢
      have hstep := @runStep_extends F eng nested step { s with budget := s.budget + 1 } hnested
        (not_lt.1 hbudget)
      generalize runStep eng nested step { s with budget := s.budget + 1 } = o at hstep hend ⊢
      obtain ⟨s', r⟩ := o
      cases r with
      | error e =>
          obtain ⟨inner, n, failed, hinner, hstarts, hlimit, ⟨hok, -⟩ | ⟨-, htrace⟩⟩ := hstep hend
          · cases hok
          · dsimp only at hlimit hstarts
            refine ⟨_, n + 1, true, htrace, .failed hinner, ?_, by omega, nofun⟩
            simp [hstarts, List.range'_succ]
      | ok u =>
          obtain ⟨inner, n, failed, hinner, hstarts, hlimit, ⟨-, rfl, hnext, htrace⟩ | ⟨hok, -⟩⟩ :=
            hstep (by rintro ⟨e, he, -⟩; cases he)
          · dsimp only at hnext htrace hlimit hstarts
            have hrest := ih s' (by omega) hend
            obtain ⟨rest, m, failed, htrace', hnestedRest, hstarts', hlimit', hok⟩ := hrest
            refine ⟨⟨.started, s.budget + 1, stepId step⟩
              :: (inner ++ ⟨.completed, s.budget + 1, stepId step⟩ :: rest), n + 1 + m, failed, ?_,
              .completed hinner hnestedRest, ?_, by omega, ?_⟩
            · rw [htrace', htrace, List.append_assoc]
              simp
            · have hnexts : starts rest = List.range' (s.budget + 1 + 1 + n) m := by
                rw [hstarts', hnext]
                congr 1
                omega
              calc starts (⟨.started, s.budget + 1, stepId step⟩
                      :: (inner ++ ⟨.completed, s.budget + 1, stepId step⟩ :: rest))
                  = (s.budget + 1) :: (starts inner ++ starts rest) := by simp
                _ = (s.budget + 1) :: List.range' (s.budget + 1 + 1) (n + m) := by
                    rw [hstarts, hnexts, List.range'_append_1]
                _ = List.range' (s.budget + 1) (n + 1 + m) := by
                    rw [← List.range'_succ]
                    congr 1
                    omega
            · intro hr
              obtain ⟨rfl, hlast⟩ := hok hr
              have hsum : s'.budget + m = s.budget + (n + 1 + m) := by omega
              exact ⟨rfl, hlast.trans hsum⟩
          · exact absurd rfl hok

/-- **Each list of steps extends the trace by a nested sequence.** -/
theorem runSteps_extends (eng : Engine F) (levels : ℕ) : Extending eng.maxSteps (runSteps eng levels) := by
  induction levels with
  | zero => exact runList_extends nofun
  | succ levels ih => exact runList_extends fun run hrun => Option.some.inj hrun ▸ ih

/-- **The trace of a run is well bracketed**, whether the run returns or raises
`BuiltinExecutionError`. -/
theorem trace_wellBracketed {definition : List (Str × Value F)} {input : Value F}
    (hend : ¬ Foreign (runBuiltinDefinition eng definition input).2) :
    WellBracketed eng.maxSteps (runBuiltinDefinition eng definition input).1 := by
  have hempty : WellBracketed eng.maxSteps ([] : List (Event F)) :=
    ⟨0, false, .nil, rfl, .nil, Nat.zero_le _⟩
  unfold runBuiltinDefinition at hend ⊢
  split
  · rename_i steps hsteps
    rw [hsteps] at hend
    dsimp only at hend
    cases hcopy : deepcopy eng input with
    | error e => exact hempty
    | ok copied =>
        rw [hcopy] at hend
        dsimp only at hend ⊢
        have hextends := runSteps_extends eng (eng.maxDepth - 1) steps
          ⟨[(text "input", copied)], 0, []⟩ (Nat.zero_le _)
        generalize runSteps eng (eng.maxDepth - 1) steps ⟨[(text "input", copied)], 0, []⟩ = o
          at hextends hend ⊢
        obtain ⟨s, r⟩ := o
        have hwell : ¬ Foreign r → WellBracketed eng.maxSteps s.trace := by
          intro hr
          obtain ⟨t, n, failed, htrace, hnested, hstarts, hlimit, -⟩ := hextends hr
          rw [show s.trace = t from htrace]
          rw [Nat.zero_add] at hstarts hlimit
          exact ⟨n, failed, hnested, hstarts, hstarts ▸ hnested.perm, hlimit⟩
        cases r with
        | error e => exact hwell fun ⟨e', he, hforeign⟩ => hend ⟨e', congrArg _ (Except.error.inj he), hforeign⟩
        | ok u => exact hwell (by rintro ⟨e, he, -⟩; cases he)
  · exact hempty

end Runs

/-- A condition whose branch raises: `{"type": "condition", "if": .., "then": [{"type": "error_if", ..}]}`. -/
def raisingDefinition : List (Str × Value Unit) :=
  let guard : Value Unit := .obj [(text "path", .str (text "input")), (text "op", .str (text "exists"))]
  [(text "steps", .arr [.obj [(text "type", .str (text "condition")), (text "if", guard),
    (text "then", .arr [.obj [(text "type", .str (text "error_if")),
      (text "message", .str (text "stop")), (text "if", guard)]])]])]

theorem trace_wellBracketed_raising :
    WellBracketed 50 (runBuiltinDefinition defaultEngine raisingDefinition .null).1 := by
  refine @trace_wellBracketed _ defaultEngine _ _ ?_
  have hraised : (runBuiltinDefinition defaultEngine raisingDefinition .null).2
      = fault (.raised (.str (text "stop"))) := rfl
  rw [hraised]
  rintro ⟨e, he, hforeign⟩
  exact hforeign _ (Except.error.inj he).symm

end Builtin
