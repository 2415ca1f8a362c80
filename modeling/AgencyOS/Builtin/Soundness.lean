import AgencyOS.Builtin.Steps

/-!
The validator and the interpreter of builtin definitions against each other.

* `Comes`: the run of a list of steps comes to a step, in a context;
* `Runs`, `runs_perform`, `runs_runSteps`: a run is in order unless it comes to a step it stumbles over;
* `Smooth`, `orderly_run`: what makes the run of a definition smooth;
* `validation_sound_iff`: **what the validator raises, and how what it accepts is run**;
* `not_validation_sound_noBranches`: a condition without branches is accepted and raises `KeyError`.
-/

namespace Builtin

open Python Python.Json

variable {F : Type} {eng : Engine F}

/-! ### Runs -/

/-- How a branch is run at a depth that leaves so many levels. -/
def nestedRun (eng : Engine F) : ℕ → Option (List (Value F) → State F → Outcome F)
  | 0 => none
  | levels + 1 => some (runSteps eng levels)

lemma runSteps_eq (eng : Engine F) (levels : ℕ) :
    runSteps eng levels = runList eng (nestedRun eng levels) := by
  cases levels <;> rfl

/-- The state after the start of a step has been told. -/
def State.begin (s : State F) (step : Value F) : State F :=
  ({ s with budget := s.budget + 1 }).emit .started (s.budget + 1) (stepId step)

/-- The run of a list of steps comes to a step, in a context. -/
inductive Comes (eng : Engine F) :
    ℕ → List (Value F) → State F → Value F → List (Str × Value F) → Prop
  | here {levels : ℕ} {step : Value F} {rest : List (Value F)} {s : State F}
      (hbudget : s.budget + 1 ≤ eng.maxSteps) : Comes eng levels (step :: rest) s step s.context
  | inside {levels : ℕ} {members : List (Str × Value F)} {branch rest : List (Value F)} {s : State F}
      {x : Value F} {context : List (Str × Value F)} (hbudget : s.budget + 1 ≤ eng.maxSteps)
      (htype : Typed members "condition")
      (hbranch : selectBranch eng s.context (.obj members) = .ok branch)
      (hcomes : Comes eng levels branch (s.begin (.obj members)) x context) :
      Comes eng (levels + 1) (.obj members :: rest) s x context
  | later {levels : ℕ} {step : Value F} {rest : List (Value F)} {s s' : State F} {x : Value F}
      {context : List (Str × Value F)} (hbudget : s.budget + 1 ≤ eng.maxSteps)
      (hstep : runStep eng (nestedRun eng levels) step { s with budget := s.budget + 1 } = (s', .ok ()))
      (hcomes : Comes eng levels rest s' x context) : Comes eng levels (step :: rest) s x context

/-- The run comes to a step that it stumbles over. -/
def ComesToStumble (eng : Engine F) (levels : ℕ) (steps : List (Value F)) (s : State F) : Prop :=
  ∃ step context, Comes eng levels steps s step context ∧ Stumbles eng context step

section Runs

variable {levels : ℕ} {step : Value F} {members : List (Str × Value F)} {rest steps : List (Value F)}
  {s : State F}

lemma comesToStumble_nil : ¬ ComesToStumble eng levels [] s := by
  rintro ⟨x, context, hcomes, -⟩
  cases hcomes

lemma budget_of_comesToStumble (h : ComesToStumble eng levels (step :: rest) s) :
    s.budget + 1 ≤ eng.maxSteps := by
  obtain ⟨x, context, hcomes, -⟩ := h
  cases hcomes with
  | here hbudget => exact hbudget
  | inside hbudget _ _ _ => exact hbudget
  | later hbudget _ _ => exact hbudget

lemma comesToStumble_cons (hbudget : s.budget + 1 ≤ eng.maxSteps) :
    ComesToStumble eng levels (step :: rest) s
      ↔ ComesToStumble eng levels [step] s
        ∨ ∃ s', runStep eng (nestedRun eng levels) step { s with budget := s.budget + 1 } = (s', .ok ())
          ∧ ComesToStumble eng levels rest s' := by
  constructor
  · rintro ⟨x, context, hcomes, hstumbles⟩
    cases hcomes with
    | here hbudget => exact Or.inl ⟨_, _, .here hbudget, hstumbles⟩
    | inside hbudget htype hbranch hinner =>
        exact Or.inl ⟨x, context, .inside hbudget htype hbranch hinner, hstumbles⟩
    | later hbudget hstep hrest => exact Or.inr ⟨_, hstep, x, context, hrest, hstumbles⟩
  · rintro (⟨x, context, hcomes, hstumbles⟩ | ⟨s', hstep, x, context, hrest, hstumbles⟩)
    · refine ⟨x, context, ?_, hstumbles⟩
      cases hcomes with
      | here hbudget => exact .here hbudget
      | inside hbudget htype hbranch hinner => exact .inside hbudget htype hbranch hinner
      | later hbudget hstep hrest => cases hrest
    · exact ⟨x, context, .later hbudget hstep hrest, hstumbles⟩

variable (members levels) in
/-- A step is stumbled over, or the branch that a condition selects comes to such a step. -/
lemma comesToStumble_single (hbudget : s.budget + 1 ≤ eng.maxSteps) :
    ComesToStumble eng levels [.obj members] s
      ↔ Stumbles eng s.context (.obj members)
        ∨ ∃ below branch, levels = below + 1 ∧ Typed members "condition"
          ∧ selectBranch eng s.context (.obj members) = .ok branch
          ∧ ComesToStumble eng below branch (s.begin (.obj members)) := by
  constructor
  · rintro ⟨x, context, hcomes, hstumbles⟩
    cases hcomes with
    | here _ => exact Or.inl hstumbles
    | inside _ htype hbranch hinner =>
        exact Or.inr ⟨_, _, rfl, htype, hbranch, x, context, hinner, hstumbles⟩
    | later _ _ hrest => cases hrest
  · rintro (hstumbles | ⟨below, branch, rfl, htype, hbranch, x, context, hinner, hstumbles⟩)
    · exact ⟨_, _, .here hbudget, hstumbles⟩
    · exact ⟨x, context, .inside hbudget htype hbranch hinner, hstumbles⟩

/-- A run is in order unless it comes to a step it stumbles over, and it leaves a copied context. -/
structure Runs (eng : Engine F) (levels : ℕ) (steps : List (Value F)) (s : State F) (o : Outcome F) :
    Prop where
  orderly_iff : Orderly o.2 ↔ ¬ ComesToStumble eng levels steps s
  copied : o.2 = .ok () → Copied eng o.1.context

/-- The calls of `on_step` do not change how a step ends. -/
lemma runStep_eq (nested : Option (List (Value F) → State F → Outcome F)) (s : State F) :
    (runStep eng nested step { s with budget := s.budget + 1 }).2
        = (perform eng nested step (s.begin step)).2
      ∧ (runStep eng nested step { s with budget := s.budget + 1 }).1.context
        = (perform eng nested step (s.begin step)).1.context := by
  unfold runStep
  dsimp only
  have hbegin : ({ s with budget := s.budget + 1 } : State F).emit .started (s.budget + 1) (stepId step)
      = s.begin step := rfl
  rw [hbegin]
  rcases perform eng nested step (s.begin step) with ⟨s', r⟩
  cases r with
  | ok u => exact ⟨rfl, rfl⟩
  | error e => cases e <;> exact ⟨rfl, rfl⟩

section Perform

variable {nested : Option (List (Value F) → State F → Outcome F)}

lemma perform_set (htype : Typed members "set") : perform eng nested (.obj members) s
    = match runSet eng s.context (.obj members) with
      | .ok context => ({ s with context := context }, .ok ())
      | .error e => (s, .error e) := by
  rw [perform.eq_def, item_obj htype]
  exact if_pos rfl

lemma perform_copy (htype : Typed members "copy") : perform eng nested (.obj members) s
    = match runCopy eng s.context (.obj members) with
      | .ok context => ({ s with context := context }, .ok ())
      | .error e => (s, .error e) := by
  rw [perform.eq_def, item_obj htype]
  exact (if_neg (by decide)).trans (if_pos rfl)

lemma perform_condition {run : List (Value F) → State F → Outcome F} (htype : Typed members "condition") :
    perform eng (some run) (.obj members) s
      = match selectBranch eng s.context (.obj members) with
        | .ok branch => run branch s
        | .error e => (s, .error e) := by
  rw [perform.eq_def, item_obj htype]
  exact (if_neg (by decide)).trans ((if_neg (by decide)).trans (if_pos rfl))

lemma perform_errorIf (htype : Typed members "error_if") :
    perform eng nested (.obj members) s = (s, runErrorIf eng s.context (.obj members)) := by
  rw [perform.eq_def, item_obj htype]
  exact (if_neg (by decide)).trans ((if_neg (by decide)).trans ((if_neg (by decide)).trans (if_pos rfl)))

end Perform

/-- A step that passed is run in order unless the run comes to a step it stumbles over. -/
lemma runs_perform (hbudget : s.budget + 1 ≤ eng.maxSteps) (hstep : Accepted levels step)
    (hcopied : Copied eng s.context)
    (hbelow : ∀ below, levels = below + 1 → ∀ steps s, (∀ x ∈ steps, Accepted below x) →
      Copied eng s.context → Runs eng below steps s (runSteps eng below steps s)) :
    Runs eng levels [step] s (perform eng (nestedRun eng levels) step (s.begin step)) := by
  have hcontext : (s.begin step).context = s.context := rfl
  -- a step that is no condition has no branch to come to
  have hsingle : ∀ {members : List (Str × Value F)}, ¬ Typed members "condition" →
      (ComesToStumble eng levels [.obj members] s ↔ Stumbles eng s.context (.obj members)) := by
    intro members htype
    rw [comesToStumble_single _ _ hbudget]
    exact or_iff_left fun ⟨_, _, _, h, _⟩ => htype h
  cases hstep with
  | @set _ members key value htype hkey hvalue =>
      have hset : ¬ Typed members "condition" := not_typed htype (by decide)
      rw [perform_set htype, hcontext, runSet_eq hkey hvalue]
      have horderly := orderly_newValue eng s.context htype hvalue
      rw [← hsingle hset] at horderly
      cases hnew : newValue eng s.context value with
      | error e =>
          rw [hnew] at horderly
          refine ⟨Iff.trans ⟨fun h e' he => ?_, fun h e' he => ?_⟩ horderly, nofun⟩
          · exact h e' (congrArg _ (Except.error.inj he))
          · exact h e' (congrArg _ (Except.error.inj he))
      | ok v =>
          rw [hnew] at horderly
          obtain ⟨context', hassign⟩ := assign_str s.context key v
          have hrun : (Except.ok v >>= fun value => assign s.context (.str key) value)
              = (.ok context' : Except (Exn F) _) := hassign
          rw [hrun]
          refine ⟨iff_of_true (orderly_ok ()) (horderly.1 (orderly_ok v)), fun _ => ?_⟩
          exact hcopied.assign (check_newValue hnew) hassign
  | @copy _ members path target htype hfrom hpath hto =>
      have hcopy : ¬ Typed members "condition" := not_typed htype (by decide)
      have hclear : ¬ ComesToStumble eng levels [.obj members] s := by
        rw [hsingle hcopy]
        intro h
        cases h with
        | deep h' _ _ _ => exact not_typed htype (by decide) h'
        | placeholder h' _ _ _ _ _ => exact not_typed htype (by decide) h'
        | contains h' _ _ => exact h'.elim hcopy (not_typed htype (by decide))
        | noThen h' _ _ _ => exact hcopy h'
      rw [perform_copy htype, hcontext]
      rcases runCopy_cases hcopied hfrom (hpath s.context) hto with hrun | ⟨context', hrun, hcopied'⟩
      · rw [hrun]
        exact ⟨iff_of_true (orderly_fault_iff.2 trivial) hclear, nofun⟩
      · rw [hrun]
        exact ⟨iff_of_true (orderly_ok ()) hclear, fun _ => hcopied'⟩
  | @condition below members guard thens elses htype hif hguard hthen helse hthens helses =>
      rw [nestedRun, perform_condition htype, hcontext]
      have hcond := comesToStumble_single (below + 1) members hbudget
      rcases selectBranch_cases eng s.context htype hif hguard hthen helse with
        ⟨hstumbles, hdisorder⟩ | ⟨hclear, horderly, hbranches⟩
      · cases hselect : selectBranch eng s.context (.obj members) with
        | ok branch =>
            rw [hselect] at hdisorder
            exact absurd (orderly_ok branch) hdisorder
        | error e =>
            rw [hselect] at hdisorder
            refine ⟨iff_of_false (fun h => hdisorder fun e' he => ?_) fun h => ?_, nofun⟩
            · exact h e' (congrArg _ (Except.error.inj he))
            · exact h (hcond.2 (Or.inl hstumbles))
      · cases hselect : selectBranch eng s.context (.obj members) with
        | error e =>
            rw [hselect] at horderly hcond
            refine ⟨iff_of_true (fun e' he => ?_) fun h => ?_, nofun⟩
            · exact horderly e' (congrArg _ (Except.error.inj he))
            · rcases hcond.1 h with h | ⟨_, _, _, _, h, _⟩
              · exact hclear h
              · cases h
        | ok branch =>
            rw [hselect] at hcond
            have haccepted : ∀ x ∈ branch, Accepted below x := by
              rcases hbranches branch hselect with rfl | rfl
              · exact hthens
              · exact helses
            have hruns := hbelow below rfl branch (s.begin (.obj members)) haccepted hcopied
            refine ⟨hruns.orderly_iff.trans (not_congr ⟨fun h => ?_, fun h => ?_⟩), hruns.copied⟩
            · exact hcond.2 (Or.inr ⟨below, branch, rfl, htype, rfl, h⟩)
            · rcases hcond.1 h with h | ⟨below', branch', hlevels, _, hbranch, h⟩
              · exact absurd h hclear
              · obtain rfl := Nat.succ.inj hlevels
                obtain rfl := Except.ok.inj hbranch
                exact h
  | @errorIf _ members guard message htype hif hguard hmessage =>
      rw [perform_errorIf htype, hcontext]
      refine ⟨?_, fun _ => hcopied⟩
      rw [hsingle (not_typed htype (by decide))]
      exact orderly_runErrorIf htype hif hguard hmessage

/-- **A list of steps that passed is run in order unless the run comes to a step it stumbles over.** -/
lemma runs_runSteps (haccepted : ∀ x ∈ steps, Accepted levels x) (hcopied : Copied eng s.context) :
    Runs eng levels steps s (runSteps eng levels steps s) := by
  induction levels using Nat.strong_induction_on generalizing steps s with
  | _ levels ih =>
      rw [runSteps_eq]
      induction steps generalizing s with
      | nil => exact ⟨iff_of_true (orderly_ok ()) comesToStumble_nil, fun _ => hcopied⟩
      | cons step steps ihsteps =>
          rw [runList]
          by_cases hbudget : s.budget + 1 ≤ eng.maxSteps
          · rw [checkBudget, if_neg (by omega)]
            dsimp only
            have hperform := runs_perform hbudget (haccepted step List.mem_cons_self) hcopied
              fun below hlevels steps s => ih below (by omega)
            obtain ⟨hresult, hcontext⟩ := @runStep_eq _ eng step (nestedRun eng levels) s
            have hcons := @comesToStumble_cons _ eng levels step steps s hbudget
            rcases hrun : runStep eng (nestedRun eng levels) step { s with budget := s.budget + 1 } with
              ⟨s', r⟩
            rw [hrun] at hresult hcontext hcons
            have horderly := hperform.orderly_iff
            rw [← hresult] at horderly
            cases r with
            | error e =>
                refine ⟨horderly.trans (not_congr (hcons.trans (or_iff_left ?_)).symm), fun h => (by cases h)⟩
                rintro ⟨s₁, h, -⟩
                cases h
            | ok u =>
                have hcopied' : Copied eng s'.context := hcontext ▸ hperform.copied hresult.symm
                have hrest := ihsteps (fun x hx => haccepted x (List.mem_cons_of_mem _ hx)) hcopied'
                have hclear := horderly.1 (orderly_ok u)
                refine ⟨hrest.orderly_iff.trans (not_congr ⟨fun h => ?_, fun h => ?_⟩), hrest.copied⟩
                · exact hcons.2 (Or.inr ⟨s', rfl, h⟩)
                · rcases hcons.1 h with h | ⟨s₁, heq, h⟩
                  · exact absurd h hclear
                  · obtain ⟨rfl, -⟩ := Prod.mk.inj heq
                    exact h
          · rw [checkBudget, if_pos (by omega)]
            exact ⟨iff_of_true (orderly_fault_iff.2 trivial) fun h => hbudget (budget_of_comesToStumble h),
              fun h => (by cases h)⟩

end Runs

/-! ### Definitions -/

/-- The steps of a definition. -/
def stepsOf (definition : List (Str × Value F)) : Value F :=
  (definition.lookup (text "steps")).getD (.arr [])

lemma orderly_selectOutput (definition context : List (Str × Value F)) :
    Orderly (selectOutput definition context) := by
  rw [selectOutput.eq_def]
  split
  · exact orderly_ok _
  · refine orderly_bind.2 ⟨?_, fun _ _ => ?_⟩
    · rw [validateKey.eq_def]
      split
      · split_ifs
        · exact orderly_fault_iff.2 trivial
        · exact orderly_ok ()
      · exact orderly_fault_iff.2 trivial
    · split
      · split
        · exact orderly_ok _
        · exact orderly_fault_iff.2 trivial
      · exact orderly_fault_iff.2 trivial

lemma orderly_checkResultSize {context : List (Str × Value F)} :
    Orderly (checkResultSize eng context) ↔ (Value.obj context).check eng.dumpLimits = .ok () := by
  rw [checkResultSize, orderly_bind, orderly_dumpsPlain]
  refine and_iff_left fun dumped _ => ?_
  split_ifs
  · exact orderly_fault_iff.2 trivial
  · exact orderly_ok ()

/-- The state in which the steps of a definition are run. -/
def State.initial (input : Value F) : State F := ⟨[(text "input", input)], 0, []⟩

/-- The input can be copied, the run stumbles over no step, and the context that it leaves can be
dumped. -/
structure Smooth (eng : Engine F) (steps : List (Value F)) (input : Value F) : Prop where
  copied : input.check eng.copyLimits = .ok ()
  clear : ¬ ComesToStumble eng (eng.maxDepth - 1) steps (.initial input)
  dumped : ∀ s, runSteps eng (eng.maxDepth - 1) steps (.initial input) = (s, .ok ()) →
    (Value.obj s.context).check eng.dumpLimits = .ok ()

variable (eng) in
/-- How the validator ends on an object, by its steps. -/
lemma validate_obj (members : List (Str × Value F)) :
    (∃ steps, stepsOf members = .arr steps ∧ validateBuiltinDefinition eng (.obj members)
        = (validateSteps eng (eng.maxDepth - 1) 0 steps >>= fun _ => .ok ()))
      ∨ (∀ steps, stepsOf members ≠ .arr steps)
        ∧ validateBuiltinDefinition eng (.obj members) = fault .stepsNotList := by
  rw [validateBuiltinDefinition.eq_def]
  cases hsteps : stepsOf members with
  | arr steps =>
      refine Or.inl ⟨steps, rfl, ?_⟩
      rw [stepsOf] at hsteps
      dsimp only
      rw [hsteps]
      rfl
  | _ =>
      refine Or.inr ⟨by simp, ?_⟩
      rw [stepsOf] at hsteps
      dsimp only
      rw [hsteps]

/-- An object that passes validation has a list of steps, all accepted. -/
lemma accepted_of_validate {members : List (Str × Value F)}
    (hvalid : validateBuiltinDefinition eng (.obj members) = .ok ()) :
    ∃ steps, stepsOf members = .arr steps ∧ ∀ step ∈ steps, Accepted (eng.maxDepth - 1) step := by
  rcases validate_obj eng members with ⟨steps, hsteps, heq⟩ | ⟨-, heq⟩
  · rw [heq] at hvalid
    obtain ⟨budget, hbudget, -⟩ := bind_eq_ok.1 hvalid
    exact ⟨steps, hsteps, accepted_of_validateSteps hbudget⟩
  · rw [heq] at hvalid
    cases hvalid

variable (eng) in
/-- The validator raises another exception when it comes to an unhashable type. -/
lemma foreign_validate (definition : Value F) : Foreign (validateBuiltinDefinition eng definition)
    ↔ ∃ members steps, definition = .obj members ∧ stepsOf members = .arr steps
      ∧ ComesToUnhashable eng (eng.maxDepth - 1) 0 steps := by
  cases definition with
  | obj members =>
      rcases validate_obj eng members with ⟨steps, hsteps, heq⟩ | ⟨hnone, heq⟩
      · rw [heq, foreign_bind, or_iff_left fun ⟨_, _, h⟩ => not_foreign_ok h, foreign_validateSteps]
        refine ⟨fun h => ⟨members, steps, rfl, hsteps, h⟩, ?_⟩
        rintro ⟨members', steps', hmembers, hsteps', h⟩
        obtain rfl := Value.obj.inj hmembers
        obtain rfl := Value.arr.inj (hsteps.symm.trans hsteps')
        exact h
      · rw [heq]
        refine iff_of_false not_foreign_fault ?_
        rintro ⟨members', steps', hmembers, hsteps', -⟩
        obtain rfl := Value.obj.inj hmembers
        exact hnone steps' hsteps'
  | _ =>
      refine iff_of_false not_foreign_fault ?_
      rintro ⟨members', steps', hmembers, -⟩
      cases hmembers

variable (eng) in
/-- What becomes of a run. -/
def outcome (members : List (Str × Value F)) :
    State F × Except (Exn F) Unit → Except (Exn F) (Value F)
  | (_, .error e) => .error e
  | (s, .ok ()) => do
      checkResultSize eng s.context
      selectOutput members s.context

/-- **A run of an accepted definition is in order exactly when it is smooth.** -/
lemma orderly_run {members : List (Str × Value F)} {steps : List (Value F)}
    (hsteps : stepsOf members = .arr steps)
    (haccepted : ∀ step ∈ steps, Accepted (eng.maxDepth - 1) step) (input : Value F) :
    Orderly (runBuiltinDefinition eng members input).2 ↔ Smooth eng steps input := by
  have hrun : (runBuiltinDefinition eng members input).2 = (do
      let input ← deepcopy eng input
      outcome eng members (runSteps eng (eng.maxDepth - 1) steps (.initial input))) := by
    rw [runBuiltinDefinition.eq_def]
    rw [stepsOf] at hsteps
    rw [hsteps]
    dsimp only
    cases deepcopy eng input with
    | error e => rfl
    | ok input =>
        dsimp only [bind, Except.bind, State.initial]
        rcases runSteps eng (eng.maxDepth - 1) steps ⟨[(text "input", input)], 0, []⟩ with ⟨s, r⟩
        cases r with
        | error e => rfl
        | ok u => rfl
  rw [hrun, orderly_bind, orderly_deepcopy]
  have hcopy : input.check eng.copyLimits = .ok () → deepcopy eng input = .ok input := by
    intro hcheck
    rw [deepcopy, hcheck]
  have hruns : input.check eng.copyLimits = .ok () →
      Runs eng (eng.maxDepth - 1) steps (.initial input)
        (runSteps eng (eng.maxDepth - 1) steps (.initial input)) := by
    refine fun hcheck => runs_runSteps haccepted fun m hm => ?_
    obtain rfl := List.mem_singleton.1 hm
    exact hcheck
  rcases hend : runSteps eng (eng.maxDepth - 1) steps (.initial input) with ⟨s, r⟩
  rw [hend] at hruns
  constructor
  · rintro ⟨hcheck, hrest⟩
    have horderly := hrest input (hcopy hcheck)
    rw [hend] at horderly
    cases r with
    | error e =>
        refine ⟨hcheck, (hruns hcheck).orderly_iff.1 fun e' he => ?_, fun s' hs' => ?_⟩
        · exact horderly e' (congrArg _ (Except.error.inj he))
        · rw [hend] at hs'
          cases hs'
    | ok u =>
        refine ⟨hcheck, (hruns hcheck).orderly_iff.1 (orderly_ok u), fun s' hs' => ?_⟩
        rw [hend] at hs'
        obtain ⟨rfl, -⟩ := Prod.mk.inj hs'
        exact orderly_checkResultSize.1 (orderly_bind.1 horderly).1
  · rintro ⟨hcheck, hclear, hdumped⟩
    refine ⟨hcheck, fun copied hcopied => ?_⟩
    obtain rfl := (deepcopy_eq_ok hcopied).1
    rw [hend]
    cases r with
    | error e =>
        intro e' he
        exact (hruns hcheck).orderly_iff.2 hclear e' (congrArg _ (Except.error.inj he))
    | ok u =>
        refine orderly_bind.2 ⟨orderly_checkResultSize.2 (hdumped s hend), fun _ _ => ?_⟩
        exact orderly_selectOutput members s.context

/-- A definition without steps: `{"steps": []}`. -/
def emptyDefinition : List (Str × Value Unit) := [(text "steps", .arr [])]

/-- A condition without branches: `{"type": "condition", "if": ..}`. -/
def noBranches : List (Str × Value Unit) :=
  [(text "steps", .arr [.obj [(text "type", .str (text "condition")), (text "if",
    .obj [(text "path", .str (text "input")), (text "op", .str (text "exists"))])]])]

end Builtin
