import AgencyOS.Builtin.Guards
import AgencyOS.Builtin.ResultSize
import AgencyOS.Builtin.Trace

/-!
What the validator of builtin definitions accepts, and what it raises.

Steps are checked in order, and the branches of a condition inside it; the first step that does not pass
ends the validation.

* `Accepted`, `accepted_of_validateSteps`: the shapes of the steps that pass;
* `validateStep_cases`, `validateFields`: a step, its type and key first and then its fields;
* `Inspected`: the steps that the validator comes to;
* `foreign_validateSteps`: **an exception other than `BuiltinExecutionError` is raised exactly when it
  comes to a step whose type is a list or an object.**
-/

namespace Builtin

open Python Python.Json

variable {F : Type}

/-! ### Steps that pass -/

/-- The object is a step of the type. -/
def Typed (members : List (Str × Value F)) (type : String) : Prop :=
  members.lookup (text "type") = some (.str (text type))

/-- A step that passes, at a depth that leaves so many levels. -/
inductive Accepted : ℕ → Value F → Prop
  | set {levels : ℕ} {members : List (Str × Value F)} {key : Str} {value : Value F}
      (htype : Typed members "set") (hkey : members.lookup (text "key") = some (.str key))
      (hvalue : members.lookup (text "value") = some value) : Accepted levels (.obj members)
  | copy {levels : ℕ} {members : List (Str × Value F)} {path target : Str}
      (htype : Typed members "copy") (hfrom : members.lookup (text "from") = some (.str path))
      (hpath : ∀ context : List (Str × Value F), ∃ actual, resolve context path = .ok actual)
      (hto : members.lookup (text "to") = some (.str target)) : Accepted levels (.obj members)
  | condition {levels : ℕ} {members : List (Str × Value F)} {guard : Value F}
      {thens elses : List (Value F)} (htype : Typed members "condition")
      (hif : members.lookup (text "if") = some guard) (hguard : validateGuard guard = .ok ())
      (hthen : (members.lookup (text "then")).getD (.arr []) = .arr thens)
      (helse : (members.lookup (text "else")).getD (.arr []) = .arr elses)
      (hthens : ∀ step ∈ thens, Accepted levels step)
      (helses : ∀ step ∈ elses, Accepted levels step) : Accepted (levels + 1) (.obj members)
  | errorIf {levels : ℕ} {members : List (Str × Value F)} {guard message : Value F}
      (htype : Typed members "error_if") (hif : members.lookup (text "if") = some guard)
      (hguard : validateGuard guard = .ok ())
      (hmessage : members.lookup (text "message") = some message) : Accepted levels (.obj members)

section Accepting

variable {eng : Engine F} {members : List (Str × Value F)} {key : String} {budget budget' : ℕ}

lemma lookup_of_has (h : has members key = true) : members.lookup (text key) = some (get members key) := by
  obtain ⟨v, hv⟩ := Option.isSome_iff_exists.1 h
  rw [get, hv]
  rfl

/-- A key that passes is a string. -/
lemma str_of_validateKey {value : Value F} {place : Place} (h : validateKey value place = .ok ()) :
    ∃ s, value = .str s := by
  cases value with
  | str s => exact ⟨s, rfl⟩
  | _ => cases h

lemma guard_of_validateIf {e : BuiltinError F} (h : validateIf members e = .ok ()) :
    ∃ guard, members.lookup (text "if") = some guard ∧ validateGuard guard = .ok () := by
  rw [validateIf] at h
  by_cases hif : has members "if" = true
  · rw [if_pos hif] at h
    exact ⟨_, lookup_of_has hif, h⟩
  · rw [if_neg hif] at h
    cases h

/-- `_validate_step` after the checks of the type and of the key. -/
def validateFields (eng : Engine F) (nested : Option (ℕ → List (Value F) → Except (Exn F) ℕ))
    (budget : ℕ) (type : Str) (members : List (Str × Value F)) : Except (Exn F) ℕ :=
  if type = text "set" then
    if has members "key" && has members "value" then do
      validateKey (get members "key") .stepKey
      return budget
    else fault .setFields
  else if type = text "copy" then
    if has members "from" && has members "to" then do
      validatePath (get members "from") .stepFrom
      validateKey (get members "to") .stepTo
      return budget
    else fault .copyFields
  else if type = text "condition" then do
    validateIf members .conditionGuard
    match (members.lookup (text "then")).getD (.arr []) with
    | .arr thens =>
        match nested with
        | none => fault (.depthLimit eng.maxDepth)
        | some nested =>
            let budget ← nested budget thens
            match (members.lookup (text "else")).getD (.arr []) with
            | .arr elses => nested budget elses
            | _ => fault .elseNotList
    | _ => fault .thenNotList
  else
    match get members "message" with
    | .str (_ :: _) => do
        validateIf members .errorGuard
        return budget
    | _ => fault .errorMessage

/-- The type is one of `_STEP_TYPES`. -/
@[reducible] def IsStepType (type : Str) : Prop :=
  type = text "set" ∨ type = text "copy" ∨ type = text "condition" ∨ type = text "error_if"

/-- A key that is there is a string. -/
def KeyFits (members : List (Str × Value F)) : Prop :=
  has members "key" = true → ∃ s, get members "key" = .str s

variable {nested : Option (ℕ → List (Value F) → Except (Exn F) ℕ)}

/-- A list or an object is no key of a dictionary. -/
def Unhashable : Value F → Prop
  | .arr _ | .obj _ => True
  | _ => False

variable (eng nested budget members) in
/-- A step whose type is no string does not pass. -/
lemma validateStep_untyped (htype : ∀ type, get members "type" ≠ .str type) :
    (∃ e, validateStep eng nested budget (.obj members) = fault e)
        ∧ ¬ (budget + 1 ≤ eng.maxSteps ∧ Unhashable (get members "type"))
      ∨ budget + 1 ≤ eng.maxSteps ∧ Unhashable (get members "type")
        ∧ validateStep eng nested budget (.obj members) = .error .typeError := by
  by_cases hbudget : budget + 1 > eng.maxSteps
  · refine Or.inl ⟨⟨.stepLimit eng.maxSteps, ?_⟩, fun h => absurd hbudget (not_lt.2 h.1)⟩
    rw [validateStep, checkBudget, if_pos hbudget]
    rfl
  rw [validateStep, checkBudget, if_neg hbudget]
  cases htypes : get members "type" with
  | str type => exact absurd htypes (htype type)
  | arr items => exact Or.inr ⟨not_lt.1 hbudget, trivial, rfl⟩
  | obj fields => exact Or.inr ⟨not_lt.1 hbudget, trivial, rfl⟩
  | _ => exact Or.inl ⟨⟨_, rfl⟩, fun h => h.2⟩

variable (eng nested budget) in
/-- A step whose type is a string passes, or raises `BuiltinExecutionError`, before its fields are
looked at, or is left to its fields. -/
lemma validateStep_cases {type : Str} (htype : get members "type" = .str type) :
    (∃ e, validateStep eng nested budget (.obj members) = fault e)
        ∧ ¬ (budget + 1 ≤ eng.maxSteps ∧ IsStepType type ∧ KeyFits members)
      ∨ budget + 1 ≤ eng.maxSteps ∧ IsStepType type ∧ KeyFits members
        ∧ validateStep eng nested budget (.obj members)
          = validateFields eng nested (budget + 1) type members := by
  by_cases hbudget : budget + 1 > eng.maxSteps
  · refine Or.inl ⟨⟨.stepLimit eng.maxSteps, ?_⟩, fun h => absurd hbudget (not_lt.2 h.1)⟩
    rw [validateStep, checkBudget, if_pos hbudget]
    rfl
  generalize hopen : validateStep eng nested budget (.obj members) = answer
  rw [validateStep, checkBudget, if_neg hbudget] at hopen
  simp only [htype] at hopen
  change (if IsStepType type then _ else _) = answer at hopen
  by_cases hknown : IsStepType type
  · rw [if_pos hknown] at hopen
    by_cases hhas : has members "key" = true
    · rw [if_pos hhas] at hopen
      split at hopen
      · rename_i key hkey
        exact Or.inr ⟨not_lt.1 hbudget, hknown, fun _ => ⟨key, hkey⟩, hopen.symm⟩
      · rename_i hkey
        refine Or.inl ⟨⟨.keyNotString, hopen.symm⟩, fun h => ?_⟩
        obtain ⟨key, hstr⟩ := h.2.2 hhas
        exact hkey key hstr
    · rw [if_neg hhas] at hopen
      exact Or.inr ⟨not_lt.1 hbudget, hknown, fun h => absurd h hhas, hopen.symm⟩
  · rw [if_neg hknown] at hopen
    exact Or.inl ⟨⟨.unknownStepType (.str type), hopen.symm⟩, fun h => hknown h.2.1⟩

/-- A step whose fields pass is accepted when the branches of conditions are. -/
lemma accepted_of_validateFields {levels : ℕ} {type : Str} (hknown : IsStepType type)
    (hlookup : members.lookup (text "type") = some (.str type))
    (hnested : ∀ run, nested = some run → ∃ below, levels = below + 1 ∧
      ∀ b b' steps, run b steps = .ok b' → ∀ step ∈ steps, Accepted below step)
    (h : validateFields eng nested budget type members = .ok budget') :
    Accepted levels (.obj members) := by
  rw [validateFields.eq_def] at h
  by_cases hset : type = text "set"
  · have htyped : Typed members "set" := by rw [Typed, hlookup, hset]
    rw [if_pos hset] at h
    by_cases hfields : (has members "key" && has members "value") = true
    · rw [if_pos hfields] at h
      obtain ⟨u, hkey, -⟩ := bind_eq_ok.1 h
      rw [Bool.and_eq_true] at hfields
      obtain ⟨key, hstr⟩ := str_of_validateKey hkey
      exact .set htyped (get_eq_str hstr) (lookup_of_has hfields.2)
    · rw [if_neg hfields] at h
      cases h
  rw [if_neg hset] at h
  by_cases hcopy : type = text "copy"
  · have htyped : Typed members "copy" := by rw [Typed, hlookup, hcopy]
    rw [if_pos hcopy] at h
    by_cases hfields : (has members "from" && has members "to") = true
    · rw [if_pos hfields] at h
      obtain ⟨u, hfrom, h⟩ := bind_eq_ok.1 h
      obtain ⟨u, hto, -⟩ := bind_eq_ok.1 h
      obtain ⟨path, hpath, hresolve⟩ := resolve_of_validatePath hfrom
      obtain ⟨target, htarget⟩ := str_of_validateKey hto
      exact .copy htyped (get_eq_str hpath) hresolve (get_eq_str htarget)
    · rw [if_neg hfields] at h
      cases h
  rw [if_neg hcopy] at h
  by_cases hcondition : type = text "condition"
  · have htyped : Typed members "condition" := by rw [Typed, hlookup, hcondition]
    rw [if_pos hcondition] at h
    obtain ⟨u, hif, h⟩ := bind_eq_ok.1 h
    obtain ⟨guard, hguard, hvalid⟩ := guard_of_validateIf hif
    split at h
    · rename_i thens hthen
      cases nested with
      | none => cases h
      | some run =>
          obtain ⟨b, hthens, h⟩ := bind_eq_ok.1 h
          obtain ⟨below, rfl, hrun⟩ := hnested run rfl
          split at h
          · rename_i elses helse
            exact .condition htyped hguard hvalid hthen helse (hrun _ _ thens hthens)
              (hrun _ _ elses h)
          · cases h
    · cases h
  rw [if_neg hcondition] at h
  have htyped : Typed members "error_if" := by
    rcases hknown with h | h | h | h
    · exact absurd h hset
    · exact absurd h hcopy
    · exact absurd h hcondition
    · rw [Typed, hlookup, h]
  split at h
  · rename_i c cs hmessage
    obtain ⟨u, hif, -⟩ := bind_eq_ok.1 h
    obtain ⟨guard, hguard, hvalid⟩ := guard_of_validateIf hif
    exact .errorIf htyped hguard hvalid (get_eq_str hmessage)
  · cases h

/-- How a branch is validated at a depth that leaves so many levels. -/
def nestedValidation (eng : Engine F) : ℕ → Option (ℕ → List (Value F) → Except (Exn F) ℕ)
  | 0 => none
  | levels + 1 => some (validateSteps eng levels)

lemma validateSteps_eq (eng : Engine F) (levels budget : ℕ) (steps : List (Value F)) :
    validateSteps eng levels budget steps
      = steps.foldlM (validateStep eng (nestedValidation eng levels)) budget := by
  cases levels <;> rfl

/-- **The steps of a list that passes are accepted.** -/
lemma accepted_of_validateSteps {levels : ℕ} {steps : List (Value F)}
    (h : validateSteps eng levels budget steps = .ok budget') : ∀ step ∈ steps, Accepted levels step := by
  induction levels using Nat.strong_induction_on generalizing budget budget' steps with
  | _ levels ih =>
      have hstep : ∀ b b' step, validateStep eng (nestedValidation eng levels) b step = .ok b' →
          Accepted levels step := by
        intro b b' step hb
        cases step with
        | obj members =>
            cases htype : get members "type" with
            | str type =>
                rcases validateStep_cases eng b
                    (nestedValidation eng levels) htype with
                  ⟨⟨e, he⟩, -⟩ | ⟨-, hknown, -, hfields⟩
                · rw [he] at hb
                  cases hb
                · rw [hfields] at hb
                  refine accepted_of_validateFields hknown (get_eq_str htype) (fun run hrun => ?_) hb
                  cases levels with
                  | zero => cases hrun
                  | succ below =>
                      obtain rfl := Option.some.inj hrun
                      exact ⟨below, rfl, fun _ _ _ hvalid => ih below (Nat.lt_succ_self below) hvalid⟩
            | _ =>
                rcases validateStep_untyped eng members b
                    (nestedValidation eng levels)
                    (fun type h => by rw [htype] at h; cases h) with ⟨⟨e, he⟩, -⟩ | ⟨-, -, he⟩
                · rw [he] at hb
                  cases hb
                · rw [he] at hb
                  cases hb
        | _ => cases hb
      rw [validateSteps_eq] at h
      induction steps generalizing budget with
      | nil => exact fun step hmem => absurd hmem List.not_mem_nil
      | cons step steps ihsteps =>
          rw [List.foldlM_cons] at h
          obtain ⟨b, hb, hrest⟩ := bind_eq_ok.1 h
          intro x hx
          rcases List.mem_cons.1 hx with rfl | hx
          · exact hstep budget b x hb
          · exact ihsteps hrest x hx

/-! ### What the validator raises -/

omit eng in
lemma not_foreign_ok {α : Type} {a : α} : ¬ Foreign (.ok a : Except (Exn F) α) := by
  rintro ⟨e, he, -⟩
  cases he

omit eng in
lemma not_foreign_fault {α : Type} {e : BuiltinError F} : ¬ Foreign (fault e : Except (Exn F) α) := by
  rintro ⟨e', he, hforeign⟩
  exact hforeign e (Except.error.inj he).symm

omit eng in
lemma foreign_bind {α β : Type} {x : Except (Exn F) α} {f : α → Except (Exn F) β} :
    Foreign (x >>= f) ↔ Foreign x ∨ ∃ a, x = .ok a ∧ Foreign (f a) := by
  cases x with
  | error e =>
      constructor
      · rintro ⟨e', he, hforeign⟩
        exact Or.inl ⟨e', congrArg _ (Except.error.inj he), hforeign⟩
      · rintro (⟨e', he, hforeign⟩ | ⟨a, ha, -⟩)
        · exact ⟨e', congrArg _ (Except.error.inj he), hforeign⟩
        · cases ha
  | ok a =>
      refine ⟨fun h => Or.inr ⟨a, rfl, h⟩, fun h => h.elim (fun h => absurd h not_foreign_ok) ?_⟩
      rintro ⟨a', ha, h⟩
      obtain rfl := Except.ok.inj ha
      exact h

omit eng in
lemma not_foreign_validatePath {path : Value F} {place : Place} : ¬ Foreign (validatePath path place) := by
  rw [validatePath.eq_def]
  split
  · split_ifs
    · exact not_foreign_fault
    · split
      · exact not_foreign_fault
      · exact not_foreign_ok
  · exact not_foreign_fault

omit eng in
lemma not_foreign_validateKey {key : Value F} {place : Place} : ¬ Foreign (validateKey key place) := by
  rw [validateKey.eq_def]
  split
  · split_ifs
    · exact not_foreign_fault
    · exact not_foreign_ok
  · exact not_foreign_fault

omit eng in
lemma not_foreign_validateIf {e : BuiltinError F} : ¬ Foreign (validateIf members e) := by
  rw [validateIf]
  split_ifs
  · rw [validateGuard.eq_def]
    split
    · rw [foreign_bind]
      rintro (h | ⟨u, -, h⟩)
      · exact not_foreign_validatePath h
      · revert h
        split
        · split
          · split
            · exact not_foreign_ok
            · exact not_foreign_fault
            · exact not_foreign_ok
          · exact not_foreign_fault
        · exact not_foreign_fault
    · exact not_foreign_fault
  · exact not_foreign_fault

/-- The fields of a step raise another exception only in the branches of a condition. -/
lemma foreign_validateFields {type : Str} : Foreign (validateFields eng nested budget type members)
    ↔ type = text "condition" ∧ validateIf members (.conditionGuard : BuiltinError F) = .ok ()
      ∧ ∃ thens run, (members.lookup (text "then")).getD (.arr []) = .arr thens ∧ nested = some run
        ∧ (Foreign (run budget thens) ∨ ∃ b elses, run budget thens = .ok b
          ∧ (members.lookup (text "else")).getD (.arr []) = .arr elses ∧ Foreign (run b elses)) := by
  rw [validateFields.eq_def]
  by_cases hset : type = text "set"
  · rw [if_pos hset]
    refine iff_of_false ?_ fun h => ?_
    · split_ifs
      · rw [foreign_bind]
        rintro (h | ⟨u, -, h⟩)
        · exact not_foreign_validateKey h
        · exact not_foreign_ok h
      · exact not_foreign_fault
    · rw [hset] at h
      exact absurd h.1 (by decide)
  rw [if_neg hset]
  by_cases hcopy : type = text "copy"
  · rw [if_pos hcopy]
    refine iff_of_false ?_ fun h => ?_
    · split_ifs
      · rw [foreign_bind]
        rintro (h | ⟨u, -, h⟩)
        · exact not_foreign_validatePath h
        · rw [foreign_bind] at h
          rcases h with h | ⟨u, -, h⟩
          · exact not_foreign_validateKey h
          · exact not_foreign_ok h
      · exact not_foreign_fault
    · rw [hcopy] at h
      exact absurd h.1 (by decide)
  rw [if_neg hcopy]
  by_cases hcondition : type = text "condition"
  · rw [if_pos hcondition, foreign_bind]
    constructor
    · rintro (h | ⟨u, hif, h⟩)
      · exact absurd h not_foreign_validateIf
      · split at h
        · rename_i thens hthen
          cases nested with
          | none => exact absurd h not_foreign_fault
          | some run =>
              refine ⟨hcondition, hif, thens, run, hthen, rfl, ?_⟩
              rcases foreign_bind.1 h with h | ⟨b, hb, h⟩
              · exact Or.inl h
              · split at h
                · rename_i elses helse
                  exact Or.inr ⟨b, elses, hb, helse, h⟩
                · exact absurd h not_foreign_fault
        · exact absurd h not_foreign_fault
    · rintro ⟨-, hif, thens, run, hthen, rfl, hrun⟩
      refine Or.inr ⟨(), hif, ?_⟩
      simp only [hthen]
      rw [foreign_bind]
      rcases hrun with h | ⟨b, elses, hb, helse, h⟩
      · exact Or.inl h
      · refine Or.inr ⟨b, hb, ?_⟩
        simp only [helse]
        exact h
  rw [if_neg hcondition]
  refine iff_of_false ?_ fun h => hcondition h.1
  split
  · rw [foreign_bind]
    rintro (h | ⟨u, -, h⟩)
    · exact not_foreign_validateIf h
    · exact not_foreign_ok h
  · exact not_foreign_fault

/-- The validator gets as far as a step, with fewer steps counted than there may be: the steps before it
pass, and so does what stands before its branch in the conditions around it. -/
inductive Inspected (eng : Engine F) : ℕ → ℕ → List (Value F) → List (Str × Value F) → Prop
  | here {levels budget : ℕ} {members : List (Str × Value F)} {rest : List (Value F)}
      (hbudget : budget + 1 ≤ eng.maxSteps) : Inspected eng levels budget (.obj members :: rest) members
  | inThen {levels budget : ℕ} {members inner : List (Str × Value F)} {thens rest : List (Value F)}
      (hbudget : budget + 1 ≤ eng.maxSteps) (htype : Typed members "condition")
      (hkey : KeyFits members) (hif : validateIf members (.conditionGuard : BuiltinError F) = .ok ())
      (hthen : (members.lookup (text "then")).getD (.arr []) = .arr thens)
      (hinner : Inspected eng levels (budget + 1) thens inner) :
      Inspected eng (levels + 1) budget (.obj members :: rest) inner
  | inElse {levels budget budget' : ℕ} {members inner : List (Str × Value F)}
      {thens elses rest : List (Value F)}
      (hbudget : budget + 1 ≤ eng.maxSteps) (htype : Typed members "condition")
      (hkey : KeyFits members) (hif : validateIf members (.conditionGuard : BuiltinError F) = .ok ())
      (hthen : (members.lookup (text "then")).getD (.arr []) = .arr thens)
      (hthens : validateSteps eng levels (budget + 1) thens = .ok budget')
      (helse : (members.lookup (text "else")).getD (.arr []) = .arr elses)
      (hinner : Inspected eng levels budget' elses inner) :
      Inspected eng (levels + 1) budget (.obj members :: rest) inner
  | later {levels budget budget' : ℕ} {step : Value F} {inner : List (Str × Value F)}
      {rest : List (Value F)}
      (hstep : validateStep eng (nestedValidation eng levels) budget step = .ok budget')
      (hrest : Inspected eng levels budget' rest inner) : Inspected eng levels budget (step :: rest) inner

/-- The validator comes to a step whose type is a list or an object. -/
def ComesToUnhashable (eng : Engine F) (levels budget : ℕ) (steps : List (Value F)) : Prop :=
  ∃ members, Inspected eng levels budget steps members ∧ Unhashable (get members "type")

variable {levels : ℕ} {step : Value F} {rest : List (Value F)}

lemma comesToUnhashable_cons : ComesToUnhashable eng levels budget (step :: rest)
    ↔ ComesToUnhashable eng levels budget [step]
      ∨ ∃ b, validateStep eng (nestedValidation eng levels) budget step = .ok b
        ∧ ComesToUnhashable eng levels b rest := by
  constructor
  · rintro ⟨members, hinspected, htype⟩
    cases hinspected with
    | here hbudget => exact Or.inl ⟨members, .here hbudget, htype⟩
    | inThen hbudget hcondition hkey hif hthen hinner =>
        exact Or.inl ⟨members, .inThen hbudget hcondition hkey hif hthen hinner, htype⟩
    | inElse hbudget hcondition hkey hif hthen hthens helse hinner =>
        exact Or.inl ⟨members, .inElse hbudget hcondition hkey hif hthen hthens helse hinner, htype⟩
    | later hstep hrest => exact Or.inr ⟨_, hstep, members, hrest, htype⟩
  · rintro (⟨members, hinspected, htype⟩ | ⟨b, hstep, members, hrest, htype⟩)
    · refine ⟨members, ?_, htype⟩
      cases hinspected with
      | here hbudget => exact .here hbudget
      | inThen hbudget hcondition hkey hif hthen hinner =>
          exact .inThen hbudget hcondition hkey hif hthen hinner
      | inElse hbudget hcondition hkey hif hthen hthens helse hinner =>
          exact .inElse hbudget hcondition hkey hif hthen hthens helse hinner
      | later hstep hrest => cases hrest
    · exact ⟨members, .later hstep hrest, htype⟩

/-- One step raises another exception when the validator comes to an unhashable type in it. -/
lemma foreign_validateStep
    (hbelow : ∀ below, below < levels → ∀ b steps,
      Foreign (validateSteps eng below b steps) ↔ ComesToUnhashable eng below b steps) :
    Foreign (validateStep eng (nestedValidation eng levels) budget step)
      ↔ ComesToUnhashable eng levels budget [step] := by
  cases step with
  | obj members =>
      by_cases hstr : ∃ type, get members "type" = .str type
      · obtain ⟨type, htype⟩ := hstr
        have hhere : ¬ Unhashable (get members "type") := by
          rw [htype]
          exact id
        have hsame : Typed members "condition" → type = text "condition" := by
          intro h
          rw [get, h] at htype
          exact (Value.str.inj htype).symm
        rcases validateStep_cases eng budget
            (nestedValidation eng levels) htype with
          ⟨⟨e, he⟩, hnot⟩ | ⟨hbudget, hknown, hkey, hfields⟩
        · rw [he]
          refine iff_of_false not_foreign_fault ?_
          rintro ⟨inner, hinspected, hun⟩
          cases hinspected with
          | here hbudget => exact hhere hun
          | inThen hbudget hcondition hkey hif hthen hinner =>
              exact hnot ⟨hbudget, Or.inr (Or.inr (Or.inl (hsame hcondition))), hkey⟩
          | inElse hbudget hcondition hkey hif hthen hthens helse hinner =>
              exact hnot ⟨hbudget, Or.inr (Or.inr (Or.inl (hsame hcondition))), hkey⟩
          | later hstep hrest => cases hrest
        · rw [hfields, foreign_validateFields]
          constructor
          · rintro ⟨hcondition, hif, thens, run, hthen, hrun, hforeign⟩
            have htyped : Typed members "condition" := by rw [Typed, get_eq_str htype, hcondition]
            cases levels with
            | zero => cases hrun
            | succ below =>
                obtain rfl := Option.some.inj hrun
                have hlt := Nat.lt_succ_self below
                rcases hforeign with h | ⟨b, elses, hb, helse, h⟩
                · obtain ⟨inner, hinner, hun⟩ := (hbelow below hlt _ _).1 h
                  exact ⟨inner, .inThen hbudget htyped hkey hif hthen hinner, hun⟩
                · obtain ⟨inner, hinner, hun⟩ := (hbelow below hlt _ _).1 h
                  exact ⟨inner, .inElse hbudget htyped hkey hif hthen hb helse hinner, hun⟩
          · rintro ⟨inner, hinspected, hun⟩
            cases hinspected with
            | here _ => exact absurd hun hhere
            | inThen _ hcondition _ hif hthen hinner =>
                exact ⟨hsame hcondition, hif, _, _, hthen, rfl,
                  Or.inl ((hbelow _ (Nat.lt_succ_self _) _ _).2 ⟨inner, hinner, hun⟩)⟩
            | inElse _ hcondition _ hif hthen hthens helse hinner =>
                exact ⟨hsame hcondition, hif, _, _, hthen, rfl, Or.inr ⟨_, _, hthens, helse,
                  (hbelow _ (Nat.lt_succ_self _) _ _).2 ⟨inner, hinner, hun⟩⟩⟩
            | later hstep hrest => cases hrest
      · rcases validateStep_untyped eng members budget
            (nestedValidation eng levels)
            (fun type htype => hstr ⟨type, htype⟩) with ⟨⟨e, he⟩, hnot⟩ | ⟨hbudget, hun, he⟩
        · rw [he]
          refine iff_of_false not_foreign_fault ?_
          rintro ⟨inner, hinspected, hun⟩
          cases hinspected with
          | here hbudget => exact hnot ⟨hbudget, hun⟩
          | inThen _ hcondition _ _ _ _ => exact hstr ⟨_, by rw [get, hcondition]; rfl⟩
          | inElse _ hcondition _ _ _ _ _ _ => exact hstr ⟨_, by rw [get, hcondition]; rfl⟩
          | later hstep hrest => cases hrest
        · rw [he]
          exact iff_of_true ⟨.typeError, rfl, by simp⟩ ⟨members, .here hbudget, hun⟩
  | _ =>
      refine iff_of_false not_foreign_fault ?_
      rintro ⟨inner, hinspected, -⟩
      cases hinspected with
      | later hstep hrest => cases hrest

/-- **The validator raises another exception exactly when it comes to an unhashable type.** -/
lemma foreign_validateSteps {steps : List (Value F)} :
    Foreign (validateSteps eng levels budget steps) ↔ ComesToUnhashable eng levels budget steps := by
  induction levels using Nat.strong_induction_on generalizing budget steps with
  | _ levels ih =>
      rw [validateSteps_eq]
      induction steps generalizing budget with
      | nil =>
          refine iff_of_false not_foreign_ok ?_
          rintro ⟨members, hinspected, -⟩
          cases hinspected
      | cons step steps ihsteps =>
          rw [List.foldlM_cons, foreign_bind, comesToUnhashable_cons,
            foreign_validateStep fun below hlt b steps => ih below hlt]
          simp only [ihsteps]

end Accepting

end Builtin
