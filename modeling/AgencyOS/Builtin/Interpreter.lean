import AgencyOS.Builtin.Model

/-!
The interpreter of builtin definitions.

A definition is a JSON object with a list of steps, which may hold lists of steps in the branches of
their conditions; how deep is bounded by a setting, so that the recursion is on the levels left.  Of a
step only strings are taken for the key it writes to, which is all that passes validation.

* `renderTemplate`: the `{{ path ?? default }}` of a text;
* `validateBuiltinDefinition`: the validator;
* `runSteps`, `runBuiltinDefinition`: the interpreter, with the calls of `on_step` as a trace.
-/

namespace Builtin

open Python Python.Json

variable {F : Type}

/-- The limits of the engine and of Python: how deep `deepcopy` and `json.dumps` can go. -/
structure Settings where
  maxSteps : ℕ
  maxDepth : ℕ
  maxTemplateLength : ℕ
  maxResultSize : ℕ
  copyLimits : Limits
  dumpLimits : Limits

/-- What the engine takes from Python: how floats are written and what numbers they are. -/
structure Engine (F : Type) extends Settings where
  floats : Floats F
  real : F → Number

/-- The engine with the default settings, where the only float is a constant. -/
def defaultEngine : Engine Unit where
  maxSteps := 50
  maxDepth := 3
  maxTemplateLength := 4000
  maxResultSize := 524288
  copyLimits := unlimited
  dumpLimits := unlimited
  floats :=
    { repr := fun _ => .infinity false
      float := fun _ => ()
      scan_repr := fun _ _ _ _ h => nomatch h
      float_repr := fun _ => rfl }
  real _ := ⊤

/-- A failure of `json` or of a copy, as an exception. -/
def Exn.ofFailure : Failure → Exn F
  | .recursionError => .recursionError
  | .valueError | .jsonDecodeError => .valueError

/-! ### Templates -/

/-- A code point that `\s` and `str.strip` know. -/
def isSpacePoint (c : ℕ) : Bool := isSpace (Char.ofNat c)

def stripPoints (s : Str) : Str := (s.dropWhile isSpacePoint).rdropWhile isSpacePoint

/-- What follows `\s*}}` at the start of a text. -/
def closes (s : Str) : Option Str :=
  match s.dropWhile isSpacePoint with
  | 0x7d :: 0x7d :: rest => some rest
  | _ => none

/-- `(.*?)\s*}}`: the group and what follows. -/
def scanGroup : Str → Option (Str × Str)
  | [] => none
  | c :: cs =>
      match closes (c :: cs) with
      | some rest => some ([], rest)
      | none => if c = 0xa then none else (scanGroup cs).map fun (group, rest) => (c :: group, rest)

/-- `_TEMPLATE_RE` after its opening braces. -/
def scanTemplate (s : Str) : Option (Str × Str) := scanGroup (s.dropWhile isSpacePoint)

/-- `partition("??")`, if the text has it. -/
def partitionDefault : Str → Option (Str × Str)
  | [] => none
  | 0x3f :: 0x3f :: rest => some ([], rest)
  | c :: cs => (partitionDefault cs).map fun (before, after) => (c :: before, after)

/-- `_TEMPLATE_RE.sub`; a step takes a character at least. -/
def substitute (replace : Str → Except (Exn F) Str) : ℕ → Str → Except (Exn F) Str
  | 0, s => .ok s
  | _ + 1, [] => .ok []
  | fuel + 1, c :: cs =>
      match c, cs with
      | 0x7b, 0x7b :: rest =>
          match scanTemplate rest with
          | some (group, rest) => do
              let replaced ← replace group
              return replaced ++ (← substitute replace fuel rest)
          | none => do return c :: (← substitute replace fuel cs)
      | c, cs => do return c :: (← substitute replace fuel cs)

/-- `"{{" in text`. -/
def hasTemplate (s : Str) : Bool := decide ([0x7b, 0x7b] <:+: s)

section Run

variable (eng : Engine F)

/-- `str` of a float. -/
def FloatText.str : FloatText → List Char
  | .infinity true => ['-', 'i', 'n', 'f']
  | .infinity false => ['i', 'n', 'f']
  | .nan => ['n', 'a', 'n']
  | t => t.render

/-- `json.dumps(value, separators=(",", ":"), ensure_ascii=False)`. -/
def dumpsPlain (value : Value F) : Except (Exn F) Str :=
  match value.check eng.dumpLimits with
  | .ok () => .ok (compact eng.floats false value)
  | .error e => .error (.ofFailure e)

/-- `_stringify`. -/
def stringify (value : Value F) : Except (Exn F) Str :=
  match value with
  | .str s => .ok s
  | .null => .ok (text "null")
  | .obj _ | .arr _ => dumpsPlain eng value
  | .bool b => .ok (if b then text "True" else text "False")
  | .int n => .ok (points ((if n < 0 then ['-'] else []) ++ decimalText n.natAbs))
  | .float x => .ok (points (FloatText.str (eng.floats.repr x)))

/-- What a template stands for. -/
def expand (context : List (Str × Value F)) (group : Str) : Except (Exn F) Str := do
  let (path, default) := match partitionDefault (stripPoints group) with
    | some (path, default) => (stripPoints path, stripPoints default)
    | none => (stripPoints group, [])
  match ← resolve context path with
  | some value => stringify eng value
  | none => if default = [] then fault (.templatePath path) else return default

/-- `_render_template`. -/
def renderTemplate (context : List (Str × Value F)) (s : Str) : Except (Exn F) Str :=
  if hasTemplate s then
    if s.length > eng.maxTemplateLength then fault (.templateLength eng.maxTemplateLength)
    else substitute (expand eng context) s.length s
  else .ok s

/-! ### The validator -/

/-- `_check_budget`. -/
def checkBudget (budget limit : ℕ) : Except (Exn F) ℕ :=
  if budget + 1 > limit then fault (.stepLimit limit) else .ok (budget + 1)

/-- The members of a condition or an `error_if`, apart from its branches. -/
def validateIf (members : List (Str × Value F)) (missing : BuiltinError F) : Except (Exn F) Unit :=
  if has members "if" then validateGuard (get members "if") else fault missing

/-- `_validate_step`; `nested` validates a branch, unless the depth limit is reached. -/
def validateStep (nested : Option (ℕ → List (Value F) → Except (Exn F) ℕ)) (budget : ℕ)
    (step : Value F) : Except (Exn F) ℕ :=
  match step with
  | .obj members => do
      let budget ← checkBudget budget eng.maxSteps
      match get members "type" with
      | .str type => do
          if type = text "set" ∨ type = text "copy" ∨ type = text "condition" ∨ type = text "error_if" then
            if has members "key" then
              match get members "key" with
              | .str _ => pure ()
              | _ => fault .keyNotString
          else
            fault (.unknownStepType (.str type))
          if type = text "set" then
            if has members "key" && has members "value" then
              validateKey (get members "key") .stepKey
              return budget
            else fault .setFields
          else if type = text "copy" then
            if has members "from" && has members "to" then
              validatePath (get members "from") .stepFrom
              validateKey (get members "to") .stepTo
              return budget
            else fault .copyFields
          else if type = text "condition" then
            validateIf members .conditionGuard
            match (members.lookup (text "then")).getD (.arr []) with
            | .arr thens =>
                match nested with
                | none => fault (.depthLimit eng.maxDepth)
                | some nested =>
                    let budget ← nested budget thens
                    match (members.lookup (text "else")).getD (.arr []) with
                    | .arr elses => nested budget elses
                    | _ => fault .elseNotList
            | _ => fault .thenNotList
          else
            match get members "message" with
            | .str (_ :: _) =>
                validateIf members .errorGuard
                return budget
            | _ => fault .errorMessage
      | .arr _ | .obj _ => .error .typeError
      | type => fault (.unknownStepType type)
  | _ => fault .stepNotObject

/-- The steps of one list, at a depth that leaves so many levels. -/
def validateSteps : ℕ → ℕ → List (Value F) → Except (Exn F) ℕ
  | 0, budget, steps => steps.foldlM (validateStep eng none) budget
  | levels + 1, budget, steps => steps.foldlM (validateStep eng (some (validateSteps levels))) budget

/-- `validate_builtin_definition`. -/
def validateBuiltinDefinition (definition : Value F) : Except (Exn F) Unit :=
  match definition with
  | .obj members =>
      match (members.lookup (text "steps")).getD (.arr []) with
      | .arr steps => do
          let _ ← validateSteps eng (eng.maxDepth - 1) 0 steps
          return ()
      | _ => fault .stepsNotList
  | _ => fault .definitionNotObject

/-! ### The interpreter -/

inductive EventKind where
  | started | completed | failed
  deriving DecidableEq, Repr

/-- A call of `on_step`. -/
structure Event (F : Type) where
  kind : EventKind
  index : ℕ
  stepId : Value F

structure State (F : Type) where
  context : List (Str × Value F)
  budget : ℕ
  trace : List (Event F)

def State.emit (s : State F) (kind : EventKind) (index : ℕ) (stepId : Value F) : State F :=
  { s with trace := s.trace ++ [⟨kind, index, stepId⟩] }

/-- How a computation of the interpreter ends. -/
abbrev Outcome (F : Type) : Type := State F × Except (Exn F) Unit

/-- `context[key] = value`. -/
def assign (context : List (Str × Value F)) (key value : Value F) :
    Except (Exn F) (List (Str × Value F)) :=
  match key with
  | .str key =>
      if (context.lookup key).isSome then
        .ok (context.map fun m => if m.1 = key then (key, value) else m)
      else .ok (context ++ [(key, value)])
  | _ => .error .typeError

/-- `deepcopy`. -/
def deepcopy (value : Value F) : Except (Exn F) (Value F) :=
  match value.check eng.copyLimits with
  | .ok () => .ok value
  | .error e => .error (.ofFailure e)

/-- A `set` step. -/
def runSet (context : List (Str × Value F)) (step : Value F) :
    Except (Exn F) (List (Str × Value F)) := do
  let value ← item step "value"
  let value ← match value with
    | .str s => if hasTemplate s then Value.str <$> renderTemplate eng context s else deepcopy eng value
    | value => deepcopy eng value
  assign context (← item step "key") value

/-- A `copy` step. -/
def runCopy (context : List (Str × Value F)) (step : Value F) :
    Except (Exn F) (List (Str × Value F)) := do
  match ← item step "from" with
  | .str path =>
      match ← resolve context path with
      | none => fault (.copySource path)
      | some value =>
          let value ← deepcopy eng value
          assign context (← item step "to") value
  | _ => .error .attributeError

/-- `for step in branch`. -/
def iterate (branch : Value F) : Except (Exn F) (List (Value F)) :=
  match branch with
  | .arr items => .ok items
  | .str s => .ok (s.map fun c => .str [c])
  | .obj members => .ok (members.map fun m => .str m.1)
  | _ => .error .typeError

/-- The branch of a `condition` step. -/
def selectBranch (context : List (Str × Value F)) (step : Value F) :
    Except (Exn F) (List (Value F)) := do
  if ← evaluateGuard eng.real context (← item step "if") then
    iterate (← item step "then")
  else
    match step with
    | .obj members => iterate ((members.lookup (text "else")).getD (.arr []))
    | _ => .error .attributeError

/-- An `error_if` step. -/
def runErrorIf (context : List (Str × Value F)) (step : Value F) : Except (Exn F) Unit := do
  if ← evaluateGuard eng.real context (← item step "if") then
    fault (.raised (← item step "message"))

/-- What a step does; `nested` runs a branch, unless the depth limit is reached.  A step of another
type does nothing. -/
def perform (nested : Option (List (Value F) → State F → Outcome F)) (step : Value F) (s : State F) :
    Outcome F :=
  match item step "type" with
  | .error e => (s, .error e)
  | .ok (.str type) =>
      if type = text "set" then
        match runSet eng s.context step with
        | .ok context => ({ s with context := context }, .ok ())
        | .error e => (s, .error e)
      else if type = text "copy" then
        match runCopy eng s.context step with
        | .ok context => ({ s with context := context }, .ok ())
        | .error e => (s, .error e)
      else if type = text "condition" then
        match nested with
        | none => (s, fault (.depthLimit eng.maxDepth))
        | some nested =>
            match selectBranch eng s.context step with
            | .ok branch => nested branch s
            | .error e => (s, .error e)
      else if type = text "error_if" then
        (s, runErrorIf eng s.context step)
      else (s, .ok ())
  | .ok _ => (s, .ok ())

/-- `step.get("id")`, of an object. -/
def stepId (step : Value F) : Value F :=
  match step with
  | .obj members => get members "id"
  | _ => .null

/-- A step with the calls of `on_step` around it: only a `BuiltinExecutionError` is told as failed. -/
def runStep (nested : Option (List (Value F) → State F → Outcome F)) (step : Value F) (s : State F) :
    Outcome F :=
  let index := s.budget
  match perform eng nested step (s.emit .started index (stepId step)) with
  | (s, .ok ()) => (s.emit .completed index (stepId step), .ok ())
  | (s, .error (.builtin e)) => (s.emit .failed index (stepId step), .error (.builtin e))
  | (s, .error e) => (s, .error e)

/-- The steps of one list. -/
def runList (nested : Option (List (Value F) → State F → Outcome F)) :
    List (Value F) → State F → Outcome F
  | [], s => (s, .ok ())
  | step :: steps, s =>
      match checkBudget s.budget eng.maxSteps with
      | .error e => (s, .error e)
      | .ok budget =>
          match runStep eng nested step { s with budget := budget } with
          | (s, .ok ()) => runList nested steps s
          | (s, .error e) => (s, .error e)

/-- `_run_steps`, at a depth that leaves so many levels. -/
def runSteps : ℕ → List (Value F) → State F → Outcome F
  | 0 => runList eng none
  | levels + 1 => runList eng (some (runSteps levels))

/-- `_check_result_size`. -/
def checkResultSize (context : List (Str × Value F)) : Except (Exn F) Unit := do
  let dumped ← dumpsPlain eng (.obj context)
  if dumped.length > eng.maxResultSize then
    fault (.resultSize eng.maxResultSize)

/-- What is returned: the context, or the value that `output_key` names. -/
def selectOutput (definition context : List (Str × Value F)) : Except (Exn F) (Value F) :=
  match get definition "output_key" with
  | .null => return .obj context
  | key => do
      validateKey key .outputKey
      match key with
      | .str key =>
          match context.lookup key with
          | some value => return .obj [(key, value)]
          | none => fault (.outputKey key)
      | _ => fault (.emptyKey .outputKey)

/-- `run_builtin_definition`: the trace, and the result. -/
def runBuiltinDefinition (definition : List (Str × Value F)) (input : Value F) :
    List (Event F) × Except (Exn F) (Value F) :=
  match (definition.lookup (text "steps")).getD (.arr []) with
  | .arr steps =>
      match deepcopy eng input with
      | .error e => ([], .error e)
      | .ok input =>
          match runSteps eng (eng.maxDepth - 1) steps ⟨[(text "input", input)], 0, []⟩ with
          | (s, .error e) => (s.trace, .error e)
          | (s, .ok ()) =>
              (s.trace, do
                checkResultSize eng s.context
                selectOutput definition s.context)
  | _ => ([], fault .stepsNotList)

end Run

end Builtin
