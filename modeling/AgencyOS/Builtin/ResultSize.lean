import AgencyOS.Automation.Worker
import AgencyOS.Builtin.Interpreter

/-!
The size of a builtin result, as the interpreter counts it and as the execution service does.

The interpreter counts the characters of the context, unescaped; the service counts the bytes of the
result, where `json.dumps` has escaped what is not ASCII.

* `dumpsPayload`: the text that the service counts;
* `Fits`, `fits_of_run`: what the interpreter has checked of a result it returns;
* `result_accepted_iff`: **a result is accepted when its text and the surplus of its strings fit**;
* `result_rejected_accents`: a hundred thousand accented letters do not.
-/

namespace Builtin

open Python Python.Json
open Automation (WorkflowExecutionService.assertPayloadSize ExecutionWorker.settle
  ExecutionWorker.attempt Execution)

variable {F : Type} (eng : Engine F)

/-- `json.dumps(payload, separators=(",", ":"), default=str)`, of a JSON value. -/
def dumpsPayload (value : Value F) : Except (Exn F) Automation.Payload :=
  match value.check eng.dumpLimits with
  | .ok () => .ok (encoded (compact eng.floats true value))
  | .error e => .error (.ofFailure e)

/-- What the interpreter has found out about a result. -/
structure Fits (value : Value F) : Prop where
  check : value.check eng.dumpLimits = .ok ()
  length_le : (compact eng.floats false value).length ≤ eng.maxResultSize

variable {eng}

/-! ### What is returned fits -/

lemma check_lookup {l : Limits} {members : List (Str × Value F)} {key : Str} {value : Value F}
    (hmembers : checkMembers l members = .ok ()) (hvalue : members.lookup key = some value) :
    value.check l = .ok () := by
  induction members with
  | nil => cases hvalue
  | cons m members ih =>
      obtain ⟨key', value'⟩ := m
      obtain ⟨u, hhead, hrest⟩ := bind_eq_ok.1 hmembers
      rw [List.lookup_cons] at hvalue
      by_cases hkey : key = key'
      · subst hkey
        have heq : value' = value := by simpa using hvalue
        rwa [← heq]
      · rw [beq_false_of_ne hkey] at hvalue
        exact ih hrest hvalue

lemma check_member {l : Limits} {members : List (Str × Value F)} {key : Str} {value : Value F}
    (hmembers : (Value.obj members).check l = .ok ()) (hvalue : members.lookup key = some value) :
    (Value.obj [(key, value)]).check l = .ok () := by
  obtain ⟨inner, henter, hcheck⟩ := bind_eq_ok.1 hmembers
  have hlookup : value.check inner = .ok () := check_lookup hcheck hvalue
  exact bind_eq_ok.2 ⟨inner, henter, bind_eq_ok.2 ⟨(), hlookup, rfl⟩⟩

lemma fits_of_checkResultSize {context : List (Str × Value F)}
    (h : checkResultSize eng context = .ok ()) : Fits eng (.obj context) := by
  obtain ⟨dumped, hdumped, hsize⟩ := bind_eq_ok.1 h
  rw [dumpsPlain] at hdumped
  cases hcheck : (Value.obj context).check eng.dumpLimits with
  | error e =>
      rw [hcheck] at hdumped
      cases hdumped
  | ok u =>
      rw [hcheck] at hdumped
      obtain rfl := Except.ok.inj hdumped
      refine ⟨hcheck, ?_⟩
      split_ifs at hsize with hlimit
      · cases hsize
      · omega

/-- One member of the context fits when the context does. -/
lemma Fits.member {context : List (Str × Value F)} {key : Str} {value : Value F}
    (h : Fits eng (.obj context)) (hvalue : context.lookup key = some value) :
    Fits eng (.obj [(key, value)]) where
  check := check_member h.check hvalue
  length_le := (length_compact_member_le eng.floats false hvalue).trans h.length_le

lemma Fits.selectOutput {definition context : List (Str × Value F)} {result : Value F}
    (h : Fits eng (.obj context)) (hresult : selectOutput definition context = .ok result) :
    Fits eng result := by
  rw [Builtin.selectOutput.eq_def] at hresult
  split at hresult
  · obtain rfl := Except.ok.inj hresult
    exact h
  · obtain ⟨u, -, hselect⟩ := bind_eq_ok.1 hresult
    split at hselect
    · split at hselect
      · rename_i value hvalue
        obtain rfl := Except.ok.inj hselect
        exact h.member hvalue
      · cases hselect
    · cases hselect

/-- What a run returns has passed the check of its size. -/
lemma fits_of_run {definition : List (Str × Value F)} {input result : Value F}
    (h : (runBuiltinDefinition eng definition input).2 = .ok result) : Fits eng result := by
  rw [runBuiltinDefinition.eq_def] at h
  split at h
  · split at h
    · cases h
    · split at h
      · cases h
      · obtain ⟨u, hsize, hselect⟩ := bind_eq_ok.1 h
        exact (fits_of_checkResultSize hsize).selectOutput hselect
  · cases h

/-! ### What the service accepts -/

lemma Fits.dumpsPayload {value : Value F} (h : Fits eng value) :
    dumpsPayload eng value = .ok (encoded (compact eng.floats true value)) := by
  rw [Builtin.dumpsPayload, h.check]

/-- The bytes of the escaped text: the characters of the plain one, and the surplus. -/
lemma utf8ByteSize_payload (value : Value F) :
    (encoded (compact eng.floats true value)).utf8ByteSize
      = (compact eng.floats false value).length + value.surplus := by
  rw [utf8ByteSize_compact_true, length_compact_true]

lemma assertPayloadSize_eq_ret_iff (settings : Automation.Settings) (payload : Automation.Payload)
    (field : String) :
    WorkflowExecutionService.assertPayloadSize settings payload field = .ret ()
      ↔ payload.utf8ByteSize ≤ settings.builtinMaxResultSizeBytes := by
  rw [WorkflowExecutionService.assertPayloadSize]
  split_ifs with h
  · exact iff_of_false nofun (by omega)
  · exact iff_of_true rfl (by omega)

/-- The worker drops a payload that is too large: the execution stays as it is. -/
lemma settle_of_too_large {settings : Automation.Settings} {adapter : Automation.Adapter}
    {executionId : ℕ} {started : Execution} {payload : Automation.Payload}
    (hreturned : adapter executionId started = .returned payload)
    (hlarge : settings.builtinMaxResultSizeBytes < payload.utf8ByteSize) :
    ExecutionWorker.settle settings adapter executionId started = .ret none := by
  have hassert : WorkflowExecutionService.assertPayloadSize settings payload "output"
      = Automation.raise "execution.payload_too_large"
          ("output" ++ " payload exceeds the maximum size ("
            ++ toString settings.builtinMaxResultSizeBytes ++ " bytes)") 413 := by
    rw [WorkflowExecutionService.assertPayloadSize, if_pos hlarge]
  simp only [ExecutionWorker.settle, hreturned, ExecutionWorker.attempt,
    Automation.WorkflowExecutionService.complete, hassert]
  rfl

/-- **A result that the interpreter returns is accepted when its plain text and the surplus of its
strings are within the limit; otherwise the worker leaves the execution as it is.** -/
theorem result_accepted_iff (settings : Automation.Settings) (definition : List (Str × Value F))
    (input result : Value F) (hlimit : settings.builtinMaxResultSizeBytes = eng.maxResultSize)
    (hrun : (runBuiltinDefinition eng definition input).2 = .ok result) :
    ∃ payload, dumpsPayload eng result = .ok payload ∧
      (WorkflowExecutionService.assertPayloadSize settings payload "output" = .ret ()
        ↔ (compact eng.floats false result).length + result.surplus ≤ eng.maxResultSize) ∧
      (eng.maxResultSize < (compact eng.floats false result).length + result.surplus →
        ∀ (adapter : Automation.Adapter) (executionId : ℕ) (started : Execution),
          adapter executionId started = .returned payload →
          ExecutionWorker.settle settings adapter executionId started = .ret none) := by
  have hfits := fits_of_run hrun
  have hbytes : (encoded (compact eng.floats true result)).utf8ByteSize
      = (compact eng.floats false result).length + result.surplus := utf8ByteSize_payload result
  refine ⟨_, hfits.dumpsPayload, ?_, ?_⟩
  · rw [assertPayloadSize_eq_ret_iff, hbytes, hlimit]
  · intro hlarge adapter executionId started hreturned
    exact settle_of_too_large hreturned (by omega)

/-! ### A text of accented letters -/

section Accents

/-- The settings with the default limit. -/
def defaultSettings : Automation.Settings where
  executionTimeoutSeconds := 300
  executionMaxPendingPerOrg := 500
  executionOrgsPerSweep := 20
  builtinMaxResultSizeBytes := 524288
  founderApprovalTtlSeconds := 86400

/-- `{"text": "éé…"}`. -/
def accents (n : ℕ) : Value Unit := .obj [(text "text", .str (List.replicate n 0xe9))]

def noSteps : List (Str × Value Unit) := [(text "steps", .arr [])]

lemma length_quoteString_accents (n : ℕ) :
    (quoteString false (List.replicate n 0xe9)).length = n + 2 := by
  have hpoints : (List.replicate n 0xe9).flatMap (escapePoint false) = List.replicate n 0xe9 := by
    induction n with
    | zero => rfl
    | succ n ih =>
        rw [List.replicate_succ, List.flatMap_cons, ih]
        rfl
  rw [quoteString, hpoints]
  simp

lemma surplusStr_accents (n : ℕ) : surplusStr (List.replicate n 0xe9) = 5 * n := by
  rw [surplusStr, List.map_replicate, List.sum_replicate, smul_eq_mul, Nat.mul_comm]
  rfl

/-- The context that a definition without steps leaves. -/
lemma length_compact_accents (n : ℕ) :
    (compact defaultEngine.floats false (.obj [(text "input", accents n)])).length = n + 21 := by
  have htext : (quoteString false (text "text")).length = 6 := by decide
  have hinput : (quoteString false (text "input")).length = 7 := by decide
  simp only [accents, compact, compactMembers, List.length_cons, List.length_append, htext, hinput,
    length_quoteString_accents, List.length_nil]
  omega

lemma surplus_accents (n : ℕ) : (Value.obj [(text "input", accents n)]).surplus = 5 * n := by
  have htext : surplusStr (text "text") = 0 := by decide
  have hinput : surplusStr (text "input") = 0 := by decide
  simp only [accents, Value.surplus, surplusMembers, surplusStr_accents, htext, hinput]
  omega

lemma run_accents {n : ℕ} (h : n + 21 ≤ 524288) :
    (runBuiltinDefinition defaultEngine noSteps (accents n)).2
      = .ok (.obj [(text "input", accents n)]) := by
  have hsize : checkResultSize defaultEngine [(text "input", accents n)] = .ok () := by
    refine bind_eq_ok.2 ⟨compact defaultEngine.floats false _, rfl, ?_⟩
    rw [length_compact_accents, if_neg (show ¬ defaultEngine.maxResultSize < n + 21 from by
      change ¬ 524288 < n + 21
      omega)]
    rfl
  exact bind_eq_ok.2 ⟨(), hsize, rfl⟩

theorem result_accepted_iff_accent :
    ∃ payload, dumpsPayload defaultEngine (.obj [(text "input", accents 1)]) = .ok payload ∧
      (WorkflowExecutionService.assertPayloadSize defaultSettings payload "output" = .ret ()
        ↔ (compact defaultEngine.floats false (.obj [(text "input", accents 1)])).length
            + (Value.obj [(text "input", accents 1)]).surplus ≤ defaultEngine.maxResultSize) ∧
      (defaultEngine.maxResultSize
          < (compact defaultEngine.floats false (.obj [(text "input", accents 1)])).length
            + (Value.obj [(text "input", accents 1)]).surplus →
        ∀ (adapter : Automation.Adapter) (executionId : ℕ) (started : Execution),
          adapter executionId started = .returned payload →
          ExecutionWorker.settle defaultSettings adapter executionId started = .ret none) :=
  result_accepted_iff defaultSettings noSteps (accents 1) _ rfl (run_accents (by norm_num))

/-- A result of 100021 characters, which the service counts as 600021 bytes. -/
theorem result_rejected_accents :
    ¬ ∀ (settings : Automation.Settings) (engine : Engine Unit) (definition : List (Str × Value Unit))
      (input result : Value Unit),
      settings.builtinMaxResultSizeBytes = engine.maxResultSize →
      (runBuiltinDefinition engine definition input).2 = .ok result →
      ∃ payload, dumpsPayload engine result = .ok payload ∧
        WorkflowExecutionService.assertPayloadSize settings payload "output" = .ret () := by
  intro h
  have hrun := run_accents (show 100000 + 21 ≤ 524288 by norm_num)
  obtain ⟨payload, hpayload, haccepted⟩ := h defaultSettings defaultEngine noSteps _ _ rfl hrun
  rw [(fits_of_run hrun).dumpsPayload] at hpayload
  obtain rfl := Except.ok.inj hpayload
  rw [assertPayloadSize_eq_ret_iff, utf8ByteSize_payload, length_compact_accents,
    surplus_accents] at haccepted
  have hlimit : defaultSettings.builtinMaxResultSizeBytes = 524288 := rfl
  omega

end Accents

end Builtin
