import AgencyOS.Builtin.Model

/-!
The guards that pass validation, against the table of operators in the documentation.

The validator demands a list as the value of `contains`, and the evaluator a string.

* `Reads`: the path, the operator and the value of a guard;
* `Applies`, `truth`: to which values an operator applies, and its truth value then;
* `reads_of_validateGuard`: a guard that passes has a path, an operator and a fitting value;
* `evaluateGuard_agrees_iff`: **the evaluator agrees with the table unless `contains` is asked of a text
  or a list.**
-/

namespace Builtin

open Python Python.Json

variable {F : Type}

/-! ### The documented operators -/

/-- The guard has the path, the operator and the value. -/
def Reads (guard : Value F) (path : Str) (op : Op) (expected : Value F) : Prop :=
  ∃ members, guard = .obj members ∧ members.lookup (text "path") = some (.str path)
    ∧ members.lookup (text "op") = some (.str (text op.name)) ∧ get members "value" = expected

def Value.isTextOrList : Value F → Bool
  | .str _ | .arr _ => true
  | _ => false

section Table

variable (real : F → Number)

/-- The comparisons apply to comparable values, `contains` to texts and lists. -/
def Applies (op : Op) (actual expected : Value F) : Prop :=
  match op with
  | .gt | .gte | .lt | .lte => (actual.compare real expected).isSome
  | .contains => Value.isTextOrList actual = true
  | _ => True

/-- Whether the value, or for a list any element of it, is in the list. -/
def among (actual expected : Value F) : Bool :=
  match actual, expected with
  | .arr items, .arr values => items.any fun item => member real item values
  | actual, .arr values => member real actual values
  | _, _ => false

/-- The truth value of an operator; what is missing makes it false. -/
def truth (op : Op) (actual : Option (Value F)) (expected : Value F) : Bool :=
  match op, actual with
  | .exists_, actual => actual.isSome
  | .missing, actual => actual.isNone
  | _, none => false
  | .eq, some a => a.eq real expected
  | .ne, some a => !a.eq real expected
  | .gt, some a => a.compare real expected = some .gt
  | .gte, some a => a.compare real expected = some .gt ∨ a.compare real expected = some .eq
  | .lt, some a => a.compare real expected = some .lt
  | .lte, some a => a.compare real expected = some .lt ∨ a.compare real expected = some .eq
  | .isIn, some a => among real a expected
  | .notIn, some a => !among real a expected
  | .contains, some a =>
      match a, expected with
      | .str s, .str t => t <:+: s
      | .arr items, expected => member real expected items
      | _, _ => false

/-- The evaluator gives the truth value wherever the operator applies. -/
def Agrees (context : List (Str × Value F)) (guard : Value F) : Prop :=
  ∀ path op expected actual, Reads guard path op expected → resolve context path = .ok actual →
    (∀ a, actual = some a → Applies real op a expected) →
      evaluateGuard real context guard = .ok (truth real op actual expected)

end Table

/-! ### Guards that pass -/

lemma op?_name (op : Op) : op? (text op.name) = some op := by
  cases op <;> decide +kernel

lemma op?_eq_some {name : Str} {op : Op} (h : op? name = some op) : name = text op.name := by
  have hname := List.find?_some h
  simpa using (of_decide_eq_true hname).symm

lemma resolveParts_ok {parts : List Str} (h : ∀ part ∈ parts, isKey part = true) (v : Value F) :
    ∃ actual, resolveParts parts v = .ok actual := by
  induction parts generalizing v with
  | nil => exact ⟨some v, rfl⟩
  | cons part parts ih =>
      rw [resolveParts.eq_def]
      simp only [h part List.mem_cons_self, if_true]
      split
      · split
        · exact ih (fun p hp => h p (List.mem_cons_of_mem part hp)) _
        · exact ⟨none, rfl⟩
      · exact ⟨none, rfl⟩

/-- A path that passes resolves, to a value or to nothing. -/
lemma resolve_of_validatePath {path : Value F} {place : Place}
    (h : validatePath path place = .ok ()) :
    ∃ p, path = .str p ∧ ∀ context : List (Str × Value F), ∃ actual, resolve context p = .ok actual := by
  cases path with
  | str p =>
      refine ⟨p, rfl, fun context => resolveParts_ok (fun part hpart => ?_) _⟩
      by_cases hempty : p = []
      · simp only [validatePath, if_pos hempty] at h
        cases h
      simp only [validatePath, if_neg hempty] at h
      cases hbad : badSegment? p with
      | some part =>
          rw [hbad] at h
          cases h
      | none => simpa using List.find?_eq_none.1 hbad part hpart
  | _ => cases h

lemma get_eq_str {members : List (Str × Value F)} {key : String} {s : Str}
    (h : get members key = .str s) : members.lookup (text key) = some (.str s) := by
  rw [get] at h
  cases hlookup : members.lookup (text key) with
  | none =>
      rw [hlookup] at h
      cases h
  | some v =>
      rw [hlookup] at h
      rw [show v = .str s from h]

/-- A guard that passes has a path that resolves, an operator, and a list for a collection operator. -/
theorem reads_of_validateGuard {guard : Value F} (h : validateGuard guard = .ok ()) :
    ∃ path op expected, Reads guard path op expected
      ∧ (op.isCollection = true → ∃ values, expected = .arr values)
      ∧ ∀ context : List (Str × Value F), ∃ actual, resolve context path = .ok actual := by
  cases guard with
  | obj members =>
      obtain ⟨⟨⟩, hpath, h⟩ := bind_eq_ok.1 h
      obtain ⟨path, hstr, hresolve⟩ := resolve_of_validatePath hpath
      cases hop : get members "op" with
      | str name =>
          simp only [hop] at h
          cases hfind : op? name with
          | none =>
              simp only [hfind] at h
              cases h
          | some op =>
              simp only [hfind] at h
              obtain rfl := op?_eq_some hfind
              refine ⟨path, op, get members "value",
                ⟨members, rfl, get_eq_str hstr, get_eq_str hop, rfl⟩, fun hcollection => ?_, hresolve⟩
              rw [hcollection] at h
              cases hvalue : get members "value" with
              | arr values => exact ⟨values, rfl⟩
              | _ =>
                  simp only [hvalue] at h
                  cases h
      | _ =>
          simp only [hop] at h
          cases h
  | _ => cases h

lemma Reads.unique {guard : Value F} {path path' : Str} {op op' : Op} {expected expected' : Value F}
    (h : Reads guard path op expected) (h' : Reads guard path' op' expected') :
    path = path' ∧ op = op' ∧ expected = expected' := by
  obtain ⟨members, rfl, hpath, hop, rfl⟩ := h
  obtain ⟨members', heq, hpath', hop', rfl⟩ := h'
  obtain rfl := Value.obj.inj heq
  have hname := Value.str.inj (Option.some.inj (hop.symm.trans hop'))
  have hsome := op?_name op
  rw [hname, op?_name] at hsome
  exact ⟨Value.str.inj (Option.some.inj (hpath.symm.trans hpath')), (Option.some.inj hsome).symm, rfl⟩

/-! ### The evaluator -/

section Evaluator

variable {real : F → Number} {context : List (Str × Value F)} {guard : Value F} {path : Str} {op : Op}
  {expected : Value F}

lemma anyInside_arr (values items : List (Value F)) :
    anyInside real (.arr values) items = .ok (items.any fun item => member real item values) := by
  induction items with
  | nil => rfl
  | cons item items ih =>
      rw [List.any_cons, anyInside]
      cases hmember : member real item values with
      | true => simp [isInside, hmember, bind, Except.bind, pure, Except.pure]
      | false => simp [isInside, hmember, bind, Except.bind, ih]

lemma found_arr (actual : Value F) (values : List (Value F)) :
    operate.found real actual (.arr values) = .ok (among real actual (.arr values)) := by
  cases actual with
  | arr items => exact anyInside_arr values items
  | _ => rfl

/-- What the evaluator does with the parts of a guard. -/
lemma evaluateGuard_of_reads {actual : Option (Value F)} (h : Reads guard path op expected)
    (hresolve : resolve context path = .ok actual) :
    evaluateGuard real context guard =
      match op, actual with
      | .exists_, actual => .ok actual.isSome
      | .missing, actual => .ok actual.isNone
      | _, none => .ok false
      | op, some a => operate real path op a expected := by
  obtain ⟨members, rfl, hpath, hop, rfl⟩ := h
  simp only [evaluateGuard, item, hpath, hop, hresolve, op?_name, bind, Except.bind, pure, Except.pure]
  cases op <;> cases actual <;> rfl

/-- Where the operator is not `contains`, the evaluator agrees with the table. -/
lemma operate_eq_truth {a : Value F} (hop : op ≠ .contains)
    (hlist : op.isCollection = true → ∃ values, expected = .arr values)
    (happlies : Applies real op a expected) :
    operate real path op a expected = .ok (truth real op (some a) expected) := by
  have hordered : ∀ (test : Ordering → Bool), (a.compare real expected).isSome →
      ∃ o, a.compare real expected = some o ∧ ordered real path a expected test = .ok (test o) := by
    intro test hsome
    obtain ⟨o, ho⟩ := Option.isSome_iff_exists.1 hsome
    exact ⟨o, ho, by rw [ordered, ho]⟩
  cases op with
  | eq => rfl
  | ne => rfl
  | exists_ => rfl
  | missing => rfl
  | contains => exact absurd rfl hop
  | isIn =>
      obtain ⟨values, rfl⟩ := hlist rfl
      exact found_arr a values
  | notIn =>
      obtain ⟨values, rfl⟩ := hlist rfl
      rw [operate, found_arr]
      rfl
  | gt =>
      obtain ⟨o, ho, heq⟩ := hordered Ordering.isGT happlies
      rw [operate, heq, truth, ho]
      cases o <;> rfl
  | gte =>
      obtain ⟨o, ho, heq⟩ := hordered Ordering.isGE happlies
      rw [operate, heq, truth, ho]
      cases o <;> rfl
  | lt =>
      obtain ⟨o, ho, heq⟩ := hordered Ordering.isLT happlies
      rw [operate, heq, truth, ho]
      cases o <;> rfl
  | lte =>
      obtain ⟨o, ho, heq⟩ := hordered Ordering.isLE happlies
      rw [operate, heq, truth, ho]
      cases o <;> rfl

/-- A list is nothing that `contains` takes. -/
lemma operate_contains_arr (a : Value F) (values : List (Value F)) :
    operate real path .contains a (.arr values) = fault (.notContains path) := by
  cases a <;> rfl

/-- **A guard that passes is evaluated as documented**, with the path missing or not, unless it asks a
text or a list what it `contains`. -/
theorem evaluateGuard_agrees_iff (hvalid : validateGuard guard = .ok ()) :
    (∃ path op expected actual, Reads guard path op expected ∧ resolve context path = .ok actual)
      ∧ (Agrees real context guard ↔
        ∀ path expected a, Reads guard path .contains expected → resolve context path = .ok (some a) →
          Value.isTextOrList a = false) := by
  obtain ⟨path, op, expected, hreads, hlist, hresolve⟩ := reads_of_validateGuard hvalid
  refine ⟨?_, fun hagrees path' expected' a hreads' hactual => ?_, fun hnot => ?_⟩
  · obtain ⟨actual, hactual⟩ := hresolve context
    exact ⟨path, op, expected, actual, hreads, hactual⟩
  · -- the value of a guard that passes is a list, so `contains` always raises
    obtain ⟨rfl, rfl, rfl⟩ := hreads.unique hreads'
    obtain ⟨values, rfl⟩ := hlist rfl
    by_contra happlies
    rw [Bool.not_eq_false] at happlies
    have heval := hagrees path .contains (.arr values) (some a) hreads hactual
      fun b hb => (Option.some.inj hb) ▸ happlies
    rw [evaluateGuard_of_reads hreads hactual] at heval
    have hraise := (operate_contains_arr a values).symm.trans heval
    cases hraise
  · intro path' op' expected' actual hreads' hactual happlies
    obtain ⟨rfl, rfl, rfl⟩ := hreads.unique hreads'
    rw [evaluateGuard_of_reads hreads hactual]
    cases actual with
    | none => cases op <;> rfl
    | some a =>
        by_cases hcontains : op = .contains
        · subst hcontains
          have hother := hnot path expected a hreads hactual
          have happly : Value.isTextOrList a = true := happlies a rfl
          rw [hother] at happly
          cases happly
        · have heval : operate real path op a expected = .ok (truth real op (some a) expected) :=
            operate_eq_truth hcontains hlist (happlies a rfl)
          cases op <;> exact heval

end Evaluator

/-- `{"path": "input", "op": op, "value": value}`. -/
def inputGuard (op : Op) (value : Value ℚ) : Value ℚ :=
  .obj [(text "path", .str (text "input")), (text "op", .str (text op.name)), (text "value", value)]

lemma reads_inputGuard (op : Op) (value : Value ℚ) :
    Reads (inputGuard op value) (text "input") op value := by
  refine ⟨_, rfl, ?_, ?_, ?_⟩
  · rfl
  · rfl
  · rfl

theorem evaluateGuard_agrees_iff_gte :
    Agrees Number.ofRat [(text "input", .int 60)] (inputGuard .gte (.int 50)) :=
  (evaluateGuard_agrees_iff rfl).2.2 fun _ _ _ hreads _ => by
    obtain ⟨-, hop, -⟩ := hreads.unique (reads_inputGuard .gte (.int 50))
    cases hop

/-- A list that passes as the value of `contains`. -/
theorem evaluateGuard_contains_list : validateGuard (inputGuard .contains (.arr [.str (text "vip")])) = .ok ()
    ∧ ¬ Agrees Number.ofRat [(text "input", .arr [.str (text "vip")])]
      (inputGuard .contains (.arr [.str (text "vip")])) := by
  refine ⟨rfl, fun hagrees => ?_⟩
  have heval := hagrees (text "input") .contains _ (some (.arr [.str (text "vip")]))
    (reads_inputGuard .contains _) rfl (fun a ha => (Option.some.inj ha) ▸ rfl)
  have hraise : evaluateGuard Number.ofRat [(text "input", .arr [.str (text "vip")])]
      (inputGuard .contains (.arr [.str (text "vip")])) = fault (.notContains (text "input")) := rfl
  rw [hraise] at heval
  cases heval

end Builtin
