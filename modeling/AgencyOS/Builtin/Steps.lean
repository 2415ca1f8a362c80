import AgencyOS.Builtin.Validator

/-!
A step that has passed validation, when it is run.

Values are copied and dumped within the limits of Python, and placeholders and guards are read when
they are reached.

* `BuiltinError.IsRuntime`, `Orderly`: what may be raised for a definition that was accepted;
* `groups`, `Breaks`, `orderly_renderTemplate`: the placeholders of a template;
* `AsksContains`, `orderly_evaluateGuard`: the guards;
* `Copied`: contexts whose values can be copied;
* `Stumbles`, `orderly_newValue`, `runCopy_cases`, `orderly_runErrorIf`, `selectBranch_cases`: each type
  of step is in order unless it stumbles.
-/

namespace Builtin

open Python Python.Json

variable {F : Type}

/-! ### Errors of run time -/

/-- What may be raised for a definition that was accepted: a limit that the validator does not check, a
value that is missing or not comparable, an output that was not produced, or a raise of the definition
itself. -/
def BuiltinError.IsRuntime : BuiltinError F → Prop
  | .stepLimit _ | .templateLength _ | .templatePath _ | .notComparable _ | .copySource _ | .raised _
  | .resultSize _ | .outputKey _ | .emptyKey .outputKey => True
  | _ => False

/-- It returns, or raises an error of run time. -/
def Orderly {α : Type} (r : Except (Exn F) α) : Prop :=
  ∀ e, r = .error e → ∃ b : BuiltinError F, e = .builtin b ∧ b.IsRuntime

section Orderly

variable {α β : Type} {x : Except (Exn F) α} {f : α → Except (Exn F) β}

lemma orderly_ok (a : α) : Orderly (.ok a : Except (Exn F) α) := nofun

lemma orderly_fault_iff {e : BuiltinError F} : Orderly (fault e : Except (Exn F) α) ↔ e.IsRuntime := by
  constructor
  · intro h
    obtain ⟨b, hb, hruntime⟩ := h _ rfl
    obtain rfl := Exn.builtin.inj hb
    exact hruntime
  · rintro h e' he
    exact ⟨e, (Except.error.inj he).symm, h⟩

lemma orderly_bind : Orderly (x >>= f) ↔ Orderly x ∧ ∀ a, x = .ok a → Orderly (f a) := by
  cases x with
  | error e =>
      constructor
      · intro h
        exact ⟨fun e' he => h e' (congrArg _ (Except.error.inj he)), fun a ha => nomatch ha⟩
      · rintro ⟨h, -⟩ e' he
        exact h e' (congrArg _ (Except.error.inj he))
  | ok a =>
      constructor
      · intro h
        refine ⟨orderly_ok a, fun a' ha => ?_⟩
        obtain rfl := Except.ok.inj ha
        exact h
      · rintro ⟨-, h⟩
        exact h a rfl

lemma not_orderly_ofFailure (e : Failure) : ¬ Orderly (.error (.ofFailure e) : Except (Exn F) α) := by
  intro h
  obtain ⟨b, hb, -⟩ := h _ rfl
  cases e <;> cases hb

end Orderly

section Steps

variable {eng : Engine F} {context : List (Str × Value F)}

/-! ### Copies and dumps -/

lemma orderly_deepcopy {value : Value F} :
    Orderly (deepcopy eng value) ↔ value.check eng.copyLimits = .ok () := by
  rw [deepcopy]
  cases hcheck : value.check eng.copyLimits with
  | ok u => exact iff_of_true (orderly_ok value) rfl
  | error e => exact iff_of_false (not_orderly_ofFailure e) nofun

lemma deepcopy_eq_ok {value copied : Value F} (h : deepcopy eng value = .ok copied) :
    copied = value ∧ value.check eng.copyLimits = .ok () := by
  rw [deepcopy] at h
  cases hcheck : value.check eng.copyLimits with
  | ok u =>
      rw [hcheck] at h
      exact ⟨(Except.ok.inj h).symm, rfl⟩
  | error e =>
      rw [hcheck] at h
      cases h

/-- A list or an object. -/
def IsContainer : Value F → Prop
  | .arr _ | .obj _ => True
  | _ => False

lemma orderly_dumpsPlain {value : Value F} :
    Orderly (dumpsPlain eng value) ↔ value.check eng.dumpLimits = .ok () := by
  rw [dumpsPlain]
  cases hcheck : value.check eng.dumpLimits with
  | ok u => exact iff_of_true (orderly_ok _) rfl
  | error e => exact iff_of_false (not_orderly_ofFailure e) (by simp)

variable (eng) in
lemma orderly_stringify (value : Value F) :
    Orderly (stringify eng value) ↔ (IsContainer value → value.check eng.dumpLimits = .ok ()) := by
  cases value with
  | arr items => exact orderly_dumpsPlain.trans ⟨fun h _ => h, fun h => h trivial⟩
  | obj members => exact orderly_dumpsPlain.trans ⟨fun h _ => h, fun h => h trivial⟩
  | _ => exact iff_of_true (orderly_ok _) fun h => h.elim

/-! ### Templates -/

/-- The group of a placeholder at the start of a text, and what follows it. -/
def placeholder? : Str → Option (Str × Str)
  | 0x7b :: 0x7b :: rest => scanTemplate rest
  | _ => none

/-- The groups of a template. -/
def groups : ℕ → Str → List Str
  | 0, _ => []
  | _ + 1, [] => []
  | fuel + 1, c :: cs =>
      match placeholder? (c :: cs) with
      | some (group, rest) => group :: groups fuel rest
      | none => groups fuel cs

lemma substitute_cons (replace : Str → Except (Exn F) Str) (fuel c : ℕ) (cs : Str) :
    substitute replace (fuel + 1) (c :: cs) = match placeholder? (c :: cs) with
      | some (group, rest) => do
          let replaced ← replace group
          return replaced ++ (← substitute replace fuel rest)
      | none => do return c :: (← substitute replace fuel cs) := by
  rw [substitute.eq_def]
  dsimp only
  split
  · rfl
  · rename_i hother
    have hnone : placeholder? (c :: cs) = none := by
      rw [placeholder?.eq_def]
      split
      · rename_i rest heq
        obtain ⟨hc, hcs⟩ := List.cons.inj heq
        exact (hother rest hc hcs).elim
      · rfl
    rw [hnone]

/-- The replacement of the texts comes to one of them: those before it are replaced. -/
def Replaces (replace : Str → Except (Exn F) Str) (texts : List Str) (t : Str) : Prop :=
  ∃ before after, texts = before ++ t :: after ∧ ∀ t' ∈ before, ∃ r, replace t' = .ok r

lemma replaces_cons {replace : Str → Except (Exn F) Str} {t t' : Str} {texts : List Str} :
    Replaces replace (t' :: texts) t ↔ t = t' ∨ ((∃ r, replace t' = .ok r) ∧ Replaces replace texts t) := by
  constructor
  · rintro ⟨before, after, heq, hbefore⟩
    cases before with
    | nil => exact Or.inl (List.cons.inj heq).1.symm
    | cons b before =>
        obtain ⟨rfl, rfl⟩ := List.cons.inj heq
        exact Or.inr ⟨hbefore _ List.mem_cons_self, before, after, rfl,
          fun x hx => hbefore x (List.mem_cons_of_mem _ hx)⟩
  · rintro (rfl | ⟨hr, before, after, rfl, hbefore⟩)
    · exact ⟨[], texts, rfl, fun x hx => absurd hx List.not_mem_nil⟩
    · refine ⟨t' :: before, after, rfl, fun x hx => ?_⟩
      rcases List.mem_cons.1 hx with rfl | hx
      · exact hr
      · exact hbefore x hx

/-- A template is rendered in order when each group that the rendering comes to is. -/
lemma orderly_substitute (replace : Str → Except (Exn F) Str) (fuel : ℕ) (s : Str) :
    Orderly (substitute replace fuel s)
      ↔ ∀ group, Replaces replace (groups fuel s) group → Orderly (replace group) := by
  have hnone : ∀ group, ¬ Replaces replace [] group := by
    rintro group ⟨before, after, heq, -⟩
    cases before <;> cases heq
  induction fuel generalizing s with
  | zero => exact iff_of_true (orderly_ok s) fun group h => absurd h (hnone group)
  | succ fuel ih =>
      cases s with
      | nil => exact iff_of_true (orderly_ok []) fun group h => absurd h (hnone group)
      | cons c cs =>
          rw [substitute_cons, groups]
          cases placeholder? (c :: cs) with
          | none =>
              have hrest := ih cs
              exact (orderly_bind.trans (and_iff_left fun a _ => orderly_ok _)).trans hrest
          | some found =>
              obtain ⟨group, rest⟩ := found
              have hrest : ∀ replaced, Orderly (do return replaced ++ (← substitute replace fuel rest) :
                  Except (Exn F) Str)
                  ↔ ∀ g, Replaces replace (groups fuel rest) g → Orderly (replace g) :=
                fun replaced => (orderly_bind.trans (and_iff_left fun a _ => orderly_ok _)).trans (ih rest)
              dsimp only
              rw [orderly_bind]
              simp only [hrest, replaces_cons]
              constructor
              · rintro ⟨hgroup, hok⟩ g (rfl | ⟨⟨r, hr⟩, hg⟩)
                · exact hgroup
                · exact hok r hr g hg
              · exact fun h => ⟨h group (Or.inl rfl), fun r hr g hg => h g (Or.inr ⟨⟨r, hr⟩, hg⟩)⟩

/-- The path of a placeholder. -/
def placeholderPath (group : Str) : Str :=
  match partitionDefault (stripPoints group) with
  | some (path, _) => stripPoints path
  | none => stripPoints group

/-- The placeholder has an invalid path, or its value is nested too deeply for `json.dumps`. -/
def Breaks (eng : Engine F) (context : List (Str × Value F)) (group : Str) : Prop :=
  (∃ part, resolve context (placeholderPath group) = fault (.resolveSegment part))
    ∨ ∃ value, resolve context (placeholderPath group) = .ok (some value) ∧ IsContainer value
      ∧ value.check eng.dumpLimits ≠ .ok ()

lemma resolveParts_error {parts : List Str} {value : Value F} {e : Exn F}
    (h : resolveParts parts value = .error e) : ∃ part, e = .builtin (.resolveSegment part) := by
  induction parts generalizing value with
  | nil => cases h
  | cons part parts ih =>
      rw [resolveParts.eq_def] at h
      dsimp only at h
      by_cases hkey : isKey part = true
      · rw [if_pos hkey] at h
        split at h
        · split at h
          · exact ih h
          · cases h
        · cases h
      · rw [if_neg hkey] at h
        exact ⟨part, (Except.error.inj h).symm⟩

/-- A placeholder stands for the value at its path, or for its default. -/
lemma expand_eq (group : Str) : ∃ default, expand eng context group = (do
    match ← resolve context (placeholderPath group) with
    | some value => stringify eng value
    | none => if default = [] then fault (.templatePath (placeholderPath group)) else return default) := by
  rw [expand, placeholderPath]
  cases partitionDefault (stripPoints group) with
  | none => exact ⟨[], rfl⟩
  | some found => exact ⟨stripPoints found.2, rfl⟩

lemma orderly_expand {group : Str} : Orderly (expand eng context group) ↔ ¬ Breaks eng context group := by
  obtain ⟨default, heq⟩ := @expand_eq _ eng context group
  rw [heq, Breaks]
  cases hresolve : resolve context (placeholderPath group) with
  | error e =>
      obtain ⟨part, rfl⟩ := resolveParts_error hresolve
      refine iff_of_false ?_ fun h => h (Or.inl ⟨part, rfl⟩)
      exact orderly_fault_iff.not.2 id
  | ok actual =>
      cases actual with
      | none =>
          refine iff_of_true ?_ ?_
          · show Orderly (if default = [] then _ else _)
            split_ifs
            · exact orderly_fault_iff.2 trivial
            · exact orderly_ok default
          · rintro (⟨part, hpart⟩ | ⟨value, hvalue, -⟩)
            · cases hpart
            · cases hvalue
      | some value =>
          refine (orderly_stringify eng value).trans ⟨?_, ?_⟩
          · rintro h (⟨part, hpart⟩ | ⟨value', hvalue, hcontainer, hdeep⟩)
            · cases hpart
            · obtain rfl := Option.some.inj (Except.ok.inj hvalue)
              exact hdeep (h hcontainer)
          · intro h hcontainer
            by_contra hdeep
            exact h (Or.inr ⟨value, rfl, hcontainer, hdeep⟩)

/-- A template is rendered in order unless the rendering comes to a placeholder that breaks it. -/
lemma orderly_renderTemplate {s : Str} (h : hasTemplate s = true) :
    Orderly (renderTemplate eng context s) ↔ (s.length ≤ eng.maxTemplateLength →
      ∀ group, Replaces (expand eng context) (groups s.length s) group → ¬ Breaks eng context group) := by
  rw [renderTemplate, if_pos h]
  by_cases hlength : s.length > eng.maxTemplateLength
  · rw [if_pos hlength]
    exact iff_of_true (orderly_fault_iff.2 trivial) fun hle => absurd hlength (not_lt.2 hle)
  · rw [if_neg hlength, orderly_substitute]
    simp only [orderly_expand]
    exact ⟨fun h _ => h, fun h => h (not_lt.1 hlength)⟩

/-! ### Guards -/

/-- The guard asks a value that is there what it contains. -/
def AsksContains (context : List (Str × Value F)) (guard : Value F) : Prop :=
  ∃ path expected a, Reads guard path .contains expected ∧ resolve context path = .ok (some a)

variable (eng) in
lemma orderly_operate (path : Str) {op : Op} (a : Value F) {expected : Value F}
    (hlist : op.isCollection = true → ∃ values, expected = .arr values) :
    Orderly (operate eng.real path op a expected) ↔ op ≠ .contains := by
  have hordered : ∀ test, Orderly (ordered eng.real path a expected test) := by
    intro test
    rw [ordered]
    split
    · exact orderly_ok _
    · exact orderly_fault_iff.2 trivial
  cases op with
  | eq => exact iff_of_true (orderly_ok _) (by simp)
  | ne => exact iff_of_true (orderly_ok _) (by simp)
  | exists_ => exact iff_of_true (orderly_ok _) (by simp)
  | missing => exact iff_of_true (orderly_ok _) (by simp)
  | gt => exact iff_of_true (hordered _) (by simp)
  | gte => exact iff_of_true (hordered _) (by simp)
  | lt => exact iff_of_true (hordered _) (by simp)
  | lte => exact iff_of_true (hordered _) (by simp)
  | isIn =>
      obtain ⟨values, rfl⟩ := hlist rfl
      refine iff_of_true ?_ (by simp)
      rw [operate, found_arr]
      exact orderly_ok _
  | notIn =>
      obtain ⟨values, rfl⟩ := hlist rfl
      refine iff_of_true ?_ (by simp)
      rw [operate, found_arr]
      exact orderly_ok _
  | contains =>
      obtain ⟨values, rfl⟩ := hlist rfl
      rw [operate_contains_arr]
      exact iff_of_false (orderly_fault_iff.not.2 id) fun h => h rfl

variable (eng context) in
/-- A guard that passes is evaluated in order unless it asks what a value contains. -/
lemma orderly_evaluateGuard {guard : Value F} (hvalid : validateGuard guard = .ok ()) :
    Orderly (evaluateGuard eng.real context guard) ↔ ¬ AsksContains context guard := by
  obtain ⟨path, op, expected, hreads, hlist, hresolve⟩ := reads_of_validateGuard hvalid
  obtain ⟨actual, hactual⟩ := hresolve context
  have hasks : AsksContains context guard ↔ op = .contains ∧ ∃ a, actual = some a := by
    constructor
    · rintro ⟨path', expected', a, hreads', ha⟩
      obtain ⟨rfl, hop, rfl⟩ := hreads.unique hreads'
      exact ⟨hop, a, Except.ok.inj (hactual.symm.trans ha)⟩
    · rintro ⟨rfl, a, rfl⟩
      exact ⟨path, expected, a, hreads, hactual⟩
  rw [hasks, evaluateGuard_of_reads hreads hactual]
  cases actual with
  | none =>
      refine iff_of_true ?_ (by rintro ⟨-, a, ha⟩; cases ha)
      cases op <;> exact orderly_ok _
  | some a =>
      have hoperate := orderly_operate eng path a hlist
      have hgoal : Orderly (operate eng.real path op a expected)
          ↔ ¬ (op = .contains ∧ ∃ b, some a = some b) := by
        rw [hoperate]
        exact ⟨fun h hc => h hc.1, fun h hop => h ⟨hop, a, rfl⟩⟩
      cases op <;> exact hgoal

/-! ### The context -/

/-- The values of the context can be copied. -/
def Copied (eng : Engine F) (context : List (Str × Value F)) : Prop :=
  ∀ m ∈ context, m.2.check eng.copyLimits = .ok ()

lemma Copied.assign {key : Str} {value : Value F} (h : Copied eng context)
    (hvalue : value.check eng.copyLimits = .ok ()) {context' : List (Str × Value F)}
    (hassign : assign context (.str key) value = .ok context') : Copied eng context' := by
  rw [Builtin.assign] at hassign
  split_ifs at hassign
  · obtain rfl := Except.ok.inj hassign
    intro m hm
    obtain ⟨m', hm', rfl⟩ := List.mem_map.1 hm
    by_cases hkey : m'.1 = key
    · rw [if_pos hkey]
      exact hvalue
    · rw [if_neg hkey]
      exact h m' hm'
  · obtain rfl := Except.ok.inj hassign
    intro m hm
    rcases List.mem_append.1 hm with hm | hm
    · exact h m hm
    · obtain rfl := List.mem_singleton.1 hm
      exact hvalue

lemma assign_str (context : List (Str × Value F)) (key : Str) (value : Value F) :
    ∃ context', assign context (.str key) value = .ok context' := by
  rw [assign]
  split_ifs
  · exact ⟨_, rfl⟩
  · exact ⟨_, rfl⟩

lemma digits_of_enter {l l' : Limits} (h : l.enter = .ok l') : l'.digits = l.digits := by
  unfold Limits.enter at h
  split at h
  · rw [← Except.ok.inj h]
  · cases h
  · rw [← Except.ok.inj h]

mutual

/-- What is within the limits inside a container is within those outside. -/
lemma check_of_enter {l l' : Limits} (henter : l.enter = .ok l') :
    ∀ value : Value F, value.check l' = .ok () → value.check l = .ok ()
  | .null, _ | .bool _, _ | .float _, _ | .str _, _ => rfl
  | .int n, h => by
      rw [Value.check, Limits.checkDigits, Limits.allows, digits_of_enter henter] at h
      rw [Value.check, Limits.checkDigits, Limits.allows]
      exact h
  | .arr items, h => by
      obtain ⟨l'', henter', hitems⟩ := bind_eq_ok.1 h
      exact bind_eq_ok.2 ⟨l', henter, checkItems_of_enter henter' items hitems⟩
  | .obj members, h => by
      obtain ⟨l'', henter', hmembers⟩ := bind_eq_ok.1 h
      exact bind_eq_ok.2 ⟨l', henter, checkMembers_of_enter henter' members hmembers⟩

lemma checkItems_of_enter {l l' : Limits} (henter : l.enter = .ok l') :
    ∀ items : List (Value F), checkItems l' items = .ok () → checkItems l items = .ok ()
  | [], _ => rfl
  | value :: items, h => by
      obtain ⟨u, hvalue, hitems⟩ := bind_eq_ok.1 h
      exact bind_eq_ok.2 ⟨u, check_of_enter henter value hvalue, checkItems_of_enter henter items hitems⟩

lemma checkMembers_of_enter {l l' : Limits} (henter : l.enter = .ok l') :
    ∀ members : List (Str × Value F), checkMembers l' members = .ok () → checkMembers l members = .ok ()
  | [], _ => rfl
  | (key, value) :: members, h => by
      obtain ⟨u, hvalue, hmembers⟩ := bind_eq_ok.1 h
      exact bind_eq_ok.2
        ⟨u, check_of_enter henter value hvalue, checkMembers_of_enter henter members hmembers⟩

end

/-- What a path leads to is within the limits of the value it starts from. -/
lemma check_resolveParts {l : Limits} {parts : List Str} {value found : Value F}
    (hvalue : value.check l = .ok ()) (h : resolveParts parts value = .ok (some found)) :
    found.check l = .ok () := by
  induction parts generalizing value with
  | nil =>
      obtain rfl := Option.some.inj (Except.ok.inj h)
      exact hvalue
  | cons part parts ih =>
      rw [resolveParts.eq_def] at h
      dsimp only at h
      split_ifs at h
      · split at h
        · rename_i members
          split at h
          · rename_i v hlookup
            obtain ⟨l', henter, hmembers⟩ := bind_eq_ok.1 hvalue
            exact ih (check_of_enter henter v (check_lookup hmembers hlookup)) h
          · cases h
        · cases h
      · cases h

/-- What a path leads to in a copied context can be copied. -/
lemma Copied.resolve (h : Copied eng context) {path : Str} {found : Value F}
    (hfound : resolve context path = .ok (some found)) : found.check eng.copyLimits = .ok () := by
  rw [Builtin.resolve] at hfound
  have hparts : segments path ≠ [] := List.splitOn_ne_nil _ _
  obtain ⟨part, parts, heq⟩ := List.exists_cons_of_ne_nil hparts
  rw [heq, resolveParts.eq_def] at hfound
  dsimp only at hfound
  split_ifs at hfound
  · split at hfound
    · rename_i v hlookup
      obtain ⟨before, after, hcontext, -⟩ := List.lookup_eq_some_iff.1 hlookup
      exact check_resolveParts (h (part, v) (by rw [hcontext]; simp)) hfound
    · cases hfound
  · cases hfound

/-! ### One step -/

/-- A step is stumbled over in a context: a value nested too deeply is copied or dumped, a placeholder
has an invalid path, `contains` is asked, or there is no branch to go on with. -/
inductive Stumbles (eng : Engine F) (context : List (Str × Value F)) : Value F → Prop
  | deep {members : List (Str × Value F)} {value : Value F} (htype : Typed members "set")
      (hvalue : members.lookup (text "value") = some value)
      (hplain : ∀ s, value = .str s → hasTemplate s = false)
      (hdeep : value.check eng.copyLimits ≠ .ok ()) : Stumbles eng context (.obj members)
  | placeholder {members : List (Str × Value F)} {s group : Str} (htype : Typed members "set")
      (hvalue : members.lookup (text "value") = some (.str s)) (htemplate : hasTemplate s = true)
      (hlength : s.length ≤ eng.maxTemplateLength)
      (hgroup : Replaces (expand eng context) (groups s.length s) group)
      (hbreaks : Breaks eng context group) : Stumbles eng context (.obj members)
  | contains {members : List (Str × Value F)} {guard : Value F}
      (htype : Typed members "condition" ∨ Typed members "error_if")
      (hif : members.lookup (text "if") = some guard) (hasks : AsksContains context guard) :
      Stumbles eng context (.obj members)
  | noThen {members : List (Str × Value F)} {guard : Value F} (htype : Typed members "condition")
      (hif : members.lookup (text "if") = some guard)
      (hguard : evaluateGuard eng.real context guard = .ok true)
      (hthen : members.lookup (text "then") = none) : Stumbles eng context (.obj members)

variable {members : List (Str × Value F)}

lemma item_obj {key : String} {value : Value F} (h : members.lookup (text key) = some value) :
    item (.obj members) key = .ok value := by
  rw [item, h]

/-- A step has one type. -/
lemma Typed.unique {type type' : String} (h : Typed members type) (h' : Typed members type') :
    text type = text type' := Value.str.inj (Option.some.inj (h.symm.trans h'))

lemma not_typed {type type' : String} (h : Typed members type) (hne : text type ≠ text type') :
    ¬ Typed members type' := fun h' => hne (h.unique h')

/-- The value that a `set` step assigns. -/
def newValue (eng : Engine F) (context : List (Str × Value F)) (value : Value F) :
    Except (Exn F) (Value F) :=
  match value with
  | .str s => if hasTemplate s then Value.str <$> renderTemplate eng context s else deepcopy eng value
  | value => deepcopy eng value

lemma newValue_template {s : Str} (h : hasTemplate s = true) :
    newValue eng context (.str s) = Value.str <$> renderTemplate eng context s := if_pos h

lemma newValue_plain {value : Value F} (h : ∀ s, value = .str s → hasTemplate s = false) :
    newValue eng context value = deepcopy eng value := by
  rw [newValue.eq_def]
  split
  · rename_i s
    exact if_neg (by rw [h s rfl]; nofun)
  · rfl

lemma runSet_eq {key : Str} {value : Value F}
    (hkey : members.lookup (text "key") = some (.str key))
    (hvalue : members.lookup (text "value") = some value) :
    runSet eng context (.obj members)
      = (newValue eng context value >>= fun value => assign context (.str key) value) := by
  rw [runSet, item_obj hvalue, item_obj hkey]
  cases value with
  | str s =>
      show (if hasTemplate s = true then _ else _ : Except (Exn F) (List (Str × Value F))) = _
      by_cases hs : hasTemplate s = true
      · rw [if_pos hs, newValue_template hs]
        rfl
      · rw [if_neg hs, newValue_plain fun t ht => by
          rw [← Value.str.inj ht]
          exact Bool.eq_false_iff.2 hs]
        rfl
  | _ => rfl

variable (eng context) in
/-- The value of a `set` step that passes is copied or rendered in order unless the step stumbles. -/
lemma orderly_newValue {value : Value F} (htype : Typed members "set")
    (hvalue : members.lookup (text "value") = some value) :
    Orderly (newValue eng context value) ↔ ¬ Stumbles eng context (.obj members) := by
  have hother : ∀ type, type = "condition" ∨ type = "error_if" → ¬ Typed members type := by
    rintro type (rfl | rfl)
    · exact not_typed htype (by decide)
    · exact not_typed htype (by decide)
  by_cases htemplate : ∃ s, value = .str s ∧ hasTemplate s = true
  · obtain ⟨s, rfl, hs⟩ := htemplate
    have hmap : Orderly ((Value.str : Str → Value F) <$> renderTemplate eng context s)
        ↔ Orderly (renderTemplate eng context s) := by
      rw [map_eq_pure_bind, orderly_bind]
      exact and_iff_left fun _ _ => orderly_ok _
    rw [newValue_template hs, hmap, orderly_renderTemplate hs]
    constructor
    · intro h hstumbles
      cases hstumbles with
      | deep _ hvalue' hplain _ =>
          rw [hplain s (Option.some.inj (hvalue'.symm.trans hvalue))] at hs
          cases hs
      | placeholder _ hvalue' _ hlength hgroup hbreaks =>
          obtain rfl := Value.str.inj (Option.some.inj (hvalue'.symm.trans hvalue))
          exact h hlength _ hgroup hbreaks
      | contains h' _ _ => exact h'.elim (hother _ (Or.inl rfl)) (hother _ (Or.inr rfl))
      | noThen h' _ _ _ => exact hother _ (Or.inl rfl) h'
    · intro h hlength group hgroup hbreaks
      exact h (.placeholder htype hvalue hs hlength hgroup hbreaks)
  · have hplain : ∀ s, value = .str s → hasTemplate s = false := by
      intro s hs
      by_contra hsome
      exact htemplate ⟨s, hs, by simpa using hsome⟩
    rw [newValue_plain hplain, orderly_deepcopy]
    constructor
    · intro h hstumbles
      cases hstumbles with
      | deep _ hvalue' _ hdeep =>
          obtain rfl := Option.some.inj (hvalue'.symm.trans hvalue)
          exact hdeep h
      | placeholder _ hvalue' hs _ _ _ =>
          exact htemplate ⟨_, Option.some.inj (hvalue.symm.trans hvalue'), hs⟩
      | contains h' _ _ => exact h'.elim (hother _ (Or.inl rfl)) (hother _ (Or.inr rfl))
      | noThen h' _ _ _ => exact hother _ (Or.inl rfl) h'
    · intro h
      by_contra hdeep
      exact h (.deep htype hvalue hplain hdeep)

lemma check_newValue {value v : Value F} (h : newValue eng context value = .ok v) :
    v.check eng.copyLimits = .ok () := by
  by_cases htemplate : ∃ s, value = .str s ∧ hasTemplate s = true
  · obtain ⟨s, rfl, hs⟩ := htemplate
    rw [newValue_template hs, map_eq_pure_bind] at h
    obtain ⟨t, -, ht⟩ := bind_eq_ok.1 h
    rw [← Except.ok.inj ht]
    rfl
  · have hplain : ∀ s, value = .str s → hasTemplate s = false := by
      intro s hs
      by_contra hsome
      exact htemplate ⟨s, hs, by simpa using hsome⟩
    rw [newValue_plain hplain] at h
    obtain ⟨rfl, hcheck⟩ := deepcopy_eq_ok h
    exact hcheck

/-- A `copy` step is in order, and what it copies can be copied. -/
lemma runCopy_cases {path target : Str} (hcopied : Copied eng context)
    (hfrom : members.lookup (text "from") = some (.str path))
    (hpath : ∃ actual, resolve context path = .ok actual)
    (hto : members.lookup (text "to") = some (.str target)) :
    runCopy eng context (.obj members) = fault (.copySource path)
      ∨ ∃ context', runCopy eng context (.obj members) = .ok context' ∧ Copied eng context' := by
  obtain ⟨actual, hactual⟩ := hpath
  cases actual with
  | none =>
      left
      rw [runCopy, item_obj hfrom]
      show (resolve context path >>= _) = _
      rw [hactual]
      rfl
  | some value =>
      have hcheck := hcopied.resolve hactual
      obtain ⟨context', hassign⟩ := assign_str context target value
      have hcopy : deepcopy eng value = .ok value := by rw [deepcopy, hcheck]
      refine Or.inr ⟨context', ?_, hcopied.assign hcheck hassign⟩
      rw [runCopy, item_obj hfrom, item_obj hto]
      show (resolve context path >>= _) = _
      rw [hactual]
      show (deepcopy eng value >>= fun value => assign context (.str target) value) = _
      rw [hcopy]
      exact hassign

/-- An `error_if` step is in order unless it asks what a value contains. -/
lemma orderly_runErrorIf {guard message : Value F} (htype : Typed members "error_if")
    (hif : members.lookup (text "if") = some guard) (hvalid : validateGuard guard = .ok ())
    (hmessage : members.lookup (text "message") = some message) :
    Orderly (runErrorIf eng context (.obj members)) ↔ ¬ Stumbles eng context (.obj members) := by
  have hstumbles : Stumbles eng context (.obj members) ↔ AsksContains context guard := by
    constructor
    · intro h
      cases h with
      | deep h' _ _ _ => exact absurd h' (not_typed htype (by decide))
      | placeholder h' _ _ _ _ _ => exact absurd h' (not_typed htype (by decide))
      | contains _ hif' hasks =>
          obtain rfl := Option.some.inj (hif'.symm.trans hif)
          exact hasks
      | noThen h' _ _ _ => exact absurd h' (not_typed htype (by decide))
    · exact fun h => .contains (Or.inr htype) hif h
  rw [hstumbles, ← orderly_evaluateGuard eng context hvalid]
  have hrun : runErrorIf eng context (.obj members)
      = (evaluateGuard eng.real context guard >>= fun b => if b then fault (.raised message) else .ok ()) := by
    rw [runErrorIf, item_obj hif, item_obj hmessage]
    rfl
  rw [hrun, orderly_bind]
  refine and_iff_left fun b _ => ?_
  cases b with
  | true => exact orderly_fault_iff.2 trivial
  | false => exact orderly_ok ()

variable (eng context) in
/-- The branch of a condition is selected in order unless the condition stumbles. -/
lemma selectBranch_cases {guard : Value F} {thens elses : List (Value F)}
    (htype : Typed members "condition") (hif : members.lookup (text "if") = some guard)
    (hvalid : validateGuard guard = .ok ())
    (hthen : (members.lookup (text "then")).getD (.arr []) = .arr thens)
    (helse : (members.lookup (text "else")).getD (.arr []) = .arr elses) :
    Stumbles eng context (.obj members) ∧ ¬ Orderly (selectBranch eng context (.obj members))
      ∨ ¬ Stumbles eng context (.obj members) ∧ Orderly (selectBranch eng context (.obj members))
        ∧ ∀ branch, selectBranch eng context (.obj members) = .ok branch → branch = thens ∨ branch = elses := by
  have hrun : selectBranch eng context (.obj members)
      = (evaluateGuard eng.real context guard >>= fun b =>
        if b then item (.obj members) "then" >>= iterate else .ok elses) := by
    rw [selectBranch, item_obj hif]
    simp only [helse]
    rfl
  have hstumbles : Stumbles eng context (.obj members) ↔ AsksContains context guard
      ∨ evaluateGuard eng.real context guard = .ok true ∧ members.lookup (text "then") = none := by
    constructor
    · intro h
      cases h with
      | deep h' _ _ _ => exact absurd h' (not_typed htype (by decide))
      | placeholder h' _ _ _ _ _ => exact absurd h' (not_typed htype (by decide))
      | contains _ hif' hasks =>
          obtain rfl := Option.some.inj (hif'.symm.trans hif)
          exact Or.inl hasks
      | noThen _ hif' heval hnone =>
          obtain rfl := Option.some.inj (hif'.symm.trans hif)
          exact Or.inr ⟨heval, hnone⟩
    · rintro (h | ⟨heval, hnone⟩)
      · exact .contains (Or.inl htype) hif h
      · exact .noThen htype hif heval hnone
  have hguard := orderly_evaluateGuard eng context hvalid
  rw [hstumbles, hrun]
  cases heval : evaluateGuard eng.real context guard with
  | error e =>
      rw [heval] at hguard
      by_cases hasks : AsksContains context guard
      · refine Or.inl ⟨Or.inl hasks, fun h => hguard.1 (fun e' he => h e' ?_) hasks⟩
        exact congrArg _ (Except.error.inj he)
      · refine Or.inr ⟨?_, fun e' he => hguard.2 hasks e' ?_, nofun⟩
        · rintro (h | ⟨h, -⟩)
          · exact hasks h
          · cases h
        · exact congrArg _ (Except.error.inj he)
  | ok b =>
      rw [heval] at hguard
      have hasks : ¬ AsksContains context guard := hguard.1 (orderly_ok b)
      cases b with
      | false =>
          refine Or.inr ⟨?_, orderly_ok elses, fun branch hbranch => ?_⟩
          · rintro (h | ⟨h, -⟩)
            · exact hasks h
            · cases h
          · exact Or.inr (Except.ok.inj hbranch).symm
      | true =>
          cases hlookup : members.lookup (text "then") with
          | none =>
              refine Or.inl ⟨Or.inr ⟨rfl, rfl⟩, fun h => ?_⟩
              have hraise : (item (.obj members) "then" : Except (Exn F) _) = .error .keyError := by
                rw [item, hlookup]
              obtain ⟨b, hb, -⟩ := h .keyError (by
                show (item (.obj members) "then" >>= iterate) = _
                rw [hraise]
                rfl)
              cases hb
          | some value =>
              rw [hlookup, Option.getD_some] at hthen
              subst hthen
              have hitem : item (.obj members) "then" >>= iterate
                  = (.ok thens : Except (Exn F) (List (Value F))) := by
                rw [item_obj hlookup]
                rfl
              refine Or.inr ⟨?_, ?_, fun branch hbranch => ?_⟩
              · rintro (h | ⟨-, h⟩)
                · exact hasks h
                · cases h
              · show Orderly (item (.obj members) "then" >>= iterate)
                rw [hitem]
                exact orderly_ok thens
              · have hok : item (.obj members) "then" >>= iterate = .ok branch := hbranch
                rw [hitem] at hok
                exact Or.inl (Except.ok.inj hok).symm

end Steps

end Builtin
