import AgencyOS.Builtin.Interpreter
import AgencyOS.Python.Substitution

/-!
Rendering prompts: the placeholders of a body are replaced by the texts of what their paths denote.

Texts are lists of code points.  The limits of the interpreter are left out where values are written,
but not where an index is read.

* `scanVar`, `resolve`, `substitute`: the placeholders, their paths, and the rendering;
* `scanVar_iff`: what a placeholder is;
* `Denotes`, `Simultaneous`: what a path denotes, and what is promised of a rendering;
* `resolveParts_cases`: how a path ends, by what it meets on its way;
* `simultaneous_iff`: **a rendering is the simultaneous substitution exactly when no path goes on where
  it denotes nothing**, or another path is found to denote nothing.
-/

namespace Llm

open Python Python.Json Builtin

variable {F : Type}

/-! ### Placeholders -/

def isDigitPoint (c : ℕ) : Bool := 0x30 ≤ c && c ≤ 0x39

/-- `[a-zA-Z_]`. -/
def isNameStart (c : ℕ) : Bool := isKeyPoint c && !isDigitPoint c

/-- `[a-zA-Z0-9_.]`. -/
def isNamePoint (c : ℕ) : Bool := isKeyPoint c || c = 0x2e

/-- `_VAR` at the start of a text: the path, and what follows. -/
def scanVar : Str → Option (Str × Str)
  | 0x7b :: 0x7b :: rest =>
      match rest.dropWhile isSpacePoint with
      | c :: cs =>
          if isNameStart c then
            (closes (cs.dropWhile isNamePoint)).map fun rest => (c :: cs.takeWhile isNamePoint, rest)
          else none
      | [] => none
  | _ => none

/-- A path of a placeholder. -/
def IsName (path : Str) : Prop :=
  ∃ c cs, path = c :: cs ∧ isNameStart c = true ∧ ∀ d ∈ cs, isNamePoint d = true

/-- `{{ path }}`, with any spaces around the path. -/
def IsVar (t path : Str) : Prop :=
  IsName path ∧ ∃ left right : Str, (∀ c ∈ left, isSpacePoint c = true)
    ∧ (∀ c ∈ right, isSpacePoint c = true)
    ∧ t = 0x7b :: 0x7b :: (left ++ (path ++ (right ++ [0x7d, 0x7d])))

/-! ### Rendering -/

inductive PromptError where
  | keyError (message : Str)
  | valueError
  deriving DecidableEq, Repr

/-- `int` of digits. -/
def digitsValue (part : Str) : ℕ := part.foldl (fun n c => 10 * n + (c - 0x30)) 0

/-- The parts of a path from a value on; `int` refuses more than 4300 digits. -/
def resolveParts (path : Str) : List Str → Value F → Except PromptError (Value F)
  | [], current => .ok current
  | part :: parts, current =>
      match current with
      | .obj members =>
          match members.lookup part with
          | some v => resolveParts path parts v
          | none => .error (.keyError (text "prompt missing variable: " ++ path))
      | .arr items =>
          if part.dropWhile isDigitPoint ≠ [] then resolveParts path parts current
          else if part ≠ [] then
            if 4300 < part.length then .error .valueError
            else
              match items[digitsValue part]? with
              | some v => resolveParts path parts v
              | none => .error (.keyError (text "prompt index out of range: " ++ part))
          else .error (.keyError (text "prompt missing variable: " ++ path))
      | _ => .error (.keyError (text "prompt missing variable: " ++ path))

/-- `_resolve`. -/
def resolve (path : Str) (vars : List (Str × Value F)) : Except PromptError (Value F) :=
  resolveParts path (segments path) (.obj vars)

variable (fl : Floats F)

/-- The text of a value: `json.dumps` of an object or a list, `str` of all else. -/
def valueText : Value F → Str
  | .obj members => points (render fl (.obj members) [])
  | .arr items => points (render fl (.arr items) [])
  | .str s => s
  | .null => text "None"
  | .bool b => if b then text "True" else text "False"
  | .int n => points ((if n < 0 then ['-'] else []) ++ decimalText n.natAbs)
  | .float x => points (FloatText.str (fl.repr x))

/-- `_replace`. -/
def replacePath (vars : List (Str × Value F)) (path : Str) : Except PromptError Str :=
  (resolve path vars).map (valueText fl)

/-! ### What a placeholder is -/

lemma not_isSpacePoint_of_isNamePoint {c : ℕ} (h : isNamePoint c = true) : isSpacePoint c = false := by
  have hbound : c < 0x7b := by
    simp only [isNamePoint, isKeyPoint, Bool.or_eq_true, Bool.and_eq_true, decide_eq_true_eq] at h
    omega
  have hall : ∀ c < 0x7b, isNamePoint c = true → isSpacePoint c = false := by decide
  exact hall c hbound h

lemma isNamePoint_of_isNameStart {c : ℕ} (h : isNameStart c = true) : isNamePoint c = true := by
  rw [isNameStart, Bool.and_eq_true] at h
  rw [isNamePoint, h.1, Bool.true_or]

lemma takeWhile_append_of_stop {p : ℕ → Bool} {s rest : Str} (hs : ∀ c ∈ s, p c = true)
    (hrest : ∀ c ∈ rest.head?, p c = false) :
    (s ++ rest).takeWhile p = s ∧ (s ++ rest).dropWhile p = rest := by
  rw [List.takeWhile_append_of_pos hs, List.dropWhile_append_of_pos hs]
  cases rest with
  | nil => simp
  | cons c cs => simp [hrest c rfl]

/-- What closes a placeholder. -/
lemma closes_iff {s rest : Str} : closes s = some rest
    ↔ ∃ right : Str, (∀ c ∈ right, isSpacePoint c = true) ∧ s = right ++ 0x7d :: 0x7d :: rest := by
  rw [closes]
  constructor
  · intro h
    split at h
    · next rest' hdrop =>
        obtain rfl := Option.some_injective _ h
        refine ⟨s.takeWhile isSpacePoint, fun c hc => List.mem_takeWhile_imp hc, ?_⟩
        rw [← hdrop, List.takeWhile_append_dropWhile]
    · cases h
  · rintro ⟨right, hright, rfl⟩
    rw [(takeWhile_append_of_stop hright fun c hc => by cases hc; decide).2]
    rfl

/-- **The placeholders that are found.** -/
theorem scanVar_iff (s path rest : Str) :
    scanVar s = some (path, rest) ↔ ∃ t, IsVar t path ∧ s = t ++ rest := by
  constructor
  · intro h
    rw [scanVar.eq_def] at h
    split at h
    · next after =>
        split at h
        · next c cs hdrop =>
            split_ifs at h with hc
            obtain ⟨rest', hcloses, heq⟩ := Option.map_eq_some_iff.mp h
            obtain ⟨rfl, rfl⟩ := Prod.mk.inj heq
            obtain ⟨right, hright, hcs⟩ := closes_iff.mp hcloses
            refine ⟨_, ⟨⟨c, _, rfl, hc, fun d hd => List.mem_takeWhile_imp hd⟩,
              after.takeWhile isSpacePoint, right, fun d hd => List.mem_takeWhile_imp hd, hright, rfl⟩, ?_⟩
            have hafter : after = after.takeWhile isSpacePoint ++ c :: cs := by
              rw [← hdrop, List.takeWhile_append_dropWhile]
            have hname : cs = cs.takeWhile isNamePoint ++ (right ++ 0x7d :: 0x7d :: rest') := by
              rw [← hcs, List.takeWhile_append_dropWhile]
            calc 0x7b :: 0x7b :: after
                = 0x7b :: 0x7b :: (after.takeWhile isSpacePoint ++ c :: cs) := by rw [← hafter]
              _ = 0x7b :: 0x7b :: (after.takeWhile isSpacePoint
                    ++ c :: (cs.takeWhile isNamePoint ++ (right ++ 0x7d :: 0x7d :: rest'))) := by
                  rw [← hname]
              _ = _ := by simp
        · cases h
    · cases h
  · rintro ⟨t, ⟨⟨c, cs, rfl, hc, hcs⟩, left, right, hleft, hright, rfl⟩, rfl⟩
    have hspace := not_isSpacePoint_of_isNamePoint (isNamePoint_of_isNameStart hc)
    have hstop : ∀ d ∈ (right ++ (0x7d :: 0x7d :: rest)).head?, isNamePoint d = false := by
      intro d hd
      cases right with
      | nil =>
          cases hd
          decide
      | cons e right =>
          cases hd
          by_contra hname
          rw [Bool.not_eq_false] at hname
          exact nomatch (not_isSpacePoint_of_isNamePoint hname).symm.trans (hright _ List.mem_cons_self)
    have hdrop : (left ++ c :: (cs ++ (right ++ 0x7d :: 0x7d :: rest))).dropWhile isSpacePoint
        = c :: (cs ++ (right ++ 0x7d :: 0x7d :: rest)) :=
      (takeWhile_append_of_stop hleft fun d hd => by cases hd; exact hspace).2
    have hname := takeWhile_append_of_stop hcs hstop
    have htext : 0x7b :: 0x7b :: (left ++ (c :: cs ++ (right ++ [0x7d, 0x7d]))) ++ rest
        = 0x7b :: 0x7b :: (left ++ c :: (cs ++ (right ++ 0x7d :: 0x7d :: rest))) := by simp
    rw [htext, scanVar, hdrop]
    exact (if_pos hc).trans (by
      rw [hname.1, hname.2, closes_iff.mpr ⟨right, hright, rfl⟩, Option.map_some])

/-- The placeholders of a body. -/
def varScanner : Scanner ℕ Str where
  Matches := IsVar
  scan := scanVar
  scan_iff := scanVar_iff
  ne_nil := by
    rintro t path ⟨-, left, right, -, -, rfl⟩
    exact List.cons_ne_nil _ _

/-- `_substitute`. -/
def substitute (body : Str) (vars : List (Str × Value F)) : Except PromptError Str :=
  varScanner.sub (replacePath fl vars) body

/-! ### What a path denotes -/

/-- The decimal number that a part of a path is. -/
def decimal? (part : Str) : Option ℕ :=
  if part ≠ [] ∧ part.all isDigitPoint then some (digitsValue part) else none

/-- What a part of a path denotes in a value: a key of an object, a decimal index of a list. -/
def child : Value F → Str → Option (Value F)
  | .obj members, part => members.lookup part
  | .arr items, part => (decimal? part).bind fun idx => items[idx]?
  | _, _ => none

/-- The whole path leads to a value. -/
def Denotes (vars : List (Str × Value F)) (path : Str) (w : Value F) : Prop :=
  (segments path).foldlM child (.obj vars) = some w

/-- What simultaneous substitution puts for a piece of a body. -/
inductive Replaced (vars : List (Str × Value F)) : Piece ℕ Str → Str → Prop
  | hit {path : Str} {w : Value F} (denotes : Denotes vars path w) :
      Replaced vars (.hit path) (valueText fl w)
  | plain (c : ℕ) : Replaced vars (.plain c) [c]

/-- What is promised of a rendering: when all paths denote values, their texts stand for the
placeholders and all else is as it was; a `KeyError` is raised exactly when some path denotes nothing. -/
structure Simultaneous (vars : List (Str × Value F)) (body : Str) : Prop where
  replaced : ∀ ps chunks, Reads IsVar body ps → List.Forall₂ (Replaced fl vars) ps chunks →
    substitute fl body vars = .ok chunks.flatten
  raised : ∀ ps, Reads IsVar body ps → ((∃ message, substitute fl body vars = .error (.keyError message))
    ↔ ∃ path, .hit path ∈ ps ∧ ∀ w, ¬ Denotes vars path w)

/-! ### What a path meets -/

/-- A list does not take part in this part of a path. -/
def skipped : Value F → Str → Bool
  | .arr _, part => part.dropWhile isDigitPoint ≠ []
  | _, _ => false

/-- What a path meets: the values on its way, each with the part read there.  A list stays where it is
for a part that is no number. -/
def steps : List Str → Value F → List (Value F × Str)
  | [], _ => []
  | part :: parts, current => (current, part) ::
      if skipped current part then steps parts current
      else
        match child current part with
        | some v => steps parts v
        | none => []

/-- Somewhere on the way a part denotes nothing, and no list skips it. -/
def Stops (way : List (Value F × Str)) : Prop :=
  ∃ step ∈ way, skipped step.1 step.2 = false ∧ child step.1 step.2 = none

/-- A path denotes nothing, even if lists skip the parts that are no numbers. -/
def Lost (vars : List (Str × Value F)) (path : Str) : Prop := Stops (steps (segments path) (.obj vars))

/-- A number that is the part of a path at a list. -/
def isIndex : Value F → Str → Bool
  | .arr _, part => (decimal? part).isSome
  | _, _ => false

/-- An index is too long for `int`. -/
def tooLong (step : Value F × Str) : Bool := isIndex step.1 step.2 && 4300 < step.2.length

/-- A path has an index that is too long. -/
def Overlong (vars : List (Str × Value F)) (path : Str) : Prop :=
  ∃ step ∈ steps (segments path) (.obj vars), tooLong step = true

/-- The parts of a path are read one after the other. -/
lemma resolveParts_cons (path part : Str) (parts : List Str) (current : Value F) :
    ∃ message, resolveParts path (part :: parts) current =
      if skipped current part then resolveParts path parts current
      else if tooLong (current, part) then .error .valueError
      else
        match child current part with
        | some v => resolveParts path parts v
        | none => .error (.keyError message) := by
  cases current with
  | obj members => exact ⟨_, rfl⟩
  | null | bool | int | float | str => exact ⟨_, rfl⟩
  | arr items =>
      by_cases hdigits : part.dropWhile isDigitPoint = []
      · have hall : part.all isDigitPoint = true :=
          List.all_eq_true.mpr (List.dropWhile_eq_nil_iff.mp hdigits)
        have hskipped : skipped (.arr items : Value F) part = false := by simp [skipped, hdigits]
        rw [resolveParts, if_neg (not_not_intro hdigits), hskipped]
        by_cases hpart : part = []
        · have hnone : decimal? part = none := if_neg fun h => h.1 hpart
          refine ⟨text "prompt missing variable: " ++ path, (if_neg (not_not_intro hpart)).trans ?_⟩
          simp [tooLong, isIndex, child, hnone]
        · have hsome : decimal? part = some (digitsValue part) := if_pos ⟨hpart, hall⟩
          refine ⟨text "prompt index out of range: " ++ part, (if_pos hpart).trans ?_⟩
          simp [tooLong, isIndex, child, hsome]
      · have hskipped : skipped (.arr items : Value F) part = true := by simp [skipped, hdigits]
        refine ⟨[], ?_⟩
        rw [resolveParts, if_pos hdigits, hskipped, if_pos rfl]

/-- A part that is skipped is no number. -/
lemma of_skipped {current : Value F} {part : Str} (h : skipped current part = true) :
    child current part = none ∧ tooLong (current, part) = false := by
  cases current with
  | obj | null | bool | int | float | str => cases h
  | arr items =>
      have hnone : decimal? part = none := by
        refine if_neg fun hdecimal => ?_
        rw [skipped, decide_eq_true_eq] at h
        exact h (List.dropWhile_eq_nil_iff.mpr (List.all_eq_true.mp hdecimal.2))
      exact ⟨by rw [child, hnone, Option.bind_none], by simp [tooLong, isIndex, hnone]⟩

lemma stops_cons {step : Value F × Str} {way : List (Value F × Str)} : Stops (step :: way)
    ↔ (skipped step.1 step.2 = false ∧ child step.1 step.2 = none) ∨ Stops way :=
  List.exists_mem_cons_iff _ _ _

lemma not_stops_nil : ¬ Stops ([] : List (Value F × Str)) := by
  rintro ⟨step, hstep, -⟩
  cases hstep

/-- **How a path ends.**  It is resolved if no part denotes nothing and no index is too long; else what
comes first decides. -/
lemma resolveParts_cases (path : Str) (parts : List Str) (current : Value F) :
    ((∃ w, resolveParts path parts current = .ok w) ∧ ¬ Stops (steps parts current)
        ∧ ¬ ∃ step ∈ steps parts current, tooLong step = true)
      ∨ ((∃ message, resolveParts path parts current = .error (.keyError message))
        ∧ Stops (steps parts current) ∧ ¬ ∃ step ∈ steps parts current, tooLong step = true)
      ∨ (resolveParts path parts current = .error .valueError
        ∧ ∃ step ∈ steps parts current, tooLong step = true) := by
  induction parts generalizing current with
  | nil => exact .inl ⟨⟨current, rfl⟩, not_stops_nil, by simp [steps]⟩
  | cons part parts ih =>
      obtain ⟨message, hcons⟩ := resolveParts_cons path part parts current
      rw [hcons, steps, stops_cons, List.exists_mem_cons_iff]
      cases hskipped : skipped current part with
      | true =>
          -- the list stays where it is, and so does the rest of the way
          simpa [(of_skipped hskipped).2] using ih current
      | false =>
          cases hlong : tooLong (current, part) with
          | true => exact .inr (.inr ⟨rfl, .inl rfl⟩)
          | false =>
              cases hchild : child current part with
              | none => exact .inr (.inl ⟨⟨message, rfl⟩, .inl ⟨rfl, rfl⟩, by simp⟩)
              | some v => simpa using ih v

/-- A path that denotes a value meets nothing that stops it. -/
lemma of_foldlM_child {parts : List Str} {current w : Value F} (h : parts.foldlM child current = some w)
    (path : Str) : ¬ Stops (steps parts current)
      ∧ ((¬ ∃ step ∈ steps parts current, tooLong step = true) → resolveParts path parts current = .ok w) := by
  induction parts generalizing current with
  | nil => exact ⟨not_stops_nil, fun _ => congrArg _ (Option.some_injective _ h)⟩
  | cons part parts ih =>
      rw [List.foldlM_cons] at h
      obtain ⟨v, hchild, hrest⟩ := Option.bind_eq_some_iff.mp h
      have hskipped : skipped current part = false := by
        by_contra hskipped
        rw [Bool.not_eq_false] at hskipped
        exact nomatch (of_skipped hskipped).1.symm.trans hchild
      obtain ⟨message, hcons⟩ := resolveParts_cons path part parts current
      obtain ⟨hstops, hok⟩ := ih hrest
      rw [hcons, steps, stops_cons, List.exists_mem_cons_iff, hskipped, hchild]
      refine ⟨by simpa using hstops, fun hlong => ?_⟩
      rw [not_or] at hlong
      exact (if_neg Bool.false_ne_true).trans ((if_neg hlong.1).trans (hok (by simpa using hlong.2)))

/-! ### Renderings -/

section Rendering

variable {fl} {vars : List (Str × Value F)}

/-- **How a placeholder is replaced.** -/
lemma resolve_cases (vars : List (Str × Value F)) (path : Str) :
    ((∃ w, resolve path vars = .ok w) ∧ ¬ Lost vars path ∧ ¬ Overlong vars path)
      ∨ ((∃ message, resolve path vars = .error (.keyError message)) ∧ Lost vars path
        ∧ ¬ Overlong vars path)
      ∨ (resolve path vars = .error .valueError ∧ Overlong vars path) :=
  resolveParts_cases path (segments path) (.obj vars)

lemma resolve_of_denotes {path : Str} {w : Value F} (h : Denotes vars path w)
    (hlong : ¬ Overlong vars path) : resolve path vars = .ok w :=
  (of_foldlM_child h path).2 hlong

lemma not_lost_of_denotes {path : Str} {w : Value F} (h : Denotes vars path w) : ¬ Lost vars path :=
  (of_foldlM_child h path).1

/-- The paths of the placeholders of a body. -/
def placeholders (body : Str) : List Str := hits (varScanner.pieces body)

/-- What is raised is what the first path raises that is not resolved. -/
lemma substitute_eq_error {body : Str} {e : PromptError} : substitute fl body vars = .error e
    ↔ ∃ before path after, placeholders body = before ++ path :: after ∧ resolve path vars = .error e
      ∧ ∀ earlier ∈ before, ∃ w, resolve earlier vars = .ok w := by
  rw [substitute, Scanner.sub_eq_error]
  refine exists_congr fun before => exists_congr fun path => exists_congr fun after =>
    and_congr_right fun _ => and_congr ?_ (forall₂_congr fun earlier _ => ?_)
  · rw [replacePath]
    cases resolve path vars with
    | error e' => exact ⟨fun h => congrArg _ (Except.error.inj h), fun h => congrArg _ (Except.error.inj h)⟩
    | ok w => exact ⟨nofun, nofun⟩
  · rw [replacePath]
    cases resolve earlier vars with
    | error e' => exact ⟨nofun, nofun⟩
    | ok w => exact ⟨fun _ => ⟨w, rfl⟩, fun _ => ⟨_, rfl⟩⟩

/-- If nothing is raised, every path is resolved. -/
lemma resolve_of_ok {body out : Str} (h : substitute fl body vars = .ok out) {path : Str}
    (hpath : path ∈ placeholders body) : ∃ w, resolve path vars = .ok w := by
  obtain ⟨t, ht⟩ := Scanner.replaced_of_sub h hpath
  obtain ⟨w, hw, -⟩ := map_eq_ok.mp ht
  exact ⟨w, hw⟩

/-- Paths that are resolved to what they denote give the text that is promised. -/
lemma substitute_of_denotes {body : Str} (hlong : ∀ path ∈ placeholders body, ¬ Overlong vars path)
    {chunks : List Str} (hchunks : List.Forall₂ (Replaced fl vars) (varScanner.pieces body) chunks) :
    substitute fl body vars = .ok chunks.flatten := by
  have hpieces : ∀ p ∈ varScanner.pieces body, ∀ path, p = .hit path → ¬ Overlong vars path := by
    rintro p hp path rfl
    exact hlong path (mem_hits.mpr hp)
  have hshort := (List.forall₂_and_left _ _).mpr ⟨hpieces, hchunks⟩
  refine Scanner.sub_eq_ok.mpr ⟨chunks, hshort.imp ?_, rfl⟩
  rintro p chunk ⟨hpath, hreplaced⟩
  cases hreplaced with
  | plain c => rfl
  | @hit path w denotes =>
      rw [Piece.replaceBy, replacePath, resolve_of_denotes denotes (hpath path rfl)]
      rfl

/-- All pieces have texts exactly when all paths denote values. -/
lemma exists_chunks_iff {body : Str} :
    (∃ chunks, List.Forall₂ (Replaced fl vars) (varScanner.pieces body) chunks)
      ↔ ∀ path ∈ placeholders body, ∃ w, Denotes vars path w := by
  rw [exists_forall₂_iff]
  constructor
  · intro h path hpath
    obtain ⟨chunk, hchunk⟩ := h _ (mem_hits.mp hpath)
    cases hchunk with
    | hit denotes => exact ⟨_, denotes⟩
  · intro h p hp
    cases p with
    | hit path =>
        obtain ⟨w, hw⟩ := h path (mem_hits.mpr hp)
        exact ⟨_, .hit hw⟩
    | plain c => exact ⟨_, .plain c⟩

lemma not_overlong_of_ok {path : Str} {w : Value F} (h : resolve path vars = .ok w) :
    ¬ Overlong vars path := by
  rcases resolve_cases vars path with ⟨-, -, hshort⟩ | ⟨-, -, hshort⟩ | ⟨hvalue, -⟩
  · exact hshort
  · exact hshort
  · exact nomatch h.symm.trans hvalue

lemma not_lost_of_ok {path : Str} {w : Value F} (h : resolve path vars = .ok w) : ¬ Lost vars path := by
  rcases resolve_cases vars path with ⟨-, hnot, -⟩ | ⟨⟨message, hmessage⟩, -⟩ | ⟨hvalue, -⟩
  · exact hnot
  · exact nomatch h.symm.trans hmessage
  · exact nomatch h.symm.trans hvalue

lemma overlong_of_valueError {path : Str} (h : resolve path vars = .error .valueError) :
    Overlong vars path := by
  rcases resolve_cases vars path with ⟨⟨w, hw⟩, -⟩ | ⟨⟨message, hmessage⟩, -⟩ | ⟨-, hlong⟩
  · exact nomatch h.symm.trans hw
  · exact nomatch h.symm.trans hmessage
  · exact hlong

/-- A path that denotes nothing, whatever lists skip, is a `KeyError`, if no index before is too long. -/
lemma substitute_of_lost {body path : Str} {before after : List Str}
    (heq : placeholders body = before ++ path :: after) (hlost : Lost vars path)
    (hshort : ¬ Overlong vars path) (hearlier : ∀ earlier ∈ before, ¬ Overlong vars earlier) :
    ∃ message, substitute fl body vars = .error (.keyError message) := by
  cases hresult : substitute fl body vars with
  | ok out =>
      have hpath : path ∈ placeholders body := by
        rw [heq]
        exact List.mem_append_right _ List.mem_cons_self
      obtain ⟨w, hw⟩ := resolve_of_ok hresult hpath
      exact absurd hlost (not_lost_of_ok hw)
  | error e =>
      cases e with
      | keyError message => exact ⟨message, rfl⟩
      | valueError =>
          -- the index that is too long would come after the path that is lost
          obtain ⟨before', path', after', heq', hvalue, hbefore'⟩ := substitute_eq_error.mp hresult
          have hlong : Overlong vars path' := overlong_of_valueError hvalue
          rcases List.append_eq_append_iff.mp (heq.symm.trans heq') with ⟨mid, rfl, hmid⟩ | ⟨mid, rfl, hmid⟩
          · cases mid with
            | nil =>
                obtain ⟨rfl, -⟩ := List.cons.inj hmid
                exact absurd hlong hshort
            | cons first mid =>
                obtain ⟨rfl, -⟩ := List.cons.inj hmid
                obtain ⟨w, hw⟩ := hbefore' path (List.mem_append_right _ List.mem_cons_self)
                exact absurd hlost (not_lost_of_ok hw)
          · cases mid with
            | nil =>
                obtain ⟨rfl, -⟩ := List.cons.inj hmid
                exact absurd hlong hshort
            | cons first mid =>
                obtain ⟨rfl, -⟩ := List.cons.inj hmid
                exact absurd hlong (hearlier path' (List.mem_append_right _ List.mem_cons_self))

end Rendering

/-- **A rendering is the simultaneous substitution** exactly when all paths denote values, or one denotes
nothing even if lists skip the parts that are no numbers, and no index up to there is too long. -/
theorem simultaneous_iff (fl : Floats F) (vars : List (Str × Value F)) (body : Str) :
    Simultaneous fl vars body
      ↔ (∀ path ∈ placeholders body, (∃ w, Denotes vars path w) ∧ ¬ Overlong vars path)
        ∨ ∃ before path after, placeholders body = before ++ path :: after ∧ Lost vars path
          ∧ ¬ Overlong vars path ∧ ∀ earlier ∈ before, ¬ Overlong vars earlier := by
  have hpieces : ∀ ps, Reads IsVar body ps → ps = varScanner.pieces body :=
    fun ps hps => varScanner.reads_iff.mp hps
  have hreads : Reads IsVar body (varScanner.pieces body) := varScanner.reads_pieces body
  constructor
  · rintro ⟨hreplaced, hraised⟩
    have hraised := hraised _ hreads
    cases hresult : substitute fl body vars with
    | ok out =>
        -- nothing is raised, so every path denotes a value and no index is too long
        refine .inl fun path hpath => ?_
        have hdenotes : ∃ w, Denotes vars path w := by
          by_contra hnone
          rw [not_exists] at hnone
          obtain ⟨message, hmessage⟩ := hraised.mpr ⟨path, mem_hits.mp hpath, hnone⟩
          exact nomatch hresult.symm.trans hmessage
        obtain ⟨w, hw⟩ := resolve_of_ok hresult hpath
        exact ⟨hdenotes, not_overlong_of_ok hw⟩
    | error e =>
        obtain ⟨before, path, after, heq, herror, hbefore⟩ := substitute_eq_error.mp hresult
        have hearlier : ∀ earlier ∈ before, ¬ Overlong vars earlier :=
          fun earlier hmem => not_overlong_of_ok (hbefore earlier hmem).choose_spec
        rcases resolve_cases vars path with ⟨⟨w, hw⟩, -⟩ | ⟨-, hlost, hshort⟩ | ⟨hvalue, -⟩
        · exact nomatch hw.symm.trans herror
        · exact .inr ⟨before, path, after, heq, hlost, hshort, hearlier⟩
        · -- a `ValueError` is neither a rendering nor a `KeyError`
          obtain rfl : PromptError.valueError = e := Except.error.inj (hvalue.symm.trans herror)
          have hall : ∀ path ∈ placeholders body, ∃ w, Denotes vars path w := by
            intro path hpath
            by_contra hnone
            rw [not_exists] at hnone
            obtain ⟨message, hmessage⟩ := hraised.mpr ⟨path, mem_hits.mp hpath, hnone⟩
            exact nomatch hresult.symm.trans hmessage
          obtain ⟨chunks, hchunks⟩ := exists_chunks_iff.mpr hall
          exact nomatch hresult.symm.trans (hreplaced _ _ hreads hchunks)
  · rintro (hall | ⟨before, path, after, heq, hlost, hshort, hearlier⟩)
    · constructor
      · intro ps chunks hps hchunks
        obtain rfl := hpieces ps hps
        exact substitute_of_denotes (fun path hpath => (hall path hpath).2) hchunks
      · intro ps hps
        obtain rfl := hpieces ps hps
        obtain ⟨chunks, hchunks⟩ := exists_chunks_iff.mpr fun path hpath => (hall path hpath).1
        have hok := substitute_of_denotes (fun path hpath => (hall path hpath).2) hchunks
        constructor
        · rintro ⟨message, hmessage⟩
          exact nomatch hok.symm.trans hmessage
        · rintro ⟨path, hpath, hnone⟩
          obtain ⟨w, hw⟩ := (hall path (mem_hits.mpr hpath)).1
          exact absurd hw (hnone w)
    · have hmem : path ∈ placeholders body := by
        rw [heq]
        exact List.mem_append_right _ List.mem_cons_self
      have hnone : ∀ w, ¬ Denotes vars path w := fun w hw => not_lost_of_denotes hw hlost
      obtain ⟨message, hmessage⟩ : ∃ message, substitute fl body vars = .error (.keyError message) :=
        substitute_of_lost heq hlost hshort hearlier
      constructor
      · intro ps chunks hps hchunks
        obtain rfl := hpieces ps hps
        obtain ⟨w, hw⟩ := exists_chunks_iff.mp ⟨chunks, hchunks⟩ path hmem
        exact absurd hw (hnone w)
      · intro ps hps
        obtain rfl := hpieces ps hps
        exact ⟨fun _ => ⟨path, mem_hits.mp hmem, hnone⟩, fun _ => ⟨message, hmessage⟩⟩

/-- A prompt that asks for the name of a list. -/
def listName : Str := text "{{people.name}}"

/-- A list has no name, but is rendered as a whole. -/
theorem not_simultaneous_listName : ¬ ∀ (vars : List (Str × Value Unit)) (body : Str),
    Simultaneous defaultEngine.floats vars body := by
  intro h
  have hsim := (simultaneous_iff _ _ _).mp (h [(text "people", .arr [.str (text "Ada")])] listName)
  have hvar : IsVar listName (text "people.name") := by
    refine ⟨⟨0x70, text "eople.name", rfl, rfl, ?_⟩, [], [], nofun, nofun, rfl⟩
    decide
  have hreads : Reads IsVar listName [.hit (text "people.name")] := by
    simpa using Reads.hit hvar Reads.nil
  have hpieces : placeholders listName = [text "people.name"] :=
    congrArg hits (varScanner.pieces_of_reads hreads)
  rw [hpieces] at hsim
  rcases hsim with hall | ⟨before, path, after, heq, hlost, -⟩
  · obtain ⟨⟨w, hw⟩, -⟩ := hall _ List.mem_cons_self
    cases hw
  · have hmem : path ∈ [text "people.name"] := by
      rw [heq]
      exact List.mem_append_right _ List.mem_cons_self
    obtain rfl := List.mem_singleton.mp hmem
    have hsteps : steps (segments (text "people.name")) (.obj [(text "people", .arr [.str (text "Ada")])])
        = [(.obj [(text "people", .arr [.str (text "Ada")])], text "people"),
          ((.arr [.str (text "Ada")] : Value Unit), text "name")] := rfl
    rw [Lost, hsteps, stops_cons, stops_cons] at hlost
    rcases hlost with ⟨-, hchild⟩ | ⟨hskipped, -⟩ | hstops
    · cases hchild
    · cases hskipped
    · exact not_stops_nil hstops

end Llm
