import AgencyOS.Python.Exceptions
import AgencyOS.Python.Json.Model

/-!
The grammar of JSON texts, and the parser that reads them.

* `Reads`, `Denotes`: which value a text stands for, without limits and without fuel;
* `Reads.parse`: the parser has fuel enough for every text of the grammar, and stops only at the
  first place where the value is beyond a limit;
* `Denotes.parse`: the same for whole texts.
-/

namespace Python.Json

variable {F : Type} {fl : Floats F}

/-! ### Digits -/

lemma isDigit_of_mem_decimalText {n : ℕ} {c : Char} (h : c ∈ decimalText n) : isDigit c = true := by
  have hdigit := Nat.isDigit_of_mem_toDigits (by norm_num) (by norm_num) h
  rw [Char.isDigit, Bool.and_eq_true, decide_eq_true_iff, decide_eq_true_iff] at hdigit
  rw [isDigit, Bool.and_eq_true, decide_eq_true_iff, decide_eq_true_iff]
  exact hdigit

/-- Digits are read up to the first character that is none. -/
lemma scanDigits_append {ds rest : List Char} (hne : ds ≠ []) (hds : ∀ c ∈ ds, isDigit c = true)
    (hrest : ∀ c cs, rest = c :: cs → isDigit c = false) :
    scanDigits (ds ++ rest) = some (ds, rest) := by
  have htake : rest.takeWhile isDigit = [] := by
    cases rest with
    | nil => rfl
    | cons c cs => rw [List.takeWhile_cons_of_neg (by simp [hrest c cs rfl])]
  have hdrop : rest.dropWhile isDigit = rest := by
    cases rest with
    | nil => rfl
    | cons c cs => rw [List.dropWhile_cons_of_neg (by simp [hrest c cs rfl])]
  rw [scanDigits, List.takeWhile_append_of_pos hds, List.dropWhile_append_of_pos hds, htake, hdrop,
    List.append_nil, if_neg (by simpa using hne)]

/-- The digits that were read are the start of the text, and there are some. -/
lemma scanDigits_eq_some {text ds rest : List Char} (h : scanDigits text = some (ds, rest)) :
    text = ds ++ rest ∧ ds ≠ [] ∧ ∀ c ∈ ds, isDigit c = true := by
  rw [scanDigits] at h
  split at h
  · exact nomatch h
  · next hne =>
    cases h
    exact ⟨List.takeWhile_append_dropWhile.symm, by simpa using hne,
      fun c hc => List.mem_takeWhile_imp hc⟩

lemma decimalText_zero : decimalText 0 = ['0'] := Nat.toDigits_zero 10

/-- Only zero is written with a leading zero. -/
lemma decimalText_head {n : ℕ} {ds : List Char} (h : decimalText n = '0' :: ds) : n = 0 := by
  induction n using Nat.base_induction 10 (by norm_num) generalizing ds with
  | single m hm =>
      rw [decimalText, Nat.toDigits_of_lt_base hm] at h
      interval_cases m <;> first | rfl | exact absurd (List.cons.inj h).1 (by decide)
  | digit m k hk hm ih =>
      rw [decimalText, ← Nat.toDigits_append_toDigits (by norm_num) hm hk] at h
      obtain ⟨c, cs, hcs⟩ := List.exists_cons_of_ne_nil (Nat.toDigits_ne_nil (n := m) (b := 10))
      rw [hcs, List.cons_append] at h
      have hzero := ih (hcs.trans (by rw [(List.cons.inj h).1]))
      omega

lemma scanWhole_of_ne {c : Char} {cs : List Char} (h : c ≠ '0') :
    scanWhole (c :: cs) = scanDigits (c :: cs) := by
  rw [scanWhole]
  intro rest heq
  exact h (List.cons.inj heq).1

/-- The digits of a number are read as they were written. -/
lemma scanWhole_decimalText (n : ℕ) {rest : List Char}
    (hrest : ∀ c cs, rest = c :: cs → isDigit c = false) :
    scanWhole (decimalText n ++ rest) = some (decimalText n, rest) := by
  rcases Nat.eq_zero_or_pos n with rfl | hn
  · rw [decimalText_zero]
    rfl
  · obtain ⟨c, cs, hcs⟩ := List.exists_cons_of_ne_nil (Nat.toDigits_ne_nil (n := n) (b := 10))
    have hc : c ≠ '0' := by
      rintro rfl
      exact absurd (decimalText_head hcs) (by omega)
    have hall : ∀ d ∈ decimalText n, isDigit d = true := fun d hd => isDigit_of_mem_decimalText hd
    calc scanWhole (decimalText n ++ rest) = scanDigits (decimalText n ++ rest) := by
          rw [decimalText, hcs, List.cons_append, scanWhole_of_ne hc]
      _ = some (decimalText n, rest) := scanDigits_append (by simp [decimalText]) hall hrest

lemma digitChar_of_isDigit {c : Char} (h : isDigit c = true) :
    c.toNat - 48 < 10 ∧ Nat.digitChar (c.toNat - 48) = c := by
  rw [isDigit, Bool.and_eq_true, decide_eq_true_iff, decide_eq_true_iff] at h
  have hlow : 48 ≤ c.toNat := h.1
  have hhigh : c.toNat ≤ 57 := h.2
  have hofNat : Char.ofNat c.toNat = c := Char.ofNat_toNat c
  refine ⟨by omega, ?_⟩
  generalize c.toNat = k at hlow hhigh hofNat
  rw [← hofNat]
  interval_cases k <;> rfl

/-- Digits without a leading zero are those of the number they stand for. -/
lemma decimalText_ofDigitChars {ds : List Char} (hds : ∀ c ∈ ds, isDigit c = true) :
    (∀ c cs, ds = c :: cs → c ≠ '0') →
      (ds ≠ [] → 0 < Nat.ofDigitChars 10 ds 0 ∧ decimalText (Nat.ofDigitChars 10 ds 0) = ds) := by
  induction ds using List.reverseRecOn with
  | nil => exact fun _ h => absurd rfl h
  | append_singleton ds d ih =>
      intro hhead _
      obtain ⟨hlt, hchar⟩ := digitChar_of_isDigit (hds d (by simp))
      have hlast : ∀ k : ℕ, Nat.ofDigitChars 10 [d] k = 10 * k + (d.toNat - 48) := by
        intro k
        rw [Nat.ofDigitChars_cons, Nat.ofDigitChars_nil]
        rfl
      have hsingle : Nat.toDigits 10 (d.toNat - 48) = [d] := by
        rw [Nat.toDigits_of_lt_base hlt, hchar]
      rw [Nat.ofDigitChars_append, hlast]
      rcases ds with _ | ⟨c, cs⟩
      · have hd : d.toNat - 48 ≠ 0 := by
          intro hzero
          rw [hzero] at hchar
          exact hhead d [] rfl hchar.symm
        rw [Nat.ofDigitChars_nil]
        refine ⟨by omega, ?_⟩
        rw [Nat.mul_zero, Nat.zero_add, decimalText, hsingle]
        rfl
      · obtain ⟨hpos, htext⟩ := ih (fun x hx => hds x (List.mem_append_left _ hx))
          (fun x xs hx => hhead x (xs ++ [d]) (by rw [hx]; rfl)) (List.cons_ne_nil c cs)
        refine ⟨by omega, ?_⟩
        rw [decimalText, ← Nat.toDigits_append_toDigits (by norm_num) hpos hlt, hsingle]
        exact congrArg (· ++ [d]) htext

/-- The digits of an integer that was read are those it is written with. -/
lemma scanWhole_eq_some {text ds rest : List Char} (h : scanWhole text = some (ds, rest)) :
    text = ds ++ rest ∧ ds ≠ [] ∧ decimalText (Nat.ofDigitChars 10 ds 0) = ds := by
  rcases text with _ | ⟨c, cs⟩
  · simp [scanWhole, scanDigits] at h
  · by_cases hc : c = '0'
    · subst hc
      obtain ⟨rfl, rfl⟩ := Prod.mk.inj (Option.some.inj h)
      exact ⟨rfl, by simp, decimalText_zero⟩
    · rw [scanWhole_of_ne hc] at h
      obtain ⟨htext, hne, hds⟩ := scanDigits_eq_some h
      refine ⟨htext, hne, (decimalText_ofDigitChars hds ?_ hne).2⟩
      rintro x xs rfl
      rw [List.cons_append] at htext
      rwa [← (List.cons.inj htext).1]

/-! ### The grammar -/

variable (fl)

/-- A text starts with a string, an array or an object. -/
def Opens (text : List Char) : Prop := ∃ c cs, text = c :: cs ∧ (c = '"' ∨ c = '[' ∨ c = '{')

mutual

/-- A text starts with a value, and the rest follows it. -/
inductive Reads : List Char → Value F → List Char → Prop where
  | scalar {text v rest} : ¬ Opens text → scanScalar fl unlimited text = .ok (v, rest) →
      Reads text v rest
  | string {text s rest} : scanString text = some (s, rest) → Reads ('"' :: text) (.str s) rest
  | emptyArray {text rest} : skipWhitespace text = ']' :: rest → Reads ('[' :: text) (.arr []) rest
  | array {text items rest} : (∀ cs, skipWhitespace text ≠ ']' :: cs) →
      ReadsItems (skipWhitespace text) items rest → Reads ('[' :: text) (.arr items) rest
  | emptyObject {text rest} : skipWhitespace text = '}' :: rest →
      Reads ('{' :: text) (.obj []) rest
  | object {text members rest} : (∀ cs, skipWhitespace text ≠ '}' :: cs) →
      ReadsMembers (skipWhitespace text) members rest → Reads ('{' :: text) (.obj members) rest

/-- A text starts with the items of an array and its end. -/
inductive ReadsItems : List Char → List (Value F) → List Char → Prop where
  | last {text v next rest} : Reads text v next → skipWhitespace next = ']' :: rest →
      ReadsItems text [v] rest
  | cons {text v next more vs rest} : Reads text v next → skipWhitespace next = ',' :: more →
      ReadsItems (skipWhitespace more) vs rest → ReadsItems text (v :: vs) rest

/-- A text starts with the members of an object and its end. -/
inductive ReadsMembers : List Char → List (Str × Value F) → List Char → Prop where
  | last {text k colon value v next rest} : scanString text = some (k, colon) →
      skipWhitespace colon = ':' :: value → Reads (skipWhitespace value) v next →
      skipWhitespace next = '}' :: rest → ReadsMembers ('"' :: text) [(k, v)] rest
  | cons {text k colon value v next more ms rest} : scanString text = some (k, colon) →
      skipWhitespace colon = ':' :: value → Reads (skipWhitespace value) v next →
      skipWhitespace next = ',' :: more → ReadsMembers (skipWhitespace more) ms rest →
      ReadsMembers ('"' :: text) ((k, v) :: ms) rest

end

/-- A text is that of a value, but for white space around it. -/
def Denotes (text : List Char) (v : Value F) : Prop :=
  ∃ rest, Reads fl (skipWhitespace text) v rest ∧ skipWhitespace rest = []

/-! ### The parser reads what the grammar says -/

variable {fl}

@[simp] lemma enter_unlimited : unlimited.enter = .ok unlimited := rfl

@[simp] lemma checkDigits_unlimited (n : ℕ) : unlimited.checkDigits n = .ok () := rfl

lemma parseValue_scalar {text : List Char} (h : ¬ Opens text) (l : Limits) (fuel : ℕ) :
    parseValue fl l (fuel + 1) text = scanScalar fl l text := by
  rw [parseValue]
  · exact fun rest heq => h ⟨_, _, heq, by simp⟩
  · exact fun rest heq => h ⟨_, _, heq, by simp⟩
  · exact fun rest heq => h ⟨_, _, heq, by simp⟩

lemma parseValue_string {text rest : List Char} {s : Str} (h : scanString text = some (s, rest))
    (l : Limits) (fuel : ℕ) :
    parseValue fl l (fuel + 1) ('"' :: text) = .ok (.str s, rest) := by
  rw [parseValue, h]

/-! ### What is left of a text -/

lemma length_skipWhitespace_le (text : List Char) :
    (skipWhitespace text).length ≤ text.length :=
  (List.dropWhile_suffix _).sublist.length_le

lemma length_of_skipWhitespace {text rest : List Char} {c : Char}
    (h : skipWhitespace text = c :: rest) : rest.length < text.length := by
  have hle := length_skipWhitespace_le text
  rw [h, List.length_cons] at hle
  omega

lemma length_after_skipWhitespace {text rest : List Char} {c : Char}
    (h : skipWhitespace text = c :: rest) : (skipWhitespace rest).length < text.length :=
  (length_skipWhitespace_le rest).trans_lt (length_of_skipWhitespace h)

@[simp] lemma scanUnits_quote (rest : List Char) :
    scanUnits ('"' :: rest) = some ([], rest) := by
  rw [scanUnits.eq_def]
  rfl

lemma scanUnits_hex (h₁ h₂ h₃ h₄ : Char) (rest : List Char) :
    scanUnits ('\\' :: 'u' :: h₁ :: h₂ :: h₃ :: h₄ :: rest)
      = (hex4? h₁ h₂ h₃ h₄).bind fun u => (scanUnits rest).map fun p => (u :: p.1, p.2) := rfl

lemma scanUnits_escape {e : Char} {rest : List Char} (hu : ∀ h₁ h₂ h₃ h₄ more,
      e = 'u' → rest = h₁ :: h₂ :: h₃ :: h₄ :: more → False) :
    scanUnits ('\\' :: e :: rest)
      = (unescape? e).bind fun u => (scanUnits rest).map fun p => (u :: p.1, p.2) := by
  rw [scanUnits.eq_def]
  dsimp only
  rw [if_neg (by decide), if_pos rfl]
  split
  · next heq =>
    obtain ⟨he, hrest⟩ := List.cons.inj heq
    exact (hu _ _ _ _ _ he hrest).elim
  · next heq =>
    obtain ⟨he, hrest⟩ := List.cons.inj heq
    rw [he, hrest]
  · next heq => exact nomatch heq

lemma scanUnits_char {c : Char} {rest : List Char} (hq : c ≠ '"') (hb : c ≠ '\\') :
    scanUnits (c :: rest)
      = if c.toNat < 0x20 then none
        else (scanUnits rest).map fun p => (c.toNat :: p.1, p.2) := by
  rw [scanUnits.eq_def]
  dsimp only
  rw [if_neg hq, if_neg hb]

lemma scanUnits_length {text rest : List Char} {us : List ℕ} (h : scanUnits text = some (us, rest)) :
    rest.length < text.length := by
  induction text using scanUnits.induct generalizing us with
  | case1 => exact absurd h (Option.some_ne_none _).symm
  | case2 more =>
      rw [scanUnits_quote] at h
      obtain ⟨-, rfl⟩ := Prod.mk.inj (Option.some.inj h)
      exact Nat.lt_succ_self _
  | case3 h₁ h₂ h₃ h₄ more hne ih =>
      rw [scanUnits_hex, Option.bind_eq_some_iff] at h
      obtain ⟨u, -, h⟩ := h
      obtain ⟨⟨vs, next⟩, hmore, heq⟩ := Option.map_eq_some_iff.1 h
      obtain ⟨-, rfl⟩ := Prod.mk.inj heq
      exact (ih hmore).trans (by simp only [List.length_cons]; omega)
  | case4 e more hu hne ih =>
      rw [scanUnits_escape hu, Option.bind_eq_some_iff] at h
      obtain ⟨u, -, h⟩ := h
      obtain ⟨⟨vs, next⟩, hmore, heq⟩ := Option.map_eq_some_iff.1 h
      obtain ⟨-, rfl⟩ := Prod.mk.inj heq
      exact (ih hmore).trans (by simp only [List.length_cons]; omega)
  | case5 hne => exact absurd h (Option.some_ne_none _).symm
  | case6 c more hq hb hlow =>
      rw [scanUnits_char hq hb, if_pos hlow] at h
      exact nomatch h
  | case7 c more hq hb hlow ih =>
      rw [scanUnits_char hq hb, if_neg hlow] at h
      obtain ⟨⟨vs, next⟩, hmore, heq⟩ := Option.map_eq_some_iff.1 h
      obtain ⟨-, rfl⟩ := Prod.mk.inj heq
      exact (ih hmore).trans (Nat.lt_succ_self _)

lemma scanString_length {text rest : List Char} {s : Str} (h : scanString text = some (s, rest)) :
    rest.length < text.length := by
  obtain ⟨⟨us, next⟩, hunits, heq⟩ := Option.map_eq_some_iff.1 h
  obtain ⟨-, rfl⟩ := Prod.mk.inj heq
  exact scanUnits_length hunits

lemma scanFraction_length (text : List Char) : (scanFraction text).2.length ≤ text.length := by
  rw [scanFraction.eq_def]
  split
  · split
    · next hds =>
      rw [(scanDigits_eq_some hds).1]
      simp only [List.length_cons, List.length_append]
      omega
    · exact le_rfl
  · exact le_rfl

lemma scanSign_length (text : List Char) : (scanSign text).2.length ≤ text.length := by
  rw [scanSign.eq_def]
  split <;> simp

lemma scanExponent_length (text : List Char) : (scanExponent text).2.length ≤ text.length := by
  rw [scanExponent.eq_def]
  split
  · next rest =>
    split
    · split
      · next hds =>
        have hsign := scanSign_length rest
        rw [(scanDigits_eq_some hds).1, List.length_append] at hsign
        simp only [List.length_cons]
        omega
      · exact le_rfl
    · exact le_rfl
  · exact le_rfl

lemma scanTail_length (text : List Char) : (scanTail text).2.length ≤ text.length :=
  (scanExponent_length _).trans (scanFraction_length text)

/-! ### The grammar and the limits -/

lemma scanNumber_eq_ok {negative : Bool} {text rest : List Char} {v : Value F}
    (h : scanNumber fl unlimited negative text = .ok (v, rest)) :
    rest.length < text.length ∧
      ∀ l, scanNumber fl l negative text = (do v.check l; return (v, rest)) := by
  rw [scanNumber] at h
  split at h
  · exact nomatch h
  · next whole next hwhole =>
    obtain ⟨htext, hne, hdigits⟩ := scanWhole_eq_some hwhole
    have hlt : next.length < text.length := by
      rw [htext, List.length_append]
      exact Nat.lt_add_of_pos_left (List.length_pos_of_ne_nil hne)
    split at h
    · next htail =>
      cases h
      refine ⟨hlt, fun l => ?_⟩
      rw [scanNumber, hwhole]
      dsimp only
      rw [if_pos htail, Value.check]
      have habs : (if negative = true then -(Nat.ofDigitChars 10 whole 0 : ℤ)
          else (Nat.ofDigitChars 10 whole 0 : ℤ)).natAbs = Nat.ofDigitChars 10 whole 0 := by
        split <;> simp
      rw [habs, hdigits]
    · next htail =>
      cases h
      refine ⟨(scanTail_length next).trans_lt hlt, fun l => ?_⟩
      rw [scanNumber, hwhole]
      dsimp only
      rw [if_neg htail]
      rfl

lemma scanConstant_eq_some {text rest : List Char} {v : Value F}
    (h : scanConstant fl text = some (v, rest)) :
    rest.length < text.length ∧ ∀ l, v.check l = .ok () := by
  rw [scanConstant.eq_def] at h
  split at h <;> cases h
  all_goals exact ⟨by simp only [List.length_cons]; omega, fun l => rfl⟩

lemma scanMinus_length (text : List Char) : (scanMinus text).2.length ≤ text.length := by
  rw [scanMinus.eq_def]
  split <;> simp

lemma scanScalar_eq_ok {text rest : List Char} {v : Value F}
    (h : scanScalar fl unlimited text = .ok (v, rest)) :
    rest.length < text.length ∧ ∀ l, scanScalar fl l text = (do v.check l; return (v, rest)) := by
  rw [scanScalar] at h
  split at h
  · next w next hconstant =>
    cases h
    obtain ⟨hlt, hcheck⟩ := scanConstant_eq_some hconstant
    refine ⟨hlt, fun l => ?_⟩
    rw [scanScalar, hconstant, hcheck]
    rfl
  · next hconstant =>
    obtain ⟨hlt, hcheck⟩ := scanNumber_eq_ok h
    refine ⟨hlt.trans_le (scanMinus_length text), fun l => ?_⟩
    rw [scanScalar, hconstant]
    exact hcheck l

mutual

lemma Reads.length_lt {text rest : List Char} {v : Value F} :
    Reads fl text v rest → rest.length < text.length
  | .scalar _ h => (scanScalar_eq_ok h).1
  | .string h => (scanString_length h).trans (Nat.lt_succ_self _)
  | .emptyArray h => (length_of_skipWhitespace h).trans (Nat.lt_succ_self _)
  | .array _ h =>
      (h.length_lt.trans_le (length_skipWhitespace_le _)).trans (Nat.lt_succ_self _)
  | .emptyObject h => (length_of_skipWhitespace h).trans (Nat.lt_succ_self _)
  | .object _ h =>
      (h.length_lt.trans_le (length_skipWhitespace_le _)).trans (Nat.lt_succ_self _)

lemma ReadsItems.length_lt {text rest : List Char} {vs : List (Value F)} :
    ReadsItems fl text vs rest → rest.length < text.length
  | .last hv hend => (length_of_skipWhitespace hend).trans hv.length_lt
  | .cons hv hnext hvs =>
      (hvs.length_lt.trans (length_after_skipWhitespace hnext)).trans hv.length_lt

lemma ReadsMembers.length_lt {text rest : List Char} {ms : List (Str × Value F)} :
    ReadsMembers fl text ms rest → rest.length < text.length
  | .last hk hcolon hv hend =>
      ((length_of_skipWhitespace hend).trans hv.length_lt).trans
        ((length_after_skipWhitespace hcolon).trans
          ((scanString_length hk).trans (Nat.lt_succ_self _)))
  | .cons hk hcolon hv hnext hms =>
      ((hms.length_lt.trans (length_after_skipWhitespace hnext)).trans hv.length_lt).trans
        ((length_after_skipWhitespace hcolon).trans
          ((scanString_length hk).trans (Nat.lt_succ_self _)))

end

lemma parseValue_emptyArray {text rest : List Char} (h : skipWhitespace text = ']' :: rest)
    (l : Limits) (fuel : ℕ) :
    parseValue fl l (fuel + 1) ('[' :: text) = (do let _ ← l.enter; return (.arr [], rest)) := by
  rw [parseValue, h]
  rfl

lemma parseValue_array {text : List Char} (h : ∀ cs, skipWhitespace text ≠ ']' :: cs)
    (l : Limits) (fuel : ℕ) :
    parseValue fl l (fuel + 1) ('[' :: text) = (do
      let l ← l.enter
      let p ← parseItems fl l fuel (skipWhitespace text)
      return (.arr p.1, p.2)) := by
  rw [parseValue]
  refine bind_congr fun l => ?_
  split
  · next rest heq => exact absurd heq (h rest)
  · rfl

lemma parseValue_emptyObject {text rest : List Char} (h : skipWhitespace text = '}' :: rest)
    (l : Limits) (fuel : ℕ) :
    parseValue fl l (fuel + 1) ('{' :: text) = (do let _ ← l.enter; return (.obj [], rest)) := by
  rw [parseValue, h]
  rfl

lemma parseValue_object {text : List Char} (h : ∀ cs, skipWhitespace text ≠ '}' :: cs)
    (l : Limits) (fuel : ℕ) :
    parseValue fl l (fuel + 1) ('{' :: text) = (do
      let l ← l.enter
      let p ← parseMembers fl l fuel (skipWhitespace text)
      return (.obj p.1, p.2)) := by
  rw [parseValue]
  refine bind_congr fun l => ?_
  split
  · next rest heq => exact absurd heq (h rest)
  · rfl

lemma parseMembers_key {text colon value : List Char} {k : Str}
    (hk : scanString text = some (k, colon)) (hcolon : skipWhitespace colon = ':' :: value)
    (l : Limits) (fuel : ℕ) :
    parseMembers fl l (fuel + 1) ('"' :: text) = (do
      let (v, rest) ← parseValue fl l fuel (skipWhitespace value)
      match skipWhitespace rest with
      | ',' :: rest => do
          let (ms, rest) ← parseMembers fl l fuel (skipWhitespace rest)
          return ((k, v) :: ms, rest)
      | '}' :: rest => return ([(k, v)], rest)
      | _ => .error .jsonDecodeError) := by
  rw [parseMembers, hk]
  dsimp only
  rw [hcolon]
  rfl

mutual

/-- The parser reads what the grammar says, unless the value exceeds a limit. -/
theorem Reads.parse {text rest : List Char} {v : Value F} :
    Reads fl text v rest → ∀ l fuel, 2 * text.length ≤ fuel →
      parseValue fl l fuel text = (do v.check l; return (v, rest))
  | .scalar ho h, l, fuel, hfuel => by
      obtain ⟨hlt, hcheck⟩ := scanScalar_eq_ok h
      obtain ⟨fuel, rfl⟩ := Nat.exists_eq_add_one.2 (show 0 < fuel by omega)
      rw [parseValue_scalar ho, hcheck]
  | .string h, l, fuel, hfuel => by
      rw [List.length_cons] at hfuel
      obtain ⟨fuel, rfl⟩ := Nat.exists_eq_add_one.2 (show 0 < fuel by omega)
      rw [parseValue_string h]
      rfl
  | .emptyArray h, l, fuel, hfuel => by
      rw [List.length_cons] at hfuel
      obtain ⟨fuel, rfl⟩ := Nat.exists_eq_add_one.2 (show 0 < fuel by omega)
      rw [parseValue_emptyArray h, Value.check, bind_assoc]
      rfl
  | @Reads.array _ _ text _ _ hne h, l, fuel, hfuel => by
      rw [List.length_cons] at hfuel
      have hskip := length_skipWhitespace_le text
      obtain ⟨fuel, rfl⟩ := Nat.exists_eq_add_one.2 (show 0 < fuel by omega)
      rw [parseValue_array hne, Value.check, bind_assoc]
      refine bind_congr fun l => ?_
      rw [h.parse l fuel (by omega), bind_assoc]
      rfl
  | .emptyObject h, l, fuel, hfuel => by
      rw [List.length_cons] at hfuel
      obtain ⟨fuel, rfl⟩ := Nat.exists_eq_add_one.2 (show 0 < fuel by omega)
      rw [parseValue_emptyObject h, Value.check, bind_assoc]
      rfl
  | @Reads.object _ _ text _ _ hne h, l, fuel, hfuel => by
      rw [List.length_cons] at hfuel
      have hskip := length_skipWhitespace_le text
      obtain ⟨fuel, rfl⟩ := Nat.exists_eq_add_one.2 (show 0 < fuel by omega)
      rw [parseValue_object hne, Value.check, bind_assoc]
      refine bind_congr fun l => ?_
      rw [h.parse l fuel (by omega), bind_assoc]
      rfl

theorem ReadsItems.parse {text rest : List Char} {vs : List (Value F)} :
    ReadsItems fl text vs rest → ∀ l fuel, 2 * text.length + 1 ≤ fuel →
      parseItems fl l fuel text = (do checkItems l vs; return (vs, rest))
  | .last hv hend, l, fuel, hfuel => by
      obtain ⟨fuel, rfl⟩ := Nat.exists_eq_add_one.2 (show 0 < fuel by omega)
      rw [parseItems, hv.parse l fuel (by omega), checkItems, checkItems]
      simp only [bind_assoc, pure_bind, hend]
      rfl
  | .cons hv hnext hvs, l, fuel, hfuel => by
      obtain ⟨fuel, rfl⟩ := Nat.exists_eq_add_one.2 (show 0 < fuel by omega)
      have hlt := hv.length_lt
      have hmore := length_after_skipWhitespace hnext
      rw [parseItems, hv.parse l fuel (by omega), checkItems]
      simp only [bind_assoc, pure_bind, hnext]
      rw [hvs.parse l fuel (by omega)]
      simp only [bind_assoc, pure_bind]

theorem ReadsMembers.parse {text rest : List Char} {ms : List (Str × Value F)} :
    ReadsMembers fl text ms rest → ∀ l fuel, 2 * text.length + 1 ≤ fuel →
      parseMembers fl l fuel text = (do checkMembers l ms; return (ms, rest))
  | .last hk hcolon hv hend, l, fuel, hfuel => by
      rw [List.length_cons] at hfuel
      obtain ⟨fuel, rfl⟩ := Nat.exists_eq_add_one.2 (show 0 < fuel by omega)
      have hstring := scanString_length hk
      have hvalue := length_after_skipWhitespace hcolon
      rw [parseMembers_key hk hcolon, hv.parse l fuel (by omega), checkMembers, checkMembers]
      simp only [bind_assoc, pure_bind, hend]
      rfl
  | .cons hk hcolon hv hnext hms, l, fuel, hfuel => by
      rw [List.length_cons] at hfuel
      obtain ⟨fuel, rfl⟩ := Nat.exists_eq_add_one.2 (show 0 < fuel by omega)
      have hstring := scanString_length hk
      have hvalue := length_after_skipWhitespace hcolon
      have hlt := hv.length_lt
      have hmore := length_after_skipWhitespace hnext
      rw [parseMembers_key hk hcolon, hv.parse l fuel (by omega), checkMembers]
      simp only [bind_assoc, pure_bind, hnext]
      rw [hms.parse l fuel (by omega)]
      simp only [bind_assoc, pure_bind]

end

mutual

@[simp] lemma Value.check_unlimited : ∀ v : Value F, v.check unlimited = .ok ()
  | .null | .bool _ | .int _ | .float _ | .str _ => rfl
  | .arr items => by
      rw [Value.check, enter_unlimited]
      exact checkItems_unlimited items
  | .obj members => by
      rw [Value.check, enter_unlimited]
      exact checkMembers_unlimited members

lemma checkItems_unlimited : ∀ vs : List (Value F), checkItems unlimited vs = .ok ()
  | [] => rfl
  | v :: vs => by
      rw [checkItems, v.check_unlimited]
      exact checkItems_unlimited vs

lemma checkMembers_unlimited : ∀ ms : List (Str × Value F), checkMembers unlimited ms = .ok ()
  | [] => rfl
  | (_, v) :: ms => by
      rw [checkMembers, v.check_unlimited]
      exact checkMembers_unlimited ms

end

lemma enter_ne_jsonDecodeError (l : Limits) : l.enter ≠ .error .jsonDecodeError := by
  intro h
  unfold Limits.enter at h
  split at h <;> exact nomatch h

lemma bind_ne_error {ε A B : Type} {x : Except ε A} {f : A → Except ε B} {e : ε}
    (hx : x ≠ .error e) (hf : ∀ a, f a ≠ .error e) : x >>= f ≠ .error e := by
  cases x with
  | error d =>
      intro h
      refine hx (congrArg _ ?_)
      exact Except.error.inj h
  | ok a => exact hf a

mutual

/-- A limit that is exceeded is not reported as a text that is no JSON. -/
lemma Value.check_ne_jsonDecodeError : ∀ (v : Value F) (l : Limits),
    v.check l ≠ .error .jsonDecodeError
  | .null, _ | .bool _, _ | .float _, _ | .str _, _ => nofun
  | .int n, l => by
      rw [Value.check, Limits.checkDigits]
      split <;> exact nofun
  | .arr items, l => by
      rw [Value.check]
      exact bind_ne_error (enter_ne_jsonDecodeError l) (checkItems_ne_jsonDecodeError items)
  | .obj members, l => by
      rw [Value.check]
      exact bind_ne_error (enter_ne_jsonDecodeError l) (checkMembers_ne_jsonDecodeError members)

lemma checkItems_ne_jsonDecodeError : ∀ (vs : List (Value F)) (l : Limits),
    checkItems l vs ≠ .error .jsonDecodeError
  | [], _ => nofun
  | v :: vs, l => by
      rw [checkItems]
      exact bind_ne_error (v.check_ne_jsonDecodeError l) fun _ => checkItems_ne_jsonDecodeError vs l

lemma checkMembers_ne_jsonDecodeError : ∀ (ms : List (Str × Value F)) (l : Limits),
    checkMembers l ms ≠ .error .jsonDecodeError
  | [], _ => nofun
  | (_, v) :: ms, l => by
      rw [checkMembers]
      exact bind_ne_error (v.check_ne_jsonDecodeError l) fun _ =>
        checkMembers_ne_jsonDecodeError ms l

end

/-- A text that denotes a value is read as that value, unless the value exceeds a limit. -/
theorem Denotes.parse {text : List Char} {v : Value F} (h : Denotes fl text v) (l : Limits) :
    parse fl l text = (do v.check l; return v) := by
  obtain ⟨rest, hreads, hend⟩ := h
  rw [Json.parse, hreads.parse l _ le_rfl]
  simp only [bind_assoc, pure_bind, hend, if_true]

end Python.Json
