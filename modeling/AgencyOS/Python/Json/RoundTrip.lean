import AgencyOS.Python.Json.Grammar

/-!
Writing a JSON value and reading it back.

* `Value.Proper`: the values that a decoder can answer with;
* `reads_render`: what is written of a proper value denotes it.
-/

namespace Python.Json

variable {F : Type} {fl : Floats F}

/-! ### What `dumps` has written -/

/-- A number ends where an item or a container ends. -/
lemma Stops.cons {c : Char} {cs : List Char} (h : c = ',' ∨ c = ']' ∨ c = '}') :
    Stops (c :: cs) := by
  intro d ds heq
  rwa [← (List.cons.inj heq).1]

lemma Stops.isDigit {rest : List Char} (h : Stops rest) (c : Char) (cs : List Char)
    (heq : rest = c :: cs) : isDigit c = false := by
  rcases h c cs heq with rfl | rfl | rfl <;> rfl

lemma Stops.scanTail {rest : List Char} (h : Stops rest) : scanTail rest = ([], rest) := by
  rcases rest with _ | ⟨c, cs⟩
  · rfl
  · rcases h c cs rfl with rfl | rfl | rfl <;> rfl

lemma hexValue?_digitChar {d : ℕ} (h : d < 16) : hexValue? (Nat.digitChar d) = some d := by
  interval_cases d <;> rfl

/-- Four hexadecimal digits are read as the code unit they were written for. -/
lemma scanUnits_hexDigits {u : ℕ} (h : u < 0x10000) (rest : List Char) :
    scanUnits ('\\' :: 'u' :: (hexDigits 4 u ++ rest))
      = (scanUnits rest).map fun p => (u :: p.1, p.2) := by
  have hdigits : hexDigits 4 u = [Nat.digitChar (u / 16 / 16 / 16 % 16),
      Nat.digitChar (u / 16 / 16 % 16), Nat.digitChar (u / 16 % 16), Nat.digitChar (u % 16)] := rfl
  have hunit : hex4? (Nat.digitChar (u / 16 / 16 / 16 % 16)) (Nat.digitChar (u / 16 / 16 % 16))
      (Nat.digitChar (u / 16 % 16)) (Nat.digitChar (u % 16)) = some u := by
    simp only [hex4?, hexValue?_digitChar (Nat.mod_lt _ (by norm_num : 0 < 16)), Option.bind_eq_bind,
      Option.bind_some, Option.pure_def, Option.some.injEq]
    omega
  rw [hdigits]
  simp only [List.cons_append, List.nil_append]
  rw [scanUnits_hex, hunit, Option.bind_some]

lemma toNat_ofNat_of_lt {u : ℕ} (h : u < 128) : (Char.ofNat u).toNat = u := by
  have key : ∀ u : Fin 128, (Char.ofNat u).toNat = u := by decide
  exact key ⟨u, h⟩

/-- A code unit is read as it was written. -/
lemma scanUnits_escaped {u : ℕ} (h : u < 0x10000) (rest : List Char) :
    scanUnits (escape u ++ rest) = (scanUnits rest).map fun p => (u :: p.1, p.2) := by
  unfold escape
  split_ifs with h₁ h₂ h₃ h₄ h₅ h₆ h₇ h₈
  · subst h₁
    rfl
  · subst h₂
    rfl
  · subst h₃
    rfl
  · subst h₄
    rfl
  · subst h₅
    rfl
  · subst h₆
    rfl
  · subst h₇
    rfl
  · rw [Bool.and_eq_true, decide_eq_true_iff, decide_eq_true_iff] at h₈
    have hnat : (Char.ofNat u).toNat = u := toNat_ofNat_of_lt (by omega)
    have hne : ∀ c : Char, c.toNat ≠ u → Char.ofNat u ≠ c := by
      rintro c hc rfl
      exact hc hnat
    rw [List.cons_append, List.nil_append,
      scanUnits_char (hne '"' (fun h => h₁ h.symm)) (hne '\\' (fun h => h₂ h.symm)), hnat,
      if_neg (by omega)]
  · exact scanUnits_hexDigits h rest

lemma scanUnits_flatMap {us : List ℕ} (h : ∀ u ∈ us, u < 0x10000) (rest : List Char) :
    scanUnits (us.flatMap escape ++ '"' :: rest) = some (us, rest) := by
  induction us with
  | nil => exact scanUnits_quote rest
  | cons u us ih =>
      rw [List.flatMap_cons, List.append_assoc, scanUnits_escaped (h u List.mem_cons_self),
        ih fun w hw => h w (List.mem_cons_of_mem u hw)]
      rfl

lemma codeUnits_lt {c : ℕ} (h : c < 0x110000) : ∀ u ∈ codeUnits c, u < 0x10000 := by
  intro u hu
  unfold codeUnits at hu
  split_ifs at hu
  · rw [List.mem_singleton] at hu
    omega
  · rw [List.mem_cons, List.mem_singleton] at hu
    omega

lemma joinSurrogates_cons {h : ℕ} {us : List ℕ}
    (hpair : ∀ l ∈ us.head?, ¬ (isHighSurrogate h = true ∧ isLowSurrogate l = true)) :
    joinSurrogates (h :: us) = h :: joinSurrogates us := by
  rcases us with _ | ⟨l, us⟩
  · rfl
  · rw [joinSurrogates, if_neg]
    rw [Bool.and_eq_true]
    exact hpair l rfl

/-- The first code unit of a code point beyond the basic plane is no low surrogate. -/
lemma isLowSurrogate_head {c l : ℕ} {us : List ℕ} (hlt : c < 0x110000)
    (h : l ∈ (codeUnits c ++ us).head?) (hl : isLowSurrogate l = true) : l = c := by
  unfold codeUnits at h
  split_ifs at h
  · exact (Option.some.inj h).symm
  · have heq : 0xd800 + (c - 0x10000) / 0x400 = l := Option.some.inj h
    rw [isLowSurrogate, Bool.and_eq_true, decide_eq_true_iff, decide_eq_true_iff] at hl
    omega

/-- The code points are put together again from their code units. -/
lemma joinSurrogates_flatMap {s : Str} (h : properStr s) :
    joinSurrogates (s.flatMap codeUnits) = s := by
  obtain ⟨hlt, hchain⟩ := h
  induction s with
  | nil => rfl
  | cons c s ih =>
      have htail := ih (fun d hd => hlt d (List.mem_cons_of_mem c hd)) hchain.tail
      rw [List.flatMap_cons]
      by_cases hc : c < 0x10000
      · rw [codeUnits, if_pos hc, List.singleton_append, joinSurrogates_cons, htail]
        rintro l hl ⟨hhigh, hlow⟩
        rcases s with _ | ⟨d, s⟩
        · exact nomatch hl
        · rw [List.flatMap_cons] at hl
          cases isLowSurrogate_head (hlt d (by simp)) hl hlow
          exact (List.isChain_cons_cons.1 hchain).1 ⟨hhigh, hlow⟩
      · have hmax := hlt c List.mem_cons_self
        have hhigh : isHighSurrogate (0xd800 + (c - 0x10000) / 0x400) = true := by
          rw [isHighSurrogate, Bool.and_eq_true, decide_eq_true_iff, decide_eq_true_iff]
          omega
        have hlow : isLowSurrogate (0xdc00 + (c - 0x10000) % 0x400) = true := by
          rw [isLowSurrogate, Bool.and_eq_true, decide_eq_true_iff, decide_eq_true_iff]
          omega
        have hvalue : 0x10000 + (0xd800 + (c - 0x10000) / 0x400 - 0xd800) * 0x400
            + (0xdc00 + (c - 0x10000) % 0x400 - 0xdc00) = c := by omega
        rw [codeUnits, if_neg hc, List.cons_append, List.singleton_append, joinSurrogates,
          if_pos (by rw [hhigh, hlow]; rfl), htail, hvalue]

/-- A string is read as it was written. -/
theorem scanString_renderString {s : Str} (h : properStr s) (rest : List Char) :
    scanString (renderString s ++ rest) = some (s, rest) := by
  have hunits : ∀ u ∈ s.flatMap codeUnits, u < 0x10000 := by
    intro u hu
    obtain ⟨c, hc, hu⟩ := List.mem_flatMap.1 hu
    exact codeUnits_lt (h.1 c hc) u hu
  rw [scanString, renderString, List.append_assoc, List.singleton_append,
    scanUnits_flatMap hunits, Option.map_some]
  exact congrArg (fun s => some (s, rest)) (joinSurrogates_flatMap h)

mutual

/-- The values that a decoder can answer with: the strings are put together, and the keys of an
object are distinct. -/
def Value.Proper {F : Type} : Value F → Prop
  | .null | .bool _ | .int _ | .float _ => True
  | .str s => properStr s
  | .arr items => properItems items
  | .obj members => (members.map Prod.fst).Nodup ∧ properMembers members

def properItems {F : Type} : List (Value F) → Prop
  | [] => True
  | v :: vs => v.Proper ∧ properItems vs

def properMembers {F : Type} : List (Str × Value F) → Prop
  | [] => True
  | (k, v) :: ms => properStr k ∧ v.Proper ∧ properMembers ms

end

lemma stops_renderItems (vs : List (Value F)) (rest : List Char) :
    Stops (renderItems fl vs rest) := by
  rcases vs with _ | ⟨v, vs⟩
  · exact .cons (by simp)
  · rw [renderItems]
    exact .cons (by simp)

lemma stops_renderMembers (ms : List (Str × Value F)) (rest : List Char) :
    Stops (renderMembers fl ms rest) := by
  rcases ms with _ | ⟨⟨k, v⟩, ms⟩
  · exact .cons (by simp)
  · rw [renderMembers]
    exact .cons (by simp)

/-- What a value may start with: no white space, and no end of an array. -/
def Starts (text : List Char) : Prop := ∃ c cs, text = c :: cs ∧ isWhitespace c = false ∧ c ≠ ']'

lemma Starts.skipWhitespace {text : List Char} (h : Starts text) : skipWhitespace text = text := by
  obtain ⟨c, cs, rfl, hc, -⟩ := h
  rw [Json.skipWhitespace, List.dropWhile_cons_of_neg (by simp [hc])]

lemma Starts.ne_bracket {cs : List Char} : ¬ Starts (']' :: cs) := by
  rintro ⟨c, ds, heq, -, hc⟩
  exact hc (List.cons.inj heq).1.symm

lemma not_opens {c : Char} {cs : List Char} (h : c ≠ '"' ∧ c ≠ '[' ∧ c ≠ '\x7b') :
    ¬ Opens (c :: cs) := by
  rintro ⟨d, ds, heq, hd⟩
  rw [← (List.cons.inj heq).1] at hd
  tauto

/-- A text starts with a digit. -/
def Digital (text : List Char) : Prop := ∃ c cs, text = c :: cs ∧ isDigit c = true

lemma digital_decimalText (n : ℕ) (rest : List Char) : Digital (decimalText n ++ rest) := by
  obtain ⟨c, cs, hcs⟩ := List.exists_cons_of_ne_nil (Nat.toDigits_ne_nil (n := n) (b := 10))
  refine ⟨c, cs ++ rest, by rw [decimalText, hcs, List.cons_append], ?_⟩
  refine isDigit_of_mem_decimalText (n := n) ?_
  rw [decimalText, hcs]
  exact List.mem_cons_self

/-- A number with its sign. -/
def signed (negative : Bool) (text : List Char) : List Char :=
  (if negative then ['-'] else []) ++ text

lemma Digital.starts {text : List Char} (h : Digital text) (negative : Bool) :
    Starts (signed negative text) := by
  obtain ⟨c, cs, rfl, hc⟩ := h
  cases negative with
  | true => exact ⟨'-', c :: cs, rfl, by decide, by decide⟩
  | false =>
      refine ⟨c, cs, rfl, ?_, ?_⟩
      · by_contra hw
        rw [Bool.not_eq_false, isWhitespace] at hw
        simp only [Bool.or_eq_true, decide_eq_true_iff] at hw
        obtain ((rfl | rfl) | rfl) | rfl := hw <;> exact absurd hc (by decide)
      · rintro rfl
        exact absurd hc (by decide)

lemma Digital.not_opens {text : List Char} (h : Digital text) (negative : Bool) :
    ¬ Opens (signed negative text) := by
  obtain ⟨c, cs, rfl, hc⟩ := h
  rintro ⟨d, ds, heq, hd⟩
  cases negative with
  | true =>
      rw [← (List.cons.inj heq).1] at hd
      exact absurd hd (by decide)
  | false =>
      rw [← (List.cons.inj heq).1] at hd
      obtain rfl | rfl | rfl := hd <;> exact absurd hc (by decide)

lemma Digital.scanScalar {text : List Char} (h : Digital text) (negative : Bool) (l : Limits) :
    scanScalar fl l (signed negative text) = scanNumber fl l negative text := by
  obtain ⟨c, cs, rfl, hc⟩ := h
  have hconstant : scanConstant fl (signed negative (c :: cs)) = none := by
    rw [scanConstant.eq_def]
    split <;> first | rfl | skip
    all_goals
      next heq =>
      cases negative with
      | true => first | (cases heq; exact absurd hc (by decide)) | cases heq
      | false => cases heq; exact absurd hc (by decide)
  have hminus : scanMinus (signed negative (c :: cs)) = (negative, c :: cs) := by
    cases negative with
    | true => rfl
    | false =>
        rw [scanMinus.eq_def]
        split
        · next heq =>
          cases heq
          exact absurd hc (by decide)
        · rfl
  rw [Json.scanScalar, hconstant, hminus]

lemma reads_int (n : ℤ) {rest : List Char} (h : Stops rest) :
    Reads fl (render fl (.int n) rest) (.int n) rest := by
  have hdigital := digital_decimalText n.natAbs rest
  have htext : render fl (.int n) rest = signed (decide (n < 0)) (decimalText n.natAbs ++ rest) := by
    simp only [render, signed, decide_eq_true_iff, List.append_assoc]
  rw [htext]
  refine .scalar (hdigital.not_opens _) ?_
  rw [hdigital.scanScalar, scanNumber, scanWhole_decimalText _ h.isDigit]
  dsimp only
  rw [if_pos (by rw [h.scanTail]), checkDigits_unlimited, decimalText, Nat.ofDigitChars_ten_toDigits]
  have hvalue : (if decide (n < 0) = true then -(n.natAbs : ℤ) else (n.natAbs : ℤ)) = n := by
    split_ifs with hneg <;> simp at hneg <;> omega
  rw [hvalue]
  rfl

/-- The rest of a float does not start with a digit. -/
lemma isDigit_of_scanTail {tail rest : List Char} (hne : tail ≠ [])
    (h : scanTail (tail ++ rest) = (tail, rest)) (c : Char) (cs : List Char)
    (heq : tail ++ rest = c :: cs) : isDigit c = false := by
  by_contra hc
  rw [Bool.not_eq_false] at hc
  have hfraction : scanFraction (c :: cs) = ([], c :: cs) := by
    rw [scanFraction.eq_def]
    split
    · next hdot =>
      cases hdot
      exact absurd hc (by decide)
    · rfl
  have hexponent : scanExponent (c :: cs) = ([], c :: cs) := by
    rw [scanExponent.eq_def]
    dsimp only
    rw [if_neg]
    intro he
    rw [Bool.or_eq_true, decide_eq_true_iff, decide_eq_true_iff] at he
    obtain rfl | rfl := he <;> exact absurd hc (by decide)
  rw [heq, scanTail, hfraction] at h
  dsimp only at h
  rw [hexponent] at h
  exact hne (Prod.mk.inj h).1.symm

lemma FloatText.render_decimal (negative : Bool) (whole : ℕ) (tail rest : List Char) :
    (FloatText.decimal negative whole tail).render ++ rest
      = signed negative (decimalText whole ++ (tail ++ rest)) := by
  rw [FloatText.render, signed, List.append_assoc, List.append_assoc]

lemma reads_float (x : F) {rest : List Char} (h : Stops rest) :
    Reads fl (render fl (.float x) rest) (.float x) rest := by
  have hfloat := fl.float_repr x
  have hread : fl.float (fl.repr x).render = x →
      (Except.ok (.float (fl.float (fl.repr x).render), rest) : Except Failure (Value F × List Char))
        = .ok (.float x, rest) := fun heq => by rw [heq]
  rw [render]
  rcases hx : fl.repr x with _ | negative | ⟨negative, whole, tail⟩
  · rw [hx] at hfloat hread
    exact .scalar (not_opens (by decide)) (hread hfloat)
  · rw [hx] at hfloat hread
    cases negative with
    | true => exact .scalar (not_opens (by decide)) (hread hfloat)
    | false => exact .scalar (not_opens (by decide)) (hread hfloat)
  · obtain ⟨hne, htail⟩ := fl.scan_repr x negative whole tail hx
    have hdigital := digital_decimalText whole (tail ++ rest)
    rw [hx, FloatText.render] at hfloat
    rw [FloatText.render_decimal]
    refine .scalar (hdigital.not_opens _) ?_
    rw [hdigital.scanScalar, scanNumber,
      scanWhole_decimalText _ (isDigit_of_scanTail hne (htail rest h))]
    dsimp only
    rw [htail rest h, if_neg hne, hfloat]

lemma render_starts (v : Value F) (rest : List Char) : Starts (render fl v rest) := by
  cases v with
  | null => exact ⟨'n', _, rfl, by decide, by decide⟩
  | bool b =>
      cases b with
      | true => exact ⟨'t', _, rfl, by decide, by decide⟩
      | false => exact ⟨'f', _, rfl, by decide, by decide⟩
  | int n =>
      have htext : render fl (.int n) rest
          = signed (decide (n < 0)) (decimalText n.natAbs ++ rest) := by
        simp only [render, signed, decide_eq_true_iff, List.append_assoc]
      rw [htext]
      exact (digital_decimalText _ _).starts _
  | float x =>
      rw [render]
      rcases fl.repr x with _ | negative | ⟨negative, whole, tail⟩
      · exact ⟨'N', _, rfl, by decide, by decide⟩
      · cases negative with
        | true => exact ⟨'-', _, rfl, by decide, by decide⟩
        | false => exact ⟨'I', _, rfl, by decide, by decide⟩
      · rw [FloatText.render_decimal]
        exact (digital_decimalText _ _).starts _
  | str s =>
      rw [render]
      exact ⟨'"', _, rfl, by decide, by decide⟩
  | arr items =>
      rcases items with _ | ⟨v, vs⟩ <;> rw [render] <;> exact ⟨'[', _, rfl, by decide, by decide⟩
  | obj members =>
      rcases members with _ | ⟨⟨k, v⟩, ms⟩ <;> rw [render] <;>
        exact ⟨'{', _, rfl, by decide, by decide⟩

lemma skipWhitespace_blank {text : List Char} (h : Starts text) :
    skipWhitespace (' ' :: text) = text := by
  rw [skipWhitespace, List.dropWhile_cons_of_pos (by decide)]
  exact h.skipWhitespace

lemma Reads.blank {v : Value F} {rest rest' : List Char}
    (h : Reads fl (render fl v rest) v rest') :
    Reads fl (skipWhitespace (' ' :: render fl v rest)) v rest' := by
  rw [skipWhitespace_blank (render_starts v rest)]
  exact h

mutual

/-- What is written of a proper value denotes it. -/
theorem reads_render : ∀ (v : Value F) (rest : List Char), v.Proper → Stops rest →
    Reads fl (render fl v rest) v rest
  | .null, rest, _, _ => .scalar (not_opens (by decide)) rfl
  | .bool true, rest, _, _ => .scalar (not_opens (by decide)) rfl
  | .bool false, rest, _, _ => .scalar (not_opens (by decide)) rfl
  | .int n, rest, _, h => reads_int n h
  | .float x, rest, _, h => reads_float x h
  | .str s, rest, hp, _ => by
      rw [render]
      exact .string (scanString_renderString hp rest)
  | .arr [], rest, _, _ => by
      rw [render]
      exact .emptyArray rfl
  | .arr (v :: vs), rest, hp, _ => by
      have hstarts := @render_starts _ fl v (renderItems fl vs rest)
      have hv := reads_render v (renderItems fl vs rest) hp.1 (stops_renderItems vs rest)
      rw [render]
      refine .array ?_ ?_
      · intro ds hds
        rw [hstarts.skipWhitespace] at hds
        exact Starts.ne_bracket (hds ▸ hstarts)
      · rw [hstarts.skipWhitespace]
        exact reads_renderItems vs _ v rest hp.2 hv
  | .obj [], rest, _, _ => by
      rw [render]
      exact .emptyObject rfl
  | .obj ((k, v) :: ms), rest, hp, _ => by
      obtain ⟨hk, hv, hms⟩ := hp.2
      rw [render]
      refine .object (fun cs hcs => nomatch hcs) ?_
      exact reads_renderMembers ms k v rest hk hms
        (reads_render v _ hv (stops_renderMembers ms rest))

theorem reads_renderItems : ∀ (vs : List (Value F)) (text : List Char) (v : Value F)
    (rest : List Char), properItems vs → Reads fl text v (renderItems fl vs rest) →
      ReadsItems fl text (v :: vs) rest
  | [], text, v, rest, _, hv => .last hv rfl
  | w :: ws, text, v, rest, hp, hv => by
      rw [renderItems] at hv
      refine .cons hv rfl ?_
      rw [skipWhitespace_blank (render_starts w _)]
      exact reads_renderItems ws _ w rest hp.2
        (reads_render w _ hp.1 (stops_renderItems ws rest))

theorem reads_renderMembers : ∀ (ms : List (Str × Value F)) (k : Str) (v : Value F)
    (rest : List Char), properStr k → properMembers ms →
      Reads fl (render fl v (renderMembers fl ms rest)) v (renderMembers fl ms rest) →
      ReadsMembers fl
        ('"' :: (renderString k ++ ':' :: ' ' :: render fl v (renderMembers fl ms rest)))
        ((k, v) :: ms) rest
  | [], k, v, rest, hk, _, hv => by
      have hread := hv.blank
      rw [renderMembers] at hread ⊢
      exact .last (scanString_renderString hk _) rfl hread rfl
  | (k', w) :: ms, k, v, rest, hk, hp, hv => by
      have hread := hv.blank
      rw [renderMembers] at hread ⊢
      exact .cons (scanString_renderString hk _) rfl hread rfl
        (reads_renderMembers ms k' w rest hp.1 hp.2.2
          (reads_render w _ hp.2.1 (stops_renderMembers ms rest)))

end

mutual

lemma Value.dicts_of_proper : ∀ v : Value F, v.Proper → v.dicts = v
  | .null, _ | .bool _, _ | .int _, _ | .float _, _ | .str _, _ => by rw [Value.dicts] <;> nofun
  | .arr items, h => by rw [Value.dicts, dictsItems_of_proper items h]
  | .obj members, h => by
      rw [Value.dicts, dictsMembers_of_proper members h.2, OrderedDict.items_ofItems h.1]

lemma dictsItems_of_proper : ∀ vs : List (Value F), properItems vs → dictsItems vs = vs
  | [], _ => rfl
  | v :: vs, h => by rw [dictsItems, v.dicts_of_proper h.1, dictsItems_of_proper vs h.2]

lemma dictsMembers_of_proper : ∀ ms : List (Str × Value F), properMembers ms → dictsMembers ms = ms
  | [], _ => rfl
  | (k, v) :: ms, h => by
      rw [dictsMembers, v.dicts_of_proper h.2.1, dictsMembers_of_proper ms h.2.2]

end

end Python.Json
