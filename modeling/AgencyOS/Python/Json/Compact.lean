import AgencyOS.Python.Json.RoundTrip

/-!
Compact JSON texts: `json.dumps` with `separators=(",", ":")`, with and without `ensure_ascii`.

A text is the list of its code points, which without `ensure_ascii` may be any.

* `compact`: the text of a value;
* `Value.surplus`: by how much `ensure_ascii` makes it longer;
* `length_compact_true`: **the two lengths differ by the surplus**;
* `utf8ByteSize_compact_true`: with `ensure_ascii` a text has as many bytes in UTF-8 as characters;
* `length_compact_member_le`: an object with one of the members of another is no longer.
-/

namespace Python.Json

/-- The code points of a text. -/
def points (cs : List Char) : Str := cs.map Char.toNat

/-- A code point of a string. -/
def escapePoint (ascii : Bool) (c : ℕ) : Str :=
  if ascii then points ((codeUnits c).flatMap escape)
  else if c < 0x20 || c = 0x22 || c = 0x5c then points (escape c)
  else [c]

def quoteString (ascii : Bool) (s : Str) : Str := 0x22 :: (s.flatMap (escapePoint ascii) ++ [0x22])

variable {F : Type} (fl : Floats F) (ascii : Bool)

mutual

/-- `json.dumps(value, separators=(",", ":"), ensure_ascii=ascii)`, of a value within the limits. -/
def compact : Value F → Str
  | .null => points ['n', 'u', 'l', 'l']
  | .bool true => points ['t', 'r', 'u', 'e']
  | .bool false => points ['f', 'a', 'l', 's', 'e']
  | .int n => points ((if n < 0 then ['-'] else []) ++ decimalText n.natAbs)
  | .float x => points (fl.repr x).render
  | .str s => quoteString ascii s
  | .arr [] => points ['[', ']']
  | .arr (v :: vs) => 0x5b :: (compact v ++ compactItems vs)
  | .obj [] => points ['{', '}']
  | .obj ((k, v) :: ms) => 0x7b :: (quoteString ascii k ++ 0x3a :: compact v ++ compactMembers ms)

/-- The items after the first one, and the end of the array. -/
def compactItems : List (Value F) → Str
  | [] => [0x5d]
  | v :: vs => 0x2c :: (compact v ++ compactItems vs)

/-- The members after the first one, and the end of the object. -/
def compactMembers : List (Str × Value F) → Str
  | [] => [0x7d]
  | (k, v) :: ms => 0x2c :: (quoteString ascii k ++ 0x3a :: compact v ++ compactMembers ms)

end

/-! ### The surplus of `ensure_ascii` -/

/-- What a code point is longer by: six characters for one, or twelve beyond the basic plane. -/
def surplusPoint (c : ℕ) : ℕ := if c < 0x7f then 0 else if c < 0x10000 then 5 else 11

def surplusStr (s : Str) : ℕ := (s.map surplusPoint).sum

mutual

def Value.surplus : Value F → ℕ
  | .str s => surplusStr s
  | .arr items => surplusItems items
  | .obj members => surplusMembers members
  | _ => 0

def surplusItems : List (Value F) → ℕ
  | [] => 0
  | v :: vs => v.surplus + surplusItems vs

def surplusMembers : List (Str × Value F) → ℕ
  | [] => 0
  | (k, v) :: ms => surplusStr k + v.surplus + surplusMembers ms

end

@[simp] lemma length_points (cs : List Char) : (points cs).length = cs.length := List.length_map _

/-- A code unit beyond ASCII is written as `\u` and four digits. -/
lemma length_escape_of_le {u : ℕ} (h : 0x7f ≤ u) : (escape u).length = 6 := by
  rw [escape]
  split_ifs with h₁ h₂ h₃ h₄ h₅ h₆ h₇ h₈
  all_goals first
    | omega
    | (simp only [Bool.and_eq_true, decide_eq_true_eq] at h₈; omega)
    | simp

lemma length_escape_of_lt {u : ℕ} (hlo : 0x20 ≤ u) (hhi : u < 0x7f) (hquote : u ≠ 0x22)
    (hslash : u ≠ 0x5c) : (escape u).length = 1 := by
  rw [escape, if_neg hquote, if_neg hslash, if_neg (by omega), if_neg (by omega), if_neg (by omega),
    if_neg (by omega), if_neg (by omega), if_pos (by simp; omega)]
  rfl

lemma length_escapePoint (c : ℕ) :
    (escapePoint true c).length = (escapePoint false c).length + surplusPoint c := by
  rw [escapePoint, escapePoint, if_pos rfl, if_neg Bool.false_ne_true, length_points, surplusPoint]
  rcases Nat.lt_or_ge c 0x10000 with hplane | hplane
  · rw [codeUnits, if_pos hplane, List.flatMap_singleton]
    split_ifs with hspecial hascii hascii
    · simp
    · simp only [Bool.or_eq_true, decide_eq_true_eq] at hspecial
      omega
    · simp only [Bool.or_eq_true, decide_eq_true_eq, not_or] at hspecial
      rw [length_escape_of_lt (by omega) hascii hspecial.1.2 hspecial.2]
      rfl
    · rw [length_escape_of_le (by omega)]
      rfl
  · have hspecial : ¬ ((decide (c < 0x20) || decide (c = 0x22) || decide (c = 0x5c)) = true) := by
      simp only [Bool.or_eq_true, decide_eq_true_eq]
      omega
    rw [if_neg hspecial, if_neg (by omega), if_neg (by omega), codeUnits, if_neg (by omega)]
    simp only [List.flatMap_cons, List.flatMap_nil, List.append_nil, List.length_append,
      length_escape_of_le (show 0x7f ≤ 0xd800 + (c - 0x10000) / 0x400 by omega),
      length_escape_of_le (show 0x7f ≤ 0xdc00 + (c - 0x10000) % 0x400 by omega)]
    rfl

lemma length_quoteString (s : Str) :
    (quoteString true s).length = (quoteString false s).length + surplusStr s := by
  have hpoints : (s.flatMap (escapePoint true)).length
      = (s.flatMap (escapePoint false)).length + surplusStr s := by
    induction s with
    | nil => rfl
    | cons c s ih =>
        simp only [surplusStr, List.map_cons, List.sum_cons] at ih ⊢
        rw [List.flatMap_cons, List.flatMap_cons, List.length_append, List.length_append, ih,
          length_escapePoint]
        omega
  simp only [quoteString, List.length_cons, List.length_append, hpoints]
  omega

mutual

/-- **The text in ASCII is longer by the surplus of the strings in it.** -/
theorem length_compact_true : ∀ v : Value F,
    (compact fl true v).length = (compact fl false v).length + v.surplus
  | .null | .int _ | .float _ => rfl
  | .bool true | .bool false => rfl
  | .str s => length_quoteString s
  | .arr [] => rfl
  | .arr (v :: vs) => by
      have hv := length_compact_true v
      have hvs := length_compactItems_true vs
      simp only [compact, List.length_cons, List.length_append, Value.surplus, surplusItems, hv, hvs]
      omega
  | .obj [] => rfl
  | .obj ((k, v) :: ms) => by
      have hk := length_quoteString k
      have hv := length_compact_true v
      have hms := length_compactMembers_true ms
      simp only [compact, List.length_cons, List.length_append, Value.surplus, surplusMembers, hk,
        hv, hms]
      omega

theorem length_compactItems_true : ∀ vs : List (Value F),
    (compactItems fl true vs).length = (compactItems fl false vs).length + surplusItems vs
  | [] => rfl
  | v :: vs => by
      have hv := length_compact_true v
      have hvs := length_compactItems_true vs
      simp only [compactItems, List.length_cons, List.length_append, surplusItems, hv, hvs]
      omega

theorem length_compactMembers_true : ∀ ms : List (Str × Value F),
    (compactMembers fl true ms).length = (compactMembers fl false ms).length + surplusMembers ms
  | [] => rfl
  | (k, v) :: ms => by
      have hk := length_quoteString k
      have hv := length_compact_true v
      have hms := length_compactMembers_true ms
      simp only [compactMembers, List.length_cons, List.length_append, surplusMembers, hk, hv, hms]
      omega

end

/-! ### The bytes of a text -/

def IsAscii (s : Str) : Prop := ∀ c ∈ s, c < 0x80

/-- A text as a string; the code points that are no characters do not occur in ASCII. -/
def encoded (s : Str) : String := String.ofList (s.map Char.ofNat)

lemma utf8Size_ofNat_of_lt {c : ℕ} (h : c < 0x80) : (Char.ofNat c).utf8Size = 1 := by
  rw [Char.utf8Size_eq_one_iff, UInt32.le_iff_toNat_le]
  change (Char.ofNat c).toNat ≤ 127
  rw [toNat_ofNat_of_lt h]
  omega

/-- In ASCII each character is one byte. -/
lemma utf8ByteSize_of_isAscii {s : Str} (h : IsAscii s) : (encoded s).utf8ByteSize = s.length := by
  induction s with
  | nil => rfl
  | cons c s ih =>
      have hc := utf8Size_ofNat_of_lt (h c List.mem_cons_self)
      have hrest := ih fun d hd => h d (List.mem_cons_of_mem c hd)
      rw [encoded] at hrest ⊢
      rw [List.map_cons, String.ofList_cons, String.utf8ByteSize_append,
        String.utf8ByteSize_singleton, hc, hrest, List.length_cons, Nat.add_comm]

lemma IsAscii.append {s t : Str} (hs : IsAscii s) (ht : IsAscii t) : IsAscii (s ++ t) := by
  intro c hc
  rcases List.mem_append.1 hc with hc | hc
  · exact hs c hc
  · exact ht c hc

lemma IsAscii.cons {c : ℕ} {s : Str} (hc : c < 0x80) (hs : IsAscii s) : IsAscii (c :: s) :=
  IsAscii.append (fun d hd => by rwa [List.mem_singleton.1 hd]) hs

lemma isAscii_points {cs : List Char} (h : ∀ c ∈ cs, c.toNat < 0x80) : IsAscii (points cs) := by
  intro n hn
  obtain ⟨c, hc, rfl⟩ := List.mem_map.1 hn
  exact h c hc

lemma toNat_lt_of_isDigit {c : Char} (h : isDigit c = true) : c.toNat < 0x80 := by
  simp only [isDigit, Bool.and_eq_true, decide_eq_true_eq] at h
  have hle : c.toNat ≤ '9'.toNat := h.2
  have hnine : '9'.toNat = 57 := rfl
  omega

lemma toNat_lt_of_mem_takeWhile {cs : List Char} {c : Char} (h : c ∈ cs.takeWhile isDigit) :
    c.toNat < 0x80 :=
  toNat_lt_of_isDigit (List.mem_takeWhile_imp h)

lemma toNat_lt_of_mem_scanDigits {cs ds rest : List Char} (h : scanDigits cs = some (ds, rest)) :
    ∀ c ∈ ds, c.toNat < 0x80 := by
  rw [scanDigits] at h
  split_ifs at h
  obtain ⟨rfl, -⟩ := Prod.mk.inj (Option.some.inj h)
  exact fun c hc => toNat_lt_of_mem_takeWhile hc

lemma toNat_lt_of_mem_scanFraction (cs : List Char) : ∀ c ∈ (scanFraction cs).1, c.toNat < 0x80 := by
  rw [scanFraction.eq_def]
  split
  · split
    · rename_i rest ds rest' hdigits
      intro c hc
      rcases List.mem_cons.1 hc with rfl | hc
      · decide
      · exact toNat_lt_of_mem_scanDigits hdigits c hc
    · simp
  · simp

lemma toNat_lt_of_mem_scanSign (cs : List Char) : ∀ c ∈ (scanSign cs).1, c.toNat < 0x80 := by
  rw [scanSign.eq_def]
  split <;> simp

lemma toNat_lt_of_mem_scanExponent (cs : List Char) : ∀ c ∈ (scanExponent cs).1, c.toNat < 0x80 := by
  rw [scanExponent.eq_def]
  split
  · split_ifs with he
    · split
      · rename_i ds rest' hdigits
        intro c hc
        rcases List.mem_cons.1 hc with rfl | hc
        · rw [Bool.or_eq_true, decide_eq_true_iff, decide_eq_true_iff] at he
          rcases he with rfl | rfl <;> decide
        rcases List.mem_append.1 hc with hc | hc
        · exact toNat_lt_of_mem_scanSign _ c hc
        · exact toNat_lt_of_mem_scanDigits hdigits c hc
      · simp
    · simp
  · simp

lemma toNat_lt_of_mem_scanTail (cs : List Char) : ∀ c ∈ (scanTail cs).1, c.toNat < 0x80 := by
  intro c hc
  rcases List.mem_append.1 hc with hc | hc
  · exact toNat_lt_of_mem_scanFraction cs c hc
  · exact toNat_lt_of_mem_scanExponent _ c hc

lemma toNat_lt_of_mem_decimalText {n : ℕ} {c : Char} (h : c ∈ decimalText n) : c.toNat < 0x80 := by
  have hdigit := Nat.isDigit_of_mem_toDigits (by norm_num) (by norm_num) h
  simp only [Char.isDigit, Bool.and_eq_true, decide_eq_true_eq] at hdigit
  have hle : c.toNat ≤ 57 := hdigit.2
  omega

lemma isAscii_int (n : ℤ) :
    IsAscii (points ((if n < 0 then ['-'] else []) ++ decimalText n.natAbs)) := by
  refine isAscii_points fun c hc => ?_
  rcases List.mem_append.1 hc with hc | hc
  · split_ifs at hc
    · rw [List.mem_singleton.1 hc]
      decide
    · cases hc
  · exact toNat_lt_of_mem_decimalText hc

lemma isAscii_float (x : F) : IsAscii (points (fl.repr x).render) := by
  refine isAscii_points ?_
  cases hx : fl.repr x with
  | nan => simp [FloatText.render]
  | infinity negative => cases negative <;> simp [FloatText.render]
  | decimal negative whole tail =>
      obtain ⟨-, hscan⟩ := fl.scan_repr x negative whole tail hx
      have htail := hscan [] (fun c more h => (by cases h))
      intro c hc
      rcases List.mem_append.1 hc with hc | hc
      · rcases List.mem_append.1 hc with hc | hc
        · cases negative
          · cases hc
          · rw [List.mem_singleton.1 hc]
            decide
        · exact toNat_lt_of_mem_decimalText hc
      · have hmem : c ∈ (scanTail (tail ++ [])).1 := by rwa [htail]
        exact toNat_lt_of_mem_scanTail _ c hmem

lemma toNat_lt_of_mem_hexDigits {w v : ℕ} {c : Char} (h : c ∈ hexDigits w v) : c.toNat < 0x80 := by
  have hdigit : ∀ d : Fin 16, (Nat.digitChar d).toNat < 0x80 := by decide
  induction w generalizing v with
  | zero => cases h
  | succ w ih =>
      rw [hexDigits] at h
      rcases List.mem_append.1 h with h | h
      · exact ih h
      · rw [List.mem_singleton.1 h]
        exact hdigit ⟨v % 16, Nat.mod_lt v (by norm_num)⟩

lemma toNat_lt_of_mem_escape {u : ℕ} {c : Char} (h : c ∈ escape u) : c.toNat < 0x80 := by
  have hshort : ∀ e : Char, e.toNat < 0x80 → c ∈ ['\\', e] → c.toNat < 0x80 := by
    intro e he hc
    rcases List.mem_cons.1 hc with rfl | hc
    · decide
    · rwa [List.mem_singleton.1 hc]
  rw [escape] at h
  split_ifs at h with h₁ h₂ h₃ h₄ h₅ h₆ h₇ h₈
  · exact hshort _ (by decide) h
  · exact hshort _ (by decide) h
  · exact hshort _ (by decide) h
  · exact hshort _ (by decide) h
  · exact hshort _ (by decide) h
  · exact hshort _ (by decide) h
  · exact hshort _ (by decide) h
  · simp only [Bool.and_eq_true, decide_eq_true_eq] at h₈
    rw [List.mem_singleton.1 h, toNat_ofNat_of_lt (by omega)]
    omega
  · rcases List.mem_cons.1 h with rfl | h
    · decide
    rcases List.mem_cons.1 h with rfl | h
    · decide
    · exact toNat_lt_of_mem_hexDigits h

lemma isAscii_quoteString (s : Str) : IsAscii (quoteString true s) := by
  refine .cons (by norm_num) (.append ?_ (.cons (by norm_num) nofun))
  intro c hc
  obtain ⟨d, -, hc⟩ := List.mem_flatMap.1 hc
  obtain ⟨e, he, rfl⟩ := List.mem_map.1 hc
  obtain ⟨u, -, he⟩ := List.mem_flatMap.1 he
  exact toNat_lt_of_mem_escape he

mutual

lemma isAscii_compact : ∀ v : Value F, IsAscii (compact fl true v)
  | .null | .bool true | .bool false => by simp only [compact]; unfold IsAscii; decide
  | .int n => isAscii_int n
  | .float x => isAscii_float fl x
  | .str s => isAscii_quoteString s
  | .arr [] | .obj [] => by simp only [compact]; unfold IsAscii; decide
  | .arr (v :: vs) => .cons (by norm_num) ((isAscii_compact v).append (isAscii_compactItems vs))
  | .obj ((k, v) :: ms) =>
      .cons (by norm_num) (((isAscii_quoteString k).append
        (.cons (by norm_num) (isAscii_compact v))).append (isAscii_compactMembers ms))

lemma isAscii_compactItems : ∀ vs : List (Value F), IsAscii (compactItems fl true vs)
  | [] => by simp only [compactItems]; unfold IsAscii; decide
  | v :: vs => .cons (by norm_num) ((isAscii_compact v).append (isAscii_compactItems vs))

lemma isAscii_compactMembers : ∀ ms : List (Str × Value F), IsAscii (compactMembers fl true ms)
  | [] => by simp only [compactMembers]; unfold IsAscii; decide
  | (k, v) :: ms =>
      .cons (by norm_num) (((isAscii_quoteString k).append
        (.cons (by norm_num) (isAscii_compact v))).append (isAscii_compactMembers ms))

end

/-- With `ensure_ascii` each character is one byte. -/
theorem utf8ByteSize_compact_true (v : Value F) :
    (encoded (compact fl true v)).utf8ByteSize = (compact fl true v).length :=
  utf8ByteSize_of_isAscii (isAscii_compact fl v)

/-! ### One member of an object -/

lemma length_compactMembers_lookup {ms : List (Str × Value F)} {k : Str} {v : Value F}
    (h : ms.lookup k = some v) :
    (quoteString ascii k).length + (compact fl ascii v).length + 3
      ≤ (compactMembers fl ascii ms).length := by
  induction ms with
  | nil => cases h
  | cons m ms ih =>
      obtain ⟨k', v'⟩ := m
      rw [List.lookup_cons] at h
      by_cases hk : k = k'
      · subst hk
        have hv : v' = v := by simpa using h
        subst hv
        have hend : 1 ≤ (compactMembers fl ascii ms).length := by cases ms <;> simp [compactMembers]
        simp only [compactMembers, List.length_cons, List.length_append]
        omega
      · rw [beq_false_of_ne hk] at h
        have hrest := ih h
        simp only [compactMembers, List.length_cons, List.length_append]
        omega

/-- An object with one of the members of another is no longer. -/
theorem length_compact_member_le {ms : List (Str × Value F)} {k : Str} {v : Value F}
    (h : ms.lookup k = some v) :
    (compact fl ascii (.obj [(k, v)])).length ≤ (compact fl ascii (.obj ms)).length := by
  have hmember := length_compactMembers_lookup fl ascii h
  have hone : (compact fl ascii (.obj [(k, v)])).length
      = (quoteString ascii k).length + (compact fl ascii v).length + 3 := by
    simp only [compact, compactMembers, List.length_cons, List.length_append, List.length_nil]
    omega
  have hall : (compactMembers fl ascii ms).length ≤ (compact fl ascii (.obj ms)).length := by
    cases ms with
    | nil => simp [compactMembers, compact]
    | cons m ms =>
        simp only [compactMembers, compact, List.length_cons, List.length_append]
        omega
  omega

end Python.Json
