import Mathlib.Tactic
import Mathlib.Data.List.DropRight

/-!
Text as Python handles it, on lists of characters.

* `isSpace`, `strip`, `words`, `partition`, `upper`: the methods of `str`;
* `digit?`, `int?`: decimal digits of every script, and `int` of a token of digits;
* `partition_append`, `append_partition`: a text is parted at the first separator;
* `digit?_of_int?`: a text that `int` reads is all digits;
* `int?_toDigits`: the decimal text of a number is read back.
-/

namespace Python

/-! ### Characters -/

/-- `str.isspace`. -/
def isSpace (c : Char) : Bool :=
  c.toNat ∈ [0x9, 0xa, 0xb, 0xc, 0xd, 0x1c, 0x1d, 0x1e, 0x1f, 0x20, 0x85, 0xa0, 0x1680, 0x2028, 0x2029,
    0x202f, 0x205f, 0x3000] || (0x2000 ≤ c.toNat && c.toNat ≤ 0x200a)

/-- `str.strip`. -/
def strip (cs : List Char) : List Char := (cs.dropWhile isSpace).rdropWhile isSpace

/-- `str.split` at whitespace. -/
def words (cs : List Char) : List (List Char) := (cs.splitOnP isSpace).filter (· ≠ [])

/-- `str.partition` at a separator that occurs. -/
def partition (sep : Char) (cs : List Char) : List Char × List Char :=
  (cs.takeWhile (· ≠ sep), (cs.dropWhile (· ≠ sep)).drop 1)

/-- `str.upper`, as far as it can give an ASCII letter. -/
def upper (c : Char) : Char :=
  if c = 'ſ' then 'S' else if c = 'ı' then 'I' else c.toUpper

/-- The zeros of the decimal digits. -/
def decimalZeros : List ℕ :=
  [0x30, 0x660, 0x6f0, 0x7c0, 0x966, 0x9e6, 0xa66, 0xae6, 0xb66, 0xbe6, 0xc66, 0xce6, 0xd66, 0xde6,
    0xe50, 0xed0, 0xf20, 0x1040, 0x1090, 0x17e0, 0x1810, 0x1946, 0x19d0, 0x1a80, 0x1a90, 0x1b50,
    0x1bb0, 0x1c40, 0x1c50, 0xa620, 0xa8d0, 0xa900, 0xa9d0, 0xa9f0, 0xaa50, 0xabf0, 0xff10, 0x104a0,
    0x10d30, 0x11066, 0x110f0, 0x11136, 0x111d0, 0x112f0, 0x11450, 0x114d0, 0x11650, 0x116c0, 0x11730,
    0x118e0, 0x11950, 0x11c50, 0x11d50, 0x11da0, 0x16a60, 0x16ac0, 0x16b50, 0x1d7ce, 0x1d7d8, 0x1d7e2,
    0x1d7ec, 0x1d7f6, 0x1e140, 0x1e2f0, 0x1e950, 0x1fbf0]

def digit? (c : Char) : Option ℕ :=
  (decimalZeros.find? fun z => z ≤ c.toNat && c.toNat < z + 10).map fun z => c.toNat - z

/-- `int`, of a token that is all digits; conversions of more than 4300 digits are refused. -/
def int? (cs : List Char) : Option ℕ :=
  if cs = [] ∨ 4300 < cs.length then none
  else (cs.mapM digit?).map fun digits => digits.foldl (fun n d => 10 * n + d) 0

/-! ### Parts of a text -/

lemma append_partition {sep : Char} {cs : List Char} (h : sep ∈ cs) :
    cs = (partition sep cs).1 ++ sep :: (partition sep cs).2 := by
  induction cs with
  | nil => simp at h
  | cons c cs ih =>
      by_cases hc : c = sep
      · simp [partition, hc]
      · have hmem : sep ∈ cs := by simpa [Ne.symm hc] using h
        have hrest := ih hmem
        simp only [partition] at hrest ⊢
        simpa [hc] using hrest

lemma not_mem_partition (sep : Char) (cs : List Char) : sep ∉ (partition sep cs).1 := by
  intro h
  have hne := List.mem_takeWhile_imp h
  simp at hne

lemma partition_append {sep : Char} {before after : List Char} (h : sep ∉ before) :
    partition sep (before ++ sep :: after) = (before, after) := by
  induction before with
  | nil => simp [partition]
  | cons c cs ih =>
      rw [List.mem_cons, not_or] at h
      have hrest := ih h.2
      simp only [partition, Prod.mk.injEq] at hrest ⊢
      simpa [Ne.symm h.1] using hrest

/-- A text without spaces is not stripped. -/
lemma strip_eq_self {cs : List Char} (h : ∀ c ∈ cs, isSpace c = false) : strip cs = cs := by
  have hleft : cs.dropWhile isSpace = cs := by
    cases cs with
    | nil => rfl
    | cons c cs => simp [h c]
  rw [strip, hleft, List.rdropWhile_eq_self_iff]
  intro hne
  simp [h _ (List.getLast_mem hne)]

/-- The pieces of a text have no separators, and no other characters than the text. -/
lemma mem_of_mem_splitOnP {p : Char → Bool} {cs piece : List Char} (h : piece ∈ cs.splitOnP p) :
    ∀ c ∈ piece, p c = false ∧ c ∈ cs := by
  induction cs generalizing piece with
  | nil =>
      rw [List.splitOnP_nil, List.mem_singleton] at h
      simp [h]
  | cons c cs ih =>
      rw [List.splitOnP_cons_eq_if_modifyHead] at h
      have hlater : ∀ piece ∈ cs.splitOnP p, ∀ d ∈ piece, p d = false ∧ d ∈ c :: cs :=
        fun piece hpiece d hd => ⟨(ih hpiece d hd).1, List.mem_cons_of_mem c (ih hpiece d hd).2⟩
      split_ifs at h with hp
      · rcases List.mem_cons.1 h with rfl | h
        · simp
        · exact hlater piece h
      · cases hsplit : cs.splitOnP p with
        | nil => exact absurd hsplit (List.splitOnP_ne_nil p cs)
        | cons head rest =>
            rw [hsplit] at h hlater
            rw [List.modifyHead_cons, List.mem_cons] at h
            rcases h with rfl | h
            · intro d hd
              rcases List.mem_cons.1 hd with rfl | hd
              · exact ⟨by simpa using hp, List.mem_cons_self⟩
              · exact hlater head List.mem_cons_self d hd
            · exact hlater piece (List.mem_cons_of_mem _ h)

lemma not_isSpace_of_mem_words {cs word : List Char} (h : word ∈ words cs) :
    ∀ c ∈ word, isSpace c = false :=
  fun c hc => (mem_of_mem_splitOnP (List.mem_filter.1 h).1 c hc).1

/-! ### Decimal texts -/

/-- A text that `int` reads is all digits. -/
lemma digit?_of_int? {cs : List Char} {n : ℕ} (h : int? cs = some n) :
    cs ≠ [] ∧ ∀ c ∈ cs, (digit? c).isSome := by
  rw [int?] at h
  split_ifs at h with hlong
  rw [not_or] at hlong
  refine ⟨hlong.1, fun c hc => ?_⟩
  obtain ⟨digits, hdigits, -⟩ := Option.map_eq_some_iff.1 h
  clear h hlong
  induction cs generalizing digits with
  | nil => simp at hc
  | cons d cs ih =>
      cases hd : digit? d with
      | none => simp [hd] at hdigits
      | some value =>
          rcases List.mem_cons.1 hc with rfl | hc
          · simp [hd]
          · cases hrest : cs.mapM digit? with
            | none => simp [hd, hrest] at hdigits
            | some rest => exact ih hc rest hrest

lemma digit?_digitChar {d : ℕ} (h : d < 10) : digit? (Nat.digitChar d) = some d := by
  interval_cases d <;> rfl

lemma mapM_digit?_toDigits (n : ℕ) :
    ∃ digits, (Nat.toDigits 10 n).mapM digit? = some digits ∧
      digits.foldl (fun n d => 10 * n + d) 0 = n := by
  induction n using Nat.strongRecOn with
  | ind n ih =>
      rcases lt_or_ge n 10 with hn | hn
      · refine ⟨[n], ?_, by simp⟩
        rw [Nat.toDigits_of_lt_base hn]
        simp [digit?_digitChar hn]
      · obtain ⟨digits, hread, hvalue⟩ := ih (n / 10) (Nat.div_lt_self (by omega) (by omega))
        refine ⟨digits ++ [n % 10], ?_, ?_⟩
        · rw [Nat.toDigits_of_base_le (by omega) hn]
          simp [List.mapM_append, hread, digit?_digitChar (Nat.mod_lt n (by omega))]
        · rw [List.foldl_append, hvalue, List.foldl_cons, List.foldl_nil]
          omega

/-- A decimal text is read back, unless it is too long. -/
theorem int?_toDigits (n : ℕ) :
    int? (Nat.toDigits 10 n) = if 4300 < (Nat.toDigits 10 n).length then none else some n := by
  obtain ⟨digits, hread, hvalue⟩ := mapM_digit?_toDigits n
  have hne : Nat.toDigits 10 n ≠ [] := Nat.toDigits_ne_nil
  by_cases hlong : 4300 < (Nat.toDigits 10 n).length
  · simp [int?, hlong]
  · simp [int?, hne, hlong, hread, hvalue]

end Python
