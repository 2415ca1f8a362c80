import Mathlib.Tactic

/-!
Bytes as text: UTF-8, and base 64 as Python decodes it with validation.

* `utf8`, `utf8?`: `str.encode` and `bytes.decode`;
* `b64encode`, `b64decode`: the standard alphabet, with padding;
* `mem_b64encode`: the letters of an encoded text;
* `b64decode_b64encode`: what is encoded is read back.
-/

namespace Python

/-! ### UTF-8 -/

/-- `str.encode("utf-8")`. -/
def utf8 (cs : List Char) : List UInt8 := (String.ofList cs).toUTF8.data.toList

/-- `bytes.decode("utf-8")`. -/
def utf8? (bytes : List UInt8) : Option (List Char) :=
  (String.fromUTF8? ⟨bytes.toArray⟩).map String.toList

lemma utf8?_utf8 (cs : List Char) : utf8? (utf8 cs) = some cs := by
  have hbytes : (⟨(utf8 cs).toArray⟩ : ByteArray) = (String.ofList cs).toByteArray := rfl
  have hvalid : String.fromUTF8? (String.ofList cs).toByteArray = some (String.ofList cs) :=
    dif_pos (String.ofList cs).isValidUTF8
  rw [utf8?, hbytes, hvalid, Option.map_some, String.toList_ofList]

/-! ### Base 64 -/

/-- The alphabet. -/
def symbols : List Char :=
  "ABCDEFGHIJKLMNOPQRSTUVWXYZabcdefghijklmnopqrstuvwxyz0123456789+/".toList

def symbol (i : ℕ) : Char := symbols.getD i 'A'

/-- The place of a symbol in the alphabet. -/
def sextet? (c : Char) : Option ℕ :=
  if symbols.idxOf c < 64 then some (symbols.idxOf c) else none

/-- `base64.b64encode`. -/
def b64encode : List UInt8 → List Char
  | [] => []
  | [a] => [symbol (a.toNat / 4), symbol (a.toNat % 4 * 16), '=', '=']
  | [a, b] =>
      [symbol (a.toNat / 4), symbol (a.toNat % 4 * 16 + b.toNat / 16), symbol (b.toNat % 16 * 4), '=']
  | a :: b :: c :: bytes =>
      symbol (a.toNat / 4) :: symbol (a.toNat % 4 * 16 + b.toNat / 16) ::
        symbol (b.toNat % 16 * 4 + c.toNat / 64) :: symbol (c.toNat % 64) :: b64encode bytes

/-- `base64.b64decode`, with validation: groups of four symbols, the last one padded. -/
def b64decode : List Char → Option (List UInt8)
  | [] => some []
  | p :: q :: r :: s :: cs =>
      match sextet? p, sextet? q, sextet? r, sextet? s with
      | some p, some q, some r, some s =>
          (b64decode cs).map fun bytes => UInt8.ofNat (p * 4 + q / 16) ::
            UInt8.ofNat (q % 16 * 16 + r / 4) :: UInt8.ofNat (r % 4 * 64 + s) :: bytes
      | some p, some q, some r, none =>
          if s = '=' ∧ cs = [] then
            some [UInt8.ofNat (p * 4 + q / 16), UInt8.ofNat (q % 16 * 16 + r / 4)]
          else none
      | some p, some q, none, none =>
          if r = '=' ∧ s = '=' ∧ cs = [] then some [UInt8.ofNat (p * 4 + q / 16)] else none
      | _, _, _, _ => none
  | _ => none

lemma sextet?_symbol {i : ℕ} (h : i < 64) : sextet? (symbol i) = some i := by
  have hall : ∀ i ∈ List.range 64, sextet? (symbol i) = some i := by decide +kernel
  exact hall i (List.mem_range.2 h)

lemma sextet?_pad : sextet? '=' = none := by decide +kernel

lemma symbol_mem (i : ℕ) : symbol i ∈ symbols := by
  rw [symbol, List.getD_eq_getElem?_getD]
  rcases lt_or_ge i symbols.length with hi | hi
  · rw [List.getElem?_eq_getElem hi, Option.getD_some]
    exact List.getElem_mem hi
  · rw [List.getElem?_eq_none hi]
    decide

/-- Encoded text is over the alphabet and the padding. -/
lemma mem_b64encode {bytes : List UInt8} {c : Char} (h : c ∈ b64encode bytes) :
    c ∈ symbols ∨ c = '=' := by
  have hsymbol : ∀ i, c = symbol i → c ∈ symbols ∨ c = '=' := by
    rintro i rfl
    exact Or.inl (symbol_mem i)
  fun_induction b64encode bytes with
  | case1 => exact absurd h List.not_mem_nil
  | case2 a =>
      simp only [List.mem_cons, List.not_mem_nil, or_false, or_self] at h
      obtain h | h | h := h
      · exact hsymbol _ h
      · exact hsymbol _ h
      · exact Or.inr h
  | case3 a b =>
      simp only [List.mem_cons, List.not_mem_nil, or_false] at h
      obtain h | h | h | h := h
      · exact hsymbol _ h
      · exact hsymbol _ h
      · exact hsymbol _ h
      · exact Or.inr h
  | case4 a b c' bytes ih =>
      simp only [List.mem_cons] at h
      obtain h | h | h | h | h := h
      · exact hsymbol _ h
      · exact hsymbol _ h
      · exact hsymbol _ h
      · exact hsymbol _ h
      · exact ih h

/-- A byte is put together again from its two parts. -/
lemma ofNat_parts {a : UInt8} {n : ℕ} (h : n = a.toNat) : UInt8.ofNat n = a := by
  rw [h, UInt8.ofNat_toNat]

/-- What is encoded is read back. -/
theorem b64decode_b64encode (bytes : List UInt8) : b64decode (b64encode bytes) = some bytes := by
  fun_induction b64encode bytes with
  | case1 => rfl
  | case2 a =>
      have ha := a.toNat_lt
      rw [b64decode, sextet?_symbol (by omega), sextet?_symbol (by omega), sextet?_pad]
      simp only [and_self, if_true]
      rw [ofNat_parts (a := a) (by omega)]
  | case3 a b =>
      have ha := a.toNat_lt
      have hb := b.toNat_lt
      rw [b64decode, sextet?_symbol (by omega), sextet?_symbol (by omega), sextet?_symbol (by omega),
        sextet?_pad]
      simp only [and_self, if_true]
      rw [ofNat_parts (a := a) (by omega), ofNat_parts (a := b) (by omega)]
  | case4 a b c bytes ih =>
      have ha := a.toNat_lt
      have hb := b.toNat_lt
      have hc := c.toNat_lt
      rw [b64decode, sextet?_symbol (by omega), sextet?_symbol (by omega), sextet?_symbol (by omega),
        sextet?_symbol (by omega), ih]
      simp only [Option.map_some]
      rw [ofNat_parts (a := a) (by omega), ofNat_parts (a := b) (by omega),
        ofNat_parts (a := c) (by omega)]

end Python
