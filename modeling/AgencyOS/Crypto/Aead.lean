import Mathlib.Tactic

/-!
Authenticated encryption, as its users rely on it.

* `Aead`: a cipher that opens exactly what it sealed under the same key and nonce;
* `keyTag`: a cipher of this kind, whose tag is the key.
-/

namespace Crypto

/-- A cipher over bytes.  A sealed text is longer by a tag, and opens to the text under the key and
nonce that sealed it; under another key it is rejected, and so is every text that was not sealed. -/
structure Aead (κ : Type) where
  tagSize : ℕ
  encrypt : κ → List UInt8 → List UInt8 → List UInt8
  decrypt : κ → List UInt8 → List UInt8 → Option (List UInt8)
  length_encrypt : ∀ k nonce text, (encrypt k nonce text).length = text.length + tagSize
  decrypt_eq_some : ∀ k nonce sealed text,
    decrypt k nonce sealed = some text ↔ sealed = encrypt k nonce text
  decrypt_other : ∀ k k' nonce text, k ≠ k' → decrypt k' nonce (encrypt k nonce text) = none

namespace Aead

variable {κ : Type} (aead : Aead κ)

@[simp] lemma decrypt_encrypt (k : κ) (nonce text : List UInt8) :
    aead.decrypt k nonce (aead.encrypt k nonce text) = some text :=
  (aead.decrypt_eq_some k nonce _ text).2 rfl

end Aead

/-- Keys that are their own tag. -/
abbrev TagKey : Type := { bytes : List UInt8 // bytes.length = 16 }

/-- The cipher that appends the key. -/
def keyTag : Aead TagKey where
  tagSize := 16
  encrypt k _ text := text ++ k.1
  decrypt k _ sealed :=
    if sealed.drop (sealed.length - 16) = k.1 then some (sealed.take (sealed.length - 16)) else none
  length_encrypt k nonce text := by rw [List.length_append, k.2]
  decrypt_eq_some k nonce sealed text := by
    constructor
    · intro h
      split_ifs at h with htag
      rw [← Option.some.inj h, ← htag, List.take_append_drop]
    · rintro rfl
      simp [k.2]
  decrypt_other k k' nonce text hne := by
    rw [if_neg]
    simpa [k.2] using fun h => hne (Subtype.ext h)

end Crypto
