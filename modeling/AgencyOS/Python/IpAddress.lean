import Mathlib.Tactic

/-!
Addresses and networks, as the module `ipaddress` has them.

* `IpAddress`, `Network`: an address, and the addresses that share its first bits;
* `not_contains`: **networks that differ within their common length have no address in common**;
* `ipv4Mapped`, `sixToFour`, `nat64`: the address that an IPv6 address carries.
-/

namespace Python

inductive IpAddress where
  | v4 (address : BitVec 32)
  | v6 (address : BitVec 128)
  deriving DecidableEq, Repr

/-- The addresses that agree with one in the first bits. -/
structure Network (w : ℕ) where
  address : BitVec w
  length : ℕ
  deriving DecidableEq, Repr

/-- An address in four numbers. -/
def dotted (a b c d : ℕ) : BitVec 32 := BitVec.ofNat 32 (((a * 256 + b) * 256 + c) * 256 + d)

/-- An address in groups of sixteen bits, the first ones; the others are zero. -/
def groups (l : List ℕ) : BitVec 128 :=
  BitVec.ofNat 128 ((l ++ List.replicate (8 - l.length) 0).foldl (fun n group => n * 65536 + group) 0)

variable {w : ℕ}

/-- `address in network`. -/
def Network.contains (n : Network w) (a : BitVec w) : Bool :=
  a >>> (w - n.length) = n.address >>> (w - n.length)

/-- Two networks agree within their common length. -/
def Network.meets (n m : Network w) : Bool :=
  n.address >>> (w - min n.length m.length) = m.address >>> (w - min n.length m.length)

/-- An address of a network agrees with it within every shorter length. -/
lemma Network.shiftRight_eq {n : Network w} {a : BitVec w} (h : n.contains a) {k : ℕ}
    (hk : k ≤ n.length) : a >>> (w - k) = n.address >>> (w - k) := by
  have hsum : w - k = (w - n.length) + (w - k - (w - n.length)) := by omega
  rw [Network.contains, decide_eq_true_eq] at h
  rw [hsum, BitVec.shiftRight_add, BitVec.shiftRight_add, h]

/-- **Networks that do not meet have no address in common.** -/
theorem Network.not_contains {n m : Network w} {a : BitVec w} (h : n.contains a)
    (hmeets : n.meets m = false) : m.contains a = false := by
  by_contra hm
  rw [Bool.not_eq_false] at hm
  have hsame : n.meets m = true := by
    rw [Network.meets, decide_eq_true_eq, ← Network.shiftRight_eq h (min_le_left _ _),
      ← Network.shiftRight_eq hm (min_le_right _ _)]
  rw [hsame] at hmeets
  exact nomatch hmeets

/-! ### Addresses that carry one -/

def mappedNetwork : Network 128 := ⟨groups [0, 0, 0, 0, 0, 0xffff], 96⟩

def sixToFourNetwork : Network 128 := ⟨groups [0x2002], 16⟩

def nat64Network : Network 128 := ⟨groups [0x64, 0xff9b], 96⟩

/-- `ipv4_mapped`. -/
def ipv4Mapped (a : BitVec 128) : Option (BitVec 32) :=
  if mappedNetwork.contains a then some (a.setWidth 32) else none

/-- `sixtofour`. -/
def sixToFour (a : BitVec 128) : Option (BitVec 32) :=
  if sixToFourNetwork.contains a then some ((a >>> 80).setWidth 32) else none

/-- The address behind a translator of the well-known kind. -/
def nat64 (a : BitVec 128) : Option (BitVec 32) :=
  if nat64Network.contains a then some (a.setWidth 32) else none

example : sixToFour (groups [0x2002, 0x7f00, 1]) = some (dotted 127 0 0 1) := by decide

end Python
