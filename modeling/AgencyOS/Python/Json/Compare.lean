import AgencyOS.Python.Json.Model

/-!
Comparing JSON values as Python compares them.

Booleans, integers and floats compare as numbers; `real` gives the number a float stands for, which may
be infinite (a JSON document has no NaN).  Strings and lists are ordered item by item.

* `Value.eq`: `==`;
* `Value.compare`: the order of two values, `none` where `<` raises `TypeError`;
* `member`: `in`, for a list.
-/

namespace Python.Json

variable {F : Type}

/-- The numbers that floats stand for. -/
abbrev Number : Type := WithBot (WithTop ℚ)

def Number.ofRat (q : ℚ) : Number := ((q : WithTop ℚ) : WithBot (WithTop ℚ))

section Compare

variable (real : F → Number)

/-- The number that a value is, if it is one. -/
def Value.number? : Value F → Option Number
  | .bool b => some (Number.ofRat (if b then 1 else 0))
  | .int n => some (Number.ofRat n)
  | .float x => some (real x)
  | _ => none

/-- `==`, of values that are neither strings nor containers. -/
def Value.eqScalar (v w : Value F) : Bool :=
  match v, w with
  | .null, .null => true
  | v, w =>
      match v.number? real, w.number? real with
      | some a, some b => decide (a = b)
      | _, _ => false

mutual

/-- `==`. -/
def Value.eq : Value F → Value F → Bool
  | .str s, .str t => decide (s = t)
  | .arr xs, .arr ys => eqItems xs ys
  | .obj ms, .obj ns => ms.length == ns.length && eqMembers ms ns
  | v, w => v.eqScalar real w

def eqItems : List (Value F) → List (Value F) → Bool
  | [], [] => true
  | x :: xs, y :: ys => x.eq y && eqItems xs ys
  | _, _ => false

def eqMembers : List (Str × Value F) → List (Str × Value F) → Bool
  | [], _ => true
  | (k, v) :: ms, ns =>
      (match ns.lookup k with
        | some w => v.eq w
        | none => false) && eqMembers ms ns

end

/-- `item in items`. -/
def member (item : Value F) (items : List (Value F)) : Bool := items.any fun x => x.eq real item

/-- The order of two numbers; anything else has none. -/
def Value.compareScalar (v w : Value F) : Option Ordering :=
  match v.number? real, w.number? real with
  | some a, some b => some (if a < b then .lt else if a = b then .eq else .gt)
  | _, _ => none

mutual

/-- The order of two values, unless they are not comparable: lists by the first items that differ. -/
def Value.compare : Value F → Value F → Option Ordering
  | .str s, .str t => some (Ord.compare s t)
  | .arr xs, .arr ys => compareItems xs ys
  | v, w => v.compareScalar real w

def compareItems : List (Value F) → List (Value F) → Option Ordering
  | [], [] => some .eq
  | [], _ :: _ => some .lt
  | _ :: _, [] => some .gt
  | x :: xs, y :: ys => if x.eq real y then compareItems xs ys else x.compare y

end

end Compare

end Python.Json
