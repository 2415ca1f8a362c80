import AgencyOS.Python.Collections
import AgencyOS.Python.Exceptions
import AgencyOS.Python.Format
import AgencyOS.Python.Text

/-!
The `json` module of Python: `dumps` with its defaults, and `loads`.

A `str` is the list of its code points, which may be lone surrogates; a JSON text is a list of
characters.  What a float is stays open: `Floats` says how one is written and read.  The
interpreter limits how deep values may be nested and how many digits an integer may have.

* `Value`, `Limits`, `Value.check`: JSON values, and whether one is within the limits;
* `render`, `dumps`: writing a value;
* `parseValue`, `parse`, `loads`: reading a text.
-/

namespace Python.Json

/-! ### Values -/

/-- The code points of a `str`. -/
abbrev Str : Type := List ℕ

/-- The text of a float: a constant, or a decimal with a sign, whole digits and the rest of it. -/
inductive FloatText where
  | nan
  | infinity (negative : Bool)
  | decimal (negative : Bool) (whole : ℕ) (tail : List Char)
  deriving DecidableEq, Repr

/-- A JSON value, as `json` decodes it; an object is the list of its members in order. -/
inductive Value (F : Type) where
  | null
  | bool (b : Bool)
  | int (n : ℤ)
  | float (x : F)
  | str (s : Str)
  | arr (items : List (Value F))
  | obj (members : List (Str × Value F))

/-- The limits of the interpreter: how deep containers may be nested, `none` for no limit, and how
many digits an integer may have, 0 for no limit. -/
structure Limits where
  nesting : Option ℕ
  digits : ℕ
  deriving DecidableEq, Repr

/-- No limits. -/
def unlimited : Limits := ⟨none, 0⟩

/-- How a call ends that is beyond a limit, or given a text that is no JSON. -/
inductive Failure where
  | recursionError | valueError | jsonDecodeError
  deriving DecidableEq, Repr

/-! ### Characters and digits -/

def isDigit (c : Char) : Bool := '0' ≤ c && c ≤ '9'

def isWhitespace (c : Char) : Bool := c = ' ' || c = '\t' || c = '\n' || c = '\r'

/-- `str` of an integer. -/
def decimalText (n : ℕ) : List Char := Nat.toDigits 10 n

/-- Digits are within the limit. -/
def Limits.allows (l : Limits) (digits : ℕ) : Bool := l.digits = 0 || digits ≤ l.digits

/-! ### Numbers -/

/-- Digits at the start of a text, if there are any. -/
def scanDigits (text : List Char) : Option (List Char × List Char) :=
  if (text.takeWhile isDigit).isEmpty then none
  else some (text.takeWhile isDigit, text.dropWhile isDigit)

/-- The digits of an integer: a zero stands alone. -/
def scanWhole : List Char → Option (List Char × List Char)
  | '0' :: rest => some (['0'], rest)
  | text => scanDigits text

/-- A fraction at the start of a text, if there is one. -/
def scanFraction (text : List Char) : List Char × List Char :=
  match text with
  | '.' :: rest =>
      match scanDigits rest with
      | some (ds, rest) => ('.' :: ds, rest)
      | none => ([], text)
  | _ => ([], text)

/-- The sign of an exponent, if there is one. -/
def scanSign : List Char → List Char × List Char
  | '+' :: rest => (['+'], rest)
  | '-' :: rest => (['-'], rest)
  | rest => ([], rest)

/-- An exponent at the start of a text, if there is one. -/
def scanExponent (text : List Char) : List Char × List Char :=
  match text with
  | e :: rest =>
      if e = 'e' || e = 'E' then
        match scanDigits (scanSign rest).2 with
        | some (ds, rest') => (e :: ((scanSign rest).1 ++ ds), rest')
        | none => ([], text)
      else ([], text)
  | [] => ([], text)

/-- What follows the whole digits of a number: the fraction and the exponent. -/
def scanTail (text : List Char) : List Char × List Char :=
  let (fraction, rest) := scanFraction text
  let (exponent, rest) := scanExponent rest
  (fraction ++ exponent, rest)

/-- What may follow a value. -/
def Stops (rest : List Char) : Prop := ∀ c cs, rest = c :: cs → c = ',' ∨ c = ']' ∨ c = '}'

/-- The text of a float. -/
def FloatText.render : FloatText → List Char
  | nan => ['N', 'a', 'N']
  | infinity true => ['-', 'I', 'n', 'f', 'i', 'n', 'i', 't', 'y']
  | infinity false => ['I', 'n', 'f', 'i', 'n', 'i', 't', 'y']
  | decimal negative whole tail => (if negative then ['-'] else []) ++ decimalText whole ++ tail

/-- How floats are written and read: `repr` writes a constant, or a number with a fraction or an
exponent, and `float` reads back what `repr` has written. -/
structure Floats (F : Type) where
  repr : F → FloatText
  float : List Char → F
  scan_repr : ∀ x negative whole tail, repr x = .decimal negative whole tail →
    tail ≠ [] ∧ ∀ rest, Stops rest → scanTail (tail ++ rest) = (tail, rest)
  float_repr : ∀ x, float (repr x).render = x

/-! ### Strings -/

def isHighSurrogate (c : ℕ) : Bool := 0xd800 ≤ c && c < 0xdc00

def isLowSurrogate (c : ℕ) : Bool := 0xdc00 ≤ c && c < 0xe000

/-- The code units of a code point: a surrogate pair beyond the basic plane. -/
def codeUnits (c : ℕ) : List ℕ :=
  if c < 0x10000 then [c]
  else [0xd800 + (c - 0x10000) / 0x400, 0xdc00 + (c - 0x10000) % 0x400]

/-- A code unit in a string of ASCII characters. -/
def escape (u : ℕ) : List Char :=
  if u = 0x22 then ['\\', '"']
  else if u = 0x5c then ['\\', '\\']
  else if u = 0xa then ['\\', 'n']
  else if u = 0xd then ['\\', 'r']
  else if u = 0x9 then ['\\', 't']
  else if u = 0xc then ['\\', 'f']
  else if u = 0x8 then ['\\', 'b']
  else if 0x20 ≤ u && u < 0x7f then [Char.ofNat u]
  else '\\' :: 'u' :: hexDigits 4 u

/-- A string with what follows it, from after its opening quote. -/
def renderString (s : Str) : List Char := (s.flatMap codeUnits).flatMap escape ++ ['"']

def hexValue? (c : Char) : Option ℕ :=
  if '0' ≤ c && c ≤ '9' then some (c.toNat - 48)
  else if 'a' ≤ c && c ≤ 'f' then some (c.toNat - 87)
  else if 'A' ≤ c && c ≤ 'F' then some (c.toNat - 55)
  else none

/-- The code unit of four hexadecimal digits. -/
def hex4? (a b c d : Char) : Option ℕ := do
  let a ← hexValue? a
  let b ← hexValue? b
  let c ← hexValue? c
  let d ← hexValue? d
  return ((a * 16 + b) * 16 + c) * 16 + d

/-- What an escape of one character stands for. -/
def unescape? : Char → Option ℕ
  | '"' => some 0x22
  | '\\' => some 0x5c
  | '/' => some 0x2f
  | 'b' => some 0x8
  | 'f' => some 0xc
  | 'n' => some 0xa
  | 'r' => some 0xd
  | 't' => some 0x9
  | _ => none

/-- The code units of a string and what follows it, from after its opening quote. -/
def scanUnits : List Char → Option (List ℕ × List Char)
  | [] => none
  | c :: rest =>
      if c = '"' then some ([], rest)
      else if c = '\\' then
        match rest with
        | 'u' :: h₁ :: h₂ :: h₃ :: h₄ :: rest =>
            (hex4? h₁ h₂ h₃ h₄).bind fun u => (scanUnits rest).map fun (us, rest) => (u :: us, rest)
        | e :: rest => (unescape? e).bind fun u => (scanUnits rest).map fun (us, rest) => (u :: us, rest)
        | [] => none
      else if c.toNat < 0x20 then none
      else (scanUnits rest).map fun (us, rest) => (c.toNat :: us, rest)

/-- Surrogate pairs joined: a pair comes from escapes only, since no character is a surrogate. -/
def joinSurrogates : List ℕ → Str
  | h :: l :: us =>
      if isHighSurrogate h && isLowSurrogate l then
        (0x10000 + (h - 0xd800) * 0x400 + (l - 0xdc00)) :: joinSurrogates us
      else h :: joinSurrogates (l :: us)
  | us => us

/-- A string and what follows it, from after its opening quote. -/
def scanString (text : List Char) : Option (Str × List Char) :=
  (scanUnits text).map fun (us, rest) => (joinSurrogates us, rest)

/-- The code points that a decoder puts together: no surrogate pair is left. -/
def properStr (s : Str) : Prop :=
  (∀ c ∈ s, c < 0x110000) ∧ s.IsChain fun a b => ¬ (isHighSurrogate a = true ∧ isLowSurrogate b = true)

instance (s : Str) : Decidable (properStr s) := inferInstanceAs (Decidable (_ ∧ _))

/-! ### The limits of a value, and writing it -/

/-- Entering a container, one level less is left. -/
def Limits.enter (l : Limits) : Except Failure Limits :=
  match l.nesting with
  | none => .ok l
  | some 0 => .error .recursionError
  | some (n + 1) => .ok { l with nesting := some n }

/-- An integer of so many digits is within the limits. -/
def Limits.checkDigits (l : Limits) (digits : ℕ) : Except Failure Unit :=
  if l.allows digits then .ok () else .error .valueError

mutual

/-- A value is within the limits, or the error at the first place where it is not. -/
def Value.check {F : Type} (l : Limits) : Value F → Except Failure Unit
  | .null | .bool _ | .float _ | .str _ => .ok ()
  | .int n => l.checkDigits (decimalText n.natAbs).length
  | .arr items => do
      let l ← l.enter
      checkItems l items
  | .obj members => do
      let l ← l.enter
      checkMembers l members

def checkItems {F : Type} (l : Limits) : List (Value F) → Except Failure Unit
  | [] => .ok ()
  | v :: vs => do
      v.check l
      checkItems l vs

def checkMembers {F : Type} (l : Limits) : List (Str × Value F) → Except Failure Unit
  | [] => .ok ()
  | (_, v) :: ms => do
      v.check l
      checkMembers l ms

end

variable {F : Type} (fl : Floats F)

mutual

/-- The text of a value, followed by `rest`. -/
def render : Value F → List Char → List Char
  | .null, rest => ['n', 'u', 'l', 'l'] ++ rest
  | .bool true, rest => ['t', 'r', 'u', 'e'] ++ rest
  | .bool false, rest => ['f', 'a', 'l', 's', 'e'] ++ rest
  | .int n, rest => (if n < 0 then ['-'] else []) ++ decimalText n.natAbs ++ rest
  | .float x, rest => (fl.repr x).render ++ rest
  | .str s, rest => '"' :: (renderString s ++ rest)
  | .arr [], rest => '[' :: ']' :: rest
  | .arr (v :: vs), rest => '[' :: render v (renderItems vs rest)
  | .obj [], rest => '{' :: '}' :: rest
  | .obj ((k, v) :: ms), rest =>
      '{' :: '"' :: (renderString k ++ ':' :: ' ' :: render v (renderMembers ms rest))

/-- The items after the first one, and the end of the array. -/
def renderItems : List (Value F) → List Char → List Char
  | [], rest => ']' :: rest
  | v :: vs, rest => ',' :: ' ' :: render v (renderItems vs rest)

/-- The members after the first one, and the end of the object. -/
def renderMembers : List (Str × Value F) → List Char → List Char
  | [], rest => '}' :: rest
  | (k, v) :: ms, rest =>
      ',' :: ' ' :: '"' :: (renderString k ++ ':' :: ' ' :: render v (renderMembers ms rest))

end

/-- `json.dumps(value)`. -/
def dumps (l : Limits) (v : Value F) : Except Failure (List Char) := do
  v.check l
  return render fl v []

/-! ### Reading -/

def skipWhitespace (text : List Char) : List Char := text.dropWhile isWhitespace

/-- The minus of a number, if there is one. -/
def scanMinus : List Char → Bool × List Char
  | '-' :: rest => (true, rest)
  | rest => (false, rest)

/-- A number after its sign. -/
def scanNumber (l : Limits) (negative : Bool) (text : List Char) :
    Except Failure (Value F × List Char) :=
  match scanWhole text with
  | none => .error .jsonDecodeError
  | some (whole, rest) =>
      if (scanTail rest).1 = [] then do
        l.checkDigits whole.length
        let n := Nat.ofDigitChars 10 whole 0
        return (.int (if negative then -n else n), rest)
      else
        .ok (.float (fl.float ((if negative then ['-'] else []) ++ whole ++ (scanTail rest).1)),
          (scanTail rest).2)

/-- A constant at the start of a text, if there is one. -/
def scanConstant : List Char → Option (Value F × List Char)
  | 'n' :: 'u' :: 'l' :: 'l' :: rest => some (.null, rest)
  | 't' :: 'r' :: 'u' :: 'e' :: rest => some (.bool true, rest)
  | 'f' :: 'a' :: 'l' :: 's' :: 'e' :: rest => some (.bool false, rest)
  | 'N' :: 'a' :: 'N' :: rest => some (.float (fl.float ['N', 'a', 'N']), rest)
  | 'I' :: 'n' :: 'f' :: 'i' :: 'n' :: 'i' :: 't' :: 'y' :: rest =>
      some (.float (fl.float ['I', 'n', 'f', 'i', 'n', 'i', 't', 'y']), rest)
  | '-' :: 'I' :: 'n' :: 'f' :: 'i' :: 'n' :: 'i' :: 't' :: 'y' :: rest =>
      some (.float (fl.float ['-', 'I', 'n', 'f', 'i', 'n', 'i', 't', 'y']), rest)
  | _ => none

/-- A value that is no string and no container. -/
def scanScalar (l : Limits) (text : List Char) : Except Failure (Value F × List Char) :=
  match scanConstant fl text with
  | some (v, rest) => .ok (v, rest)
  | none => scanNumber fl l (scanMinus text).1 (scanMinus text).2

mutual

/-- The value at the start of a text and what follows it. -/
def parseValue : Limits → ℕ → List Char → Except Failure (Value F × List Char)
  | _, 0, _ => .error .jsonDecodeError
  | l, fuel + 1, text =>
      match text with
      | '"' :: rest =>
          match scanString rest with
          | none => .error .jsonDecodeError
          | some (s, rest) => .ok (.str s, rest)
      | '[' :: rest => do
          let l ← l.enter
          match skipWhitespace rest with
          | ']' :: rest => return (.arr [], rest)
          | rest => do
              let (items, rest) ← parseItems l fuel rest
              return (.arr items, rest)
      | '{' :: rest => do
          let l ← l.enter
          match skipWhitespace rest with
          | '}' :: rest => return (.obj [], rest)
          | rest => do
              let (members, rest) ← parseMembers l fuel rest
              return (.obj members, rest)
      | text => scanScalar fl l text

/-- The items of an array up to its end. -/
def parseItems : Limits → ℕ → List Char → Except Failure (List (Value F) × List Char)
  | _, 0, _ => .error .jsonDecodeError
  | l, fuel + 1, text => do
      let (v, rest) ← parseValue l fuel text
      match skipWhitespace rest with
      | ',' :: rest => do
          let (vs, rest) ← parseItems l fuel (skipWhitespace rest)
          return (v :: vs, rest)
      | ']' :: rest => return ([v], rest)
      | _ => .error .jsonDecodeError

/-- The members of an object up to its end. -/
def parseMembers : Limits → ℕ → List Char → Except Failure (List (Str × Value F) × List Char)
  | _, 0, _ => .error .jsonDecodeError
  | l, fuel + 1, text =>
      match text with
      | '"' :: rest =>
          match scanString rest with
          | none => .error .jsonDecodeError
          | some (k, rest) =>
              match skipWhitespace rest with
              | ':' :: rest => do
                  let (v, rest) ← parseValue l fuel (skipWhitespace rest)
                  match skipWhitespace rest with
                  | ',' :: rest => do
                      let (ms, rest) ← parseMembers l fuel (skipWhitespace rest)
                      return ((k, v) :: ms, rest)
                  | '}' :: rest => return ([(k, v)], rest)
                  | _ => .error .jsonDecodeError
              | _ => .error .jsonDecodeError
      | _ => .error .jsonDecodeError

end

/-- The value that a text denotes, its objects still with all their members. -/
def parse (l : Limits) (text : List Char) : Except Failure (Value F) := do
  let text := skipWhitespace text
  let (v, rest) ← parseValue fl l (2 * text.length) text
  if skipWhitespace rest = [] then return v else .error .jsonDecodeError

mutual

/-- A value with its objects as dictionaries: the last member of a key in the place of the first. -/
def Value.dicts {F : Type} : Value F → Value F
  | .arr items => .arr (dictsItems items)
  | .obj members => .obj (OrderedDict.ofItems (dictsMembers members)).items
  | v => v

def dictsItems {F : Type} : List (Value F) → List (Value F)
  | [] => []
  | v :: vs => v.dicts :: dictsItems vs

def dictsMembers {F : Type} : List (Str × Value F) → List (Str × Value F)
  | [] => []
  | (k, v) :: ms => (k, v.dicts) :: dictsMembers ms

end

/-- `json.loads(text)`. -/
def loads (l : Limits) (text : List Char) : Except Failure (Value F) :=
  (parse fl l text).map Value.dicts

end Python.Json
