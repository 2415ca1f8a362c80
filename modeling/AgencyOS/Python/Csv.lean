import Mathlib.Data.List.Basic
import Mathlib.Order.Lattice
import Mathlib.Algebra.BigOperators.Group.List.Basic

/-!
`csv.reader` over the lines of a text, in the `excel` dialect: commas, double quotes that are doubled
inside of quotes, and no strict mode.

The reader goes through a line character by character and is told where it ends.  A record takes
as many lines as its quotes span.

* `lines`: the lines of `io.StringIO(text)`, which end after a newline only;
* `processChar`, `readLine`: one character, and one line;
* `readRows`: the records of the lines, and what the reader raises after them.
-/

namespace Python.Csv

inductive ReaderState where
  | startRecord | startField | inField | inQuotedField | quoteInQuotedField | eatCrnl
  deriving DecidableEq, Repr

structure Reader where
  state : ReaderState
  field : List Char
  fields : List String
  deriving DecidableEq, Repr

inductive CsvError where
  | fieldLarger
  | newLineInUnquotedField
  deriving DecidableEq, Repr

def CsvError.message : CsvError → String
  | .fieldLarger => "field larger than field limit (131072)"
  | .newLineInUnquotedField =>
      "new-line character seen in unquoted field - do you need to open the file with newline=''?"

/-- `csv.field_size_limit()`. -/
def fieldLimit : ℕ := 131072

/-- `parse_reset`. -/
def Reader.reset : Reader := ⟨.startRecord, [], []⟩

/-- `parse_add_char`. -/
def Reader.addChar (r : Reader) (c : Char) : Except CsvError Reader :=
  if fieldLimit ≤ r.field.length then .error .fieldLarger
  else .ok { r with field := r.field ++ [c] }

/-- `parse_save_field`. -/
def Reader.saveField (r : Reader) : Reader :=
  { r with field := [], fields := r.fields ++ [String.ofList r.field] }

def Reader.goto (r : Reader) (state : ReaderState) : Reader := { r with state := state }

/-- A line that ends goes to the next record; a newline character waits for that. -/
def Reader.endRecord (r : Reader) : Option Char → Reader
  | none => r.goto .startRecord
  | some _ => r.goto .eatCrnl

/-- The character is a newline, or the line ends. -/
def endsRecord : Option Char → Bool
  | none => true
  | some c => c = '\n' || c = '\r'

/-- The case of `START_FIELD`. -/
def Reader.startField (r : Reader) : Option Char → Except CsvError Reader
  | none => .ok (r.saveField.endRecord none)
  | some c =>
      if endsRecord (some c) then .ok (r.saveField.endRecord (some c))
      else if c = '"' then .ok (r.goto .inQuotedField)
      else if c = ',' then .ok (r.saveField.goto .startField)
      else (r.addChar c).map (·.goto .inField)

/-- `parse_process_char`; no character is the end of a line. -/
def Reader.processChar (r : Reader) (c : Option Char) : Except CsvError Reader :=
  match r.state with
  | .startRecord =>
      match c with
      | none => .ok r
      | some d => if endsRecord c then .ok (r.goto .eatCrnl) else r.startField (some d)
  | .startField => r.startField c
  | .inField =>
      match c with
      | none => .ok (r.saveField.endRecord none)
      | some d =>
          if endsRecord c then .ok (r.saveField.endRecord c)
          else if d = ',' then .ok (r.saveField.goto .startField)
          else r.addChar d
  | .inQuotedField =>
      match c with
      | none => .ok r
      | some d => if d = '"' then .ok (r.goto .quoteInQuotedField) else r.addChar d
  | .quoteInQuotedField =>
      match c with
      | none => .ok (r.saveField.endRecord none)
      | some d =>
          if d = '"' then (r.addChar d).map (·.goto .inQuotedField)
          else if d = ',' then .ok (r.saveField.goto .startField)
          else if endsRecord c then .ok (r.saveField.endRecord c)
          else (r.addChar d).map (·.goto .inField)
  | .eatCrnl =>
      match c with
      | none => .ok (r.goto .startRecord)
      | some _ => if endsRecord c then .ok r else .error .newLineInUnquotedField

/-- The characters of a line, and its end. -/
def Reader.readLine (r : Reader) (line : List Char) : Except CsvError Reader := do
  (← line.foldlM (fun r c => r.processChar (some c)) r).processChar none

/-- The records that the reader yields, and what it raises after them.  Quotes that are still open at
the end of the input are closed there. -/
def readRows : List (List Char) → Reader → List (List String) × Option CsvError
  | [], r =>
      if r.field ≠ [] ∨ r.state = .inQuotedField then ([r.saveField.fields], none) else ([], none)
  | line :: lines, r =>
      match r.readLine line with
      | .error e => ([], some e)
      | .ok r' =>
          if r'.state = .startRecord then
            let (rows, failed) := readRows lines .reset
            (r'.fields :: rows, failed)
          else readRows lines r'

/-- The lines of `io.StringIO(text)`, each with its newline. -/
def lines : List Char → List (List Char)
  | [] => []
  | c :: cs =>
      if c = '\n' then [c] :: lines cs
      else
        match lines cs with
        | [] => [[c]]
        | line :: rest => (c :: line) :: rest

/-- No text is lost in the lines. -/
lemma flatten_lines (text : List Char) : (lines text).flatten = text := by
  induction text with
  | nil => rfl
  | cons c cs ih =>
      rw [lines]
      split_ifs
      · simp [ih]
      · cases hcs : lines cs with
        | nil => simpa [hcs] using ih
        | cons line rest => simpa [hcs] using ih

/-- `csv.reader(io.StringIO(text))`. -/
def rows (text : List Char) : List (List String) × Option CsvError := readRows (lines text) .reset

example : rows ['a', ',', '"', 'b', '"', '"', '\n', '"', '\n', '\n', 'c']
    = ([["a", "b\"\n"], [], ["c"]], none) := by decide

end Python.Csv
