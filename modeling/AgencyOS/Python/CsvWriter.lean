import AgencyOS.Python.Csv
import Mathlib.Tactic

/-!
`csv.writer` in the `excel` dialect, and its texts read back by `csv.reader`.

A field is quoted where it has a comma, a quote or a newline character; rows end with a carriage
return and a newline.  The reader goes by lines, and a quoted field may span several of them, so it is
followed in the middle of a line.

* `writeField`, `writeRow`, `writeRows`: the writer;
* `resume`: what a reader makes of the rest of a text, in the middle of a line;
* `resume_field`: a field that was written is read, and nothing else of the reader changes;
* `failed_writeRows_iff`, `rows_writeRows`: **rows are read back as they were written**, and the reader
  takes them exactly when no field is longer than it takes.
-/

namespace Python.Csv

/-! ### The writer -/

/-- `join_append_data`: the characters for which a field is quoted. -/
def isSpecial (c : Char) : Bool := c = ',' || c = '"' || c = '\r' || c = '\n'

/-- The characters of a field between quotes. -/
def escaped (field : List Char) : List Char :=
  field.flatMap fun c => if c = '"' then ['"', '"'] else [c]

def writeField (field : String) : List Char :=
  if field.toList.any isSpecial then '"' :: (escaped field.toList ++ ['"']) else field.toList

/-- The fields of a row after the first one, and the end of the row. -/
def writeRest : List String → List Char
  | [] => ['\r', '\n']
  | field :: fields => ',' :: (writeField field ++ writeRest fields)

/-- `writerow`: a row of one empty field is quoted. -/
def writeRow : List String → List Char
  | [] => ['\r', '\n']
  | [""] => ['"', '"', '\r', '\n']
  | field :: fields => writeField field ++ writeRest fields

/-- `writerows`. -/
def writeRows (table : List (List String)) : List Char := table.flatMap writeRow

/-! ### Readers in the middle of a line -/

/-- What a reader makes of the rest of a text, which begins in the middle of a line. -/
def resume (r : Reader) (text : List Char) : List (List String) × Option CsvError :=
  readRows (if text = [] then [[]] else lines text) r

lemma lines_ne_nil {text : List Char} (h : text ≠ []) : lines text ≠ [] := by
  intro hnil
  have hflatten := flatten_lines text
  rw [hnil] at hflatten
  exact h hflatten.symm

/-- A text is resumed at its lines. -/
lemma resume_of_ne_nil {text : List Char} (h : text ≠ []) (r : Reader) :
    resume r text = readRows (lines text) r := by
  rw [resume, if_neg h]

lemma rows_eq_resume {text : List Char} (h : text ≠ []) : rows text = resume .reset text :=
  (resume_of_ne_nil h _).symm

/-- A character within a line. -/
lemma resume_cons {r r' : Reader} {c : Char} (hc : c ≠ '\n') (h : r.processChar (some c) = .ok r')
    (text : List Char) : resume r (c :: text) = resume r' text := by
  have hline : ∀ line rest, readRows ((c :: line) :: rest) r = readRows (line :: rest) r' := by
    intro line rest
    have hread : r.readLine (c :: line) = r'.readLine line := by
      rw [Reader.readLine, List.foldlM_cons, h]
      rfl
    rw [readRows, readRows, hread]
  rw [resume_of_ne_nil (List.cons_ne_nil c text), lines, if_neg hc, resume]
  by_cases htext : text = []
  · rw [if_pos htext, htext]
    exact hline [] []
  · rw [if_neg htext]
    cases hlines : lines text with
    | nil => exact absurd hlines (lines_ne_nil htext)
    | cons line rest => exact hline line rest

/-- A character that is not taken. -/
lemma resume_error {r : Reader} {c : Char} {e : CsvError} (h : r.processChar (some c) = .error e)
    (text : List Char) : resume r (c :: text) = ([], some e) := by
  have hread : ∀ line, r.readLine (c :: line) = .error e := by
    intro line
    rw [Reader.readLine, List.foldlM_cons, h]
    rfl
  rw [resume_of_ne_nil (List.cons_ne_nil c text), lines]
  split_ifs
  · rw [readRows, hread]
  · cases lines text with
    | nil => rw [readRows, hread]
    | cons line rest => rw [readRows, hread]

/-- The newline that ends a line. -/
lemma resume_newline {r r' : Reader}
    (h : (r.processChar (some '\n') >>= fun r => r.processChar none) = .ok r') (text : List Char) :
    resume r ('\n' :: text) =
      if r'.state = .startRecord then (r'.fields :: (rows text).1, (rows text).2)
      else readRows (lines text) r' := by
  have hread : r.readLine ['\n'] = .ok r' := by
    rw [Reader.readLine, List.foldlM_cons]
    cases hc : r.processChar (some '\n') with
    | error e =>
        rw [hc] at h
        cases h
    | ok r₁ =>
        rw [hc] at h
        exact h
  rw [resume_of_ne_nil (List.cons_ne_nil _ text), lines, if_pos rfl, readRows, hread]
  dsimp only
  split_ifs <;> rfl

/-! ### Fields -/

/-- A reader at the start of a field, after some fields. -/
def atField (fields : List String) : Reader := ⟨.startField, [], fields⟩

/-- A reader within a field. -/
def within (state : ReaderState) (field : List Char) (fields : List String) : Reader :=
  ⟨state, field, fields⟩

/-- A field is complete: a comma or the end of the row may follow. -/
structure Ended (r : Reader) (field : String) (fields : List String) : Prop where
  field_eq : String.ofList r.field = field
  fields_eq : r.fields = fields
  state_mem : r.state = .startField ∨ r.state = .inField ∨ r.state = .quoteInQuotedField

/-- A comma after a field. -/
lemma Ended.comma {r : Reader} {field : String} {fields : List String} (h : Ended r field fields) :
    r.processChar (some ',') = .ok (atField (fields ++ [field])) := by
  obtain ⟨rfl, rfl, hstate⟩ := h
  rcases hstate with hstate | hstate | hstate
  · rw [Reader.processChar, hstate]
    rfl
  · rw [Reader.processChar, hstate]
    rfl
  · rw [Reader.processChar, hstate]
    rfl

/-- The end of a row after a field. -/
lemma Ended.return {r : Reader} {field : String} {fields : List String} (h : Ended r field fields) :
    r.processChar (some '\r') = .ok (within .eatCrnl [] (fields ++ [field])) := by
  obtain ⟨rfl, rfl, hstate⟩ := h
  rcases hstate with hstate | hstate | hstate
  · rw [Reader.processChar, hstate]
    rfl
  · rw [Reader.processChar, hstate]
    rfl
  · rw [Reader.processChar, hstate]
    rfl

/-- A row ends, and the next begins. -/
lemma Ended.resume_end {r : Reader} {field : String} {fields : List String} (h : Ended r field fields)
    (text : List Char) :
    resume r ('\r' :: '\n' :: text) = ((fields ++ [field]) :: (rows text).1, (rows text).2) := by
  have hend : ((within .eatCrnl [] (fields ++ [field])).processChar (some '\n')
      >>= fun r => r.processChar none) = .ok (within .startRecord [] (fields ++ [field])) := rfl
  rw [resume_cons (by decide) h.return, resume_newline hend]
  exact if_pos rfl

lemma addChar_within (state : ReaderState) (field : List Char) (fields : List String) (c : Char) :
    (within state field fields).addChar c
      = if fieldLimit ≤ field.length then .error .fieldLarger
        else .ok (within state (field ++ [c]) fields) := rfl

/-- The characters of a field that is not quoted. -/
lemma resume_inField {cs : List Char} (hcs : ∀ c ∈ cs, isSpecial c = false) {field : List Char}
    (hfield : field.length ≤ fieldLimit) (fields : List String) (text : List Char) :
    resume (within .inField field fields) (cs ++ text)
      = if field.length + cs.length ≤ fieldLimit then resume (within .inField (field ++ cs) fields) text
        else ([], some .fieldLarger) := by
  induction cs generalizing field with
  | nil => simp [hfield]
  | cons c cs ih =>
      rw [List.forall_mem_cons] at hcs
      have hc := hcs.1
      simp only [isSpecial, Bool.or_eq_false_iff, decide_eq_false_iff_not] at hc
      have hstep : (within .inField field fields).processChar (some c)
          = (within .inField field fields).addChar c := by
        simp [Reader.processChar, within, endsRecord, hc]
      rw [List.cons_append, List.length_cons]
      by_cases hfull : fieldLimit ≤ field.length
      · rw [resume_error (hstep.trans ((addChar_within ..).trans (if_pos hfull))), if_neg (by omega)]
      · rw [resume_cons hc.2 (hstep.trans ((addChar_within ..).trans (if_neg hfull))),
          ih hcs.2 (by rw [List.length_append, List.length_singleton]; omega), List.length_append,
          List.length_singleton, List.append_assoc, List.singleton_append, Nat.add_assoc,
          Nat.add_comm 1]

/-- The characters of a field between quotes, which may go on to another line. -/
lemma resume_inQuotedField (cs : List Char) {field : List Char} (hfield : field.length ≤ fieldLimit)
    (fields : List String) {text : List Char} (htext : text ≠ []) :
    resume (within .inQuotedField field fields) (escaped cs ++ text)
      = if field.length + cs.length ≤ fieldLimit then
          resume (within .inQuotedField (field ++ cs) fields) text
        else ([], some .fieldLarger) := by
  induction cs generalizing field with
  | nil => simp [escaped, hfield]
  | cons c cs ih =>
      have hnext : (escaped cs ++ text) ≠ [] := by simp [htext]
      have hescaped : escaped (c :: cs) = (if c = '"' then ['"', '"'] else [c]) ++ escaped cs := rfl
      have hrest : ∀ r, r = within .inQuotedField (field ++ [c]) fields → field.length < fieldLimit →
          resume r (escaped cs ++ text) = if field.length + (c :: cs).length ≤ fieldLimit then
            resume (within .inQuotedField (field ++ c :: cs) fields) text
          else ([], some .fieldLarger) := by
        rintro r rfl hlt
        rw [ih (by rw [List.length_append, List.length_singleton]; omega), List.length_append,
          List.length_singleton, List.append_assoc, List.singleton_append, List.length_cons,
          Nat.add_assoc, Nat.add_comm 1]
      rw [hescaped, List.append_assoc]
      by_cases hquote : c = '"'
      · -- a quote is doubled
        subst hquote
        rw [if_pos rfl]
        have hfirst : (within .inQuotedField field fields).processChar (some '"')
            = .ok (within .quoteInQuotedField field fields) := rfl
        have hsecond : (within .quoteInQuotedField field fields).processChar (some '"')
            = ((within .quoteInQuotedField field fields).addChar '"').map (·.goto .inQuotedField) := rfl
        rw [addChar_within] at hsecond
        rw [List.cons_append, List.singleton_append, resume_cons (by decide) hfirst]
        by_cases hfull : fieldLimit ≤ field.length
        · rw [if_pos hfull] at hsecond
          rw [resume_error hsecond, if_neg (by rw [List.length_cons]; omega)]
        · rw [if_neg hfull] at hsecond
          rw [resume_cons (by decide) hsecond]
          exact hrest _ rfl (by omega)
      · rw [if_neg hquote, List.singleton_append]
        have hstep : (within .inQuotedField field fields).processChar (some c)
            = (within .inQuotedField field fields).addChar c := by
          simp [Reader.processChar, within, hquote]
        rw [addChar_within] at hstep
        by_cases hfull : fieldLimit ≤ field.length
        · rw [if_pos hfull] at hstep
          rw [resume_error hstep, if_neg (by rw [List.length_cons]; omega)]
        · rw [if_neg hfull] at hstep
          by_cases hnewline : c = '\n'
          · -- the line ends within the quotes
            subst hnewline
            have hend : ((within .inQuotedField field fields).processChar (some '\n')
                >>= fun r => r.processChar none)
                = .ok (within .inQuotedField (field ++ ['\n']) fields) := by
              rw [hstep]
              rfl
            rw [resume_newline hend, if_neg (by simp [within]), ← resume_of_ne_nil hnext]
            exact hrest _ rfl (by omega)
          · rw [resume_cons hnewline hstep]
            exact hrest _ rfl (by omega)

/-- **A field that was written is read**, if the reader takes so long a field; then only what follows is
left to read. -/
lemma resume_field (field : String) (fields : List String) : ∃ r, Ended r field fields
    ∧ ∀ text, text ≠ [] → resume (atField fields) (writeField field ++ text)
      = if field.toList.length ≤ fieldLimit then resume r text else ([], some .fieldLarger) := by
  have hempty : ([] : List Char).length ≤ fieldLimit := by decide
  rw [writeField]
  by_cases hspecial : field.toList.any isSpecial = true
  · refine ⟨within .quoteInQuotedField field.toList fields,
      ⟨String.ofList_toList, rfl, .inr (.inr rfl)⟩, fun text htext => ?_⟩
    have hopen : (atField fields).processChar (some '"') = .ok (within .inQuotedField [] fields) := rfl
    have hclose : (within .inQuotedField field.toList fields).processChar (some '"')
        = .ok (within .quoteInQuotedField field.toList fields) := rfl
    rw [if_pos hspecial, List.cons_append, List.append_assoc, resume_cons (by decide) hopen,
      resume_inQuotedField _ hempty _ (by simp), List.length_nil, Nat.zero_add, List.nil_append,
      List.singleton_append, resume_cons (by decide) hclose]
  · rw [if_neg hspecial]
    have hplain : ∀ c ∈ field.toList, isSpecial c = false := by simpa using hspecial
    cases hchars : field.toList with
    | nil =>
        refine ⟨atField fields, ⟨?_, rfl, .inl rfl⟩, fun text _ => (if_pos (by decide)).symm⟩
        rw [← String.ofList_toList (s := field), hchars]
        rfl
    | cons c cs =>
        rw [hchars, List.forall_mem_cons] at hplain
        have hc := hplain.1
        simp only [isSpecial, Bool.or_eq_false_iff, decide_eq_false_iff_not] at hc
        have hfirst : (atField fields).processChar (some c) = .ok (within .inField [c] fields) := by
          simp [Reader.processChar, atField, Reader.startField, endsRecord, hc, Reader.addChar,
            fieldLimit, Except.map, within, Reader.goto]
        refine ⟨within .inField (c :: cs) fields, ⟨?_, rfl, .inr (.inl rfl)⟩, fun text _ => ?_⟩
        · rw [← hchars]
          exact String.ofList_toList
        · rw [List.cons_append, resume_cons hc.2 hfirst,
            resume_inField hplain.2 (by simp [fieldLimit]), List.singleton_append, List.length_cons]
          simp [Nat.add_comm 1]

/-! ### Rows -/

/-- The reader takes fields of these lengths. -/
def Short (fields : List String) : Prop := ∀ field ∈ fields, field.toList.length ≤ fieldLimit

instance (fields : List String) : Decidable (Short fields) :=
  inferInstanceAs (Decidable (∀ field ∈ fields, field.toList.length ≤ fieldLimit))

lemma short_cons {field : String} {fields : List String} :
    Short (field :: fields) ↔ field.toList.length ≤ fieldLimit ∧ Short fields := List.forall_mem_cons

/-- The fields after the first one. -/
lemma resume_writeRest {r : Reader} {field : String} {before : List String} (h : Ended r field before)
    (fields : List String) (text : List Char) : resume r (writeRest fields ++ text)
      = if Short fields then ((before ++ field :: fields) :: (rows text).1, (rows text).2)
        else ([], some .fieldLarger) := by
  induction fields generalizing r field before with
  | nil => exact (h.resume_end text).trans (if_pos nofun).symm
  | cons next fields ih =>
      have hne : writeRest fields ++ text ≠ [] := by
        cases fields with
        | nil => simp [writeRest]
        | cons => simp [writeRest]
      obtain ⟨r', hended, hread⟩ := resume_field next (before ++ [field])
      rw [writeRest, List.cons_append, List.append_assoc, resume_cons (by decide) h.comma, hread _ hne]
      by_cases hlong : next.toList.length ≤ fieldLimit
      · rw [if_pos hlong, ih hended, List.append_assoc, List.singleton_append]
        simp only [short_cons, hlong, true_and]
      · rw [if_neg hlong, if_neg fun h => hlong (short_cons.mp h).1]

/-- A reader that has read nothing is one at the start of a field, before a character that ends no
record. -/
lemma resume_reset {c : Char} (hc : endsRecord (some c) = false) (text : List Char) :
    resume .reset (c :: text) = resume (atField []) (c :: text) := by
  have hstep : Reader.reset.processChar (some c) = (atField []).processChar (some c) := by
    simp only [Reader.processChar, Reader.reset, atField, hc, Reader.startField]
    rfl
  have hread : ∀ line, Reader.reset.readLine (c :: line) = (atField []).readLine (c :: line) := by
    intro line
    rw [Reader.readLine, Reader.readLine, List.foldlM_cons, List.foldlM_cons, hstep]
  have hline : ∀ line rest, readRows ((c :: line) :: rest) .reset
      = readRows ((c :: line) :: rest) (atField []) := by
    intro line rest
    rw [readRows, hread]
    exact (readRows.eq_2 ..).symm
  rw [resume_of_ne_nil (List.cons_ne_nil c text), resume_of_ne_nil (List.cons_ne_nil c text), lines]
  split_ifs
  · exact hline _ _
  · cases lines text with
    | nil => exact hline [] []
    | cons line rest => exact hline line rest

/-- The first character of a field that was written ends no record. -/
lemma writeField_head {field : String} (h : field ≠ "") :
    ∃ c cs, writeField field = c :: cs ∧ endsRecord (some c) = false := by
  rw [writeField]
  split_ifs with hspecial
  · exact ⟨'"', _, rfl, by decide⟩
  · cases hchars : field.toList with
    | nil => exact absurd (String.toList_eq_nil_iff.mp hchars) h
    | cons c cs =>
        have hplain : isSpecial c = false ∧ ∀ d ∈ cs, isSpecial d = false := by
          simpa [hchars] using hspecial
        have hc := hplain.1
        simp only [isSpecial, Bool.or_eq_false_iff, decide_eq_false_iff_not] at hc
        exact ⟨c, cs, rfl, by simp [endsRecord, hc]⟩

/-- **A row that was written is read**, and then the rows after it. -/
lemma rows_writeRow (fields : List String) (text : List Char) : rows (writeRow fields ++ text)
    = if Short fields then (fields :: (rows text).1, (rows text).2) else ([], some .fieldLarger) := by
  have hrow : ∀ field fields, (field ≠ "" ∨ fields ≠ []) →
      rows (writeField field ++ writeRest fields ++ text) = if Short (field :: fields) then
        ((field :: fields) :: (rows text).1, (rows text).2) else ([], some .fieldLarger) := by
    intro field fields hne
    have hrest : writeRest fields ++ text ≠ [] := by
      cases fields with
      | nil => simp [writeRest]
      | cons => simp [writeRest]
    have hhead : ∃ c cs, writeField field ++ writeRest fields ++ text = c :: cs
        ∧ endsRecord (some c) = false := by
      by_cases hempty : field = ""
      · obtain ⟨next, rest, rfl⟩ := List.exists_cons_of_ne_nil (hne.resolve_left (not_not_intro hempty))
        subst hempty
        exact ⟨',', _, rfl, by decide⟩
      · obtain ⟨c, cs, hwrite, hc⟩ := writeField_head hempty
        exact ⟨c, _, by rw [hwrite, List.cons_append, List.cons_append], hc⟩
    obtain ⟨c, cs, htext, hc⟩ := hhead
    obtain ⟨r, hended, hread⟩ := resume_field field []
    have hresume : rows (writeField field ++ writeRest fields ++ text)
        = resume (atField []) (writeField field ++ (writeRest fields ++ text)) := by
      rw [← List.append_assoc, htext, rows_eq_resume (List.cons_ne_nil c cs), resume_reset hc]
    rw [hresume, hread _ hrest]
    by_cases hlong : field.toList.length ≤ fieldLimit
    · rw [if_pos hlong, resume_writeRest hended]
      simp only [short_cons, hlong, true_and, List.nil_append]
    · rw [if_neg hlong, if_neg fun h => hlong (short_cons.mp h).1]
  rw [writeRow.eq_def]
  split
  · -- an empty row is an empty line
    have hstart : Reader.reset.processChar (some '\r') = .ok (within .eatCrnl [] []) := rfl
    have hend : ((within .eatCrnl [] []).processChar (some '\n') >>= fun r => r.processChar none)
        = .ok (within .startRecord [] []) := rfl
    rw [rows_eq_resume (by simp), List.cons_append, List.singleton_append, resume_cons (by decide) hstart,
      resume_newline hend]
    exact (if_pos rfl).trans (if_pos nofun).symm
  · have hopen : Reader.reset.processChar (some '"') = .ok (within .inQuotedField [] []) := rfl
    have hclose : (within .inQuotedField [] []).processChar (some '"')
        = .ok (within .quoteInQuotedField [] []) := rfl
    have hended : Ended (within .quoteInQuotedField [] []) "" [] := ⟨rfl, rfl, .inr (.inr rfl)⟩
    rw [rows_eq_resume (by simp), List.cons_append, List.cons_append, resume_cons (by decide) hopen,
      resume_cons (by decide) hclose]
    exact (hended.resume_end text).trans (if_pos (by decide)).symm
  · next field fields hnot =>
      refine hrow field fields ?_
      by_contra hboth
      rw [not_or, not_not, not_not] at hboth
      exact hnot hboth.1 hboth.2

/-- **The reader takes the rows that were written** exactly when no field is longer than it takes. -/
theorem failed_writeRows_iff (table : List (List String)) :
    (rows (writeRows table)).2 = none ↔ ∀ row ∈ table, Short row := by
  induction table with
  | nil => exact iff_of_true rfl nofun
  | cons row table ih =>
      rw [writeRows, List.flatMap_cons, rows_writeRow, List.forall_mem_cons, ← ih, writeRows]
      by_cases hshort : Short row
      · rw [if_pos hshort]
        simp [hshort]
      · rw [if_neg hshort]
        exact iff_of_false nofun fun h => hshort h.1

/-- **Rows are read back as they were written.** -/
theorem rows_writeRows {table : List (List String)} (h : ∀ row ∈ table, Short row) :
    rows (writeRows table) = (table, none) := by
  induction table with
  | nil => rfl
  | cons row table ih =>
      rw [List.forall_mem_cons] at h
      rw [writeRows, List.flatMap_cons, rows_writeRow, if_pos h.1, ← writeRows, ih h.2]

end Python.Csv
