import AgencyOS.Leads.ImportWorker
import AgencyOS.Python.Csv

/-!
The rows that the import worker makes of a CSV text.

`csv.DictReader` takes the first record for the header and skips records without fields.  A value
past the last header goes under the key `None`, as a list.  Columns are mapped to the fields of a
lead, several of them to one field, and each overwrites the one before it, also with nothing.

* `columns`, `dictRecord`, `parseCsvText`: the text as the worker reads it;
* `decidingHeader`, `lastValue`, `get_rowOf`: the column whose value a field is left with;
* `csv_lossless_iff`: nothing is lost exactly when also the deciding columns are filled where others
  are.
-/

namespace Leads

open Python

variable (n : Normalizers)

/-! ### The reader -/

/-- The columns of a record: the headers with the values, none where the record is short. -/
def columns (header record : List String) : List (String × Option String) :=
  header.zip (record.map some ++ List.replicate (header.length - record.length) none)

/-- A record of `csv.DictReader`. -/
def dictRecord (header record : List String) : CsvRecord :=
  ⟨(OrderedDict.ofItems (columns header record)).items, record.drop header.length⟩

/-- The records of `csv.DictReader`, under the first of the rows. -/
def dictRecords : List (List String) → List CsvRecord
  | [] => []
  | header :: rows => (rows.filter (· ≠ [])).map (dictRecord header)

/-- What `_parse_csv` raises. -/
inductive ParseError where
  | attributeError
  | csv (error : Csv.CsvError)
  deriving DecidableEq, Repr

/-- `_parse_csv`, of the decoded text. -/
def parseCsvText (text : List Char) : Except ParseError (List RawRow) :=
  let (rows, failed) := Csv.rows text
  match parseCsv n (dictRecords rows), failed with
  | none, _ => .error .attributeError
  | some _, some e => .error (.csv e)
  | some parsed, none => .ok parsed

/-! ### What a row keeps -/

/-- `(value or "").strip()`. -/
def trimmed (value : Option String) : String := String.ofList (strip (value.getD "").toList)

/-- The fields of a lead that columns are mapped to. -/
def leadFields : List String := headerAliases.map Prod.snd

/-- Every field with a filled column has the value of a filled column. -/
def Lossless (header record : List String) (row : RawRow) : Prop :=
  ∀ field ∈ leadFields,
    (∃ column ∈ columns header record, canonicalHeader n column.1 = field ∧ trimmed column.2 ≠ "") →
    ∃ column ∈ columns header record, canonicalHeader n column.1 = field ∧ trimmed column.2 ≠ ""
      ∧ row.get field = some (trimmed column.2)

/-- Of the headers of a field, the one that comes in last. -/
def decidingHeader (header : List String) (field : String) : Option String :=
  (header.eraseDups.filter (canonicalHeader n · = field)).getLast?

/-- The value of a header in a record: that of the last of its columns. -/
def lastValue (header record : List String) (name : String) : String :=
  trimmed ((columns header record).reverse.lookup name).join

/-- The deciding column of each field is filled, where any of its columns is. -/
def DecidedWell (header record : List String) : Prop :=
  ∀ field ∈ leadFields,
    (∃ column ∈ columns header record, canonicalHeader n column.1 = field ∧ trimmed column.2 ≠ "") →
    ∀ name ∈ decidingHeader n header field, lastValue header record name ≠ ""

instance (header record : List String) : Decidable (DecidedWell n header record) :=
  inferInstanceAs (Decidable (∀ field ∈ leadFields,
    (∃ column ∈ columns header record, canonicalHeader n column.1 = field ∧ trimmed column.2 ≠ "") →
    ∀ name ∈ decidingHeader n header field, lastValue header record name ≠ ""))

variable {n} {header record : List String}

lemma headers_columns : (columns header record).map Prod.fst = header := by
  refine List.map_fst_zip ?_
  rw [List.length_append, List.length_map, List.length_replicate]
  omega

variable (record) in
lemma lookup_columns {name : String} (hname : name ∈ header) :
    ∃ value, (columns header record).reverse.lookup name = some value
      ∧ (name, value) ∈ columns header record := by
  have hsome : ((columns header record).reverse.lookup name).isSome := by
    rw [List.lookup_isSome_iff]
    have hmem : name ∈ (columns header record).map Prod.fst := by rwa [headers_columns]
    obtain ⟨column, hcolumn, hfst⟩ := List.mem_map.1 hmem
    exact ⟨column, List.mem_reverse.2 hcolumn, by simp [hfst]⟩
  obtain ⟨value, hvalue⟩ := Option.isSome_iff_exists.1 hsome
  obtain ⟨before, after, hsplit, -⟩ := List.lookup_eq_some_iff.1 hvalue
  refine ⟨value, hvalue, List.mem_reverse.1 ?_⟩
  rw [hsplit]
  exact List.mem_append_right before List.mem_cons_self

/-- A record has each of its headers once, with the value of the last column. -/
lemma fields_dictRecord :
    (dictRecord header record).fields
      = header.eraseDups.map fun name =>
          (name, ((columns header record).reverse.lookup name).join) := by
  have hitems : ∀ d : OrderedDict String (Option String),
      d.items = (d.items.map Prod.fst).map fun name => (name, (d.items.lookup name).join) := by
    intro d
    rw [List.map_map]
    refine (List.map_id _).symm.trans (List.map_congr_left fun item hitem => ?_)
    simp [(mem_iff_lookup d.nodup item).1 hitem]
  rw [dictRecord, hitems, OrderedDict.keys_ofItems, headers_columns]
  simp only [OrderedDict.lookup_ofItems]

/-- Where the items are made from a list, a key has the value of the last of its elements. -/
lemma lookup_reverse_map {α : Type} (key : α → String) (value : α → String) (l : List α)
    (k : String) :
    (l.map fun a => (key a, value a)).reverse.lookup k
      = (l.filter (key · = k)).getLast?.map value := by
  induction l using List.reverseRecOn with
  | nil => rfl
  | append_singleton l a ih =>
      rw [List.map_append, List.map_singleton, List.reverse_append, List.reverse_singleton,
        List.singleton_append, lookup_cons_ite, ih, List.filter_append]
      by_cases hk : key a = k
      · simp [hk]
      · simp [hk, Ne.symm hk]

/-- **The value of a field** is that of the deciding column. -/
lemma get_rowOf {row : RawRow} (h : rowOf n (dictRecord header record) = some row) (field : String) :
    row.get field = (decidingHeader n header field).map (lastValue header record) := by
  rw [rowOf] at h
  split_ifs at h
  rw [← Option.some.inj h, RawRow.get, OrderedDict.lookup_ofItems, fields_dictRecord, List.map_map]
  exact lookup_reverse_map _ _ _ _

lemma rowOf_dictRecord :
    (∃ row, rowOf n (dictRecord header record) = some row) ↔ record.length ≤ header.length := by
  have hrest : (dictRecord header record).rest = [] ↔ record.length ≤ header.length :=
    List.drop_eq_nil_iff
  rw [rowOf, ← hrest]
  split_ifs with h <;> simp [h]

/-- **A row loses nothing exactly when the deciding columns are filled** where others are. -/
lemma lossless_iff {row : RawRow} (h : rowOf n (dictRecord header record) = some row) :
    Lossless n header record row ↔ DecidedWell n header record := by
  refine forall₂_congr fun field _ => imp_congr_right fun hfilled => ?_
  rw [get_rowOf h]
  constructor
  · rintro ⟨column, -, -, hne, hget⟩ name hname
    rw [Option.mem_def.1 hname, Option.map_some, Option.some_inj] at hget
    rwa [hget]
  · intro hdecided
    obtain ⟨column, hcolumn, hfield, -⟩ := hfilled
    have hheader : column.1 ∈ header := by
      have hmem := List.mem_map_of_mem (f := Prod.fst) hcolumn
      rwa [headers_columns] at hmem
    have hcand : column.1 ∈ header.eraseDups.filter (canonicalHeader n · = field) := by
      simp [hheader, hfield]
    obtain ⟨name, hname⟩ : ∃ name, decidingHeader n header field = some name :=
      Option.isSome_iff_exists.1 (List.getLast?_isSome.2 (List.ne_nil_of_mem hcand))
    obtain ⟨hmem, hcanonical⟩ := List.mem_filter.1 (List.mem_of_getLast? hname)
    obtain ⟨value, hlookup, hvalue⟩ := lookup_columns record (List.mem_eraseDups.1 hmem)
    have hlast : lastValue header record name = trimmed value := by rw [lastValue, hlookup]; rfl
    have hne := hdecided name hname
    rw [hlast] at hne
    exact ⟨(name, value), hvalue, of_decide_eq_true hcanonical, hne, by rw [hname, ← hlast]; rfl⟩

/-! ### The file -/

/-- The rows of the records, one for each. -/
lemma parseCsv_eq_some {records : List (List String)} {parsed : List RawRow} :
    parseCsv n (records.map (dictRecord header)) = some parsed
      ↔ List.Forall₂ (fun record row => rowOf n (dictRecord header record) = some row)
          records parsed := by
  rw [parseCsv]
  induction records generalizing parsed with
  | nil => simp [eq_comm]
  | cons record records ih =>
      rw [List.map_cons, List.mapM_cons, List.forall₂_cons_left_iff]
      constructor
      · intro h
        obtain ⟨row, hrow, h⟩ := Option.bind_eq_some_iff.1 h
        obtain ⟨rest, hrest, h⟩ := Option.bind_eq_some_iff.1 h
        exact ⟨row, rest, hrow, ih.1 hrest, (Option.some.inj h).symm⟩
      · rintro ⟨row, rest, hrow, hrest, rfl⟩
        rw [hrow, ih.2 hrest]
        rfl

/-- There are rows when no record is too long. -/
lemma exists_parseCsv_iff {records : List (List String)} :
    (∃ parsed, parseCsv n (records.map (dictRecord header)) = some parsed)
      ↔ ∀ record ∈ records, record.length ≤ header.length := by
  simp only [parseCsv_eq_some]
  induction records with
  | nil => simp
  | cons record records ih =>
      rw [List.forall_mem_cons, ← ih, ← rowOf_dictRecord (n := n)]
      constructor
      · rintro ⟨_, hrow⟩
        cases hrow with
        | cons hrow hrest => exact ⟨⟨_, hrow⟩, _, hrest⟩
      · rintro ⟨⟨row, hrow⟩, rest, hrest⟩
        exact ⟨row :: rest, .cons hrow hrest⟩

lemma forall₂_lossless_iff {records : List (List String)} {parsed : List RawRow}
    (h : parseCsv n (records.map (dictRecord header)) = some parsed) :
    List.Forall₂ (Lossless n header) records parsed
      ↔ ∀ record ∈ records, DecidedWell n header record := by
  induction parseCsv_eq_some.1 h with
  | nil => simp
  | cons hrow hrest ih =>
      rw [List.forall₂_cons, List.forall_mem_cons, lossless_iff hrow, ih (parseCsv_eq_some.2 hrest)]

lemma parseCsvText_eq_ok {text : List Char} {parsed : List RawRow} :
    parseCsvText n text = .ok parsed
      ↔ parseCsv n (dictRecords (Csv.rows text).1) = some parsed ∧ (Csv.rows text).2 = none := by
  rw [parseCsvText]
  obtain ⟨rows, failed⟩ := Csv.rows text
  dsimp only
  cases parseCsv n (dictRecords rows) with
  | none => simp
  | some parsed => cases failed <;> simp

/-- **Parsing loses nothing exactly when** the reader reads the text to its end, no record is longer
than the header, and in each record the deciding column of a field is filled where one of its
columns is. -/
theorem csv_lossless_iff (n : Normalizers) {text : List Char} {header : List String}
    {records : List (List String)} {failed : Option Csv.CsvError}
    (h : Csv.rows text = (header :: records, failed)) :
    (∃ parsed, parseCsvText n text = .ok parsed
        ∧ List.Forall₂ (Lossless n header) (records.filter (· ≠ [])) parsed)
      ↔ failed = none ∧ ∀ record ∈ records.filter (· ≠ []),
          record.length ≤ header.length ∧ DecidedWell n header record := by
  rw [forall₂_and, ← exists_parseCsv_iff (n := n)]
  constructor
  · rintro ⟨parsed, hparsed, hlossless⟩
    rw [parseCsvText_eq_ok, h] at hparsed
    exact ⟨hparsed.2, ⟨parsed, hparsed.1⟩, (forall₂_lossless_iff hparsed.1).1 hlossless⟩
  · rintro ⟨hread, ⟨parsed, hparsed⟩, hdecided⟩
    refine ⟨parsed, ?_, (forall₂_lossless_iff hparsed).2 hdecided⟩
    rw [parseCsvText_eq_ok, h]
    exact ⟨hparsed, hread⟩

/-- A title without a position column, a blank line and a short record. -/
theorem csv_lossless_title :
    ∃ parsed, parseCsvText .ascii "Email, Title \na@x.co,CTO\n\nb@x.co\n".toList = .ok parsed
      ∧ List.Forall₂ (Lossless .ascii ["Email", " Title "])
        ([["a@x.co", "CTO"], [], ["b@x.co"]].filter (· ≠ [])) parsed := by
  have hrows : Csv.rows "Email, Title \na@x.co,CTO\n\nb@x.co\n".toList
      = (["Email", " Title "] :: [["a@x.co", "CTO"], [], ["b@x.co"]], none) := by decide +kernel
  exact (csv_lossless_iff .ascii hrows).2 ⟨rfl, by decide +kernel⟩

/-- A value past the header, and an empty position after a title. -/
theorem csv_loses :
    (¬ ∃ parsed, parseCsvText .ascii "email\na@x.co,1\n".toList = .ok parsed)
      ∧ ¬ ∃ parsed, parseCsvText .ascii "email,title,position\na@x.co,CTO,\n".toList = .ok parsed
        ∧ List.Forall₂ (Lossless .ascii ["email", "title", "position"]) [["a@x.co", "CTO", ""]]
          parsed := by
  constructor
  · rintro ⟨parsed, hparsed⟩
    have hrows : dictRecords (Csv.rows "email\na@x.co,1\n".toList).1
        = [["a@x.co", "1"]].map (dictRecord ["email"]) := by decide +kernel
    rw [parseCsvText_eq_ok, hrows] at hparsed
    have hlength := exists_parseCsv_iff.1 ⟨parsed, hparsed.1⟩
    simp at hlength
  · rintro ⟨parsed, hparsed, hlossless⟩
    have hrows : dictRecords (Csv.rows "email,title,position\na@x.co,CTO,\n".toList).1
        = [["a@x.co", "CTO", ""]].map (dictRecord ["email", "title", "position"]) := by
      decide +kernel
    rw [parseCsvText_eq_ok, hrows] at hparsed
    have hdecided := (forall₂_lossless_iff hparsed.1).1 hlossless
    revert hdecided
    decide +kernel

end Leads
