import AgencyOS.Leads.Search
import AgencyOS.Python.CsvWriter

/-!
The export of leads.

The export asks the search for 5000 rows, and the search gives no more than a page of 200.  A CSV file
is read by `csv.reader`, which takes no field of more than 131072 characters.

* `LeadRecord`, `csvColumns`, `exportLeads`: the leads with all that is exported, and the export;
* `Answer`: an order in which the database gives the leads that match;
* `MostRecent`, `Complete`: what is promised of an export;
* `complete_iff`: **an export is complete exactly when** no more leads match than are on a page, and, for
  a CSV file, no text is too long for the reader.
-/

namespace Leads

open Python Txn.Pages

/-! ### Rows -/

/-- A lead with all columns that are exported. -/
structure LeadRecord extends LeadRow where
  location : Option String
  linkedinUrl : Option String
  notes : Option String
  dealValue : Option ℚ
  deriving DecidableEq, Repr

/-- A value that is ready to be written. -/
inductive Scalar where
  | null
  | str (s : String)
  | int (n : ℤ)
  | float (x : ℚ)
  deriving DecidableEq, Repr

/-- How ids, times and floats are written. -/
structure ScalarTexts where
  uuid : ℕ → String
  isoformat : Datetime → String
  float : ℚ → String

variable (texts : ScalarTexts)

def idScalar (id : ℕ) : Scalar := .str (texts.uuid id)

def timeScalar (time : Datetime) : Scalar := .str (texts.isoformat time)

/-- `_scalar`, of a value that may be missing. -/
def optional {α : Type} (scalar : α → Scalar) (value : Option α) : Scalar := (value.map scalar).getD .null

/-- `CSV_COLUMNS`, with the attributes. -/
def csvColumns : List (String × (LeadRecord → Scalar)) :=
  [("id", fun lead => idScalar texts lead.id),
    ("status", fun lead => .str lead.status.value),
    ("score", fun lead => .int lead.score),
    ("first_name", fun lead => optional .str lead.firstName),
    ("last_name", fun lead => optional .str lead.lastName),
    ("company", fun lead => optional .str lead.company),
    ("position", fun lead => optional .str lead.position),
    ("location", fun lead => optional .str lead.location),
    ("linkedin_url", fun lead => optional .str lead.linkedinUrl),
    ("email", fun lead => optional .str lead.email),
    ("phone", fun lead => optional .str lead.phone),
    ("whatsapp", fun lead => optional .str lead.whatsapp),
    ("website", fun lead => optional .str lead.website),
    ("notes", fun lead => optional .str lead.notes),
    ("deal_value", fun lead => optional .float lead.dealValue),
    ("stage_id", fun lead => optional (idScalar texts) lead.stageId),
    ("close_reason_id", fun lead => optional (idScalar texts) lead.closeReasonId),
    ("won_at", fun lead => optional (timeScalar texts) lead.wonAt),
    ("lost_at", fun lead => optional (timeScalar texts) lead.lostAt),
    ("lead_source_id", fun lead => optional (idScalar texts) lead.leadSourceId),
    ("owner_user_id", fun lead => optional (idScalar texts) lead.ownerUserId),
    ("created_at", fun lead => timeScalar texts lead.createdAt),
    ("updated_at", fun lead => timeScalar texts lead.updatedAt)]

/-- `_to_row`. -/
def toRow (lead : LeadRecord) : List (String × Scalar) :=
  (csvColumns texts).map fun column => (column.1, column.2 lead)

/-- What `csv.writer` writes for a value. -/
def Scalar.text : Scalar → String
  | null => ""
  | str s => s
  | int n => toString n
  | float x => texts.float x

/-- The field texts of a row. -/
def fieldTexts (row : List (String × Scalar)) : List String := row.map fun item => item.2.text texts

def header : List String := (csvColumns texts).map Prod.fst

/-- `_to_csv`. -/
def toCsv (rows : List (List (String × Scalar))) : List Char :=
  Csv.writeRows (header texts :: rows.map (fieldTexts texts))

/-! ### The export -/

/-- `_MAX_EXPORT_ROWS`. -/
def maxExportRows : ℕ := 5000

/-- What is exported: a JSON document with a count and the rows, or a CSV file. -/
inductive Export where
  | json (count : ℕ) (leads : List (List (String × Scalar)))
  | csv (payload : List Char)
  deriving DecidableEq, Repr

/-- `LeadRepository.search`, of the order in which the database gives the leads. -/
def searchRecords (limit offset : ℕ) (order : List LeadRecord) : List LeadRecord :=
  (order.drop offset).take (min limit maxPageSize)

/-- `export_leads`. -/
def exportLeads (fmt : String) (order : List LeadRecord) : Export :=
  let rows := (searchRecords maxExportRows 0 order).map (toRow texts)
  if fmt = "json" then .json rows.length rows else .csv (toCsv texts rows)

variable {κ : Type} [LinearOrder κ] (text : TextColumns κ) (leads : List LeadRecord) (organizationId : ℕ)
  (filters : LeadFilters)

/-- The leads that match. -/
def matchingRecords : List LeadRecord :=
  leads.filter fun lead => searchWhere text organizationId filters lead.toLeadRow

/-- `ORDER BY created_at DESC`. -/
def newestFirst (a b : LeadRecord) : Prop := sortsBefore text .createdAt true a.toLeadRow b.toLeadRow

/-- An order in which the database gives the leads that match. -/
structure Answer where
  order : List LeadRecord
  ordered : InOrder (newestFirst text) (matchingRecords text leads organizationId filters) order

/-! ### Complete exports -/

/-- These are the most recently created of the rows: as many as there are, or as are asked for, and
none of the others was created later. -/
def MostRecent (limit : ℕ) (rows chosen : List LeadRecord) : Prop :=
  chosen.length = min rows.length limit ∧ ∃ others, (chosen ++ others).Perm rows
    ∧ ∀ a ∈ chosen, ∀ b ∈ others, b.createdAt ≤ a.createdAt

variable {text leads organizationId filters}

lemma mostRecent_take (answer : Answer text leads organizationId filters) (limit : ℕ) :
    MostRecent limit (matchingRecords text leads organizationId filters) (answer.order.take limit) := by
  obtain ⟨hperm, hsorted⟩ := answer.ordered
  refine ⟨?_, answer.order.drop limit, ?_, ?_⟩
  · rw [List.length_take, hperm.length_eq, Nat.min_comm]
  · rw [List.take_append_drop]
    exact hperm
  · rw [← List.take_append_drop limit answer.order, List.pairwise_append] at hsorted
    intro a ha b hb
    exact hsorted.2.2 a ha b hb

/-- What is promised of an export: its rows are the most recently created leads that match, at most 5000
of them; a JSON document counts them, and a CSV file is read back with the header and their texts. -/
structure Complete (answer : Answer text leads organizationId filters) (fmt : String) : Prop where
  json : fmt = "json" → ∃ chosen,
    MostRecent maxExportRows (matchingRecords text leads organizationId filters) chosen
      ∧ exportLeads texts fmt answer.order = .json chosen.length (chosen.map (toRow texts))
  csv : fmt ≠ "json" → ∃ chosen,
    MostRecent maxExportRows (matchingRecords text leads organizationId filters) chosen
      ∧ ∃ payload, exportLeads texts fmt answer.order = .csv payload
        ∧ Csv.rows payload
          = (header texts :: chosen.map fun lead => fieldTexts texts (toRow texts lead), none)

lemma short_header : Csv.Short (header texts) := by
  intro field hfield
  have hall : ∀ field ∈ (csvColumns ⟨fun _ => "", fun _ => "", fun _ => ""⟩).map Prod.fst,
      field.toList.length ≤ Csv.fieldLimit := by decide
  exact hall field hfield

/-- The search gives no more than a page. -/
lemma length_searchRecords (answer : Answer text leads organizationId filters) :
    (searchRecords maxExportRows 0 answer.order).length
      = min maxPageSize (matchingRecords text leads organizationId filters).length := by
  rw [searchRecords, List.drop_zero, List.length_take, answer.ordered.1.length_eq]
  rfl

/-- If no more leads match than are on a page, the search gives the most recent ones. -/
lemma searchRecords_eq_take (answer : Answer text leads organizationId filters)
    (h : (matchingRecords text leads organizationId filters).length ≤ maxPageSize) :
    searchRecords maxExportRows 0 answer.order = answer.order.take maxExportRows := by
  have hlength := answer.ordered.1.length_eq
  have hpage : min maxExportRows maxPageSize = maxPageSize := by decide
  have hcap : maxPageSize ≤ maxExportRows := by decide
  rw [searchRecords, List.drop_zero, hpage, List.take_of_length_le (by omega),
    List.take_of_length_le (by omega)]

/-- An export that has all rows that are promised comes from a search that is not cut. -/
lemma length_le_of_length_eq {answer : Answer text leads organizationId filters} {chosen : List LeadRecord}
    (hchosen : MostRecent maxExportRows (matchingRecords text leads organizationId filters) chosen)
    (h : (searchRecords maxExportRows 0 answer.order).length = chosen.length) :
    (matchingRecords text leads organizationId filters).length ≤ maxPageSize := by
  have hcap : maxPageSize < maxExportRows := by decide
  rw [length_searchRecords, hchosen.1] at h
  omega

/-- **An export is complete exactly when** no more leads match than are on a page, and, for a CSV file, no
text is longer than the reader takes. -/
theorem complete_iff (answer : Answer text leads organizationId filters) (fmt : String) :
    Complete texts answer fmt
      ↔ (matchingRecords text leads organizationId filters).length ≤ maxPageSize
        ∧ (fmt ≠ "json" → ∀ lead ∈ matchingRecords text leads organizationId filters,
          Csv.Short (fieldTexts texts (toRow texts lead))) := by
  have hshort : ∀ leads : List LeadRecord,
      (∀ row ∈ header texts :: leads.map (fun lead => fieldTexts texts (toRow texts lead)), Csv.Short row)
        ↔ ∀ lead ∈ leads, Csv.Short (fieldTexts texts (toRow texts lead)) := by
    intro leads
    rw [List.forall_mem_cons, List.forall_mem_map]
    exact and_iff_right (short_header texts)
  have hcsv : fmt ≠ "json" → exportLeads texts fmt answer.order = .csv (Csv.writeRows (header texts ::
      (searchRecords maxExportRows 0 answer.order).map fun lead => fieldTexts texts (toRow texts lead))) := by
    intro hfmt
    rw [exportLeads, if_neg hfmt, toCsv, List.map_map]
    rfl
  constructor
  · intro h
    by_cases hfmt : fmt = "json"
    · obtain ⟨chosen, hchosen, hexport⟩ := h.json hfmt
      rw [exportLeads, if_pos hfmt] at hexport
      have hcount := (Export.json.inj hexport).1
      rw [List.length_map] at hcount
      exact ⟨length_le_of_length_eq hchosen hcount, fun hnot => absurd hfmt hnot⟩
    · obtain ⟨chosen, hchosen, payload, hexport, hread⟩ := h.csv hfmt
      rw [hcsv hfmt] at hexport
      obtain rfl := Export.csv.inj hexport
      -- what is read without a failure is what was written
      have htaken := (Csv.failed_writeRows_iff _).mp (congrArg Prod.snd hread)
      rw [Csv.rows_writeRows htaken] at hread
      have hrows := (List.cons.inj (Prod.mk.inj hread).1).2
      have hcount := congrArg List.length hrows
      rw [List.length_map, List.length_map] at hcount
      have hle := length_le_of_length_eq hchosen hcount
      refine ⟨hle, fun _ lead hlead => (hshort _).mp htaken lead ?_⟩
      have hcap : maxPageSize ≤ maxExportRows := by decide
      rw [searchRecords_eq_take answer hle,
        List.take_of_length_le (by rw [answer.ordered.1.length_eq]; omega)]
      exact answer.ordered.1.mem_iff.mpr hlead
  · rintro ⟨hle, htaken⟩
    have hsearch := searchRecords_eq_take answer hle
    constructor
    · intro hfmt
      refine ⟨_, mostRecent_take answer maxExportRows, ?_⟩
      rw [exportLeads, if_pos hfmt, hsearch, List.length_map]
    · intro hfmt
      refine ⟨_, mostRecent_take answer maxExportRows, _, hcsv hfmt, ?_⟩
      rw [hsearch]
      refine Csv.rows_writeRows ((hshort _).mpr fun lead hlead => htaken hfmt lead ?_)
      exact answer.ordered.1.mem_iff.mp (List.mem_of_mem_take hlead)

/-- A lead without anything but its id. -/
def exampleRecord (id : ℕ) : LeadRecord := ⟨exampleRow id 0 0, none, none, none, none⟩

/-- No filters. -/
def noFilters : LeadFilters := ⟨none, none, none, none, none, none⟩

/-- Of 201 leads one is missing. -/
theorem not_complete_201 : ¬ ∀ (texts : ScalarTexts) (leads : List LeadRecord) (organizationId : ℕ)
    (filters : LeadFilters) (answer : Answer asciiText leads organizationId filters) (fmt : String),
    Complete texts answer fmt := by
  intro h
  have hmatching : matchingRecords asciiText ((List.range 201).map exampleRecord) 1 noFilters
      = (List.range 201).map exampleRecord := by
    rw [matchingRecords, List.filter_eq_self]
    rintro lead hlead
    obtain ⟨id, -, rfl⟩ := List.mem_map.mp hlead
    rfl
  have hsorted : ((List.range 201).map exampleRecord).Pairwise (newestFirst asciiText) := by
    rw [List.pairwise_map]
    exact List.pairwise_of_forall fun _ _ => le_refl (0 : ℕ)
  have hle := ((complete_iff ⟨fun _ => "", fun _ => "", fun _ => ""⟩ _ _).mp (h _ _ 1 noFilters
    ⟨(List.range 201).map exampleRecord, by rw [hmatching], hsorted⟩ "json")).1
  rw [hmatching, List.length_map, List.length_range] at hle
  exact absurd hle (by decide)

end Leads
