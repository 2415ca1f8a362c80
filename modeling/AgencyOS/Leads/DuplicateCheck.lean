import AgencyOS.Leads.ImportWorker

/-!
The duplicate check against the unique indexes.

The check reads the leads that are not deleted, and searches the keys that the code computes.  The
indexes cover all leads, and the keys that the database computes.  The check is complete unless a
collision is hidden from it.

* `Lead.Seen`: the check finds the lead;
* `Lead.Hidden`: the indexes tell the lead, and the check cannot;
* `findDuplicates_complete_iff`: any keys;
* `phone_searched_iff`: when the code's phone key is that of the database;
* `duplicate_check_complete_iff`: the keys of the lead service and of the import worker.
-/

namespace Leads

open Python

variable (n : Normalizers)

/-- The contact fields of a lead. -/
def Lead.contact (lead : Lead) : Contact := ⟨lead.email, lead.phone, lead.whatsapp, lead.website⟩

/-- The keys that the lead service searches. -/
def serviceKeys (contact : Contact) : Keys :=
  ⟨orNone (n.lower (strip (contact.email.getD "").toList)), normalizePhone contact.phone,
    normalizeDomain n contact.website⟩

/-- One of the keys is found on the lead. -/
def Keys.match (keys : Keys) (other : Lead) : Bool :=
  clash (truthy keys.email) (other.emailNormalized n) ||
    clash (truthy keys.phone) (other.phoneNormalized n) ||
    clash (truthy keys.domain) (other.websiteDomain n)

/-- The check finds the lead. -/
def Lead.Seen (other : Lead) (keys : Keys) (organizationId : ℕ) : Prop :=
  other.organizationId = organizationId ∧ other.deletedAt = none ∧ keys.match n other = true

/-- The leads collide in a key that is not searched as the database has it. -/
def Keys.Misses (keys : Keys) (lead other : Lead) : Prop :=
  (clash (lead.emailNormalized n) (other.emailNormalized n) = true ∧
      truthy keys.email ≠ lead.emailNormalized n) ∨
    (clash (lead.phoneNormalized n) (other.phoneNormalized n) = true ∧
      truthy keys.phone ≠ lead.phoneNormalized n) ∨
    (clash (lead.websiteDomain n) (other.websiteDomain n) = true ∧
      truthy keys.domain ≠ lead.websiteDomain n)

/-- The lead collides with another one that is deleted, or in a key that is not searched. -/
def Lead.Hidden (other : Lead) (keys : Keys) (lead : Lead) : Prop :=
  other.id ≠ lead.id ∧ lead.organizationId = other.organizationId ∧
    ((other.deletedAt ≠ none ∧ lead.collides n other = true) ∨ keys.Misses n lead other)

/-- Where a collision is hidden, the check finds a lead all the same. -/
def Caught (db : Db) (keys : Keys) (lead : Lead) : Prop :=
  (∃ other ∈ db.leads, other.Hidden n keys lead) →
    ∃ other ∈ db.leads, other.Seen n keys lead.organizationId

variable {n}

/-! ### Any keys -/

lemma findDuplicates_eq_nil_iff {db : Db} {organizationId : ℕ} {keys : Keys} :
    findDuplicates n db organizationId keys.email keys.phone keys.domain = [] ↔
      ¬ ∃ other ∈ db.leads, other.Seen n keys organizationId := by
  rw [findDuplicates, List.take_eq_nil_iff, or_iff_right (by decide), List.filter_eq_nil_iff]
  simp only [Lead.Seen, Keys.match, Bool.and_eq_true, decide_eq_true_eq, not_exists, not_and]
  exact ⟨fun h other hmem horganization hdeleted => h other hmem ⟨horganization, hdeleted⟩,
    fun h other hmem hlive => h other hmem hlive.1 hlive.2⟩

lemma violates_iff {db : Db} {lead : Lead} :
    db.violates n lead = true ↔
      ∃ other ∈ db.leads, other.id ≠ lead.id ∧ lead.collides n other = true := by
  simp [Db.violates]

/-- A hidden collision is a collision. -/
lemma collides_of_hidden {keys : Keys} {lead other : Lead} (h : other.Hidden n keys lead) :
    lead.collides n other = true := by
  obtain ⟨-, horganization, ⟨-, hcollides⟩ | hmisses⟩ := h
  · exact hcollides
  · rw [Lead.collides, Bool.and_eq_true, decide_eq_true_eq, Bool.or_eq_true, Bool.or_eq_true]
    obtain ⟨hemail, -⟩ | ⟨hphone, -⟩ | ⟨hdomain, -⟩ := hmisses
    · exact ⟨horganization, Or.inl (Or.inl hemail)⟩
    · exact ⟨horganization, Or.inl (Or.inr hphone)⟩
    · exact ⟨horganization, Or.inr hdomain⟩

/-- A collision that is not hidden is seen. -/
lemma seen_of_collides {keys : Keys} {lead other : Lead} (hid : other.id ≠ lead.id)
    (hcollides : lead.collides n other = true) (hhidden : ¬ other.Hidden n keys lead) :
    other.Seen n keys lead.organizationId := by
  have hboth := hcollides
  rw [Lead.collides, Bool.and_eq_true, decide_eq_true_eq, Bool.or_eq_true, Bool.or_eq_true] at hboth
  obtain ⟨horganization, hclash⟩ := hboth
  have hlive : other.deletedAt = none := by
    by_contra hdeleted
    exact hhidden ⟨hid, horganization, Or.inl ⟨hdeleted, hcollides⟩⟩
  have hmisses : ¬ keys.Misses n lead other := fun h => hhidden ⟨hid, horganization, Or.inr h⟩
  refine ⟨horganization.symm, hlive, ?_⟩
  rw [Keys.match, Bool.or_eq_true, Bool.or_eq_true]
  obtain (hemail | hphone) | hdomain := hclash
  · have hkey : truthy keys.email = lead.emailNormalized n := by
      by_contra hne
      exact hmisses (Or.inl ⟨hemail, hne⟩)
    exact Or.inl (Or.inl (by rw [hkey]; exact hemail))
  · have hkey : truthy keys.phone = lead.phoneNormalized n := by
      by_contra hne
      exact hmisses (Or.inr (Or.inl ⟨hphone, hne⟩))
    exact Or.inl (Or.inr (by rw [hkey]; exact hphone))
  · have hkey : truthy keys.domain = lead.websiteDomain n := by
      by_contra hne
      exact hmisses (Or.inr (Or.inr ⟨hdomain, hne⟩))
    exact Or.inr (by rw [hkey]; exact hdomain)

/-- The check of some keys is complete just when no collision stays hidden. -/
lemma findDuplicates_complete_iff {db : Db} {keys : Keys} {lead : Lead} :
    (findDuplicates n db lead.organizationId keys.email keys.phone keys.domain = [] →
      db.violates n lead = false) ↔ Caught n db keys lead := by
  rw [findDuplicates_eq_nil_iff, ← Bool.not_eq_true, violates_iff, Caught]
  constructor
  · rintro hcomplete ⟨other, hmem, hhidden⟩
    by_contra hseen
    exact hcomplete hseen ⟨other, hmem, hhidden.1, collides_of_hidden hhidden⟩
  · rintro hcaught hseen ⟨other, hmem, hid, hcollides⟩
    by_cases hhidden : other.Hidden n keys lead
    · exact hseen (hcaught ⟨other, hmem, hhidden⟩)
    · exact hseen ⟨other, hmem, seen_of_collides hid hcollides hhidden⟩

/-! ### Phones -/

/-- The code searches the phone key of the database unless there are digits in the whatsapp alone. -/
lemma phone_searched_iff {lead : Lead} (hdigit : ∀ c, n.dbDigit c = (digit? c).isSome) :
    truthy (serviceKeys n lead.contact).phone = lead.phoneNormalized n ↔
      (normalizePhone lead.phone).isSome ∨ normalizePhone lead.whatsapp = none := by
  have hsame : ∀ raw, Database.normalizePhone n raw = normalizePhone raw := by
    intro raw
    cases raw with
    | none => simp [Database.normalizePhone, normalizePhone, orNone]
    | some raw =>
        have hfilter := List.filter_congr fun c (_ : c ∈ raw.toList) => hdigit c
        simp [Database.normalizePhone, normalizePhone, hfilter]
  have htruthy : truthy (normalizePhone lead.phone) = normalizePhone lead.phone := by
    cases hphone : lead.phone with
    | none => rfl
    | some raw =>
        simp only [normalizePhone, Option.bind_some, orNone]
        split_ifs with hnil
        · rfl
        · simp [truthy, orNone, hnil]
  show truthy (normalizePhone lead.phone) = lead.phoneNormalized n ↔ _
  rw [Lead.phoneNormalized, hsame, hsame, htruthy]
  cases normalizePhone lead.phone with
  | none => simp [eq_comm]
  | some key => simp

/-! ### Both callers -/

/-- **Completeness of the duplicate check**, of the lead service and of the import worker: where no
lead is found an insert violates no unique index, just when every hidden collision comes with a lead
that is found. -/
theorem duplicate_check_complete_iff (db : Db) (lead : Lead) :
    ((duplicateCheck n db lead.organizationId lead.email lead.phone lead.website = [] →
      db.violates n lead = false) ↔ Caught n db (serviceKeys n lead.contact) lead) ∧
    ((findDuplicates n db lead.organizationId (workerKeys n lead.contact).email
        (workerKeys n lead.contact).phone (workerKeys n lead.contact).domain = [] →
      db.violates n lead = false) ↔ Caught n db (workerKeys n lead.contact) lead) :=
  ⟨@findDuplicates_complete_iff n db (serviceKeys n lead.contact) lead,
    findDuplicates_complete_iff⟩

/-- A lead with a phone, or with the same number as its whatsapp. -/
def reached (id : ℕ) (phone whatsapp : Option String) : Lead :=
  newLead id 1 ⟨none, none, none, none, ⟨none, phone, whatsapp, none⟩⟩

/-- The number of another lead in the whatsapp alone is not found, and cannot be inserted. -/
theorem duplicate_check_incomplete :
    ¬ (∀ (db : Db) (lead : Lead),
      (duplicateCheck .ascii db lead.organizationId lead.email lead.phone lead.website = [] →
        db.violates .ascii lead = false)) ∧
    ¬ (∀ (db : Db) (lead : Lead),
      (findDuplicates .ascii db lead.organizationId (workerKeys .ascii lead.contact).email
          (workerKeys .ascii lead.contact).phone (workerKeys .ascii lead.contact).domain = [] →
        db.violates .ascii lead = false)) := by
  constructor
  · intro h
    have hviolates := h (Db.empty.insertLead (reached 0 (some "123") none))
      (reached 1 none (some "123")) (by decide +kernel)
    exact absurd hviolates (by decide +kernel)
  · intro h
    have hviolates := h (Db.empty.insertLead (reached 0 (some "123") none))
      (reached 1 none (some "123")) (by decide +kernel)
    exact absurd hviolates (by decide +kernel)

end Leads
