import Mathlib.Tactic

/-!
Objects that get their keys when they are written.

A session gathers new objects; an object has no key until the flush that inserts its row draws one.  What
is read of a key before that is nothing, and stays nothing wherever it was copied to.

* `Model`: the kinds of rows, the rows that each refers to, and what must not be missing;
* `Database`: the database as the rows of a session meet it, with its constraints;
* `Session`, `Session.add`, `Session.idOf`, `Session.flush`, `Session.commit`: the session;
* `idOf_of_unflushed`: **an object has no key before the first flush**;
* `mem_of_commit`, `added_of_commit`: what is committed, and that it is all that was added;
* `Database.old_of_reference`: a row of a kind that the session does not add is an old one;
* `Database.bare`: the database without other constraints.
-/

namespace Orm

variable {κ R : Type}

/-- The kinds of rows, the rows to which a row refers, and whether what must be given is given. -/
structure Model (κ R : Type) where
  kind : R → κ
  references : R → List (κ × ℕ)
  complete : R → Bool

/-- A database as new rows meet it: the rows that stand in it, whose keys have all been drawn, and which
rows it accepts together: all complete, and each reference to a row that stands or comes with them. -/
structure Database (M : Model κ R) where
  fresh : ℕ
  standing : κ → ℕ → Bool
  drawn : ∀ k id, standing k id = true → id < fresh
  accepts : List (ℕ × R) → Bool
  complete : ∀ rows, accepts rows = true → ∀ row ∈ rows, M.complete row.2 = true
  referential : ∀ rows, accepts rows = true → ∀ row ∈ rows, ∀ ref ∈ M.references row.2,
    standing ref.1 ref.2 = true ∨ ∃ row' ∈ rows, M.kind row'.2 = ref.1 ∧ row'.1 = ref.2

/-- A session: the rows that it has inserted, with their keys, the objects that are not written yet, and
the next key. -/
structure Session (R : Type) where
  inserted : List (ℕ × R)
  pending : List R
  fresh : ℕ

namespace Session

/-- The session at its start. -/
def begin {M : Model κ R} (db : Database M) : Session R := ⟨[], [], db.fresh⟩

/-- A new object, by its place among those of the session. -/
def add (s : Session R) (r : R) : ℕ × Session R :=
  (s.inserted.length + s.pending.length, { s with pending := s.pending ++ [r] })

/-- The key of an object, if it has one. -/
def idOf (s : Session R) (object : ℕ) : Option ℕ := s.inserted[object]?.map Prod.fst

/-- The rows of objects, with the keys drawn for them. -/
def drawKeys : ℕ → List R → List (ℕ × R)
  | _, [] => []
  | n, r :: rs => (n, r) :: drawKeys (n + 1) rs

/-- The flush. -/
def flush (s : Session R) : Session R where
  inserted := s.inserted ++ drawKeys s.fresh s.pending
  pending := []
  fresh := s.fresh + s.pending.length

/-- The commit of what is flushed, or the refusal of the database. -/
def commit {M : Model κ R} (db : Database M) (s : Session R) : Option (List (ℕ × R)) :=
  if db.accepts s.flush.inserted then some s.flush.inserted else none

variable {M : Model κ R} {db : Database M} {s : Session R} {r : R} {rows : List (ℕ × R)}

/-- **An object has no key before the first flush.** -/
lemma idOf_of_unflushed (h : s.inserted = []) (object : ℕ) : s.idOf object = none := by
  simp [idOf, h]

/-- The object that was added last has no key. -/
lemma idOf_add (s : Session R) (r : R) : (s.add r).2.idOf (s.add r).1 = none := by
  simp [idOf, add]

@[simp] lemma inserted_begin (db : Database M) : (begin db).inserted = [] := rfl

@[simp] lemma pending_begin (db : Database M) : (begin db).pending = [] := rfl

@[simp] lemma inserted_add (s : Session R) (r : R) : (s.add r).2.inserted = s.inserted := rfl

@[simp] lemma pending_add (s : Session R) (r : R) : (s.add r).2.pending = s.pending ++ [r] := rfl

@[simp] lemma fresh_add (s : Session R) (r : R) : (s.add r).2.fresh = s.fresh := rfl

lemma snd_mem_of_mem_drawKeys {n id : ℕ} {rs : List R} (h : (id, r) ∈ drawKeys n rs) :
    r ∈ rs ∧ n ≤ id := by
  induction rs generalizing n with
  | nil => cases h
  | cons r' rs ih =>
      rcases List.mem_cons.mp h with heq | hrest
      · obtain ⟨rfl, rfl⟩ := Prod.mk.inj heq
        exact ⟨List.mem_cons_self, le_rfl⟩
      · obtain ⟨hmem, hle⟩ := ih hrest
        exact ⟨List.mem_cons_of_mem _ hmem, by omega⟩

lemma mem_drawKeys_of_mem {rs : List R} (h : r ∈ rs) (n : ℕ) : ∃ id, (id, r) ∈ drawKeys n rs := by
  induction rs generalizing n with
  | nil => cases h
  | cons r' rs ih =>
      rcases List.mem_cons.mp h with rfl | hrest
      · exact ⟨n, List.mem_cons_self⟩
      · obtain ⟨id, hid⟩ := ih hrest (n + 1)
        exact ⟨id, List.mem_cons_of_mem _ hid⟩

lemma commit_eq_some (h : s.commit db = some rows) :
    rows = s.flush.inserted ∧ db.accepts rows = true := by
  unfold commit at h
  split_ifs at h with haccepts
  obtain rfl := Option.some.inj h
  exact ⟨rfl, haccepts⟩

/-- What a session commits that has flushed nothing before was added to it, and its key is a new one. -/
lemma mem_of_commit (hs : s.inserted = []) (h : s.commit db = some rows) {id : ℕ}
    (hr : (id, r) ∈ rows) : r ∈ s.pending ∧ s.fresh ≤ id := by
  obtain ⟨rfl, -⟩ := commit_eq_some h
  rw [flush, hs, List.nil_append] at hr
  exact snd_mem_of_mem_drawKeys hr

/-- What was added is committed. -/
lemma added_of_commit (h : s.commit db = some rows) (hr : r ∈ s.pending) : ∃ id, (id, r) ∈ rows := by
  obtain ⟨rfl, -⟩ := commit_eq_some h
  obtain ⟨id, hid⟩ := mem_drawKeys_of_mem hr s.fresh
  exact ⟨id, List.mem_append_right _ hid⟩

/-- Every row that is committed is complete. -/
lemma complete_of_commit (h : s.commit db = some rows) (hr : r ∈ s.pending) :
    M.complete r = true := by
  obtain ⟨id, hid⟩ := added_of_commit h hr
  exact db.complete rows (commit_eq_some h).2 _ hid

end Session

/-- A row of a kind that no accepted row is of is an old one. -/
lemma Database.old_of_reference {M : Model κ R} (db : Database M) {rows : List (ℕ × R)} {id : ℕ}
    {r : R} {ref : κ × ℕ} (h : db.accepts rows = true) (hr : (id, r) ∈ rows)
    (href : ref ∈ M.references r) (hkind : ∀ row ∈ rows, M.kind row.2 ≠ ref.1) :
    ref.2 < db.fresh := by
  rcases db.referential rows h _ hr ref href with hstanding | ⟨row, hrow, hk, -⟩
  · exact db.drawn _ _ hstanding
  · exact absurd hk (hkind row hrow)

/-! ### No other constraints -/

section Bare

variable [DecidableEq κ] (M : Model κ R)

/-- Each row is complete, and each reference is to a row that stands or comes with it. -/
def Model.sound (standing : κ → ℕ → Bool) (rows : List (ℕ × R)) : Bool :=
  rows.all fun row => M.complete row.2 && (M.references row.2).all fun ref =>
    standing ref.1 ref.2 || rows.any fun row' => M.kind row'.2 = ref.1 && row'.1 = ref.2

variable {M} {standing : κ → ℕ → Bool} {rows : List (ℕ × R)} {row : ℕ × R}

lemma Model.complete_of_sound (h : M.sound standing rows = true) (hrow : row ∈ rows) :
    M.complete row.2 = true :=
  (Bool.and_eq_true_iff.mp (List.all_eq_true.mp h row hrow)).1

lemma Model.referential_of_sound (h : M.sound standing rows = true) (hrow : row ∈ rows) {ref : κ × ℕ}
    (href : ref ∈ M.references row.2) :
    standing ref.1 ref.2 = true ∨ ∃ row' ∈ rows, M.kind row'.2 = ref.1 ∧ row'.1 = ref.2 := by
  have hall := (Bool.and_eq_true_iff.mp (List.all_eq_true.mp h row hrow)).2
  simpa using List.all_eq_true.mp hall ref href

variable (M standing)

/-- The database that has no other constraints. -/
def Database.bare (fresh : ℕ) (drawn : ∀ k id, standing k id = true → id < fresh) : Database M where
  fresh := fresh
  standing := standing
  drawn := drawn
  accepts := M.sound standing
  complete := fun _ h _ hrow => Model.complete_of_sound h hrow
  referential := fun _ h _ hrow _ href => Model.referential_of_sound h hrow href

end Bare

end Orm
