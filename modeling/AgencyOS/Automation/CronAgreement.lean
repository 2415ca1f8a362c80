import AgencyOS.Automation.CronGrammar

/-!
Where `validate_cron` and the documented syntax agree.

The parser lets a step pass after a single value, and it turns a 7 into 0 before it compares the ends
of a range: a range from 7 passes, one to 7 does not unless it starts at 0, and then it is Sunday only.

* `Item.Written.unique`: a text says one thing at most;
* `Item.SteppedValue`, `Item.FromSunday`, `Item.ToSunday`, `Item.WholeWeek`: the items the two treat
  differently;
* `taken_iff`, `mem_takes_iff`: they agree on all others;
* `parse_agrees_iff`: **an expression is read as it is written unless one of these items decides.**
-/

namespace Automation

namespace ScheduleCron

open Python

variable {field : Field}

/-! ### A text says one thing -/

lemma StepWritten.unique {step step' : Option ℕ} {text : List Char} (h : StepWritten step text)
    (h' : StepWritten step' text) : step = step' := by
  match step, step', h, h' with
  | none, none, _, _ => rfl
  | none, some s, rfl, ⟨digits, h, _⟩ => cases h
  | some s, none, ⟨digits, h, _⟩, rfl => cases h
  | some s, some s', ⟨digits, rfl, hint, _⟩, ⟨digits', heq, hint', _⟩ =>
      obtain rfl := List.tail_eq_of_cons_eq heq
      exact hint.symm.trans hint'

lemma Token.unique {v v' : ℕ} {text : List Char} (h : Token field v text) (h' : Token field v' text) :
    v = v' :=
  Option.some.inj (h.1.symm.trans h'.1)

lemma Base.Written.unique {base base' : Base} {text : List Char} (h : base.Written field text)
    (h' : base'.Written field text) : base = base' := by
  match base, base', h, h' with
  | .value v, .value v', h, h' => exact congrArg _ (Token.unique h h')
  | .range a b, .range a' b', ⟨start, stop, htext, ha, hb⟩, ⟨start', stop', htext', ha', hb'⟩ =>
      have hsplit := congrArg (partition '-') (htext.symm.trans htext')
      rw [partition_append (token?_chars ha.1).2.1, partition_append (token?_chars ha'.1).2.1] at hsplit
      obtain ⟨rfl, rfl⟩ := Prod.mk.inj hsplit
      rw [ha.unique ha', hb.unique hb']
  | .every, .every, _, _ => rfl
  | .value v, .range a b, h, ⟨start, stop, heq, _⟩ =>
      exact absurd (by simp [heq]) (token?_chars h.1).2.1
  | .range a b, .value v, ⟨start, stop, heq, _⟩, h =>
      exact absurd (by simp [heq]) (token?_chars h.1).2.1
  | .value v, .every, h, h' => exact h.chars.2.2.2.1 h'
  | .every, .value v, h, h' => exact (h'.chars.2.2.2.1 h).symm
  | .range a b, .every, h, h' => exact h.chars.2.2.2.1 h'
  | .every, .range a b, h, h' => exact (h'.chars.2.2.2.1 h).symm

/-- The base of an item is what comes before its step. -/
lemma takeWhile_base {base suffix : List Char} {step : Option ℕ} (hbase : '/' ∉ base)
    (hstep : StepWritten step suffix) : (base ++ suffix).takeWhile (· ≠ '/') = base := by
  have hpass : ∀ c ∈ base, decide (c ≠ '/') = true := by
    intro c hc
    rw [decide_eq_true_eq]
    rintro rfl
    exact hbase hc
  rw [List.takeWhile_append_of_pos hpass]
  match step, hstep with
  | none, rfl => simp
  | some s, ⟨digits, rfl, _⟩ => simp

lemma Item.Written.unique {item item' : Item} {text : List Char} (h : item.Written field text)
    (h' : item'.Written field text) : item = item' := by
  obtain ⟨-, base, step, rfl, hbase, hstep⟩ := h
  obtain ⟨-, base', step', heq, hbase', hstep'⟩ := h'
  have hbases : base = base' := by
    rw [← takeWhile_base hbase.chars.2.1 hstep, heq, takeWhile_base hbase'.chars.2.1 hstep']
  subst hbases
  obtain rfl := List.append_cancel_left heq
  obtain ⟨b, s⟩ := item
  obtain ⟨b', s'⟩ := item'
  rw [Item.mk.injEq]
  exact ⟨hbase.unique hbase', hstep.unique hstep'⟩

/-! ### The items in question -/

namespace Item

/-- `n/s`. -/
def SteppedValue (item : Item) : Prop := ∃ v s, item = ⟨.value v, some s⟩

/-- A range of weekdays from 7 to a smaller one. -/
def FromSunday (field : Field) (item : Item) : Prop :=
  field = .dayOfWeek ∧ ∃ b step, item = ⟨.range 7 b, step⟩ ∧ b < 7

/-- A range of weekdays from one after Sunday to 7. -/
def ToSunday (field : Field) (item : Item) : Prop :=
  field = .dayOfWeek ∧ ∃ a step, item = ⟨.range a 7, step⟩ ∧ 1 ≤ a ∧ a < 7

/-- A range of weekdays from 0 to 7. -/
def WholeWeek (field : Field) (item : Item) : Prop :=
  field = .dayOfWeek ∧ ∃ step, item = ⟨.range 0 7, step⟩

/-- What passes against the documented syntax. -/
def Lenient (field : Field) (item : Item) : Prop := item.SteppedValue ∨ item.FromSunday field

end Item

lemma Item.Lenient.not_regular {item : Item} (h : item.Lenient field) : ¬ item.Regular := by
  rcases h with ⟨v, s, rfl⟩ | ⟨-, b, step, rfl, hb⟩
  · exact Option.some_ne_none s
  · exact not_le.2 hb

lemma Item.Lenient.taken {item : Item} (h : item.Lenient field) : item.Taken field := by
  rcases h with ⟨v, s, rfl⟩ | ⟨rfl, b, step, rfl, hb⟩
  · trivial
  · exact Nat.zero_le _

lemma Item.ToSunday.not_taken {item : Item} (h : item.ToSunday field) : ¬ item.Taken field := by
  obtain ⟨rfl, a, step, rfl, hpos, ha⟩ := h
  have hfold : Field.dayOfWeek.fold a = a := fold_of_le_hi (Nat.le_of_lt_succ ha)
  have hsunday : Field.dayOfWeek.fold 7 = 0 := rfl
  change ¬ Field.dayOfWeek.fold a ≤ Field.dayOfWeek.fold 7
  omega

/-- **The parser passes what is regular but for the ranges to 7, and what is lenient.** -/
lemma taken_iff {item : Item} {text : List Char} (h : item.Written field text) :
    item.Taken field ↔ item.Regular ∧ ¬ item.ToSunday field ∨ item.Lenient field := by
  constructor
  · intro htaken
    by_cases hregular : item.Regular
    · exact Or.inl ⟨hregular, fun hto => hto.not_taken htaken⟩
    · refine Or.inr ?_
      obtain ⟨base, step⟩ := item
      obtain ⟨-, text', -, -, hbase, -⟩ := h
      match base, hbase with
      | .value v, _ =>
          cases step with
          | none => exact absurd rfl hregular
          | some s => exact Or.inl ⟨v, s, rfl⟩
      | .range a b, ⟨_, _, _, ha, hb⟩ =>
          have hlt : b < a := not_le.1 hregular
          have hle : field.fold a ≤ field.fold b := htaken
          rcases le_hi_or_sunday ha.2.2 with hhi | ⟨rfl, rfl⟩
          · rw [fold_of_le_hi hhi, fold_of_le_hi (hlt.le.trans hhi)] at hle
            omega
          · exact Or.inr ⟨rfl, b, step, rfl, hlt⟩
      | .every, _ => exact absurd trivial hregular
  · rintro (⟨hregular, hto⟩ | hlenient)
    · obtain ⟨base, step⟩ := item
      obtain ⟨-, text', -, -, hbase, -⟩ := h
      match base, hbase with
      | .value v, _ => trivial
      | .range a b, ⟨_, _, _, ha, hb⟩ =>
          have hle : a ≤ b := hregular
          change field.fold a ≤ field.fold b
          rcases le_hi_or_sunday hb.2.2 with hhi | ⟨rfl, rfl⟩
          · rwa [fold_of_le_hi hhi, fold_of_le_hi (hle.trans hhi)]
          · rcases Nat.eq_zero_or_pos a with rfl | hpos
            · exact Nat.zero_le _
            · rcases hle.lt_or_eq with hlt | rfl
              · exact absurd ⟨rfl, a, step, rfl, hpos, hlt⟩ hto
              · exact le_rfl
      | .every, _ => trivial
    · exact hlenient.taken

/-- **The values the parser adds are those that are meant**, but for a whole week. -/
lemma mem_takes_iff {item : Item} {text : List Char} (h : item.Written field text)
    (hregular : item.Regular) (htaken : item.Taken field) (hweek : ¬ item.WholeWeek field) (n : ℕ) :
    n ∈ item.takes field ↔ n ∈ item.denotes field := by
  obtain ⟨base, step⟩ := item
  obtain ⟨-, text', -, -, hbase, -⟩ := h
  match base, hbase with
  | .value v, _ => exact List.mem_singleton
  | .every, _ => exact mem_range
  | .range a b, ⟨_, _, _, ha, hb⟩ =>
      have hle : a ≤ b := hregular
      change n ∈ range (field.fold a) (field.fold b) _ ↔ ∃ m, _
      rw [mem_range]
      rcases le_hi_or_sunday hb.2.2 with hhi | ⟨rfl, rfl⟩
      · rw [fold_of_le_hi hhi, fold_of_le_hi (hle.trans hhi)]
        constructor
        · rintro ⟨hstart, hstop, hstep⟩
          exact ⟨n, hstart, hstop, hstep, fold_of_le_hi (hstop.trans hhi)⟩
        · rintro ⟨m, hstart, hstop, hstep, rfl⟩
          rw [fold_of_le_hi (hstop.trans hhi)]
          exact ⟨hstart, hstop, hstep⟩
      · -- the range is from 7 to 7
        have hseven : a = 7 := by
          by_contra hne
          have hlt : a < 7 := lt_of_le_of_ne hle hne
          have hfold : Field.dayOfWeek.fold a = a := fold_of_le_hi (Nat.le_of_lt_succ hlt)
          have hzero : Field.dayOfWeek.fold a ≤ 0 := htaken
          rw [hfold, Nat.le_zero] at hzero
          subst hzero
          exact hweek ⟨rfl, step, rfl⟩
        subst hseven
        have hfold : Field.dayOfWeek.fold 7 = 0 := rfl
        rw [hfold]
        constructor
        · rintro ⟨-, hstop, -⟩
          obtain rfl := Nat.le_zero.1 hstop
          exact ⟨7, le_rfl, le_rfl, by simp, rfl⟩
        · rintro ⟨m, hstart, hstop, -, rfl⟩
          obtain rfl := le_antisymm hstop hstart
          exact ⟨Nat.zero_le _, Nat.le_refl 0, by simp [Field.fold]⟩

/-- A whole week is taken for Sunday. -/
lemma Item.WholeWeek.mem_takes {item : Item} (h : item.WholeWeek field) (n : ℕ) :
    n ∈ item.takes field ↔ n = 0 := by
  obtain ⟨rfl, step, rfl⟩ := h
  change n ∈ range 0 0 _ ↔ _
  rw [mem_range]
  constructor
  · rintro ⟨-, hstop, -⟩
    exact Nat.le_zero.1 hstop
  · rintro rfl
    simp

lemma Item.WholeWeek.zero_mem {item : Item} (h : item.WholeWeek field) : 0 ∈ item.denotes field := by
  obtain ⟨rfl, step, rfl⟩ := h
  exact ⟨0, le_rfl, Nat.zero_le _, by simp, rfl⟩

/-! ### Expressions -/

/-- The text between two commas of a field that is no wildcard. -/
def Piece (texts : Field → List Char) (field : Field) (piece : List Char) : Prop :=
  ¬ Wildcard (texts field) ∧ piece ∈ (texts field).splitOn ','

/-- The expression has the item in a field. -/
def Names (expression : String) (field : Field) (item : Item) : Prop :=
  ∃ texts, Texts expression texts ∧ ∃ piece, Piece texts field piece
    ∧ item.Written field (piece.map upper)

/-- Some item of the expression is neither of the documented syntax nor passes against it. -/
def Garbled (expression : String) : Prop :=
  ∃ texts, Texts expression texts ∧ ∃ field piece, Piece texts field piece
    ∧ ∀ item : Item, item.Written field (piece.map upper) → ¬ item.Regular ∧ ¬ item.Lenient field

/-- The documented syntax of an expression. -/
def Grammatical (expression : String) : Prop :=
  ∃ texts, Texts expression texts ∧ ∀ field, Wildcard (texts field) ∨
    ∃ items, Reads field (texts field) items ∧ ∀ item ∈ items, Item.Regular item

/-- The values of a field are those that its items stand for. -/
def Denoted (field : Field) (text : List Char) : Option (List ℕ) → Prop
  | none => Wildcard text
  | some values => ∃ items, Reads field text items
      ∧ ∀ n, n ∈ values ↔ ∃ item ∈ items, n ∈ Item.denotes field item

/-- The expression is accepted when it is grammatical, and its fields are what their items stand
for. -/
def ReadAsWritten (expression : String) : Prop :=
  ((∃ fields, parse expression = .ok fields) ↔ Grammatical expression)
    ∧ ∀ fields texts, parse expression = .ok fields → Texts expression texts →
      ∀ field, Denoted field (texts field) (fields.get field)

section Expression

variable {expression : String} {texts : Field → List Char}

/-- Items for all the pieces, when there is one for each. -/
lemma exists_readsAll {P : Item → Prop} {pieces : List (List Char)} :
    (∃ items, ReadsAll field pieces items ∧ ∀ item ∈ items, P item) ↔
      ∀ piece ∈ pieces, ∃ item : Item, item.Written field (piece.map upper) ∧ P item := by
  induction pieces with
  | nil => simp [ReadsAll]
  | cons piece pieces ih =>
      rw [List.forall_mem_cons, ← ih]
      simp only [ReadsAll, List.forall₂_cons_left_iff]
      constructor
      · rintro ⟨_, ⟨item, items, hwritten, hreads, rfl⟩, hall⟩
        obtain ⟨hitem, hall⟩ := List.forall_mem_cons.1 hall
        exact ⟨⟨item, hwritten, hitem⟩, items, hreads, hall⟩
      · rintro ⟨⟨item, hwritten, hitem⟩, items, hreads, hall⟩
        exact ⟨_, ⟨item, items, hwritten, hreads, rfl⟩, List.forall_mem_cons.2 ⟨hitem, hall⟩⟩

lemma grammatical_iff (htexts : Texts expression texts) :
    Grammatical expression ↔ ∀ field piece, Piece texts field piece →
      ∃ item : Item, item.Written field (piece.map upper) ∧ item.Regular := by
  constructor
  · rintro ⟨texts', htexts', hall⟩ field piece ⟨hwild, hmem⟩
    obtain rfl := htexts'.unique htexts
    exact exists_readsAll.1 ((hall field).resolve_left hwild) piece hmem
  · intro hall
    refine ⟨texts, htexts, fun field => or_iff_not_imp_left.2 fun hwild => ?_⟩
    exact exists_readsAll.2 fun piece hmem => hall field piece ⟨hwild, hmem⟩

lemma accepted_iff (htexts : Texts expression texts) :
    (∃ fields, parse expression = .ok fields) ↔ ∀ field piece, Piece texts field piece →
      ∃ item : Item, item.Written field (piece.map upper) ∧ item.Taken field := by
  constructor
  · rintro ⟨fields, hparse⟩ field piece ⟨hwild, hmem⟩
    obtain ⟨texts', htexts', hread⟩ := parse_eq_ok.1 hparse
    obtain rfl := htexts'.unique htexts
    have hfield := hread field
    cases hget : fields.get field with
    | none =>
        rw [hget, parseField_eq_none (htexts.not_isSpace field)] at hfield
        exact absurd hfield hwild
    | some values =>
        rw [hget, parseField_eq_some (htexts.not_isSpace field)] at hfield
        obtain ⟨-, items, hreads, htaken, -⟩ := hfield
        exact exists_readsAll.1 ⟨items, hreads, htaken⟩ piece hmem
  · intro hall
    have hread : ∀ field, ∃ r, parseField field (texts field) = .ok r := by
      intro field
      by_cases hwild : Wildcard (texts field)
      · exact ⟨none, (parseField_eq_none (htexts.not_isSpace field)).2 hwild⟩
      · obtain ⟨items, hreads, htaken⟩ :=
          exists_readsAll.2 fun piece hmem => hall field piece ⟨hwild, hmem⟩
        exact ⟨_, (parseField_eq_some (htexts.not_isSpace field)).2
          ⟨hwild, items, hreads, htaken, rfl⟩⟩
    choose r hr using hread
    refine ⟨⟨r .minute, r .hour, r .dayOfMonth, r .month, r .dayOfWeek⟩,
      parse_eq_ok.2 ⟨texts, htexts, fun field => ?_⟩⟩
    cases field <;> exact hr _

/-- Unless an item is garbled, each piece is an item that is regular or lenient. -/
lemma exists_item (htexts : Texts expression texts) (hgarbled : ¬ Garbled expression)
    {piece : List Char} (hpiece : Piece texts field piece) :
    ∃ item : Item, item.Written field (piece.map upper) ∧ (item.Regular ∨ item.Lenient field) := by
  by_contra hnone
  refine hgarbled ⟨texts, htexts, field, piece, hpiece, fun item hwritten => ?_⟩
  exact not_or.1 fun hitem => hnone ⟨item, hwritten, hitem⟩

/-- A garbled expression is neither accepted nor grammatical. -/
lemma Garbled.refused (h : Garbled expression) :
    (¬ ∃ fields, parse expression = .ok fields) ∧ ¬ Grammatical expression := by
  obtain ⟨texts, htexts, field, piece, hpiece, hnone⟩ := h
  rw [accepted_iff htexts, grammatical_iff htexts]
  constructor
  · intro hall
    obtain ⟨item, hwritten, htaken⟩ := hall field piece hpiece
    obtain ⟨hregular, hlenient⟩ := hnone item hwritten
    rcases (taken_iff hwritten).1 htaken with ⟨h, -⟩ | h
    · exact hregular h
    · exact hlenient h
  · intro hall
    obtain ⟨item, hwritten, hregular⟩ := hall field piece hpiece
    exact (hnone item hwritten).1 hregular

lemma accepted_iff_names (htexts : Texts expression texts) (hgarbled : ¬ Garbled expression) :
    (∃ fields, parse expression = .ok fields)
      ↔ ¬ ∃ field item, Names expression field item ∧ item.ToSunday field := by
  rw [accepted_iff htexts]
  constructor
  · rintro hall ⟨field, item, ⟨texts', htexts', piece, hpiece, hwritten⟩, hto⟩
    obtain rfl := htexts'.unique htexts
    obtain ⟨item', hwritten', htaken⟩ := hall field piece hpiece
    obtain rfl := hwritten.unique hwritten'
    exact hto.not_taken htaken
  · intro hnone field piece hpiece
    obtain ⟨item, hwritten, hitem⟩ := exists_item htexts hgarbled hpiece
    refine ⟨item, hwritten, (taken_iff hwritten).2 (hitem.imp_left fun hregular => ⟨hregular, ?_⟩)⟩
    exact fun hto => hnone ⟨field, item, ⟨texts, htexts, piece, hpiece, hwritten⟩, hto⟩

lemma grammatical_iff_names (htexts : Texts expression texts) (hgarbled : ¬ Garbled expression) :
    Grammatical expression
      ↔ ¬ ∃ field item, Names expression field item ∧ item.Lenient field := by
  rw [grammatical_iff htexts]
  constructor
  · rintro hall ⟨field, item, ⟨texts', htexts', piece, hpiece, hwritten⟩, hlenient⟩
    obtain rfl := htexts'.unique htexts
    obtain ⟨item', hwritten', hregular⟩ := hall field piece hpiece
    obtain rfl := hwritten.unique hwritten'
    exact hlenient.not_regular hregular
  · intro hnone field piece hpiece
    obtain ⟨item, hwritten, hitem⟩ := exists_item htexts hgarbled hpiece
    refine ⟨item, hwritten, hitem.resolve_right fun hlenient => ?_⟩
    exact hnone ⟨field, item, ⟨texts, htexts, piece, hpiece, hwritten⟩, hlenient⟩

/-- The items of a field are those the expression names in it. -/
lemma mem_iff_names (htexts : Texts expression texts) (hwild : ¬ Wildcard (texts field))
    {items : List Item} (hreads : Reads field (texts field) items) {item : Item} :
    item ∈ items ↔ Names expression field item := by
  constructor
  · intro hitem
    obtain ⟨i, hi, rfl⟩ := List.getElem_of_mem hitem
    have hi' : i < ((texts field).splitOn ',').length := by rwa [hreads.length_eq]
    exact ⟨texts, htexts, _, ⟨hwild, List.getElem_mem hi'⟩, List.Forall₂.get hreads hi' hi⟩
  · rintro ⟨texts', htexts', piece, ⟨-, hpiece⟩, hwritten⟩
    obtain rfl := htexts'.unique htexts
    obtain ⟨i, hi, rfl⟩ := List.getElem_of_mem hpiece
    have hi' : i < items.length := by rwa [← hreads.length_eq]
    rw [hwritten.unique (List.Forall₂.get hreads hi hi')]
    exact List.getElem_mem hi'

/-- What a whole week stands for is named by other items of its field as well, but for Sunday. -/
def Spared (expression : String) : Prop :=
  ∀ field item, Names expression field item → item.WholeWeek field → ∀ d ∈ item.denotes field,
    d = 0 ∨ ∃ item', Names expression field item' ∧ ¬ item'.WholeWeek field ∧ d ∈ item'.denotes field

lemma denoted_iff_spared {fields : Fields} (htexts : Texts expression texts)
    (hparse : parse expression = .ok fields)
    (hregular : ∀ field item, Names expression field item → item.Regular) :
    (∀ field, Denoted field (texts field) (fields.get field)) ↔ Spared expression := by
  obtain ⟨texts', htexts', hread⟩ := parse_eq_ok.1 hparse
  obtain rfl := htexts'.unique htexts
  -- the values of a field are those that its items add
  have hvalues : ∀ field values, fields.get field = some values → ¬ Wildcard (texts' field)
      ∧ ∃ items, Reads field (texts' field) items ∧
        (∀ n, n ∈ values ↔ ∃ item, Names expression field item ∧ n ∈ item.takes field) := by
    intro field values hget
    have hfield := hread field
    rw [hget, parseField_eq_some (htexts.not_isSpace field)] at hfield
    obtain ⟨hwild, items, hreads, -, rfl⟩ := hfield
    refine ⟨hwild, items, hreads, fun n => ?_⟩
    simp [mem_iff_names htexts hwild hreads]
  have hmeant : ∀ {field item}, Names expression field item → ¬ item.WholeWeek field → ∀ n,
      n ∈ item.takes field ↔ n ∈ item.denotes field := by
    intro field item hnames hweek n
    have hregular := hregular field item hnames
    have haccepted := (accepted_iff htexts).1 ⟨fields, hparse⟩
    obtain ⟨texts, htexts, piece, hpiece, hwritten⟩ := hnames
    obtain rfl := htexts'.unique htexts
    obtain ⟨item', hwritten', htaken⟩ := haccepted field piece hpiece
    obtain rfl := hwritten.unique hwritten'
    exact mem_takes_iff hwritten hregular htaken hweek n
  constructor
  · intro hdenoted field item hnames hweek d hd
    cases hget : fields.get field with
    | none =>
        have hwild := hdenoted field
        obtain ⟨texts, htexts, piece, ⟨hnot, -⟩, -⟩ := hnames
        obtain rfl := htexts'.unique htexts
        rw [hget] at hwild
        exact absurd hwild hnot
    | some values =>
        obtain ⟨hwild, -, -, htakes⟩ := hvalues field values hget
        have hfield := hdenoted field
        rw [hget] at hfield
        obtain ⟨items, hreads, hmem⟩ := hfield
        obtain ⟨item', hnames', hd'⟩ :=
          (htakes d).1 ((hmem d).2 ⟨item, (mem_iff_names htexts hwild hreads).2 hnames, hd⟩)
        by_cases hweek' : item'.WholeWeek field
        · exact Or.inl ((hweek'.mem_takes d).1 hd')
        · exact Or.inr ⟨item', hnames', hweek', (hmeant hnames' hweek' d).1 hd'⟩
  · intro hspared field
    cases hget : fields.get field with
    | none =>
        have hfield := hread field
        rwa [hget, parseField_eq_none (htexts.not_isSpace field)] at hfield
    | some values =>
        obtain ⟨hwild, items, hreads, htakes⟩ := hvalues field values hget
        refine ⟨items, hreads, fun n => (htakes n).trans ⟨?_, ?_⟩⟩
        · rintro ⟨item, hnames, hn⟩
          refine ⟨item, (mem_iff_names htexts hwild hreads).2 hnames, ?_⟩
          by_cases hweek : item.WholeWeek field
          · rw [(hweek.mem_takes n).1 hn]
            exact hweek.zero_mem
          · exact (hmeant hnames hweek n).1 hn
        · rintro ⟨item, hitem, hn⟩
          have hnames := (mem_iff_names htexts hwild hreads).1 hitem
          by_cases hweek : item.WholeWeek field
          · rcases hspared field item hnames hweek n hn with rfl | ⟨item', hnames', hweek', hn'⟩
            · exact ⟨item, hnames, (hweek.mem_takes 0).2 rfl⟩
            · exact ⟨item', hnames', (hmeant hnames' hweek' n).2 hn'⟩
          · exact ⟨item, hnames, (hmeant hnames hweek n).2 hn⟩

/-- **When an expression is read as it is written**: it has not five fields, or an item that neither
the documented syntax nor the parser knows, or one only the parser refuses together with one only the
parser accepts, or none of these, and other items name the weekdays that a range from 0 to 7 means. -/
theorem readAsWritten_iff : ReadAsWritten expression ↔
    (¬ ∃ texts, Texts expression texts) ∨ Garbled expression
    ∨ ((∃ field item, Names expression field item ∧ item.ToSunday field)
        ∧ ∃ field item, Names expression field item ∧ item.Lenient field)
    ∨ ((¬ ∃ field item, Names expression field item ∧ item.ToSunday field)
        ∧ (¬ ∃ field item, Names expression field item ∧ item.Lenient field)
        ∧ Spared expression) := by
  by_cases hfive : ∃ texts, Texts expression texts
  swap
  · refine iff_of_true ⟨iff_of_false ?_ ?_, ?_⟩ (Or.inl hfive)
    · rintro ⟨fields, hparse⟩
      obtain ⟨texts, htexts, -⟩ := parse_eq_ok.1 hparse
      exact hfive ⟨texts, htexts⟩
    · rintro ⟨texts, htexts, -⟩
      exact hfive ⟨texts, htexts⟩
    · intro fields texts _ htexts
      exact absurd ⟨texts, htexts⟩ hfive
  by_cases hgarbled : Garbled expression
  · obtain ⟨hrefused, hbad⟩ := hgarbled.refused
    refine iff_of_true ⟨iff_of_false hrefused hbad, ?_⟩ (Or.inr (Or.inl hgarbled))
    intro fields texts hparse
    exact absurd ⟨fields, hparse⟩ hrefused
  obtain ⟨texts, htexts⟩ := hfive
  have haccepted := accepted_iff_names htexts hgarbled
  have hgrammatical := grammatical_iff_names htexts hgarbled
  simp only [hgarbled, not_true_eq_false, false_or, show ∃ texts, Texts expression texts from
    ⟨texts, htexts⟩]
  rw [ReadAsWritten, haccepted, hgrammatical]
  by_cases hto : ∃ field item, Names expression field item ∧ item.ToSunday field <;>
    by_cases hlenient : ∃ field item, Names expression field item ∧ item.Lenient field
  · refine iff_of_true ⟨iff_of_false (not_not_intro hto) (not_not_intro hlenient), ?_⟩
      (Or.inl ⟨hto, hlenient⟩)
    intro fields _ hparse
    exact absurd hto (haccepted.1 ⟨fields, hparse⟩)
  · simp [hto, hlenient]
  · simp [hto, hlenient]
  · have hregular : ∀ field item, Names expression field item → item.Regular := by
      rintro field item ⟨texts', htexts', piece, hpiece, hwritten⟩
      obtain ⟨item', hwritten', hitem⟩ := exists_item htexts' hgarbled hpiece
      obtain rfl := hwritten.unique hwritten'
      refine hitem.resolve_right fun h => hlenient ⟨field, item, ?_, h⟩
      exact ⟨texts', htexts', piece, hpiece, hwritten⟩
    obtain ⟨fields, hparse⟩ := haccepted.2 hto
    simp only [hto, hlenient, not_false_eq_true, true_and, false_and, false_or]
    rw [← denoted_iff_spared htexts hparse hregular]
    constructor
    · intro h
      exact h fields texts hparse htexts
    · intro h fields' texts' hparse' htexts'
      rw [htexts'.unique htexts, Except.ok.inj (hparse'.symm.trans hparse)]
      exact h

end Expression

/-- Friday to Sunday at nine. -/
theorem readAsWritten_friday_to_sunday : ¬ ReadAsWritten "0 9 * * 5-7" := by
  rintro ⟨haccepts, -⟩
  have hrefused : parse "0 9 * * 5-7" = .error (.reversedRange .dayOfWeek ['5', '-', '7']) := by
    decide +kernel
  have hgrammatical : Grammatical "0 9 * * 5-7" := by
    refine ⟨@Field.rec (fun _ => List Char) ['0'] ['9'] ['*'] ['*'] ['5', '-', '7'],
      by unfold Texts; decide +kernel, fun field => ?_⟩
    cases field
    · refine Or.inr ⟨[⟨.value 0, none⟩], .cons ⟨nofun, ['0'], [], rfl, ?_, rfl⟩ .nil, by simp [Item.Regular]⟩
      exact ⟨by decide +kernel, by decide, by decide⟩
    · refine Or.inr ⟨[⟨.value 9, none⟩], .cons ⟨nofun, ['9'], [], rfl, ?_, rfl⟩ .nil, by simp [Item.Regular]⟩
      exact ⟨by decide +kernel, by decide, by decide⟩
    · exact Or.inl (Or.inl rfl)
    · exact Or.inl (Or.inl rfl)
    · refine Or.inr ⟨[⟨.range 5 7, none⟩], .cons ⟨nofun, ['5', '-', '7'], [], rfl, ?_, rfl⟩ .nil,
        by simp [Item.Regular]⟩
      refine ⟨['5'], ['7'], rfl, ⟨?_, by decide, by decide⟩, ⟨?_, by decide, by decide⟩⟩ <;>
        decide +kernel
  obtain ⟨fields, hparse⟩ := haccepts.2 hgrammatical
  rw [hrefused] at hparse
  cases hparse

end ScheduleCron

end Automation
