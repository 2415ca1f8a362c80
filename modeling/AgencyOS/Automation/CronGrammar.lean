import AgencyOS.Automation.ScheduleCron
import AgencyOS.Python.Exceptions

/-!
The grammar of cron fields, and what `_parse_field` makes of it.

* `Item.Written`: what a text between two commas says, the numbers as they are written;
* `Item.Regular`, `Item.denotes`: the items of the documented syntax and the values they stand for, 7
  being a further name of Sunday in every place;
* `Item.Taken`, `Item.takes`: the items that `_parse_field` lets pass and the values it adds, 7 being
  turned into 0 before the ends of a range are compared;
* `parseItem_eq_ok`, `parseField_eq_some`, `parse_eq_ok`: **the parser reads exactly the taken items.**
-/

namespace Automation

namespace ScheduleCron

open Python

/-! ### Tokens -/

/-- A number or a name, as it is written. -/
def token? (field : Field) (token : List Char) : Option ℕ :=
  match field.names.lookup (String.ofList token) with
  | some value => some value
  | none => int? token

/-- The last value that can be written: Sunday is 7 as well. -/
def Field.top : Field → ℕ
  | .dayOfWeek => 7
  | field => field.hi

/-- What a written value stands for. -/
def Field.fold (field : Field) (value : ℕ) : ℕ := if field = .dayOfWeek ∧ value = 7 then 0 else value

variable {field : Field}

lemma names_le {token : String} {value : ℕ} (h : field.names.lookup token = some value) :
    field.lo ≤ value ∧ value ≤ field.hi := by
  have hmem : (token, value) ∈ field.names := by
    rw [List.lookup_eq_some_iff] at h
    obtain ⟨before, after, heq, -⟩ := h
    rw [heq]
    simp
  have hall : ∀ entry ∈ field.names, field.lo ≤ entry.2 ∧ entry.2 ≤ field.hi := by
    cases field <;> decide
  exact hall _ hmem

lemma top_le_hi (h : field ≠ .dayOfWeek) : field.top = field.hi := by
  cases field <;> first | rfl | exact absurd rfl h

lemma hi_le_top : field.hi ≤ field.top := by
  cases field <;> decide

lemma fold_of_le_hi {value : ℕ} (h : value ≤ field.hi) : field.fold value = value := by
  rw [Field.fold, if_neg]
  rintro ⟨rfl, rfl⟩
  exact absurd h (by decide)

/-- A written value is in the range or is the other name of Sunday. -/
lemma le_hi_or_sunday {value : ℕ} (h : value ≤ field.top) :
    value ≤ field.hi ∨ field = .dayOfWeek ∧ value = 7 := by
  by_cases hday : field = .dayOfWeek
  · subst hday
    have htop : value ≤ 7 := h
    rcases htop.lt_or_eq with hlt | rfl
    · exact Or.inl (Nat.le_of_lt_succ hlt)
    · exact Or.inr ⟨rfl, rfl⟩
  · exact Or.inl ((top_le_hi hday) ▸ h)

lemma fold_le {value : ℕ} (hlo : field.lo ≤ value) (htop : value ≤ field.top) :
    field.lo ≤ field.fold value ∧ field.fold value ≤ field.hi := by
  rcases le_hi_or_sunday htop with hhi | ⟨rfl, rfl⟩
  · rw [fold_of_le_hi hhi]
    exact ⟨hlo, hhi⟩
  · decide

/-- A number is in the range, once 7 is turned into 0, when it can be written. -/
lemma fold_le_iff {value : ℕ} :
    field.lo ≤ field.fold value ∧ field.fold value ≤ field.hi
      ↔ field.lo ≤ value ∧ value ≤ field.top := by
  refine ⟨fun h => ?_, fun h => fold_le h.1 h.2⟩
  by_cases hsunday : field = .dayOfWeek ∧ value = 7
  · obtain ⟨rfl, rfl⟩ := hsunday
    decide
  · rw [Field.fold, if_neg hsunday] at h
    exact ⟨h.1, h.2.trans hi_le_top⟩

/-- A token is taken for what it stands for, when that is in the field's range. -/
lemma coerceItem_eq_ok {token : List Char} {value : ℕ} :
    coerceItem field token = .ok value ↔
      ∃ raw, token? field token = some raw ∧ (field.lo ≤ raw ∧ raw ≤ field.top)
        ∧ field.fold raw = value := by
  rw [coerceItem, token?]
  cases hname : field.names.lookup (String.ofList token) with
  | some raw =>
      have hbounds := names_le hname
      simp [hbounds, hbounds.2.trans hi_le_top, fold_of_le_hi hbounds.2, pure, Except.pure, bind,
        Except.bind]
  | none =>
      cases hint : int? token with
      | none => simp [throw, throwThe, MonadExceptOf.throw, bind, Except.bind]
      | some raw =>
          simp only [pure_bind, Option.some.injEq, exists_eq_left']
          rw [show (if field = .dayOfWeek ∧ raw = 7 then 0 else raw) = field.fold raw from rfl,
            ← fold_le_iff]
          split_ifs with hbounds
          · simp [hbounds, pure, Except.pure]
          · simp [hbounds]

lemma token?_chars {token : List Char} {value : ℕ} (h : token? field token = some value) :
    token ≠ [] ∧ '-' ∉ token ∧ '/' ∉ token ∧ '*' ∉ token ∧ '?' ∉ token := by
  rw [token?] at h
  cases hname : field.names.lookup (String.ofList token) with
  | some raw =>
      have hmem : (String.ofList token, raw) ∈ field.names := by
        rw [List.lookup_eq_some_iff] at hname
        obtain ⟨before, after, heq, -⟩ := hname
        rw [heq]
        simp
      have hall : ∀ entry ∈ field.names, entry.1.toList ≠ [] ∧ '-' ∉ entry.1.toList
          ∧ '/' ∉ entry.1.toList ∧ '*' ∉ entry.1.toList ∧ '?' ∉ entry.1.toList := by
        cases field <;> decide
      simpa using hall _ hmem
  | none =>
      rw [hname] at h
      obtain ⟨hne, hdigits⟩ := digit?_of_int? h
      refine ⟨hne, ?_, ?_, ?_, ?_⟩ <;> exact fun hmem => absurd (hdigits _ hmem) (by decide)

/-- A number or a name of a value in the range of the field. -/
def Token (field : Field) (value : ℕ) (token : List Char) : Prop :=
  token? field token = some value ∧ field.lo ≤ value ∧ value ≤ field.top

/-! ### Items -/

inductive Base where
  | value (value : ℕ)
  | range (start stop : ℕ)
  | every
  deriving DecidableEq, Repr

/-- An item of a field, its numbers as they are written. -/
structure Item where
  base : Base
  step : Option ℕ
  deriving DecidableEq, Repr

def Item.stride (item : Item) : ℕ := item.step.getD 1

def Base.Written (field : Field) : Base → List Char → Prop
  | value v, text => Token field v text
  | range a b, text => ∃ start stop, text = start ++ '-' :: stop ∧ Token field a start ∧ Token field b stop
  | every, text => text = ['*']

def StepWritten : Option ℕ → List Char → Prop
  | none, text => text = []
  | some s, text => ∃ digits, text = '/' :: digits ∧ int? digits = some s ∧ 1 ≤ s

/-- What a text says.  A bare `*` is no item. -/
def Item.Written (field : Field) (item : Item) (text : List Char) : Prop :=
  item ≠ ⟨.every, none⟩ ∧
    ∃ base step, text = base ++ step ∧ item.base.Written field base ∧ StepWritten item.step step

/-- The items of the documented syntax: `n`, `a-b`, `a-b/n` and `*/n`. -/
def Item.Regular (item : Item) : Prop :=
  match item.base with
  | .value _ => item.step = none
  | .range a b => a ≤ b
  | .every => True

/-- The values an item stands for. -/
def Item.denotes (field : Field) (item : Item) : Set ℕ :=
  match item.base with
  | .value v => {field.fold v}
  | .range a b => {d | ∃ n, a ≤ n ∧ n ≤ b ∧ item.stride ∣ n - a ∧ field.fold n = d}
  | .every => {d | field.lo ≤ d ∧ d ≤ field.hi ∧ item.stride ∣ d - field.lo}

/-- The items that `_parse_field` lets pass. -/
def Item.Taken (field : Field) (item : Item) : Prop :=
  match item.base with
  | .range a b => field.fold a ≤ field.fold b
  | _ => True

/-- The values that `_parse_field` adds for an item. -/
def Item.takes (field : Field) (item : Item) : List ℕ :=
  match item.base with
  | .value v => [field.fold v]
  | .range a b => range (field.fold a) (field.fold b) item.stride
  | .every => range field.lo field.hi item.stride

lemma Base.Written.chars {base : Base} {text : List Char} (h : base.Written field text) :
    text ≠ [] ∧ '/' ∉ text ∧ text ≠ ['?'] ∧ (text = ['*'] ↔ base = .every) := by
  match base, h with
  | .value v, h =>
      obtain ⟨hne, -, hslash, hstar, hmark⟩ := token?_chars h.1
      refine ⟨hne, hslash, ?_, ?_, nofun⟩
      · rintro rfl
        simp at hmark
      · rintro rfl
        simp at hstar
  | .range a b, ⟨start, stop, htext, ha, hb⟩ =>
      have hslash := (token?_chars ha.1).2.2.1
      have hslash' := (token?_chars hb.1).2.2.1
      have hdash : '-' ∈ text := by simp [htext]
      refine ⟨List.ne_nil_of_mem hdash, ?_, ?_, ?_, nofun⟩
      · simp [htext, hslash, hslash']
      · rintro rfl
        simp at hdash
      · rintro rfl
        simp at hdash
  | .every, rfl => simp

lemma Item.Written.chars {item : Item} {text : List Char} (h : item.Written field text) :
    text ≠ [] ∧ text ≠ ['*'] ∧ text ≠ ['?'] := by
  obtain ⟨hbare, base, step, rfl, hbase, hstep⟩ := h
  obtain ⟨hne, hslash, hmark, hstar⟩ := hbase.chars
  have hsingle : ∀ c, base ++ step = [c] → base = [c] ∧ step = [] := by
    intro c h
    rcases List.append_eq_singleton_iff.1 h with ⟨hnil, -⟩ | h
    · exact absurd hnil hne
    · exact h
  refine ⟨by simp [hne], fun h => ?_, fun h => hmark (hsingle _ h).1⟩
  obtain ⟨hall, rfl⟩ := hsingle _ h
  have hnone : item.step = none := by
    cases hs : item.step with
    | none => rfl
    | some s =>
        rw [hs] at hstep
        obtain ⟨digits, h, -⟩ := hstep
        cases h
  exact hbare (by rw [← hstar.1 hall, ← hnone])

/-! ### The parser -/

lemma mem_range {start stop step n : ℕ} :
    n ∈ range start stop step ↔ start ≤ n ∧ n ≤ stop ∧ step ∣ n - start := by
  rw [range, List.mem_filter, List.mem_range'_1, decide_eq_true_eq, Nat.dvd_iff_mod_eq_zero]
  omega

lemma splitStep_eq_ok {text base : List Char} {stride : ℕ} :
    splitStep field text = .ok (base, stride) ↔
      ∃ step suffix, text = base ++ suffix ∧ '/' ∉ base ∧ StepWritten step suffix
        ∧ step.getD 1 = stride := by
  rw [splitStep]
  split_ifs with hslash
  · constructor
    · intro h
      cases hint : int? (partition '/' text).2 with
      | none => simp [hint, throw, throwThe, MonadExceptOf.throw] at h
      | some s =>
          simp only [hint] at h
          by_cases hs : s < 1
          · rw [if_pos hs] at h
            cases h
          · rw [if_neg hs] at h
            obtain ⟨rfl, rfl⟩ := Prod.mk.inj (Except.ok.inj h)
            exact ⟨some s, _, append_partition hslash, not_mem_partition '/' text,
              ⟨_, rfl, hint, by omega⟩, rfl⟩
    · rintro ⟨step, suffix, rfl, hbase, hstep, rfl⟩
      cases step with
      | none =>
          obtain rfl : suffix = [] := hstep
          simp [hbase] at hslash
      | some s =>
          obtain ⟨digits, rfl, hint, hs⟩ := hstep
          simp only [partition_append hbase, hint]
          rw [if_neg (by omega)]
          rfl
  · constructor
    · intro h
      obtain ⟨rfl, rfl⟩ := Prod.mk.inj (Except.ok.inj h)
      exact ⟨none, [], by simp, hslash, rfl, rfl⟩
    · rintro ⟨step, suffix, rfl, hbase, hstep, rfl⟩
      cases step with
      | none =>
          obtain rfl : suffix = [] := hstep
          simp [pure, Except.pure]
      | some s =>
          obtain ⟨digits, rfl, -⟩ := hstep
          simp at hslash

/-- `_parse_field` on the base of an item. -/
def parseBase (field : Field) (base : List Char) (stride : ℕ) : Except CronError (List ℕ) := do
  if '-' ∈ base then
    let start ← coerceItem field (partition '-' base).1
    let stop ← coerceItem field (partition '-' base).2
    if stop < start then
      throw (.reversedRange field base)
    return range start stop stride
  else if base = ['*'] then
    return range field.lo field.hi stride
  else
    return [← coerceItem field base]

lemma parseBase_eq_ok {text : List Char} {step : Option ℕ} {values : List ℕ} :
    parseBase field text (step.getD 1) = .ok values ↔
      ∃ base : Base, base.Written field text ∧ Item.Taken field ⟨base, step⟩
        ∧ Item.takes field ⟨base, step⟩ = values := by
  rw [parseBase]
  split_ifs with hdash hstar
  · constructor
    · intro h
      obtain ⟨start, hstart, h⟩ := bind_eq_ok.1 h
      obtain ⟨stop, hstop, h⟩ := bind_eq_ok.1 h
      obtain ⟨a, ha, halo, rfl⟩ := coerceItem_eq_ok.1 hstart
      obtain ⟨b, hb, hblo, rfl⟩ := coerceItem_eq_ok.1 hstop
      by_cases hlt : field.fold b < field.fold a
      · rw [if_pos hlt] at h
        cases h
      · rw [if_neg hlt] at h
        exact ⟨.range a b, ⟨_, _, append_partition hdash, ⟨ha, halo⟩, ⟨hb, hblo⟩⟩, not_lt.1 hlt,
          Except.ok.inj h⟩
    · rintro ⟨base, hbase, htaken, rfl⟩
      match base, hbase with
      | .value v, hbase => exact absurd hdash (token?_chars hbase.1).2.1
      | .range a b, ⟨start, stop, htext, ha, hb⟩ =>
          rw [htext, partition_append (token?_chars ha.1).2.1]
          refine bind_eq_ok.2 ⟨_, coerceItem_eq_ok.2 ⟨a, ha.1, ha.2, rfl⟩, ?_⟩
          refine bind_eq_ok.2 ⟨_, coerceItem_eq_ok.2 ⟨b, hb.1, hb.2, rfl⟩, ?_⟩
          have hle : field.fold a ≤ field.fold b := htaken
          rw [if_neg (not_lt.2 hle)]
          rfl
      | .every, rfl => simp at hdash
  · constructor
    · intro h
      exact ⟨.every, hstar, trivial, Except.ok.inj h⟩
    · rintro ⟨base, hbase, -, rfl⟩
      obtain rfl := hbase.chars.2.2.2.1 hstar
      rfl
  · constructor
    · intro h
      obtain ⟨value, hvalue, h⟩ := bind_eq_ok.1 h
      obtain ⟨v, hv, hbounds, rfl⟩ := coerceItem_eq_ok.1 hvalue
      exact ⟨.value v, ⟨hv, hbounds⟩, trivial, Except.ok.inj h⟩
    · rintro ⟨base, hbase, -, rfl⟩
      match base, hbase with
      | .value v, hbase =>
          exact bind_eq_ok.2 ⟨_, coerceItem_eq_ok.2 ⟨v, hbase.1, hbase.2, rfl⟩, rfl⟩
      | .range a b, ⟨start, stop, htext, _, _⟩ => simp [htext] at hdash
      | .every, hbase => exact absurd hbase hstar

lemma parseItem_eq {text : List Char} (htext : ∀ c ∈ text, isSpace c = false)
    (hne : text.map upper ≠ []) (hstar : text.map upper ≠ ['*']) (hmark : text.map upper ≠ ['?']) :
    parseItem field text = splitStep field (text.map upper) >>= fun p => parseBase field p.1 p.2 := by
  simp only [parseItem, strip_eq_self htext, if_neg hne, if_neg (not_or.2 ⟨hstar, hmark⟩)]
  rfl

lemma parseItem_ne {text : List Char} {values : List ℕ} (htext : ∀ c ∈ text, isSpace c = false)
    (h : parseItem field text = .ok values) :
    text.map upper ≠ [] ∧ text.map upper ≠ ['*'] ∧ text.map upper ≠ ['?'] := by
  simp only [parseItem, strip_eq_self htext] at h
  refine ⟨fun hnil => ?_, fun hstar => ?_, fun hmark => ?_⟩
  · rw [if_pos hnil] at h
    cases h
  · rw [if_neg (by simp [hstar]), if_pos (Or.inl hstar)] at h
    cases h
  · rw [if_neg (by simp [hmark]), if_pos (Or.inr hmark)] at h
    cases h

/-- An item is read as what it says, when that is taken. -/
theorem parseItem_eq_ok {text : List Char} {values : List ℕ}
    (htext : ∀ c ∈ text, isSpace c = false) :
    parseItem field text = .ok values ↔
      ∃ item : Item, item.Written field (text.map upper) ∧ item.Taken field
        ∧ item.takes field = values := by
  constructor
  · intro h
    obtain ⟨hne, hstar, hmark⟩ := parseItem_ne htext h
    rw [parseItem_eq htext hne hstar hmark] at h
    obtain ⟨⟨text', stride⟩, hsplit, h⟩ := bind_eq_ok.1 h
    obtain ⟨step, suffix, heq, -, hstep, rfl⟩ := splitStep_eq_ok.1 hsplit
    obtain ⟨base, hbase, htaken, htakes⟩ := parseBase_eq_ok.1 h
    refine ⟨⟨base, step⟩, ⟨?_, _, _, heq, hbase, hstep⟩, htaken, htakes⟩
    rintro hbare
    obtain ⟨rfl, rfl⟩ := Item.mk.inj hbare
    obtain rfl : suffix = [] := hstep
    rw [List.append_nil] at heq
    exact hstar (heq.trans hbase)
  · rintro ⟨⟨base, step⟩, hwritten, htaken, htakes⟩
    obtain ⟨hne, hstar, hmark⟩ := hwritten.chars
    obtain ⟨-, text', suffix, heq, hbase, hstep⟩ := hwritten
    rw [parseItem_eq htext hne hstar hmark]
    refine bind_eq_ok.2 ⟨(text', step.getD 1), ?_, ?_⟩
    · exact splitStep_eq_ok.2 ⟨step, suffix, heq, hbase.chars.2.1, hstep, rfl⟩
    · exact parseBase_eq_ok.2 ⟨base, hbase, htaken, htakes⟩

/-! ### Fields and expressions -/

def Wildcard (text : List Char) : Prop := text = ['*'] ∨ text = ['?']

/-- The items that a list of texts says. -/
def ReadsAll (field : Field) (pieces : List (List Char)) (items : List Item) : Prop :=
  List.Forall₂ (fun piece item => Item.Written field item (piece.map upper)) pieces items

/-- The items of a field, one between each two commas. -/
def Reads (field : Field) (text : List Char) (items : List Item) : Prop :=
  ReadsAll field (text.splitOn ',') items

lemma mapM_parseItem_eq_ok {pieces : List (List Char)} {parts : List (List ℕ)}
    (hpieces : ∀ piece ∈ pieces, ∀ c ∈ piece, isSpace c = false) :
    pieces.mapM (parseItem field) = .ok parts ↔
      ∃ items, ReadsAll field pieces items ∧ (∀ item ∈ items, Item.Taken field item)
        ∧ items.map (Item.takes field) = parts := by
  rw [mapM_eq_ok]
  induction pieces generalizing parts with
  | nil =>
      simp only [ReadsAll, List.forall₂_nil_left_iff, exists_eq_left]
      constructor
      · rintro rfl
        exact ⟨by simp, rfl⟩
      · rintro ⟨-, rfl⟩
        rfl
  | cons piece pieces ih =>
      have hread := fun values => @parseItem_eq_ok field piece values
        (hpieces piece List.mem_cons_self)
      have ih' := fun parts => @ih parts fun p hp => hpieces p (List.mem_cons_of_mem piece hp)
      simp only [ReadsAll, List.forall₂_cons_left_iff, hread, ih']
      constructor
      · rintro ⟨values, rest, ⟨item, hwritten, htaken, rfl⟩, ⟨items, hreads, htakens, rfl⟩, rfl⟩
        exact ⟨item :: items, ⟨item, items, hwritten, hreads, rfl⟩,
          List.forall_mem_cons.2 ⟨htaken, htakens⟩, rfl⟩
      · rintro ⟨_, ⟨item, items, hwritten, hreads, rfl⟩, htaken, rfl⟩
        obtain ⟨htaken, htakens⟩ := List.forall_mem_cons.1 htaken
        exact ⟨_, _, ⟨item, hwritten, htaken, rfl⟩, ⟨items, hreads, htakens, rfl⟩, rfl⟩

lemma parseField_eq_none {text : List Char} (htext : ∀ c ∈ text, isSpace c = false) :
    parseField field text = .ok none ↔ Wildcard text := by
  rw [parseField, strip_eq_self htext, Wildcard]
  by_cases hwild : text = ['*'] ∨ text = ['?']
  · rw [if_pos hwild]
    exact iff_of_true rfl hwild
  · rw [if_neg hwild]
    refine iff_of_false (fun h => ?_) hwild
    obtain ⟨values, -, h⟩ := bind_eq_ok.1 h
    cases h

theorem parseField_eq_some {text : List Char} {values : List ℕ}
    (htext : ∀ c ∈ text, isSpace c = false) :
    parseField field text = .ok (some values) ↔
      ¬ Wildcard text ∧ ∃ items, Reads field text items ∧ (∀ item ∈ items, Item.Taken field item)
        ∧ (items.map (Item.takes field)).flatten = values := by
  have hpiece : ∀ piece ∈ text.splitOn ',', ∀ c ∈ piece, isSpace c = false :=
    fun piece hpiece c hc => htext c (mem_of_mem_splitOnP hpiece c hc).2
  rw [parseField, strip_eq_self htext, Wildcard]
  by_cases hwild : text = ['*'] ∨ text = ['?']
  · rw [if_pos hwild]
    exact iff_of_false (fun h => by cases h) fun h => h.1 hwild
  · rw [if_neg hwild]
    constructor
    · intro h
      obtain ⟨parts, hparts, h⟩ := bind_eq_ok.1 h
      obtain ⟨items, hreads, htaken, rfl⟩ := (mapM_parseItem_eq_ok hpiece).1 hparts
      exact ⟨hwild, items, hreads, htaken, Option.some.inj (Except.ok.inj h)⟩
    · rintro ⟨-, items, hreads, htaken, rfl⟩
      exact bind_eq_ok.2 ⟨_, (mapM_parseItem_eq_ok hpiece).2 ⟨items, hreads, htaken, rfl⟩, rfl⟩

/-- The allowed values of a field. -/
def Fields.get (fields : Fields) : Field → Option (List ℕ)
  | .minute => fields.minute
  | .hour => fields.hour
  | .dayOfMonth => fields.dayOfMonth
  | .month => fields.month
  | .dayOfWeek => fields.dayOfWeek

/-- The texts of the five fields of an expression. -/
def Texts (expression : String) (texts : Field → List Char) : Prop :=
  words expression.toList
    = [texts .minute, texts .hour, texts .dayOfMonth, texts .month, texts .dayOfWeek]

lemma Texts.not_isSpace {expression : String} {texts : Field → List Char}
    (h : Texts expression texts) (field : Field) : ∀ c ∈ texts field, isSpace c = false := by
  refine @not_isSpace_of_mem_words expression.toList _ ?_
  rw [h]
  cases field <;> simp

lemma Texts.unique {expression : String} {texts texts' : Field → List Char}
    (h : Texts expression texts) (h' : Texts expression texts') : texts = texts' := by
  have heq := h.symm.trans h'
  simp only [List.cons.injEq, and_true] at heq
  obtain ⟨h₁, h₂, h₃, h₄, h₅⟩ := heq
  funext field
  cases field <;> assumption

lemma Texts.strip_ne {expression : String} {texts : Field → List Char}
    (h : Texts expression texts) : strip expression.toList ≠ [] := by
  intro hstrip
  have hdrop : expression.toList.dropWhile isSpace = [] := by
    rw [strip, List.rdropWhile_eq_nil_iff] at hstrip
    by_contra hne
    have hhead := List.head_dropWhile_not isSpace hne
    rw [hstrip _ (List.head_mem hne)] at hhead
    exact Bool.noConfusion hhead
  have hspace := List.dropWhile_eq_nil_iff.1 hdrop
  -- the first field is a word of the expression
  have hmem : texts .minute ∈ words expression.toList := by
    rw [h]
    exact List.mem_cons_self
  obtain ⟨hsplit, hne⟩ := List.mem_filter.1 hmem
  obtain ⟨c, hc⟩ := List.exists_mem_of_ne_nil _ (by simpa using hne)
  obtain ⟨hnot, hin⟩ := mem_of_mem_splitOnP hsplit c hc
  rw [hspace c hin] at hnot
  exact Bool.noConfusion hnot

/-- An expression is accepted when each of its five fields is read. -/
theorem parse_eq_ok {expression : String} {fields : Fields} :
    parse expression = .ok fields ↔
      ∃ texts, Texts expression texts
        ∧ ∀ field, parseField field (texts field) = .ok (fields.get field) := by
  constructor
  · intro h
    rw [parse] at h
    split_ifs at h with hstrip
    split at h
    · rename_i minute hour dayOfMonth month dayOfWeek hwords
      obtain ⟨m, hm, h⟩ := bind_eq_ok.1 h
      obtain ⟨o, ho, h⟩ := bind_eq_ok.1 h
      obtain ⟨d, hd, h⟩ := bind_eq_ok.1 h
      obtain ⟨n, hn, h⟩ := bind_eq_ok.1 h
      obtain ⟨w, hw, h⟩ := bind_eq_ok.1 h
      cases Except.ok.inj h
      refine ⟨@Field.rec (fun _ => List Char) minute hour dayOfMonth month dayOfWeek, hwords,
        fun field => ?_⟩
      cases field <;> assumption
    · cases h
  · rintro ⟨texts, htexts, hread⟩
    have hwords : words expression.toList = _ := htexts
    rw [parse, if_neg htexts.strip_ne, hwords]
    refine bind_eq_ok.2 ⟨_, hread .minute, bind_eq_ok.2 ⟨_, hread .hour, ?_⟩⟩
    refine bind_eq_ok.2 ⟨_, hread .dayOfMonth, bind_eq_ok.2 ⟨_, hread .month, ?_⟩⟩
    exact bind_eq_ok.2 ⟨_, hread .dayOfWeek, rfl⟩

/-! ### The values of a field -/

lemma Item.Written.takes_bounds {item : Item} {text : List Char} (h : item.Written field text)
    (htaken : item.Taken field) :
    item.takes field ≠ [] ∧ ∀ n ∈ item.takes field, field.lo ≤ n ∧ n ≤ field.hi := by
  obtain ⟨base, step⟩ := item
  obtain ⟨-, text', -, -, hbase, -⟩ := h
  match base, hbase with
  | .value v, hbase =>
      refine ⟨List.cons_ne_nil _ _, fun n hn => ?_⟩
      rw [List.mem_singleton.1 hn]
      exact fold_le hbase.2.1 hbase.2.2
  | .range a b, ⟨start, stop, _, ha, hb⟩ =>
      have hlo := fold_le ha.2.1 ha.2.2
      have hhi := fold_le hb.2.1 hb.2.2
      refine ⟨List.ne_nil_of_mem (mem_range.2 ⟨le_rfl, htaken, by simp⟩), fun n hn => ?_⟩
      obtain ⟨hstart, hstop, -⟩ := mem_range.1 hn
      exact ⟨hlo.1.trans hstart, hstop.trans hhi.2⟩
  | .every, _ =>
      have hle : field.lo ≤ field.hi := by cases field <;> decide
      refine ⟨List.ne_nil_of_mem (mem_range.2 ⟨le_rfl, hle, by simp⟩), fun n hn => ?_⟩
      obtain ⟨hstart, hstop, -⟩ := mem_range.1 hn
      exact ⟨hstart, hstop⟩

/-- A restricted field allows some value, and none outside its range. -/
lemma parse_values {expression : String} {fields : Fields} {values : List ℕ}
    (h : parse expression = .ok fields) (hvalues : fields.get field = some values) :
    values ≠ [] ∧ ∀ n ∈ values, field.lo ≤ n ∧ n ≤ field.hi := by
  obtain ⟨texts, htexts, hread⟩ := parse_eq_ok.1 h
  have hfield := hread field
  rw [hvalues, parseField_eq_some (htexts.not_isSpace field)] at hfield
  obtain ⟨-, items, hreads, htaken, rfl⟩ := hfield
  have hwritten : ∀ item ∈ items, ∃ text, item.Written field text := by
    intro item hitem
    obtain ⟨i, hi, rfl⟩ := List.getElem_of_mem hitem
    exact ⟨_, List.Forall₂.get hreads (by rw [hreads.length_eq]; exact hi) hi⟩
  constructor
  · cases items with
    | nil =>
        have hnil := List.forall₂_nil_right_iff.1 hreads
        exact absurd hnil (by rw [List.splitOn_eq_splitOnP]; exact List.splitOnP_ne_nil _ _)
    | cons item items =>
        obtain ⟨text, htext⟩ := hwritten item List.mem_cons_self
        have hne := (htext.takes_bounds (htaken item List.mem_cons_self)).1
        simp [hne]
  · intro n hn
    obtain ⟨part, hpart, hn⟩ := List.mem_flatten.1 hn
    obtain ⟨item, hitem, rfl⟩ := List.mem_map.1 hpart
    obtain ⟨text, htext⟩ := hwritten item hitem
    exact (htext.takes_bounds (htaken item hitem)).2 n hn

end ScheduleCron

end Automation
