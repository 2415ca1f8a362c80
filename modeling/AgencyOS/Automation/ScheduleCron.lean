import AgencyOS.Automation.Model
import AgencyOS.Python.Text
import AgencyOS.Python.Calendar

/-!
The cron evaluator of schedule triggers.

An expression has five fields, each a wildcard or a set of values.  A minute fires when its hour and
its minute are allowed and its day matches; `previous_fire` walks back from a time, by minutes within
the day and then by days, as far as the lookback goes.  Times count from 0001-01-01 00:00 UTC, before
which there are no dates.

* `parse`: `validate_cron` and the values of the fields;
* `Fields.fires`: whether a minute fires;
* `previousFire`: the walk;
* `previousFire_eq_some`, `previousFire_eq_none`: the walk finds the last minute that fires.
-/

namespace Automation

namespace ScheduleCron

open Python

/-! ### Fields -/

inductive Field where
  | minute | hour | dayOfMonth | month | dayOfWeek
  deriving DecidableEq, Repr

/-- The inclusive bounds of a field. -/
def Field.lo : Field → ℕ
  | minute | hour | dayOfWeek => 0
  | dayOfMonth | month => 1

def Field.hi : Field → ℕ
  | minute => 59
  | hour => 23
  | dayOfMonth => 31
  | month => 12
  | dayOfWeek => 6

/-- `_names_for`. -/
def Field.names : Field → List (String × ℕ)
  | month => [("JAN", 1), ("FEB", 2), ("MAR", 3), ("APR", 4), ("MAY", 5), ("JUN", 6), ("JUL", 7),
      ("AUG", 8), ("SEP", 9), ("OCT", 10), ("NOV", 11), ("DEC", 12)]
  | dayOfWeek => [("SUN", 0), ("MON", 1), ("TUE", 2), ("WED", 3), ("THU", 4), ("FRI", 5), ("SAT", 6)]
  | _ => []

/-- Why an expression is refused, and by which field. -/
inductive CronError where
  | empty
  | fieldCount
  | emptyValue (field : Field)
  | combinedWildcard (field : Field) (item : List Char)
  | invalidStep (field : Field) (item : List Char)
  | invalidValue (field : Field) (token : List Char)
  | outOfRange (field : Field) (value : ℕ)
  | reversedRange (field : Field) (item : List Char)
  deriving DecidableEq, Repr

/-- `_coerce_item`: a token as its value; 7 stands for Sunday as well. -/
def coerceItem (field : Field) (token : List Char) : Except CronError ℕ := do
  let value ← match field.names.lookup (String.ofList token) with
    | some value => pure value
    | none =>
        match int? token with
        | some value => pure (if field = .dayOfWeek ∧ value = 7 then 0 else value)
        | none => throw (.invalidValue field token)
  if field.lo ≤ value ∧ value ≤ field.hi then
    return value
  else
    throw (.outOfRange field value)

/-- `range(start, stop + 1, step)`. -/
def range (start stop step : ℕ) : List ℕ :=
  (List.range' start (stop + 1 - start)).filter fun n => (n - start) % step = 0

/-- The item without its step, and the step. -/
def splitStep (field : Field) (item : List Char) : Except CronError (List Char × ℕ) :=
  if '/' ∈ item then
    match int? (partition '/' item).2 with
    | some step =>
        if step < 1 then throw (.invalidStep field item) else return ((partition '/' item).1, step)
    | none => throw (.invalidStep field item)
  else
    return (item, 1)

/-- The values that one item of a field allows. -/
def parseItem (field : Field) (value : List Char) : Except CronError (List ℕ) := do
  let item := (strip value).map upper
  if item = [] then
    throw (.emptyValue field)
  if item = ['*'] ∨ item = ['?'] then
    throw (.combinedWildcard field item)
  let (item, step) ← splitStep field item
  if '-' ∈ item then
    let start ← coerceItem field (partition '-' item).1
    let stop ← coerceItem field (partition '-' item).2
    if stop < start then
      throw (.reversedRange field item)
    return range start stop step
  else if item = ['*'] then
    return range field.lo field.hi step
  else
    return [← coerceItem field item]

/-- `_parse_field`: `none` for a wildcard. -/
def parseField (field : Field) (value : List Char) : Except CronError (Option (List ℕ)) := do
  if strip value = ['*'] ∨ strip value = ['?'] then
    return none
  let values ← (value.splitOn ',').mapM (parseItem field)
  return some values.flatten

/-- The allowed values of the five fields. -/
structure Fields where
  minute : Option (List ℕ)
  hour : Option (List ℕ)
  dayOfMonth : Option (List ℕ)
  month : Option (List ℕ)
  dayOfWeek : Option (List ℕ)
  deriving DecidableEq, Repr

/-- `validate_cron`, and then `_fields_from`. -/
def parse (expression : String) : Except CronError Fields :=
  if strip expression.toList = [] then
    throw .empty
  else
    match words expression.toList with
    | [minute, hour, dayOfMonth, month, dayOfWeek] => do
        return {
          minute := ← parseField .minute minute
          hour := ← parseField .hour hour
          dayOfMonth := ← parseField .dayOfMonth dayOfMonth
          month := ← parseField .month month
          dayOfWeek := ← parseField .dayOfWeek dayOfWeek }
    | _ => throw .fieldCount

/-- The weekday in cron's numbering, from Sunday: 0001-01-01 was a Monday. -/
def cronWeekday (day : ℕ) : ℕ := (day + 1) % 7

/-! ### Times that fire -/

/-- A wildcard allows every value. -/
def allows (values : Option (List ℕ)) (n : ℕ) : Bool := values.all fun values => n ∈ values

def minutesPerDay : ℕ := 1440

/-- `_matches_minute`, of a minute of a day. -/
def Fields.matchesMinute (fields : Fields) (minute : ℕ) : Bool :=
  allows fields.hour (minute / 60) && allows fields.minute (minute % 60)

/-- `_day_matches`: when both day fields are restricted, either may match. -/
def Fields.dayMatches (fields : Fields) (day : ℕ) : Bool :=
  let date := Date.ofDay day
  allows fields.month date.month &&
    match fields.dayOfMonth, fields.dayOfWeek with
    | some dom, some dow => date.day ∈ dom || cronWeekday day ∈ dow
    | dom, dow => allows dom date.day && allows dow (cronWeekday day)

/-- Whether the expression fires at a minute. -/
def Fields.fires (fields : Fields) (minute : ℕ) : Bool :=
  fields.matchesMinute (minute % minutesPerDay) && fields.dayMatches (minute / minutesPerDay)

/-! ### The walk -/

/-- The last number up to `n` that passes a test. -/
def lastUpTo (p : ℕ → Bool) : ℕ → Option ℕ
  | 0 => if p 0 then some 0 else none
  | n + 1 => if p (n + 1) then some (n + 1) else lastUpTo p n

/-- Why there is no previous fire to be told: the expression is invalid, or the walk comes to the
first date. -/
inductive FireError where
  | valueError (e : CronError)
  | overflowError
  deriving DecidableEq, Repr

def lookbackDays : ℕ := 1462

/-- The walk over the days before `day`, as many as the lookback leaves. -/
def Fields.walkDays (fields : Fields) : ℕ → ℕ → Except FireError (Option ℕ)
  | 0, _ => return none
  | _ + 1, 0 => throw .overflowError
  | lookback + 1, day + 1 =>
      if fields.dayMatches day then
        match lastUpTo fields.matchesMinute (minutesPerDay - 1) with
        | some minute => return some (day * minutesPerDay + minute)
        | none => fields.walkDays lookback day
      else
        fields.walkDays lookback day

/-- The walk from a minute. -/
def Fields.walk (fields : Fields) (now : ℕ) : Except FireError (Option ℕ) :=
  let day := now / minutesPerDay
  match lastUpTo (fun minute => fields.matchesMinute minute && fields.dayMatches day)
      (now % minutesPerDay) with
  | some minute => return some (day * minutesPerDay + minute)
  | none => fields.walkDays lookbackDays day

/-- One minute. -/
def minuteLength : Time := 60 * second

/-- `previous_fire`. -/
def previousFire (expression : String) (now : Time) : Except FireError (Option Time) :=
  match parse expression with
  | .error e => .error (.valueError e)
  | .ok fields => do
      let minute ← fields.walk (now / minuteLength)
      return minute.map (· * minuteLength)

/-! ### The last minute that fires -/

section Walk

variable {p : ℕ → Bool} {n m : ℕ} {fields : Fields}

lemma lastUpTo_eq_none : lastUpTo p n = none ↔ ∀ k ≤ n, p k = false := by
  induction n with
  | zero =>
      rw [lastUpTo]
      constructor
      · intro h k hk
        obtain rfl := Nat.le_zero.mp hk
        simpa using h
      · intro h
        simp [h 0 le_rfl]
  | succ n ih =>
      rw [lastUpTo]
      constructor
      · intro h k hk
        split_ifs at h with hp
        rcases hk.lt_or_eq with hlt | rfl
        · exact ih.mp h k (by omega)
        · simpa using hp
      · intro h
        rw [if_neg (by simp [h (n + 1) le_rfl])]
        exact ih.mpr fun k hk => h k (by omega)

lemma lastUpTo_eq_some (h : lastUpTo p n = some m) :
    m ≤ n ∧ p m = true ∧ ∀ k, m < k → k ≤ n → p k = false := by
  induction n with
  | zero =>
      rw [lastUpTo] at h
      split_ifs at h with hp
      obtain rfl := Option.some.inj h
      exact ⟨le_rfl, hp, fun k hk hk' => by omega⟩
  | succ n ih =>
      rw [lastUpTo] at h
      split_ifs at h with hp
      · obtain rfl := Option.some.inj h
        exact ⟨le_rfl, hp, fun k hk hk' => by omega⟩
      · obtain ⟨hm, hpm, hlast⟩ := ih h
        refine ⟨by omega, hpm, fun k hk hk' => ?_⟩
        rcases hk'.lt_or_eq with hlt | rfl
        · exact hlast k hk (by omega)
        · simpa using hp

/-- A minute of a day, and the day. -/
lemma day_minute {day minute : ℕ} (h : minute < minutesPerDay) :
    (day * minutesPerDay + minute) % minutesPerDay = minute
      ∧ (day * minutesPerDay + minute) / minutesPerDay = day := by
  rw [minutesPerDay] at h ⊢
  omega

lemma Fields.fires_minute {day minute : ℕ} (h : minute < minutesPerDay) :
    fields.fires (day * minutesPerDay + minute)
      = (fields.matchesMinute minute && fields.dayMatches day) := by
  rw [Fields.fires, (day_minute h).1, (day_minute h).2]

/-- No minute of the interval fires. -/
def Fields.Silent (fields : Fields) (lo hi : ℕ) : Prop :=
  ∀ m, lo ≤ m → m < hi → fields.fires m = false

lemma Fields.Silent.append {lo mid hi : ℕ} (h : fields.Silent lo mid) (h' : fields.Silent mid hi) :
    fields.Silent lo hi := by
  intro m hlo hhi
  rcases lt_or_ge m mid with hm | hm
  · exact h m hlo hm
  · exact h' m hm hhi

/-- What a walk back from `hi` tells, when it looks as far as `lo`. -/
def Fields.Tells (fields : Fields) (lo hi : ℕ) : Except FireError (Option ℕ) → Prop
  | .ok (some m) => m < hi ∧ fields.fires m = true ∧ fields.Silent (m + 1) hi
  | .ok none => fields.Silent lo hi
  | .error _ => fields.Silent 0 hi

/-- A walk goes on from a silent interval. -/
lemma Fields.Tells.append {lo mid hi : ℕ} {r : Except FireError (Option ℕ)}
    (h : fields.Tells lo mid r) (hmid : mid ≤ hi) (hs : fields.Silent mid hi) :
    fields.Tells lo hi r := by
  match r, h with
  | .ok (some m), ⟨hm, hfires, hlast⟩ => exact ⟨by omega, hfires, hlast.append hs⟩
  | .ok none, h => exact Fields.Silent.append h hs
  | .error _, h => exact Fields.Silent.append h hs

/-- One day of the walk, up to a minute of it. -/
lemma Fields.silent_day {day hi : ℕ} (hhi : hi < minutesPerDay)
    (h : ∀ minute ≤ hi, (fields.matchesMinute minute && fields.dayMatches day) = false) :
    fields.Silent (day * minutesPerDay) (day * minutesPerDay + hi + 1) := by
  intro m hlo hm
  obtain ⟨minute, rfl⟩ := Nat.exists_eq_add_of_le hlo
  rw [Fields.fires_minute (by omega)]
  exact h minute (by omega)

lemma Fields.tells_walkDays (fields : Fields) (lookback day : ℕ) :
    fields.Tells ((day - lookback) * minutesPerDay) (day * minutesPerDay)
      (fields.walkDays lookback day) := by
  induction lookback generalizing day with
  | zero =>
      intro m hlo hhi
      rw [Nat.sub_zero] at hlo
      omega
  | succ lookback ih =>
      cases day with
      | zero =>
          intro m _ hhi
          omega
      | succ day =>
          have hnext : (day + 1) * minutesPerDay = day * minutesPerDay + (minutesPerDay - 1) + 1 := by
            rw [minutesPerDay]
            omega
          have hskip : fields.Silent (day * minutesPerDay) ((day + 1) * minutesPerDay) →
              fields.Tells ((day + 1 - (lookback + 1)) * minutesPerDay) ((day + 1) * minutesPerDay)
                (fields.walkDays lookback day) := by
            intro hs
            rw [Nat.add_sub_add_right]
            exact (ih day).append (by omega) hs
          rw [Fields.walkDays]
          split_ifs with hday
          · split
            · rename_i minute hminute
              obtain ⟨hle, hmatch, hlast⟩ := lastUpTo_eq_some hminute
              have hlt : minute < minutesPerDay := by
                rw [minutesPerDay] at hle ⊢
                omega
              refine ⟨by omega, by rw [Fields.fires_minute hlt, hmatch, hday]; rfl, fun m hlo hhi => ?_⟩
              obtain ⟨k, rfl⟩ := Nat.exists_eq_add_of_le (show day * minutesPerDay ≤ m by omega)
              have hk := hlast k (by omega) (by omega)
              rw [Fields.fires_minute (by omega), hk, Bool.false_and]
            · rename_i hnone
              refine hskip ?_
              rw [hnext]
              refine Fields.silent_day (by rw [minutesPerDay]; omega) fun minute hle => ?_
              rw [lastUpTo_eq_none.mp hnone minute hle, Bool.false_and]
          · refine hskip ?_
            rw [hnext]
            refine Fields.silent_day (by rw [minutesPerDay]; omega) fun minute _ => ?_
            rw [Bool.not_eq_true] at hday
            rw [hday, Bool.and_false]

/-- The walk from a minute finds the last one that fires, as far as it looks. -/
theorem Fields.tells_walk (fields : Fields) (now : ℕ) :
    fields.Tells ((now / minutesPerDay - lookbackDays) * minutesPerDay) (now + 1)
      (fields.walk now) := by
  have hlt : now % minutesPerDay < minutesPerDay := Nat.mod_lt _ (by rw [minutesPerDay]; omega)
  have hnow : now / minutesPerDay * minutesPerDay + now % minutesPerDay = now :=
    Nat.div_add_mod' now minutesPerDay
  rw [Fields.walk]
  split
  · rename_i minute hminute
    obtain ⟨hle, hmatch, hlast⟩ := lastUpTo_eq_some hminute
    refine ⟨by omega, by rw [Fields.fires_minute (by omega), hmatch], fun m hlo hhi => ?_⟩
    obtain ⟨k, rfl⟩ := Nat.exists_eq_add_of_le
      (show now / minutesPerDay * minutesPerDay ≤ m by omega)
    rw [Fields.fires_minute (by omega)]
    exact hlast k (by omega) (by omega)
  · rename_i hnone
    refine (fields.tells_walkDays lookbackDays (now / minutesPerDay)).append (by omega) ?_
    have hs := Fields.silent_day hlt (lastUpTo_eq_none.mp hnone)
    rwa [hnow] at hs

end Walk

/-- The minutes that begin by a time. -/
lemma mul_minuteLength_le {m : ℕ} {now : Time} : m * minuteLength ≤ now ↔ m ≤ now / minuteLength :=
  (Nat.le_div_iff_mul_le (by decide)).symm

/-- **The previous fire** is the last minute at or before the time at which the expression fires. -/
theorem previousFire_eq_some {expression : String} {now fire : Time}
    (h : previousFire expression now = .ok (some fire)) :
    ∃ (fields : Fields) (m : ℕ), parse expression = .ok fields ∧ fire = m * minuteLength ∧ fire ≤ now
      ∧ fields.fires m = true
      ∧ ∀ m' : ℕ, m < m' → m' * minuteLength ≤ now → fields.fires m' = false := by
  unfold previousFire at h
  cases hparse : parse expression with
  | error e => simp [hparse] at h
  | ok fields =>
      have htells := fields.tells_walk (now / minuteLength)
      cases hwalk : fields.walk (now / minuteLength) with
      | error e => simp [hparse, hwalk, bind, Except.bind] at h
      | ok found =>
          cases found with
          | none => simp [hparse, hwalk, bind, Except.bind, pure, Except.pure] at h
          | some m =>
              simp only [hparse, hwalk, bind, Except.bind, pure, Except.pure, Option.map_some,
                Except.ok.injEq, Option.some.injEq] at h
              rw [hwalk] at htells
              obtain ⟨hm, hfires, hlast⟩ := htells
              refine ⟨fields, m, rfl, h.symm, ?_, hfires, fun m' hm' hle => ?_⟩
              · rw [← h]
                exact mul_minuteLength_le.mpr (by omega)
              · have hle' := mul_minuteLength_le.mp hle
                exact hlast m' (by omega) (by omega)

/-- There is no previous fire when no minute of the lookback fires. -/
theorem previousFire_eq_none {expression : String} {now : Time}
    (h : previousFire expression now = .ok none) :
    ∃ fields, parse expression = .ok fields
      ∧ fields.Silent ((now / minuteLength / minutesPerDay - lookbackDays) * minutesPerDay)
        (now / minuteLength + 1) := by
  unfold previousFire at h
  cases hparse : parse expression with
  | error e => simp [hparse] at h
  | ok fields =>
      have htells := fields.tells_walk (now / minuteLength)
      cases hwalk : fields.walk (now / minuteLength) with
      | error e => simp [hparse, hwalk, bind, Except.bind] at h
      | ok found =>
          cases found with
          | none =>
              rw [hwalk] at htells
              exact ⟨fields, rfl, htells⟩
          | some m => simp [hparse, hwalk, bind, Except.bind, pure, Except.pure] at h

end ScheduleCron

end Automation
