import AgencyOS.Automation.CronGrammar
import AgencyOS.Python.Dates

/-!
The last fire of a cron expression, against all the minutes before.

Between 1905 and 2099 every fourth year is a leap year, and the lookback is a day longer than four
years; so a date that exists at all falls into it.

* `Fields.Fits`, `Fields.Matches`: when a day, and a minute, match the five fields;
* `exists_month_day`, `exists_month_weekday`: the dates and the weekdays of a month recur within the
  lookback;
* `Fields.Fits.recurs`: a day that matches has one in the lookback;
* `previousFire_greatest`: **the walk finds the greatest minute that matches, unless no day ever
  matches.**
-/

namespace Automation

namespace ScheduleCron

open Python

/-! ### Days and minutes that match -/

/-- A value that a field admits: any, for a wildcard. -/
def Admits (values : Option (List ℕ)) (n : ℕ) : Prop := ∀ vs, values = some vs → n ∈ vs

/-- The day is of a month the fields name; and it is one of the days of the month and one of the
weekdays they name, or one of either when both are restricted. -/
def Fields.Fits (fields : Fields) (day : ℕ) : Prop :=
  Admits fields.month (Date.ofDay day).month ∧
    if fields.dayOfMonth ≠ none ∧ fields.dayOfWeek ≠ none then
      Admits fields.dayOfMonth (Date.ofDay day).day ∨ Admits fields.dayOfWeek (cronWeekday day)
    else
      Admits fields.dayOfMonth (Date.ofDay day).day ∧ Admits fields.dayOfWeek (cronWeekday day)

/-- The minute, its hour and its day match, minutes counted from 0001-01-01 00:00. -/
def Fields.Matches (fields : Fields) (m : ℕ) : Prop :=
  Admits fields.minute (m % 60) ∧ Admits fields.hour (m / 60 % 24) ∧ fields.Fits (m / (24 * 60))

variable {fields : Fields}

@[simp] lemma allows_iff {values : Option (List ℕ)} {n : ℕ} :
    allows values n = true ↔ Admits values n := by
  cases values <;> simp [allows, Admits]

lemma dayMatches_iff {day : ℕ} : fields.dayMatches day = true ↔ fields.Fits day := by
  rw [Fields.dayMatches, Fields.Fits]
  simp only [Bool.and_eq_true, allows_iff]
  refine and_congr_right fun _ => ?_
  cases hdom : fields.dayOfMonth <;> cases hdow : fields.dayOfWeek <;> simp [Admits, allows]

lemma matchesMinute_iff {minute : ℕ} :
    fields.matchesMinute minute = true
      ↔ Admits fields.hour (minute / 60) ∧ Admits fields.minute (minute % 60) := by
  rw [Fields.matchesMinute, Bool.and_eq_true, allows_iff, allows_iff]

lemma fires_iff {m : ℕ} : fields.fires m = true ↔ fields.Matches m := by
  have hhour : m % minutesPerDay / 60 = m / 60 % 24 := by rw [minutesPerDay]; omega
  have hminute : m % minutesPerDay % 60 = m % 60 := by rw [minutesPerDay]; omega
  rw [Fields.fires, Bool.and_eq_true, matchesMinute_iff, dayMatches_iff, hhour, hminute,
    Fields.Matches, minutesPerDay]
  tauto

/-- Every day has a minute that matches. -/
lemma exists_matchesMinute {expression : String} (hparse : parse expression = .ok fields) :
    ∃ minute < minutesPerDay, fields.matchesMinute minute = true := by
  have hpick : ∀ field : Field, ∃ n, Admits (fields.get field) n ∧ n ≤ field.hi := by
    intro field
    cases hvalues : fields.get field with
    | none => exact ⟨0, nofun, Nat.zero_le _⟩
    | some values =>
        obtain ⟨hne, hbounds⟩ := parse_values hparse hvalues
        obtain ⟨n, hn⟩ := List.exists_mem_of_ne_nil values hne
        exact ⟨n, fun vs hvs => Option.some.inj hvs ▸ hn, (hbounds n hn).2⟩
  obtain ⟨hour, hhour, hle⟩ := hpick .hour
  obtain ⟨minute, hminute, hle'⟩ := hpick .minute
  have hle : hour ≤ 23 := hle
  have hle' : minute ≤ 59 := hle'
  refine ⟨hour * 60 + minute, by rw [minutesPerDay]; omega, matchesMinute_iff.2 ⟨?_, ?_⟩⟩
  · rwa [show (hour * 60 + minute) / 60 = hour by omega]
  · rwa [show (hour * 60 + minute) % 60 = minute by omega]

lemma walkDays_error {e : FireError} {lookback day : ℕ} (h : fields.walkDays lookback day = .error e) :
    day < lookback := by
  induction lookback generalizing day with
  | zero => cases h
  | succ lookback ih =>
      cases day with
      | zero => omega
      | succ day =>
          rw [Fields.walkDays] at h
          split_ifs at h
          · split at h
            · cases h
            · have := ih h
              omega
          · have := ih h
            omega

/-! ### Dates recur -/

section Recurrence

variable {today : ℕ}

/-- Within the days the walk looks at, after the current one. -/
def InLookback (today day : ℕ) : Prop := today - lookbackDays ≤ day ∧ day < today

lemma isLeap_between {year : ℕ} (hfrom : 1901 ≤ year) (hto : year ≤ 2099) :
    isLeap year = true ↔ year % 4 = 0 := by
  rw [isLeap_iff]
  omega

lemma daysBefore_between {year : ℕ} (hfrom : 1901 ≤ year) (hto : year ≤ 2100) :
    daysBefore year = 365 * (year - 1) + (year - 1) / 4 - 15 := by
  rw [daysBefore]
  omega

lemma monthLength_le {leap : Bool} {month : ℕ} (hmonth : 1 ≤ month ∧ month ≤ 12) :
    28 ≤ monthLength leap month ∧ monthLength leap month ≤ monthLength false month + 1
      ∧ (month ≠ 2 → monthLength leap month = monthLength false month) := by
  obtain ⟨hlo, hhi⟩ := hmonth
  interval_cases month <;> cases leap <;> decide

lemma leap_day {year : ℕ} (hfrom : 1904 ≤ year) (hto : year ≤ 2099) (hleap : year % 4 = 0) :
    (⟨year, 2, 29⟩ : Date).Valid
      ∧ (⟨year, 2, 29⟩ : Date).toDay = 365 * (year - 1) + (year - 1) / 4 - 15 + 59 := by
  rw [← isLeap_between (by omega) hto] at hleap
  constructor
  · rw [Date.valid_mk, hleap]
    exact ⟨by omega, by decide, by decide, by decide⟩
  · rw [Date.toDay, daysBefore_between (by dsimp only; omega) (by dsimp only; omega)]
    simp [monthLengths]

variable (hfrom : 1905 ≤ (Date.ofDay today).year) (hto : (Date.ofDay today).year ≤ 2099)

include hfrom hto

/-- A day of the year before is in the lookback. -/
lemma inLookback_of_year {date : Date} (hvalid : date.Valid)
    (hyear : date.year + 1 = (Date.ofDay today).year) : InLookback today date.toDay := by
  obtain ⟨hlo, hhi⟩ := Date.year_ofDay today
  obtain ⟨hlo', hhi'⟩ := hvalid.toDay_bounds
  rw [← hyear] at hlo hhi hfrom hto
  rw [daysBefore_between (by omega) (by omega)] at hlo hhi hlo' hhi'
  rw [InLookback, lookbackDays]
  omega

/-- The leap day before a day is at most four years back. -/
lemma exists_leap_day : ∃ year, (⟨year, 2, 29⟩ : Date).Valid
    ∧ InLookback today (⟨year, 2, 29⟩ : Date).toDay := by
  obtain ⟨hlo, hhi⟩ := Date.year_ofDay today
  generalize (Date.ofDay today).year = year at hlo hhi hfrom hto
  rw [daysBefore_between (by omega) (by omega)] at hlo hhi
  by_cases hpast : year % 4 = 0 ∧ 365 * (year - 1) + (year - 1) / 4 - 15 + 59 < today
  · obtain ⟨hvalid, hday⟩ := leap_day (by omega) hto hpast.1
    refine ⟨year, hvalid, ?_⟩
    rw [InLookback, hday, lookbackDays]
    omega
  · obtain ⟨hvalid, hday⟩ := @leap_day ((year - 1) / 4 * 4) (by omega) (by omega) (by omega)
    refine ⟨(year - 1) / 4 * 4, hvalid, ?_⟩
    rw [InLookback, hday, lookbackDays]
    omega

/-- A date that exists in some year is in the lookback. -/
lemma exists_month_day {date : Date} (hvalid : date.Valid) :
    ∃ day, InLookback today day ∧ (Date.ofDay day).month = date.month
      ∧ (Date.ofDay day).day = date.day := by
  obtain ⟨-, hmonth, hlo, hhi⟩ := hvalid
  by_cases hleap : date.month = 2 ∧ date.day = 29
  · obtain ⟨year, hvalid, hlook⟩ := exists_leap_day hfrom hto
    refine ⟨_, hlook, ?_⟩
    rw [Date.ofDay_toDay hvalid, hleap.1, hleap.2]
    exact ⟨rfl, rfl⟩
  · -- any other date exists in the year before
    have hbefore : (⟨(Date.ofDay today).year - 1, date.month, date.day⟩ : Date).Valid := by
      refine Date.valid_mk.2 ⟨by omega, hmonth, hlo, ?_⟩
      obtain ⟨-, hnext, hsame⟩ := @monthLength_le (isLeap date.year) date.month hmonth
      obtain ⟨hfew, -, hsame'⟩ :=
        @monthLength_le (isLeap ((Date.ofDay today).year - 1)) date.month hmonth
      by_cases hfebruary : date.month = 2
      · have hlength : monthLength false date.month = 28 := by
          rw [hfebruary]
          rfl
        omega
      · rw [hsame' hfebruary, ← hsame hfebruary]
        exact hhi
    refine ⟨_, inLookback_of_year hfrom hto hbefore (by dsimp only; omega), ?_⟩
    rw [Date.ofDay_toDay hbefore]
    exact ⟨rfl, rfl⟩

/-- A weekday of a month is in the lookback. -/
lemma exists_month_weekday {month weekday : ℕ} (hmonth : 1 ≤ month ∧ month ≤ 12)
    (hweekday : weekday < 7) :
    ∃ day, InLookback today day ∧ (Date.ofDay day).month = month ∧ cronWeekday day = weekday := by
  have hlength := (@monthLength_le (isLeap ((Date.ofDay today).year - 1)) month hmonth).1
  have hvalid : ∀ k < 7, (⟨(Date.ofDay today).year - 1, month, k + 1⟩ : Date).Valid :=
    fun k hk => Date.valid_mk.2 ⟨by omega, hmonth, by omega, by omega⟩
  have hday : ∀ k, (⟨(Date.ofDay today).year - 1, month, k + 1⟩ : Date).toDay
      = (⟨(Date.ofDay today).year - 1, month, 1⟩ : Date).toDay + k := fun k => rfl
  -- the first seven days of the month have all the weekdays
  obtain ⟨k, hk, hweek⟩ : ∃ k < 7,
      cronWeekday ((⟨(Date.ofDay today).year - 1, month, 1⟩ : Date).toDay + k) = weekday := by
    generalize (⟨(Date.ofDay today).year - 1, month, 1⟩ : Date).toDay = first
    refine ⟨(weekday + 7 - (first + 1) % 7) % 7, Nat.mod_lt _ (by omega), ?_⟩
    rw [cronWeekday]
    omega
  refine ⟨_, inLookback_of_year hfrom hto (hvalid k hk) (by dsimp only; omega), ?_, ?_⟩
  · rw [Date.ofDay_toDay (hvalid k hk)]
  · rw [hday, hweek]

/-- A day that matches has one in the lookback. -/
lemma Fields.Fits.recurs {day : ℕ} (hfits : fields.Fits day) :
    ∃ day', InLookback today day' ∧ fields.Fits day' := by
  obtain ⟨hvalid, -⟩ := Date.toDay_ofDay day
  obtain ⟨hmonth, hday⟩ := hfits
  have hweekday : cronWeekday day < 7 := Nat.mod_lt _ (by omega)
  obtain ⟨date, hdate, hdmonth, hdday⟩ := exists_month_day hfrom hto hvalid
  obtain ⟨week, hweek, hwmonth, hwday⟩ := exists_month_weekday hfrom hto hvalid.month hweekday
  have hmonthOf : ∀ {d : ℕ}, (Date.ofDay d).month = (Date.ofDay day).month →
      Admits fields.month (Date.ofDay d).month := fun h => h ▸ hmonth
  -- the same day of the month, unless it is the weekday that matched
  by_cases hboth : fields.dayOfMonth ≠ none ∧ fields.dayOfWeek ≠ none
  · rw [if_pos hboth] at hday
    rcases hday with hday | hday
    · refine ⟨date, hdate, hmonthOf hdmonth, ?_⟩
      rw [if_pos hboth, hdday]
      exact Or.inl hday
    · refine ⟨week, hweek, hmonthOf hwmonth, ?_⟩
      rw [if_pos hboth, hwday]
      exact Or.inr hday
  · rw [if_neg hboth] at hday
    by_cases hdow : fields.dayOfWeek = none
    · refine ⟨date, hdate, hmonthOf hdmonth, ?_⟩
      rw [if_neg hboth, hdday]
      exact ⟨hday.1, by simp [Admits, hdow]⟩
    · have hdom : fields.dayOfMonth = none := by
        by_contra hdom
        exact hboth ⟨hdom, hdow⟩
      refine ⟨week, hweek, hmonthOf hwmonth, ?_⟩
      rw [if_neg hboth, hwday]
      exact ⟨by simp [Admits, hdom], hday.2⟩

/-- The walk does not come to the first date. -/
lemma walk_ne_error {m : ℕ} (hm : m / minutesPerDay = today) (e : FireError) :
    fields.walk m ≠ .error e := by
  intro h
  have hlast : daysBefore 1905 ≤ today := by
    obtain ⟨hlo, -⟩ := Date.year_ofDay today
    rw [daysBefore_between (by omega) (by omega)] at hlo ⊢
    omega
  rw [Fields.walk, hm] at h
  split at h
  · cases h
  · have hlt := walkDays_error h
    rw [lookbackDays] at hlt
    have hdays : daysBefore 1905 = 695421 := by decide
    omega

/-- When the lookback is silent no day matches. -/
lemma not_fits_of_silent {expression : String} {n : ℕ} (hn : n / minutesPerDay = today)
    (hparse : parse expression = .ok fields)
    (hsilent : fields.Silent ((today - lookbackDays) * minutesPerDay) (n + 1)) (day : ℕ) :
    ¬ fields.Fits day := by
  intro hfits
  obtain ⟨day', ⟨hlo, hhi⟩, hfits'⟩ := hfits.recurs hfrom hto
  obtain ⟨minute, hlt, hmatch⟩ := exists_matchesMinute hparse
  have hfires : fields.fires (day' * minutesPerDay + minute) = true := by
    rw [Fields.fires_minute hlt, hmatch, dayMatches_iff.2 hfits']
    rfl
  have hlo' : (today - lookbackDays) * minutesPerDay ≤ day' * minutesPerDay :=
    Nat.mul_le_mul_right _ hlo
  have hhi' : day' * minutesPerDay + minute ≤ n := by
    rw [minutesPerDay] at hlt hn ⊢
    omega
  rw [hsilent _ (by omega) (by omega)] at hfires
  exact Bool.noConfusion hfires

end Recurrence

/-- **The last minute that matches**: between 1905 and 2099 an accepted expression has its previous
fire at the greatest minute up to the time that matches, and none exactly when no day ever
matches. -/
theorem previousFire_greatest {expression : String} {now : Time}
    (hparse : parse expression = .ok fields)
    (hfrom : 1905 ≤ (Date.ofDay (now / minuteLength / minutesPerDay)).year)
    (hto : (Date.ofDay (now / minuteLength / minutesPerDay)).year ≤ 2099) :
    (∀ fire, previousFire expression now = .ok (some fire) ↔
      IsGreatest {t : Time | t ≤ now ∧ ∃ m : ℕ, t = m * minuteLength ∧ fields.Matches m} fire)
    ∧ (previousFire expression now = .ok none ↔ ∀ day, ¬ fields.Fits day) := by
  have htells := fields.tells_walk (now / minuteLength)
  have hfire : previousFire expression now
      = (fields.walk (now / minuteLength)).map fun found => found.map (· * minuteLength) := by
    simp only [previousFire, hparse]
    cases fields.walk (now / minuteLength) <;> rfl
  rw [hfire]
  cases hwalk : fields.walk (now / minuteLength) with
  | error e => exact absurd hwalk (walk_ne_error hfrom hto rfl e)
  | ok found =>
      rw [hwalk] at htells
      cases found with
      | none =>
          have hnone := not_fits_of_silent hfrom hto rfl hparse htells
          refine ⟨fun fire => iff_of_false (by simp [Except.map]) ?_, iff_of_true rfl hnone⟩
          rintro ⟨⟨-, m, -, hmatches⟩, -⟩
          exact hnone _ hmatches.2.2
      | some m =>
          obtain ⟨hm, hfires, hlast⟩ := htells
          have hmatches := fires_iff.1 hfires
          have hgreatest : IsGreatest {t : Time | t ≤ now ∧ ∃ m : ℕ, t = m * minuteLength
              ∧ fields.Matches m} (m * minuteLength) := by
            refine ⟨⟨mul_minuteLength_le.2 (by omega), m, rfl, hmatches⟩, ?_⟩
            rintro _ ⟨hle, m', rfl, hmatches'⟩
            refine Nat.mul_le_mul_right _ (not_lt.1 fun hlt => ?_)
            have hsilent := hlast m' hlt (Nat.lt_succ_of_le (mul_minuteLength_le.1 hle))
            rw [fires_iff.2 hmatches'] at hsilent
            exact Bool.noConfusion hsilent
          refine ⟨fun fire => ?_, iff_of_false (by simp [Except.map]) fun h => h _ hmatches.2.2⟩
          constructor
          · intro h
            obtain rfl := Option.some.inj (Except.ok.inj h)
            exact hgreatest
          · intro h
            rw [h.unique hgreatest]
            rfl

/-- 31 February. -/
theorem previousFire_greatest_impossible :
    previousFire "0 0 31 2 *" (daysBefore 2026 * minutesPerDay * minuteLength) = .ok none
      ∧ ∀ day, ¬ Fields.Fits ⟨some [0], some [0], some [31], some [2], none⟩ day := by
  have hnone : previousFire "0 0 31 2 *" (daysBefore 2026 * minutesPerDay * minuteLength)
      = .ok none := by
    decide +kernel
  have hall := @previousFire_greatest ⟨some [0], some [0], some [31], some [2], none⟩ "0 0 31 2 *"
    (daysBefore 2026 * minutesPerDay * minuteLength)
    (by decide +kernel) (by decide +kernel) (by decide +kernel)
  exact ⟨hnone, hall.2.1 hnone⟩

end ScheduleCron

end Automation
