import AgencyOS.Python.Calendar

/-!
The days of the calendar and their dates.

* `daysBefore`, `yearLength`, `Date.Valid`, `Date.toDay`: `date.toordinal`, from the lengths of years and
  months;
* `yearOf_spec`, `yearOf_daysBefore`: `yearOf` splits a day into its year and the days of that year;
* `Date.toDay_ofDay`, `Date.ofDay_toDay`: **days and valid dates correspond**;
* `Date.year_ofDay`, `Date.Valid.toDay_bounds`: a day lies in the year of its date;
* `Date.Valid.toDay_lt`, `Date.monthIndex_le`: days and months of the calendar come in one order.
-/

namespace Python

/-! ### Years -/

def yearLength (year : ℕ) : ℕ := if isLeap year then 366 else 365

/-- `_days_before_year`. -/
def daysBefore (year : ℕ) : ℕ := 365 * (year - 1) + (year - 1) / 4 - (year - 1) / 100 + (year - 1) / 400

lemma isLeap_iff {year : ℕ} : isLeap year = true ↔ year % 4 = 0 ∧ (year % 100 ≠ 0 ∨ year % 400 = 0) := by
  simp [isLeap]

lemma yearLength_pos (year : ℕ) : 365 ≤ yearLength year := by
  rw [yearLength]
  split_ifs <;> omega

lemma daysBefore_succ {year : ℕ} (h : 1 ≤ year) :
    daysBefore (year + 1) = daysBefore year + yearLength year := by
  obtain ⟨y, rfl⟩ := Nat.exists_eq_add_of_le' h
  have hleap : isLeap (y + 1) = true ↔ 4 ∣ y + 1 ∧ (¬ 100 ∣ y + 1 ∨ 400 ∣ y + 1) := by
    simp [isLeap, Nat.dvd_iff_mod_eq_zero]
  have h4 : 100 ∣ y + 1 → 4 ∣ y + 1 := Dvd.dvd.trans (by norm_num)
  have h100 : 400 ∣ y + 1 → 100 ∣ y + 1 := Dvd.dvd.trans (by norm_num)
  have hle : y / 100 ≤ y / 4 := Nat.div_le_div_left (by omega) (by omega)
  simp only [daysBefore, yearLength, hleap, Nat.add_sub_cancel, Nat.succ_div]
  by_cases hd4 : 4 ∣ y + 1 <;> by_cases hd100 : 100 ∣ y + 1 <;> by_cases hd400 : 400 ∣ y + 1 <;>
    simp only [hd4, hd100, hd400, not_true_eq_false, not_false_eq_true, if_true, if_false, and_true,
      or_true, or_false, and_false, forall_true_left] at h4 h100 ⊢ <;> omega

/-- The years before a year, as quadricenturies, centuries, quadrennia and years. -/
lemma exists_cycles (y : ℕ) :
    ∃ a b c d : ℕ, b < 4 ∧ c < 25 ∧ d < 4 ∧ y = 400 * a + 100 * b + 4 * c + d :=
  ⟨y / 400, y % 400 / 100, y % 100 / 4, y % 4, by omega, by omega, by omega, by omega⟩

lemma daysBefore_cycles {a b c d : ℕ} (hb : b < 4) (hc : c < 25) (hd : d < 4) :
    daysBefore (400 * a + 100 * b + 4 * c + d + 1) = 146097 * a + 36524 * b + 1461 * c + 365 * d := by
  simp only [daysBefore, Nat.add_sub_cancel]
  omega

lemma isLeap_cycles {a b c d : ℕ} (hb : b < 4) (hc : c < 25) (hd : d < 4) :
    isLeap (400 * a + 100 * b + 4 * c + d + 1) = true ↔ d = 3 ∧ (c = 24 → b = 3) := by
  rw [isLeap_iff]
  omega

lemma yearOf_cycles {a b c d k : ℕ} (hb : b < 4) (hc : c < 25) (hd : d < 4)
    (hk : k < 365 ∨ k = 365 ∧ d = 3 ∧ (c = 24 → b = 3)) :
    yearOf (146097 * a + 36524 * b + 1461 * c + 365 * d + k)
      = (400 * a + 100 * b + 4 * c + d + 1, k) := by
  have hquadricentury : (146097 * a + 36524 * b + 1461 * c + 365 * d + k) / 146097 = a := by omega
  have hrest : (146097 * a + 36524 * b + 1461 * c + 365 * d + k) % 146097
      = 36524 * b + 1461 * c + 365 * d + k := by omega
  simp only [yearOf, hquadricentury, hrest]
  by_cases hlast : b = 3 ∧ c = 24 ∧ d = 3 ∧ k = 365
  · -- the last day of four centuries
    obtain ⟨rfl, rfl, rfl, rfl⟩ := hlast
    norm_num
  · have hcentury : (36524 * b + 1461 * c + 365 * d + k) / 36524 = b := by omega
    have hrest' : (36524 * b + 1461 * c + 365 * d + k) % 36524 = 1461 * c + 365 * d + k := by omega
    have hquadrennium : (1461 * c + 365 * d + k) / 1461 = c := by omega
    have hrest'' : (1461 * c + 365 * d + k) % 1461 = 365 * d + k := by omega
    rw [hcentury, hrest', hquadrennium, hrest'']
    by_cases hk' : k = 365
    · rw [if_pos (by omega), Prod.mk.injEq]
      omega
    · rw [if_neg (by omega), Prod.mk.injEq]
      omega

/-- The day `k` of a year is in that year. -/
theorem yearOf_daysBefore {year k : ℕ} (hyear : 1 ≤ year) (hk : k < yearLength year) :
    yearOf (daysBefore year + k) = (year, k) := by
  obtain ⟨y, rfl⟩ := Nat.exists_eq_add_of_le' hyear
  obtain ⟨a, b, c, d, hb, hc, hd, rfl⟩ := exists_cycles y
  rw [daysBefore_cycles hb hc hd]
  refine yearOf_cycles hb hc hd ?_
  rw [yearLength] at hk
  split_ifs at hk with hleap
  · have hleap := (isLeap_cycles hb hc hd).mp hleap
    omega
  · exact Or.inl hk

/-- Every day is in some year. -/
lemma exists_year (day : ℕ) :
    ∃ year k, 1 ≤ year ∧ k < yearLength year ∧ day = daysBefore year + k := by
  induction day with
  | zero => exact ⟨1, 0, le_rfl, by decide, rfl⟩
  | succ day ih =>
      obtain ⟨year, k, hyear, hk, rfl⟩ := ih
      rcases Nat.lt_or_ge (k + 1) (yearLength year) with hlt | hge
      · exact ⟨year, k + 1, hyear, hlt, by omega⟩
      · refine ⟨year + 1, 0, by omega, ?_, ?_⟩
        · have hpos := yearLength_pos (year + 1)
          omega
        · rw [daysBefore_succ hyear]
          omega

theorem yearOf_spec (day : ℕ) :
    1 ≤ (yearOf day).1 ∧ (yearOf day).2 < yearLength (yearOf day).1
      ∧ daysBefore (yearOf day).1 + (yearOf day).2 = day := by
  obtain ⟨year, k, hyear, hk, rfl⟩ := exists_year day
  rw [yearOf_daysBefore hyear hk]
  exact ⟨hyear, hk, rfl⟩

/-! ### Months -/

/-- The date of day `k` of the months to come: `k` falls into one of them. -/
lemma monthOf_spec {lengths : List ℕ} {m k : ℕ} (h : k < lengths.sum) :
    ∃ j, ∃ hj : j < lengths.length, ∃ d < lengths[j],
      k = (lengths.take j).sum + d ∧ monthOf lengths m k = (m + j, d + 1) := by
  induction lengths generalizing m k with
  | nil => simp at h
  | cons length lengths ih =>
      rw [monthOf]
      rw [List.sum_cons] at h
      split_ifs with hk
      · exact ⟨0, by simp, k, hk, by simp, rfl⟩
      · obtain ⟨j, hj, d, hd, hsum, hmonth⟩ := @ih (m + 1) (k - length) (by omega)
        refine ⟨j + 1, by simpa using hj, d, by simpa using hd, ?_, ?_⟩
        · rw [List.take_succ_cons, List.sum_cons]
          omega
        · rw [hmonth, Prod.mk.injEq]
          omega

lemma monthOf_take {lengths : List ℕ} {m j d : ℕ} (hj : j < lengths.length) (hd : d < lengths[j]) :
    monthOf lengths m ((lengths.take j).sum + d) = (m + j, d + 1) := by
  induction lengths generalizing m j with
  | nil => simp at hj
  | cons length lengths ih =>
      cases j with
      | zero =>
          rw [List.getElem_cons_zero] at hd
          simp [monthOf, hd]
      | succ j =>
          rw [monthOf, List.take_succ_cons, List.sum_cons, if_neg (by omega),
            show length + (lengths.take j).sum + d - length = (lengths.take j).sum + d by omega,
            @ih (m + 1) j (by simpa using hj) (by simpa using hd), Prod.mk.injEq]
          omega

lemma sum_monthLengths (leap : Bool) : (monthLengths leap).sum = if leap then 366 else 365 := by
  cases leap <;> rfl

/-! ### Dates -/

/-- `_days_in_month`. -/
def monthLength (leap : Bool) (month : ℕ) : ℕ := ((monthLengths leap)[month - 1]?).getD 0

structure Date.Valid (d : Date) : Prop where
  year : 1 ≤ d.year
  month : 1 ≤ d.month ∧ d.month ≤ 12
  day : 1 ≤ d.day ∧ d.day ≤ monthLength (isLeap d.year) d.month

lemma Date.valid_mk {year month day : ℕ} : (⟨year, month, day⟩ : Date).Valid ↔
    1 ≤ year ∧ (1 ≤ month ∧ month ≤ 12) ∧ 1 ≤ day ∧ day ≤ monthLength (isLeap year) month :=
  ⟨fun h => ⟨h.year, h.month, h.day⟩, fun h => ⟨h.1, h.2.1, h.2.2⟩⟩

/-- `date.toordinal`, from 0. -/
def Date.toDay (d : Date) : ℕ :=
  daysBefore d.year + ((monthLengths (isLeap d.year)).take (d.month - 1)).sum + (d.day - 1)

lemma monthLength_succ {leap : Bool} {j : ℕ} (hj : j < (monthLengths leap).length) :
    monthLength leap (j + 1) = (monthLengths leap)[j] := by
  rw [monthLength, Nat.add_sub_cancel, List.getElem?_eq_getElem hj, Option.getD_some]

@[simp] lemma length_monthLengths (leap : Bool) : (monthLengths leap).length = 12 := rfl

/-- The days of a year that come before a month and a day of it. -/
lemma monthLengths_take_lt {leap : Bool} {j d : ℕ} (hj : j < (monthLengths leap).length)
    (hd : d < (monthLengths leap)[j]) :
    ((monthLengths leap).take j).sum + d < (monthLengths leap).sum := by
  calc ((monthLengths leap).take j).sum + d
      < ((monthLengths leap).take j).sum + (monthLengths leap)[j] := by omega
    _ = ((monthLengths leap).take (j + 1)).sum := (List.sum_take_succ _ _ hj).symm
    _ ≤ (monthLengths leap).sum := (List.take_sublist _ _).sum_le_sum (by simp)

theorem Date.toDay_ofDay (day : ℕ) : (Date.ofDay day).Valid ∧ (Date.ofDay day).toDay = day := by
  obtain ⟨hyear, hlt, hday⟩ := yearOf_spec day
  have hsum : (yearOf day).2 < (monthLengths (isLeap (yearOf day).1)).sum := by
    rwa [sum_monthLengths]
  obtain ⟨j, hj, d, hd, hk, hmonth⟩ := @monthOf_spec _ 1 _ hsum
  have hdate : Date.ofDay day = ⟨(yearOf day).1, j + 1, d + 1⟩ := by
    simp only [Date.ofDay, hmonth, Nat.add_comm 1 j]
  rw [hdate]
  have hmonths : j < 12 := by simpa using hj
  refine ⟨⟨hyear, ⟨Nat.succ_pos j, hmonths⟩, Nat.succ_pos d, ?_⟩, ?_⟩
  · exact (monthLength_succ hj).symm ▸ hd
  · simp only [Date.toDay, Nat.add_sub_cancel]
    omega

lemma Date.valid_ofDay (day : ℕ) : (Date.ofDay day).Valid := (Date.toDay_ofDay day).1

theorem Date.ofDay_toDay {d : Date} (h : d.Valid) : Date.ofDay d.toDay = d := by
  obtain ⟨hyear, ⟨hmonth, hmonth'⟩, hday, hday'⟩ := h
  obtain ⟨year, month, day⟩ := d
  dsimp only at hyear hmonth hmonth' hday hday'
  obtain ⟨j, rfl⟩ := Nat.exists_eq_add_of_le' hmonth
  obtain ⟨k, rfl⟩ := Nat.exists_eq_add_of_le' hday
  have hj : j < (monthLengths (isLeap year)).length := by simp; omega
  rw [monthLength_succ hj] at hday'
  have hlt := monthLengths_take_lt hj hday'
  rw [sum_monthLengths] at hlt
  have hyearOf := yearOf_daysBefore hyear hlt
  simp only [Date.ofDay, Date.toDay, Nat.add_sub_cancel]
  rw [Nat.add_assoc, hyearOf]
  simp only [monthOf_take hj hday', Nat.add_comm 1 j]

/-- A day lies in the year of its date. -/
lemma Date.year_ofDay (day : ℕ) :
    daysBefore (Date.ofDay day).year ≤ day ∧ day < daysBefore ((Date.ofDay day).year + 1) := by
  obtain ⟨hyear, hlt, hday⟩ := yearOf_spec day
  have heq : (Date.ofDay day).year = (yearOf day).1 := rfl
  rw [heq, daysBefore_succ hyear]
  omega

lemma Date.Valid.toDay_bounds {d : Date} (h : d.Valid) :
    daysBefore d.year ≤ d.toDay ∧ d.toDay < daysBefore (d.year + 1) := by
  have hbounds := Date.year_ofDay d.toDay
  rwa [Date.ofDay_toDay h] at hbounds

/-! ### Months of the calendar -/

lemma daysBefore_mono {y y' : ℕ} (hy : 1 ≤ y) (h : y ≤ y') : daysBefore y ≤ daysBefore y' := by
  induction y', h using Nat.le_induction with
  | base => exact le_rfl
  | succ y' hle ih =>
      rw [daysBefore_succ (hy.trans hle)]
      exact ih.trans (Nat.le_add_right _ _)

/-- The months before the month of a date. -/
def Date.monthIndex (d : Date) : ℕ := 12 * d.year + (d.month - 1)

lemma Date.Valid.eq_of_monthIndex {d e : Date} (hd : d.Valid) (he : e.Valid)
    (h : d.monthIndex = e.monthIndex) : d.year = e.year ∧ d.month = e.month := by
  have hmonth := hd.month
  have hmonth' := he.month
  rw [Date.monthIndex, Date.monthIndex] at h
  omega

/-- A day in an earlier month is earlier. -/
lemma Date.Valid.toDay_lt {d e : Date} (hd : d.Valid) (he : e.Valid)
    (h : d.monthIndex < e.monthIndex) : d.toDay < e.toDay := by
  have hmonth := hd.month
  have hmonth' := he.month
  rw [Date.monthIndex, Date.monthIndex] at h
  rcases Nat.lt_or_ge d.year e.year with hlt | hge
  · calc d.toDay < daysBefore (d.year + 1) := hd.toDay_bounds.2
      _ ≤ daysBefore e.year := daysBefore_mono (by omega) hlt
      _ ≤ e.toDay := he.toDay_bounds.1
  · have hyear : d.year = e.year := by omega
    have hj : d.month - 1 < (monthLengths (isLeap e.year)).length := by
      rw [length_monthLengths]
      omega
    have hday := hd.day
    rw [hyear, ← Nat.sub_add_cancel hmonth.1, monthLength_succ hj] at hday
    rw [Date.toDay, Date.toDay, hyear]
    calc daysBefore e.year + ((monthLengths (isLeap e.year)).take (d.month - 1)).sum + (d.day - 1)
        < daysBefore e.year + (((monthLengths (isLeap e.year)).take (d.month - 1)).sum
          + (monthLengths (isLeap e.year))[d.month - 1]) := by omega
      _ = daysBefore e.year + ((monthLengths (isLeap e.year)).take (d.month - 1 + 1)).sum := by
          rw [List.sum_take_succ _ _ hj]
      _ ≤ daysBefore e.year + ((monthLengths (isLeap e.year)).take (e.month - 1)).sum := by
          refine Nat.add_le_add_left ?_ _
          exact (List.take_sublist_take_left (by omega)).sum_le_sum (by simp)
      _ ≤ daysBefore e.year + ((monthLengths (isLeap e.year)).take (e.month - 1)).sum
          + (e.day - 1) := Nat.le_add_right _ _

/-- Within a month, days are in the order of their numbers. -/
lemma Date.toDay_add_day {d e : Date} (hyear : d.year = e.year) (hmonth : d.month = e.month)
    (hd : 1 ≤ d.day) (he : 1 ≤ e.day) : d.toDay + e.day = e.toDay + d.day := by
  rw [Date.toDay, Date.toDay, hyear, hmonth]
  omega

/-- Days in order are in months in order. -/
lemma Date.monthIndex_le {day day' : ℕ} (h : day ≤ day') :
    (Date.ofDay day).monthIndex ≤ (Date.ofDay day').monthIndex := by
  by_contra hlt
  rw [not_le] at hlt
  have hday := (Date.valid_ofDay day').toDay_lt (Date.valid_ofDay day) hlt
  rw [(Date.toDay_ofDay day).2, (Date.toDay_ofDay day').2] at hday
  omega

lemma monthLength_pos {leap : Bool} {month : ℕ} (h : 1 ≤ month ∧ month ≤ 12) :
    1 ≤ monthLength leap month := by
  obtain ⟨hlo, hhi⟩ := h
  cases leap <;> interval_cases month <;> decide

end Python
