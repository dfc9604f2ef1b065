import DriftObservatory.Theorems.Spellings

/-! Dates of the calendar and the texts of instants. The date of a day number is the date it was computed from, unless
    the day lies beyond the end of its month, when it is a date of the next month. -/

namespace DriftObservatory

/-! ### The calendar -/

/-- The leap years of the proleptic Gregorian calendar. -/
def LeapYear (year : Nat) : Prop := year % 4 = 0 ∧ (year % 100 ≠ 0 ∨ year % 400 = 0)

instance (year : Nat) : Decidable (LeapYear year) := inferInstanceAs (Decidable (_ ∧ _))

def monthLength (year month : Nat) : Nat :=
  if month = 2 then if LeapYear year then 29 else 28
  else if month = 4 ∨ month = 6 ∨ month = 9 ∨ month = 11 then 30 else 31

/-- A date that exists. -/
structure CivilDate where
  year : Nat
  month : Nat
  day : Nat
  month_pos : 1 ≤ month
  month_le : month ≤ 12
  day_pos : 1 ≤ day
  day_le : day ≤ monthLength year month

/-- The thirtieth or thirty-first of February, its twenty-ninth outside leap years, and the thirty-first of a month
    of thirty days. -/
def Overlong (year month day : Nat) : Prop :=
  month = 2 ∧ (30 ≤ day ∨ day = 29 ∧ ¬LeapYear year) ∨
    (month = 4 ∨ month = 6 ∨ month = 9 ∨ month = 11) ∧ 31 ≤ day

instance (year month day : Nat) : Decidable (Overlong year month day) := inferInstanceAs (Decidable (_ ∨ _))

theorem overlong_iff {year month day : Nat} (hday : day ≤ 31) :
    Overlong year month day ↔ monthLength year month < day := by
  rw [Overlong, monthLength]
  split_ifs with hfeb hleap hthirty
  · simp only [hleap, not_true_eq_false, and_false, or_false]
    omega
  · simp only [hleap, not_false_eq_true, and_true]
    omega
  · omega
  · omega

/-- The days before a year of an era, counted in years that begin in March. -/
def daysBefore (yearOfEra : Nat) : Nat := yearOfEra * 365 + yearOfEra / 4 - yearOfEra / 100

/-- The year of a day of an era; the last day of a long year is the twenty-ninth of February. -/
theorem yearOfEra_eq {yearOfEra dayOfYear dayOfEra : Nat} (hyear : yearOfEra < 400) (hday : dayOfYear ≤ 365)
    (hlong : dayOfYear = 365 → LeapYear (yearOfEra + 1)) (hera : dayOfEra = daysBefore yearOfEra + dayOfYear) :
    dayOfEra < 146097 ∧
      (dayOfEra - dayOfEra / 1460 + dayOfEra / 36524 - dayOfEra / 146096) / 365 = yearOfEra := by
  obtain ⟨century, cycle, rest, hcentury, hcycle, hrest, rfl⟩ : ∃ century cycle rest, century ≤ 3 ∧ cycle ≤ 24 ∧
      rest ≤ 3 ∧ yearOfEra = 100 * century + 4 * cycle + rest :=
    ⟨yearOfEra / 100, yearOfEra % 100 / 4, yearOfEra % 4, by omega, by omega, by omega, by omega⟩
  have hdays : dayOfEra = 36524 * century + 1461 * cycle + 365 * rest + dayOfYear := by
    rw [hera, daysBefore]
    omega
  have hleap : dayOfYear ≤ 364 ∨ dayOfYear = 365 ∧ rest = 3 ∧ (cycle ≤ 23 ∨ century = 3) := by
    rcases Nat.lt_or_ge dayOfYear 365 with h | h
    · exact .inl (by omega)
    · have hlast := hlong (by omega)
      rw [LeapYear] at hlast
      exact .inr ⟨by omega, by omega, by omega⟩
  exact yearOfEra_split hcentury hcycle hrest hleap hdays

/-- The day number of a date, by the era of the year, and counted in years that begin in March. -/
theorem daysFromCivil_era {year shifted : Int} {month day adjusted : Nat} (hday : 1 ≤ day)
    (hshifted : shifted = if month ≤ 2 then year - 1 else year)
    (hadjusted : adjusted = if 2 < month then month - 3 else month + 9) :
    daysFromCivil year month day = shifted / 400 * 146097 +
      (daysBefore (shifted % 400).toNat + ((153 * adjusted + 2) / 5 + (day - 1)) : Nat) - 719468 := by
  have hera : (if 0 ≤ shifted then shifted else shifted - 399).tdiv 400 = shifted / 400 :=
    tdiv_down (k := 400) (by decide)
  have hrest : shifted - shifted / 400 * 400 = shifted % 400 := by omega
  simp only [daysFromCivil, ← hshifted, hera, hrest, ← hadjusted, daysBefore]
  omega

/-- The day number of a date, counted in years that begin in March. -/
theorem daysFromCivil_eq {year month day shifted adjusted : Nat} (hday : 1 ≤ day) (hyear : 1 ≤ year)
    (hshifted : shifted = if month ≤ 2 then year - 1 else year)
    (hadjusted : adjusted = if 2 < month then month - 3 else month + 9) :
    daysFromCivil year month day = (shifted / 400 : Nat) * 146097 +
      (daysBefore (shifted % 400) + ((153 * adjusted + 2) / 5 + (day - 1)) : Nat) - 719468 := by
  have hshift : (shifted : Int) = if month ≤ 2 then (year : Int) - 1 else year := by
    rw [hshifted]
    split_ifs <;> omega
  exact daysFromCivil_era hday hshift hadjusted

theorem day_le_of_monthLength {year month day : Nat} (h : day ≤ monthLength year month) :
    day ≤ 31 ∧ ((month = 4 ∨ month = 6 ∨ month = 9 ∨ month = 11) → day ≤ 30) ∧
      (month = 2 → day ≤ 28 ∨ day = 29 ∧ LeapYear year) := by
  rw [monthLength] at h
  split_ifs at h with hfeb hleap hthirty
  · exact ⟨by omega, by omega, fun _ => (Nat.lt_or_eq_of_le h).imp (by omega) fun heq => ⟨heq, hleap⟩⟩
  · exact ⟨by omega, by omega, fun _ => .inl h⟩
  · exact ⟨by omega, fun _ => h, by omega⟩
  · exact ⟨h, fun hmonth => absurd hmonth hthirty, fun hmonth => absurd hmonth hfeb⟩

/-- The place of a date within its year, and the month read off it. -/
theorem dayOfYear_spec {year month day adjusted dayOfYear : Nat} (hday : 1 ≤ day) (hlength : day ≤ monthLength year month)
    (hadjusted : adjusted < 10 ∧ month = adjusted + 3 ∨ (adjusted = 10 ∨ adjusted = 11) ∧ month = adjusted - 9)
    (hdayOfYear : dayOfYear = (153 * adjusted + 2) / 5 + (day - 1)) :
    dayOfYear ≤ 365 ∧ (5 * dayOfYear + 2) / 153 = adjusted ∧ (dayOfYear = 365 → month = 2 ∧ LeapYear year) := by
  obtain ⟨hlong, hthirty, hfeb⟩ := day_le_of_monthLength hlength
  rcases Nat.lt_or_ge adjusted 11 with hlt | hge
  · refine ⟨by omega, ?_, by omega⟩
    interval_cases adjusted <;> omega
  · have hadjusted : adjusted = 11 := by omega
    have hmonth : month = 2 := by omega
    rw [hadjusted] at hdayOfYear
    rcases hfeb hmonth with hshort | ⟨hlast, hleap⟩
    · exact ⟨by omega, by omega, by omega⟩
    · exact ⟨by omega, by omega, fun _ => ⟨hmonth, hleap⟩⟩

/-- The date of a day number given by its era, the day of the era and the year and month these come to. -/
theorem civilFromDays_eq {days era : Int} {yearOfEra dayOfYear dayOfEra adjusted month : Nat}
    (hdays : days + 719468 = era * 146097 + dayOfEra) (hlt : dayOfEra < 146097)
    (hera : dayOfEra = daysBefore yearOfEra + dayOfYear)
    (hyear : (dayOfEra - dayOfEra / 1460 + dayOfEra / 36524 - dayOfEra / 146096) / 365 = yearOfEra)
    (hadjusted : (5 * dayOfYear + 2) / 153 = adjusted)
    (hmonth : (if adjusted < 10 then adjusted + 3 else adjusted - 9) = month) :
    civilFromDays days =
      ((yearOfEra : Int) + era * 400 + (if month ≤ 2 then 1 else 0), month,
        dayOfYear - (153 * adjusted + 2) / 5 + 1) := by
  have hfloor : (if 0 ≤ days + 719468 then days + 719468 else days + 719468 - 146096).tdiv 146097 =
      (days + 719468) / 146097 := tdiv_down (k := 146097) (by decide)
  have hquotient : (days + 719468) / 146097 = era := by omega
  have hremainder : (days + 719468 - era * 146097).toNat = dayOfEra := by omega
  have hday : dayOfEra - (365 * yearOfEra + yearOfEra / 4 - yearOfEra / 100) = dayOfYear := by
    rw [hera, daysBefore, Nat.mul_comm 365, Nat.add_sub_cancel_left]
  simp only [civilFromDays, hfloor, hquotient, hremainder, hyear, hday, hadjusted, hmonth]

/-- A date of any year exists; the calendar recurs every 400 years. -/
def DateExists (year : Int) (month day : Nat) : Prop :=
  (1 ≤ month ∧ month ≤ 12) ∧ 1 ≤ day ∧ day ≤ monthLength (year % 400).toNat month

/-- The month of a year that begins in March. -/
theorem marchMonth_spec {year : Int} {month : Nat} (hpos : 1 ≤ month) (hle : month ≤ 12) : ∃ (shifted : Int) (adjusted : Nat),
    shifted = (if month ≤ 2 then year - 1 else year) ∧ adjusted = (if 2 < month then month - 3 else month + 9) ∧
      (adjusted < 10 ∧ month = adjusted + 3 ∧ year = shifted ∨
        (adjusted = 10 ∨ adjusted = 11) ∧ month = adjusted - 9 ∧ year = shifted + 1) := by
  refine ⟨_, _, rfl, rfl, ?_⟩
  split_ifs <;> omega

/-- The day of the year of a date, which is the last of a long year at most. -/
theorem dayOfYear_exists {year shifted : Int} {month day adjusted : Nat} (h : DateExists year month day)
    (hmonths : adjusted < 10 ∧ month = adjusted + 3 ∧ year = shifted ∨
      (adjusted = 10 ∨ adjusted = 11) ∧ month = adjusted - 9 ∧ year = shifted + 1) :
    (153 * adjusted + 2) / 5 + (day - 1) ≤ 365 ∧
      (5 * ((153 * adjusted + 2) / 5 + (day - 1)) + 2) / 153 = adjusted ∧
      ((153 * adjusted + 2) / 5 + (day - 1) = 365 → LeapYear ((shifted % 400).toNat + 1)) := by
  obtain ⟨hle, hmp, hleap⟩ := dayOfYear_spec h.2.1 h.2.2 (hmonths.imp (fun h => ⟨h.1, h.2.1⟩) fun h => ⟨h.1, h.2.1⟩) rfl
  refine ⟨hle, hmp, fun hlast => ?_⟩
  obtain ⟨hfeb, hleap⟩ := hleap hlast
  have hyear : year = shifted + 1 := by omega
  simp only [LeapYear] at hleap ⊢
  omega

/-- The date of the day number of a date that exists. -/
theorem civilFromDays_daysFromCivil {year : Int} {month day : Nat} (h : DateExists year month day) :
    civilFromDays (daysFromCivil year month day) = (year, month, day) := by
  obtain ⟨⟨hpos, hle⟩, hday, -⟩ := id h
  obtain ⟨shifted, adjusted, hshifted, hadjusted, hmonths⟩ := @marchMonth_spec year _ hpos hle
  obtain ⟨hdoy, hmp, hlong⟩ := dayOfYear_exists h hmonths
  have hmonth : (if adjusted < 10 then adjusted + 3 else adjusted - 9) = month := by
    split_ifs <;> omega
  have hyear : ((shifted % 400).toNat : Int) + shifted / 400 * 400 + (if month ≤ 2 then 1 else 0) = year := by
    split_ifs <;> omega
  have hdate : (153 * adjusted + 2) / 5 + (day - 1) - (153 * adjusted + 2) / 5 + 1 = day := by
    rw [Nat.add_sub_cancel_left, Nat.sub_add_cancel hday]
  obtain ⟨hlt, hyoe⟩ := yearOfEra_eq (by omega) hdoy hlong rfl
  rw [daysFromCivil_era hday hshifted hadjusted, civilFromDays_eq (Int.sub_add_cancel _ _) hlt rfl hyoe hmp hmonth,
    hyear, hdate]

theorem CivilDate.dateExists (date : CivilDate) : DateExists date.year date.month date.day := by
  have hleap : LeapYear ((date.year : Int) % 400).toNat ↔ LeapYear date.year := by
    simp only [LeapYear]
    omega
  refine ⟨⟨date.month_pos, date.month_le⟩, date.day_pos, date.day_le.trans_eq ?_⟩
  rw [monthLength, monthLength, if_congr hleap rfl rfl]

theorem daysBefore_succ (yearOfEra : Nat) : daysBefore (yearOfEra + 1) =
    daysBefore yearOfEra + 365 + if (yearOfEra + 1) % 4 = 0 ∧ (yearOfEra + 1) % 100 ≠ 0 then 1 else 0 := by
  rw [daysBefore, daysBefore]
  split_ifs <;> omega

/-- A day beyond the end of its month has the day number of a date of the next month. -/
theorem daysFromCivil_overlong {year month day : Nat} (hyear : 1 ≤ year) (hday : day ≤ 31)
    (h : Overlong year month day) :
    ∃ date : CivilDate, date.year = year ∧ date.month = month + 1 ∧
      daysFromCivil year month day = daysFromCivil date.year date.month date.day := by
  have hlt : monthLength year month < day := (overlong_iff hday).mp h
  have hlength : 28 ≤ monthLength year month := by
    rw [monthLength]
    split_ifs <;> omega
  have hmonth : month = 2 ∨ month = 4 ∨ month = 6 ∨ month = 9 ∨ month = 11 := by
    rw [Overlong] at h
    omega
  have hnext : 30 ≤ monthLength year (month + 1) := by
    rw [monthLength]
    split_ifs <;> omega
  refine ⟨⟨year, month + 1, day - monthLength year month, by omega, by omega, by omega, by omega⟩, rfl, rfl, ?_⟩
  have hfirst : 1 ≤ day - monthLength year month := by omega
  simp only
  rw [daysFromCivil_eq (by omega) hyear rfl rfl, daysFromCivil_eq hfirst hyear rfl rfl]
  rcases hmonth with rfl | hmonth
  · -- The year that begins in March ends with the February.
    obtain ⟨era, yearOfEra, hlt, rfl⟩ : ∃ era yearOfEra, yearOfEra < 400 ∧ year = 400 * era + yearOfEra + 1 :=
      ⟨(year - 1) / 400, (year - 1) % 400, by omega, by omega⟩
    have hquotient : (400 * era + yearOfEra + 1 - 1) / 400 = era := by omega
    have hremainder : (400 * era + yearOfEra + 1 - 1) % 400 = yearOfEra := by omega
    simp only [if_true, Nat.le_refl, Nat.lt_irrefl, if_false, hquotient, hremainder, Nat.reduceAdd, Nat.reduceLT,
      Nat.reduceLeDiff, Nat.sub_self, Nat.mul_zero]
    rcases Nat.lt_or_ge (yearOfEra + 1) 400 with hwithin | hlast
    · have hquotient : (400 * era + yearOfEra + 1) / 400 = era := by omega
      have hremainder : (400 * era + yearOfEra + 1) % 400 = yearOfEra + 1 := by omega
      have hfeb : monthLength (400 * era + yearOfEra + 1) 2 =
          28 + if (yearOfEra + 1) % 4 = 0 ∧ (yearOfEra + 1) % 100 ≠ 0 then 1 else 0 := by
        have hleap : LeapYear (400 * era + yearOfEra + 1) ↔ (yearOfEra + 1) % 4 = 0 ∧ (yearOfEra + 1) % 100 ≠ 0 := by
          rw [LeapYear]
          omega
        rw [monthLength, if_pos rfl, if_congr hleap rfl rfl]
        split_ifs <;> rfl
      rw [hquotient, hremainder, daysBefore_succ]
      omega
    · obtain rfl : yearOfEra = 399 := by omega
      have hfeb : monthLength (400 * era + 399 + 1) 2 = 29 := by
        rw [monthLength, if_pos rfl, if_pos]
        rw [LeapYear]
        omega
      have hquotient : (400 * era + 399 + 1) / 400 = era + 1 := by omega
      have hremainder : (400 * era + 399 + 1) % 400 = 0 := by omega
      have hdays : daysBefore 399 = 145731 := rfl
      have hnone : daysBefore 0 = 0 := rfl
      rw [hquotient, hremainder, hdays, hnone]
      omega
  · have hthirty : monthLength year month = 30 := by
      rw [monthLength, if_neg (by omega), if_pos hmonth]
    rw [hthirty]
    rcases hmonth with rfl | rfl | rfl | rfl <;> simp <;> omega

end DriftObservatory
