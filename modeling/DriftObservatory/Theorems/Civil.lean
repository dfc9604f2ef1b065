import DriftObservatory.Theorems.Dates
import Mathlib.Data.Prod.Lex

/-! The civil calendar. Day numbers and dates determine each other, in the same order, and no subtraction of unsigned
    numbers on the way goes below zero. -/

namespace DriftObservatory

/-! ### From day numbers to dates -/

/-- The months from March to January begin where the formula says. -/
theorem monthLength_march {year month mp : Nat} (hmp : mp < 11) (hmonth : month = if mp < 10 then mp + 3 else mp - 9) :
    monthLength year month = (153 * (mp + 1) + 2) / 5 - (153 * mp + 2) / 5 := by
  interval_cases mp <;> subst hmonth <;> rfl

/-- The day in its month, read off its place in a year that begins in March. -/
theorem day_of_dayOfYear {dayOfYear mp yearOfEra : Nat} {era year : Int} {month : Nat}
    (hmp : mp = (5 * dayOfYear + 2) / 153) (hlast : dayOfYear ≤ 364 ∨ dayOfYear = 365 ∧ LeapYear (yearOfEra + 1))
    (hmonth : month = if mp < 10 then mp + 3 else mp - 9)
    (hyear : year = (yearOfEra : Int) + era * 400 + if month ≤ 2 then 1 else 0) :
    DateExists year month (dayOfYear - (153 * mp + 2) / 5 + 1) ∧
      (153 * mp + 2) / 5 + (dayOfYear - (153 * mp + 2) / 5 + 1 - 1) = dayOfYear := by
  have hplace : mp ≤ 11 ∧ (153 * mp + 2) / 5 ≤ dayOfYear := by omega
  refine ⟨⟨⟨?_, ?_⟩, Nat.succ_pos _, ?_⟩, by omega⟩
  · split_ifs at hmonth <;> omega
  · split_ifs at hmonth <;> omega
  rcases Nat.lt_or_ge mp 11 with hlt | hge
  · rw [monthLength_march hlt hmonth]
    omega
  · have hmp : mp = 11 := by omega
    have hfeb : month = 2 := by
      rw [hmonth, hmp]
      rfl
    rw [hfeb, if_pos (Nat.le_refl 2)] at hyear
    rw [hfeb, hmp, monthLength, if_pos rfl]
    rcases hlast with hle | ⟨hday, hleap⟩
    · split_ifs <;> omega
    · have hlong : LeapYear (year % 400).toNat := by
        simp only [LeapYear] at hleap ⊢
        omega
      rw [if_pos hlong, hday]

/-- The date of a day number exists, and the day number is that of the date. -/
theorem daysFromCivil_civilFromDays (days : Int) : ∃ year month day, civilFromDays days = (year, month, day) ∧
    DateExists year month day ∧ daysFromCivil year month day = days := by
  obtain ⟨era, dayOfEra, hlt, hdays⟩ : ∃ (era : Int) (dayOfEra : Nat), dayOfEra < 146097 ∧
      days + 719468 = era * 146097 + dayOfEra :=
    ⟨(days + 719468) / 146097, ((days + 719468) % 146097).toNat, by omega, by omega⟩
  obtain ⟨century, cycle, rest, dayOfYear, hcentury, hcycle, hrest, hday, hera⟩ := exists_yearOfEra hlt
  obtain ⟨yearOfEra, hyear⟩ : ∃ yearOfEra, yearOfEra = 100 * century + 4 * cycle + rest := ⟨_, rfl⟩
  have hcenturies : yearOfEra / 100 = century := by omega
  have hcycles : yearOfEra / 4 = 25 * century + cycle := by omega
  have hbefore : dayOfEra = daysBefore yearOfEra + dayOfYear := by
    rw [daysBefore, hcenturies, hcycles]
    omega
  have hlast : dayOfYear ≤ 364 ∨ dayOfYear = 365 ∧ LeapYear (yearOfEra + 1) := by
    rw [LeapYear]
    omega
  have hyoe := (yearOfEra_split hcentury hcycle hrest hday hera).2
  rw [← hyear] at hyoe
  obtain ⟨mp, hmp⟩ : ∃ mp, mp = (5 * dayOfYear + 2) / 153 := ⟨_, rfl⟩
  obtain ⟨month, hmonth⟩ : ∃ month, month = if mp < 10 then mp + 3 else mp - 9 := ⟨_, rfl⟩
  obtain ⟨year, hyears⟩ : ∃ year, year = (yearOfEra : Int) + era * 400 + if month ≤ 2 then 1 else 0 := ⟨_, rfl⟩
  obtain ⟨hexists, hplace⟩ := day_of_dayOfYear hmp hlast hmonth hyears
  refine ⟨year, month, _, ?_, hexists, ?_⟩
  · rw [civilFromDays_eq hdays hlt hbefore hyoe hmp.symm hmonth.symm, hyears]
  · have hshifted : (yearOfEra : Int) + era * 400 = if month ≤ 2 then year - 1 else year := by
      rw [hyears]
      split_ifs <;> omega
    have hadjusted : mp = if 2 < month then month - 3 else month + 9 := by
      rw [hmonth]
      split_ifs <;> omega
    have hquotient : ((yearOfEra : Int) + era * 400) / 400 = era := by omega
    have hremainder : (((yearOfEra : Int) + era * 400) % 400).toNat = yearOfEra := by omega
    rw [daysFromCivil_era (Nat.succ_pos _) hshifted hadjusted, hquotient, hremainder, hplace, ← hbefore, ← hdays,
      Int.add_sub_cancel]

/-! ### The order -/

/-- The first day of a year that begins in March. -/
def marchFirst (shifted : Int) : Int := shifted / 400 * 146097 + daysBefore (shifted % 400).toNat

theorem marchFirst_eq (shifted : Int) : marchFirst shifted = 365 * shifted + shifted / 4 - shifted / 100 + shifted / 400 := by
  rw [marchFirst, daysBefore]
  omega

/-- A year ends before a later one begins. -/
theorem marchFirst_lt {shifted shifted' : Int} {dayOfYear : Nat} (h : shifted < shifted') (hle : dayOfYear ≤ 365)
    (hlong : dayOfYear = 365 → LeapYear ((shifted % 400).toNat + 1)) : marchFirst shifted + dayOfYear < marchFirst shifted' := by
  have hnext : marchFirst shifted + dayOfYear < marchFirst (shifted + 1) := by
    rw [marchFirst_eq, marchFirst_eq]
    rcases Nat.lt_or_ge dayOfYear 365 with hlt | hge
    · omega
    · have hleap := hlong (by omega)
      rw [LeapYear] at hleap
      omega
  have hmono : marchFirst (shifted + 1) ≤ marchFirst shifted' := by
    rw [marchFirst_eq, marchFirst_eq]
    omega
  exact hnext.trans_le hmono

theorem daysFromCivil_lt {year year' : Int} {month month' day day' : Nat} (h : DateExists year month day)
    (h' : DateExists year' month' day') (hlt : toLex (year, toLex (month, day)) < toLex (year', toLex (month', day'))) :
    daysFromCivil year month day < daysFromCivil year' month' day' := by
  obtain ⟨⟨hpos, hle⟩, hday, -⟩ := id h
  obtain ⟨⟨hpos', hle'⟩, hday', -⟩ := id h'
  obtain ⟨shifted, adjusted, hshifted, hadjusted, hmonths⟩ := @marchMonth_spec year _ hpos hle
  obtain ⟨shifted', adjusted', hshifted', hadjusted', hmonths'⟩ := @marchMonth_spec year' _ hpos' hle'
  obtain ⟨hdoy, hmp, hlong⟩ := dayOfYear_exists h hmonths
  obtain ⟨-, hmp', -⟩ := dayOfYear_exists h' hmonths'
  rw [daysFromCivil_era hday hshifted hadjusted, daysFromCivil_era hday' hshifted' hadjusted']
  have hstart : ∀ (s : Int) (n : Nat), s / 400 * 146097 + (daysBefore (s % 400).toNat + n : Nat) = marchFirst s + n :=
    fun s n => by rw [marchFirst, Nat.cast_add, Int.add_assoc]
  rw [hstart, hstart]
  simp only [Prod.Lex.toLex_lt_toLex] at hlt
  have hcases : shifted < shifted' ∨ shifted = shifted' ∧ (adjusted < adjusted' ∨ adjusted = adjusted' ∧ day < day') := by
    omega
  rcases hcases with hyears | ⟨rfl, hmonths | ⟨rfl, hdays⟩⟩
  · have hyear := marchFirst_lt hyears hdoy hlong
    omega
  · omega
  · omega

/-! ### The unsigned subtractions -/

/-- A difference of unsigned numbers, unless it wraps around. -/
def unsignedSub (a b : Nat) : Option Nat := if b ≤ a then some (a - b) else none

/-- A signed number as an unsigned one, unless that changes it. -/
def toUnsigned (n : Int) : Option Nat := if 0 ≤ n ∧ n < 2 ^ 32 then some n.toNat else none

theorem unsignedSub_eq {a b : Nat} (h : b ≤ a) : unsignedSub a b = some (a - b) := if_pos h

theorem toUnsigned_eq {n : Int} (h : 0 ≤ n ∧ n < 2 ^ 32) : toUnsigned n = some n.toNat := if_pos h

/-- `DaysFromCivil`, which has no result when an unsigned number wraps around. -/
def daysFromCivilChecked (year : Int) (month day : Nat) : Option Int := do
  let year := if month ≤ 2 then year - 1 else year
  let era := (if 0 ≤ year then year else year - 399).tdiv 400
  let yearOfEra ← toUnsigned (year - era * 400)
  let adjustedMonth ← if 2 < month then unsignedSub month 3 else some (month + 9)
  let dayOfYear ← unsignedSub ((153 * adjustedMonth + 2) / 5 + day) 1
  let daysBefore ← unsignedSub (yearOfEra * 365 + yearOfEra / 4) (yearOfEra / 100)
  some (era * 146097 + (daysBefore + dayOfYear : Nat) - 719468)

/-- `CivilFromDays`, which has no result when an unsigned number wraps around. -/
def civilFromDaysChecked (days : Int) : Option (Int × Nat × Nat) := do
  let days := days + 719468
  let era := (if 0 ≤ days then days else days - 146096).tdiv 146097
  let dayOfEra ← toUnsigned (days - era * 146097)
  let years ← unsignedSub dayOfEra (dayOfEra / 1460)
  let years ← unsignedSub (years + dayOfEra / 36524) (dayOfEra / 146096)
  let yearOfEra := years / 365
  let daysBefore ← unsignedSub (365 * yearOfEra + yearOfEra / 4) (yearOfEra / 100)
  let dayOfYear ← unsignedSub dayOfEra daysBefore
  let mp := (5 * dayOfYear + 2) / 153
  let day ← unsignedSub dayOfYear ((153 * mp + 2) / 5)
  let month ← if mp < 10 then some (mp + 3) else unsignedSub mp 9
  some ((yearOfEra : Int) + era * 400 + (if month ≤ 2 then 1 else 0), month, day + 1)

theorem daysFromCivilChecked_eq {year : Int} {month day : Nat} (hday : 1 ≤ day) :
    daysFromCivilChecked year month day = some (daysFromCivil year month day) := by
  simp only [daysFromCivilChecked, daysFromCivil]
  generalize (if month ≤ 2 then year - 1 else year) = shifted
  have hera : (if 0 ≤ shifted then shifted else shifted - 399).tdiv 400 = shifted / 400 :=
    tdiv_down (k := 400) (by decide)
  rw [hera, toUnsigned_eq (by omega)]
  generalize (shifted - shifted / 400 * 400).toNat = yearOfEra
  simp only [Option.bind_eq_bind, Option.bind_some]
  by_cases h : 2 < month
  · rw [if_pos h, if_pos h, unsignedSub_eq h, Option.bind_some, unsignedSub_eq (by omega), Option.bind_some,
      unsignedSub_eq (by omega), Option.bind_some]
  · rw [if_neg h, if_neg h, unsignedSub_eq (by omega), Option.bind_some, unsignedSub_eq (by omega), Option.bind_some]

theorem civilFromDaysChecked_eq (days : Int) : civilFromDaysChecked days = some (civilFromDays days) := by
  simp only [civilFromDaysChecked, civilFromDays]
  generalize days + 719468 = days
  have hera : (if 0 ≤ days then days else days - 146096).tdiv 146097 = days / 146097 :=
    tdiv_down (k := 146097) (by decide)
  rw [hera, toUnsigned_eq (by omega)]
  obtain ⟨dayOfEra, hdoe⟩ : ∃ dayOfEra, dayOfEra = (days - days / 146097 * 146097).toNat := ⟨_, rfl⟩
  have hlt : dayOfEra < 146097 := by omega
  rw [← hdoe]
  obtain ⟨-, hle, -⟩ := yearOfEra_bounds hlt rfl
  simp only [Option.bind_eq_bind, Option.bind_some]
  rw [unsignedSub_eq (Nat.div_le_self _ _), Option.bind_some, unsignedSub_eq (by omega), Option.bind_some,
    unsignedSub_eq (by omega), Option.bind_some, unsignedSub_eq hle, Option.bind_some]
  generalize (dayOfEra - dayOfEra / 1460 + dayOfEra / 36524 - dayOfEra / 146096) / 365 = yearOfEra
  generalize dayOfEra - (365 * yearOfEra + yearOfEra / 4 - yearOfEra / 100) = dayOfYear
  rw [unsignedSub_eq (by omega), Option.bind_some]
  by_cases h : (5 * dayOfYear + 2) / 153 < 10
  · rw [if_pos h, if_pos h]
  · rw [if_neg h, if_neg h, unsignedSub_eq (by omega), Option.bind_some]

/-- Dates and day numbers correspond to each other in order, and the unsigned arithmetic in between is exact. -/
theorem civil_exact :
    (∀ year month day, DateExists year month day →
      civilFromDays (daysFromCivil year month day) = (year, month, day) ∧
        daysFromCivilChecked year month day = some (daysFromCivil year month day)) ∧
    (∀ days, ∃ year month day, civilFromDays days = (year, month, day) ∧ DateExists year month day ∧
      daysFromCivil year month day = days ∧ civilFromDaysChecked days = some (civilFromDays days)) ∧
    ∀ year month day year' month' day', DateExists year month day → DateExists year' month' day' →
      toLex (year, toLex (month, day)) < toLex (year', toLex (month', day')) →
      daysFromCivil year month day < daysFromCivil year' month' day' := by
  refine ⟨fun year month day h => ?_, fun days => ?_, fun _ _ _ _ _ _ h h' hlt => daysFromCivil_lt h h' hlt⟩
  · exact ⟨civilFromDays_daysFromCivil h, daysFromCivilChecked_eq h.2.1⟩
  · obtain ⟨year, month, day, hdate, hexists, hdays⟩ := daysFromCivil_civilFromDays days
    exact ⟨year, month, day, hdate, hexists, hdays, civilFromDaysChecked_eq days⟩

/-- The last day before the year 0 of the calendar and the leap day of that year. -/
theorem civil_exact_leap : civilFromDays (daysFromCivil 0 2 29) = (0, 2, 29) ∧
    daysFromCivil (-1) 12 31 < daysFromCivil 0 2 29 := by
  have hleap : DateExists 0 2 29 := ⟨by decide, by decide, by decide⟩
  have heve : DateExists (-1) 12 31 := ⟨by decide, by decide, by decide⟩
  exact ⟨(civil_exact.1 0 2 29 hleap).1, civil_exact.2.2 _ _ _ _ _ _ heve hleap (by decide)⟩

end DriftObservatory
