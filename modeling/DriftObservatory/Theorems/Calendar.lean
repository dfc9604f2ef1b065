import DriftObservatory.Codec
import DriftObservatory.Finding
import DriftObservatory.Theorems.Digits

/-! Times read back. The date of a day number determines it, and a printed instant is read as the same instant, except
    that an instant before the epoch is printed a day late unless it lies in the first second of its day. -/

namespace DriftObservatory

/-! ### Dates -/

/-- The division that finds an era rounds down. -/
theorem tdiv_down {n k : Int} (hk : 0 < k) : (if 0 ≤ n then n else n - (k - 1)).tdiv k = n / k := by
  split_ifs with h
  · exact Int.tdiv_eq_ediv_of_nonneg h
  have hsplit : n % k + n / k * k = n := Int.emod_add_ediv_mul n k
  have hlt := Int.emod_lt_of_pos n hk
  have hnonneg := Int.emod_nonneg n hk.ne'
  have hshift : n - (k - 1) = n % k + 1 + (n / k - 1) * k := by
    rw [Int.sub_mul, Int.one_mul]
    omega
  rcases eq_or_ne (n % k + 1) k with hlast | hlast
  · have hexact : n - (k - 1) = n / k * k := by
      rw [hshift, hlast, Int.sub_mul, Int.one_mul]
      omega
    rw [hexact, Int.mul_tdiv_cancel _ hk.ne']
  · have hrest : (n % k + 1) % k = n % k + 1 := Int.emod_eq_of_lt (by omega) (by omega)
    have hdvd : ¬ (0 ≤ n - (k - 1) ∨ k ∣ n - (k - 1)) := by
      rw [hshift, Int.dvd_iff_emod_eq_zero, Int.add_mul_emod_self_right, hrest, ← hshift]
      omega
    rw [Int.tdiv_eq_ediv, if_neg hdvd, Int.sign_eq_one_of_pos hk, hshift, Int.add_mul_ediv_right _ _ hk.ne',
      Int.ediv_eq_zero_of_lt (by omega) (by omega)]
    omega

/-- The year of a day of an era, by the century, the cycle of four years and the year in the cycle; only leap years,
    which begin in March before their leap day, have a day 365. -/
theorem yearOfEra_split {century cycle rest dayOfYear dayOfEra : Nat} (hcentury : century ≤ 3) (hcycle : cycle ≤ 24)
    (hrest : rest ≤ 3) (hday : dayOfYear ≤ 364 ∨ dayOfYear = 365 ∧ rest = 3 ∧ (cycle ≤ 23 ∨ century = 3))
    (hera : dayOfEra = 36524 * century + 1461 * cycle + 365 * rest + dayOfYear) :
    dayOfEra < 146097 ∧ (dayOfEra - dayOfEra / 1460 + dayOfEra / 36524 - dayOfEra / 146096) / 365 =
      100 * century + 4 * cycle + rest := by
  -- the last day of the era is the only one on which the centuries are a day ahead
  have hcenturies : dayOfEra / 36524 = century ∧ dayOfEra / 146096 = 0 ∨
      dayOfEra / 36524 = 4 ∧ dayOfEra / 146096 = 1 ∧ century = 3 := by
    omega
  have hcycles : dayOfEra / 1460 = 25 * century + cycle ∧ dayOfYear ≤ 364 ∨
      dayOfEra / 1460 = 25 * century + cycle + 1 ∧ 1 ≤ dayOfYear := by
    omega
  refine ⟨by omega, ?_⟩
  rcases hcenturies with ⟨hb, hd⟩ | ⟨hb, hd, rfl⟩ <;> rcases hcycles with ⟨ha, hle⟩ | ⟨ha, hle⟩ <;>
    rw [ha, hb, hd, hera] <;> omega

/-- Every day of an era has such a century, cycle and year. -/
theorem exists_yearOfEra {dayOfEra : Nat} (h : dayOfEra < 146097) : ∃ century cycle rest dayOfYear, century ≤ 3 ∧
    cycle ≤ 24 ∧ rest ≤ 3 ∧ (dayOfYear ≤ 364 ∨ dayOfYear = 365 ∧ rest = 3 ∧ (cycle ≤ 23 ∨ century = 3)) ∧
    dayOfEra = 36524 * century + 1461 * cycle + 365 * rest + dayOfYear := by
  rcases eq_or_ne dayOfEra 146096 with rfl | hne
  · exact ⟨3, 24, 3, 365, by omega⟩
  obtain ⟨day, hday, heq⟩ : ∃ day < 36524, dayOfEra = 36524 * (dayOfEra / 36524) + day :=
    ⟨dayOfEra % 36524, by omega, by omega⟩
  rcases eq_or_ne (day % 1461) 1460 with hlast | hlast
  · exact ⟨dayOfEra / 36524, day / 1461, 3, 365, by omega, by omega, by omega, .inr ⟨rfl, rfl, .inl (by omega)⟩, by omega⟩
  · exact ⟨dayOfEra / 36524, day / 1461, day % 1461 / 365, day % 1461 % 365, by omega, by omega, by omega,
      .inl (by omega), by omega⟩

theorem yearOfEra_bounds {dayOfEra year : Nat} (h : dayOfEra < 146097)
    (hy : year = (dayOfEra - dayOfEra / 1460 + dayOfEra / 36524 - dayOfEra / 146096) / 365) :
    year < 400 ∧ 365 * year + year / 4 - year / 100 ≤ dayOfEra ∧
      dayOfEra ≤ 365 * year + year / 4 - year / 100 + 365 := by
  obtain ⟨century, cycle, rest, dayOfYear, hcentury, hcycle, hrest, hday, hera⟩ := exists_yearOfEra h
  rw [(yearOfEra_split hcentury hcycle hrest hday hera).2] at hy
  have hcenturies : year / 100 = century := by omega
  have hcycles : year / 4 = 25 * century + cycle := by omega
  rw [hcenturies, hcycles]
  omega

/-- A date within the four-digit years, and the day number it came from. -/
theorem civilFromDays_spec {days : Int} {year : Int} {month day : Nat} (hlow : -719468 ≤ days)
    (hhigh : days < 2500000) (h : civilFromDays days = (year, month, day)) :
    (0 ≤ year ∧ year < 10000) ∧ (1 ≤ month ∧ month ≤ 12) ∧ (1 ≤ day ∧ day ≤ 31) ∧
      daysFromCivil year month day = days := by
  obtain ⟨era, dayOfEra, hdoe, hdays⟩ : ∃ era dayOfEra : Nat, dayOfEra < 146097 ∧
      days + 719468 = era * 146097 + dayOfEra :=
    ⟨((days + 719468) / 146097).toNat, ((days + 719468) % 146097).toNat, by omega, by omega⟩
  have hera : (if 0 ≤ days + 719468 then days + 719468 else days + 719468 - 146096).tdiv 146097 =
      (days + 719468) / 146097 := tdiv_down (k := 146097) (by decide)
  have hquotient : (days + 719468) / 146097 = era := by omega
  have hday : (days + 719468 - era * 146097).toNat = dayOfEra := by omega
  simp only [civilFromDays, hera, hquotient, hday] at h
  generalize hy : (dayOfEra - dayOfEra / 1460 + dayOfEra / 36524 - dayOfEra / 146096) / 365 = yearOfEra at h
  obtain ⟨hyoe, hle, hge⟩ := yearOfEra_bounds hdoe hy.symm
  generalize hdoy : dayOfEra - (365 * yearOfEra + yearOfEra / 4 - yearOfEra / 100) = dayOfYear at h
  generalize hmp : (5 * dayOfYear + 2) / 153 = mp at h
  have hmp' : mp ≤ 11 := by omega
  simp only [Prod.mk.injEq] at h
  obtain ⟨hyear, hmonth, hdate⟩ := h
  have hcases : (mp < 10 ∧ month = mp + 3) ∨ (10 ≤ mp ∧ month = mp - 9) := by
    rw [← hmonth]
    split_ifs <;> omega
  have hshift : (if month ≤ 2 then year - 1 else year) = yearOfEra + era * 400 := by
    rw [← hyear, hmonth]
    split_ifs <;> omega
  have hadjusted : (if 2 < month then month - 3 else month + 9) = mp := by
    split_ifs <;> omega
  have hnth : (153 * mp + 2) / 5 + day - 1 = dayOfYear := by omega
  have hquotient : ((yearOfEra : Int) + era * 400) / 400 = era := by omega
  have hremainder : ((yearOfEra : Int) + era * 400 - era * 400).toNat = yearOfEra := by omega
  refine ⟨⟨by omega, ?_⟩, by omega, by omega, ?_⟩
  · rw [hmonth] at hyear
    split_ifs at hyear <;> omega
  · simp only [daysFromCivil, hshift, hadjusted, hnth]
    rw [if_pos (by omega), Int.tdiv_eq_ediv_of_nonneg (by omega), hquotient, hremainder]
    have hsum : yearOfEra * 365 + yearOfEra / 4 - yearOfEra / 100 + dayOfYear = dayOfEra := by
      rw [← hdoy, Nat.mul_comm yearOfEra, Nat.add_sub_cancel' hle]
    rw [hsum, ← hdays, Int.add_sub_cancel]

/-! ### Padded numbers -/

theorem length_padded {width n : Nat} (hw : 0 < width) (h : n < 10 ^ width) : (padded width n).length = width := by
  have := length_decimal_le hw h
  rw [padded, List.length_append, List.length_replicate]
  omega

theorem isDigit_padded (width n : Nat) : (padded width n).all Char8.isDigit = true := by
  rw [padded, List.all_append, Bool.and_eq_true, List.all_eq_true, List.all_eq_true]
  exact ⟨fun c hc => by rw [List.eq_of_mem_replicate hc]; rfl, isDigit_decimal n⟩

theorem digitsValue_padded (width n : Nat) : Json.digitsValue (padded width n) = n := by
  rw [padded, Json.digitsValue_zeros, Json.digitsValue_decimal]

/-! ### Instants -/

/-- The parts of a printed instant are read one by one. -/
theorem tryParseTime_parts {year month day hour minute second fraction : Text} (hy : year.length = 4)
    (hmo : month.length = 2) (hd : day.length = 2) (hh : hour.length = 2) (hmi : minute.length = 2)
    (hs : second.length = 2) (hf : fraction.length = 9)
    (hdigits : (year ++ month ++ day ++ hour ++ minute ++ second ++ fraction).all Char8.isDigit = true) :
    tryParseTime (year ++ ascii "-" ++ month ++ ascii "-" ++ day ++ ascii "T" ++ hour ++ ascii ":" ++ minute ++
        ascii ":" ++ second ++ ascii "." ++ fraction ++ ascii "Z") =
      if Json.digitsValue month < 1 ∨ 12 < Json.digitsValue month ∨ Json.digitsValue day < 1 ∨
          31 < Json.digitsValue day ∨ 23 < Json.digitsValue hour ∨ 59 < Json.digitsValue minute ∨
          60 < Json.digitsValue second then none
      else timeOf (daysFromCivil (Json.digitsValue year) (Json.digitsValue month) (Json.digitsValue day) * 86400 +
        (Json.digitsValue hour * 3600 + Json.digitsValue minute * 60 + Json.digitsValue second : Nat))
        (Json.digitsValue fraction) := by
  obtain ⟨y₀, y₁, y₂, y₃, rfl⟩ : ∃ a b c d, year = [a, b, c, d] := by
    match year, hy with | [a, b, c, d], _ => exact ⟨a, b, c, d, rfl⟩
  obtain ⟨m₀, m₁, rfl⟩ := List.length_eq_two.mp hmo
  obtain ⟨d₀, d₁, rfl⟩ := List.length_eq_two.mp hd
  obtain ⟨h₀, h₁, rfl⟩ := List.length_eq_two.mp hh
  obtain ⟨n₀, n₁, rfl⟩ := List.length_eq_two.mp hmi
  obtain ⟨s₀, s₁, rfl⟩ := List.length_eq_two.mp hs
  obtain ⟨f₀, f₁, f₂, f₃, f₄, f₅, f₆, f₇, f₈, rfl⟩ : ∃ a b c d e f g h i, fraction = [a, b, c, d, e, f, g, h, i] := by
    match fraction, hf with | [a, b, c, d, e, f, g, h, i], _ => exact ⟨a, b, c, d, e, f, g, h, i, rfl⟩
  simp only [List.cons_append, List.nil_append, List.all_cons, List.all_nil, Bool.and_true, Bool.and_eq_true] at hdigits
  have hz : Char8.isDigit 0x5A = false := by decide
  simp [tryParseTime, parseDigits, parseFraction, ascii, hdigits, hz]

namespace NdoTime

/-- The second of its day in which an instant lies. -/
def secondOfDay (t : NdoTime) : Int := t.unixNanos.toInt / 1000000000 % 86400

/-- Whether an instant is printed a day late. -/
def PrintedLate (t : NdoTime) : Prop := t.unixNanos.toInt < 0 ∧ t.secondOfDay ≠ 0

instance (t : NdoTime) : Decidable t.PrintedLate := inferInstanceAs (Decidable (_ ∧ _))

/-- The instant a printed instant is read as. -/
def reread (t : NdoTime) : NdoTime :=
  if t.PrintedLate then ⟨Int64.ofInt (t.unixNanos.toInt + 86400 * 1000000000)⟩ else t

end NdoTime

section Floor
variable {n k : Int}

theorem tdiv_floor (hk : 0 < k) : (if n.tmod k < 0 then n.tdiv k - 1 else n.tdiv k) = n / k := by
  have hmod := Int.emod_nonneg n hk.ne'
  have hlt := Int.emod_lt_of_pos n hk
  simp only [Int.tdiv_eq_ediv, Int.tmod_eq_emod, Int.dvd_iff_emod_eq_zero, Int.sign_eq_one_of_pos hk]
  split_ifs <;> omega

theorem tmod_floor (hk : 0 < k) : (if n.tmod k < 0 then n.tmod k + k else n.tmod k) = n % k := by
  have hmod := Int.emod_nonneg n hk.ne'
  have hlt := Int.emod_lt_of_pos n hk
  simp only [Int.tmod_eq_emod, Int.dvd_iff_emod_eq_zero]
  split_ifs <;> omega

theorem tdiv_eq_floor (hk : 0 < k) : n.tdiv k = if n < 0 ∧ n % k ≠ 0 then n / k + 1 else n / k := by
  simp only [Int.tdiv_eq_ediv, Int.dvd_iff_emod_eq_zero, Int.sign_eq_one_of_pos hk]
  split_ifs <;> omega

end Floor

/-- A printed time holds the date of a day number, a second of the day and a fraction. -/
theorem tryParseTime_printed {days : Int} {second fraction : Nat} {year : Int} {month day : Nat}
    (hlow : -719468 ≤ days) (hhigh : days < 2500000) (hsecond : second < 86400) (hfraction : fraction < 1000000000)
    (hdate : civilFromDays days = (year, month, day)) :
    tryParseTime (padded 4 year.toNat ++ ascii "-" ++ padded 2 month ++ ascii "-" ++ padded 2 day ++ ascii "T" ++
        padded 2 (second / 3600) ++ ascii ":" ++ padded 2 (second % 3600 / 60) ++ ascii ":" ++
        padded 2 (second % 60) ++ ascii "." ++ padded 9 fraction ++ ascii "Z") =
      timeOf (days * 86400 + second) fraction := by
  obtain ⟨hyear, hmonth, hday, hdays⟩ := civilFromDays_spec hlow hhigh hdate
  rw [tryParseTime_parts (length_padded (by decide) (by omega)) (length_padded (by decide) (by omega))
    (length_padded (by decide) (by omega)) (length_padded (by decide) (by omega)) (length_padded (by decide) (by omega))
    (length_padded (by decide) (by omega)) (length_padded (by decide) (by omega))
    (by simp only [List.all_append, isDigit_padded, Bool.and_self])]
  simp only [digitsValue_padded]
  rw [if_neg (by omega), Int.toNat_of_nonneg hyear.1, hdays]
  congr 2
  omega

theorem timeOf_eq {t : NdoTime} {seconds : Int} {fraction : Nat}
    (h : t.unixNanos.toInt = seconds * 1000000000 + fraction) (hf : fraction < 1000000000)
    (hlow : -9223286400 ≤ seconds) : timeOf seconds fraction = some t := by
  have hmax := t.unixNanos.toInt_lt
  rw [timeOf, tdiv_eq_floor (by decide), tdiv_eq_floor (by decide), if_neg, ← h, Int64.ofInt_toInt]
  split_ifs <;> omega

theorem tryParseTime_formatTime (t : NdoTime) : tryParseTime (formatTime t) = some t.reread := by
  have hmin := t.unixNanos.le_toInt
  have hmax := t.unixNanos.toInt_lt
  simp only [formatTime]
  rw [tdiv_floor (by decide), tmod_floor (by decide), tmod_floor (by decide)]
  rcases hdate : civilFromDays ((t.unixNanos.toInt / 1000000000).tdiv 86400) with ⟨year, month, day⟩
  have hday : (t.unixNanos.toInt / 1000000000).tdiv 86400 =
      if t.PrintedLate then t.unixNanos.toInt / 1000000000 / 86400 + 1
      else t.unixNanos.toInt / 1000000000 / 86400 := by
    rw [tdiv_eq_floor (by decide)]
    simp only [NdoTime.PrintedLate, NdoTime.secondOfDay]
    split_ifs <;> omega
  simp only
  rw [tryParseTime_printed (by rw [hday]; split_ifs <;> omega) (by rw [hday]; split_ifs <;> omega) (by omega)
    (by omega) hdate, hday]
  have hlow : -9223286400 ≤ (if t.PrintedLate then t.unixNanos.toInt / 1000000000 / 86400 + 1
      else t.unixNanos.toInt / 1000000000 / 86400) * 86400 +
      ((t.unixNanos.toInt / 1000000000 % 86400).toNat : Int) := by
    split_ifs with hlate
    · omega
    · rw [NdoTime.PrintedLate, NdoTime.secondOfDay] at hlate
      omega
  refine timeOf_eq ?_ (by omega) hlow
  rw [NdoTime.reread]
  split_ifs with hlate
  · rw [Int64.toInt_ofInt_of_le (by omega) (by have := hlate.1; omega)]
    omega
  · omega

end DriftObservatory
