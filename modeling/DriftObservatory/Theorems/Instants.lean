import DriftObservatory.Theorems.Dates

/-! The texts of instants: which instants are read back from their text, and which texts an instant is printed as. -/

namespace DriftObservatory

/-! ### Printed instants -/

theorem NdoTime.reread_eq_iff (t : NdoTime) : t.reread = t ↔ ¬t.PrintedLate := by
  rw [NdoTime.reread]
  split_ifs with hlate
  · have hlow := t.unixNanos.le_toInt
    refine iff_of_false (fun heq => ?_) (not_not.mpr hlate)
    have hnanos := congrArg (fun u : NdoTime => u.unixNanos.toInt) heq
    simp only at hnanos
    rw [Int64.toInt_ofInt_of_le (by omega) (by have := hlate.1; omega)] at hnanos
    omega
  · exact iff_of_true rfl hlate

/-- A printed instant is read, and it is read as itself exactly from the epoch on and within the first second of a day
    before it. -/
theorem tryParseTime_formatTime_iff (t : NdoTime) :
    tryParseTime (formatTime t) = some t ↔ 0 ≤ t.unixNanos.toInt ∨ t.unixNanos.toInt / 1000000000 % 86400 = 0 := by
  rw [tryParseTime_formatTime, Option.some.injEq, NdoTime.reread_eq_iff, NdoTime.PrintedLate, NdoTime.secondOfDay]
  omega

/-- A nanosecond before the epoch is read back as one day later. -/
theorem tryParseTime_formatTime_late :
    ∃ t : NdoTime, formatTime t = ascii "1970-01-01T23:59:59.999999999Z" ∧ tryParseTime (formatTime t) ≠ some t := by
  refine ⟨⟨-1⟩, by decide +kernel, fun hread => ?_⟩
  rcases (tryParseTime_formatTime_iff ⟨-1⟩).mp hread with hafter | hfirst
  · exact absurd hafter (by decide)
  · exact absurd hfirst (by decide)

/-! ### The parts of a text -/

theorem split_at {text : Text} {n k : Nat} {c : UInt8} (h : text[n + k]? = some c) :
    text.drop n = (text.drop n).take k ++ c :: text.drop (n + k + 1) := by
  obtain ⟨hlt, hc⟩ := List.getElem?_eq_some_iff.mp h
  conv_lhs => rw [← List.take_append_drop k (text.drop n)]
  rw [List.drop_drop, List.drop_eq_getElem_cons hlt, hc]

/-- The number some digits of a text spell. -/
def numberAt (text : Text) (offset count : Nat) : Nat := Json.digitsValue ((text.drop offset).take count)

def DigitsAt (text : Text) (offset count : Nat) : Prop :=
  ((text.drop offset).take count).length = count ∧ ((text.drop offset).take count).all Char8.isDigit = true

theorem parseDigits_eq_some {text : Text} {offset count n : Nat} :
    parseDigits text offset count = some n ↔ DigitsAt text offset count ∧ numberAt text offset count = n := by
  rw [parseDigits]
  split_ifs with hdigits
  · rw [Option.some.injEq]
    exact ⟨fun h => ⟨hdigits, h⟩, fun h => h.2⟩
  · exact ⟨fun h => (by cases h), fun h => absurd h.1 hdigits⟩

/-- Digits are the padded spelling of their number. -/
theorem padded_digitsValue : ∀ {width : Nat} {digits : Text}, 0 < width → digits.length = width →
    digits.all Char8.isDigit = true → padded width (Json.digitsValue digits) = digits
  | width + 1, c :: digits, _, hlength, hdigits => by
    have hrest : digits.length = width := Nat.succ.inj hlength
    have hall := hdigits
    rw [List.all_cons, Bool.and_eq_true] at hall
    by_cases hzero : c = 0x30 ∧ digits ≠ []
    · obtain ⟨hc, hne⟩ := hzero
      have ih := padded_digitsValue (hrest ▸ List.length_pos_iff.mpr hne) hrest hall.2
      have hle : (decimal (Json.digitsValue digits)).length ≤ width := by
        have hpadded := congrArg List.length ih
        rw [padded, List.length_append, hrest] at hpadded
        omega
      have hvalue : Json.digitsValue (c :: digits) = Json.digitsValue digits := by
        rw [hc]
        exact Json.digitsValue_zeros 1 digits
      rw [hvalue, padded, Nat.succ_sub hle, List.replicate_succ, List.cons_append, ← padded, ih, hc]
    · have hlead : 1 < (c :: digits).length → (c :: digits).head? ≠ some 0x30 := by
        intro hlong hhead
        refine hzero ⟨Option.some.inj hhead, fun hnil => ?_⟩
        rw [hnil] at hlong
        exact Nat.lt_irrefl _ hlong
      have hspelled := decimal_digitsValue (List.cons_ne_nil c digits) (List.all_eq_true.mp hdigits) hlead
      rw [padded, hspelled, hlength, Nat.sub_self]
      rfl

theorem padded_numberAt {text : Text} {offset count : Nat} (hcount : 0 < count) (h : DigitsAt text offset count) :
    padded count (numberAt text offset count) = (text.drop offset).take count := padded_digitsValue hcount h.1 h.2

/-- What a text that is read holds: separators, numbers in their ranges, and the fraction behind them. -/
structure TimeText (text : Text) : Prop where
  dash : text[4]? = some 0x2D
  dash' : text[7]? = some 0x2D
  letter : text[10]? = some 0x54
  colon : text[13]? = some 0x3A
  colon' : text[16]? = some 0x3A
  last : text.getLast? = some 0x5A
  year : DigitsAt text 0 4
  month : DigitsAt text 5 2
  day : DigitsAt text 8 2
  hour : DigitsAt text 11 2
  minute : DigitsAt text 14 2
  second : DigitsAt text 17 2
  month_pos : 1 ≤ numberAt text 5 2
  month_le : numberAt text 5 2 ≤ 12
  day_pos : 1 ≤ numberAt text 8 2
  day_le : numberAt text 8 2 ≤ 31
  hour_le : numberAt text 11 2 ≤ 23
  minute_le : numberAt text 14 2 ≤ 59
  second_le : numberAt text 17 2 ≤ 60

theorem TimeText.year_lt {text : Text} (h : TimeText text) : numberAt text 0 4 < 10000 := by
  have hlength := congrArg List.length (padded_numberAt (by decide) h.year)
  rw [padded, List.length_append, List.length_replicate, h.year.1, decimal, List.length_map] at hlength
  exact (Nat.length_toDigits_le_iff (b := 10) (k := 4) (by decide) (by decide)).mp (by omega)

theorem tryParseTime_inv {text : Text} {t : NdoTime} (h : tryParseTime text = some t) :
    TimeText text ∧ ∃ fraction, parseFraction text = some (fraction, text.length - 1) ∧
      timeOf (daysFromCivil (numberAt text 0 4) (numberAt text 5 2) (numberAt text 8 2) * 86400 +
        (numberAt text 11 2 * 3600 + numberAt text 14 2 * 60 + numberAt text 17 2 : Nat)) fraction = some t := by
  rw [tryParseTime] at h
  split_ifs at h with hseparators
  simp only [not_or, not_lt, not_not] at hseparators
  obtain ⟨-, hdash, hdash', hletter, hcolon, hcolon', hlast⟩ := hseparators
  simp only [Option.bind_eq_bind, Option.bind_eq_some_iff] at h
  obtain ⟨year, hyear, month, hmonth, day, hday, hour, hhour, minute, hminute, second, hsecond, h⟩ := h
  obtain ⟨hyearDigits, rfl⟩ := parseDigits_eq_some.mp hyear
  obtain ⟨hmonthDigits, rfl⟩ := parseDigits_eq_some.mp hmonth
  obtain ⟨hdayDigits, rfl⟩ := parseDigits_eq_some.mp hday
  obtain ⟨hhourDigits, rfl⟩ := parseDigits_eq_some.mp hhour
  obtain ⟨hminuteDigits, rfl⟩ := parseDigits_eq_some.mp hminute
  obtain ⟨hsecondDigits, rfl⟩ := parseDigits_eq_some.mp hsecond
  split_ifs at h with hranges
  simp only [not_or, not_lt] at hranges
  obtain ⟨hmonth1, hmonth2, hday1, hday2, hhour1, hminute1, hsecond1⟩ := hranges
  obtain ⟨⟨fraction, position⟩, hfraction, h⟩ := Option.bind_eq_some_iff.mp h
  simp only at h
  split_ifs at h with hposition
  rw [not_not.mp hposition] at hfraction
  exact ⟨⟨hdash, hdash', hletter, hcolon, hcolon', hlast, hyearDigits, hmonthDigits, hdayDigits, hhourDigits,
    hminuteDigits, hsecondDigits, hmonth1, hmonth2, hday1, hday2, hhour1, hminute1, hsecond1⟩, fraction, hfraction, h⟩

/-- A text with a fraction of nine digits, a second below the leap second and a year from the epoch on. -/
structure CanonicalTime (text : Text) : Prop where
  point : text[19]? = some 0x2E
  digits : ((text.drop 20).takeWhile Char8.isDigit).length = 9
  second : numberAt text 17 2 ≤ 59
  year : 1970 ≤ numberAt text 0 4

/-- The text of a date, a time of the day and a fraction in nanoseconds. -/
def timeText (year month day hour minute second fraction : Nat) : Text :=
  padded 4 year ++ ascii "-" ++ padded 2 month ++ ascii "-" ++ padded 2 day ++ ascii "T" ++ padded 2 hour ++
    ascii ":" ++ padded 2 minute ++ ascii ":" ++ padded 2 second ++ ascii "." ++ padded 9 fraction ++ ascii "Z"

/-- A text in canonical form is the padded spelling of its numbers. -/
theorem CanonicalTime.spelling {text : Text} {fraction : Nat} (h : CanonicalTime text) (htext : TimeText text)
    (hfraction : parseFraction text = some (fraction, text.length - 1)) :
    fraction < 1000000000 ∧ text = timeText (numberAt text 0 4) (numberAt text 5 2) (numberAt text 8 2)
      (numberAt text 11 2) (numberAt text 14 2) (numberAt text 17 2) fraction := by
  rw [parseFraction, if_pos h.point] at hfraction
  simp only [h.digits, Nat.lt_irrefl, or_false, OfNat.ofNat_ne_zero, if_false, Nat.sub_self, Nat.pow_zero, Nat.mul_one,
    Option.some.injEq, Prod.mk.injEq] at hfraction
  obtain ⟨rfl, hlength⟩ := hfraction
  have hlong : text.length = 30 := by omega
  have hall : ((text.drop 20).takeWhile Char8.isDigit).all Char8.isDigit = true := List.all_takeWhile
  have hpadded := padded_digitsValue (by decide) h.digits hall
  have hbound : Json.digitsValue ((text.drop 20).takeWhile Char8.isDigit) < 10 ^ 9 := by
    have hle := congrArg List.length hpadded
    rw [padded, List.length_append, List.length_replicate, h.digits] at hle
    refine (Nat.length_toDigits_le_iff (by decide) (by decide)).mp ?_
    rw [decimal, List.length_map] at hle
    omega
  -- what stands behind the digits
  have hend : (text.drop 20).dropWhile Char8.isDigit = ascii "Z" := by
    have hsplit := List.takeWhile_append_dropWhile (p := Char8.isDigit) (l := text.drop 20)
    have hone : ((text.drop 20).dropWhile Char8.isDigit).length = 1 := by
      have := congrArg List.length hsplit
      rw [List.length_append, h.digits, List.length_drop, hlong] at this
      omega
    obtain ⟨c, hc⟩ := List.length_eq_one_iff.mp hone
    have hlast := htext.last
    rw [← List.take_append_drop 20 text, ← hsplit, hc, ← List.append_assoc, List.getLast?_concat] at hlast
    rw [hc, Option.some.inj hlast]
    rfl
  refine ⟨hbound, ?_⟩
  rw [timeText, padded_numberAt (by decide) htext.year, padded_numberAt (by decide) htext.month,
    padded_numberAt (by decide) htext.day, padded_numberAt (by decide) htext.hour,
    padded_numberAt (by decide) htext.minute, padded_numberAt (by decide) htext.second, hpadded]
  have hyear : text.drop 0 = (text.drop 0).take 4 ++ 0x2D :: text.drop 5 := split_at htext.dash
  have hmonth : text.drop 5 = (text.drop 5).take 2 ++ 0x2D :: text.drop 8 := split_at htext.dash'
  have hday : text.drop 8 = (text.drop 8).take 2 ++ 0x54 :: text.drop 11 := split_at htext.letter
  have hhour : text.drop 11 = (text.drop 11).take 2 ++ 0x3A :: text.drop 14 := split_at htext.colon
  have hminute : text.drop 14 = (text.drop 14).take 2 ++ 0x3A :: text.drop 17 := split_at htext.colon'
  have hsecond : text.drop 17 = (text.drop 17).take 2 ++ 0x2E :: text.drop 20 := split_at h.point
  have hfraction : text.drop 20 = (text.drop 20).takeWhile Char8.isDigit ++ ascii "Z" := by
    rw [← hend, List.takeWhile_append_dropWhile]
  calc text = text.drop 0 := rfl
    _ = (text.drop 0).take 4 ++ 0x2D :: ((text.drop 5).take 2 ++ 0x2D :: ((text.drop 8).take 2 ++ 0x54 ::
        ((text.drop 11).take 2 ++ 0x3A :: ((text.drop 14).take 2 ++ 0x3A :: ((text.drop 17).take 2 ++ 0x2E ::
          ((text.drop 20).takeWhile Char8.isDigit ++ ascii "Z")))))) := by
      rw [← hfraction, ← hsecond, ← hminute, ← hhour, ← hday, ← hmonth, ← hyear]
    _ = _ := by
      simp only [List.append_assoc]
      rfl

/-! ### Texts of dates that exist -/

/-- An instant from the epoch on is printed as its date, its second of the day and its fraction. -/
theorem formatTime_eq {t : NdoTime} {days second fraction : Nat} {year month day : Nat}
    (ht : t.unixNanos.toInt = (days * 86400 + second) * 1000000000 + fraction) (hsecond : second < 86400)
    (hfraction : fraction < 1000000000) (hdate : civilFromDays days = ((year : Int), month, day)) :
    formatTime t = timeText year month day (second / 3600) (second % 3600 / 60) (second % 60) fraction := by
  have hseconds : t.unixNanos.toInt / 1000000000 = days * 86400 + second := by omega
  have hrest : t.unixNanos.toInt % 1000000000 = fraction := by omega
  have hdays : (days * 86400 + second : Int).tdiv 86400 = days := by
    rw [Int.tdiv_eq_ediv_of_nonneg (by omega)]
    omega
  have hremainder : (days * 86400 + second : Int) % 86400 = second := by omega
  simp only [formatTime]
  rw [tdiv_floor (by decide), tmod_floor (by decide), tmod_floor (by decide), hseconds, hrest, hdays, hremainder, hdate]
  simp only [Int.toNat_natCast]
  rfl

/-- A date from the year of the epoch on has a day number from zero on. -/
theorem daysFromCivil_nonneg {year month day : Nat} (hyear : 1970 ≤ year) (hmonth : 1 ≤ month) (hday : 1 ≤ day) :
    0 ≤ daysFromCivil year month day := by
  obtain ⟨shifted, hshifted⟩ : ∃ shifted, shifted = if month ≤ 2 then year - 1 else year := ⟨_, rfl⟩
  obtain ⟨adjusted, hadjusted⟩ : ∃ adjusted, adjusted = if 2 < month then month - 3 else month + 9 := ⟨_, rfl⟩
  rw [daysFromCivil_eq hday (by omega) hshifted hadjusted, daysBefore]
  have hlate : shifted = 1969 ∧ 10 ≤ adjusted ∨ 1970 ≤ shifted := by
    split_ifs at hshifted hadjusted <;> omega
  have hera : shifted / 400 = 4 ∨ 5 ≤ shifted / 400 := by omega
  rcases hera with hera | hera <;> omega

theorem timeOf_inv {seconds : Int} {fraction : Nat} {t : NdoTime} (h : timeOf seconds fraction = some t)
    (hseconds : 0 ≤ seconds) (hfraction : fraction < 1000000000) :
    t.unixNanos.toInt = seconds * 1000000000 + fraction := by
  rw [timeOf, Int.tdiv_eq_ediv_of_nonneg (by omega)] at h
  split_ifs at h with hrange
  rw [← Option.some.inj h]
  exact Int64.toInt_ofInt_of_le (by omega) (by omega)

/-- A canonical text that is read, and what its instant is printed as: the date that has the day number of the text,
    and the time of the text. -/
theorem CanonicalTime.printed {text : Text} {t : NdoTime} (h : CanonicalTime text) (hread : tryParseTime text = some t) :
    0 ≤ t.unixNanos.toInt ∧ ∃ hour minute second fraction,
      (hour ≤ 23 ∧ minute ≤ 59 ∧ second ≤ 59 ∧ fraction < 1000000000) ∧
        text = timeText (numberAt text 0 4) (numberAt text 5 2) (numberAt text 8 2) hour minute second fraction ∧
        ∀ date : CivilDate, 1 ≤ date.year →
          daysFromCivil (numberAt text 0 4) (numberAt text 5 2) (numberAt text 8 2) =
            daysFromCivil date.year date.month date.day →
          formatTime t = timeText date.year date.month date.day hour minute second fraction := by
  obtain ⟨htext, fraction, hfraction, htime⟩ := tryParseTime_inv hread
  obtain ⟨hbound, hspelling⟩ := h.spelling htext hfraction
  have hnonneg := daysFromCivil_nonneg h.year htext.month_pos htext.day_pos
  refine ⟨?_, _, _, _, fraction, ⟨htext.hour_le, htext.minute_le, h.second, hbound⟩, hspelling,
    fun date hyear hdays => ?_⟩
  · rw [timeOf_inv htime (by omega) hbound]
    omega
  have hdate := civilFromDays_daysFromCivil date.dateExists
  rw [← hdays] at hdate
  generalize daysFromCivil (numberAt text 0 4) (numberAt text 5 2) (numberAt text 8 2) = days at *
  obtain ⟨days, rfl⟩ := Int.eq_ofNat_of_zero_le hnonneg
  have hhour := htext.hour_le
  have hminute := htext.minute_le
  have hsecond := h.second
  have hnanos := timeOf_inv htime (by omega) hbound
  rw [formatTime_eq hnanos (by omega) hbound hdate]
  congr 1 <;> omega

theorem numberAt_timeText_month {year month day hour minute second fraction : Nat} (hyear : year < 10000)
    (hmonth : month < 100) : numberAt (timeText year month day hour minute second fraction) 5 2 = month := by
  have hyear' : (padded 4 year ++ ascii "-").length = 5 := by
    rw [List.length_append, length_padded (by decide) hyear]
    rfl
  have hmonth' : (padded 2 month).length = 2 := length_padded (by decide) hmonth
  rw [numberAt, timeText]
  simp only [List.append_assoc (padded 4 year ++ ascii "-"), List.append_assoc (padded 2 month)]
  rw [List.drop_left' hyear', List.take_left' hmonth', digitsValue_padded]

/-- The date of a text exists, and so does its time; a minute may have a leap second. -/
structure NamesInstant (text : Text) : Prop where
  date : ∃ date : CivilDate, padded 4 date.year = text.take 4 ∧ padded 2 date.month = (text.drop 5).take 2 ∧
    padded 2 date.day = (text.drop 8).take 2
  hour : ∃ hour ≤ 23, padded 2 hour = (text.drop 11).take 2
  minute : ∃ minute ≤ 59, padded 2 minute = (text.drop 14).take 2
  second : ∃ second ≤ 60, padded 2 second = (text.drop 17).take 2

/-- The day of the text lies beyond the end of its month. -/
def OverlongText (text : Text) : Prop := Overlong (numberAt text 0 4) (numberAt text 5 2) (numberAt text 8 2)

instance (text : Text) : Decidable (OverlongText text) := inferInstanceAs (Decidable (Overlong _ _ _))

theorem TimeText.namesInstant_iff {text : Text} (h : TimeText text) : NamesInstant text ↔ ¬OverlongText text := by
  rw [OverlongText, overlong_iff h.day_le, not_lt]
  refine ⟨fun hnames => ?_, fun hday => ?_⟩
  · obtain ⟨date, hyear, hmonth, hday⟩ := hnames.date
    have hyear' : numberAt text 0 4 = date.year := by
      rw [numberAt, List.drop_zero, ← hyear, digitsValue_padded]
    have hmonth' : numberAt text 5 2 = date.month := by rw [numberAt, ← hmonth, digitsValue_padded]
    have hday' : numberAt text 8 2 = date.day := by rw [numberAt, ← hday, digitsValue_padded]
    rw [hyear', hmonth', hday']
    exact date.day_le
  · exact ⟨⟨⟨_, _, _, h.month_pos, h.month_le, h.day_pos, hday⟩, padded_numberAt (by decide) h.year,
      padded_numberAt (by decide) h.month, padded_numberAt (by decide) h.day⟩,
      ⟨_, h.hour_le, padded_numberAt (by decide) h.hour⟩, ⟨_, h.minute_le, padded_numberAt (by decide) h.minute⟩,
      ⟨_, h.second_le, padded_numberAt (by decide) h.second⟩⟩

/-- The instant of a canonical text is printed as the text exactly when the date of the text exists. -/
theorem CanonicalTime.formatTime_iff {text : Text} {t : NdoTime} (h : CanonicalTime text)
    (hread : tryParseTime text = some t) : formatTime t = text ↔ ¬OverlongText text := by
  obtain ⟨htext, -⟩ := tryParseTime_inv hread
  obtain ⟨-, hour, minute, second, fraction, -, hspelling, hprinted⟩ := h.printed hread
  have hyear := htext.year_lt
  have hyear' := h.year
  have hmonth := htext.month_le
  by_cases hlong : OverlongText text
  · refine iff_of_false (fun heq => ?_) (not_not.mpr hlong)
    obtain ⟨date, hsame, hnext, hdays⟩ := daysFromCivil_overlong (by omega) htext.day_le hlong
    have htwice := hprinted date (by omega) hdays
    rw [heq] at htwice
    have hwrong : numberAt text 5 2 = date.month := by
      rw [htwice]
      exact numberAt_timeText_month (by omega) (by omega)
    omega
  · refine iff_of_true ?_ hlong
    rw [OverlongText, overlong_iff htext.day_le, not_lt] at hlong
    rw [hprinted ⟨_, _, _, htext.month_pos, htext.month_le, htext.day_pos, hlong⟩ (by simp only; omega) rfl]
    exact hspelling.symm

theorem canonicalTime_timeText {year month day hour minute second fraction : Nat} (hyear : 1970 ≤ year)
    (hyear' : year < 10000) (hmonth : month < 100) (hday : day < 100) (hhour : hour < 100) (hminute : minute < 100)
    (hsecond : second ≤ 59) (hfraction : fraction < 1000000000) :
    CanonicalTime (timeText year month day hour minute second fraction) := by
  have hy : (padded 4 year).length = 4 := length_padded (by decide) hyear'
  have hmo : (padded 2 month).length = 2 := length_padded (by decide) hmonth
  have hd : (padded 2 day).length = 2 := length_padded (by decide) hday
  have hh : (padded 2 hour).length = 2 := length_padded (by decide) hhour
  have hmi : (padded 2 minute).length = 2 := length_padded (by decide) hminute
  have hs : (padded 2 second).length = 2 := length_padded (by decide) (by omega)
  have hf : (padded 9 fraction).length = 9 := length_padded (by decide) hfraction
  have hfront : (padded 4 year ++ ascii "-" ++ padded 2 month ++ ascii "-" ++ padded 2 day ++ ascii "T" ++
      padded 2 hour ++ ascii ":" ++ padded 2 minute ++ ascii ":").length = 17 := by
    simp only [List.length_append, hy, hmo, hd, hh, hmi]
    rfl
  have h17 : (timeText year month day hour minute second fraction).drop 17 =
      padded 2 second ++ (ascii "." ++ (padded 9 fraction ++ ascii "Z")) := by
    rw [timeText, List.append_assoc, List.append_assoc, List.append_assoc]
    exact List.drop_left' hfront
  have h19 : (timeText year month day hour minute second fraction).drop 19 =
      ascii "." ++ (padded 9 fraction ++ ascii "Z") := by
    rw [show 19 = 17 + 2 from rfl, ← List.drop_drop, h17]
    exact List.drop_left' hs
  have h20 : (timeText year month day hour minute second fraction).drop 20 = padded 9 fraction ++ ascii "Z" := by
    rw [show 20 = 19 + 1 from rfl, ← List.drop_drop, h19]
    rfl
  refine ⟨?_, ?_, ?_, ?_⟩
  · rw [← Nat.add_zero 19, ← List.getElem?_drop, h19]
    rfl
  · rw [h20, List.takeWhile_append_of_pos (List.all_eq_true.mp (isDigit_padded 9 fraction))]
    rw [List.length_append, hf]
    rfl
  · rw [numberAt, h17, List.take_left' hs, digitsValue_padded]
    exact hsecond
  · rw [numberAt, List.drop_zero, timeText]
    simp only [List.append_assoc]
    rw [List.take_left' hy, digitsValue_padded]
    exact hyear

/-- Canonical texts of dates that exist denote distinct instants. -/
theorem CanonicalTime.injective {text other : Text} {t : NdoTime} (h : CanonicalTime text)
    (hread : tryParseTime text = some t) (hdate : ¬OverlongText text) (hother : CanonicalTime other)
    (hread' : tryParseTime other = some t) (hdate' : ¬OverlongText other) : other = text := by
  rw [← (h.formatTime_iff hread).mpr hdate, (hother.formatTime_iff hread').mpr hdate']

/-- The instant of a canonical text from the epoch on is printed as a canonical text that is read as it again. -/
theorem CanonicalTime.formatTime {text : Text} {t : NdoTime} (h : CanonicalTime text)
    (hread : tryParseTime text = some t) :
    CanonicalTime (DriftObservatory.formatTime t) ∧ tryParseTime (DriftObservatory.formatTime t) = some t := by
  obtain ⟨htext, -⟩ := tryParseTime_inv hread
  obtain ⟨hnonneg, hour, minute, second, fraction, ⟨hhour, hminute, hsecond, hfraction⟩, -, hprinted⟩ :=
    h.printed hread
  have hyear := htext.year_lt
  have hyear' := h.year
  refine ⟨?_, (tryParseTime_formatTime_iff t).mpr (.inl hnonneg)⟩
  obtain ⟨date, hsame, hdays⟩ : ∃ date : CivilDate, date.year = numberAt text 0 4 ∧
      daysFromCivil (numberAt text 0 4) (numberAt text 5 2) (numberAt text 8 2) =
        daysFromCivil date.year date.month date.day := by
    by_cases hlong : OverlongText text
    · obtain ⟨date, hsame, -, hdays⟩ := daysFromCivil_overlong (by omega) htext.day_le hlong
      exact ⟨date, hsame, hdays⟩
    · rw [OverlongText, overlong_iff htext.day_le, not_lt] at hlong
      exact ⟨⟨_, _, _, htext.month_pos, htext.month_le, htext.day_pos, hlong⟩, rfl, rfl⟩
  have hmonth := date.month_le
  have hday := (day_le_of_monthLength date.day_le).1
  rw [hprinted date (by omega) hdays]
  exact canonicalTime_timeText (by omega) (by omega) (by omega) (by omega) (by omega) (by omega) hsecond hfraction

/-- A text that is read names an instant exactly when its day does not lie beyond the end of its month. On that
    condition alone a canonical text is what its instant is printed as, and no other one denotes the instant. -/
theorem tryParseTime_names_iff {text : Text} {t : NdoTime} (h : tryParseTime text = some t) :
    (NamesInstant text ↔ ¬OverlongText text) ∧
      (CanonicalTime text →
        (formatTime t = text ↔ ¬OverlongText text) ∧
          ((∀ other, CanonicalTime other → ¬OverlongText other → tryParseTime other = some t → other = text) ↔
            ¬OverlongText text)) := by
  refine ⟨(tryParseTime_inv h).1.namesInstant_iff, fun hcanonical => ⟨hcanonical.formatTime_iff h, ?_⟩⟩
  refine ⟨fun hunique => ?_, fun hdate other hother hdate' hread => hcanonical.injective h hdate hother hread hdate'⟩
  obtain ⟨hprinted, hreread⟩ := hcanonical.formatTime h
  have hdate := (hprinted.formatTime_iff hreread).mp rfl
  exact (hcanonical.formatTime_iff h).mp (hunique _ hprinted hdate hreread)

theorem tryParseTime_names_iff_leap :
    NamesInstant (ascii "2024-02-29T12:00:00.000000000Z") ↔ ¬OverlongText (ascii "2024-02-29T12:00:00.000000000Z") :=
  (@tryParseTime_names_iff _ ⟨1709208000000000000⟩ (by decide +kernel)).1

/-- The thirtieth of February is read as the second of March, which is what it is printed as. -/
theorem tryParseTime_names_february :
    ∃ (text : Text) (t : NdoTime), tryParseTime text = some t ∧ CanonicalTime text ∧ ¬NamesInstant text ∧
      formatTime t = ascii "2023-03-02T00:00:00.000000000Z" ∧ formatTime t ≠ text := by
  have hread : tryParseTime (ascii "2023-02-30T00:00:00.000000000Z") = some ⟨1677715200000000000⟩ := by decide +kernel
  have hlong : OverlongText (ascii "2023-02-30T00:00:00.000000000Z") := by decide +kernel
  refine ⟨_, _, hread, ⟨by decide +kernel, by decide +kernel, by decide +kernel, by decide +kernel⟩, fun hnames => ?_,
    by decide +kernel, by decide +kernel⟩
  exact (tryParseTime_inv hread).1.namesInstant_iff.mp hnames hlong

end DriftObservatory
