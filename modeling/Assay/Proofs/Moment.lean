import Assay.Moment
import Assay.Proofs.Decimal.Text
import Mathlib.Tactic.IntervalCases

/-!
# Moments as texts

A day that counts from the start of 1970 has a date, and the date gives the day back
(`dateOf_isDate`). From it a moment of the counted years on a clock without offset is written, and the
text denotes that moment (`ofText_text`).
-/

namespace Assay.Moment

/-! ## Years of an era

The calendar repeats itself every 400 years. The years of such an era begin in March, so that a leap
day is the last day of its year. -/

/-- The days of an era before one of its years, and all of them for the year 400. -/
def yearStart (year : Nat) : Nat := 365 * year + year / 4 - year / 100 + year / 400

/-- The year of a day of an era. -/
def yearOfEra (day : Nat) : Nat := (day - day / 1460 + day / 36524 - day / 146096) / 365

theorem yearStart_succ_le (year : Nat) : yearStart (year + 1) ≤ yearStart year + 366 := by
  unfold yearStart
  omega

theorem yearOfEra_mono {a b : Nat} (h : a ≤ b) (hb : b < 146097) : yearOfEra a ≤ yearOfEra b := by
  have hday : a - a / 1460 ≤ b - b / 1460 := by omega
  have hcentury : a / 36524 ≤ b / 36524 := Nat.div_le_div_right h
  -- an era has four centuries, and the last day of the fourth still belongs to it
  have hlast : a / 36524 - a / 146096 = min (a / 36524) 3 := by omega
  have hlast' : b / 36524 - b / 146096 = min (b / 36524) 3 := by omega
  have hle : a / 146096 ≤ a / 36524 := by omega
  have hle' : b / 146096 ≤ b / 36524 := by omega
  exact Nat.div_le_div_right (by omega)

theorem yearOfEra_first : ∀ year < 400, yearOfEra (yearStart year) = year := by decide +kernel

theorem yearOfEra_last : ∀ year < 400, yearOfEra (yearStart (year + 1) - 1) = year := by
  decide +kernel

variable {day : Nat}

theorem yearOfEra_lt (h : day < 146097) : yearOfEra day < 400 := by
  have hle : yearOfEra day ≤ yearOfEra 146096 := yearOfEra_mono (by omega) (by omega)
  exact Nat.lt_of_le_of_lt hle (by decide)

/-- A day does not come before the year that it is said to lie in. -/
theorem yearStart_le (h : day < 146097) : yearStart (yearOfEra day) ≤ day := by
  have hlt := yearOfEra_lt h
  -- otherwise the day is no later than the last one of the year before, and so lies in that year
  by_contra hday
  obtain ⟨year, hyear⟩ : ∃ year, yearOfEra day = year + 1 := by
    refine Nat.exists_eq_succ_of_ne_zero fun hzero => hday ?_
    rw [hzero]
    exact Nat.zero_le _
  rw [hyear] at hday hlt
  have hbound : yearStart (year + 1) ≤ 146097 := by
    unfold yearStart
    omega
  have hle := yearOfEra_mono (a := day) (b := yearStart (year + 1) - 1) (by omega) (by omega)
  rw [yearOfEra_last year (by omega)] at hle
  omega

/-- A day comes before the year after the one that it is said to lie in. -/
theorem lt_yearStart (h : day < 146097) : day < yearStart (yearOfEra day + 1) := by
  have hlt := yearOfEra_lt h
  by_contra hday
  by_cases hyear : yearOfEra day + 1 < 400
  · have hle := yearOfEra_mono (Nat.not_lt.mp hday) h
    rw [yearOfEra_first _ hyear] at hle
    omega
  · have hend : yearOfEra day + 1 = 400 := by omega
    rw [hend] at hday
    exact hday h

/-! ## Dates -/

/-- The numbers of a date that the calendar has. -/
structure IsDate (year month day : Nat) : Prop where
  month_pos : 1 ≤ month
  month_le : month ≤ 12
  day_pos : 1 ≤ day
  day_le : day ≤ monthLength year month

theorem IsDate.day_le_thirtyOne {year month day : Nat} (h : IsDate year month day) : day ≤ 31 := by
  have hle := h.day_le
  unfold monthLength at hle
  split at hle
  · split at hle <;> omega
  · split at hle <;> omega

/-- The month of a day of a year, both counted from March. -/
def marchMonth (dayOfYear : Nat) : Nat := (5 * dayOfYear + 2) / 153

/-- The days of a year before a month, counted from March. -/
def monthStart (month : Nat) : Nat := (153 * month + 2) / 5

theorem marchMonth_lt (h : day < 366) : marchMonth day < 12 := by
  unfold marchMonth
  omega

theorem monthStart_le (day : Nat) : monthStart (marchMonth day) ≤ day := by
  unfold monthStart marchMonth
  omega

theorem lt_monthStart (day : Nat) : day < monthStart (marchMonth day + 1) := by
  unfold monthStart marchMonth
  omega

/-- A month of the calendar, from its number counted from March. -/
def calendarMonth (month : Nat) : Nat := if month < 10 then month + 3 else month - 9

/-- The year of the calendar in which a month of a year that begins in March lies. -/
def calendarYear (year month : Nat) : Nat := if calendarMonth month ≤ 2 then year + 1 else year

/-- All months but the last of a year that begins in March are as long as the calendar says. -/
theorem monthStart_succ {month : Nat} (year : Nat) (h : month < 11) :
    monthStart (month + 1) = monthStart month + monthLength year (calendarMonth month) := by
  interval_cases month <;> rfl

/-- A year that begins in March has 366 days only before the end of a leap year's February. -/
theorem isLeap_of_lt_yearStart {year : Nat} (era : Nat)
    (h : yearStart year + 365 < yearStart (year + 1)) : isLeap (year + 400 * era + 1) = true := by
  unfold yearStart at h
  unfold isLeap
  simp only [Bool.and_eq_true, Bool.or_eq_true, beq_iff_eq, bne_iff_ne]
  omega

/-- The years of an era take up the days before them. -/
theorem days_of_years {year : Nat} (era : Nat) (h : year < 400) :
    365 * ((year + 400 * era : Nat) : Int) + ((year + 400 * era : Nat) : Int) / 4 -
        ((year + 400 * era : Nat) : Int) / 100 + ((year + 400 * era : Nat) : Int) / 400 =
      ((146097 * era + yearStart year : Nat) : Int) := by
  unfold yearStart
  omega

/-- The date of a day, in terms of the era, the year and the month it lies in. -/
theorem dateOf_eq {days : Int} {era dayOfEra : Nat} (h : days + 719468 = 146097 * era + dayOfEra)
    (hlt : dayOfEra < 146097) :
    dateOf days =
      let year := yearOfEra dayOfEra
      let dayOfYear := dayOfEra - yearStart year
      let month := marchMonth dayOfYear
      ((calendarYear (year + 400 * era) month : Int), calendarMonth month,
        dayOfYear - monthStart month + 1) := by
  -- eras are counted from the first of March of the year 0
  have hera : (days + 719468) / 146097 = era := by omega
  have hday : ((days + 719468) % 146097).toNat = dayOfEra := by omega
  have hdate : dateOf days =
      let year := yearOfEra dayOfEra
      let dayOfYear := dayOfEra - (365 * year + year / 4 - year / 100)
      let month := marchMonth dayOfYear
      (if calendarMonth month ≤ 2 then (year : Int) + era * 400 + 1 else (year : Int) + era * 400,
        calendarMonth month, dayOfYear - monthStart month + 1) := by
    unfold dateOf
    dsimp only
    rw [hera, hday]
    rfl
  have hyear := yearOfEra_lt hlt
  have hstart : 365 * yearOfEra dayOfEra + yearOfEra dayOfEra / 4 - yearOfEra dayOfEra / 100 =
      yearStart (yearOfEra dayOfEra) := by
    unfold yearStart
    omega
  rw [hdate]
  dsimp only
  rw [hstart]
  unfold calendarYear
  refine Prod.ext ?_ rfl
  dsimp only
  split <;> omega

theorem daysOf_calendar {month : Nat} (year day : Nat) (h : month < 12) :
    daysOf (calendarYear year month) (calendarMonth month) day =
      365 * (year : Int) + (year : Int) / 4 - (year : Int) / 100 + (year : Int) / 400 +
        ((monthStart month + day : Nat) : Int) - 719469 := by
  unfold daysOf calendarYear
  by_cases hmonth : month < 10
  · have hcalendar : calendarMonth month = month + 3 := if_pos hmonth
    have hlate : ¬ month + 3 ≤ 2 := by omega
    simp only [hcalendar, if_neg hlate, Nat.add_sub_cancel]
    rfl
  · have hcalendar : calendarMonth month = month - 9 := if_neg hmonth
    have hearly : month - 9 ≤ 2 := by omega
    have hback : month - 9 + 9 = month := by omega
    have hyear : ((year + 1 : Nat) : Int) - 1 = year := by omega
    simp only [hcalendar, if_pos hearly, hback, hyear]
    rfl

/-- A day lies in its month. -/
theorem day_le_monthLength {year month : Nat} (era : Nat) (hmonth : month < 12)
    (hfrom : monthStart month ≤ day) (hto : day < monthStart (month + 1))
    (hyear : yearStart year + day < yearStart (year + 1)) :
    day - monthStart month + 1 ≤
      monthLength (calendarYear (year + 400 * era) month) (calendarMonth month) := by
  by_cases hlast : month < 11
  · have hlength := monthStart_succ (calendarYear (year + 400 * era) month) hlast
    omega
  · -- February, whose last day is the 365th or the 366th of the year
    obtain rfl : month = 11 := by omega
    have hstart : monthStart 11 = 337 := rfl
    have hlength : monthLength (calendarYear (year + 400 * era) 11) (calendarMonth 11) =
        if isLeap (year + 400 * era + 1) then 29 else 28 := rfl
    rw [hstart, hlength]
    by_cases hleap : day = 365
    · rw [hleap] at hyear ⊢
      rw [isLeap_of_lt_yearStart era hyear]
      decide
    · have hend := yearStart_succ_le year
      split <;> omega

/-- **Days and dates.** The date of a day is one of the calendar, and it denotes that day. -/
theorem dateOf_isDate {days : Int} (h : daysOf 1 1 1 ≤ days) :
    ∃ year month day : Nat, dateOf days = ((year : Int), month, day) ∧ IsDate year month day ∧
      daysOf year month day = days := by
  have hpos : 0 ≤ days + 719468 := by
    have hfirst : daysOf 1 1 1 = -719162 := by decide
    omega
  obtain ⟨n, hn⟩ := Int.eq_ofNat_of_zero_le hpos
  obtain ⟨era, dayOfEra, rfl, hera⟩ : ∃ era dayOfEra, n = 146097 * era + dayOfEra ∧ dayOfEra < 146097 :=
    ⟨n / 146097, n % 146097, (Nat.div_add_mod n 146097).symm, Nat.mod_lt _ (by decide)⟩
  have hdate := dateOf_eq (by simpa using hn : days + 719468 = 146097 * (era : Int) + dayOfEra) hera
  dsimp only at hdate
  have hyear := yearOfEra_lt hera
  have hstart := yearStart_le hera
  have hend := lt_yearStart hera
  -- from here on only the bounds of the year and of the month count, not how they are computed
  generalize yearOfEra dayOfEra = year at *
  obtain ⟨day, rfl⟩ := Nat.exists_eq_add_of_le hstart
  rw [Nat.add_sub_cancel_left] at hdate
  have hlong := yearStart_succ_le year
  have hmonth := marchMonth_lt (by omega : day < 366)
  have hfrom := monthStart_le day
  have hto := lt_monthStart day
  generalize marchMonth day = month at *
  refine ⟨calendarYear (year + 400 * era) month, calendarMonth month, day - monthStart month + 1,
    hdate, ⟨?_, ?_, ?_, ?_⟩, ?_⟩
  · unfold calendarMonth
    split <;> omega
  · unfold calendarMonth
    split <;> omega
  · exact Nat.le_add_left 1 _
  · exact day_le_monthLength era hmonth hfrom hto hend
  · rw [daysOf_calendar _ _ hmonth, days_of_years era hyear]
    omega

/-! ## Texts of moments -/

theorem number?_append {w : Nat} {ds : List Char} (hlength : ds.length = w)
    (hdigits : ∀ c ∈ ds, Decimal.isAsciiDigit c = true) (rest : List Char) :
    number? w (ds ++ rest) = some (Decimal.natOf ds, rest) := by
  subst hlength
  have hall : ds.all Decimal.isAsciiDigit = true := List.all_eq_true.mpr hdigits
  simp [number?, hall]

/-- A padded number is read back. -/
theorem number?_padded {w n : Nat} (hw : 0 < w) (h : n < 10 ^ w) (rest : List Char) :
    number? w ((Decimal.padded w n).toList ++ rest) = some (n, rest) := by
  rw [number?_append (Decimal.length_padded hw h) (fun _ => Decimal.isAsciiDigit_of_mem_padded),
    Decimal.natOf_padded]

theorem length_le_utf8 (cs : List Char) : cs.length ≤ cs.foldl (fun n c => n + c.utf8Size) 0 := by
  have hfrom (n : Nat) : n + cs.length ≤ cs.foldl (fun n c => n + c.utf8Size) n := by
    induction cs generalizing n with
    | nil => simp
    | cons c cs ih =>
        have hnext := ih (n + c.utf8Size)
        have hsize := c.utf8Size_pos
        rw [List.foldl_cons, List.length_cons]
        omega
  simpa using hfrom 0

/-- The characters of a date. -/
def dateChars (year month day : Nat) : List Char :=
  (Decimal.padded 4 year).toList ++
    '-' :: ((Decimal.padded 2 month).toList ++ '-' :: (Decimal.padded 2 day).toList)

/-- The characters of a time of day with the microseconds of its last second. -/
def timeChars (hour minute second micros : Nat) : List Char :=
  (Decimal.padded 2 hour).toList ++ ':' :: ((Decimal.padded 2 minute).toList ++
    ':' :: ((Decimal.padded 2 second).toList ++
      if micros = 0 then [] else '.' :: (Decimal.padded 6 micros).toList))

/-- A date of the calendar is read back. -/
theorem dateAt_dateChars {year month day : Nat} (hdate : IsDate year month day) (hyear : year < 10000)
    (rest : List Char) :
    dateAt (dateChars year month day ++ rest) = .ok (daysOf year month day, rest) := by
  have hmonth := hdate.month_le
  have hday := hdate.day_le_thirtyOne
  have hyear4 : (Decimal.padded 4 year).toList.length = 4 := Decimal.length_padded (by decide) hyear
  have hmonth2 : (Decimal.padded 2 month).toList.length = 2 :=
    Decimal.length_padded (by decide) (by omega)
  have hday2 : (Decimal.padded 2 day).toList.length = 2 := Decimal.length_padded (by decide) (by omega)
  -- ten characters are ten bytes at least, so the text is long enough for a date
  have hlong : ¬ (dateChars year month day ++ rest).foldl (fun n c => n + c.utf8Size) 0 < 10 := by
    have hle := length_le_utf8 (dateChars year month day ++ rest)
    have hlength : (dateChars year month day).length = 10 := by
      simp [dateChars, hyear4, hmonth2, hday2]
    rw [List.length_append] at hle
    omega
  have hmonthRange : (decide (month < 1) || decide (12 < month)) = false := by
    have := hdate.month_pos
    simp
    omega
  have hdayRange : (decide (day < 1) || decide (monthLength year month < day)) = false := by
    have := hdate.day_pos
    have := hdate.day_le
    simp
    omega
  rw [dateAt, if_neg hlong]
  simp only [dateChars, List.append_assoc, List.cons_append]
  rw [number?_padded (by decide) hyear]
  simp only [number?_padded (w := 2) (by decide) (show month < 10 ^ 2 by omega),
    number?_padded (w := 2) (by decide) (show day < 10 ^ 2 by omega), hmonthRange, hdayRange,
    Bool.false_eq_true, if_false]

theorem microseconds_padded {n : Nat} (h : n < 1000000) :
    microseconds (Decimal.padded 6 n).toList = n := by
  have hlength : (Decimal.padded 6 n).toList.length = 6 := Decimal.length_padded (by decide) h
  rw [microseconds, List.take_append_of_le_length (by omega), List.take_of_length_le (by omega),
    Decimal.natOf_padded]

/-- A time of day is read back, up to the mark of the clock without offset. -/
theorem timeAt?_timeChars {hour minute second micros : Nat} (hhour : hour < 24) (hminute : minute < 60)
    (hsecond : second < 60) (hmicros : micros < 1000000) :
    timeAt? (timeChars hour minute second micros ++ ['Z']) =
      some ((((hour * 3600 + minute * 60 + second) * 1000000 + micros : Nat) : Int), ['Z']) := by
  have hrange : (decide (23 < hour) || decide (59 < minute) || decide (59 < second)) = false := by
    simp
    omega
  unfold timeAt? timeChars
  simp only [List.append_assoc, List.cons_append]
  simp only [number?_padded (w := 2) (by decide) (show hour < 10 ^ 2 by omega),
    number?_padded (w := 2) (by decide) (show minute < 10 ^ 2 by omega),
    number?_padded (w := 2) (by decide) (show second < 10 ^ 2 by omega),
    Option.bind_eq_bind, Option.bind_some, hrange]
  -- without microseconds the second is followed by the mark of the clock at once
  by_cases hzero : micros = 0
  · subst hzero
    rfl
  · have htake : ((Decimal.padded 6 micros).toList ++ ['Z']).takeWhile Decimal.isAsciiDigit =
        (Decimal.padded 6 micros).toList := by
      rw [List.takeWhile_append_of_pos fun _ => Decimal.isAsciiDigit_of_mem_padded]
      exact List.append_nil _
    have hsix : (Decimal.padded 6 micros).toList.length = 6 := Decimal.length_padded (by decide) hmicros
    have hdigits : (Decimal.padded 6 micros).toList.isEmpty = false := by
      rw [List.isEmpty_eq_false_iff, ← List.length_pos_iff, hsix]
      decide
    simp only [hzero, if_false, List.cons_append, htake, hdigits, List.drop_left,
      microseconds_padded hmicros]
    rfl

/-- The moment lies in the years that are counted, from 1 to 9999. -/
def IsCounted (m : Moment) : Prop := first ≤ m.shown ∧ m.shown < daysOf 10000 1 1 * dayLength

instance (m : Moment) : Decidable m.IsCounted := inferInstanceAs (Decidable (_ ∧ _))

/-- A year after the counted ones comes after all of their days. -/
theorem IsDate.year_lt {year month day : Nat} (h : IsDate year month day)
    (hdays : daysOf year month day < daysOf 10000 1 1) : year < 10000 := by
  have hend : daysOf 10000 1 1 = 2932897 := by decide
  have hmonth := h.month_pos
  have hday := h.day_pos
  rw [hend] at hdays
  unfold daysOf at hdays
  dsimp only at hdays
  by_contra hyear
  split at hdays <;> omega

/-- The text of a moment on a clock without offset. -/
theorem toList_text {m : Moment} {year month day : Nat} (hutc : m.offset = some 0)
    (hdate : dateOf (m.shown / dayLength) = ((year : Int), month, day)) :
    let micros := (m.shown % dayLength).toNat
    let seconds := micros / 1000000
    m.text.toList = dateChars year month day ++
      'T' :: (timeChars (seconds / 3600) (seconds / 60 % 60) (seconds % 60) (micros % 1000000) ++ ['Z']) := by
  have hzone : offsetText m.offset = "Z" := by
    rw [hutc]
    rfl
  unfold text
  dsimp only
  rw [hdate, hzone]
  unfold dateChars timeChars
  by_cases hzero : (m.shown % dayLength).toNat % 1000000 = 0
  · simp [hzero]
  · simp [hzero]

/-- **Round trip.** The text of a moment of the counted years on a clock without offset denotes that
moment. -/
theorem ofText_text {m : Moment} (hutc : m.offset = some 0) (hcounted : m.IsCounted) :
    ofText m.text = .ok m := by
  obtain ⟨hfirst, hlast⟩ := hcounted
  have hpos : 0 < dayLength := by decide
  have hlength : dayLength = 86400000000 := rfl
  have hsplit := Int.ediv_mul_add_emod m.shown dayLength
  have hnonneg := Int.emod_nonneg m.shown hpos.ne'
  have hlt := Int.emod_lt_of_pos m.shown hpos
  have hfrom : daysOf 1 1 1 ≤ m.shown / dayLength := Int.le_ediv_of_mul_le hpos hfirst
  have hto : m.shown / dayLength < daysOf 10000 1 1 := Int.ediv_lt_of_lt_mul hpos hlast
  obtain ⟨year, month, day, hdate, hisDate, hdays⟩ := dateOf_isDate hfrom
  have hyear := hisDate.year_lt (by rwa [hdays])
  have htext := toList_text hutc hdate
  generalize hmicros : (m.shown % dayLength).toNat = micros at htext
  have hday : micros < 86400000000 := by omega
  have htime := timeAt?_timeChars (by omega : micros / 1000000 / 3600 < 24)
    (by omega : micros / 1000000 / 60 % 60 < 60) (by omega : micros / 1000000 % 60 < 60)
    (by omega : micros % 1000000 < 1000000)
  -- hours, minutes, seconds and microseconds add up to the time of the day again
  have hsum : (micros / 1000000 / 3600 * 3600 + micros / 1000000 / 60 % 60 * 60 +
      micros / 1000000 % 60) * 1000000 + micros % 1000000 = micros := by omega
  rw [hsum] at htime
  have hshown : m.shown / dayLength * dayLength + micros = m.shown := by omega
  have hdate : ofDate m.text = .ok m := by
    rw [ofDate, htext]
    simp only [dateAt_dateChars hisDate hyear, htime, hdays]
    simp [hshown, offset?, ← hutc]
  rw [ofText, hdate]

end Assay.Moment
