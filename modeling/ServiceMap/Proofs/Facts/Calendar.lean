import Mathlib.Algebra.Group.Nat.Defs
import ServiceMap.Facts.Instant

/-!
# The calendar form of an instant

A day is determined by its date, and an instant of the years 1 to 9999 is read back from its
calendar form.
-/

namespace ServiceMap.Instant

/-! ## Dates -/

/-- The year of an era in which a day of the era lies, years from March on. -/
def yearOfEra (dayOfEra : Nat) : Nat :=
  (dayOfEra - dayOfEra / 1460 + dayOfEra / 36524 - dayOfEra / 146096) / 365

/-- The number of days of an era before one of its years. -/
def daysBefore (year : Nat) : Nat :=
  365 * year + year / 4 - year / 100

/-- A day lies in the year that is computed for it. -/
theorem yearOfEra_spec {d : Nat} (h : d < 146097) :
    yearOfEra d < 400 ∧ daysBefore (yearOfEra d) ≤ d ∧ d < daysBefore (yearOfEra d) + 366 := by
  unfold yearOfEra daysBefore
  rcases Nat.lt_or_ge d 146096 with hlast | hlast
  · have hzero : d / 146096 = 0 := by omega
    obtain ⟨c, hc⟩ : ∃ c, d / 36524 = c := ⟨_, rfl⟩
    have hlt : c < 4 := by omega
    rw [hzero, hc]
    have hcentury : (d - d / 1460 + c - 0) / 365 / 100 = c := by omega
    rw [hcentury]
    refine ⟨?_, ?_, ?_⟩ <;> omega
  · obtain rfl : d = 146096 := by omega
    decide

/-- The month of a day of the year, both from March on. -/
def monthOfYear (dayOfYear : Nat) : Nat :=
  (5 * dayOfYear + 2) / 153

/-- The number of days of a year before one of its months. -/
def daysBeforeMonth (month : Nat) : Nat :=
  (153 * month + 2) / 5

theorem monthOfYear_spec {d : Nat} (h : d < 366) :
    monthOfYear d < 12 ∧ daysBeforeMonth (monthOfYear d) ≤ d ∧
      d < daysBeforeMonth (monthOfYear d) + 31 := by
  unfold monthOfYear daysBeforeMonth
  omega

/-- The date of a day that is given by its era, the year of the era, the month and the day in it. -/
theorem ofDays_eq (days : Int) : ∃ (era : Int) (year month day : Nat),
    days + epochShift = era * 146097 + (daysBefore year + (daysBeforeMonth month + day) : Nat) ∧
    year < 400 ∧ month < 12 ∧ day < 31 ∧
    Date.ofDays days = ⟨year + era * 400 + (if month < 10 then 0 else 1),
      if month < 10 then month + 3 else month - 9, day + 1⟩ := by
  obtain ⟨z, hz⟩ : ∃ z, days + epochShift = z := ⟨_, rfl⟩
  obtain ⟨d, hd⟩ := Int.eq_ofNat_of_zero_le (Int.fmod_nonneg_of_pos z (by decide : (0 : Int) < 146097))
  have hdiv := Int.mul_fdiv_add_fmod z 146097
  have hlt := Int.fmod_lt_of_pos z (by decide : (0 : Int) < 146097)
  obtain ⟨hyear, hle, hyearEnd⟩ := yearOfEra_spec (by omega : d < 146097)
  obtain ⟨hmonth, hmonthStart, hmonthEnd⟩ :=
    monthOfYear_spec (by omega : d - daysBefore (yearOfEra d) < 366)
  obtain ⟨month, hm⟩ : ∃ m, monthOfYear (d - daysBefore (yearOfEra d)) = m := ⟨_, rfl⟩
  rw [hm] at hmonth hmonthStart hmonthEnd
  refine ⟨z.fdiv 146097, yearOfEra d, month, d - daysBefore (yearOfEra d) - daysBeforeMonth month,
    by omega, hyear, hmonth, by omega, ?_⟩
  have hdate : Date.ofDays days = ⟨yearOfEra d + z.fdiv 146097 * 400
      + (if (if month < 10 then month + 3 else month - 9) ≤ 2 then 1 else 0),
      if month < 10 then month + 3 else month - 9,
      d - daysBefore (yearOfEra d) - daysBeforeMonth month + 1⟩ := by
    rw [← hm]
    simp only [Date.ofDays, hz, hd]
    rfl
  rw [hdate]
  split
  · rw [if_neg (by omega)]
  · rw [if_pos (by omega)]

/-- **A date tells its day**: the count of days is read back from the calendar. -/
theorem toDays_ofDays (days : Int) : (Date.ofDays days).toDays = days := by
  obtain ⟨era, year, month, day, hdays, hyear, hmonth, -, hdate⟩ := ofDays_eq days
  have hdiv : (year + era * 400 : Int).fdiv 400 = era := by
    rw [Int.fdiv_eq_ediv_of_nonneg _ (by decide)]
    omega
  have hmod : (year + era * 400 : Int).fmod 400 = year := by
    rw [Int.fmod_eq_emod_of_nonneg _ (by decide)]
    omega
  -- January and February belong to the year that began in March
  have hyearOf : (if (Date.ofDays days).month ≤ 2 then (Date.ofDays days).year - 1
      else (Date.ofDays days).year) = year + era * 400 := by
    rw [hdate]
    dsimp only
    split <;> split <;> omega
  have hmonthOf : (if (Date.ofDays days).month > 2 then (Date.ofDays days).month - 3
      else (Date.ofDays days).month + 9) = month := by
    rw [hdate]
    dsimp only
    split <;> split <;> omega
  have hday : (Date.ofDays days).day = day + 1 := by rw [hdate]
  simp only [Date.toDays, hyearOf, hmonthOf, hday, hdiv, hmod, Int.toNat_natCast]
  unfold daysBefore daysBeforeMonth at hdays
  omega

theorem Date.ofDays_month_le (days : Int) :
    (Date.ofDays days).month ≤ 12 ∧ (Date.ofDays days).day ≤ 31 := by
  obtain ⟨era, year, month, day, -, -, hmonth, hday, hdate⟩ := ofDays_eq days
  rw [hdate]
  dsimp only
  split <;> omega

/-! ## Numbers in fixed places -/

theorem length_padded (width : Nat) {n : Nat} (hwidth : 0 < width) (h : n < 10 ^ width) :
    (padded width n).length = width := by
  have hle := (Nat.length_toDigits_le_iff (by decide) hwidth).mpr h
  simp [padded, Nat.sub_add_cancel hle]

theorem digitsValue?_padded (width n : Nat) : digitsValue? (padded width n) = some n := by
  have hdigits : ∀ c ∈ padded width n, c.isDigit = true := by
    simp only [padded, List.mem_append, List.mem_replicate]
    rintro c (⟨-, rfl⟩ | hc)
    · rfl
    · exact Nat.isDigit_of_mem_toDigits (by decide) (by decide) hc
  have hne : padded width n ≠ [] := by simp [padded, Nat.toDigits_ne_nil]
  have hvalue : Nat.ofDigitChars 10 (padded width n) 0 = n := by
    rw [padded, Nat.ofDigitChars_append, Nat.ofDigitChars_replicate_zero, Nat.mul_zero,
      Nat.ofDigitChars_ten_toDigits]
  rw [digitsValue?, if_pos, ← Nat.ofDigitChars_eq_foldl, hvalue]
  simp [hne, List.all_eq_true.mpr hdigits]

/-- A number that was written to a width is found at its place. -/
theorem digitsValue?_of_append (before : List Char) {width n start : Nat} {s : List Char}
    (hs : before ++ padded width n <+: s) (hstart : before.length = start)
    (hlength : (padded width n).length = width) :
    digitsValue? ((s.drop start).take width) = some n := by
  obtain ⟨after, rfl⟩ := hs
  rw [List.append_assoc, List.drop_left' hstart, List.take_left' hlength, digitsValue?_padded]

/-! ## Reading the calendar form -/

/-- An instant whose year is one of those that the calendar form can write. -/
def InCalendar (t : Instant) : Prop :=
  1 ≤ (Date.ofDays (t.seconds.fdiv 86400)).year ∧ (Date.ofDays (t.seconds.fdiv 86400)).year ≤ 9999

instance (t : Instant) : Decidable t.InCalendar :=
  inferInstanceAs (Decidable (_ ∧ _))

theorem length_dayText {t : Instant} (h : t.InCalendar) : t.dayText.length = 10 := by
  obtain ⟨hmonth, hday⟩ := Date.ofDays_month_le (t.seconds.fdiv 86400)
  obtain ⟨-, hlast⟩ := h
  have hyear : (Date.ofDays (t.seconds.fdiv 86400)).year.toNat < 10 ^ 4 := by omega
  simp [dayText, length_padded _ (by decide) hyear,
    length_padded 2 (by decide) (Nat.lt_of_le_of_lt hmonth (by decide)),
    length_padded 2 (by decide) (Nat.lt_of_le_of_lt hday (by decide))]

/-- The numbers of the date stand at fixed places. -/
theorem dayText_spec {t : Instant} (h : t.InCalendar) {s : List Char} (hs : t.dayText <+: s) :
    digitsValue? ((s.drop 0).take 4) = some (Date.ofDays (t.seconds.fdiv 86400)).year.toNat ∧
      digitsValue? ((s.drop 5).take 2) = some (Date.ofDays (t.seconds.fdiv 86400)).month ∧
      digitsValue? ((s.drop 8).take 2) = some (Date.ofDays (t.seconds.fdiv 86400)).day := by
  obtain ⟨hmonth, hday⟩ := Date.ofDays_month_le (t.seconds.fdiv 86400)
  obtain ⟨-, hlast⟩ := h
  unfold dayText at hs
  obtain ⟨date, hdate⟩ : ∃ d, Date.ofDays (t.seconds.fdiv 86400) = d := ⟨_, rfl⟩
  rw [hdate] at hmonth hday hlast hs ⊢
  have hY := length_padded 4 (n := date.year.toNat) (by decide) (by omega)
  have hM := length_padded 2 (n := date.month) (by decide) (by omega)
  have hD := length_padded 2 (n := date.day) (by decide) (by omega)
  refine ⟨digitsValue?_of_append [] (.trans ?_ hs) rfl hY,
    digitsValue?_of_append (padded 4 date.year.toNat ++ ['-']) (.trans ?_ hs)
      (by simp [hY]) hM,
    digitsValue?_of_append
      (padded 4 date.year.toNat ++ ['-'] ++ padded 2 date.month ++ ['-']) (.trans ?_ hs)
      (by simp [hY, hM]) hD⟩ <;> simp

theorem secondOfDay_lt (t : Instant) : (t.seconds.fmod 86400).toNat < 86400 := by
  have hlt := Int.fmod_lt_of_pos t.seconds (by decide : (0 : Int) < 86400)
  omega

theorem length_timeText (t : Instant) : t.timeText.length = 8 := by
  have hlt := secondOfDay_lt t
  have hhour : (t.seconds.fmod 86400).toNat / 3600 < 10 ^ 2 := by omega
  have hsixty : ∀ n, (padded 2 (n % 60)).length = 2 :=
    fun n => length_padded _ (by decide) (by omega)
  simp [timeText, length_padded _ (by decide) hhour, hsixty]

/-- The numbers of the time of the day stand at fixed places. -/
theorem timeText_spec (t : Instant) {before s : List Char} (hs : before ++ t.timeText <+: s)
    {start : Nat} (hstart : before.length = start) :
    ∃ hour minute second, digitsValue? ((s.drop start).take 2) = some hour ∧
      digitsValue? ((s.drop (start + 3)).take 2) = some minute ∧
      digitsValue? ((s.drop (start + 6)).take 2) = some second ∧
      hour * 3600 + minute * 60 + second = (t.seconds.fmod 86400).toNat := by
  have hlt := secondOfDay_lt t
  unfold timeText at hs
  obtain ⟨time, htime⟩ : ∃ n, (t.seconds.fmod 86400).toNat = n := ⟨_, rfl⟩
  rw [htime] at hlt hs ⊢
  have hH := length_padded 2 (n := time / 3600) (by decide) (by omega)
  have hN := length_padded 2 (n := time / 60 % 60) (by decide) (by omega)
  have hS := length_padded 2 (n := time % 60) (by decide) (by omega)
  refine ⟨time / 3600, time / 60 % 60, time % 60,
    digitsValue?_of_append before (.trans ?_ hs) hstart hH,
    digitsValue?_of_append (before ++ padded 2 (time / 3600) ++ [':']) (.trans ?_ hs)
      (by simp [hH, hstart]) hN,
    digitsValue?_of_append
      (before ++ padded 2 (time / 3600) ++ [':'] ++ padded 2 (time / 60 % 60) ++ [':'])
      (.trans ?_ hs) (by simp [hH, hN, hstart]) hS, by omega⟩ <;> simp

/-- The moment that a date, a time of the day and microseconds make up. -/
theorem ofParts_eq (t : Instant) :
    (⟨((Date.ofDays (t.seconds.fdiv 86400)).toDays * 86400 + (t.seconds.fmod 86400).toNat) * 1000000
      + t.fraction⟩ : Instant) = t := by
  have hseconds := Int.mul_fdiv_add_fmod t.microseconds 1000000
  have hdays := Int.mul_fdiv_add_fmod t.seconds 86400
  have hfraction := Int.fmod_nonneg_of_pos t.microseconds (by decide : (0 : Int) < 1000000)
  have htime := Int.fmod_nonneg_of_pos t.seconds (by decide : (0 : Int) < 86400)
  rw [toDays_ofDays]
  congr
  unfold fraction
  unfold seconds at *
  omega

/-- **The calendar form loses nothing**: an instant is read back from it, with the microseconds that
the form leaves out where they are zero. -/
theorem read?_render {t : Instant} (h : t.InCalendar) : read? t.render = some t := by
  obtain ⟨s, hs⟩ : ∃ s, t.render.toList = s := ⟨_, rfl⟩
  obtain ⟨rest, hrest⟩ : ∃ rest, (if t.fraction = 0 then [] else '.' :: padded 6 t.fraction)
      ++ "+00:00".toList = rest := ⟨_, rfl⟩
  have htext : s = t.dayText ++ ['T'] ++ t.timeText ++ rest := by simp [← hs, render, ← hrest]
  have hbefore : (t.dayText ++ ['T']).length = 11 := by simp [length_dayText h]
  obtain ⟨hyear, hmonth, hday⟩ := dayText_spec h (s := s) (by simp [htext])
  obtain ⟨hour, minute, second, hhour, hminute, hsecond, htime⟩ :=
    timeText_spec t (s := s) (by simp [htext]) hbefore
  have hrestAt : s.drop 19 = rest := by
    rw [htext]
    exact List.drop_left' (by simp [length_dayText h, length_timeText])
  have hdot : s[19]? = some '.' ↔ t.fraction ≠ 0 := by
    rw [← List.head?_drop, hrestAt, ← hrest]
    by_cases hzero : t.fraction = 0 <;> simp [hzero]
  have hmicros : t.fraction ≠ 0 → digitsValue? ((s.drop 20).take 6) = some t.fraction := by
    have hlt := Int.fmod_lt_of_pos t.microseconds (by decide : (0 : Int) < 1000000)
    intro hne
    rw [show 20 = 19 + 1 from rfl, ← List.drop_drop, hrestAt, ← hrest, if_neg hne,
      List.cons_append, List.drop_one, List.tail_cons,
      List.take_left' (length_padded _ (by decide) (by rw [fraction]; omega)), digitsValue?_padded]
  have hdate : (⟨((Date.ofDays (t.seconds.fdiv 86400)).year.toNat : Int),
      (Date.ofDays (t.seconds.fdiv 86400)).month, (Date.ofDays (t.seconds.fdiv 86400)).day⟩ : Date)
        = Date.ofDays (t.seconds.fdiv 86400) := by
    rw [Int.toNat_of_nonneg (Int.le_trans (by decide) h.1)]
  have hparts := ofParts_eq t
  simp only [read?, hs, hyear, hmonth, hday, hhour, hminute, hsecond, Option.bind_eq_bind,
    Option.bind_some, Option.pure_def, htime, hdate]
  by_cases hzero : t.fraction = 0
  · rw [hzero] at hparts
    rw [if_neg fun hsome => hdot.mp hsome hzero, hparts]
  · rw [if_pos (hdot.mpr hzero), hmicros hzero, Option.bind_some, hparts]

end ServiceMap.Instant
