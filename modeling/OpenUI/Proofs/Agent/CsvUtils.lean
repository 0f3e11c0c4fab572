import OpenUI.Agent.CsvUtils
import OpenUI.Calendar
import Mathlib.Tactic.Linarith

/-!
# `OpenUI.Proofs.Agent.CsvUtils`: the printed time is the calendar's

`device_datetime` counts years from March, in eras of 400 years.

* `yearOfEra_cases`: a day of an era lies in one of its centuries, four-year cycles and years, and
  that year is what the formula gives.
* `monthOf_cases`: the months from March on.
* `civil_spec`: the date of a day, counted by the lengths of years and months, is that day.
* `deviceDatetime_eq`: the text is that of an existing date and time, whose seconds are the epoch.
-/

set_option autoImplicit false

namespace OpenUI.Agent.CsvUtils

open OpenUI.Calendar

/-! ### Years -/

/-- A day of an era: its century, four-year cycle, year and day of the year. The last year of a
cycle has a day more, unless it ends a century, but for the last. -/
theorem yearOfEra_cases {doe : Int} (h0 : 0 ≤ doe) (h1 : doe < 146097) :
    ∃ century cycle year doy : Int, 0 ≤ century ∧ century ≤ 3 ∧ 0 ≤ cycle ∧ cycle ≤ 24 ∧
      0 ≤ year ∧ year ≤ 3 ∧ 0 ≤ doy ∧ doy ≤ 365 ∧
      (doy = 365 → year = 3 ∧ (cycle = 24 → century = 3)) ∧
      doe = 36524 * century + 1461 * cycle + 365 * year + doy ∧
      yearOfEra doe = 100 * century + 4 * cycle + year := by
  have hcentury : ∃ c r : Int, 0 ≤ c ∧ c ≤ 3 ∧ 0 ≤ r ∧ doe = 36524 * c + r ∧
      (r < 36524 ∨ c = 3 ∧ r = 36524) := by
    by_cases hlast : doe = 146096
    · exact ⟨3, 36524, by omega⟩
    · exact ⟨doe / 36524, doe % 36524, by omega⟩
  obtain ⟨c, r, hc0, hc3, hr0, hdoe, hr⟩ := hcentury
  have hcycle : ∃ q s : Int, 0 ≤ q ∧ q ≤ 24 ∧ 0 ≤ s ∧ s ≤ 1460 ∧ r = 1461 * q + s ∧
      (s = 1460 → q = 24 → c = 3) :=
    ⟨r / 1461, r % 1461, by omega⟩
  obtain ⟨q, s, hq0, hq24, hs0, hs, hrq, hs24⟩ := hcycle
  have hyear : ∃ k doy : Int, 0 ≤ k ∧ k ≤ 3 ∧ 0 ≤ doy ∧ doy ≤ 365 ∧ s = 365 * k + doy ∧
      (doy = 365 → k = 3) := by
    by_cases hlast : s = 1460
    · exact ⟨3, 365, by omega⟩
    · exact ⟨s / 365, s % 365, by omega⟩
  obtain ⟨k, doy, hk0, hk3, hd0, hd, hsk, hdk⟩ := hyear
  refine ⟨c, q, k, doy, hc0, hc3, hq0, hq24, hk0, hk3, hd0, hd, ?_, ?_, ?_⟩
  · intro h
    exact ⟨hdk h, fun h' => hs24 (by omega) h'⟩
  · omega
  · -- A cycle is a day longer than 1460 days, and these days add up to one more at most.
    have hlong : doe / 1460 = 25 * c + q + (if 1460 ≤ 24 * c + q + s then 1 else 0) := by
      split <;> omega
    have hsum : doe - doe / 1460 + doe / 36524 - doe / 146096 =
        365 * (100 * c + 4 * q) + (s - (if 1460 ≤ 24 * c + q + s then 1 else 0)) := by
      omega
    rw [yearOfEra, Int.tdiv_eq_ediv_of_nonneg h0, Int.tdiv_eq_ediv_of_nonneg h0,
      Int.tdiv_eq_ediv_of_nonneg h0, Int.tdiv_eq_ediv_of_nonneg (by omega), hsum]
    split <;> omega

/-! ### Months -/

/-- A day of a year that begins in March: its month, where that begins, and how long it is, as far
as the year's length allows. -/
theorem monthOf_cases {doy mp : Int} (h0 : 0 ≤ doy) (h1 : doy ≤ 365)
    (hmp : mp = (5 * doy + 2) / 153) :
    0 ≤ mp ∧ mp ≤ 11 ∧ (153 * mp + 2) / 5 ≤ doy ∧ doy < (153 * (mp + 1) + 2) / 5 ∧
      0 ≤ (153 * mp + 2) / 5 := by
  refine ⟨?_, ?_, ?_, ?_, ?_⟩ <;> omega

/-- From March to December, the next month begins where the last one ends. -/
theorem monthLength_march (y : Nat) {mp : Int} (h0 : 0 ≤ mp) (h9 : mp < 10) :
    (monthLength y (mp + 3).toNat : Int) = (153 * (mp + 1) + 2) / 5 - (153 * mp + 2) / 5 := by
  interval_cases mp <;> rfl

/-- The days of the year before it. -/
theorem daysBeforeMonth_march (y : Nat) {mp : Int} (h0 : 0 ≤ mp) (h9 : mp < 10) :
    (daysBeforeMonth y (mp + 3).toNat : Int) = 59 + leapDays y + (153 * mp + 2) / 5 := by
  rw [daysBeforeMonth_eq y (m := (mp + 3).toNat) (by omega) (by omega)]
  omega

/-! ### Dates -/

/-- The days before the first of March of a year. -/
theorem daysBeforeMarch (y : Nat) (h : 1970 ≤ y) :
    (daysBeforeYear y : Int) + 59 + leapDays y =
      365 * (y : Int) + (y : Int) / 4 - (y : Int) / 100 + (y : Int) / 400 - 719468 := by
  have hdays := daysBeforeYear_eq h
  have hcount := leapDays_eq y
  linarith

/-- The days before the first of January after it. -/
theorem daysBeforeJanuary (y : Nat) (h : 1969 ≤ y) : (daysBeforeYear (y + 1) : Int) =
    365 * (y : Int) + (y : Int) / 4 - (y : Int) / 100 + (y : Int) / 400 - 719162 := by
  have hdays := daysBeforeYear_eq (y := y + 1) (by omega)
  rwa [Nat.cast_add, Nat.cast_one, Int.add_sub_cancel] at hdays

/-- A day of a year that begins in March has the date that the calendar gives it. The first of
January 1970 is day 306 of the year before. -/
theorem dateOf_spec (y : Nat) {doy : Int} (h0 : 0 ≤ doy) (h1 : doy ≤ 365)
    (hleap : doy = 365 → leapDays (y + 1) = 1) (hstart : 1970 ≤ y ∨ y = 1969 ∧ 306 ≤ doy) :
    ∃ yr mo d : Nat, dateOf y doy = { yr, mo, d } ∧ 1970 ≤ yr ∧ 1 ≤ mo ∧ mo ≤ 12 ∧ 1 ≤ d ∧
      d ≤ monthLength yr mo ∧
      ((daysBeforeYear yr + daysBeforeMonth yr mo + (d - 1) : Nat) : Int) =
        365 * (y : Int) + (y : Int) / 4 - (y : Int) / 100 + (y : Int) / 400 + doy - 719468 := by
  have hdiv : (5 * doy + 2).tdiv 153 = (5 * doy + 2) / 153 :=
    Int.tdiv_eq_ediv_of_nonneg (by omega)
  obtain ⟨hlow, hhigh, hbegun, hend, hbegin⟩ := monthOf_cases h0 h1 rfl
  have hday : (153 * ((5 * doy + 2) / 153) + 2).tdiv 5 = (153 * ((5 * doy + 2) / 153) + 2) / 5 :=
    Int.tdiv_eq_ediv_of_nonneg (by omega)
  rw [dateOf]
  simp only [hdiv, hday]
  have hfebruary : 306 ≤ doy → 10 ≤ (5 * doy + 2) / 153 := by omega
  generalize (5 * doy + 2) / 153 = mp at *
  by_cases hmarch : mp < 10
  · -- From March to December, in the year itself.
    have hyear : 1970 ≤ y := by omega
    have hlength := monthLength_march y hlow hmarch
    have hbefore := daysBeforeMonth_march y hlow hmarch
    have hdays := daysBeforeMarch y hyear
    generalize (153 * mp + 2) / 5 = begun at *
    obtain ⟨d, hd⟩ : ∃ d : Nat, (d : Int) = doy - begun + 1 :=
      ⟨(doy - begun + 1).toNat, Int.toNat_of_nonneg (by omega)⟩
    obtain ⟨mo, hmo⟩ : ∃ mo : Nat, (mo : Int) = mp + 3 :=
      ⟨(mp + 3).toNat, Int.toNat_of_nonneg (by omega)⟩
    rw [← hmo, Int.toNat_natCast] at hlength hbefore
    refine ⟨y, mo, d, ?_, hyear, by omega, by omega, by omega, by omega, ?_⟩
    · rw [if_pos hmarch, if_neg (by omega), hmo, hd]
    · rw [Nat.cast_add, Nat.cast_add, hbefore, Nat.cast_sub (by omega), hd]
      push_cast
      linarith
  · -- January and February, in the next one.
    have hdays := daysBeforeJanuary y (by omega)
    have hcases : mp = 10 ∨ mp = 11 := by omega
    rcases hcases with rfl | rfl
    · have hmonth : daysBeforeMonth (y + 1) 1 = 0 := rfl
      have hlength : monthLength (y + 1) 1 = 31 := rfl
      obtain ⟨d, hd⟩ : ∃ d : Nat, (d : Int) = doy - (153 * 10 + 2) / 5 + 1 :=
        ⟨(doy - (153 * 10 + 2) / 5 + 1).toNat, Int.toNat_of_nonneg (by omega)⟩
      refine ⟨y + 1, 1, d, ?_, by omega, by decide, by decide, by omega, by omega, ?_⟩
      · rw [hd]
        rfl
      · rw [hmonth, Nat.add_zero, Nat.cast_add, hdays, Nat.cast_sub (by omega), hd]
        push_cast
        linarith
    · have hmonth : daysBeforeMonth (y + 1) 2 = 31 := rfl
      have hlength : monthLength (y + 1) 2 = 28 + leapDays (y + 1) := rfl
      obtain ⟨d, hd⟩ : ∃ d : Nat, (d : Int) = doy - (153 * 11 + 2) / 5 + 1 :=
        ⟨(doy - (153 * 11 + 2) / 5 + 1).toNat, Int.toNat_of_nonneg (by omega)⟩
      refine ⟨y + 1, 2, d, ?_, by omega, by decide, by decide, by omega, by omega, ?_⟩
      · rw [hd]
        rfl
      · rw [hmonth, Nat.cast_add, Nat.cast_add, hdays, Nat.cast_sub (by omega), hd]
        push_cast
        linarith

/-- The last year of a group of four is before a leap year, unless it is the last of a century that
is not the last of four. -/
theorem leapDays_of_last {y : Nat} {c q era : Int} (hc0 : 0 ≤ c) (hc3 : c ≤ 3) (hq0 : 0 ≤ q)
    (hq24 : q ≤ 24) (hcycle : q = 24 → c = 3)
    (hy : (y : Int) = 100 * c + 4 * q + 3 + era * 400) : leapDays (y + 1) = 1 := by
  have hcount := leapDays_eq (y + 1)
  have hsucc : ((y + 1 : Nat) : Int) - 1 = y := by omega
  have hnext : ((y + 1 : Nat) : Int) = 4 * (100 * era + 25 * c + q + 1) := by omega
  have h4 : (y : Int) / 4 = 100 * era + 25 * c + q := by clear hcount hcycle hnext; omega
  have h100 : (y : Int) / 100 = 4 * era + c := by clear hcount hcycle hnext; omega
  have h400 : (y : Int) / 400 = era := by clear hcount hcycle hnext; omega
  rw [hsucc, hnext, h4, h100, h400] at hcount
  clear hsucc hnext h4 h100 h400 hy
  rcases eq_or_ne q 24 with rfl | hq
  · obtain rfl := hcycle rfl
    omega
  · clear hcycle
    omega

/-- The date of a day is the calendar's. -/
theorem civil_spec {days : Int} (h : 0 ≤ days) :
    ∃ yr mo d : Nat, civil days = { yr, mo, d } ∧ 1970 ≤ yr ∧ 1 ≤ mo ∧ mo ≤ 12 ∧ 1 ≤ d ∧
      d ≤ monthLength yr mo ∧
      ((daysBeforeYear yr + daysBeforeMonth yr mo + (d - 1) : Nat) : Int) = days := by
  have hera : 4 ≤ (days + 719468) / 146097 := by omega
  have hsplit := Int.mul_ediv_add_emod (days + 719468) 146097
  obtain ⟨c, q, k, doy, hc0, hc3, hq0, hq24, hk0, hk3, hd0, hd, hlast, hdoe, hyoe⟩ :=
    yearOfEra_cases (Int.emod_nonneg (days + 719468) (b := 146097) (by decide))
      (Int.emod_lt_of_pos (days + 719468) (by decide))
  rw [civil]
  simp only [hyoe]
  generalize (days + 719468) / 146097 = era at *
  generalize (days + 719468) % 146097 = doe at *
  obtain ⟨y, hy⟩ : ∃ y : Nat, (y : Int) = 100 * c + 4 * q + k + era * 400 :=
    ⟨(100 * c + 4 * q + k + era * 400).toNat, Int.toNat_of_nonneg (by omega)⟩
  have hfourth : (100 * c + 4 * q + k).tdiv 4 = 25 * c + q := by
    rw [Int.tdiv_eq_ediv_of_nonneg (by omega)]
    omega
  have hcentury : (100 * c + 4 * q + k).tdiv 100 = c := by
    rw [Int.tdiv_eq_ediv_of_nonneg (by omega)]
    omega
  have hdoy : doe - (365 * (100 * c + 4 * q + k) + (100 * c + 4 * q + k).tdiv 4 -
      (100 * c + 4 * q + k).tdiv 100) = doy := by
    rw [hfourth, hcentury]
    omega
  have h4 : (y : Int) / 4 = 100 * era + 25 * c + q := by omega
  have h100 : (y : Int) / 100 = 4 * era + c := by omega
  have h400 : (y : Int) / 400 = era := by omega
  have hleap : doy = 365 → leapDays (y + 1) = 1 := by
    intro hfull
    obtain ⟨rfl, hcycle⟩ := hlast hfull
    exact leapDays_of_last hc0 hc3 hq0 hq24 hcycle hy
  rw [hdoy, ← hy]
  obtain ⟨yr, mo, d, hdate, hyr, hmo, hmo', hd1, hd2, hnumber⟩ :=
    dateOf_spec y hd0 hd hleap (by omega)
  refine ⟨yr, mo, d, hdate, hyr, hmo, hmo', hd1, hd2, ?_⟩
  rw [hnumber, h4, h100, h400, hy]
  linarith

/-! ### The text -/

theorem zeroPadded_natCast (width n : Nat) : zeroPadded width (n : Int) = padded width n := by
  have hsign : ¬(n : Int) < 0 := by omega
  simp [zeroPadded, padded, hsign]

/-- The seconds of an `i64`. -/
theorem toInt64_toInt {epoch : UInt64} (h : epoch.toNat < 9223372036854775808) :
    epoch.toInt64.toInt = epoch.toNat := by
  show epoch.toBitVec.toInt = _
  rw [BitVec.toInt_eq_toNat_of_lt]
  · rfl
  · show 2 * epoch.toNat < 18446744073709551616
    omega

/-- The seconds of a day. -/
theorem time_cases (time : Nat) (h : time < 86400) :
    (time : Int).tdiv 3600 = (time / 3600 : Nat) ∧
      ((time : Int).tmod 3600).tdiv 60 = (time % 3600 / 60 : Nat) ∧
      (time : Int).tmod 60 = (time % 60 : Nat) ∧
      time / 3600 < 24 ∧ time % 3600 / 60 < 60 ∧ time % 60 < 60 ∧
      3600 * (time / 3600) + 60 * (time % 3600 / 60) + time % 60 = time := by
  refine ⟨?_, ?_, ?_, ?_, ?_, ?_, ?_⟩
  · rw [Int.tdiv_eq_ediv_of_nonneg (by omega)]
    omega
  · rw [Int.tmod_eq_emod_of_nonneg (by omega), Int.tdiv_eq_ediv_of_nonneg (by omega)]
    omega
  · rw [Int.tmod_eq_emod_of_nonneg (by omega)]
    omega
  all_goals omega

/-- **The printed time is the proleptic Gregorian one**: the text is that of a date and time that
exist, its numbers are read back from it, and counting the days and seconds up to it gives the
epoch. -/
theorem deviceDatetime_eq (epoch : UInt64) (h : epoch.toNat < 9223372036854775808) :
    ∃ t : DateTime, deviceDatetime epoch = t.text ∧ fieldsOf (deviceDatetime epoch) = t.fields ∧
      t.epoch = epoch.toNat := by
  have hsecs := toInt64_toInt h
  have hdays : (epoch.toNat : Int).tdiv 86400 = (epoch.toNat / 86400 : Nat) := by
    rw [Int.tdiv_eq_ediv_of_nonneg (by omega)]
    omega
  have htime : (epoch.toNat : Int).tmod 86400 = (epoch.toNat % 86400 : Nat) := by
    rw [Int.tmod_eq_emod_of_nonneg (by omega)]
    omega
  obtain ⟨hh, hm, hs, hour, minute, second, hsum⟩ :=
    time_cases (epoch.toNat % 86400) (Nat.mod_lt _ (by decide))
  have hstart : (0 : Int) ≤ (epoch.toNat / 86400 : Nat) := by omega
  obtain ⟨yr, mo, d, hdate, hyr, hmo, hmo', hd, hd', hnumber⟩ := civil_spec hstart
  let t : DateTime :=
    { year := yr, month := mo, day := d, hour := epoch.toNat % 86400 / 3600
      minute := epoch.toNat % 86400 % 3600 / 60, second := epoch.toNat % 86400 % 60
      year_ge := hyr, month_pos := hmo, month_le := hmo', day_pos := hd, day_le := hd'
      hour_lt := hour, minute_lt := minute, second_lt := second }
  have htext : deviceDatetime epoch = t.text := by
    rw [deviceDatetime]
    simp only [hsecs, hdays, htime, hdate, hh, hm, hs, zeroPadded_natCast]
    rfl
  refine ⟨t, htext, ?_, ?_⟩
  · rw [htext, fieldsOf_text]
  · have hday : t.dayNumber = epoch.toNat / 86400 := by
      have hcast : (t.dayNumber : Int) = (epoch.toNat / 86400 : Nat) := hnumber
      exact_mod_cast hcast
    show 86400 * t.dayNumber + 3600 * (epoch.toNat % 86400 / 3600) +
      60 * (epoch.toNat % 86400 % 3600 / 60) + epoch.toNat % 86400 % 60 = epoch.toNat
    rw [hday]
    omega

/-- The second time of the repository's test. -/
theorem deviceDatetime_october : ∃ t : DateTime, deviceDatetime 1790844311 = t.text ∧
    fieldsOf "2026-10-01T08:45:11" = t.fields ∧ t.epoch = 1790844311 := by
  have htext : deviceDatetime 1790844311 = "2026-10-01T08:45:11" := by decide +kernel
  obtain ⟨t, h⟩ := deviceDatetime_eq 1790844311 (by decide)
  rw [htext] at h
  exact ⟨t, by rw [htext]; exact h⟩

end OpenUI.Agent.CsvUtils
