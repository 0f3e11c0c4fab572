import Mathlib.Algebra.BigOperators.Group.List.Basic
import Mathlib.Order.Nat
import Mathlib.Tactic.IntervalCases

/-!
# `OpenUI.Calendar`: the proleptic Gregorian calendar

Dates from 1970 on and their day numbers, counted from the lengths of the years and months.

* `DateTime`: a date and a time of day that exist.
* `DateTime.epoch`: the seconds from the start of 1970.
* `DateTime.text`, `fieldsOf_text`: its usual spelling, and the numbers read back from it.
* `daysBeforeYear_eq`, `daysBeforeMonth_eq`: the sums in closed form.
-/

set_option autoImplicit false

namespace OpenUI.Calendar

/-- Every fourth year has a leap day, but of the centuries only every fourth. -/
def isLeap (y : Nat) : Bool := y % 4 == 0 && (y % 100 != 0 || y % 400 == 0)

/-- The leap days of a year. -/
def leapDays (y : Nat) : Nat := if isLeap y then 1 else 0

/-- The days of a year. -/
def yearLength (y : Nat) : Nat := 365 + leapDays y

/-- The days of a month. -/
def monthLength (y : Nat) : Nat → Nat
  | 2 => 28 + leapDays y
  | 4 | 6 | 9 | 11 => 30
  | 1 | 3 | 5 | 7 | 8 | 10 | 12 => 31
  | _ => 0

/-- The days from the start of 1970 to the start of a year. -/
def daysBeforeYear (y : Nat) : Nat :=
  ((List.range (y - 1970)).map fun i => yearLength (1970 + i)).sum

/-- The days of a year before a month. -/
def daysBeforeMonth (y m : Nat) : Nat :=
  ((List.range (m - 1)).map fun i => monthLength y (i + 1)).sum

/-- A date from 1970 on, and a time of day. -/
structure DateTime where
  year : Nat
  month : Nat
  day : Nat
  hour : Nat
  minute : Nat
  second : Nat
  year_ge : 1970 ≤ year
  month_pos : 1 ≤ month
  month_le : month ≤ 12
  day_pos : 1 ≤ day
  day_le : day ≤ monthLength year month
  hour_lt : hour < 24
  minute_lt : minute < 60
  second_lt : second < 60

namespace DateTime

/-- The day's number, from the first of January 1970. -/
def dayNumber (t : DateTime) : Nat :=
  daysBeforeYear t.year + daysBeforeMonth t.year t.month + (t.day - 1)

/-- The seconds from the start of 1970. -/
def epoch (t : DateTime) : Nat :=
  86400 * t.dayNumber + 3600 * t.hour + 60 * t.minute + t.second

/-- Its numbers. -/
def fields (t : DateTime) : List Nat := [t.year, t.month, t.day, t.hour, t.minute, t.second]

end DateTime

/-! ### The spelling -/

/-- A number with zeros in front, up to a width. -/
def padded (width n : Nat) : List Char :=
  List.replicate (width - (Nat.toDigits 10 n).length) '0' ++ Nat.toDigits 10 n

/-- `YYYY-MM-DDTHH:MM:SS`. -/
def DateTime.text (t : DateTime) : String :=
  String.ofList (padded 4 t.year ++ '-' :: (padded 2 t.month ++ '-' :: (padded 2 t.day ++ 'T' ::
    (padded 2 t.hour ++ ':' :: (padded 2 t.minute ++ ':' :: padded 2 t.second)))))

/-- The numbers between the separators. -/
def fieldsOf (s : String) : List Nat :=
  (s.toList.splitOnP fun c => !c.isDigit).map fun cs => Nat.ofDigitChars 10 cs 0

theorem isDigit_padded {width n : Nat} {c : Char} (h : c ∈ padded width n) : c.isDigit = true := by
  rcases List.mem_append.mp h with h | h
  · obtain rfl := List.eq_of_mem_replicate h
    rfl
  · exact Nat.isDigit_of_mem_toDigits (by decide) (by decide) h

@[simp]
theorem ofDigitChars_padded (width n : Nat) : Nat.ofDigitChars 10 (padded width n) 0 = n := by
  rw [padded, Nat.ofDigitChars_append, Nat.ofDigitChars_replicate_zero, Nat.mul_zero,
    Nat.ofDigitChars_ten_toDigits]

/-- The first number of a text, and the others. -/
theorem splitOnP_padded (width n : Nat) {sep : Char} (hsep : sep.isDigit = false)
    (rest : List Char) :
    (padded width n ++ sep :: rest).splitOnP (fun c => !c.isDigit) =
      padded width n :: rest.splitOnP fun c => !c.isDigit :=
  List.splitOnP_append_cons_of_forall_mem (fun c hc => by simp [isDigit_padded hc]) _
    (by simp [hsep]) _

theorem splitOnP_padded_last (width n : Nat) :
    (padded width n).splitOnP (fun c => !c.isDigit) = [padded width n] :=
  List.splitOnP_eq_singleton fun c hc => by simp [isDigit_padded hc]

/-- The numbers of a date and time are read back from its text. -/
theorem fieldsOf_text (t : DateTime) : fieldsOf t.text = t.fields := by
  rw [fieldsOf, DateTime.text, String.toList_ofList]
  rw [splitOnP_padded _ _ (by decide), splitOnP_padded _ _ (by decide),
    splitOnP_padded _ _ (by decide), splitOnP_padded _ _ (by decide),
    splitOnP_padded _ _ (by decide), splitOnP_padded_last]
  simp [DateTime.fields]

/-! ### Closed forms -/

/-- A leap day is counted where a fourth year begins, but not where a century does, unless it is a
fourth one. -/
theorem leapDays_eq (y : Nat) : (leapDays y : Int) =
    ((y : Int) / 4 - ((y : Int) - 1) / 4) - ((y : Int) / 100 - ((y : Int) - 1) / 100) +
      ((y : Int) / 400 - ((y : Int) - 1) / 400) := by
  unfold leapDays isLeap
  by_cases h4 : y % 4 = 0
  · by_cases h100 : y % 100 = 0
    · by_cases h400 : y % 400 = 0
      · simp only [h4, h100, h400]
        simp
        omega
      · have hnot : (y % 400 == 0) = false := by simpa using h400
        simp only [h4, h100, hnot]
        simp
        omega
    · have hnot : (y % 100 != 0) = true := by simpa using h100
      simp only [h4, hnot]
      simp
      omega
  · have hnot : (y % 4 == 0) = false := by simpa using h4
    simp only [hnot]
    simp
    omega

/-- The days before a year: 365 for each, and a leap day for every fourth, but not for the
centuries, unless they are fourth ones. 719162 days are before 1970. -/
theorem daysBeforeYear_eq {y : Nat} (h : 1970 ≤ y) : (daysBeforeYear y : Int) =
    365 * ((y : Int) - 1) + ((y : Int) - 1) / 4 - ((y : Int) - 1) / 100 +
      ((y : Int) - 1) / 400 - 719162 := by
  induction y, h using Nat.le_induction with
  | base => rfl
  | succ y hy ih =>
    have hstep : daysBeforeYear (y + 1) = daysBeforeYear y + yearLength y := by
      unfold daysBeforeYear
      rw [show y + 1 - 1970 = (y - 1970) + 1 by omega, List.range_succ, List.map_append,
        List.sum_append, List.map_singleton, List.sum_singleton,
        show 1970 + (y - 1970) = y by omega]
    rw [hstep, yearLength]
    push_cast
    -- what is left is linear in the quotients
    rw [ih, leapDays_eq y, Int.add_sub_cancel]
    generalize (y : Int) / 4 = a, (y : Int) / 100 = b, (y : Int) / 400 = c
    generalize ((y : Int) - 1) / 4 = a', ((y : Int) - 1) / 100 = b', ((y : Int) - 1) / 400 = c'
    omega

/-- The days before a month from March on: 31 and 30 in turns, but for August and January. -/
theorem daysBeforeMonth_eq (y : Nat) {m : Nat} (h3 : 3 ≤ m) (h12 : m ≤ 12) :
    daysBeforeMonth y m = 59 + leapDays y + (153 * (m - 3) + 2) / 5 := by
  interval_cases m <;> simp [daysBeforeMonth, List.range_succ, monthLength] <;> omega

end OpenUI.Calendar
