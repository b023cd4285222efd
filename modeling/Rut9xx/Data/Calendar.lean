import Mathlib.Data.Int.Order.Basic

namespace Rut9xx.Data

/-! # The Gregorian calendar, by months counted from January of the year 0

Days are counted from 1970-01-01.
-/

def IsLeap (year : Int) : Prop := year % 4 = 0 ∧ (year % 100 ≠ 0 ∨ year % 400 = 0)

instance (year : Int) : Decidable (IsLeap year) := inferInstanceAs (Decidable (_ ∧ _))

def yearStart (year : Int) : Int :=
  365 * year + (year + 3) / 4 - (year + 99) / 100 + (year + 399) / 400 - 719528

/-- Days of a common year before its month `mon`, January being 0. -/
def daysBefore (mon : Int) : Int :=
  if mon < 6 then
    if mon < 3 then if mon = 0 then 0 else if mon = 1 then 31 else 59
    else if mon = 3 then 90 else if mon = 4 then 120 else 151
  else if mon < 9 then if mon = 6 then 181 else if mon = 7 then 212 else 243
  else if mon = 9 then 273 else if mon = 10 then 304 else 334

def leapDay (year mon : Int) : Int := if IsLeap year ∧ 2 ≤ mon then 1 else 0

def monthStart (month : Int) : Int :=
  yearStart (month / 12) + daysBefore (month % 12) + leapDay (month / 12) (month % 12)

def monthLength (month : Int) : Int := monthStart (month + 1) - monthStart month

theorem mon_cases (month : Int) : ∃ year mon, month / 12 = year ∧ month % 12 = mon ∧
    month = 12 * year + mon ∧ 0 ≤ mon ∧ mon < 12 := ⟨_, _, rfl, rfl, by omega, by omega, by omega⟩

theorem yearStart_succ (year : Int) :
    yearStart (year + 1) = yearStart year + 365 + if IsLeap year then 1 else 0 := by
  by_cases leap : IsLeap year
  · rw [if_pos leap]
    unfold IsLeap at leap
    unfold yearStart
    omega
  · rw [if_neg leap]
    unfold IsLeap at leap
    unfold yearStart
    omega

theorem monthLength_bounds (month : Int) : 28 ≤ monthLength month ∧ monthLength month ≤ 31 := by
  obtain ⟨year, mon, yearIs, monIs, whole, lower, upper⟩ := mon_cases month
  have next := yearStart_succ year
  unfold monthLength monthStart
  by_cases wrap : mon = 11
  · have nextYear : (month + 1) / 12 = year + 1 := by omega
    have nextMon : (month + 1) % 12 = 0 := by omega
    rw [nextYear, nextMon, yearIs, monIs, next, wrap]
    unfold leapDay daysBefore
    by_cases leap : IsLeap year <;> simp [leap] <;> omega
  · have nextYear : (month + 1) / 12 = year := by omega
    have nextMon : (month + 1) % 12 = mon + 1 := by omega
    rw [nextYear, nextMon, yearIs, monIs]
    have months : mon = 0 ∨ mon = 1 ∨ mon = 2 ∨ mon = 3 ∨ mon = 4 ∨ mon = 5 ∨ mon = 6 ∨ mon = 7 ∨
        mon = 8 ∨ mon = 9 ∨ mon = 10 := by omega
    unfold leapDay
    by_cases leap : IsLeap year <;>
      rcases months with rfl | rfl | rfl | rfl | rfl | rfl | rfl | rfl | rfl | rfl | rfl <;>
      simp [leap, daysBefore] <;> omega

theorem monthStart_add (month : Int) (count : Nat) :
    monthStart month + 28 * count ≤ monthStart (month + count) := by
  induction count with
  | zero => simp
  | succ count ih =>
      have step := (monthLength_bounds (month + count)).1
      simp only [monthLength] at step
      rw [show month + ((count + 1 : Nat) : Int) = month + count + 1 by omega]
      omega

theorem monthStart_lt {first second : Int} (before : first < second) :
    monthStart first + 28 ≤ monthStart second := by
  have apart := monthStart_add first (second - first).toNat
  rw [show first + ((second - first).toNat : Int) = second by omega] at apart
  omega

/-- The month a day falls in; dividing by the mean length is off by at most one month. -/
def monthOf (day : Int) : Int :=
  let guess := (day + 719528) * 4800 / 146097
  if day < monthStart guess then guess - 1
  else if monthStart (guess + 1) ≤ day then guess + 1
  else guess

theorem daysBefore_mean {mon : Int} (lower : 0 ≤ mon) (upper : mon < 12) :
    146097 * mon - 4800 * 3 ≤ 4800 * daysBefore mon ∧
      4800 * daysBefore mon ≤ 146097 * mon + 4800 * 3 := by
  have months : mon = 0 ∨ mon = 1 ∨ mon = 2 ∨ mon = 3 ∨ mon = 4 ∨ mon = 5 ∨ mon = 6 ∨ mon = 7 ∨
      mon = 8 ∨ mon = 9 ∨ mon = 10 ∨ mon = 11 := by omega
  rcases months with rfl | rfl | rfl | rfl | rfl | rfl | rfl | rfl | rfl | rfl | rfl | rfl <;>
    decide

/-- Months start where the mean month length puts them, give or take a week. -/
theorem monthStart_mean (month : Int) :
    146097 * month - 4800 * 7 ≤ 4800 * (monthStart month + 719528) ∧
      4800 * (monthStart month + 719528) ≤ 146097 * month + 4800 * 7 := by
  obtain ⟨year, mon, yearIs, monIs, whole, lower, upper⟩ := mon_cases month
  have months := daysBefore_mean lower upper
  have leapBounds : 0 ≤ leapDay year mon ∧ leapDay year mon ≤ 1 := by
    unfold leapDay
    split <;> omega
  unfold monthStart yearStart
  rw [yearIs, monIs]
  omega

theorem monthOf_spec (day : Int) :
    monthStart (monthOf day) ≤ day ∧ day < monthStart (monthOf day + 1) := by
  unfold monthOf
  generalize estimate : (day + 719528) * 4800 / 146097 = guess
  have before := (monthStart_mean (guess - 1)).2
  have after := (monthStart_mean (guess + 2)).1
  simp only
  split
  · rename_i early
    rw [Int.sub_add_cancel]
    omega
  · rename_i notEarly
    split
    · rename_i late
      rw [Int.add_assoc]
      simp only [Int.reduceAdd]
      omega
    · omega

theorem monthOf_unique {day month : Int} (lower : monthStart month ≤ day)
    (upper : day < monthStart (month + 1)) : monthOf day = month := by
  obtain ⟨below, above⟩ := monthOf_spec day
  by_cases early : monthOf day < month
  · have later : monthStart (monthOf day + 1) ≤ monthStart month := by
      by_cases next : monthOf day + 1 = month
      · rw [next]
      · have := @monthStart_lt (monthOf day + 1) month (by omega)
        omega
    omega
  · by_cases late : month < monthOf day
    · have earlier : monthStart (month + 1) ≤ monthStart (monthOf day) := by
        by_cases next : month + 1 = monthOf day
        · rw [next]
        · have := @monthStart_lt (month + 1) (monthOf day) (by omega)
          omega
      omega
    · omega

/-! ## Broken-down time -/

/-- The members of `struct tm`, with its ranges and its year 1900. -/
structure Tm where
  year : Int
  mon : Int
  mday : Int
  hour : Int
  min : Int
  sec : Int
  wday : Int

/-- The days since 1970 begin with a Thursday. -/
def weekday (day : Int) : Int := (day + 4) % 7

def localtime (gmtoff timestamp : Int) : Tm :=
  let day := (timestamp + gmtoff) / 86400
  let second := (timestamp + gmtoff) % 86400
  { year := monthOf day / 12 - 1900
    mon := monthOf day % 12
    mday := day - monthStart (monthOf day) + 1
    hour := second / 3600
    min := second / 60 % 60
    sec := second % 60
    wday := weekday day }

def Tm.month (tm : Tm) : Int := (tm.year + 1900) * 12 + tm.mon

def Tm.day (tm : Tm) : Int := monthStart tm.month + tm.mday - 1

/-- Months and days outside their ranges carry over. -/
def mktime (gmtoff : Int) (tm : Tm) : Int :=
  tm.day * 86400 + tm.hour * 3600 + tm.min * 60 + tm.sec - gmtoff

@[simp] theorem localtime_month (gmtoff timestamp : Int) :
    (localtime gmtoff timestamp).month = monthOf ((timestamp + gmtoff) / 86400) := by
  simp only [Tm.month, localtime]
  omega

end Rut9xx.Data
