import Rut9xx.Data.Calendar
import Mathlib.Tactic.SplitIfs
import Mathlib.Tactic.ByContra

namespace Rut9xx.Chilli

open Data

def periodDay : Int := 1
def periodWeek : Int := 2
def periodMonth : Int := 3

/-- `start_wday` and `wday` of `dbsession_data`: Sunday is day 7. -/
def mondayFirst (wday : Int) : Int := if wday = 0 then 7 else wday

/-- The `struct tm` that `dbsession_data` hands to `mktime`. -/
def windowTm (period start : Int) (timeNow : Tm) : Tm :=
  let timeNow := { timeNow with min := 0, sec := 0 }
  if period = periodMonth then
    { timeNow with
        mon := if start > timeNow.mday then timeNow.mon - 1 else timeNow.mon
        mday := start
        hour := 0 }
  else if period = periodWeek then
    let startWday := mondayFirst start
    let wday := mondayFirst timeNow.wday
    let mday :=
      if timeNow.wday ≠ start then
        if startWday > wday then timeNow.mday - (7 - startWday - wday)
        else timeNow.mday - (wday - startWday)
      else timeNow.mday
    { timeNow with mday := mday, hour := 0 }
  else if period = periodDay then
    { timeNow with
        mday := if start > timeNow.hour then timeNow.mday - 1 else timeNow.mday
        hour := start }
  else timeNow

/-- The bound on `start_time` in the query of `dbsession_data`. -/
def dbsessionWindow (gmtoff period start timestampNow : Int) : Int :=
  mktime gmtoff (windowTm period start (localtime gmtoff timestampNow))

/-! ## The boundaries of a period -/

def Admissible (period start : Int) : Prop :=
  (period = periodDay ∧ 0 ≤ start ∧ start < 24) ∨
    (period = periodWeek ∧ 0 ≤ start ∧ start < 7) ∨
      (period = periodMonth ∧ 1 ≤ start ∧ start ≤ 31)

def dayOfMonth (day : Int) : Int := day - monthStart (monthOf day) + 1

/-- The period begins on `day`. -/
def StartDay (period start day : Int) : Prop :=
  if period = periodMonth then dayOfMonth day = start
  else if period = periodWeek then weekday day = start
  else True

def startHour (period start : Int) : Int := if period = periodDay then start else 0

/-- A start day at its start hour, local time. -/
def Boundary (gmtoff period start instant : Int) : Prop :=
  ∃ day, StartDay period start day ∧
    instant = day * 86400 + startHour period start * 3600 - gmtoff

/-- The latest boundary that is not in the future: the next one has not come. -/
structure WindowStart (gmtoff period start now instant : Int) : Prop where
  boundary : Boundary gmtoff period start instant
  notFuture : instant ≤ now
  current : ∀ next, Boundary gmtoff period start next → instant < next → now < next

/-- In the week, Monday first, the start does not come after today; in the months, the
start day exists in the month it is looked for. -/
def WindowFound (gmtoff period start now : Int) : Prop :=
  let tm := localtime gmtoff now
  (period = periodWeek → mondayFirst start ≤ mondayFirst tm.wday) ∧
    (period = periodMonth → start ≤ tm.mday ∨ start ≤ monthLength (tm.month - 1))

variable {gmtoff period start now : Int}

def today (gmtoff now : Int) : Int := (now + gmtoff) / 86400

theorem windowTm_hour (admissible : Admissible period start) (timeNow : Tm) :
    (windowTm period start timeNow).hour = startHour period start ∧
      (windowTm period start timeNow).min = 0 ∧ (windowTm period start timeNow).sec = 0 := by
  rcases admissible with ⟨rfl, -⟩ | ⟨rfl, -⟩ | ⟨rfl, -⟩ <;>
    simp [windowTm, startHour, periodDay, periodWeek, periodMonth]

/-- With the hour settled, only the days are left to compare. -/
theorem windowStart_iff (admissible : Admissible period start) {day : Int}
    (computed : (windowTm period start (localtime gmtoff now)).day = day) :
    WindowStart gmtoff period start now (dbsessionWindow gmtoff period start now) ↔
      StartDay period start day ∧ day * 86400 + startHour period start * 3600 ≤ now + gmtoff ∧
        ∀ next, StartDay period start next → day < next →
          now + gmtoff < next * 86400 + startHour period start * 3600 := by
  obtain ⟨hour, min, sec⟩ := windowTm_hour admissible (localtime gmtoff now)
  have window : dbsessionWindow gmtoff period start now =
      day * 86400 + startHour period start * 3600 - gmtoff := by
    rw [dbsessionWindow, mktime, computed, hour, min, sec]
    omega
  constructor
  · intro found
    obtain ⟨other, isStart, same⟩ := found.boundary
    have sameDay : other = day := by omega
    refine ⟨sameDay ▸ isStart, by have := found.notFuture; omega, fun next nextStart later => ?_⟩
    have past := found.current _ ⟨next, nextStart, rfl⟩ (by omega)
    omega
  · intro found
    obtain ⟨isStart, past, latest⟩ := found
    refine ⟨⟨day, isStart, window⟩, by omega, ?_⟩
    rintro _ ⟨next, nextStart, rfl⟩ later
    have := latest next nextStart (by omega)
    omega

theorem dayWindow_found (lower : 0 ≤ start) (upper : start < 24) :
    WindowStart gmtoff periodDay start now (dbsessionWindow gmtoff periodDay start now) := by
  have computed : (windowTm periodDay start (localtime gmtoff now)).day =
      if start > (now + gmtoff) % 86400 / 3600 then today gmtoff now - 1 else today gmtoff now := by
    have whole := localtime_month gmtoff now
    simp only [Tm.month] at whole
    simp only [windowTm, periodDay, periodWeek, periodMonth, Tm.day, Tm.month]
    simp only [Int.reduceEq, if_false, if_true, whole]
    simp only [localtime, today]
    split <;> omega
  rw [windowStart_iff (Or.inl ⟨rfl, lower, upper⟩) computed]
  simp only [StartDay, startHour, today, periodDay, periodWeek, periodMonth, Int.reduceEq, if_false,
    if_true, true_and, forall_const]
  constructor
  · split <;> omega
  · intro next later
    split at later <;> omega

theorem weekWindow_iff (lower : 0 ≤ start) (upper : start < 7) :
    WindowStart gmtoff periodWeek start now (dbsessionWindow gmtoff periodWeek start now) ↔
      mondayFirst start ≤ mondayFirst (localtime gmtoff now).wday := by
  have wday : (localtime gmtoff now).wday = weekday (today gmtoff now) := rfl
  have computed : (windowTm periodWeek start (localtime gmtoff now)).day =
      if weekday (today gmtoff now) ≠ start then
        if mondayFirst start > mondayFirst (weekday (today gmtoff now)) then
          today gmtoff now - (7 - mondayFirst start - mondayFirst (weekday (today gmtoff now)))
        else today gmtoff now - (mondayFirst (weekday (today gmtoff now)) - mondayFirst start)
      else today gmtoff now := by
    have whole := localtime_month gmtoff now
    simp only [Tm.month] at whole
    simp only [windowTm, periodWeek, periodMonth, Tm.day, Tm.month]
    simp only [Int.reduceEq, if_false, if_true, whole]
    simp only [localtime, today]
    split_ifs <;> omega
  rw [windowStart_iff (Or.inr (Or.inl ⟨rfl, lower, upper⟩)) computed, wday]
  simp only [StartDay, startHour, periodDay, periodWeek, periodMonth, Int.reduceEq, if_false,
    if_true]
  have begun : today gmtoff now * 86400 ≤ now + gmtoff := by
    unfold today
    omega
  have notOver : now + gmtoff < today gmtoff now * 86400 + 86400 := by
    unfold today
    omega
  generalize today gmtoff now = day at begun notOver
  constructor
  · rintro ⟨isStart, -⟩
    simp only [weekday, mondayFirst] at isStart ⊢
    by_contra early
    split_ifs at isStart early <;> omega
  · intro inOrder
    refine ⟨?_, ?_, fun next isStart later => ?_⟩
    · simp only [weekday, mondayFirst] at inOrder ⊢
      split_ifs at inOrder ⊢ <;> omega
    · simp only [weekday, mondayFirst] at inOrder ⊢
      split_ifs at inOrder ⊢ <;> omega
    · simp only [weekday, mondayFirst] at isStart later inOrder ⊢
      split_ifs at later inOrder <;> omega

/-- A day of a month, counted from one. -/
theorem dayOfMonth_eq {month mday : Int} (positive : 1 ≤ mday) (exists_ : mday ≤ monthLength month) :
    monthOf (monthStart month + mday - 1) = month ∧
      dayOfMonth (monthStart month + mday - 1) = mday := by
  simp only [monthLength] at exists_
  have unique : monthOf (monthStart month + mday - 1) = month :=
    monthOf_unique (by omega) (by omega)
  refine ⟨unique, ?_⟩
  rw [dayOfMonth, unique]
  omega

/-- Two days of a month with the same number are one. -/
theorem day_unique {day other : Int} (sameMonth : monthOf day = monthOf other)
    (sameNumber : dayOfMonth day = dayOfMonth other) : day = other := by
  simp only [dayOfMonth, sameMonth] at sameNumber
  omega

theorem monthWindow_iff (lower : 1 ≤ start) (upper : start ≤ 31) :
    WindowStart gmtoff periodMonth start now (dbsessionWindow gmtoff periodMonth start now) ↔
      start ≤ (localtime gmtoff now).mday ∨
        start ≤ monthLength ((localtime gmtoff now).month - 1) := by
  have mday : (localtime gmtoff now).mday = dayOfMonth (today gmtoff now) := rfl
  have computed : (windowTm periodMonth start (localtime gmtoff now)).day =
      monthStart (if start > dayOfMonth (today gmtoff now) then monthOf (today gmtoff now) - 1
        else monthOf (today gmtoff now)) + start - 1 := by
    have whole := localtime_month gmtoff now
    simp only [Tm.month] at whole
    simp only [windowTm, Tm.day, Tm.month, if_true, mday]
    split
    · rw [← Int.add_sub_assoc, whole]
      rfl
    · rw [whole]
      rfl
  rw [windowStart_iff (Or.inr (Or.inr ⟨rfl, lower, upper⟩)) computed, mday, localtime_month]
  change _ ↔ start ≤ dayOfMonth (today gmtoff now) ∨
    start ≤ monthLength (monthOf (today gmtoff now) - 1)
  simp only [StartDay, startHour, periodDay, periodMonth, Int.reduceEq, if_false, if_true]
  have begun : today gmtoff now * 86400 ≤ now + gmtoff := by
    unfold today
    omega
  have notOver : now + gmtoff < today gmtoff now * 86400 + 86400 := by
    unfold today
    omega
  obtain ⟨inMonth, beforeNext⟩ := monthOf_spec (today gmtoff now)
  have numbered : dayOfMonth (today gmtoff now) =
      today gmtoff now - monthStart (monthOf (today gmtoff now)) + 1 := rfl
  generalize today gmtoff now = day at begun notOver inMonth beforeNext numbered
  generalize monthOf day = month at inMonth beforeNext numbered
  -- a start day after the window but not after today lies in this month
  have thisMonth (next : Int) (notBefore : monthStart month ≤ next) (notAfter : next ≤ day) :
      monthOf next = month := monthOf_unique notBefore (by omega)
  by_cases begunMonth : start ≤ dayOfMonth day
  · rw [if_neg (by omega)]
    obtain ⟨unique, number⟩ :=
      @dayOfMonth_eq month start lower (by simp only [monthLength]; omega)
    refine ⟨fun _ => Or.inl begunMonth, fun _ => ⟨number, by omega, fun next isStart later => ?_⟩⟩
    by_contra early
    have same := day_unique ((thisMonth next (by omega) (by omega)).trans unique.symm)
      (isStart.trans number.symm)
    omega
  · rw [if_pos (by omega)]
    have length : monthLength (month - 1) = monthStart month - monthStart (month - 1) := by
      rw [monthLength, Int.sub_add_cancel]
    by_cases dayExists : start ≤ monthLength (month - 1)
    · obtain ⟨unique, number⟩ := dayOfMonth_eq lower dayExists
      refine ⟨fun _ => Or.inr dayExists, fun _ => ⟨number, by omega, fun next isStart later => ?_⟩⟩
      by_contra early
      by_cases entered : monthStart month ≤ next
      · have here := thisMonth next entered (by omega)
        rw [dayOfMonth, here] at isStart
        omega
      · have there : monthOf next = month - 1 :=
          monthOf_unique (by omega) (by rw [Int.sub_add_cancel]; omega)
        have same := day_unique (there.trans unique.symm) (isStart.trans number.symm)
        omega
    · have bounds := monthLength_bounds (month - 1)
      have next := (monthLength_bounds month).1
      simp only [monthLength] at next
      have carried : monthOf (monthStart (month - 1) + start - 1) = month :=
        monthOf_unique (by omega) (by omega)
      refine ⟨fun found => ?_, fun either => ?_⟩
      · have isStart := found.1
        rw [dayOfMonth, carried] at isStart
        omega
      · rcases either with begunAfterAll | existsAfterAll
        · exact absurd begunAfterAll begunMonth
        · exact absurd existsAfterAll dayExists

theorem dbsessionWindow_iff (admissible : Admissible period start) :
    WindowStart gmtoff period start now (dbsessionWindow gmtoff period start now) ↔
      WindowFound gmtoff period start now := by
  rcases admissible with ⟨rfl, lower, upper⟩ | ⟨rfl, lower, upper⟩ | ⟨rfl, lower, upper⟩
  · simp only [WindowFound, periodDay, periodWeek, periodMonth, Int.reduceEq, false_implies,
      and_self, iff_true]
    exact dayWindow_found lower upper
  · rw [weekWindow_iff lower upper]
    simp only [WindowFound, periodWeek, periodMonth, Int.reduceEq, forall_const, false_implies,
      and_true]
  · rw [monthWindow_iff lower upper]
    simp only [WindowFound, periodWeek, periodMonth, Int.reduceEq, forall_const, false_implies,
      true_and]

/-- Wednesday the 7th of January 1970, weeks beginning on Monday. -/
theorem dbsessionWindow_iff_sample :
    WindowStart 0 periodWeek 1 (6 * 86400 + 40000) (dbsessionWindow 0 periodWeek 1 (6 * 86400 + 40000)) :=
  (dbsessionWindow_iff (Or.inr (Or.inl ⟨rfl, by decide, by decide⟩))).mpr
    ⟨fun _ => by decide, fun impossible => by cases impossible⟩

/-- On a Monday, weeks beginning on Sunday start tomorrow. -/
theorem sundayWindow_inFuture : Admissible periodWeek 0 ∧
    ¬ WindowStart 0 periodWeek 0 (4 * 86400 + 3600) (dbsessionWindow 0 periodWeek 0 (4 * 86400 + 3600)) := by
  refine ⟨Or.inr (Or.inl ⟨rfl, by decide, by decide⟩), fun found => ?_⟩
  have tomorrow : dbsessionWindow 0 periodWeek 0 (4 * 86400 + 3600) = 5 * 86400 := by decide
  have past := found.notFuture
  rw [tomorrow] at past
  exact absurd past (by decide)

end Rut9xx.Chilli
