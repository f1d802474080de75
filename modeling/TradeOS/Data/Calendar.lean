import Mathlib.Data.Nat.Find
import Mathlib.Order.Monotone.Basic
import Mathlib.Tactic.IntervalCases

/-!
# Days and months of the Gregorian calendar

Days are numbered from the first of January of year 1, months from the January of
that year: month `m` belongs to year `m / 12 + 1`. `monthStart` counts the days
before a month, year by year and month by month, and `monthIndex` is the month of a
day.

The two are adjoint: a month starts by a given day exactly when it is at most the
month of that day (`monthStart_le_iff`). This is all that clients use. A point in
time is a number of microseconds in the years 1 to 9999.
-/

set_option autoImplicit false

namespace TradeOS.Calendar

/-- The leap years. -/
def isLeap (year : ℕ) : Bool := year % 4 = 0 ∧ (year % 100 ≠ 0 ∨ year % 400 = 0)

/-- The number of days of the first `years` years. -/
def daysOfYears (years : ℕ) : ℕ := years * 365 + years / 4 - years / 100 + years / 400

/-- The days of a common year before each month. -/
def daysBeforeMonth : List ℕ := [0, 31, 59, 90, 120, 151, 181, 212, 243, 273, 304, 334]

/-- The first day of a month. -/
def monthStart (m : ℕ) : ℕ :=
  daysOfYears (m / 12) + daysBeforeMonth.getD (m % 12) 0 +
    if 2 ≤ m % 12 ∧ isLeap (m / 12 + 1) then 1 else 0

/-- The number of years before the year of a day. -/
def yearsBefore (day : ℕ) : ℕ := Nat.findGreatest (fun years => daysOfYears years ≤ day) (day / 365)

/-- The month of a day. -/
def monthIndex (day : ℕ) : ℕ :=
  Nat.findGreatest (fun m => monthStart m ≤ day) (12 * yearsBefore day + 11)

/-! ## The adjunction -/

theorem daysOfYears_succ (years : ℕ) : daysOfYears years + 365 ≤ daysOfYears (years + 1) := by
  unfold daysOfYears
  omega

theorem le_daysOfYears (years : ℕ) : years * 365 ≤ daysOfYears years := by
  unfold daysOfYears
  omega

theorem monthStart_twelve (years : ℕ) : monthStart (12 * years) = daysOfYears years := by
  have month : 12 * years % 12 = 0 := by omega
  have year : 12 * years / 12 = years := by omega
  simp [monthStart, month, year, daysBeforeMonth]

/-- Every month has a day. -/
theorem monthStart_lt_succ (m : ℕ) : monthStart m < monthStart (m + 1) := by
  obtain ⟨years, month, small, rfl⟩ : ∃ years month, month < 12 ∧ m = 12 * years + month :=
    ⟨m / 12, m % 12, Nat.mod_lt m (by norm_num), by omega⟩
  by_cases last : month = 11
  · subst last
    have next : 12 * years + 11 + 1 = 12 * (years + 1) := by omega
    have longer := daysOfYears_succ years
    have here : monthStart (12 * years + 11) ≤ daysOfYears years + 335 := by
      have month : (12 * years + 11) % 12 = 11 := by omega
      have year : (12 * years + 11) / 12 = years := by omega
      rw [monthStart, month, year]
      split
      · simp [daysBeforeMonth]
      · simp [daysBeforeMonth]
    rw [next, monthStart_twelve]
    omega
  · have here : (12 * years + month) % 12 = month := by omega
    have next : (12 * years + month + 1) % 12 = month + 1 := by omega
    have year : (12 * years + month) / 12 = years := by omega
    have nextYear : (12 * years + month + 1) / 12 = years := by omega
    rw [monthStart, monthStart, here, next, year, nextYear]
    -- The leap day is counted from March on, so a later month never loses it.
    cases isLeap (years + 1) <;> interval_cases month <;> simp_all [daysBeforeMonth]

theorem monthStart_strictMono : StrictMono monthStart := strictMono_nat_of_lt_succ monthStart_lt_succ

/-- A day lies in the year it is given. -/
theorem yearsBefore_spec (day : ℕ) :
    daysOfYears (yearsBefore day) ≤ day ∧ day < daysOfYears (yearsBefore day + 1) := by
  have first : daysOfYears 0 ≤ day := Nat.zero_le day
  refine ⟨Nat.findGreatest_spec (P := fun years => daysOfYears years ≤ day) (Nat.zero_le _) first,
    ?_⟩
  by_contra later
  have bound := (le_daysOfYears (yearsBefore day + 1)).trans (not_lt.mp later)
  have within : yearsBefore day + 1 ≤ day / 365 := (Nat.le_div_iff_mul_le (by norm_num)).mpr bound
  exact Nat.findGreatest_is_greatest (Nat.lt_succ_self _) within (not_lt.mp later)

/-- **A month starts by a day exactly when it is at most the month of that day.** -/
theorem monthStart_le_iff (m day : ℕ) : monthStart m ≤ day ↔ m ≤ monthIndex day := by
  obtain ⟨started, ended⟩ := yearsBefore_spec day
  constructor
  · intro starts
    refine Nat.le_findGreatest ?_ starts
    by_contra beyond
    have later : 12 * (yearsBefore day + 1) ≤ m := by omega
    have next := monthStart_strictMono.monotone later
    rw [monthStart_twelve] at next
    omega
  · intro small
    have spec : monthStart (monthIndex day) ≤ day :=
      Nat.findGreatest_spec (P := fun m => monthStart m ≤ day)
        (Nat.le_add_right (12 * yearsBefore day) 11) (by rw [monthStart_twelve]; exact started)
    exact (monthStart_strictMono.monotone small).trans spec

theorem monthIndex_mono : Monotone monthIndex := by
  intro first second earlier
  rw [← monthStart_le_iff]
  exact ((monthStart_le_iff _ _).mpr (le_refl _)).trans earlier

theorem monthIndex_monthStart (m : ℕ) : monthIndex (monthStart m) = m := by
  refine le_antisymm ?_ ((monthStart_le_iff _ _).mp (le_refl _))
  exact monthStart_strictMono.le_iff_le.mp ((monthStart_le_iff _ _).mpr (le_refl _))

/-- The days of a month. -/
theorem monthIndex_eq_of_mem {m day : ℕ} (starts : monthStart m ≤ day)
    (ends : day < monthStart (m + 1)) : monthIndex day = m := by
  refine le_antisymm ?_ ((monthStart_le_iff _ _).mp starts)
  by_contra later
  exact absurd ((monthStart_le_iff _ _).mpr (not_le.mp later)) (not_le.mpr ends)

/-! ## Points in time -/

/-- The microseconds of a day. -/
def dayMicros : ℕ := 86400000000

/-- The first microsecond after year 9999. -/
def maxMicros : ℕ := daysOfYears 9999 * dayMicros

/-- A point in time: the microseconds since the start of year 1. -/
@[ext] structure DateTime where
  micros : ℕ
  inRange : micros < maxMicros
  deriving DecidableEq

theorem maxMicros_pos : 0 < maxMicros := by decide

namespace DateTime

/-- The time that is some microseconds after the start of a day of the calendar. -/
def ofDay (day micros : ℕ) : DateTime :=
  ⟨(day * dayMicros + micros) % maxMicros, Nat.mod_lt _ maxMicros_pos⟩

/-- The day of a point in time. -/
def day (time : DateTime) : ℕ := time.micros / dayMicros

/-- The month of a point in time. -/
def month (time : DateTime) : ℕ := monthIndex time.day

/-- The time after an interval, if it is still in range. -/
def add (time : DateTime) (interval : ℕ) : Option DateTime :=
  if inRange : time.micros + interval < maxMicros then some ⟨time.micros + interval, inRange⟩
  else none

/-- The earlier of two points in time. -/
def earlier (first second : DateTime) : DateTime :=
  if first.micros ≤ second.micros then first else second

theorem earlier_micros (first second : DateTime) :
    (earlier first second).micros = min first.micros second.micros := by
  unfold earlier
  split
  · rename_i before
    exact (min_eq_left before).symm
  · rename_i after
    exact (min_eq_right (not_le.mp after).le).symm

theorem day_mono {first second : DateTime} (before : first.micros ≤ second.micros) :
    first.day ≤ second.day :=
  Nat.div_le_div_right before

theorem month_mono {first second : DateTime} (before : first.micros ≤ second.micros) :
    first.month ≤ second.month :=
  monthIndex_mono (day_mono before)

end DateTime

/-- A datetime as a caller gives it: naive, or with a zone. It shows a time. -/
inductive Moment where
  | naive (time : DateTime)
  | aware (time : DateTime)
  deriving DecidableEq

/-- The last month of year 9999. -/
def lastMonth : ℕ := 12 * 9999 - 1

/-- The last day of year 9999. -/
def lastDay : ℕ := daysOfYears 9999 - 1

theorem DateTime.month_le_lastMonth (time : DateTime) : time.month ≤ lastMonth := by
  by_contra beyond
  have next : monthStart (12 * 9999) ≤ time.day :=
    (monthStart_le_iff _ _).mpr (Nat.succ_le_of_lt (not_le.mp beyond))
  have inside : time.day < daysOfYears 9999 := Nat.div_lt_of_lt_mul (by
    rw [Nat.mul_comm]
    exact time.inRange)
  rw [monthStart_twelve] at next
  exact absurd inside (not_lt.mpr next)

end TradeOS.Calendar
