/-!
# Dates and times of day

A `DateTime` is a date of the Gregorian calendar together with a time of day, to
the second. `IsDate` and `IsTime` say which fields form one: months have their
own lengths, February has a twenty-ninth day in leap years, and a minute may have
a sixtieth second.
-/

namespace Harvest

/-- A date and a time of day. -/
structure DateTime where
  year : Int
  month : Nat
  day : Nat
  hour : Nat
  minute : Nat
  second : Nat
  deriving DecidableEq, Repr

namespace Calendar

/-- A leap year: every fourth, of the centuries only every fourth. -/
def IsLeap (year : Int) : Prop := year % 4 = 0 ∧ (year % 100 ≠ 0 ∨ year % 400 = 0)

instance (year : Int) : Decidable (IsLeap year) := by unfold IsLeap; infer_instance

/-- The number of days of a month, zero when there is no such month. -/
def daysInMonth (year : Int) (month : Nat) : Nat :=
  if month = 2 then if IsLeap year then 29 else 28
  else if month = 4 ∨ month = 6 ∨ month = 9 ∨ month = 11 then 30
  else if 1 ≤ month ∧ month ≤ 12 then 31
  else 0

/-- The years the calendar reaches to. -/
def IsYear (year : Int) : Prop := -262143 ≤ year ∧ year ≤ 262142

instance (year : Int) : Decidable (IsYear year) := by unfold IsYear; infer_instance

/-- Year, month and day form a date. -/
def IsDate (year : Int) (month day : Nat) : Prop :=
  IsYear year ∧ 1 ≤ day ∧ day ≤ daysInMonth year month

instance (year : Int) (month day : Nat) : Decidable (IsDate year month day) := by
  unfold IsDate; infer_instance

/-- Hour, minute and second form a time of day, the sixtieth second being a leap second. -/
def IsTime (hour minute second : Nat) : Prop := hour ≤ 23 ∧ minute ≤ 59 ∧ second ≤ 60

instance (hour minute second : Nat) : Decidable (IsTime hour minute second) := by
  unfold IsTime; infer_instance

/-- A month that has a day is one of the twelve. -/
theorem month_le_of_le_daysInMonth (year : Int) (month day : Nat) (h₁ : 1 ≤ day)
    (h₂ : day ≤ daysInMonth year month) : 1 ≤ month ∧ month ≤ 12 := by
  unfold daysInMonth at h₂
  split at h₂
  · omega
  · split at h₂
    · omega
    · split at h₂ <;> omega

/-- No month is longer than thirty-one days. -/
theorem daysInMonth_le (year : Int) (month : Nat) : daysInMonth year month ≤ 31 := by
  unfold daysInMonth
  split
  · split <;> omega
  · split
    · omega
    · split <;> omega

end Calendar

/-- The fields of `t` form a date and a time of day. -/
def DateTime.Valid (t : DateTime) : Prop :=
  Calendar.IsDate t.year t.month t.day ∧ Calendar.IsTime t.hour t.minute t.second

instance (t : DateTime) : Decidable t.Valid := by unfold DateTime.Valid; infer_instance

end Harvest
