/-!
# The calendar

Dates of the Gregorian calendar, extended back to the first of January of year one. The *ordinal*
of a date is the number of days between that first day and it: `Date.ordinal` counts it from the
fields of a date, and `Date.ofOrdinal` finds the fields again, by cycles of 400, 100, 4 and 1 years.
-/

namespace Catalog

/-- A day, by its year, month and day of the month. -/
structure Date where
  /-- The year, from one. -/
  year : Nat
  /-- The month, from one to twelve. -/
  month : Nat
  /-- The day of the month, from one. -/
  day : Nat
deriving DecidableEq, Repr

namespace Date

/-- A leap year: divisible by four, and by four hundred if by one hundred. -/
def isLeap (year : Nat) : Bool := year % 4 == 0 && (year % 100 != 0 || year % 400 == 0)

/-- The number of days of a month; there are none outside one to twelve. -/
def daysInMonth (year month : Nat) : Nat :=
  match month with
  | 1 | 3 | 5 | 7 | 8 | 10 | 12 => 31
  | 4 | 6 | 9 | 11 => 30
  | 2 => if isLeap year then 29 else 28
  | _ => 0

/-- A date that exists, up to the end of year 9999. -/
abbrev Valid (d : Date) : Prop :=
  1 ≤ d.year ∧ d.year ≤ 9999 ∧ 1 ≤ d.month ∧ d.month ≤ 12 ∧ 1 ≤ d.day ∧
    d.day ≤ daysInMonth d.year d.month

/-- The number of days of the years before a year. -/
def daysBeforeYear (year : Nat) : Nat :=
  let years := year - 1
  365 * years + years / 4 - years / 100 + years / 400

/-- The number of days of the first `months` months of a year. -/
def daysOfMonths (year : Nat) : Nat → Nat
  | 0 => 0
  | months + 1 => daysOfMonths year months + daysInMonth year (months + 1)

/-- The number of days between the first of January of year one and a date. -/
def ordinal (d : Date) : Nat :=
  daysBeforeYear d.year + daysOfMonths d.year (d.month - 1) + (d.day - 1)

/-- The number of days up to the end of year 9999. -/
def dayCount : Nat := 3652059

/-- The month, at or after `month`, and the day of it, that lie `days` days after the first of
    `month`; `left` months are left in the year after `month`. -/
def monthAndDay (year month days : Nat) : Nat → Nat × Nat
  | 0 => (month, days + 1)
  | left + 1 =>
    if days < daysInMonth year month then (month, days + 1)
    else monthAndDay year (month + 1) (days - daysInMonth year month) left

/-- The year of the day with an ordinal, and its number in that year, from zero. -/
def yearAndDay (n : Nat) : Nat × Nat :=
  let cycles400 := n / 146097
  let n := n % 146097
  let cycles100 := min (n / 36524) 3
  let n := n - 36524 * cycles100
  let cycles4 := n / 1461
  let n := n % 1461
  let years := min (n / 365) 3
  (400 * cycles400 + 100 * cycles100 + 4 * cycles4 + years + 1, n - 365 * years)

/-- The date with an ordinal. -/
def ofOrdinal (n : Nat) : Date :=
  let (year, days) := yearAndDay n
  let (month, day) := monthAndDay year 1 days 11
  { year, month, day }

example : ordinal ⟨9999, 12, 31⟩ + 1 = dayCount := by decide
example : ofOrdinal (ordinal ⟨2024, 2, 29⟩) = ⟨2024, 2, 29⟩ := by decide
example : ofOrdinal (ordinal ⟨1900, 3, 1⟩ - 1) = ⟨1900, 2, 28⟩ := by decide

/-- The date a number of months before another: the same day of the month, or the last one of a
    month that has fewer days. There is none before year one. -/
def monthsBefore? (d : Date) (months : Nat) : Option Date :=
  let index := 12 * d.year + (d.month - 1)
  if index < months + 12 then none
  else
    let year := (index - months) / 12
    let month := (index - months) % 12 + 1
    some { year, month, day := min d.day (daysInMonth year month) }

example : monthsBefore? ⟨2024, 3, 31⟩ 1 = some ⟨2024, 2, 29⟩ := by decide
example : monthsBefore? ⟨2024, 1, 31⟩ 14 = some ⟨2022, 11, 30⟩ := by decide

end Date

end Catalog
