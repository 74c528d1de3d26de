import Catalog.Time.Calendar

/-!
# Instants

An instant is a point of time between the beginning of year one and the end of year 9999 of
universal time, to the microsecond. It is held as the number of microseconds since the beginning,
so instants are ordered as numbers; `Instant.date` and `Instant.clock` give its calendar fields.
Every operation that could leave the range says so by giving nothing.
-/

namespace Catalog

/-- A time of day, to the microsecond. -/
structure Clock where
  /-- The hour, below twenty-four. -/
  hour : Nat
  /-- The minute, below sixty. -/
  minute : Nat
  /-- The second, below sixty. -/
  second : Nat
  /-- The microsecond, below a million. -/
  micro : Nat
deriving DecidableEq, Repr

namespace Clock

/-- A time of day that exists. -/
abbrev Valid (c : Clock) : Prop :=
  c.hour < 24 ∧ c.minute < 60 ∧ c.second < 60 ∧ c.micro < 1000000

/-- The microseconds since midnight. -/
def micros (c : Clock) : Nat :=
  ((c.hour * 60 + c.minute) * 60 + c.second) * 1000000 + c.micro

/-- The time of day a number of microseconds after midnight. -/
def ofMicros (n : Nat) : Clock :=
  { hour := n / 3600000000, minute := n / 60000000 % 60, second := n / 1000000 % 60,
    micro := n % 1000000 }

theorem ofMicros_micros {c : Clock} (h : c.Valid) : ofMicros c.micros = c := by
  obtain ⟨hour, minute, second, micro⟩ := c
  simp only [Valid] at h
  simp only [ofMicros, micros, Clock.mk.injEq]
  omega

theorem micros_ofMicros (n : Nat) : (ofMicros n).micros = n := by
  simp only [ofMicros, micros]
  omega

end Clock

/-- The microseconds of a day. -/
def microsOfDay : Nat := 86400000000

/-- The microseconds from the beginning of year one to the end of year 9999. -/
def microsOfAll : Nat := Date.dayCount * microsOfDay

/-- A point of time in the years 1 to 9999 of universal time. -/
structure Instant where
  /-- The microseconds since the beginning of year one. -/
  micros : Nat
  /-- The range ends with year 9999. -/
  inRange : micros < microsOfAll
deriving DecidableEq, Repr

namespace Instant

instance : Ord Instant := ⟨fun a b => compare a.micros b.micros⟩
instance : LE Instant := ⟨fun a b => a.micros ≤ b.micros⟩
instance : LT Instant := ⟨fun a b => a.micros < b.micros⟩

/-- The beginning of year one. -/
def first : Instant := ⟨0, by decide⟩

/-- The instant a number of microseconds after the beginning, if it is in range. -/
def ofMicros? (n : Int) : Option Instant :=
  if h : 0 ≤ n ∧ n.toNat < microsOfAll then some ⟨n.toNat, h.2⟩ else none

/-- The date of an instant. -/
def date (t : Instant) : Date := Date.ofOrdinal (t.micros / microsOfDay)

/-- The time of day of an instant. -/
def clock (t : Instant) : Clock := Clock.ofMicros (t.micros % microsOfDay)

/-- The instant of a date and a time of day, if both exist. -/
def ofFields? (d : Date) (c : Clock) : Option Instant :=
  if d.Valid ∧ c.Valid then ofMicros? (d.ordinal * microsOfDay + c.micros : Nat) else none

/-- The instant a number of microseconds later, or earlier if it is negative. -/
def shift? (t : Instant) (micros : Int) : Option Instant := ofMicros? (t.micros + micros)

/-- The instant at the same time of day a number of months earlier. -/
def monthsBefore? (t : Instant) (months : Nat) : Option Instant := do
  ofFields? (← t.date.monthsBefore? months) t.clock

/-- The instant without what is less than a millisecond. -/
def truncateToMillis (t : Instant) : Instant :=
  ⟨t.micros / 1000 * 1000, Nat.lt_of_le_of_lt (Nat.div_mul_le_self _ _) t.inRange⟩

theorem ofMicros?_micros (t : Instant) : ofMicros? t.micros = some t := by
  simp [ofMicros?, t.inRange]

end Instant

end Catalog
