import Catalog.Time.Timestamp

/-!
# Moments

A moment is a point of time as it is shown by a clock that is some way ahead of universal time, or
behind it. The clock's own date and time of day are what is shown, shifted and counted back by
months; two moments are compared by the time that they stand for, whatever their clocks show.
-/

namespace Catalog

open Text

/-- A point of time as a clock shows it. -/
structure Moment where
  /-- What the clock shows: the instant at which a clock of universal time would show the same. -/
  wall : Instant
  /-- The microseconds that the clock is ahead of universal time. -/
  offset : Int
deriving DecidableEq, Repr

namespace Moment

/-- The moment of an instant, as a clock of universal time shows it. -/
def ofInstant (t : Instant) : Moment := ⟨t, 0⟩

/-- The microseconds from the beginning of year one of universal time. -/
def micros (m : Moment) : Int := m.wall.micros - m.offset

/-- The instant of a moment, if it lies in the years 1 to 9999 of universal time. -/
def instant? (m : Moment) : Option Instant := Instant.ofMicros? m.micros

/-- The order of moments in time. -/
def compare (a b : Moment) : Ordering := Ord.compare a.micros b.micros

/-- Whether two moments are the same point of time. -/
def same (a b : Moment) : Bool := a.micros == b.micros

/-- The moment a number of microseconds later, or earlier if it is negative, on the same clock. -/
def shift? (m : Moment) (micros : Int) : Option Moment :=
  (m.wall.shift? micros).map fun wall => { m with wall }

/-- The moment at the same time of day a number of months earlier, on the same clock. -/
def monthsBefore? (m : Moment) (months : Nat) : Option Moment :=
  (m.wall.monthsBefore? months).map fun wall => { m with wall }

/-- The moment without what is less than a millisecond on its clock. -/
def truncateToMillis (m : Moment) : Moment := { m with wall := m.wall.truncateToMillis }

/-- The moment that a timestamp, or a date alone, writes; without an offset it is shown by a clock
    of universal time. -/
def read? (s : String) : Option Moment := do
  let (d, c, offset) ← Timestamp.parts? s true
  return { wall := ← Instant.ofFields? d c, offset }

/-! ## As text -/

/-- The offset of a clock with its sign: hours and minutes, and seconds and microseconds if they are
    not zero. -/
def offsetText (offset : Int) : List Char :=
  let c := Clock.ofMicros offset.natAbs
  (if offset < 0 then '-' else '+') :: padded 2 c.hour ++ ':' :: padded 2 c.minute ++
    (if c.second = 0 ∧ c.micro = 0 then [] else ':' :: padded 2 c.second) ++
    (if c.micro = 0 then [] else '.' :: padded 6 c.micro)

/-- The date, the time of day and the offset that a clock shows. -/
def text (m : Moment) : String :=
  String.ofList (m.wall.dateAndTime ' ' (m.wall.clock.micro ≠ 0) ++ offsetText m.offset)

/-- The offset of a clock as it is quoted: days, seconds and microseconds that are not zero, of
    which only the days may be negative. -/
def offsetInline (offset : Int) : String :=
  let days := Int.fdiv offset microsOfDay
  let rest := Int.fmod offset microsOfDay
  let parts := [("days", days), ("seconds", Int.fdiv rest 1000000),
    ("microseconds", Int.fmod rest 1000000)]
  let shown := (parts.filter fun p => p.2 ≠ 0).map fun p => p.1 ++ "=" ++ toString p.2
  if offset = 0 then "datetime.timezone.utc"
  else "datetime.timezone(datetime.timedelta(" ++ ", ".intercalate shown ++ "))"

/-- The fields of a moment as they are quoted, without trailing seconds and microseconds that are
    zero. -/
def inline (m : Moment) : String :=
  let d := m.wall.date
  let c := m.wall.clock
  let trailing :=
    if c.micro ≠ 0 then [c.second, c.micro] else if c.second ≠ 0 then [c.second] else []
  let fields := [d.year, d.month, d.day, c.hour, c.minute] ++ trailing
  "datetime.datetime(" ++ ", ".intercalate (fields.map toString) ++ ", tzinfo=" ++
    offsetInline m.offset ++ ")"

example : ((read? "2024-01-01T10:20:30.5-05:30").map Moment.text) =
    some "2024-01-01 10:20:30.500000-05:30" := by decide
example : offsetInline (-19800000000) =
    "datetime.timezone(datetime.timedelta(days=-1, seconds=66600))" := by decide

end Moment

end Catalog
