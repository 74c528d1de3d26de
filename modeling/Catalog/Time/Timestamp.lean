import Catalog.Number.Double
import Catalog.Text.Blank
import Catalog.Text.Digit
import Catalog.Time.Instant

/-!
# Timestamps

The texts that write instants. `Instant.timestamp` writes one to the millisecond in universal time,
`Instant.exact` to the microsecond, and `Timestamp.read` reads the forms a caller may send:

* a date `YYYY-MM-DD`, a `T`, and a time of day;
* a time of day of two, four or six digits, with colons between all its fields or none;
* a fraction of a second, of which six digits count: after a point or comma, which may follow any
  field, or as if it were one more field;
* at the end nothing, which is universal time, a `Z`, or the offset from universal time as a sign
  and a time of less than a day.

A time with an offset may end in one more character before the sign, and its fraction in any
characters. If a timestamp is well formed but its offset moves it out of the years 1 to 9999, no
instant can be given, which is told apart from a text that is no timestamp.
-/

namespace Catalog

open Text

namespace Instant

/-- The instant in universal time to the millisecond; the year is not filled up with zeros. -/
def timestamp (t : Instant) : String :=
  let d := t.date
  let c := t.clock
  String.ofList <|
    padded 1 d.year ++ '-' :: padded 2 d.month ++ '-' :: padded 2 d.day ++ 'T' ::
      padded 2 c.hour ++ ':' :: padded 2 c.minute ++ ':' :: padded 2 c.second ++ '.' ::
      padded 3 (c.micro / 1000) ++ ['Z']

/-- The date and time of an instant to the microsecond, with a separator between them. -/
def dateAndTime (t : Instant) (separator : Char) (micros : Bool) : List Char :=
  let d := t.date
  let c := t.clock
  padded 4 d.year ++ '-' :: padded 2 d.month ++ '-' :: padded 2 d.day ++ separator ::
    padded 2 c.hour ++ ':' :: padded 2 c.minute ++ ':' :: padded 2 c.second ++
    (if micros then '.' :: padded 6 c.micro else [])

/-- The instant in universal time to the microsecond, the year in four digits. -/
def exact (t : Instant) : String := String.ofList (t.dateAndTime 'T' true ++ ['Z'])

end Instant

/-- What a text says about an instant. -/
inductive Timestamp where
  /-- It is no timestamp. -/
  | malformed
  /-- It is a timestamp outside the years 1 to 9999. -/
  | outOfRange
  /-- It writes an instant. -/
  | instant (t : Instant)
deriving DecidableEq, Repr

namespace Timestamp

/-- The value of a digit of ASCII. -/
def asciiDigit? (c : Char) : Option Nat := if c.isDigit then some (c.toNat - 48) else none

/-- The number that a list of digits of ASCII writes after `acc`. -/
def number? (acc : Nat) : List Char → Option Nat
  | [] => some acc
  | c :: cs => (asciiDigit? c).bind fun d => number? (10 * acc + d) cs

/-- A number of exactly two digits, and what follows it. -/
def twoDigits? : List Char → Option (Nat × List Char)
  | a :: b :: rest => (number? 0 [a, b]).map fun n => (n, rest)
  | _ => none

/-- A fraction of a second in microseconds, of at least one digit and six that count, and whether
    only digits follow these. -/
def fraction? (cs : List Char) : Option (Nat × Bool) :=
  (number? 0 (cs.take 6)).map fun n =>
    let rest := (cs.drop 6).dropWhile Char.isDigit
    (n * 10 ^ (6 - (cs.take 6).length), rest.isEmpty || rest.head? == some '\x00')

/-- Up to `left` fields of a time of day, the fraction after them, and whether nothing else follows.
    `colons` says whether the fields stand between colons, if a character after a field has shown
    it. -/
def fields? : Nat → Option Bool → List Char → Option (List Nat × Nat × Bool)
  | 0, _, cs => (fraction? cs).map fun (micro, complete) => ([], micro, complete)
  | left + 1, colons, cs => do
    let (field, rest) ← twoDigits? cs
    match rest with
    | [] => return ([field], 0, true)
    | [c] => if c.toNat < 128 then return ([field], 0, c == '\x00') else none
    | c :: more =>
      let colons := colons.getD (c == ':')
      if colons ∧ c = ':' then
        let (fields, micro, complete) ← fields? left colons more
        return (field :: fields, micro, complete)
      else if c = '.' ∨ c = ',' then
        let (micro, complete) ← fraction? more
        return ([field], micro, complete)
      else if colons then none
      else
        let (fields, micro, complete) ← fields? left colons rest
        return (field :: fields, micro, complete)

/-- A time of day, its fields not checked, and whether nothing else follows. -/
def clock? (cs : List Char) : Option (Clock × Bool) := do
  let (fields, micro, complete) ← fields? 3 none cs
  return ({ hour := fields.getD 0 0, minute := fields.getD 1 0, second := fields.getD 2 0, micro },
    complete)

/-- An offset from universal time of less than a day, in microseconds, after its sign. A fraction
    counts only besides whole seconds. -/
def offset? (negative : Bool) (cs : List Char) : Option Int := do
  let (c, complete) ← clock? cs
  guard complete
  let seconds := (c.hour * 60 + c.minute) * 60 + c.second
  let micros := if seconds = 0 then 0 else seconds * 1000000 + c.micro
  guard (micros < microsOfDay)
  return if negative then -(micros : Int) else micros

/-- A time of day and its offset from universal time. -/
def clockAndOffset? (cs : List Char) : Option (Clock × Int) := do
  let isMark (c : Char) : Bool := c == '+' || c == '-' || c == 'Z'
  let (c, complete) ← clock? (cs.takeWhile (!isMark ·))
  match cs.dropWhile (!isMark ·) with
  | [] => if complete then return (c, 0) else none
  | 'Z' :: rest => if rest.isEmpty || rest.head? == some '\x00' then return (c, 0) else none
  | mark :: rest => return (c, ← offset? (mark == '-') rest)

/-- A date `YYYY-MM-DD`, its fields not checked, and what follows it. -/
def date? (cs : List Char) : Option (Date × List Char) := do
  match cs with
  | y1 :: y2 :: y3 :: y4 :: '-' :: m1 :: m2 :: '-' :: d1 :: d2 :: rest =>
    let year ← number? 0 [y1, y2, y3, y4]
    let month ← number? 0 [m1, m2]
    let day ← number? 0 [d1, d2]
    return ({ year, month, day }, rest)
  | _ => none

/-- A `Z` of either case at the end, as the offset that it stands for. -/
def spellOutZulu (cs : List Char) : List Char :=
  match cs.reverse with
  | c :: rest => if c = 'Z' ∨ c = 'z' then rest.reverse ++ "+00:00".toList else cs
  | [] => cs

/-- What date, time of day and offset say together. -/
def ofParts (d : Date) (c : Clock) (offset : Int) : Timestamp :=
  if d.Valid ∧ c.Valid then
    match Instant.ofMicros? ((d.ordinal * microsOfDay + c.micros : Nat) - offset) with
    | some t => .instant t
    | none => .outOfRange
  else .malformed

/-- Whether a text begins with a date and a `T`. -/
def beginsWithDateAndTime (cs : List Char) : Bool :=
  match date? cs with
  | some (_, 'T' :: _) => true
  | _ => false

/-- The date, the time of day and the offset, none of them checked, of a timestamp between blanks,
    or of a date alone if `dateAlone` allows it. -/
def parts? (s : String) (dateAlone : Bool) : Option (Date × Clock × Int) := do
  match ← date? (trimWhile isBlank s.toList) with
  | (d, 'T' :: rest) => return (d, ← clockAndOffset? (spellOutZulu rest))
  | (d, []) => if dateAlone then return (d, Clock.ofMicros 0, 0) else none
  | _ => none

/-- Reads a timestamp, or a date alone if `dateAlone` allows it, between blanks. -/
def read (s : String) (dateAlone : Bool) : Timestamp :=
  match parts? s dateAlone with
  | some (d, c, offset) => ofParts d c offset
  | none => .malformed

/-- The instant that was read. -/
def instant? : Timestamp → Option Instant
  | .instant t => some t
  | _ => none

example : ((read "2024-01-01T10:20:30.5+02" false).instant?.map Instant.exact) =
    some "2024-01-01T08:20:30.500000Z" := by decide
example : ((read "0999-02-03" true).instant?.map Instant.timestamp) =
    some "999-02-03T00:00:00.000Z" := by decide
example : read "0001-01-01T00:00:00+05:00" false = .outOfRange := by decide

end Timestamp

end Catalog
