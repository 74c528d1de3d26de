import Catalog.Number.Shortest

/-!
# Numbers

A number is a whole number of any size or a double. Numbers are compared by value, exactly: a
whole number is never rounded, so no two different whole numbers compare equal to one double.
`Number.position?` puts every number but not-a-number on one line, and the order on numbers is the
order on that line.
-/

namespace Catalog

/-- A whole number of any size, or a double. -/
inductive Number where
  /-- A whole number. -/
  | int (n : Int)
  /-- A double. -/
  | double (x : Double)
deriving DecidableEq, Repr

/-- A place on the line of numbers, which has two ends. -/
inductive Position where
  /-- Below every finite number. -/
  | bottom
  /-- At a whole number of units. -/
  | at (units : Int)
  /-- Above every finite number. -/
  | top
deriving DecidableEq, Repr

/-- The order of the line. -/
def Position.compare : Position → Position → Ordering
  | .bottom, .bottom => .eq
  | .bottom, _ => .lt
  | _, .bottom => .gt
  | .top, .top => .eq
  | .top, _ => .gt
  | _, .top => .lt
  | .at a, .at b => Ord.compare a b

namespace Number

/-- Where a number lies; not-a-number lies nowhere. -/
def position? : Number → Option Position
  | .int n => some (.at (n * unitsOfOne))
  | .double .nan => none
  | .double (.infinite negative) => some (if negative then .bottom else .top)
  | .double x => x.units?.map .at

/-- The order of two numbers by value; there is none with not-a-number. -/
def compare? (a b : Number) : Option Ordering :=
  match a.position?, b.position? with
  | some p, some q => some (p.compare q)
  | _, _ => none

/-- Whether two numbers have the same value; not-a-number has none. -/
def same (a b : Number) : Bool := a.compare? b == some .eq

/-- Whether a number is zero, of either sign. -/
def isZero : Number → Bool
  | .int n => n == 0
  | .double (.finite _ mantissa _ _) => mantissa == 0
  | .double _ => false

/-- The text of a number. -/
def text : Number → String
  | .int n => toString n
  | .double x => x.text

/-- The whole part of a finite number. -/
def truncate? : Number → Option Int
  | .int n => some n
  | .double x => x.truncate?

example : (int 5).same (double (.ofDecimal false 5 0)) = true ∧
    (int (2 ^ 53 + 1)).same (double (.ofDecimal false (2 ^ 53 + 1) 0)) = false := by decide +kernel

end Number

end Catalog
