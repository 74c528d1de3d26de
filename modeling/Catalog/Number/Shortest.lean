import Catalog.Number.Double

/-!
# Shortest decimals

The decimal numeral of a finite double has the fewest digits that read back as the same double
and, of the numerals with as few digits, is the nearest to it. It is found on the grids of the
powers of ten, from coarse to fine: the numbers that read back form an interval around the double,
and if a grid has a point in it then one of the two grid points next to the double is.

`Double.text` writes it with a decimal point, positionally from a ten thousandth up to below ten
to the sixteenth, and else with an exponent of at least two digits after one leading digit.
-/

namespace Catalog.Double

/-- The interval of the numbers that read back as a double, in quarters of a unit. -/
structure Interval where
  /-- The double itself. -/
  value : Nat
  /-- The lower end. -/
  low : Nat
  /-- The upper end. -/
  high : Nat
  /-- Whether the ends belong to it. -/
  closed : Bool

/-- The interval around a finite double that is not zero: up to the middle between it and its
    neighbours, the middles included if its mantissa is even. -/
def interval (mantissa exponent : Nat) : Interval :=
  let quarter := 2 ^ exponent
  let value := 4 * (mantissa * quarter)
  let below := if mantissa = 2 ^ 52 ∧ 0 < exponent then quarter else 2 * quarter
  { value, low := value - below, high := value + 2 * quarter, closed := mantissa % 2 == 0 }

/-- Whether the interval, scaled by `scale`, holds a number. -/
def Interval.holds (i : Interval) (scale x : Nat) : Bool :=
  if i.closed then decide (i.low * scale ≤ x) && decide (x ≤ i.high * scale)
  else decide (i.low * scale < x) && decide (x < i.high * scale)

/-- The multiple of ten to the `place` in the interval that is nearest to the double, if there is
    one; of two as near, the even one. -/
def Interval.multipleOf? (i : Interval) (place : Int) : Option Nat :=
  let one := 4 * unitsOfOne
  let scale := if place < 0 then 10 ^ (-place).toNat else 1
  let step := if place < 0 then one else one * 10 ^ place.toNat
  let value := i.value * scale
  let below := value / step
  let lower := if i.holds scale (below * step) && below != 0 then some below else none
  let upper := if i.holds scale ((below + 1) * step) then some (below + 1) else none
  match lower, upper with
  | some a, some b =>
    let down := value - a * step
    let up := b * step - value
    if down < up ∨ (down = up ∧ a % 2 = 0) then some a else some b
  | some a, none => some a
  | none, upper => upper

/-- A place of the decimal system that lies above the interval. -/
def Interval.topPlace (i : Interval) : Int :=
  let bits : Int := (Nat.log2 i.value : Int) + 1 - 1076
  Int.fdiv (bits * 30103) 100000 + 2

/-- The shortest decimal of a finite double that is not zero, as digits and the place of the last
    of them. -/
def shortest (mantissa exponent : Nat) : Nat × Int :=
  let i := interval mantissa exponent
  let found := (List.range 40).findSome? fun (n : Nat) =>
    (i.multipleOf? (i.topPlace - n)).map fun digits => (digits, i.topPlace - n)
  found.getD (0, 0)

/-- How a decimal is laid out. -/
structure Layout where
  /-- The least exponent that is written positionally. -/
  positionalFrom : Int
  /-- The least greater exponent that is not. -/
  positionalTo : Int
  /-- The least number of digits of an exponent. -/
  exponentDigits : Nat
  /-- Whether there is a point even in a number of one digit with an exponent. -/
  alwaysPoint : Bool

/-- The layout of numbers in texts and documents. -/
def layout : Layout := ⟨-4, 16, 2, false⟩

/-- Writes the number with the given digits, the last one at the given place. -/
def Layout.write (l : Layout) (digits : List Char) (place : Int) : List Char :=
  let exponent := place + digits.length - 1
  if l.positionalFrom ≤ exponent ∧ exponent < l.positionalTo then
    if 0 ≤ place then digits ++ List.replicate place.toNat '0' ++ ['.', '0']
    else if exponent < 0 then
      '0' :: '.' :: List.replicate (-exponent - 1).toNat '0' ++ digits
    else
      digits.take (exponent.toNat + 1) ++ '.' :: digits.drop (exponent.toNat + 1)
  else
    let power := Nat.toDigits 10 exponent.natAbs
    let padding := List.replicate (l.exponentDigits - power.length) '0'
    let sign := if exponent < 0 then '-' else '+'
    let fraction := match digits.drop 1 with
      | [] => if l.alwaysPoint then ['.', '0'] else []
      | rest => '.' :: rest
    digits.take 1 ++ fraction ++ 'e' :: sign :: padding ++ power

/-- The text of a double. -/
def text : Double → String
  | .nan => "nan"
  | .infinite negative => if negative then "-inf" else "inf"
  | .finite negative mantissa exponent _ =>
    let (digits, place) := if mantissa = 0 then (0, 0) else shortest mantissa exponent
    let body := layout.write (Nat.toDigits 10 digits) place
    String.ofList (if negative then '-' :: body else body)

example : (ofDecimal false 5 0).text = "5.0" ∧ (ofDecimal true 0 0).text = "-0.0" ∧
    (ofDecimal false 1 16).text = "1e+16" ∧ (ofDecimal false 1 (-5)).text = "1e-05" ∧
    (ofDecimal false 5 (-324)).text = "5e-324" ∧
    (ofDecimal false 31415926535 (-10)).text = "3.1415926535" := by decide +kernel

end Catalog.Double
