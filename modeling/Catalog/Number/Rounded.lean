import Catalog.Number.Shortest

/-!
# Rounded decimals

The decimal numeral of a finite double with a given number of significant digits is the nearest of
all numerals with as many digits; of two as near it is the one farther from zero. Zeros at its end
are not written.

`Double.roundedText?` writes it with fifteen digits, positionally from a ten thousandth up to below
ten to the fifteenth, and always with a point. The sign of a zero is not written.
-/

namespace Catalog.Double

/-- The whole number nearest to a fraction, of two nearest the greater one. -/
def roundHalfUp (num den : Nat) : Nat := (2 * num + den) / (2 * den)

/-- The fraction of a whole number of units and a power of ten. -/
def scaled (units : Nat) (place : Int) : Nat × Nat :=
  (units * 10 ^ (-place).toNat, unitsOfOne * 10 ^ place.toNat)

/-- The place of the leading digit of a double that is not zero. -/
def leadingPlace (mantissa exponent : Nat) : Int :=
  let i := interval mantissa exponent
  let units := mantissa * 2 ^ exponent
  let found := (List.range 10).findSome? fun (n : Nat) =>
    let place := i.topPlace - n
    let (num, den) := scaled units place
    if den ≤ num then some place else none
  found.getD 0

/-- The digits without the zeros at their end, and the place of the last one. -/
def withoutZeros : Nat → Nat × Int → Nat × Int
  | 0, decimal => decimal
  | fuel + 1, (digits, place) =>
    if digits ≠ 0 ∧ digits % 10 = 0 then withoutZeros fuel (digits / 10, place + 1)
    else (digits, place)

/-- The nearest decimal with `count` significant digits of a double that is not zero, as digits and
    the place of the last of them. -/
def rounded (count : Nat) (mantissa exponent : Nat) : Nat × Int :=
  let last := leadingPlace mantissa exponent + 1 - count
  let (num, den) := scaled (mantissa * 2 ^ exponent) last
  withoutZeros (count + 1) (roundHalfUp num den, last)

/-- The layout of rounded decimals. -/
def roundedLayout : Layout := ⟨-4, 15, 2, true⟩

/-- The text of a double with fifteen significant digits; there is none for not-a-number. -/
def roundedText? : Double → Option String
  | .nan => none
  | .infinite negative => some (if negative then "-Inf" else "Inf")
  | .finite negative mantissa exponent _ =>
    if mantissa = 0 then some "0.0"
    else
      let (digits, place) := rounded 15 mantissa exponent
      let body := roundedLayout.write (Nat.toDigits 10 digits) place
      some (String.ofList (if negative then '-' :: body else body))

example : (ofDecimal true 0 0).roundedText? = some "0.0" ∧
    (ofDecimal false 30000000000000004 (-17)).roundedText? = some "0.3" ∧
    (ofDecimal false 1 15).roundedText? = some "1.0e+15" ∧
    (ofDecimal true 1 (-5)).roundedText? = some "-1.0e-05" ∧
    (ofDecimal false 9999999999999999 (-1)).roundedText? = some "1.0e+15" := by decide +kernel

end Catalog.Double
