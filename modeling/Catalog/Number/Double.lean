/-!
# Doubles

The binary floating-point numbers of 64 bits, held exactly. A finite double is a signed whole
number of *units*, one unit being the least positive double: its mantissa of at most 53 bits,
shifted left by its exponent. Each number has one such form but zero, which has two, so the fields
of two doubles differ exactly when their bit patterns do (not a number apart, which is one value).

* `Double.round` is the double nearest to a fraction of units, of two nearest the one with an even
  mantissa, and infinite beyond the greatest finite one;
* `Double.ofDecimal` reads a decimal numeral, `digits` times a power of ten.
-/

namespace Catalog

-- The powers here are those of the numbers themselves, whichever others a library brings.
attribute [default_instance 20000, instance (1100)] instPowNat

/-- The whole units of the number one: a unit is two to the minus 1074th. -/
def unitsOfOne : Nat := 2 ^ 1074

/-- The form of a finite double that stands for its value: the mantissa has at most 53 bits, all
    of them in use unless the exponent is zero, and the exponent is in range. -/
abbrev Double.Canonical (mantissa exponent : Nat) : Prop :=
  mantissa < 2 ^ 53 ∧ exponent ≤ 2045 ∧ (exponent = 0 ∨ 2 ^ 52 ≤ mantissa)

/-- A binary floating-point number of 64 bits. -/
inductive Double where
  /-- The number of `mantissa * 2 ^ exponent` units, or its negative. -/
  | finite (negative : Bool) (mantissa exponent : Nat)
      (canonical : Double.Canonical mantissa exponent)
  /-- An infinite number. -/
  | infinite (negative : Bool)
  /-- Not a number. -/
  | nan
deriving DecidableEq, Repr

namespace Double

/-- The double with these parts, infinite if they are out of range. -/
def ofParts (negative : Bool) (mantissa exponent : Nat) : Double :=
  if h : Canonical mantissa exponent then .finite negative mantissa exponent h
  else .infinite negative

/-- The double zero of either sign. -/
def zero (negative : Bool) : Double := .finite negative 0 0 (by decide)

/-- The whole number nearest to a fraction, of two nearest the even one. -/
def roundHalfEven (num den : Nat) : Nat :=
  let quotient := num / den
  let rest := num % den
  if 2 * rest > den ∨ (2 * rest = den ∧ quotient % 2 = 1) then quotient + 1 else quotient

/-- The double nearest to a fraction of units, of two nearest the one with an even mantissa. -/
def round (negative : Bool) (num den : Nat) : Double :=
  let bits := if num / den = 0 then 0 else Nat.log2 (num / den) + 1
  let exponent := bits - 53
  let mantissa := roundHalfEven num (den * 2 ^ exponent)
  if mantissa = 2 ^ 53 then ofParts negative (2 ^ 52) (exponent + 1)
  else ofParts negative mantissa exponent

/-- The double nearest to `digits` times ten to the `exponent`. Numerals far out of range are
    decided by their length alone. -/
def ofDecimal (negative : Bool) (digits : Nat) (exponent : Int) : Double :=
  if digits = 0 then zero negative
  else
    let places : Int := (Nat.toDigits 10 digits).length + exponent
    if places > 310 then .infinite negative
    else if places < -330 then zero negative
    else if 0 ≤ exponent then round negative (digits * 10 ^ exponent.toNat * unitsOfOne) 1
    else round negative (digits * unitsOfOne) (10 ^ (-exponent).toNat)

/-- The signed number of units of a finite double. -/
def units? : Double → Option Int
  | .finite negative mantissa exponent _ =>
    let size : Int := (mantissa * 2 ^ exponent : Nat)
    some (if negative then -size else size)
  | _ => none

/-- The whole part of a finite double: its fraction is cut off. -/
def truncate? (x : Double) : Option Int :=
  x.units?.map fun units => Int.tdiv units unitsOfOne

example : (ofDecimal false 5 (-1)).units? = some (2 ^ 1073) := by decide +kernel
example : ofDecimal false 1 400 = .infinite false := by decide

end Double

end Catalog
