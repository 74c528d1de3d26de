import Catalog.Text.Ranges

/-!
# Digits

A *decimal digit* is a character of one of the sets of ten consecutive characters that write the
digits of a positional system, so it has a value below ten (`digitValue?`). A *digit-like*
character is a decimal digit or one of the characters with a digit value but no place in a
positional numeral, such as a superscript; these have no value here.
-/

namespace Catalog.Text

/-- The code points of the zeros of the decimal systems, other than the one of ASCII. -/
def decimalZeros : List Nat :=
  [1632, 1776, 1984, 2406, 2534, 2662, 2790, 2918, 3046, 3174, 3302, 3430, 3558, 3664, 3792, 3872,
   4160, 4240, 6112, 6160, 6470, 6608, 6784, 6800, 6992, 7088, 7232, 7248, 42528, 43216, 43264,
   43472, 43504, 43600, 44016, 65296, 66720, 68912, 69734, 69872, 69942, 70096, 70384, 70736,
   70864, 71248, 71360, 71472, 71904, 72016, 72784, 73040, 73120, 92768, 92864, 93008, 120782,
   120792, 120802, 120812, 120822, 123200, 123632, 125264, 130032]

/-- The digit-like characters that are not decimal digits. -/
def digitSigns : Ranges :=
  [(178, 179), (185, 185), (4969, 4977), (6618, 6618), (8304, 8304), (8308, 8313), (8320, 8329),
   (9312, 9320), (9332, 9340), (9352, 9360), (9450, 9450), (9461, 9469), (9471, 9471),
   (10102, 10110), (10112, 10120), (10122, 10130), (68160, 68163), (69216, 69224), (69714, 69722),
   (127232, 127242)]

/-- The value of a decimal digit. -/
def digitValue? (c : Char) : Option Nat :=
  let n := c.toNat
  if n < 128 then
    if 48 ≤ n ∧ n ≤ 57 then some (n - 48) else none
  else
    (decimalZeros.find? fun z => decide (z ≤ n) && decide (n < z + 10)).map (n - ·)

/-- A decimal digit of any positional system. -/
def isDecimalDigit (c : Char) : Bool := (digitValue? c).isSome

/-- A decimal digit or another digit sign, such as a superscript. -/
def isDigitLike (c : Char) : Bool := isDecimalDigit c || digitSigns.contains c.toNat

/-- A digit has a value below ten. -/
theorem digitValue?_lt {c : Char} {d : Nat} (h : digitValue? c = some d) : d < 10 := by
  simp only [digitValue?] at h
  split at h
  · split at h
    · cases h; omega
    · cases h
  · obtain ⟨z, hz, rfl⟩ := Option.map_eq_some_iff.1 h
    have := List.find?_some hz
    simp only [Bool.and_eq_true, decide_eq_true_eq] at this
    omega

/-- The number written by `acc` followed by digits; none at another character. -/
def digitsValueFrom (acc : Nat) : List Char → Option Nat
  | [] => some acc
  | c :: cs =>
    match digitValue? c with
    | some d => digitsValueFrom (10 * acc + d) cs
    | none => none

/-- The number a list of digits writes, most significant first. The empty list writes zero. -/
def digitsValue? (cs : List Char) : Option Nat := digitsValueFrom 0 cs

/-- The decimal digit with a value below ten; larger values wrap round. -/
def digitChar (d : Nat) : Char := Char.ofNat (48 + d % 10)

/-- A number in decimal with at least a given number of digits, filled up with zeros. -/
def padded (width n : Nat) : List Char :=
  let digits := Nat.toDigits 10 n
  List.replicate (width - digits.length) '0' ++ digits

end Catalog.Text
