import Catalog.Number.Basic
import Catalog.Text.Blank
import Catalog.Text.Digit

/-!
# Numerals

A numeral may be written in the decimal digits of any script, with white space around it, a sign
before it and single low lines between its digits. White space is every blank but the separator
controls. A whole numeral has at most `Numeral.maxDigits` digits; longer ones are refused as if they
were no numerals.
-/

namespace Catalog.Numeral

open Text

/-- The greatest number of digits of a whole numeral. -/
def maxDigits : Nat := 4300

/-- White space that may stand around a numeral: a blank that is no separator control. -/
def isSpace (c : Char) : Bool := isBlank c && !(28 ≤ c.toNat && c.toNat ≤ 31)

/-- The digits of a numeral without the single low lines between them; `digitBefore` says whether a
    digit has just been read, so that a low line may follow. -/
def joinDigits (digitBefore : Bool) : List Char → Option (List Char)
  | [] => if digitBefore then some [] else none
  | c :: cs =>
    if c = '_' then
      if digitBefore then joinDigits false cs else none
    else if isDecimalDigit c then (joinDigits true cs).map (c :: ·)
    else none

/-- Splits off a sign; without one the number is not negative. -/
def splitSign : List Char → Bool × List Char
  | '-' :: cs => (true, cs)
  | '+' :: cs => (false, cs)
  | cs => (false, cs)

/-- The whole number written by digits, if there are not too many of them. -/
def boundedValue? (digits : List Char) : Option Nat :=
  if digits.length ≤ maxDigits then digitsValue? digits else none

/-- Reads a whole numeral. -/
def int? (s : String) : Option Int := do
  let (negative, body) := splitSign (trimWhile isSpace s.toList)
  let value ← boundedValue? (← joinDigits false body)
  return if negative then -(value : Int) else value

/-- Whether every low line of a text stands between two digits. -/
def linesBetweenDigits (digitBefore : Bool) : List Char → Bool
  | [] => true
  | '_' :: cs =>
    digitBefore && (cs.head?.map isDecimalDigit).getD false && linesBetweenDigits false cs
  | c :: cs => linesBetweenDigits (isDecimalDigit c) cs

/-- The exponent part of a numeral: nothing, or an `e` of either case before a whole number. -/
def exponent? : List Char → Option Int
  | [] => some 0
  | c :: cs =>
    if c = 'e' ∨ c = 'E' then
      let (negative, digits) := splitSign cs
      if digits.isEmpty then none
      else (digitsValue? digits).map fun n => if negative then -(n : Int) else n
    else none

/-- Reads a numeral with an optional point and exponent as a double. -/
def double? (s : String) : Option Double := do
  let cs := trimWhile isSpace s.toList
  guard (linesBetweenDigits false cs)
  let (negative, body) := splitSign (cs.filter (· ≠ '_'))
  let whole := body.takeWhile isDecimalDigit
  let rest := body.dropWhile isDecimalDigit
  let (fraction, rest) := match rest with
    | '.' :: rest => (rest.takeWhile isDecimalDigit, rest.dropWhile isDecimalDigit)
    | rest => ([], rest)
  guard (!(whole.isEmpty && fraction.isEmpty))
  let exponent ← exponent? rest
  let digits ← digitsValue? (whole ++ fraction)
  return .ofDecimal negative digits (exponent - fraction.length)

example : int? " +1_000 " = some 1000 := by decide
example : int? "\x1f1" = none := by decide
example : int? "1__0" = none ∧ int? "_1" = none ∧ int? "" = none := by decide
example : double? "-.5e1" = some (.ofDecimal true 5 0) := by decide +kernel
example : double? "1.5.2" = none ∧ double? "." = none := by decide

end Catalog.Numeral
