import Catalog.Text.CaseTable

/-!
# Letter case

`lower` writes a text in lower case, character by character with two exceptions: the capital I
with dot becomes two characters, and a capital sigma becomes the final form at the end of a word,
that is, when the nearest character that counts carries case before it and none does after it.

`lowerChar` is the form of a single character, and `sameCase` relates the characters that differ
in case only: their lower case forms are equal or share their upper case form. `caseVariants` lists
the code points of the characters that a character differs from in case only. Some upper case forms
are several characters; `upperHead?` is the first of them.
-/

namespace Catalog.Text

/-- The lower case form of a single character. -/
def lowerChar (c : Char) : Char :=
  let n := c.toNat
  if n < 128 then c.toLower
  else if n = 0x130 then 'i'
  else
    let shift? := lowerShifts.find? fun (first, last, step, _) =>
      decide (first ≤ n) && decide (n ≤ last) && (n - first) % step == 0
    match shift? with
    | some (_, _, _, shift) => Char.ofNat (n + shift).toNat
    | none => c

/-- Whether the first character that counts carries case. -/
def casedAhead : List Char → Bool
  | [] => false
  | c :: cs =>
    if caseIgnorableRanges.contains c.toNat then casedAhead cs
    else casedRanges.contains c.toNat

/-- The lower case form of the rest of a text; `cased` says whether the nearest character that
    counts before it carries case. -/
def lowerFrom (cased : Bool) : List Char → List Char
  | [] => []
  | c :: cs =>
    let n := c.toNat
    let form :=
      if n < 128 then [c.toLower]
      else if n = 0x130 then ['i', Char.ofNat 0x307]
      else if n = 0x3A3 then [if cased && !casedAhead cs then 'ς' else 'σ']
      else [lowerChar c]
    let cased' :=
      if caseIgnorableRanges.contains n then cased else casedRanges.contains n
    form ++ lowerFrom cased' cs

/-- The text in lower case. -/
def lower (s : String) : String := String.ofList (lowerFrom false s.toList)

/-- Whether two lower case characters are equal or share their upper case form. -/
def sameUpper (a b : Char) : Bool :=
  a == b || sharedUpper.any fun (x, y) => x == a.toNat && y == b.toNat

/-- Whether two characters differ in case only. -/
def sameCase (a b : Char) : Bool := sameUpper (lowerChar a) (lowerChar b)

/-- The code points of the characters with a given lower case form. -/
def raised (n : Nat) : List Nat :=
  let shifted := lowerShifts.filterMap fun (first, last, step, shift) =>
    let m := (n - shift).toNat
    if first ≤ m ∧ m ≤ last ∧ (m - first) % step = 0 then some m else none
  let ascii := if 97 ≤ n ∧ n ≤ 122 then [n - 32] else []
  let dotted := if n = 105 then [0x130] else []
  n :: ascii ++ dotted ++ shifted

/-- The code points of the characters that differ from a character in case only, itself included. -/
def caseVariants (c : Char) : List Nat :=
  let n := (lowerChar c).toNat
  (n :: sharedUpper.filterMap fun (x, y) => if x = n then some y else none).flatMap raised

/-- The code point of the character that the upper case form of a character begins with, if it is
    none that differs from the character in case only. -/
def upperHead? (c : Char) : Option Nat := upperHeads.lookup (lowerChar c).toNat

example : caseVariants 'k' = [107, 75, 8490] := by decide
example : lower "ΟΔΟΣ Σ İK" = "οδος σ i̇k" := by decide +kernel

end Catalog.Text
