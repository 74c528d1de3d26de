import Catalog.Text.Utf8

/-!
# Encodings of a text

A text may come as octets in UTF-8, or as numbers of two or four octets each, in either order. A
text that begins with two characters of ASCII tells which: the octets that are zero among the first
ones are the upper ones of its numbers. A mark at the beginning of a text in UTF-8 is no part of it.

* `Encoding.ofOctets` is the encoding that octets tell;
* `Encoding.decode?` reads octets in an encoding, and `readOctets?` in the one they tell.
-/

namespace Catalog.Text

/-- The characters that code units write: two that form a pair are one character, and one that is
    left alone is replaced. Whole characters stand for themselves. -/
def pairUp : List Nat → List Char
  | [] => []
  | [n] => [if 0xD800 ≤ n ∧ n < 0xE000 then Utf8.replacement else Char.ofNat n]
  | n :: m :: rest =>
    if 0xD800 ≤ n ∧ n < 0xDC00 ∧ 0xDC00 ≤ m ∧ m < 0xE000 then
      Char.ofNat (0x10000 + (n - 0xD800) * 1024 + (m - 0xDC00)) :: pairUp rest
    else
      (if 0xD800 ≤ n ∧ n < 0xE000 then Utf8.replacement else Char.ofNat n) :: pairUp (m :: rest)

/-- How a text is written in octets. -/
inductive Encoding where
  /-- UTF-8. -/
  | utf8
  /-- Code units of two octets, the upper one first or last. -/
  | utf16 (upperFirst : Bool)
  /-- Code points of four octets, the uppermost one first or last. -/
  | utf32 (upperFirst : Bool)
deriving DecidableEq, Repr

namespace Encoding

/-- The encoding of octets that write a text whose first characters are of ASCII. -/
def ofOctets : List UInt8 → Encoding
  | [a, b] => if a = 0 then .utf16 true else if b = 0 then .utf16 false else .utf8
  | a :: b :: c :: d :: _ =>
    if a = 0 then if b = 0 then .utf32 true else .utf16 true
    else if b = 0 then if c = 0 ∧ d = 0 then .utf32 false else .utf16 false
    else .utf8
  | _ => .utf8

/-- The number that octets write in the base 256. -/
def number (upperFirst : Bool) (octets : List UInt8) : Nat :=
  (if upperFirst then octets else octets.reverse).foldl (fun n b => 256 * n + b.toNat) 0

/-- The numbers that octets write in groups of two; none may be left over. -/
def inTwos? (upperFirst : Bool) : List UInt8 → Option (List Nat)
  | [] => some []
  | a :: b :: rest => (inTwos? upperFirst rest).map (number upperFirst [a, b] :: ·)
  | _ => none

/-- The numbers that octets write in groups of four; none may be left over. -/
def inFours? (upperFirst : Bool) : List UInt8 → Option (List Nat)
  | [] => some []
  | a :: b :: c :: d :: rest =>
    (inFours? upperFirst rest).map (number upperFirst [a, b, c, d] :: ·)
  | _ => none

/-- The character of a code point; half of a pair is replaced. -/
def charOf? (n : Nat) : Option Char :=
  if n < 0x110000 then
    some (if 0xD800 ≤ n ∧ n < 0xE000 then Utf8.replacement else Char.ofNat n)
  else none

/-- The text that octets write in an encoding, if they do. -/
def decode? (octets : List UInt8) : Encoding → Option String
  | .utf8 =>
    match octets with
    | 0xEF :: 0xBB :: 0xBF :: rest => String.fromUTF8? rest.toByteArray
    | _ => String.fromUTF8? octets.toByteArray
  | .utf16 upperFirst => (inTwos? upperFirst octets).map fun ns => String.ofList (pairUp ns)
  | .utf32 upperFirst =>
    ((inFours? upperFirst octets).bind fun ns => ns.mapM charOf?).map String.ofList

end Encoding

/-- The text that octets write in the encoding they tell, if they do. -/
def readOctets? (octets : List UInt8) : Option String :=
  (Encoding.ofOctets octets).decode? octets

example : readOctets? [91, 0, 0x3D, 0xD8, 0x00, 0xDE, 93, 0] = some "[😀]" := by decide
example : readOctets? [0, 0, 0, 91, 0, 0, 0, 93] = some "[]" := by decide
example : readOctets? [91, 0, 93] = some "[\x00]" := by decide

end Catalog.Text
