import Catalog.Text.Utf8

/-!
# Percent encoding

A character outside the safe ones is written as its octets in UTF-8, each after a per cent sign as
two hexadecimal digits. Reading takes such a triple as its octet and any other character as its
own octets, so a per cent sign that no two hexadecimal digits follow stands for itself.
-/

namespace Catalog.Text.Percent

/-- The value of a hexadecimal digit of either case. -/
def hexValue? (c : Char) : Option Nat :=
  let n := c.toNat
  if 48 ≤ n ∧ n ≤ 57 then some (n - 48)
  else if 65 ≤ n ∧ n ≤ 70 then some (n - 55)
  else if 97 ≤ n ∧ n ≤ 102 then some (n - 87)
  else none

/-- The octets a text stands for. -/
def octets : List Char → List UInt8
  | [] => []
  | '%' :: a :: b :: rest =>
    match hexValue? a, hexValue? b with
    | some x, some y => UInt8.ofNat (16 * x + y) :: octets rest
    | _, _ => UInt8.ofNat 37 :: octets (a :: b :: rest)
  | c :: rest => String.utf8EncodeChar c ++ octets rest

/-- The text that a percent-encoded text stands for. -/
def decode (cs : List Char) : List Char := Utf8.decode (octets cs)

/-- The hexadecimal digit, in upper case, with a value below sixteen. -/
def upperHexDigit (d : Nat) : Char :=
  if d < 10 then Char.ofNat (48 + d) else Char.ofNat (55 + d)

/-- An octet after a per cent sign. -/
def encodeOctet (b : UInt8) : List Char :=
  ['%', upperHexDigit (b.toNat / 16), upperHexDigit (b.toNat % 16)]

/-- The characters that are never percent-encoded: letters and digits of ASCII and `_.-~`. -/
def isUnreserved (c : Char) : Bool :=
  c.isAlphanum || c == '_' || c == '.' || c == '-' || c == '~'

/-- One character: as it is if it is unreserved or among the further safe ones, else its octets. -/
def encodeChar (safe : List Char) (c : Char) : List Char :=
  if isUnreserved c || safe.contains c then [c]
  else (String.utf8EncodeChar c).flatMap encodeOctet

/-- The text with all characters percent-encoded but the unreserved and the further safe ones. -/
def encode (safe : List Char) (cs : List Char) : List Char := cs.flatMap (encodeChar safe)

example : encode [','] "a,b &é".toList = "a,b%20%26%C3%A9".toList := by decide
example : decode "%zz%C3%A9%".toList = "%zzé%".toList := by decide

end Catalog.Text.Percent
