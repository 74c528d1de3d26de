/-!
# UTF-8

Octets are read as characters one at a time. What no character can start with or go on with is
shown as the replacement character: each octet that starts nothing, and each beginning of a
character that is not completed. The octet that breaks a character off is read again, so reading
never loses a complete character.
-/

namespace Catalog.Text.Utf8

/-- A character under way: the octets it still needs, the bounds of the next of them, and the
    bits read so far. -/
structure Partial where
  /-- How many octets are still needed, at least one. -/
  needed : Nat
  /-- The least the next octet may be. -/
  low : Nat
  /-- The greatest the next octet may be. -/
  high : Nat
  /-- The number that the octets so far write. -/
  bits : Nat

/-- What stands for octets that are no character. -/
def replacement : Char := Char.ofNat 0xFFFD

/-- What an octet gives between characters: a character, the replacement, or the beginning of a
    character. -/
def start (b : Nat) : List Char × Option Partial :=
  if b < 0x80 then ([Char.ofNat b], none)
  else if b < 0xC2 then ([replacement], none)
  else if b < 0xE0 then ([], some ⟨1, 0x80, 0xBF, b - 0xC0⟩)
  else if b = 0xE0 then ([], some ⟨2, 0xA0, 0xBF, 0⟩)
  else if b = 0xED then ([], some ⟨2, 0x80, 0x9F, 0xD⟩)
  else if b < 0xF0 then ([], some ⟨2, 0x80, 0xBF, b - 0xE0⟩)
  else if b = 0xF0 then ([], some ⟨3, 0x90, 0xBF, 0⟩)
  else if b < 0xF4 then ([], some ⟨3, 0x80, 0xBF, b - 0xF0⟩)
  else if b = 0xF4 then ([], some ⟨3, 0x80, 0x8F, 4⟩)
  else ([replacement], none)

/-- What an octet gives after the beginning of a character, if there is one. -/
def advance (state : Option Partial) (b : Nat) : List Char × Option Partial :=
  match state with
  | none => start b
  | some p =>
    if p.low ≤ b ∧ b ≤ p.high then
      let bits := p.bits * 64 + (b - 0x80)
      if p.needed ≤ 1 then ([Char.ofNat bits], none)
      else ([], some ⟨p.needed - 1, 0x80, 0xBF, bits⟩)
    else (replacement :: (start b).1, (start b).2)

/-- The characters of the octets that follow the beginning of a character, if there is one. -/
def decodeFrom (state : Option Partial) : List UInt8 → List Char
  | [] => if state.isSome then [replacement] else []
  | b :: bs => (advance state b.toNat).1 ++ decodeFrom (advance state b.toNat).2 bs

/-- The characters that octets write, with replacements for what is none. -/
def decode (octets : List UInt8) : List Char := decodeFrom none octets

/-- The octets of a text. -/
def encode (cs : List Char) : List UInt8 := cs.flatMap String.utf8EncodeChar

example : decode (encode ['a', 'é', '€', '😀']) = ['a', 'é', '€', '😀'] := by decide
example : decode [0xE2, 0x82, 0x41] = [replacement, 'A'] := by decide

end Catalog.Text.Utf8
