import Catalog.Text.Percent

/-!
# Percent encoding, read back

The octets of a character are read as this character wherever they stand (`Utf8.decodeFrom_append`),
so reading undoes writing (`Utf8.decode_encode`). A percent-encoded text stands for the octets of
the text, whatever follows it (`Percent.octets_encode_append`), and so does a text without a per
cent sign. A text may therefore be put together from encoded and plain pieces and is read piece by
piece.

What encoding writes is made of unreserved characters, the further safe ones and per cent signs
(`Percent.mem_encode`), so none of it separates anything.
-/

namespace Catalog.Text

namespace Utf8

/-! ## Octets of one character -/

/-- The first octet of a character of two octets. -/
theorem start_two {b : Nat} (hl : 0xC2 ≤ b) (hh : b < 0xE0) :
    start b = ([], some ⟨1, 0x80, 0xBF, b - 0xC0⟩) := by
  rw [start, if_neg (by omega), if_neg (by omega), if_pos hh]

/-- The first octet of a character of three octets; it bounds the second so that no shorter writing
    and no surrogate follows. -/
theorem start_three {b : Nat} (hl : 0xE0 ≤ b) (hh : b < 0xF0) :
    start b = ([], some ⟨2, if b = 0xE0 then 0xA0 else 0x80, if b = 0xED then 0x9F else 0xBF,
      b - 0xE0⟩) := by
  rw [start, if_neg (by omega), if_neg (by omega), if_neg (by omega)]
  by_cases h : b = 0xE0
  · subst h
    rfl
  by_cases h' : b = 0xED
  · subst h'
    rfl
  rw [if_neg h, if_neg h', if_pos hh, if_neg h, if_neg h']

/-- The first octet of a character of four octets; it bounds the second so that no shorter writing
    and nothing beyond the last character follows. -/
theorem start_four {b : Nat} (hl : 0xF0 ≤ b) (hh : b ≤ 0xF4) :
    start b = ([], some ⟨3, if b = 0xF0 then 0x90 else 0x80, if b = 0xF4 then 0x8F else 0xBF,
      b - 0xF0⟩) := by
  rw [start, if_neg (by omega), if_neg (by omega), if_neg (by omega), if_neg (by omega),
    if_neg (by omega), if_neg (by omega)]
  by_cases h : b = 0xF0
  · subst h
    rfl
  by_cases h' : b = 0xF4
  · subst h'
    rfl
  rw [if_neg h, if_neg h, if_pos (by omega), if_neg h']

/-- An octet that goes on with a character which needs more of them. -/
theorem advance_more {p : Partial} {b : Nat} (hl : p.low ≤ b) (hh : b ≤ p.high)
    (hmore : 1 < p.needed) :
    advance (some p) b = ([], some ⟨p.needed - 1, 0x80, 0xBF, p.bits * 64 + (b - 0x80)⟩) := by
  rw [advance, if_pos ⟨hl, hh⟩]
  exact if_neg (by omega)

/-- An octet that completes a character. -/
theorem advance_last {p : Partial} {b : Nat} (hl : p.low ≤ b) (hh : b ≤ p.high)
    (hlast : p.needed ≤ 1) :
    advance (some p) b = ([Char.ofNat (p.bits * 64 + (b - 0x80))], none) := by
  rw [advance, if_pos ⟨hl, hh⟩]
  exact if_pos hlast

theorem decodeFrom_cons {state : Option Partial} {n : Nat} (h : n < 256) (bs : List UInt8) :
    decodeFrom state (UInt8.ofNat n :: bs) =
      (advance state n).1 ++ decodeFrom (advance state n).2 bs := by
  rw [decodeFrom, UInt8.toNat_ofNat', Nat.mod_eq_of_lt h]

/-- The octets of a character are read as this character, whatever follows. -/
theorem decodeFrom_append (c : Char) (bs : List UInt8) :
    decodeFrom none (String.utf8EncodeChar c ++ bs) = c :: decodeFrom none bs := by
  have hvalid : c.val.toNat < 0xD800 ∨ 0xDFFF < c.val.toNat ∧ c.val.toNat < 0x110000 := c.valid
  have hread {n : Nat} (h : n = c.val.toNat) : Char.ofNat n = c := h ▸ Char.ofNat_toNat c
  generalize hv : c.val.toNat = v at hvalid hread
  rw [String.utf8EncodeChar, hv]
  -- As many octets as the code takes: one, two, three or four.
  split
  · rw [List.singleton_append, decodeFrom_cons (by omega), advance, start, if_pos (by omega),
      hread rfl]
    rfl
  split
  · simp only [List.cons_append, List.nil_append]
    rw [decodeFrom_cons (by omega), advance, start_two (by omega) (by omega),
      decodeFrom_cons (by omega),
      advance_last (by dsimp only; omega) (by dsimp only; omega) (by dsimp only; omega),
      hread (by dsimp only; omega)]
    rfl
  split
  · simp only [List.cons_append, List.nil_append]
    rw [decodeFrom_cons (by omega), advance, start_three (by omega) (by omega),
      decodeFrom_cons (by omega),
      advance_more (by dsimp only; split <;> omega) (by dsimp only; split <;> omega)
        (by dsimp only; omega),
      decodeFrom_cons (by omega),
      advance_last (by dsimp only; omega) (by dsimp only; omega) (by dsimp only; omega),
      hread (by dsimp only; omega)]
    rfl
  · simp only [List.cons_append, List.nil_append]
    rw [decodeFrom_cons (by omega), advance, start_four (by omega) (by omega),
      decodeFrom_cons (by omega),
      advance_more (by dsimp only; split <;> omega) (by dsimp only; split <;> omega)
        (by dsimp only; omega),
      decodeFrom_cons (by omega),
      advance_more (by dsimp only; omega) (by dsimp only; omega) (by dsimp only; omega),
      decodeFrom_cons (by omega),
      advance_last (by dsimp only; omega) (by dsimp only; omega) (by dsimp only; omega),
      hread (by dsimp only; omega)]
    rfl

/-- The octets of a text are read as the text. -/
theorem decode_encode (cs : List Char) : decode (encode cs) = cs := by
  rw [decode]
  induction cs with
  | nil => rfl
  | cons c cs ih => rw [encode, List.flatMap_cons, decodeFrom_append, ← encode, ih]

end Utf8

namespace Percent

/-! ## Octets of an encoded text -/

theorem hexValue?_upperHexDigit {d : Nat} (h : d < 16) : hexValue? (upperHexDigit d) = some d := by
  have all : ∀ d < 16, hexValue? (upperHexDigit d) = some d := by decide
  exact all d h

theorem isUnreserved_upperHexDigit {d : Nat} (h : d < 16) :
    isUnreserved (upperHexDigit d) = true := by
  have all : ∀ d < 16, isUnreserved (upperHexDigit d) = true := by decide
  exact all d h

/-- A character that is no per cent sign stands for its own octets. -/
theorem octets_cons {c : Char} (h : c ≠ '%') (cs : List Char) :
    octets (c :: cs) = String.utf8EncodeChar c ++ octets cs := by
  rw [octets]
  exact fun _ _ _ hc _ => h hc

theorem octets_encodeOctet (b : UInt8) (cs : List Char) :
    octets (encodeOctet b ++ cs) = b :: octets cs := by
  have hb : b.toNat < 256 := b.toNat_lt
  simp only [encodeOctet, List.cons_append, List.nil_append, octets,
    hexValue?_upperHexDigit (show b.toNat / 16 < 16 by omega),
    hexValue?_upperHexDigit (show b.toNat % 16 < 16 by omega), Nat.div_add_mod, UInt8.ofNat_toNat]

theorem octets_flatMap_encodeOctet (bs : List UInt8) (cs : List Char) :
    octets (bs.flatMap encodeOctet ++ cs) = bs ++ octets cs := by
  induction bs with
  | nil => rfl
  | cons b bs ih =>
    rw [List.flatMap_cons, List.append_assoc, octets_encodeOctet, ih, List.cons_append]

variable {safe : List Char}

/-- A character that is percent-encoded where it needs to be stands for its octets. -/
theorem octets_encodeChar_append (hsafe : '%' ∉ safe) (c : Char) (cs : List Char) :
    octets (encodeChar safe c ++ cs) = String.utf8EncodeChar c ++ octets cs := by
  rw [encodeChar]
  split
  · next hc =>
    have hne : c ≠ '%' := by
      rintro rfl
      rw [Bool.or_eq_true, List.contains_iff_mem] at hc
      exact hc.elim (by decide) hsafe
    exact octets_cons hne cs
  · exact octets_flatMap_encodeOctet _ cs

/-- An encoded text stands for the octets of the text, whatever follows it. -/
theorem octets_encode_append (hsafe : '%' ∉ safe) (cs rest : List Char) :
    octets (encode safe cs ++ rest) = Utf8.encode cs ++ octets rest := by
  induction cs with
  | nil => rfl
  | cons c cs ih =>
    rw [encode, List.flatMap_cons, List.append_assoc, octets_encodeChar_append hsafe, ← encode, ih,
      ← List.append_assoc]
    rfl

/-- What is read back from an encoded text is the text. -/
theorem decode_encode (hsafe : '%' ∉ safe) (cs : List Char) : decode (encode safe cs) = cs := by
  have h := octets_encode_append hsafe cs []
  rw [List.append_nil] at h
  rw [decode, h, octets, List.append_nil, Utf8.decode_encode]

/-! ## What encoding writes -/

theorem mem_encodeOctet {b : UInt8} {c : Char} (h : c ∈ encodeOctet b) :
    c = '%' ∨ isUnreserved c = true := by
  have hb : b.toNat < 256 := b.toNat_lt
  simp only [encodeOctet, List.mem_cons, List.not_mem_nil, or_false] at h
  rcases h with rfl | rfl | rfl
  · exact .inl rfl
  · exact .inr (isUnreserved_upperHexDigit (by omega))
  · exact .inr (isUnreserved_upperHexDigit (by omega))

/-- Encoding writes unreserved characters, the further safe ones and per cent signs. -/
theorem mem_encode {cs : List Char} {c : Char} (h : c ∈ encode safe cs) :
    c = '%' ∨ isUnreserved c = true ∨ c ∈ safe := by
  obtain ⟨d, -, h⟩ := List.mem_flatMap.1 h
  rw [encodeChar] at h
  split at h
  · next hd =>
    cases List.mem_singleton.1 h
    rw [Bool.or_eq_true, List.contains_iff_mem] at hd
    exact .inr hd
  · obtain ⟨b, -, h⟩ := List.mem_flatMap.1 h
    exact (mem_encodeOctet h).imp_right .inl

end Percent

end Catalog.Text
