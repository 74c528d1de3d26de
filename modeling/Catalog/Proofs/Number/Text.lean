import Catalog.Proofs.Number.Numeral
import Catalog.Proofs.Number.Shortest

/-!
# Texts of doubles, read back

A double whose text has no exponent is written with digits on both sides of a point. Wherever the
point is put, the text writes the shortest decimal of the double, perhaps with zeros after it
(`Double.Positional`, `Double.positional_write`), so it is read as the same double
(`Double.exists_text`).
-/

namespace Catalog.Double

open Text

/-! ## The point -/

/-- A numeral with a point that writes the number of some digits with the last one at a place.
    Further zeros may be written after it. -/
structure Positional (body : List Char) (digits : Nat) (place : Int) (whole fraction : List Char)
    (zeros : Nat) : Prop where
  body_eq : body = whole ++ '.' :: fraction
  whole_ne : whole ≠ []
  fraction_ne : fraction ≠ []
  isDigit : ∀ c ∈ whole ++ fraction, c.isDigit = true
  value : digitsValue? (whole ++ fraction) = some (digits * 10 ^ zeros)
  places : (fraction.length : Int) = zeros - place

theorem isDigit_replicate {n : Nat} {c : Char} (h : c ∈ List.replicate n '0') :
    c.isDigit = true := by
  rw [List.eq_of_mem_replicate h]
  decide

theorem digitsValue?_eq {cs : List Char} (h : ∀ c ∈ cs, c.isDigit = true) :
    digitsValue? cs = some (Nat.ofDigitChars 10 cs 0) := digitsValueFrom_of_isDigit h 0

theorem ofDigitChars_zeros_append (n : Nat) (cs : List Char) :
    Nat.ofDigitChars 10 (List.replicate n '0' ++ cs) 0 = Nat.ofDigitChars 10 cs 0 := by
  rw [Nat.ofDigitChars_append, Nat.ofDigitChars_replicate_zero, Nat.mul_zero]

theorem ofDigitChars_append_zeros (cs : List Char) (n : Nat) :
    Nat.ofDigitChars 10 (cs ++ List.replicate n '0') 0 = Nat.ofDigitChars 10 cs 0 * 10 ^ n := by
  rw [Nat.ofDigitChars_append, Nat.ofDigitChars_replicate_zero, Nat.mul_comm]

/-- The digits of a number with zeros before and after them, and a point among them. -/
theorem positional_of_append {body : List Char} {digits : Nat} {place : Int}
    {whole fraction : List Char} (before zeros : Nat) (hbody : body = whole ++ '.' :: fraction)
    (hall : whole ++ fraction =
      List.replicate before '0' ++ (Nat.toDigits 10 digits ++ List.replicate zeros '0'))
    (hwhole : 0 < whole.length) (hfraction : 0 < fraction.length)
    (hplaces : (fraction.length : Int) = zeros - place) :
    Positional body digits place whole fraction zeros := by
  have isDigit : ∀ c ∈ whole ++ fraction, c.isDigit = true := by
    intro c hc
    rw [hall, List.mem_append, List.mem_append] at hc
    rcases hc with hc | hc | hc
    · exact isDigit_replicate hc
    · exact Numeral.digits_isDigit digits c hc
    · exact isDigit_replicate hc
  refine ⟨hbody, List.length_pos_iff.1 hwhole, List.length_pos_iff.1 hfraction, isDigit, ?_,
    hplaces⟩
  rw [digitsValue?_eq isDigit, hall, ofDigitChars_zeros_append, ofDigitChars_append_zeros,
    Nat.ofDigitChars_ten_toDigits]

/-- Without an exponent a number is written positionally. -/
theorem positional_write {digits : Nat} {place : Int}
    (h : 'e' ∉ layout.write (Nat.toDigits 10 digits) place) :
    ∃ whole fraction zeros,
      Positional (layout.write (Nat.toDigits 10 digits) place) digits place whole fraction
        zeros := by
  have hpos : 0 < (Nat.toDigits 10 digits).length := Nat.length_toDigits_pos
  simp only [Layout.write] at h ⊢
  split at h
  · next hrange =>
    rw [if_pos hrange]
    split
    · next hplace =>
      -- The digits and the zeros up to the point, and one zero after it.
      refine ⟨_, ['0'], _, positional_of_append 0 (place.toNat + 1) rfl ?_ ?_ Nat.one_pos ?_⟩
      · rw [List.replicate_succ', List.replicate_zero, List.nil_append, List.append_assoc]
      · rw [List.length_append]
        omega
      · rw [List.length_singleton]
        omega
    · next hplace =>
      split
      · next hsmall =>
        -- A zero before the point, and zeros between it and the digits.
        refine ⟨['0'],
          List.replicate (-(place + (Nat.toDigits 10 digits).length - 1) - 1).toNat '0' ++
            Nat.toDigits 10 digits, 0, positional_of_append
            ((-(place + (Nat.toDigits 10 digits).length - 1) - 1).toNat + 1) 0 rfl ?_ ?_ ?_ ?_⟩
        · rw [List.replicate_succ, List.replicate_zero, List.append_nil]
          rfl
        · exact Nat.one_pos
        · rw [List.length_append]
          omega
        · rw [List.length_append, List.length_replicate]
          omega
      · next hlarge =>
        -- The point stands among the digits.
        refine ⟨_, _, _, positional_of_append 0 0 rfl ?_ ?_ ?_ ?_⟩
        · rw [List.take_append_drop, List.replicate_zero, List.nil_append, List.append_nil]
        · rw [List.length_take]
          omega
        · rw [List.length_drop]
          omega
        · rw [List.length_drop]
          omega
  · exact absurd (by simp) h

/-! ## Reading back -/

variable {mantissa exponent : Nat}

/-- Zeros after a numeral do not change whether it lies in an interval. -/
theorem Interval.holds_zeros {i : Interval} {digits : Nat} {place : Int} (zeros : Nat) :
    i.holds (10 ^ (-(place - zeros)).toNat)
        (4 * (digits * 10 ^ zeros * 10 ^ (place - zeros).toNat * unitsOfOne)) =
      i.holds (10 ^ (-place).toNat) (4 * (digits * 10 ^ place.toNat * unitsOfOne)) := by
  have powers : 10 ^ zeros * 10 ^ (place - zeros).toNat * 10 ^ (-place).toNat =
      10 ^ place.toNat * 10 ^ (-(place - zeros)).toNat := by
    rw [← Nat.pow_add, ← Nat.pow_add, ← Nat.pow_add]
    exact congrArg (10 ^ ·) (by omega)
  have hpos (n : Nat) : 0 < 10 ^ n := Nat.pow_pos (by decide)
  rw [← holds_mul (hpos (-place).toNat),
    ← holds_mul (hpos (-(place - zeros)).toNat) (x := 4 * (digits * 10 ^ place.toNat * unitsOfOne)),
    Nat.mul_comm (10 ^ (-place).toNat)]
  refine congrArg (i.holds _) ?_
  generalize unitsOfOne = unit
  calc 4 * (digits * 10 ^ zeros * 10 ^ (place - zeros).toNat * unit) * 10 ^ (-place).toNat =
        4 * digits * unit * (10 ^ zeros * 10 ^ (place - zeros).toNat * 10 ^ (-place).toNat) := by
          ac_rfl
    _ = 4 * digits * unit * (10 ^ place.toNat * 10 ^ (-(place - zeros)).toNat) := by rw [powers]
    _ = 4 * (digits * 10 ^ place.toNat * unit) * 10 ^ (-(place - zeros)).toNat := by ac_rfl

/-- The decimal that a double is written with: zero, or the shortest one. -/
def decimal (mantissa exponent : Nat) : Nat × Int :=
  if mantissa = 0 then (0, 0) else shortest mantissa exponent

theorem text_eq {negative : Bool} {hcanonical : Canonical mantissa exponent} :
    (finite negative mantissa exponent hcanonical).text =
      String.ofList (Numeral.sign negative ++
        layout.write (Nat.toDigits 10 (decimal mantissa exponent).1)
          (decimal mantissa exponent).2) := by
  cases negative <;> rfl

/-- The decimal of a double is read as this double, also with zeros after it. -/
theorem ofDecimal_decimal {negative : Bool} (hcanonical : Canonical mantissa exponent)
    (zeros : Nat) :
    ofDecimal negative ((decimal mantissa exponent).1 * 10 ^ zeros)
        ((decimal mantissa exponent).2 - zeros) =
      .finite negative mantissa exponent hcanonical := by
  by_cases hzero : mantissa = 0
  · subst hzero
    obtain rfl : exponent = 0 := hcanonical.2.2.resolve_right (by decide)
    rw [decimal, if_pos rfl, Nat.zero_mul, ofDecimal, if_pos rfl]
    rfl
  · have hpos := Nat.pos_of_ne_zero hzero
    obtain ⟨place, digits, hgrid, hshortest⟩ := exists_shortest hcanonical hpos
    obtain ⟨hdigits, hholds⟩ := multipleOf?_holds hgrid
    rw [decimal, if_neg hzero, hshortest]
    exact ofDecimal_of_holds hcanonical hpos
      (Nat.mul_ne_zero hdigits (Nat.ne_of_gt (Nat.pow_pos (by decide))))
      ((Interval.holds_zeros zeros).trans hholds)

/-- A finite double whose text has no exponent is written with digits on both sides of a point, and
    its text is read as this double. -/
theorem exists_text {negative : Bool} {hcanonical : Canonical mantissa exponent}
    (h : 'e' ∉ (finite negative mantissa exponent hcanonical).text.toList) :
    ∃ whole fraction : List Char, whole ≠ [] ∧ fraction ≠ [] ∧
      (∀ c ∈ whole ++ fraction, c.isDigit = true) ∧
      (finite negative mantissa exponent hcanonical).text =
        String.ofList (Numeral.sign negative ++ (whole ++ '.' :: fraction)) ∧
      Numeral.double? (finite negative mantissa exponent hcanonical).text =
        some (.finite negative mantissa exponent hcanonical) := by
  rw [text_eq, String.toList_ofList, List.mem_append, not_or] at h
  obtain ⟨whole, fraction, zeros, written⟩ := positional_write h.2
  have digit {c : Char} (hc : c ∈ whole ++ fraction) : isDecimalDigit c = true :=
    (isDecimalDigit_of_isDigit (written.isDigit c hc)).2
  have read := Numeral.double?_eq (fun c hc => digit (List.mem_append_left _ hc)) written.whole_ne
    (fun c hc => digit (List.mem_append_right _ hc))
    (List.forall_mem_nil (Numeral.isSpace · = true)) negative
  refine ⟨whole, fraction, written.whole_ne, written.fraction_ne, written.isDigit, ?_, ?_⟩
  · rw [text_eq, written.body_eq]
  · have places : (0 : Int) - fraction.length = (decimal mantissa exponent).2 - zeros := by
      have := written.places
      omega
    rw [text_eq, written.body_eq]
    rw [List.append_nil, written.value, places, Option.map_some, ofDecimal_decimal hcanonical]
      at read
    exact read

end Catalog.Double
