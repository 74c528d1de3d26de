import Catalog.Number.Shortest

/-!
# Rounding to a double

The interval around a finite double (`Double.interval`) holds only numbers that are rounded to it:
`round_of_holds` for a fraction of units, `ofDecimal_of_holds` for a decimal numeral. Both ends
count for an even mantissa only, as of two doubles that are as near the even one is taken. Below a
power of two the doubles lie closer together, so there the lower half of the interval is half as
long, and what lies in it is rounded on the finer grid, up to the power of two.
-/

namespace Catalog.Double

/-! ## Fractions -/

/-- A fraction that lies within one half of a whole number is rounded to it; at a distance of one
    half only if the whole number is even. -/
theorem roundHalfEven_eq {num den m : Nat} (hden : 0 < den)
    (hlow : 2 * (m * den) ≤ 2 * num + den) (hhigh : 2 * num ≤ 2 * (m * den) + den)
    (hodd : m % 2 = 1 → 2 * (m * den) < 2 * num + den ∧ 2 * num < 2 * (m * den) + den) :
    roundHalfEven num den = m := by
  have hnum := Nat.div_add_mod num den
  have hrest := Nat.mod_lt num hden
  have hle : num / den < m + 1 := by
    refine Nat.div_lt_of_lt_mul ?_
    rw [Nat.mul_add, Nat.mul_one, Nat.mul_comm den m]
    omega
  have hge : m < num / den + 2 := by
    refine Nat.lt_of_mul_lt_mul_right (a := den) ?_
    rw [Nat.add_mul, Nat.mul_comm (num / den) den]
    omega
  simp only [roundHalfEven]
  generalize num / den = quotient at *
  generalize num % den = rest at *
  obtain rfl | rfl : quotient = m ∨ m = quotient + 1 := by omega
  · rw [Nat.mul_comm den quotient] at hnum
    exact if_neg (by omega)
  · rw [Nat.add_mul, Nat.one_mul, Nat.mul_comm quotient den] at hlow hhigh hodd
    exact if_pos (by omega)

/-! ## The interval -/

variable {mantissa exponent : Nat}

theorem Interval.holds_iff {i : Interval} {scale x : Nat} :
    i.holds scale x = true ↔ i.low * scale ≤ x ∧ x ≤ i.high * scale ∧
      (i.closed = false → i.low * scale < x ∧ x < i.high * scale) := by
  rw [Interval.holds]
  cases i.closed with
  | true => simp
  | false =>
    simp only [Bool.false_eq_true, if_false, Bool.and_eq_true, decide_eq_true_eq, forall_const]
    omega

/-- Whether a fraction lies in the interval is up to its value. -/
theorem Interval.holds_mul {i : Interval} {scale x k : Nat} (hk : 0 < k) :
    i.holds (scale * k) (x * k) = i.holds scale x := by
  simp only [Interval.holds, ← Nat.mul_assoc, Nat.mul_le_mul_right_iff hk,
    Nat.mul_lt_mul_right hk]

/-- What it means to lie in the interval, in halves of the distance to the next double. The last
    bound is for a power of two. -/
theorem bounds_of_holds {num den : Nat}
    (h : (interval mantissa exponent).holds den (4 * num) = true) (hpos : 0 < mantissa) :
    2 * (mantissa * (den * 2 ^ exponent)) ≤ 2 * num + den * 2 ^ exponent ∧
      2 * num ≤ 2 * (mantissa * (den * 2 ^ exponent)) + den * 2 ^ exponent ∧
      (mantissa % 2 = 1 →
        2 * (mantissa * (den * 2 ^ exponent)) < 2 * num + den * 2 ^ exponent ∧
          2 * num < 2 * (mantissa * (den * 2 ^ exponent)) + den * 2 ^ exponent) ∧
      (mantissa = 2 ^ 52 → 0 < exponent →
        4 * (mantissa * (den * 2 ^ exponent)) ≤ 4 * num + den * 2 ^ exponent) := by
  obtain ⟨hlow, hhigh, hopen⟩ := Interval.holds_iff.1 h
  simp only [interval, Nat.sub_mul, Nat.add_mul, Nat.mul_assoc, Nat.mul_comm (2 ^ exponent) den]
    at hlow hhigh hopen
  have hstep : den * 2 ^ exponent ≤ mantissa * (den * 2 ^ exponent) :=
    Nat.le_mul_of_pos_left _ hpos
  have hodd : mantissa % 2 = 1 → (mantissa % 2 == 0) = false := fun h => by rw [h]; rfl
  generalize mantissa * (den * 2 ^ exponent) = value at *
  -- Below a power of two the interval reaches only half as far.
  split at hlow
  · next hedge =>
    simp only [if_pos hedge, Nat.mul_comm (2 ^ exponent) den] at hlow hopen
    generalize den * 2 ^ exponent = step at *
    refine ⟨by omega, by omega, fun hm => ?_, fun _ _ => by omega⟩
    have := hopen (hodd hm)
    omega
  · next hedge =>
    simp only [if_neg hedge, Nat.mul_assoc, Nat.mul_comm (2 ^ exponent) den] at hlow hopen
    generalize den * 2 ^ exponent = step at *
    refine ⟨by omega, by omega, fun hm => ?_, fun hm he => absurd ⟨hm, he⟩ hedge⟩
    have := hopen (hodd hm)
    omega

/-! ## Rounding -/

theorem bits_sub_eq {q e : Nat} (hlow : e ≠ 0 → 2 ^ (52 + e) ≤ q) (hhigh : q < 2 ^ (53 + e)) :
    (if q = 0 then 0 else Nat.log2 q + 1) - 53 = e := by
  split
  · next hq =>
    subst hq
    by_cases he : e = 0
    · rw [he]
    · exact absurd (Nat.lt_of_lt_of_le (Nat.two_pow_pos _) (hlow he)) (Nat.lt_irrefl 0)
  · next hq =>
    have hupper := (Nat.log2_lt hq).2 hhigh
    by_cases he : e = 0
    · omega
    · have hlower := (Nat.le_log2 hq).2 (hlow he)
      omega

theorem round_eq {negative : Bool} {num den m e : Nat} (hlow : e ≠ 0 → 2 ^ (52 + e) ≤ num / den)
    (hhigh : num / den < 2 ^ (53 + e)) (hround : roundHalfEven num (den * 2 ^ e) = m) :
    round negative num den =
      if m = 2 ^ 53 then ofParts negative (2 ^ 52) (e + 1) else ofParts negative m e := by
  simp only [round, bits_sub_eq hlow hhigh, hround]

theorem ofParts_of_canonical {negative : Bool} (h : Canonical mantissa exponent) :
    ofParts negative mantissa exponent = .finite negative mantissa exponent h := dif_pos h

theorem mul_two_pow_add (den k e : Nat) : den * 2 ^ (k + e) = 2 ^ k * (den * 2 ^ e) := by
  rw [Nat.pow_add, Nat.mul_left_comm]

/-- What lies less than a quarter of a step below a power of two is rounded up to it. There the
    exponent is one less, and the greatest mantissa is exceeded. -/
theorem round_below_power {negative : Bool} {num den e : Nat} (hden : 0 < den)
    (hlow : 4 * (2 ^ 52 * (den * 2 ^ (e + 1))) ≤ 4 * num + den * 2 ^ (e + 1))
    (hhigh : num < 2 ^ 52 * (den * 2 ^ (e + 1))) (hcanonical : Canonical (2 ^ 52) (e + 1)) :
    round negative num den = .finite negative (2 ^ 52) (e + 1) hcanonical := by
  rw [Nat.add_comm e 1, mul_two_pow_add] at hlow hhigh
  have hround : roundHalfEven num (den * 2 ^ e) = 2 ^ 53 := by
    refine roundHalfEven_eq (Nat.mul_pos hden (Nat.two_pow_pos _)) ?_ ?_ fun hodd => ?_
    · omega
    · omega
    · exact absurd hodd (by decide)
  have hquotient : e ≠ 0 → 2 ^ (52 + e) ≤ num / den := fun _ =>
    (Nat.le_div_iff_mul_le hden).2 (by rw [Nat.mul_comm, mul_two_pow_add]; omega)
  have hbelow : num / den < 2 ^ (53 + e) :=
    Nat.div_lt_of_lt_mul (by rw [mul_two_pow_add]; omega)
  rw [round_eq hquotient hbelow hround, if_pos rfl, ofParts_of_canonical hcanonical]

/-- A fraction of units in the interval around a double is rounded to this double. -/
theorem round_of_holds {negative : Bool} {num den : Nat} (hden : 0 < den)
    (hcanonical : Canonical mantissa exponent) (hpos : 0 < mantissa)
    (h : (interval mantissa exponent).holds den (4 * num) = true) :
    round negative num den = .finite negative mantissa exponent hcanonical := by
  obtain ⟨hlow, hhigh, hodd, hedge⟩ := bounds_of_holds h hpos
  have hstep : 0 < den * 2 ^ exponent := Nat.mul_pos hden (Nat.two_pow_pos _)
  by_cases hsame : exponent ≠ 0 → 2 ^ 52 * (den * 2 ^ exponent) ≤ num
  · -- The fraction lies where the doubles have the exponent of this one.
    have hmantissa : mantissa * (den * 2 ^ exponent) ≤ (2 ^ 53 - 1) * (den * 2 ^ exponent) :=
      Nat.mul_le_mul_right _ (by have := hcanonical.1; omega)
    have hquotient : exponent ≠ 0 → 2 ^ (52 + exponent) ≤ num / den := fun he =>
      (Nat.le_div_iff_mul_le hden).2 (by rw [Nat.mul_comm, mul_two_pow_add]; exact hsame he)
    have hbelow : num / den < 2 ^ (53 + exponent) :=
      Nat.div_lt_of_lt_mul (by rw [mul_two_pow_add]; omega)
    rw [round_eq hquotient hbelow (roundHalfEven_eq hstep hlow hhigh hodd),
      if_neg (Nat.ne_of_lt hcanonical.1), ofParts_of_canonical hcanonical]
  · -- It lies below, which only the interval around a power of two goes on to.
    obtain ⟨hexponent, hbelow⟩ : exponent ≠ 0 ∧ num < 2 ^ 52 * (den * 2 ^ exponent) := by
      simpa only [Classical.not_imp, Nat.not_le] using hsame
    have htop : mantissa = 2 ^ 52 := by
      refine Nat.le_antisymm (Nat.le_of_not_lt fun hlarger => ?_)
        (hcanonical.2.2.resolve_left hexponent)
      have : (2 ^ 52 + 1) * (den * 2 ^ exponent) ≤ mantissa * (den * 2 ^ exponent) :=
        Nat.mul_le_mul_right _ hlarger
      omega
    obtain ⟨e, rfl⟩ := Nat.exists_eq_add_one_of_ne_zero hexponent
    subst htop
    exact round_below_power hden (hedge rfl e.succ_pos) hbelow hcanonical

/-! ## Decimal numerals -/

theorem length_toDigits_add_le {n a k : Nat} (hn : n ≠ 0) (h : n * 10 ^ a < 10 ^ k) :
    (Nat.toDigits 10 n).length + a ≤ k := by
  have hak : a < k := (Nat.pow_lt_pow_iff_right (a := 10) (by decide)).1 <|
    Nat.lt_of_le_of_lt (Nat.le_mul_of_pos_left _ (Nat.pos_of_ne_zero hn)) h
  have hlength : (Nat.toDigits 10 n).length ≤ k - a := by
    refine (Nat.length_toDigits_le_iff (by decide) (by omega)).2 ?_
    refine Nat.lt_of_mul_lt_mul_right (a := 10 ^ a) ?_
    rwa [← Nat.pow_add, Nat.sub_add_cancel (Nat.le_of_lt hak)]
  omega

theorem lt_length_toDigits_add {n a k : Nat} (h : 10 ^ k ≤ n * 10 ^ a) :
    k < (Nat.toDigits 10 n).length + a := by
  have hn : n < 10 ^ (Nat.toDigits 10 n).length :=
    (Nat.length_toDigits_le_iff (by decide) Nat.length_toDigits_pos).1 Nat.le.refl
  refine (Nat.pow_lt_pow_iff_right (a := 10) (by decide)).1 (Nat.lt_of_le_of_lt h ?_)
  rw [Nat.pow_add]
  exact Nat.mul_lt_mul_of_pos_right hn (Nat.pow_pos (by decide))

/-- A numeral in the interval around a double is not out of range by its length. -/
theorem places_of_holds {digits a b : Nat} (hcanonical : Canonical mantissa exponent)
    (hpos : 0 < mantissa) (hdigits : digits ≠ 0)
    (h : (interval mantissa exponent).holds (10 ^ b) (4 * (digits * 10 ^ a * unitsOfOne)) = true) :
    (Nat.toDigits 10 digits).length + a ≤ 310 + b ∧
      b < (Nat.toDigits 10 digits).length + (a + 330) := by
  obtain ⟨hlow, hhigh, -⟩ := bounds_of_holds h hpos
  have hvalue : 10 ^ b * 2 ^ exponent ≤ mantissa * (10 ^ b * 2 ^ exponent) :=
    Nat.le_mul_of_pos_left _ hpos
  have hgreatest : 2 ^ 53 * 2 ^ 2045 ≤ 10 ^ 310 * unitsOfOne := by decide +kernel
  have hleast : unitsOfOne * 2 ≤ 10 ^ 330 := by decide +kernel
  constructor
  · -- It is less than the double after the greatest one.
    refine length_toDigits_add_le hdigits (Nat.lt_of_mul_lt_mul_right (a := unitsOfOne) ?_)
    have hmantissa : (mantissa + 1) * (10 ^ b * 2 ^ exponent) ≤ 2 ^ 53 * (10 ^ b * 2 ^ exponent) :=
      Nat.mul_le_mul_right _ hcanonical.1
    have hstep : 0 < 10 ^ b * 2 ^ exponent :=
      Nat.mul_pos (Nat.pow_pos (by decide)) (Nat.two_pow_pos _)
    calc digits * 10 ^ a * unitsOfOne < (mantissa + 1) * (10 ^ b * 2 ^ exponent) := by
          rw [Nat.add_mul, Nat.one_mul]
          omega
      _ ≤ 2 ^ 53 * (10 ^ b * 2 ^ exponent) := hmantissa
      _ ≤ 2 ^ 53 * (10 ^ b * 2 ^ 2045) :=
          Nat.mul_le_mul_left _ (Nat.mul_le_mul_left _
            (Nat.pow_le_pow_right (by decide) hcanonical.2.1))
      _ = 10 ^ b * (2 ^ 53 * 2 ^ 2045) := Nat.mul_left_comm _ _ _
      _ ≤ 10 ^ b * (10 ^ 310 * unitsOfOne) := Nat.mul_le_mul_left _ hgreatest
      _ = 10 ^ (310 + b) * unitsOfOne := by rw [Nat.add_comm, Nat.pow_add, Nat.mul_assoc]
  · -- It is not less than half of the least double.
    refine lt_length_toDigits_add ?_
    calc 10 ^ b ≤ 10 ^ b * 2 ^ exponent := Nat.le_mul_of_pos_right _ (Nat.two_pow_pos _)
      _ ≤ digits * 10 ^ a * unitsOfOne * 2 := by omega
      _ = digits * 10 ^ a * (unitsOfOne * 2) := Nat.mul_assoc _ _ _
      _ ≤ digits * 10 ^ a * 10 ^ 330 := Nat.mul_le_mul_left _ hleast
      _ = digits * 10 ^ (a + 330) := by rw [Nat.pow_add, Nat.mul_assoc]

/-- A decimal numeral in the interval around a double is read as this double. -/
theorem ofDecimal_of_holds {negative : Bool} {digits : Nat} {place : Int}
    (hcanonical : Canonical mantissa exponent) (hpos : 0 < mantissa) (hdigits : digits ≠ 0)
    (h : (interval mantissa exponent).holds (10 ^ (-place).toNat)
      (4 * (digits * 10 ^ place.toNat * unitsOfOne)) = true) :
    ofDecimal negative digits place = .finite negative mantissa exponent hcanonical := by
  obtain ⟨hupper, hlower⟩ := places_of_holds hcanonical hpos hdigits h
  rw [ofDecimal, if_neg hdigits]
  dsimp only
  rw [if_neg (by omega), if_neg (by omega)]
  split
  · next hplace =>
    rw [Int.toNat_of_nonpos (by omega), Nat.pow_zero] at h
    exact round_of_holds Nat.one_pos hcanonical hpos h
  · next hplace =>
    rw [Int.toNat_of_nonpos (by omega : place ≤ 0), Nat.pow_zero, Nat.mul_one] at h
    exact round_of_holds (Nat.pow_pos (by decide)) hcanonical hpos h

end Catalog.Double
