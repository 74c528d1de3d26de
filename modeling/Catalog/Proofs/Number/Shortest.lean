import Catalog.Proofs.Number.Rounding

/-!
# Shortest decimals are read back

The decimal that `Double.shortest` finds for a double lies in the interval around it, so it is read
as the same double (`Double.ofDecimal_shortest`). What a grid gives is in the interval by the test
that it passed (`Double.multipleOf?_holds`). On the finest of the grids that are tried one step is
less than the upper half of the interval (`Double.finest_step`), so there the next point above the
double is in it, and the search does not come out empty.
-/

namespace Catalog.Double

variable {mantissa exponent : Nat}

/-! ## Grids -/

theorem scale_eq (place : Int) :
    (if place < 0 then 10 ^ (-place).toNat else 1) = 10 ^ (-place).toNat := by
  split
  · rfl
  · rw [Int.toNat_of_nonpos (by omega : -place ≤ 0), Nat.pow_zero]

theorem step_eq (one : Nat) (place : Int) :
    (if place < 0 then one else one * 10 ^ place.toNat) = one * 10 ^ place.toNat := by
  split
  · rw [Int.toNat_of_nonpos (by omega : place ≤ 0), Nat.pow_zero, Nat.mul_one]
  · rfl

/-- What a grid gives lies in the interval. -/
theorem multipleOf?_holds {i : Interval} {place : Int} {digits : Nat}
    (h : i.multipleOf? place = some digits) :
    digits ≠ 0 ∧
      i.holds (10 ^ (-place).toNat) (4 * (digits * 10 ^ place.toNat * unitsOfOne)) = true := by
  have point : 4 * (digits * 10 ^ place.toNat * unitsOfOne) =
      digits * (4 * unitsOfOne * 10 ^ place.toNat) := by
    rw [Nat.mul_assoc, Nat.mul_left_comm, Nat.mul_assoc 4, Nat.mul_comm unitsOfOne]
  rw [point]
  simp only [Interval.multipleOf?] at h
  rw [scale_eq, step_eq (4 * unitsOfOne)] at h
  generalize 10 ^ (-place).toNat = scale at *
  generalize 4 * unitsOfOne * 10 ^ place.toNat = step at *
  generalize i.value * scale / step = below at *
  have lower {a : Nat} (ha : (if i.holds scale (below * step) && below != 0 then some below
      else none) = some a) : a ≠ 0 ∧ i.holds scale (a * step) = true := by
    split at ha
    · next hholds =>
      cases ha
      rw [Bool.and_eq_true, bne_iff_ne] at hholds
      exact ⟨hholds.2, hholds.1⟩
    · cases ha
  have upper {b : Nat} (hb : (if i.holds scale ((below + 1) * step) then some (below + 1)
      else none) = some b) : b ≠ 0 ∧ i.holds scale (b * step) = true := by
    split at hb
    · next hholds =>
      cases hb
      exact ⟨below.succ_ne_zero, hholds⟩
    · cases hb
  -- Of two points the nearer one is taken.
  split at h
  · next a b ha hb =>
    split at h
    · cases h
      exact lower ha
    · cases h
      exact upper hb
  · next a ha hb =>
    cases h
    exact lower ha
  · exact upper h

/-- A grid whose steps are less than the upper half of the interval has a point in it. -/
theorem isSome_multipleOf? (mantissa : Nat) {place : Int}
    (h : 4 * unitsOfOne * 10 ^ place.toNat < 2 * 2 ^ exponent * 10 ^ (-place).toNat) :
    ((interval mantissa exponent).multipleOf? place).isSome = true := by
  have hstep : 0 < 4 * unitsOfOne * 10 ^ place.toNat :=
    Nat.mul_pos (by decide +kernel) (Nat.pow_pos (by decide))
  simp only [Interval.multipleOf?]
  rw [scale_eq, step_eq (4 * unitsOfOne)]
  generalize 10 ^ (-place).toNat = scale at *
  generalize 4 * unitsOfOne * 10 ^ place.toNat = step at *
  have hdiv := Nat.div_add_mod ((interval mantissa exponent).value * scale) step
  have hrest := Nat.mod_lt ((interval mantissa exponent).value * scale) hstep
  have hlow : (interval mantissa exponent).low * scale ≤
      (interval mantissa exponent).value * scale :=
    Nat.mul_le_mul_right _ (Nat.sub_le _ _)
  have hhigh : (interval mantissa exponent).high * scale =
      (interval mantissa exponent).value * scale + 2 * 2 ^ exponent * scale :=
    Nat.add_mul _ _ _
  generalize (interval mantissa exponent).value * scale / step = below at *
  -- The next point above the double is at most one step away from it.
  have hpoint : (below + 1) * step = step * below + step := by
    rw [Nat.add_mul, Nat.one_mul, Nat.mul_comm]
  have hholds : (interval mantissa exponent).holds scale ((below + 1) * step) = true := by
    rw [Interval.holds_iff, hpoint]
    exact ⟨by omega, by omega, fun _ => ⟨by omega, by omega⟩⟩
  rw [if_pos hholds]
  split
  · split <;> rfl
  · rfl
  · rfl

/-! ## The finest grid -/

theorem pow_ten_le (n : Nat) : 10 ^ n ≤ 2 ^ (10 * (n / 3 + 1)) := by
  rw [Nat.pow_mul]
  calc 10 ^ n ≤ 10 ^ (3 * (n / 3 + 1)) := Nat.pow_le_pow_right (by decide) (by omega)
    _ = (10 ^ 3) ^ (n / 3 + 1) := Nat.pow_mul _ _ _
    _ ≤ (2 ^ 10) ^ (n / 3 + 1) := Nat.pow_le_pow_left (by decide) _

theorem le_pow_ten (n : Nat) : 2 ^ (33 * (n / 10)) ≤ 10 ^ n := by
  rw [Nat.pow_mul]
  calc (2 ^ 33) ^ (n / 10) ≤ (10 ^ 10) ^ (n / 10) := Nat.pow_le_pow_left (by decide) _
    _ = 10 ^ (10 * (n / 10)) := (Nat.pow_mul _ _ _).symm
    _ ≤ 10 ^ n := Nat.pow_le_pow_right (by decide) (by omega)

/-- The place above the interval, with the logarithm of two to the base ten as a fraction. -/
theorem topPlace_le (hcanonical : Canonical mantissa exponent) (hpos : 0 < mantissa) :
    100000 * ((interval mantissa exponent).topPlace - 2) ≤ ((exponent : Int) - 1021) * 30103 := by
  have hvalue : (interval mantissa exponent).value ≠ 0 :=
    Nat.ne_of_gt (Nat.mul_pos (by decide) (Nat.mul_pos hpos (Nat.two_pow_pos _)))
  have hbits : Nat.log2 (interval mantissa exponent).value < 55 + exponent := by
    refine (Nat.log2_lt hvalue).2 ?_
    calc 4 * (mantissa * 2 ^ exponent) < 4 * (2 ^ 53 * 2 ^ exponent) :=
          Nat.mul_lt_mul_of_pos_left
            (Nat.mul_lt_mul_of_pos_right hcanonical.1 (Nat.two_pow_pos _)) (by decide)
      _ = 2 ^ (55 + exponent) := by rw [Nat.pow_add 2 55, ← Nat.mul_assoc]
  rw [Interval.topPlace, Int.fdiv_eq_ediv_of_nonneg _ (by decide)]
  omega

/-- On the finest grid that is tried one step is less than the upper half of the interval. -/
theorem finest_step (hcanonical : Canonical mantissa exponent) (hpos : 0 < mantissa) :
    4 * unitsOfOne * 10 ^ ((interval mantissa exponent).topPlace - 39).toNat <
      2 * 2 ^ exponent * 10 ^ (-((interval mantissa exponent).topPlace - 39)).toNat := by
  have htop := topPlace_le hcanonical hpos
  have hexponent := hcanonical.2.1
  generalize hplace : (interval mantissa exponent).topPlace - 39 = place
  -- The exponent has a name, so that nothing computes the power.
  obtain ⟨unit, hunit, units⟩ : ∃ unit, unit = 1076 ∧ 4 * unitsOfOne = 2 ^ unit :=
    ⟨_, rfl, by decide +kernel⟩
  have half : 2 * 2 ^ exponent = 2 ^ (exponent + 1) := by rw [Nat.pow_succ, Nat.mul_comm]
  rw [units, half]
  obtain ⟨n, rfl | rfl⟩ := place.eq_nat_or_neg
  · rw [Int.toNat_natCast, Int.toNat_of_nonpos (by omega), Nat.pow_zero, Nat.mul_one]
    calc 2 ^ unit * 10 ^ n ≤ 2 ^ unit * 2 ^ (10 * (n / 3 + 1)) :=
          Nat.mul_le_mul_left _ (pow_ten_le n)
      _ = 2 ^ (unit + 10 * (n / 3 + 1)) := (Nat.pow_add _ _ _).symm
      _ < 2 ^ (exponent + 1) := Nat.pow_lt_pow_right (by decide) (by omega)
  · rw [Int.toNat_of_nonpos (by omega), Int.neg_neg, Int.toNat_natCast, Nat.pow_zero, Nat.mul_one]
    calc 2 ^ unit < 2 ^ (exponent + 1 + 33 * (n / 10)) :=
          Nat.pow_lt_pow_right (by decide) (by omega)
      _ = 2 ^ (exponent + 1) * 2 ^ (33 * (n / 10)) := Nat.pow_add _ _ _
      _ ≤ 2 ^ (exponent + 1) * 10 ^ n := Nat.mul_le_mul_left _ (le_pow_ten n)

/-! ## The search -/

/-- The search finds a decimal on one of the grids. -/
theorem exists_shortest (hcanonical : Canonical mantissa exponent) (hpos : 0 < mantissa) :
    ∃ place digits, (interval mantissa exponent).multipleOf? place = some digits ∧
      shortest mantissa exponent = (digits, place) := by
  have hfinest := isSome_multipleOf? mantissa (finest_step hcanonical hpos)
  have hsome : ((List.range 40).findSome? fun (n : Nat) =>
      ((interval mantissa exponent).multipleOf?
        ((interval mantissa exponent).topPlace - n)).map fun digits =>
          (digits, (interval mantissa exponent).topPlace - n)).isSome = true := by
    rw [List.findSome?_isSome_iff]
    exact ⟨39, List.mem_range.2 (by decide), by rw [Option.isSome_map]; exact hfinest⟩
  obtain ⟨found, hfound⟩ := Option.isSome_iff_exists.1 hsome
  obtain ⟨n, -, hn⟩ := List.exists_of_findSome?_eq_some hfound
  obtain ⟨digits, hdigits, rfl⟩ := Option.map_eq_some_iff.1 hn
  refine ⟨_, digits, hdigits, ?_⟩
  rw [shortest]
  exact congrArg (fun found => found.getD (0, 0)) hfound

/-- The shortest decimal of a double is read as this double. -/
theorem ofDecimal_shortest {negative : Bool} (hcanonical : Canonical mantissa exponent)
    (hpos : 0 < mantissa) :
    ofDecimal negative (shortest mantissa exponent).1 (shortest mantissa exponent).2 =
      .finite negative mantissa exponent hcanonical := by
  obtain ⟨place, digits, hgrid, hshortest⟩ := exists_shortest hcanonical hpos
  obtain ⟨hdigits, hholds⟩ := multipleOf?_holds hgrid
  rw [hshortest]
  exact ofDecimal_of_holds hcanonical hpos hdigits hholds

end Catalog.Double
