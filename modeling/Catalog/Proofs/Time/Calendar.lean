import Catalog.Time.Instant

/-!
# The fields of an instant

Every day of the calendar has one date. The date that is found for an ordinal exists
(`Date.valid_ofOrdinal`) and has this ordinal (`Date.ordinal_ofOrdinal`): the cycles of 400, 100, 4
and 1 years leave the number of a day in its year (`Date.daysBeforeYear_add`), and the months of the
year leave the number of a day in its month (`Date.monthAndDay_spec`).

So an instant is found again from the date and the time of day that it falls on
(`Instant.ofFields?_date_clock`).
-/

namespace Catalog

namespace Date

theorem daysInMonth_le (year month : Nat) : daysInMonth year month ≤ 31 := by
  unfold daysInMonth
  grind

/-- The number of days of a year. -/
def daysInYear (year : Nat) : Nat := daysOfMonths year 12

theorem daysInYear_eq (year : Nat) : daysInYear year = if isLeap year then 366 else 365 := by
  cases h : isLeap year <;> simp [daysInYear, daysOfMonths, daysInMonth, h]

/-- A day lies so many cycles of 400, 100, 4 and 1 years after the first one, and so many days into
    its year. The last year of a cycle of four has a day more, unless that cycle is the last one of
    100 years and these are not the last ones of 400. -/
theorem exists_cycles (n : Nat) : ∃ cycles400 cycles100 cycles4 years days,
    yearAndDay n = (400 * cycles400 + 100 * cycles100 + 4 * cycles4 + years + 1, days) ∧
      n = 146097 * cycles400 + 36524 * cycles100 + 1461 * cycles4 + 365 * years + days ∧
      cycles100 ≤ 3 ∧ cycles4 ≤ 24 ∧ years ≤ 3 ∧ days ≤ 365 ∧
      (days = 365 → years = 3 ∧ (cycles4 = 24 → cycles100 = 3)) := by
  refine ⟨_, _, _, _, _, rfl, ?_⟩
  omega

/-- The days before the year and those into it are all days. -/
theorem daysBeforeYear_add (n : Nat) :
    daysBeforeYear (yearAndDay n).1 + (yearAndDay n).2 = n := by
  obtain ⟨q, c, f, y, days, hn, sum, hc, hf, hy, -⟩ := exists_cycles n
  have four : (400 * q + 100 * c + 4 * f + y) / 4 = 100 * q + 25 * c + f := by omega
  have hundred : (400 * q + 100 * c + 4 * f + y) / 100 = 4 * q + c := by omega
  have fourHundred : (400 * q + 100 * c + 4 * f + y) / 400 = q := by omega
  rw [hn, daysBeforeYear, Nat.add_sub_cancel, four, hundred, fourHundred]
  omega

/-- The year has a day with the number that is left. -/
theorem yearAndDay_lt (n : Nat) : (yearAndDay n).2 < daysInYear (yearAndDay n).1 := by
  obtain ⟨q, c, f, y, days, hn, -, hc, hf, hy, hdays, last⟩ := exists_cycles n
  rw [hn, daysInYear_eq]
  split
  · exact Nat.lt_succ_of_le hdays
  · next common =>
    simp only [isLeap, Bool.and_eq_true, Bool.or_eq_true, beq_iff_eq, bne_iff_ne] at common
    omega

theorem year_bounds {n : Nat} (h : n < dayCount) :
    1 ≤ (yearAndDay n).1 ∧ (yearAndDay n).1 ≤ 9999 := by
  obtain ⟨q, c, f, y, days, hn, sum, hc, hf, hy, -⟩ := exists_cycles n
  rw [hn]
  rw [dayCount] at h
  omega

/-- Going on month by month leaves the number of a day in its month. -/
theorem monthAndDay_spec (year : Nat) {before days left : Nat}
    (h : daysOfMonths year before + days < daysOfMonths year (before + 1 + left)) :
    ∃ passed day, monthAndDay year (before + 1) days left = (passed + 1, day + 1) ∧
      passed ≤ before + left ∧ day < daysInMonth year (passed + 1) ∧
      daysOfMonths year passed + day = daysOfMonths year before + days := by
  induction left generalizing before days with
  | zero =>
    rw [Nat.add_zero, daysOfMonths] at h
    exact ⟨before, days, rfl, Nat.le_refl _, by omega, rfl⟩
  | succ left ih =>
    rw [monthAndDay]
    split
    · next inside => exact ⟨before, days, rfl, by omega, inside, rfl⟩
    · next beyond =>
      have month : daysOfMonths year (before + 1) =
          daysOfMonths year before + daysInMonth year (before + 1) := by rw [daysOfMonths]
      have rest : daysOfMonths year (before + 1) + (days - daysInMonth year (before + 1)) <
          daysOfMonths year (before + 1 + 1 + left) := by
        rw [show before + 1 + 1 + left = before + 1 + (left + 1) by omega]
        omega
      obtain ⟨passed, day, found, hpassed, hday, sum⟩ := ih rest
      exact ⟨passed, day, found, by omega, hday, by omega⟩

/-- The date of a day has its month and day of the month from its number in the year. -/
theorem ofOrdinal_eq (n : Nat) : ∃ passed day,
    ofOrdinal n = ⟨(yearAndDay n).1, passed + 1, day + 1⟩ ∧ passed ≤ 11 ∧
      day < daysInMonth (yearAndDay n).1 (passed + 1) ∧
      daysOfMonths (yearAndDay n).1 passed + day = (yearAndDay n).2 := by
  have inYear : daysOfMonths (yearAndDay n).1 0 + (yearAndDay n).2 <
      daysOfMonths (yearAndDay n).1 (0 + 1 + 11) := by
    rw [daysOfMonths, Nat.zero_add]
    exact yearAndDay_lt n
  obtain ⟨passed, day, found, hpassed, hday, sum⟩ := monthAndDay_spec _ inYear
  rw [daysOfMonths, Nat.zero_add] at sum
  refine ⟨passed, day, ?_, by omega, hday, sum⟩
  rw [ofOrdinal]
  dsimp only
  rw [found]

/-- The date of a day of the calendar exists. -/
theorem valid_ofOrdinal {n : Nat} (h : n < dayCount) : (ofOrdinal n).Valid := by
  obtain ⟨passed, day, found, hpassed, hday, -⟩ := ofOrdinal_eq n
  obtain ⟨first, last⟩ := year_bounds h
  rw [found]
  exact ⟨first, last, Nat.le_add_left 1 passed, Nat.succ_le_succ hpassed, Nat.le_add_left 1 day,
    hday⟩

/-- The date of a day is that day. -/
theorem ordinal_ofOrdinal (n : Nat) : (ofOrdinal n).ordinal = n := by
  obtain ⟨passed, day, found, -, -, sum⟩ := ofOrdinal_eq n
  rw [found, ordinal, Nat.add_sub_cancel, Nat.add_sub_cancel, Nat.add_assoc, sum]
  exact daysBeforeYear_add n

end Date

namespace Instant

variable (t : Instant)

theorem valid_date : t.date.Valid := by
  refine Date.valid_ofOrdinal ?_
  have range := t.inRange
  simp only [microsOfAll, microsOfDay] at range ⊢
  omega

theorem valid_clock : t.clock.Valid := by
  simp only [clock, Clock.ofMicros, Clock.Valid, microsOfDay]
  omega

/-- The date and the time of day of an instant say how far it is from the beginning. -/
theorem micros_date_clock : t.date.ordinal * microsOfDay + t.clock.micros = t.micros := by
  rw [date, Date.ordinal_ofOrdinal, clock, Clock.micros_ofMicros, Nat.mul_comm]
  exact Nat.div_add_mod _ _

/-- An instant is found from its date and its time of day. -/
theorem ofFields?_date_clock : ofFields? t.date t.clock = some t := by
  rw [ofFields?, if_pos ⟨t.valid_date, t.valid_clock⟩, micros_date_clock]
  exact ofMicros?_micros t

end Instant

end Catalog
