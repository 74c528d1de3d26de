import Catalog.Proofs.Time.Calendar

/-!
# Dates and instants in order

A date comes before another by its year, then its month, then its day (`Date.Before`). Of dates that
exist the one that comes before has the smaller ordinal (`Date.ordinal_lt`), so that each of them is
found again from its ordinal (`Date.ofOrdinal_ordinal`).

So there is one instant for each date and time of day (`Instant.ofFields?_eq_some`), and an instant
is earlier if its date comes before, or on the same date its time of day.
-/

namespace Catalog

namespace Date

variable {d e : Date}

/-- A date comes before another: by the year, then the month, then the day. -/
def Before (d e : Date) : Prop :=
  d.year < e.year ∨ d.year = e.year ∧ (d.month < e.month ∨ d.month = e.month ∧ d.day < e.day)

theorem before_or_eq_or_before (d e : Date) : d.Before e ∨ d = e ∨ e.Before d := by
  obtain ⟨y, m, k⟩ := d
  obtain ⟨y', m', k'⟩ := e
  simp only [Before, Date.mk.injEq]
  omega

theorem daysOfMonths_mono (year : Nat) {m n : Nat} (h : m ≤ n) :
    daysOfMonths year m ≤ daysOfMonths year n := by
  induction h with
  | refl => exact Nat.le_refl _
  | step _ ih => exact Nat.le_trans ih (Nat.le_add_right _ _)

/-- The days of a month that exist are among those of the months up to it. -/
theorem daysOfMonths_add_lt {year month day : Nat} (hm : 1 ≤ month) (hd : 1 ≤ day)
    (h : day ≤ daysInMonth year month) :
    daysOfMonths year (month - 1) + (day - 1) < daysOfMonths year month := by
  obtain ⟨before, rfl⟩ := Nat.exists_eq_add_of_le' hm
  rw [Nat.add_sub_cancel, daysOfMonths]
  omega

theorem daysBeforeYear_succ {year : Nat} (h : 1 ≤ year) :
    daysBeforeYear (year + 1) = daysBeforeYear year + daysInYear year := by
  obtain ⟨before, rfl⟩ := Nat.exists_eq_add_of_le' h
  have four : (before + 1) / 4 = before / 4 + if (before + 1) % 4 = 0 then 1 else 0 := by
    split <;> omega
  have hundred : (before + 1) / 100 = before / 100 + if (before + 1) % 100 = 0 then 1 else 0 := by
    split <;> omega
  have fourHundred :
      (before + 1) / 400 = before / 400 + if (before + 1) % 400 = 0 then 1 else 0 := by
    split <;> omega
  have centuries : before / 100 ≤ 365 * before := Nat.le_trans (Nat.div_le_self _ _) (by omega)
  have leap : isLeap (before + 1) = true ↔
      (before + 1) % 4 = 0 ∧ ((before + 1) % 100 ≠ 0 ∨ (before + 1) % 400 = 0) := by
    rw [isLeap, Bool.and_eq_true, Bool.or_eq_true, beq_iff_eq, bne_iff_ne, beq_iff_eq]
  rw [daysBeforeYear, daysBeforeYear, daysInYear_eq, Nat.add_sub_cancel, Nat.add_sub_cancel, four,
    hundred, fourHundred]
  generalize before / 4 = q, before / 100 = c, before / 400 = f at *
  clear four hundred fourHundred
  by_cases h4 : (before + 1) % 4 = 0
  · by_cases h100 : (before + 1) % 100 = 0
    · by_cases h400 : (before + 1) % 400 = 0
      · rw [if_pos h4, if_pos h100, if_pos h400, if_pos (leap.2 ⟨h4, .inr h400⟩)]
        omega
      · rw [if_pos h4, if_pos h100, if_neg h400, if_neg fun h => (leap.1 h).2.elim (· h100) h400]
        omega
    · have h400 : (before + 1) % 400 ≠ 0 := by omega
      rw [if_pos h4, if_neg h100, if_neg h400, if_pos (leap.2 ⟨h4, .inl h100⟩)]
      omega
  · have h100 : (before + 1) % 100 ≠ 0 := by omega
    have h400 : (before + 1) % 400 ≠ 0 := by omega
    rw [if_neg h4, if_neg h100, if_neg h400, if_neg fun h => h4 (leap.1 h).1]
    omega

theorem daysBeforeYear_mono {y z : Nat} (hy : 1 ≤ y) (h : y ≤ z) :
    daysBeforeYear y ≤ daysBeforeYear z := by
  induction h with
  | refl => exact Nat.le_refl _
  | step hle ih =>
    rw [daysBeforeYear_succ (Nat.le_trans hy hle)]
    exact Nat.le_trans ih (Nat.le_add_right _ _)

/-- A date that exists lies in its year. -/
theorem ordinal_lt_year (h : d.Valid) : d.ordinal < daysBeforeYear (d.year + 1) := by
  obtain ⟨first, -, hm, hm', hd, hd'⟩ := h
  have inMonth := daysOfMonths_add_lt hm hd hd'
  have inYear := daysOfMonths_mono d.year hm'
  rw [daysBeforeYear_succ first, daysInYear, ordinal]
  omega

/-- A date that comes before another is an earlier day. -/
theorem ordinal_lt (hd : d.Valid) (h : d.Before e) : d.ordinal < e.ordinal := by
  rcases h with year | ⟨year, month | ⟨month, day⟩⟩
  · calc d.ordinal < daysBeforeYear (d.year + 1) := ordinal_lt_year hd
      _ ≤ daysBeforeYear e.year := daysBeforeYear_mono (Nat.le_add_left 1 _) year
      _ ≤ e.ordinal := by rw [ordinal, Nat.add_assoc]; exact Nat.le_add_right _ _
  · obtain ⟨-, -, hm, -, hk, hk'⟩ := hd
    have inMonth := daysOfMonths_add_lt hm hk hk'
    have months := daysOfMonths_mono d.year (Nat.le_sub_one_of_lt month)
    rw [ordinal, ordinal, ← year]
    omega
  · have first := hd.2.2.2.2.1
    rw [ordinal, ordinal, ← year, ← month]
    omega

/-- No two dates that exist are the same day. -/
theorem eq_of_ordinal_eq (hd : d.Valid) (he : e.Valid) (h : d.ordinal = e.ordinal) : d = e := by
  rcases before_or_eq_or_before d e with before | same | before
  · exact absurd h (Nat.ne_of_lt (ordinal_lt hd before))
  · exact same
  · exact absurd h.symm (Nat.ne_of_lt (ordinal_lt he before))

theorem ordinal_lt_dayCount (h : d.Valid) : d.ordinal < dayCount := by
  calc d.ordinal < daysBeforeYear (d.year + 1) := ordinal_lt_year h
    _ ≤ daysBeforeYear 10000 :=
      daysBeforeYear_mono (Nat.le_add_left 1 _) (Nat.succ_le_succ h.2.1)
    _ = dayCount := by decide

/-- A date that exists is found again from its day. -/
theorem ofOrdinal_ordinal (h : d.Valid) : ofOrdinal d.ordinal = d :=
  eq_of_ordinal_eq (valid_ofOrdinal (ordinal_lt_dayCount h)) h (ordinal_ofOrdinal _)

end Date

theorem Clock.micros_lt {c : Clock} (h : c.Valid) : c.micros < microsOfDay := by
  obtain ⟨hhour, hminute, hsecond, hmicro⟩ := h
  rw [Clock.micros, microsOfDay]
  omega

namespace Instant

variable {t u : Instant} {d : Date} {c : Clock}

theorem ofMicros?_eq_some {n : Int} : ofMicros? n = some t ↔ n = t.micros := by
  constructor
  · intro h
    rw [ofMicros?] at h
    split at h
    · next range =>
      cases h
      exact (Int.toNat_of_nonneg range.1).symm
    · cases h
  · rintro rfl
    exact ofMicros?_micros t

/-- There is one instant for a date and a time of day that exist, and it has these. -/
theorem ofFields?_eq_some :
    ofFields? d c = some t ↔ d.Valid ∧ c.Valid ∧ t.date = d ∧ t.clock = c := by
  constructor
  · intro h
    rw [ofFields?, Option.ite_none_right_eq_some, ofMicros?_eq_some, Int.natCast_inj] at h
    obtain ⟨⟨hd, hc⟩, micros⟩ := h
    have pos : 0 < microsOfDay := by decide
    have inDay := Clock.micros_lt hc
    refine ⟨hd, hc, ?_, ?_⟩
    · rw [date, ← micros, Nat.mul_comm, Nat.mul_add_div pos, Nat.div_eq_of_lt inDay, Nat.add_zero,
        Date.ofOrdinal_ordinal hd]
    · rw [clock, ← micros, Nat.mul_comm, Nat.mul_add_mod, Nat.mod_eq_of_lt inDay,
        Clock.ofMicros_micros hc]
  · rintro ⟨-, -, rfl, rfl⟩
    exact ofFields?_date_clock t

theorem exists_ofFields? (hd : d.Valid) (hc : c.Valid) : ∃ t, ofFields? d c = some t := by
  have inDay := Clock.micros_lt hc
  have inRange := Nat.mul_le_mul_right microsOfDay (Nat.succ_le_of_lt (Date.ordinal_lt_dayCount hd))
  rw [Nat.succ_mul] at inRange
  refine ⟨⟨d.ordinal * microsOfDay + c.micros, Nat.lt_of_lt_of_le (by omega) inRange⟩, ?_⟩
  rw [ofFields?, if_pos ⟨hd, hc⟩, ofMicros?_eq_some]

/-- An instant on a date that comes before is earlier. -/
theorem micros_lt_of_before (h : t.date.Before u.date) : t.micros < u.micros := by
  have day := Nat.mul_le_mul_right microsOfDay
    (Nat.succ_le_of_lt (Date.ordinal_lt t.valid_date h))
  have inDay := Clock.micros_lt t.valid_clock
  rw [Nat.succ_mul] at day
  rw [← t.micros_date_clock, ← u.micros_date_clock]
  omega

/-- Of the instants on one date the one with the earlier time of day is the earlier one. -/
theorem micros_lt_of_clock (hd : t.date = u.date) (h : t.clock.micros < u.clock.micros) :
    t.micros < u.micros := by
  rw [← t.micros_date_clock, ← u.micros_date_clock, hd]
  omega

end Instant

end Catalog
