import Catalog.Proofs.Time.Order
import Catalog.Time.Moment
import Mathlib.Logic.Function.Iterate

/-!
# Moments before others

A moment is earlier by the time that it is shifted back (`Moment.micros_shift?`). Months are of
different lengths, and are counted by the calendar of the moment's clock: a number of months earlier
it is the month that is reached by going back month by month (`Date.monthBefore`), at the same time
of day, and on the same day of the month or, if the month has fewer days, on its last one
(`Moment.MonthsEarlier`). This moment is given exactly if the month is in the calendar
(`Moment.monthsBefore?_eq_some`, `Moment.exists_monthsBefore?`), and it is the earlier, the more
months are counted, though the day of the month may change on the way
(`Moment.micros_le_of_monthsBefore?`).
-/

namespace Catalog

namespace Date

/-- The year and month before a year and month. What is before year one is in no year of the
    calendar. -/
def monthBefore (m : Nat × Nat) : Nat × Nat := if m.2 ≤ 1 then (m.1 - 1, 12) else (m.1, m.2 - 1)

variable {d e : Date}

/-- Going back month by month counts down the months of all years, and then stays out of the
    calendar. -/
theorem iterate_monthBefore (year : Nat) {month : Nat} (hm : 1 ≤ month) (hm' : month ≤ 12)
    (n : Nat) :
    let m := monthBefore^[n] (year, month)
    1 ≤ m.2 ∧ m.2 ≤ 12 ∧
      (12 * m.1 + m.2 + n = 12 * year + month ∨ m.1 = 0 ∧ 12 * year + month ≤ 12 + n) := by
  induction n with
  | zero => exact ⟨hm, hm', .inl rfl⟩
  | succ n ih =>
    rw [Function.iterate_succ_apply']
    generalize monthBefore^[n] (year, month) = m at ih
    dsimp only at ih ⊢
    rw [monthBefore]
    split <;> dsimp only <;> omega

/-- The month is in the calendar if there are enough months before. -/
theorem one_le_year_iff (year : Nat) {month : Nat} (hm : 1 ≤ month) (hm' : month ≤ 12) (n : Nat) :
    1 ≤ (monthBefore^[n] (year, month)).1 ↔ n + 12 ≤ 12 * year + (month - 1) := by
  have counted := iterate_monthBefore year hm hm' n
  dsimp only at counted
  omega

theorem iterate_monthBefore_eq {year month : Nat} (hm : 1 ≤ month) (hm' : month ≤ 12) {n : Nat}
    (h : n + 12 ≤ 12 * year + (month - 1)) : monthBefore^[n] (year, month) =
      ((12 * year + (month - 1) - n) / 12, (12 * year + (month - 1) - n) % 12 + 1) := by
  have counted := iterate_monthBefore year hm hm' n
  generalize monthBefore^[n] (year, month) = m at counted ⊢
  dsimp only at counted
  ext <;> dsimp only <;> omega

theorem monthsBefore?_eq_some (hd : d.Valid) {n : Nat} :
    d.monthsBefore? n = some e ↔ 1 ≤ e.year ∧
      (e.year, e.month) = monthBefore^[n] (d.year, d.month) ∧
      e.day = min d.day (daysInMonth e.year e.month) := by
  obtain ⟨-, -, hm, hm', -⟩ := hd
  have inCalendar := one_le_year_iff d.year hm hm' n
  rw [monthsBefore?]
  split
  · next short =>
    refine iff_of_false (fun h => by cases h) fun ⟨first, same, _⟩ => ?_
    rw [← same] at inCalendar
    have := inCalendar.1 first
    omega
  · next enough =>
    have months := iterate_monthBefore_eq hm hm' (Nat.not_lt.1 enough)
    have first := inCalendar.2 (Nat.not_lt.1 enough)
    rw [months] at first ⊢
    obtain ⟨year, month, day⟩ := e
    simp only [Option.some.injEq, Date.mk.injEq, Prod.mk.injEq]
    constructor
    · rintro ⟨rfl, rfl, rfl⟩
      exact ⟨first, ⟨rfl, rfl⟩, rfl⟩
    · rintro ⟨-, ⟨rfl, rfl⟩, rfl⟩
      exact ⟨rfl, rfl, rfl⟩

theorem le_daysInMonth (year : Nat) {month : Nat} (hm : 1 ≤ month) (hm' : month ≤ 12) :
    28 ≤ daysInMonth year month := by
  unfold daysInMonth
  grind

/-- The date months before one that exists does. -/
theorem valid_of_monthsBefore? (hd : d.Valid) {n : Nat} (h : d.monthsBefore? n = some e) :
    e.Valid := by
  obtain ⟨first, months, day⟩ := (monthsBefore?_eq_some hd).1 h
  obtain ⟨-, last, hm, hm', hk, hk'⟩ := hd
  have counted := iterate_monthBefore d.year hm hm' n
  rw [← months] at counted
  dsimp only at counted
  have long := le_daysInMonth e.year counted.1 counted.2.1
  refine ⟨first, by omega, counted.1, counted.2.1, ?_, ?_⟩
  · omega
  · rw [day]
    exact Nat.min_le_right _ _

/-- The more months before, the earlier the date. -/
theorem before_of_monthsBefore? (hd : d.Valid) {n m : Nat} (h : n < m) {e' : Date}
    (he : d.monthsBefore? n = some e) (he' : d.monthsBefore? m = some e') : e'.Before e := by
  obtain ⟨first, months, -⟩ := (monthsBefore?_eq_some hd).1 he
  obtain ⟨first', months', -⟩ := (monthsBefore?_eq_some hd).1 he'
  obtain ⟨-, -, hm, hm', -⟩ := hd
  have counted := iterate_monthBefore d.year hm hm' n
  have counted' := iterate_monthBefore d.year hm hm' m
  rw [← months] at counted
  rw [← months'] at counted'
  dsimp only at counted counted'
  rw [Before]
  omega

end Date

namespace Instant

variable {t s : Instant} {n : Nat}

/-- The instant months before another is on the date months before, at the same time of day. -/
theorem monthsBefore?_eq_some :
    t.monthsBefore? n = some s ↔ t.date.monthsBefore? n = some s.date ∧ s.clock = t.clock := by
  rw [monthsBefore?, Option.bind_eq_bind, Option.bind_eq_some_iff]
  constructor
  · rintro ⟨d, hd, hs⟩
    obtain ⟨-, -, rfl, clock⟩ := ofFields?_eq_some.1 hs
    exact ⟨hd, clock⟩
  · rintro ⟨hd, clock⟩
    exact ⟨s.date, hd, ofFields?_eq_some.2 ⟨s.valid_date, t.valid_clock, rfl, clock⟩⟩

end Instant

namespace Moment

variable {t s s' : Moment} {n m : Nat}

/-- A moment that is shifted is later by as much. -/
theorem micros_shift? {n : Int} (h : t.shift? n = some s) : s.micros = t.micros + n := by
  obtain ⟨wall, hwall, rfl⟩ := Option.map_eq_some_iff.1 h
  rw [Instant.shift?, Instant.ofMicros?_eq_some] at hwall
  dsimp only [micros]
  omega

/-- A moment is some months earlier than another: on the same clock, at the same time of day, in the
    month that is reached by going back month by month, and on the same day of the month or, if the
    month has fewer days, on its last one. -/
structure MonthsEarlier (n : Nat) (t s : Moment) : Prop where
  /-- It is shown by the same clock. -/
  offset : s.offset = t.offset
  /-- It is at the same time of day. -/
  clock : s.wall.clock = t.wall.clock
  /-- It is so many months before. -/
  month : (s.wall.date.year, s.wall.date.month) =
    Date.monthBefore^[n] (t.wall.date.year, t.wall.date.month)
  /-- It is on the same day of the month, or on the last one. -/
  day : s.wall.date.day =
    min t.wall.date.day (Date.daysInMonth s.wall.date.year s.wall.date.month)

theorem monthsBefore?_eq_some : t.monthsBefore? n = some s ↔ t.MonthsEarlier n s := by
  rw [monthsBefore?, Option.map_eq_some_iff]
  constructor
  · rintro ⟨wall, hwall, rfl⟩
    obtain ⟨hdate, clock⟩ := Instant.monthsBefore?_eq_some.1 hwall
    obtain ⟨-, month, day⟩ := (Date.monthsBefore?_eq_some t.wall.valid_date).1 hdate
    exact ⟨rfl, clock, month, day⟩
  · rintro ⟨offset, clock, month, day⟩
    have date := (Date.monthsBefore?_eq_some t.wall.valid_date).2
      ⟨s.wall.valid_date.1, month, day⟩
    exact ⟨s.wall, Instant.monthsBefore?_eq_some.2 ⟨date, clock⟩, by rw [← offset]⟩

/-- There is a moment so many months earlier if the month is in the calendar. -/
theorem exists_monthsBefore?
    (h : 1 ≤ (Date.monthBefore^[n] (t.wall.date.year, t.wall.date.month)).1) :
    ∃ s, t.monthsBefore? n = some s := by
  generalize hm : Date.monthBefore^[n] (t.wall.date.year, t.wall.date.month) = months at h
  have date := (Date.monthsBefore?_eq_some (n := n) t.wall.valid_date
    (e := ⟨months.1, months.2, min t.wall.date.day (Date.daysInMonth months.1 months.2)⟩)).2
    ⟨h, hm.symm, rfl⟩
  obtain ⟨wall, hwall⟩ :=
    Instant.exists_ofFields? (Date.valid_of_monthsBefore? t.wall.valid_date date)
      t.wall.valid_clock
  refine ⟨{ t with wall }, Option.map_eq_some_iff.2 ⟨wall, ?_, rfl⟩⟩
  rw [Instant.monthsBefore?, date]
  exact hwall

/-- The more months before, the earlier the moment. -/
theorem micros_le_of_monthsBefore? (h : n ≤ m) (hs : t.monthsBefore? n = some s)
    (hs' : t.monthsBefore? m = some s') : s'.micros ≤ s.micros := by
  rcases Nat.lt_or_eq_of_le h with fewer | rfl
  · obtain ⟨wall, hwall, rfl⟩ := Option.map_eq_some_iff.1 hs
    obtain ⟨wall', hwall', rfl⟩ := Option.map_eq_some_iff.1 hs'
    have before := Date.before_of_monthsBefore? t.wall.valid_date fewer
      (Instant.monthsBefore?_eq_some.1 hwall).1 (Instant.monthsBefore?_eq_some.1 hwall').1
    have earlier := Instant.micros_lt_of_before before
    rw [micros, micros]
    dsimp only
    omega
  · cases hs.symm.trans hs'
    exact Int.le_refl _

end Moment

end Catalog
