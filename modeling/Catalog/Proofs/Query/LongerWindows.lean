import Catalog.Proofs.Query.Windows
import Catalog.Proofs.Time.Earlier

/-!
# Longer windows

A window of some length, in whatever way its name says so (`SetExpr.SaysWindow`), has a condition
exactly if its start is in the calendar, and then it is the one between its start and the moment
(`SaysWindow.condition_eq_ok`). A window of months starts so many months earlier by the calendar.
The longer of two windows starts no later (`TimeUnit.before?_le`), though the day of the month may
change on the way, and what is in a window is in the longer one (`longer_window`): what is asked for
beside the window is the same (`WindowBase.met_earlier`).
-/

namespace Catalog

variable {start start' now : Moment} {d : Document}

/-- What lies in a window lies in one that starts earlier. -/
theorem Document.HasWithin.earlier {field : String} (h : d.HasWithin field start now)
    (hle : start'.micros ≤ start.micros) : d.HasWithin field start' now := by
  obtain ⟨front, v, rest, hsplit, hfront, u, hu, hstart, hnow⟩ := h
  exact ⟨front, v, rest, hsplit, hfront, u, hu, Int.le_trans hle hstart, hnow⟩

namespace SetExpr

variable {name name' : String} {base : WindowBase} {unit : TimeUnit} {n m : Nat}
  {a : Option Audience} {c : Condition}

/-- What happened between a start and a moment happened between an earlier start and the moment. -/
theorem WindowBase.met_earlier (hle : start'.micros ≤ start.micros)
    (h : (base.condition start now).Met d) : (base.condition start' now).Met d := by
  have window {field : String}
      (h : (Condition.compare field .between (.array [.instant start, .instant now])).Met d) :
      (Condition.compare field .between (.array [.instant start', .instant now])).Met d :=
    met_between_iff.2 ((met_between_iff.1 h).earlier hle)
  cases base with
  | createds => exact window h
  | expireds =>
    simp only [WindowBase.condition, Condition.met_conj, List.forall_mem_cons] at h ⊢
    exact ⟨h.1, window h.2.1, h.2.2⟩
  | actives =>
    simp only [WindowBase.condition, Condition.met_conj, List.forall_mem_cons] at h ⊢
    exact ⟨h.1, h.2.1, window h.2.2.1, h.2.2.2⟩
  | pendings =>
    simp only [WindowBase.condition, Condition.met_conj, List.forall_mem_cons] at h ⊢
    exact ⟨h.1, window h.2.1, h.2.2⟩

/-! ## Starts of windows -/

/-- A name says that a window is a number of units long. -/
def SaysWindow (name : String) (base : WindowBase) (n : Nat) (unit : TimeUnit) : Prop :=
  ∃ digits, Window.ofName? name = some { base, digits, unit } ∧
    Numeral.boundedValue? digits = some n

/-- A window has a condition if its start is in the calendar: that of what happened between its
    start and the moment. -/
theorem SaysWindow.condition_eq_ok (h : SaysWindow name base n unit) (hn : 1 ≤ n) :
    SetExpr.condition now (.named name a) = .ok c ↔
      ∃ start, unit.before? now n = some start ∧ c = base.condition start now := by
  obtain ⟨digits, hname, hdigits⟩ := h
  rw [SetExpr.condition, namedCondition_of_window hname, Window.condition_eq_ok hn hdigits]

/-- The more units before, the earlier the moment. -/
theorem TimeUnit.before?_le (h : n ≤ m) (hs : unit.before? now n = some start)
    (hs' : unit.before? now m = some start') : start'.micros ≤ start.micros := by
  have shifted {p q : Nat} (hpq : p ≤ q) (hs : now.shift? (-(p : Int)) = some start)
      (hs' : now.shift? (-(q : Int)) = some start') : start'.micros ≤ start.micros := by
    rw [Moment.micros_shift? hs, Moment.micros_shift? hs']
    omega
  cases unit with
  | minute => exact shifted (Nat.mul_le_mul_right _ h) hs hs'
  | day => exact shifted (Nat.mul_le_mul_right _ h) hs hs'
  | week => exact shifted (Nat.mul_le_mul_right _ (Nat.mul_le_mul_right _ h)) hs hs'
  | month => exact Moment.micros_le_of_monthsBefore? h hs hs'

/-! ## Windows that grow -/

/-- A window of months starts so many months earlier by the calendar, on the same day of the month
    or the last one of a shorter month, if it does in year one or later. What is in a window is in
    every longer one of the same unit whose start is in the calendar. -/
theorem longer_window (now : Moment) :
    (∀ name base n a, SaysWindow name base n .month → 1 ≤ n →
      1 ≤ (Date.monthBefore^[n] (now.wall.date.year, now.wall.date.month)).1 →
      ∃ start, SetExpr.condition now (.named name a) = .ok (base.condition start now) ∧
        now.MonthsEarlier n start) ∧
    ∀ name name' base unit n m a a' d, SaysWindow name base n unit →
      SaysWindow name' base m unit → 1 ≤ n → n ≤ m → (unit.before? now m).isSome →
      Contains now (.named name a) d → Contains now (.named name' a') d := by
  constructor
  · intro name base n a hname hn inCalendar
    obtain ⟨start, hstart⟩ := Moment.exists_monthsBefore? inCalendar
    exact ⟨start, (hname.condition_eq_ok hn).2 ⟨start, hstart, rfl⟩,
      Moment.monthsBefore?_eq_some.1 hstart⟩
  · rintro name name' base unit n m a a' d hname hname' hn hle inCalendar ⟨c, hc, hmet⟩
    obtain ⟨start, hstart, rfl⟩ := (hname.condition_eq_ok hn).1 hc
    obtain ⟨start', hstart'⟩ := Option.isSome_iff_exists.1 inCalendar
    have earlier := TimeUnit.before?_le hle hstart hstart'
    exact ⟨_, (hname'.condition_eq_ok (Nat.le_trans hn hle)).2 ⟨start', hstart', rfl⟩,
      base.met_earlier earlier hmet⟩

/-- Noon of the last day of March. -/
def endOfMarch : Moment := (Moment.read? "2024-03-31T12:00:00Z").getD ⟨.first, 0⟩

/-- A record that was created on the last day of February. -/
def februaryRecord : Document := [("_createdDateTime", .text "2024-02-29T12:00:00.000Z")]

/-- A month before the last day of March is the last day of February. What was created then is in
    the window of the month, and in that of the year. -/
theorem longer_window_year :
    SaysWindow "createds-1mon" .createds 1 .month ∧
      SaysWindow "createds-012mo" .createds 12 .month ∧
      1 ≤ (Date.monthBefore^[1] (endOfMarch.wall.date.year, endOfMarch.wall.date.month)).1 ∧
      (TimeUnit.month.before? endOfMarch 12).isSome ∧
      (∃ start, SetExpr.condition endOfMarch (.named "createds-1mon" none) =
        .ok (WindowBase.createds.condition start endOfMarch) ∧ endOfMarch.MonthsEarlier 1 start) ∧
      Contains endOfMarch (.named "createds-1mon" none) februaryRecord ∧
      Contains endOfMarch (.named "createds-012mo" none) februaryRecord := by
  have month : SaysWindow "createds-1mon" .createds 1 .month :=
    ⟨['1'], by decide +kernel, by decide +kernel⟩
  have year : SaysWindow "createds-012mo" .createds 12 .month :=
    ⟨['0', '1', '2'], by decide +kernel, by decide +kernel⟩
  have inCalendar :
      1 ≤ (Date.monthBefore^[1] (endOfMarch.wall.date.year, endOfMarch.wall.date.month)).1 := by
    decide +kernel
  have yearBefore : (TimeUnit.month.before? endOfMarch 12).isSome := by decide +kernel
  have within : Contains endOfMarch (.named "createds-1mon" none) februaryRecord := by
    decide +kernel
  obtain ⟨starts, grows⟩ := longer_window endOfMarch
  exact ⟨month, year, inCalendar, yearBefore, starts _ _ 1 none month (by decide) inCalendar,
    within, grows _ _ _ _ 1 12 none none _ month year (by decide) (by decide) yearBefore within⟩

end SetExpr

end Catalog
