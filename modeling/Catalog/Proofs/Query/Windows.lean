import Catalog.Proofs.Number.Numeral
import Catalog.Proofs.Query.Testing
import Catalog.Query.SetExpr

/-!
# Sets within a window of time

The set `actives-7d` is about the records that have become active in the last seven days, and so on
for other sets, lengths and units (`Window.ofName?_windowName`). A window ends with the moment that
it is asked for at, this moment included. What is active has become valid *before* the moment, and
what has expired stopped being valid before it. So a record in a window is in the set that the
window is about unless what lies in the window is exactly the moment (`window_narrows`). A window of
pending records is about their creation, and there is no such exception.
-/

namespace Catalog

open Text

/-! ## Names of windows -/

/-- The name of the window of a number of units for a set. -/
def windowName (set : String) (n : Nat) (unit : String) : String := set ++ "-" ++ toString n ++ unit

/-- The names of units. -/
def unitNames : List String := ["min", "m", "d", "day", "w", "mon", "mo"]

theorem exists_unit {unit : String} (h : unit ∈ unitNames) :
    (∃ u, SetExpr.TimeUnit.ofName? unit.toList = some u) ∧
      ∀ c, unit.toList.head? = some c → isDecimalDigit c = false := by
  have each : unitNames.all (fun unit => (SetExpr.TimeUnit.ofName? unit.toList).isSome &&
      (unit.toList.head?.map isDecimalDigit).getD false == false) = true := by
    decide
  have this := List.all_eq_true.1 each unit h
  rw [Bool.and_eq_true, beq_iff_eq] at this
  refine ⟨Option.isSome_iff_exists.1 this.1, fun c hc => ?_⟩
  rw [hc] at this
  exact this.2

namespace SetExpr

/-- The name of a window is read as its set, its length and its unit. -/
theorem Window.ofName?_windowName {set unit : String} {base : WindowBase} {u : TimeUnit}
    (hdash : '-' ∉ set.toList) (hset : WindowBase.ofName? set.toList = some base)
    (hunit : TimeUnit.ofName? unit.toList = some u)
    (hhead : ∀ c, unit.toList.head? = some c → isDecimalDigit c = false) (n : Nat) :
    Window.ofName? (windowName set n unit) =
      some { base, digits := Nat.toDigits 10 n, unit := u } := by
  have chars : (windowName set n unit).toList =
      set.toList ++ '-' :: (Nat.toDigits 10 n ++ unit.toList) := by
    rw [windowName, Nat.toString_eq_ofList_toDigits]
    simp [String.toList_append]
  have dash (rest : List Char) :
      (set.toList ++ '-' :: rest).takeWhile (· ≠ '-') = set.toList ∧
        (set.toList ++ '-' :: rest).dropWhile (· ≠ '-') = '-' :: rest :=
    takeWhile_dropWhile_append (fun c hc => decide_eq_true fun h => hdash (h ▸ hc))
      (fun c hc => by cases hc; rfl)
  obtain ⟨hdigits, hrest⟩ := takeWhile_dropWhile_append (Numeral.isDecimalDigit_toDigits n) hhead
  have some_digits : (Nat.toDigits 10 n).isEmpty = false := by
    rw [List.isEmpty_eq_false_iff]
    exact Nat.toDigits_ne_nil
  obtain ⟨hbefore, hafter⟩ := dash (Nat.toDigits 10 n ++ unit.toList)
  rw [ofName?, chars, hbefore, hset, hafter]
  change (do
    guard (!((Nat.toDigits 10 n ++ unit.toList).takeWhile isDecimalDigit).isEmpty)
    let u ← TimeUnit.ofName? ((Nat.toDigits 10 n ++ unit.toList).dropWhile isDecimalDigit)
    let digits := (Nat.toDigits 10 n ++ unit.toList).takeWhile isDecimalDigit
    return { base, digits, unit := u } : Option Window) = _
  rw [hdigits, hrest, some_digits, hunit]
  rfl

variable {w : Window} {n : Nat} {now : Moment} {c : Condition}

/-- A window of some length that has a condition is between its start and the moment. -/
theorem Window.condition_eq_ok (hn : 1 ≤ n) (hw : Numeral.boundedValue? w.digits = some n) :
    w.condition now = .ok c ↔
      ∃ start, w.unit.before? now n = some start ∧ c = w.base.condition start now := by
  rw [Window.condition, hw, orFault, ok_bind, if_neg (Nat.ne_of_gt hn)]
  constructor
  · intro h
    obtain ⟨start, hstart, h⟩ := bind_eq_ok.1 h
    exact ⟨start, orFault_eq_ok.1 hstart, (Except.ok.inj h).symm⟩
  · rintro ⟨start, hstart, rfl⟩
    rw [hstart]
    rfl

theorem Window.exists_start (hn : 1 ≤ n) (hw : w.digits = Nat.toDigits 10 n)
    (h : w.condition now = .ok c) : ∃ start, c = w.base.condition start now := by
  obtain ⟨amount, hamount, -⟩ := bind_eq_ok.1 h
  have written : amount = n := by
    rw [orFault_eq_ok, hw, Numeral.boundedValue?, Numeral.digitsValue?_toDigits,
      Option.ite_none_right_eq_some] at hamount
    exact (Option.some.inj hamount.2).symm
  obtain ⟨start, -, hc⟩ := (condition_eq_ok hn (written ▸ orFault_eq_ok.1 hamount)).1 h
  exact ⟨start, hc⟩

/-! ## What sets contain -/

/-- A record is in a set at a moment: the set has a condition, which the record meets. -/
def Contains (now : Moment) (e : SetExpr) (d : Document) : Prop :=
  ∃ c, e.condition now = .ok c ∧ c.Met d

variable {e : SetExpr} {d : Document}

theorem contains_iff (h : e.condition now = .ok c) : Contains now e d ↔ c.Met d := by
  constructor
  · rintro ⟨c', hc', hmet⟩
    cases h.symm.trans hc'
    exact hmet
  · exact fun hmet => ⟨c, h, hmet⟩

instance (now : Moment) (e : SetExpr) (d : Document) : Decidable (Contains now e d) :=
  match h : e.condition now with
  | .ok _ => decidable_of_iff _ (contains_iff h).symm
  | .error _ => .isFalse fun ⟨_, hc, _⟩ => by cases h.symm.trans hc

theorem namedCondition_of_window {name : String} (h : Window.ofName? name = some w)
    (a : Option Audience) (now : Moment) : namedCondition name a now = w.condition now := by
  unfold namedCondition
  rw [h]

/-- What is in a window of some length is in it from some moment on. -/
theorem Contains.met_window {set unit : String} {a : Option Audience}
    (h : Contains now (.named (windowName set n unit) a) d) (hn : 1 ≤ n) (hunit : unit ∈ unitNames)
    (base : WindowBase) (hdash : '-' ∉ set.toList)
    (hset : WindowBase.ofName? set.toList = some base) :
    ∃ start, (base.condition start now).Met d := by
  obtain ⟨⟨u, hu⟩, hhead⟩ := exists_unit hunit
  obtain ⟨c, hc, hmet⟩ := h
  rw [condition, namedCondition_of_window (Window.ofName?_windowName hdash hset hu hhead n)] at hc
  obtain ⟨start, rfl⟩ := Window.exists_start hn rfl hc
  exact ⟨start, hmet⟩

end SetExpr

/-! ## Moments in fields -/

namespace Document

/-- What a field has for conditions to test: its items or, if it is no array, what it has as a
    whole. -/
def tested (field : String) (d : Document) : List Value := (Value.orNull (d.path? field)).items

/-- A field has a moment, as itself or written in a text. -/
def HasMoment (field : String) (t : Moment) (d : Document) : Prop :=
  ∃ v ∈ d.tested field, ∃ u, instantOf v = .ok (some u) ∧ u.micros = t.micros

/-- A field has something before a moment, and no text off the calendar in front of it. -/
def HasBefore (field : String) (t : Moment) (d : Document) : Prop :=
  ∃ front v rest, d.tested field = front ++ v :: rest ∧ (∀ w ∈ front, ¬w.OffCalendar) ∧
    ∃ u, instantOf v = .ok (some u) ∧ u.micros < t.micros

/-- A field has something between two moments, the ends included, and no text off the calendar in
    front of it. -/
def HasWithin (field : String) (start t : Moment) (d : Document) : Prop :=
  ∃ front v rest, d.tested field = front ++ v :: rest ∧ (∀ w ∈ front, ¬w.OffCalendar) ∧
    ∃ u, instantOf v = .ok (some u) ∧ start.micros ≤ u.micros ∧ u.micros ≤ t.micros

end Document

section Bounds

variable {field : String} {start now : Moment} {d : Document} {v : Value}

theorem not_offCalendar_of_instantOf {u? : Option Moment} (h : instantOf v = .ok u?) :
    ¬v.OffCalendar := by
  intro hoff
  cases h.symm.trans (instantOf_eq_error.2 ⟨rfl, hoff⟩)

theorem isLT_compare (t u : Moment) : (t.compare u).isLT = decide (t.micros < u.micros) := by
  rw [Moment.compare, Bool.eq_iff_iff, Ordering.isLT_iff_eq_lt, Int.compare_eq_lt,
    decide_eq_true_iff]

/-- A value comes before a moment, if it has an answer, exactly if it has a moment that does. -/
theorem before_eq (v : Value) (now : Moment) :
    (do return ((← order? v (.instant now) none).map Ordering.isLT).getD false :
      Except Fault Bool) =
      (instantOf v).map fun u? => (u?.map fun u => decide (u.micros < now.micros)).getD false := by
  rw [order?_instant]
  rcases instantOf v with f | _ | u
  · rfl
  · rfl
  · exact congrArg Except.ok (isLT_compare u now)

/-- A value lies between two moments, if it has an answer, exactly if it has a moment that does. -/
theorem within_eq (v : Value) (start now : Moment) :
    within v (.instant start) (.instant now) none none =
      (instantOf v).map fun u? =>
        (u?.map fun u => decide (start.micros ≤ u.micros ∧ u.micros ≤ now.micros)).getD false := by
  rw [within, Option.map_none, order?_instant, order?_instant]
  rcases instantOf v with f | _ | u
  · rfl
  · rfl
  · have ends : ((u.compare start).isGE && (u.compare now).isLE) =
        decide (start.micros ≤ u.micros ∧ u.micros ≤ now.micros) := by
      rw [Bool.eq_iff_iff, Bool.and_eq_true, Moment.compare, Moment.compare, Int.isGE_compare,
        Int.isLE_compare, decide_eq_true_iff]
    exact congrArg Except.ok ends

/-- A moment of some kind is found among values if no text off the calendar is in front of it. -/
theorem anyM_moment_eq_ok_true {p : Moment → Bool} {vs : List Value} :
    vs.anyM (fun v => (instantOf v).map fun u? => (u?.map p).getD false) = .ok true ↔
      ∃ front v rest, vs = front ++ v :: rest ∧ (∀ w ∈ front, ¬w.OffCalendar) ∧
        ∃ u, instantOf v = .ok (some u) ∧ p u = true := by
  rw [anyM_eq_ok_true]
  refine exists_congr fun front => exists_congr fun v => exists_congr fun rest =>
    and_congr_right fun _ => and_congr (forall₂_congr fun w _ => ?_) ?_
  · cases hw : instantOf w with
    | ok u? => exact iff_of_true ⟨_, rfl⟩ (not_offCalendar_of_instantOf hw)
    | error f =>
      refine iff_of_false ?_ (not_not_intro (instantOf_eq_error.1 hw).2)
      rintro ⟨b, hb⟩
      cases hb
  · rcases instantOf v with f | _ | u <;> simp [Except.map]

/-- A condition for what is before a moment is met where the field has something before it. -/
theorem met_lt_iff :
    (Condition.compare field .lt (.instant now)).Met d ↔ d.HasBefore field now := by
  have tests : (Condition.compare field .lt (.instant now)).Met d ↔
      (d.tested field).anyM (fun v =>
        do return ((← order? v (.instant now) none).map Ordering.isLT).getD false) = .ok true := by
    rw [Document.tested, ← anyItem_eq]
    rfl
  simp only [tests, before_eq, anyM_moment_eq_ok_true, decide_eq_true_iff, Document.HasBefore]

/-- A condition for what lies between two moments is met where the field has something that does. -/
theorem met_between_iff :
    (Condition.compare field .between (.array [.instant start, .instant now])).Met d ↔
      d.HasWithin field start now := by
  have tests : (Condition.compare field .between (.array [.instant start, .instant now])).Met d ↔
      (d.tested field).anyM (fun v => within v (.instant start) (.instant now) none none) =
        .ok true := by
    rw [Document.tested, ← anyItem_eq]
    rfl
  simp only [tests, within_eq, anyM_moment_eq_ok_true, decide_eq_true_iff, Document.HasWithin]

/-- What lies in a window up to a moment, and has nothing at the moment itself, has something before
    it. -/
theorem hasBefore_of_met_between
    (h : (Condition.compare field .between (.array [.instant start, .instant now])).Met d)
    (hnow : ¬d.HasMoment field now) : d.HasBefore field now := by
  obtain ⟨front, v, rest, hsplit, hfront, u, hu, -, hle⟩ := met_between_iff.1 h
  refine ⟨front, v, rest, hsplit, hfront, u, hu, Int.lt_iff_le_and_ne.2 ⟨hle, fun heq => ?_⟩⟩
  exact hnow ⟨v, hsplit ▸ List.mem_append_right _ List.mem_cons_self, u, hu, heq⟩

end Bounds

/-! ## Windows and their sets -/

namespace SetExpr

variable {now : Moment} {d : Document} {n : Nat} {unit : String} {a : Option Audience}

/-- The names of the sets that windows are parts of are not names of windows. -/
theorem ofName?_base {name : String} (h : name ∈ ["actives", "expireds", "pendings"]) :
    Window.ofName? name = none := by
  have plain : ∀ name ∈ ["actives", "expireds", "pendings"], Window.ofName? name = none := by
    decide
  exact plain name h

theorem contains_actives : Contains now (.named "actives" a) d ↔ (actives now).Met d := by
  refine contains_iff ?_
  unfold condition namedCondition
  rw [ofName?_base (by decide)]
  rfl

theorem contains_expireds : Contains now (.named "expireds" a) d ↔ (expireds now).Met d := by
  refine contains_iff ?_
  unfold condition namedCondition
  rw [ofName?_base (by decide)]
  rfl

theorem contains_pendings : Contains now (.named "pendings" a) d ↔ (pendings now).Met d := by
  refine contains_iff ?_
  unfold condition namedCondition
  rw [ofName?_base (by decide)]
  rfl

/-- A record in a window of pending records is pending. A record in a window of active records, or
    of expired ones, is active, or has expired, exactly if it has become valid, or stopped being
    valid, before the moment, and so it is unless this is exactly at the moment. -/
theorem window_narrows (hn : 1 ≤ n) (hunit : unit ∈ unitNames) (a : Option Audience) (now : Moment)
    (d : Document) :
    (Contains now (.named (windowName "pendings" n unit) a) d →
      Contains now (.named "pendings" a) d) ∧
    (Contains now (.named (windowName "actives" n unit) a) d →
      (Contains now (.named "actives" a) d ↔ d.HasBefore "_validFromDateTime" now) ∧
      (¬d.HasMoment "_validFromDateTime" now → Contains now (.named "actives" a) d)) ∧
    (Contains now (.named (windowName "expireds" n unit) a) d →
      (Contains now (.named "expireds" a) d ↔ d.HasBefore "_validUntilDateTime" now) ∧
      (¬d.HasMoment "_validUntilDateTime" now → Contains now (.named "expireds" a) d)) := by
  refine ⟨fun h => ?_, fun h => ?_, fun h => ?_⟩
  · obtain ⟨start, hmet⟩ := h.met_window hn hunit .pendings (by decide) (by decide)
    rw [WindowBase.condition, Condition.met_conj, List.forall_mem_cons] at hmet
    exact contains_pendings.2 hmet.1
  · obtain ⟨start, hmet⟩ := h.met_window hn hunit .actives (by decide) (by decide)
    simp only [WindowBase.condition, Condition.met_conj, List.forall_mem_cons] at hmet
    obtain ⟨hlasts, hfrom, hwindow, -⟩ := hmet
    have iff : Contains now (.named "actives" a) d ↔ d.HasBefore "_validFromDateTime" now := by
      simp only [contains_actives, actives, Condition.met_conj, List.forall_mem_cons, ← met_lt_iff]
      exact ⟨fun h => h.2.2.1, fun h => ⟨hlasts, hfrom, h, List.forall_mem_nil _⟩⟩
    exact ⟨iff, fun hnow => iff.2 (hasBefore_of_met_between hwindow hnow)⟩
  · obtain ⟨start, hmet⟩ := h.met_window hn hunit .expireds (by decide) (by decide)
    simp only [WindowBase.condition, Condition.met_conj, List.forall_mem_cons] at hmet
    obtain ⟨huntil, hwindow, -⟩ := hmet
    have iff : Contains now (.named "expireds" a) d ↔ d.HasBefore "_validUntilDateTime" now := by
      simp only [contains_expireds, expireds, Condition.met_conj, List.forall_mem_cons,
        ← met_lt_iff]
      exact ⟨fun h => h.2.1, fun h => ⟨huntil, h, List.forall_mem_nil _⟩⟩
    exact ⟨iff, fun hnow => iff.2 (hasBefore_of_met_between hwindow hnow)⟩

/-- Noon of a day. -/
def noon : Moment := (Moment.read? "2024-06-01T12:00:00Z").getD ⟨.first, 0⟩

/-- A record that stopped being valid two days before. -/
def expiredRecord : Document := [("_validUntilDateTime", .text "2024-05-30T12:00:00.000Z")]

/-- What stopped being valid two days before is in the window of a week, and has expired. -/
theorem window_narrows_week :
    1 ≤ 7 ∧ "d" ∈ unitNames ∧
      Contains noon (.named (windowName "expireds" 7 "d") none) expiredRecord ∧
      Contains noon (.named "expireds" none) expiredRecord := by
  have unit : "d" ∈ unitNames := by decide +kernel
  have within : Contains noon (.named (windowName "expireds" 7 "d") none) expiredRecord := by
    decide +kernel
  have before : expiredRecord.HasBefore "_validUntilDateTime" noon :=
    ⟨[], _, [], rfl, List.forall_mem_nil _,
      (Moment.read? "2024-05-30T12:00:00Z").getD noon, toOption_eq_some.1 (by decide +kernel),
      by decide +kernel⟩
  have narrows := (window_narrows (n := 7) (by decide) unit none noon expiredRecord).2.2 within
  exact ⟨by decide, unit, within, narrows.1.2 before⟩

/-- A record that stops being valid, or becomes valid, exactly at the moment is in the window up to
    it, but has not expired, or is not active. -/
theorem window_wider :
    (Contains noon (.named "expireds-7d" none)
        [("_validUntilDateTime", .text "2024-06-01T12:00:00.000Z")] ∧
      ¬Contains noon (.named "expireds" none)
        [("_validUntilDateTime", .text "2024-06-01T12:00:00.000Z")]) ∧
    Contains noon (.named "actives-7d" none)
        [("_validFromDateTime", .text "2024-06-01T12:00:00.000Z")] ∧
      ¬Contains noon (.named "actives" none)
        [("_validFromDateTime", .text "2024-06-01T12:00:00.000Z")] := by
  decide +kernel

end SetExpr

end Catalog
