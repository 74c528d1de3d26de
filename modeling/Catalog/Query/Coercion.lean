import Catalog.Failure
import Catalog.Number.Numeral
import Catalog.Query.Condition
import Catalog.Text.LetterCase
import Catalog.Time.Timestamp

/-!
# Operands from text

A filter is often written as text alone. Without a type hint the value of a text is inferred: null,
a boolean, an instant or a number if it is written as one, else the text itself. What was inferred
is remembered as the *literal*, so a field that holds the text is equal all the same. With a hint
the value is taken to be of that type, or refused.
-/

namespace Catalog

open Text

/-- Whether a text writes a number the plain way: digits with an optional sign before them and an
    optional point between them, and an optional line feed at the end. -/
def isPlainNumeral (cs : List Char) : Bool :=
  let cs := match cs with
    | '-' :: rest => rest
    | cs => cs
  let rest := cs.dropWhile isDecimalDigit
  let whole := cs.length != rest.length
  let isEnd (cs : List Char) : Bool := cs.isEmpty || cs == ['\n']
  whole && match rest with
    | '.' :: rest =>
      let tail := rest.dropWhile isDecimalDigit
      rest.length != tail.length && isEnd tail
    | rest => isEnd rest

/-- The moment that a text writes, if any, in universal time. A timestamp outside the calendar is a
    fault. -/
def instantOfText (s : String) (dateAlone : Bool) : Except Fault (Option Moment) :=
  match Timestamp.read s dateAlone with
  | .malformed => .ok none
  | .outOfRange => .error .outOfCalendar
  | .instant t => .ok (some (.ofInstant t))

/-- The number that a text writes the plain way. -/
def numberOfText (s : String) : Except Fault Number :=
  if s.toList.contains '.' then orFault .notANumeral ((Numeral.double? s).map .double)
  else orFault .notANumeral ((Numeral.int? s).map .int)

/-- The value that a text is inferred to write, and the text if it may be meant all the same. -/
def inferText (s : String) : Except Fault (Value × Option String) := do
  if s = "null" then return (.null, none)
  if s = "true" ∨ s = "false" then return (.bool (s = "true"), some s)
  if Timestamp.beginsWithDateAndTime s.toList then
    match ← instantOfText s false with
    | some t => return (.instant t, some s)
    | none => return (.text s, none)
  if isPlainNumeral s.toList then return (.number (← numberOfText s), some s)
  return (.text s, none)

/-- The value that an operand without a type hint stands for, and its literal. -/
def infer : Value → Except Fault (Value × Option String)
  | .text s => inferText s
  | v => .ok (v, none)

/-- The number that a value is taken for. -/
def asNumber (v : Value) : Outcome Value :=
  match v with
  | .bool _ => refuseFilter (.notNumber v)
  | .number n => .ok (.number n)
  | v =>
    let s := trim v.display
    let n? : Option Number :=
      if s.toList.any fun c => c == '.' || c == 'e' || c == 'E' then
        (Numeral.double? s).map .double
      else (Numeral.int? s).map .int
    match n? with
    | some n => .ok (.number n)
    | none => refuseFilter (.notNumber v)

/-- The moment that a value is taken for. -/
def asInstant (v : Value) : Outcome Value :=
  match v with
  | .instant t => .ok (.instant t)
  | v => do
    match ← instantOfText v.display true with
    | some t => return .instant t
    | none => refuseFilter (.notDate v)

/-- The boolean that a value is taken for. -/
def asBoolean (v : Value) : Outcome Value :=
  match v with
  | .bool b => .ok (.bool b)
  | v =>
    let s := lower v.display
    if s = "true" ∨ s = "1" then .ok (.bool true)
    else if s = "false" ∨ s = "0" then .ok (.bool false)
    else refuseFilter (.notBoolean v)

/-- The value that an operand with a type hint is taken for; null stays null. -/
def coerceHinted (hint : String) (v : Value) : Outcome Value :=
  let isNull := match v with
    | .null => true
    | .text s => s = "null"
    | _ => false
  let kind := lower hint
  if isNull then .ok .null
  else if kind = "string" then .ok (.text v.display)
  else if kind = "number" then asNumber v
  else if kind = "date" then asInstant v
  else if kind = "boolean" then asBoolean v
  else refuseFilter (.unknownHint hint)

/-- The value and the literal of an operand, with a type hint unless it is null. A hint that is no
    text is a fault. -/
def coerce (hint v : Value) : Outcome (Value × Option String) :=
  match hint with
  | .null => infer v
  | .text h => do return (← coerceHinted h v, none)
  | _ => giveUp .shape

/-- The values and literals of several operands. If no operand has a literal, there is none. -/
def coerceEach (hint : Value) (vs : List Value) : Outcome (Value × Option Literal) := do
  let pairs ← vs.mapM (coerce hint)
  let literals := pairs.map Prod.snd
  let literal := if literals.all Option.isNone then none else some (Literal.each literals)
  return (.array (pairs.map Prod.fst), literal)

end Catalog
