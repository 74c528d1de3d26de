import Catalog.Failure
import Catalog.Number.Numeral
import Catalog.Query.Access
import Catalog.Query.Condition
import Catalog.Text.LetterCase

/-!
# Sets

A *set expression* selects records by names: those that are active, public, owned by someone and so
on, under conjunctions and disjunctions. `SetExpr.read` reads one from a value, and
`SetExpr.condition` gives the condition that it stands for at an instant.

A name such as `actives-7d` selects the records that entered a set within a window of time before
the instant. A name that is not known selects everything.
-/

namespace Catalog

open Text

/-- Users and groups that a set is about. -/
structure Audience where
  /-- The ids of the users. -/
  users : List String := []
  /-- The ids of the groups. -/
  groups : List String := []
deriving DecidableEq, Repr

/-- A set expression. -/
inductive SetExpr where
  /-- A set with a name, and the audience it is about if one is given. -/
  | named (name : String) (audience : Option Audience)
  /-- What is in all of several sets. -/
  | and (members : List SetExpr)
  /-- What is in some of several sets. -/
  | or (members : List SetExpr)
deriving Inhabited

namespace SetExpr

/-! ## Reading -/

/-- The audience that a value describes; only objects do. -/
def audienceOf : Value → Option Audience
  | .object members =>
    some { users := splitIds (Value.orNull (Document.get? "userIds" members)),
           groups := splitIds (Value.orNull (Document.get? "groupIds" members)) }
  | _ => none

/-- Whether a value next to a name leaves the set out: false, as a boolean or text. -/
def leavesOut : Value → Bool
  | .bool b => !b
  | .text s => lower s = "false"
  | _ => false

/-- The set that a name alone stands for, without blanks around it and in lower case. -/
def ofName (s : String) : SetExpr := .named (lower (trim s)) none

/-- What is in all of several sets; nothing is said by none of them. -/
def all? : List SetExpr → Option SetExpr
  | [] => none
  | [e] => some e
  | es => some (.and es)

mutual

/-- Reads a set expression; null, an empty text and an object that names no set are none. -/
def read : Value → Outcome (Option SetExpr)
  | .null => .ok none
  | .text s => .ok (if s.isEmpty then none else some (ofName s))
  | .object members => do return all? (← readMembers members)
  | v => refuseFilter (.setNotObject v.kindName)

/-- Reads the members of an object: each is a set, or a connective and what it connects. -/
def readMembers : List (String × Value) → Outcome (List SetExpr)
  | [] => .ok []
  | (key, v) :: rest => do
    let name := lower (trim key)
    let expr ←
      if name = "and" then
        match ← readConnected v with
        | [] => refuseFilter (.emptySet .and)
        | es => pure (some (.and es))
      else if name = "or" then
        match ← readConnected v with
        | [] => refuseFilter (.emptySet .or)
        | es => pure (some (.or es))
      else if leavesOut v then pure none
      else pure (some (.named name (audienceOf v)))
    return expr.toList ++ (← readMembers rest)

/-- Reads what a connective connects: an array, or one set. -/
def readConnected : Value → Outcome (List SetExpr)
  | .array items => readItems items
  | .object members => do return (all? (← readMembers members)).toList
  | .text s => .ok (if s.isEmpty then [] else [ofName s])
  | _ => .ok []

/-- Reads the set expressions in an array. -/
def readItems : List Value → Outcome (List SetExpr)
  | [] => .ok []
  | v :: rest => do
    let expr ← read v
    return expr.toList ++ (← readItems rest)

end

/-! ## Windows of time -/

/-- A unit of time. -/
inductive TimeUnit where
  /-- A minute. -/
  | minute
  /-- A day. -/
  | day
  /-- A week. -/
  | week
  /-- A month of the calendar. -/
  | month
deriving DecidableEq, Repr

/-- What happened within a window of time. -/
inductive WindowBase where
  /-- The record was created. -/
  | createds
  /-- The record became valid, and is valid. -/
  | actives
  /-- The record stopped being valid. -/
  | expireds
  /-- The record was created, and is not valid yet. -/
  | pendings
deriving DecidableEq, Repr

/-- A set of what happened within a window of time. -/
structure Window where
  /-- What happened. -/
  base : WindowBase
  /-- The length of the window in units, as digits. -/
  digits : List Char
  /-- The unit. -/
  unit : TimeUnit
deriving DecidableEq, Repr

/-- Whether two texts differ in case only, character by character. -/
def sameLetters : List Char → List Char → Bool
  | [], [] => true
  | a :: as, b :: bs => sameCase a b && sameLetters as bs
  | _, _ => false

/-- The base with a name. A name with a letter that stands for a plain one without being its lower
    case form is taken for `pendings`. -/
def WindowBase.ofName? (cs : List Char) : Option WindowBase :=
  let names := ["createds", "actives", "pendings", "expireds"]
  if names.any fun n => sameLetters n.toList cs then
    let name := lower (String.ofList cs)
    some (if name = "createds" then .createds
      else if name = "actives" then .actives
      else if name = "expireds" then .expireds
      else .pendings)
  else none

/-- The unit with a name. A name with a letter that stands for a plain one without being its lower
    case form is taken for days. -/
def TimeUnit.ofName? (cs : List Char) : Option TimeUnit :=
  let names := ["min", "m", "d", "day", "w", "mon", "mo"]
  if names.any fun n => sameLetters n.toList cs then
    let name := lower (String.ofList cs)
    some (if name = "min" ∨ name = "m" then .minute
      else if name = "w" then .week
      else if name = "mon" ∨ name = "mo" then .month
      else .day)
  else none

/-- The window that a name such as `actives-7d` stands for. -/
def Window.ofName? (name : String) : Option Window := do
  let cs := name.toList
  let base ← WindowBase.ofName? (cs.takeWhile (· ≠ '-'))
  match cs.dropWhile (· ≠ '-') with
  | '-' :: rest =>
    let digits := rest.takeWhile isDecimalDigit
    guard !digits.isEmpty
    let unit ← TimeUnit.ofName? (rest.dropWhile isDecimalDigit)
    return { base, digits, unit }
  | _ => none

/-- The moment a number of units before another. -/
def TimeUnit.before? (unit : TimeUnit) (t : Moment) (amount : Nat) : Option Moment :=
  match unit with
  | .minute => t.shift? (-(amount * 60000000 : Nat))
  | .day => t.shift? (-(amount * microsOfDay : Nat))
  | .week => t.shift? (-(amount * 7 * microsOfDay : Nat))
  | .month => t.monthsBefore? amount

/-! ## Conditions -/

/-- The record is valid at a moment: it has become valid before, and does not stop until after. -/
def actives (now : Moment) : Condition :=
  .conj [
    .disj [
      .equals "_validUntilDateTime" .null,
      .compare "_validUntilDateTime" .gt (.instant now)],
    .compare "_validFromDateTime" .neq .null,
    .compare "_validFromDateTime" .lt (.instant now)]

/-- The record has stopped being valid before a moment. -/
def expireds (now : Moment) : Condition :=
  .conj [
    .compare "_validUntilDateTime" .neq .null,
    .compare "_validUntilDateTime" .lt (.instant now)]

/-- The record has not become valid at a moment. -/
def pendings (now : Moment) : Condition :=
  .disj [
    .equals "_validFromDateTime" .null,
    .compare "_validFromDateTime" .gt (.instant now)]

/-- What happened between two moments. -/
def WindowBase.condition (base : WindowBase) (start now : Moment) : Condition :=
  let window := Value.array [.instant start, .instant now]
  match base with
  | .createds => .compare "_createdDateTime" .between window
  | .expireds =>
    .conj [
      .compare "_validUntilDateTime" .neq .null,
      .compare "_validUntilDateTime" .between window]
  | .actives =>
    .conj [
      .disj [
        .equals "_validUntilDateTime" .null,
        .compare "_validUntilDateTime" .gt (.instant now)],
      .compare "_validFromDateTime" .neq .null,
      .compare "_validFromDateTime" .between window]
  | .pendings => .conj [SetExpr.pendings now, .compare "_createdDateTime" .between window]

/-- The condition of a window of time before a moment; a window of length zero selects
    everything. -/
def Window.condition (w : Window) (now : Moment) : Except Fault Condition := do
  let amount ← orFault .notANumeral (Numeral.boundedValue? w.digits)
  if amount = 0 then return .always
  let start ← orFault .outOfCalendar (w.unit.before? now amount)
  return w.base.condition start now

/-- One of the users is among those in a field, or one of the groups among those in another and the
    record is not private. An audience of nobody selects the records with nobody in either field,
    and no audience selects nothing. -/
def membership (audience : Option Audience) (usersField groupsField : String) : Condition :=
  match audience with
  | none => .never
  | some a =>
    let users := if a.users.isEmpty then none
      else some (Condition.disj (a.users.map fun u => .equals usersField (.text u)))
    let groups := if a.groups.isEmpty then none
      else some (Condition.conj [
        .disj (a.groups.map fun g => .equals groupsField (.text g)),
        .compare "_visibility" .neq (.text "private")])
    match users, groups with
    | some u, some g => .disj [u, g]
    | some u, none => u
    | none, some g => g
    | none, none =>
      .conj [.equals (usersField ++ "Count") (.int 0), .equals (groupsField ++ "Count") (.int 0)]

/-- One of the users or groups is an owner or viewer. -/
def audience (audience : Option Audience) : Condition :=
  match audience with
  | none => .never
  | some a =>
    let clauses (ids : List String) (owners viewers : String) : List Condition :=
      if ids.isEmpty then []
      else [.compare owners .inq (.array (ids.map .text)),
            .compare viewers .inq (.array (ids.map .text))]
    .disj (clauses a.users "_ownerUsers" "_viewerUsers" ++
      clauses a.groups "_ownerGroups" "_viewerGroups")

/-- The condition of a set with a name at a moment. -/
def namedCondition (name : String) (a : Option Audience) (now : Moment) :
    Except Fault Condition :=
  match Window.ofName? name with
  | some w => w.condition now
  | none => .ok <|
    match name with
    | "actives" => actives now
    | "expireds" => expireds now
    | "pendings" => pendings now
    | "publics" => .equals "_visibility" (.text "public")
    | "privates" => .equals "_visibility" (.text "private")
    | "protecteds" => .equals "_visibility" (.text "protected")
    | "roots" => .equals "_parentsCount" (.int 0)
    | "owners" => membership a "_ownerUsers" "_ownerGroups"
    | "viewers" => membership a "_viewerUsers" "_viewerGroups"
    | "audience" => audience a
    | _ => .always

mutual

/-- The condition of a set expression at a moment. -/
def condition (now : Moment) : SetExpr → Except Fault Condition
  | .named name a => namedCondition name a now
  | .and es => do return .conj (← conditions now es)
  | .or es => do return .disj (← conditions now es)

/-- The conditions of several set expressions. -/
def conditions (now : Moment) : List SetExpr → Except Fault (List Condition)
  | [] => .ok []
  | e :: es => do return (← e.condition now) :: (← conditions now es)

end

/-- The condition of a set expression that may be missing: without one everything is selected. -/
def conditionOf (now : Moment) : Option SetExpr → Except Fault Condition
  | none => .ok .always
  | some e => e.condition now

end SetExpr

end Catalog
