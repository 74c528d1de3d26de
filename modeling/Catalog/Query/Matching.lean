import Catalog.Failure
import Catalog.Query.Coercion
import Catalog.Query.Condition
import Catalog.Text.PatternReader
import Catalog.Text.Wildcard
import Catalog.Value.Path
import Catalog.Value.Sameness

/-!
# Matching

Whether a document, or any other value, meets a condition. The value at a leaf's path is compared
with the operand:

* an array field is equal to an operand if one of its items is, and not equal if none is; the same
  goes for the order and for patterns. An operand that is an array is compared as a whole;
* a missing field is equal to null;
* a text that writes an instant compares with a moment as that instant;
* values of different kinds are not equal and in no order, unless the literal of the operand
  decides.

Matching stops at the first member of a conjunction or disjunction that decides it. It meets a
fault where an operand does not fit its operator, and at texts that write instants outside the
calendar.
-/

namespace Catalog

open Text

/-- Whether a test holds of a value, or of an item of it if it is an array. Items after the first
    such are not tested. -/
def anyItem (test : Value → Except Fault Bool) : Value → Except Fault Bool
  | .array items => items.anyM test
  | v => test v

/-- The moment that a value is or writes. -/
def instantOf : Value → Except Fault (Option Moment)
  | .instant t => .ok (some t)
  | .text s => instantOfText s false
  | _ => .ok none

/-- Whether a value is the text that an operand was inferred from. -/
def isLiteral (actual : Value) (literal : Option String) : Bool :=
  match actual, literal with
  | .text s, some l => s == l
  | _, _ => false

/-- Whether a value that is no array is equal to an operand. -/
def scalarEquals (actual expected : Value) (literal : Option String) : Except Fault Bool := do
  match actual, expected with
  | .null, .null => return true
  | _, .null => return false
  | actual, .instant t =>
    match ← instantOf actual with
    | some u => return u.same t
    | none => return isLiteral actual literal
  | .number a, .number b => return a.same b
  | actual, .number _ => return isLiteral actual literal
  | .bool a, .bool b => return a == b
  | .bool _, _ => return false
  | actual, .bool _ => return isLiteral actual literal
  | actual, expected => return actual.same expected || isLiteral actual literal

/-- The one text that an operand was inferred from. -/
def Literal.text? : Literal → Option String
  | .text s => some s
  | .each _ => none

/-- Whether a value is equal to an operand. -/
def equalTo (actual expected : Value) (literal : Option Literal) : Except Fault Bool :=
  match actual, expected with
  | .array a, .array b => .ok ((Value.array a).same (.array b))
  | _, .array _ => .ok false
  | .array _, .null => .ok false
  | actual, expected =>
    anyItem (fun v => scalarEquals v expected (literal.bind Literal.text?)) actual

/-- The literals of the members of an operand, in line with them; there may be fewer or more. -/
def literalsOf (literal : Option Literal) (count : Nat) : List (Option String) :=
  let given : List (Option String) := match literal with
    | some (.text s) => s.toList.map fun c => some (String.singleton c)
    | some (.each items) => items
    | none => []
  if given.isEmpty then List.replicate count none else given

/-- Whether there is a literal with something in it. -/
def hasLiteral (literal : Option Literal) : Bool :=
  match literal with
  | some (.text s) => !s.isEmpty
  | some (.each items) => !items.isEmpty
  | none => false

/-- Whether a value, or an item of it, is equal to one of the members of an operand. An operand
    without members is a fault, unless there is a literal and the value has no items to compare. -/
def equalToOne (actual operand : Value) (literal : Option Literal) : Except Fault Bool :=
  match actual, operand.elements? with
  | .array [], none => if hasLiteral literal then .ok false else .error .operand
  | _, none => .error .operand
  | actual, some values =>
    let pairs := values.zip (literalsOf literal values.length)
    anyItem (fun v => pairs.anyM fun (expected, l) => scalarEquals v expected l) actual

/-- The order of a value and an operand, if they are in one. -/
def order? (actual expected : Value) (literal : Option Literal) :
    Except Fault (Option Ordering) := do
  let byLiteral : Except Fault (Option Ordering) :=
    match actual, literal with
    | .text s, some (.text l) => .ok (some (compare s l))
    | .text _, some (.each _) => .error .operand
    | _, _ => .ok none
  match actual, expected with
  | .null, _ => return none
  | _, .null => return none
  | actual, .instant t =>
    match ← instantOf actual with
    | some u => return some (u.compare t)
    | none => byLiteral
  | .number a, .number b => return some ((a.compare? b).getD .eq)
  | .text a, .text b => return some (compare a b)
  | _, _ => byLiteral

/-- Whether a value lies between two ends, both included. -/
def within (actual low high : Value) (lowLiteral highLiteral : Option String) :
    Except Fault Bool := do
  let above ← order? actual low (lowLiteral.map .text)
  let below ← order? actual high (highLiteral.map .text)
  match above, below with
  | some above, some below => return above.isGE && below.isLE
  | _, _ => return false

/-- Whether a value is a text that a test holds of. -/
def textWith (test : String → Bool) (v : Value) : Except Fault Bool :=
  match v with
  | .text s => .ok (test s)
  | _ => .ok false

/-- Whether a value, or an item of it, lies between the two members of an operand. -/
def betweenEnds (actual operand : Value) (literal : Option Literal) : Except Fault Bool := do
  match ← orFault .operand operand.elements? with
  | [low, high] =>
    match literalsOf literal 2 with
    | [lowLiteral, highLiteral] =>
      anyItem (fun v => within v low high lowLiteral highLiteral) actual
    | _ => .error .operand
  | _ => .error .operand

/-- Whether a value, or an item of it, is in one of some orders to an operand. -/
def inOrder (test : Ordering → Bool) (actual expected : Value) (literal : Option Literal) :
    Except Fault Bool :=
  anyItem (fun v => do return ((← order? v expected literal).map test).getD false) actual

/-- Whether a value, or an item of it, is a text that a wildcard pattern is found in. -/
def likePattern (ignoreCase : Bool) (actual operand : Value) : Except Fault Bool :=
  anyItem (textWith (Wildcard.matched ignoreCase operand.display)) actual

/-- Whether a value, or an item of it, is a text that a regular expression is found in. -/
def likeRegexp (actual operand : Value) : Except Fault Bool :=
  match operand with
  | .text s =>
    match Pattern.read s with
    | .ok p => anyItem (textWith p.found) actual
    | .error _ => .error .pattern
  | _ => .error .pattern

/-- Whether a value meets a leaf. -/
def Leaf.holds (l : Leaf) (doc : Value) : Except Fault Bool := do
  let found := doc.path? l.path
  let actual := Value.orNull found
  match l.operator with
  | .present => return found.isSome == l.operand.truthy
  | .eq => equalTo actual l.operand l.literal
  | .neq => return !(← equalTo actual l.operand l.literal)
  | .inq => equalToOne actual l.operand l.literal
  | .nin => return !(← equalToOne actual l.operand l.literal)
  | .like => likePattern false actual l.operand
  | .nlike => return !(← likePattern false actual l.operand)
  | .ilike => likePattern true actual l.operand
  | .nilike => return !(← likePattern true actual l.operand)
  | .regexp => likeRegexp actual l.operand
  | .between => betweenEnds actual l.operand l.literal
  | .gt => inOrder Ordering.isGT actual l.operand l.literal
  | .gte => inOrder Ordering.isGE actual l.operand l.literal
  | .lt => inOrder Ordering.isLT actual l.operand l.literal
  | .lte => inOrder Ordering.isLE actual l.operand l.literal

namespace Condition

mutual

/-- Whether a value meets a condition. -/
def holds : Condition → Value → Except Fault Bool
  | .always, _ => .ok true
  | .never, _ => .ok false
  | .leaf l, doc => l.holds doc
  | .and cs, doc => allHold cs doc
  | .or cs, doc => someHold cs doc

/-- Whether a value meets all of several conditions, up to the first that it does not. -/
def allHold : List Condition → Value → Except Fault Bool
  | [], _ => .ok true
  | c :: cs, doc => do if ← c.holds doc then allHold cs doc else return false

/-- Whether a value meets one of several conditions, up to the first that it does. -/
def someHold : List Condition → Value → Except Fault Bool
  | [], _ => .ok false
  | c :: cs, doc => do if ← c.holds doc then return true else someHold cs doc

end

end Condition

end Catalog
