import Catalog.Value.Basic

/-!
# Sameness of values

Two values are *the same* if they are of one kind and equal, where numbers are equal by value, a
boolean counts as the number one or zero, arrays are the same item by item, and objects are the
same if they have the same keys with the same values, in whatever order. Not-a-number is not the
same as anything, but inside arrays and objects it is the same as itself.
-/

namespace Catalog.Value

/-- A number, or a boolean as the number it counts as. -/
def numeric? : Value → Option Number
  | .number n => some n
  | .bool b => some (.int (if b then 1 else 0))
  | _ => none

/-- Whether a value is not-a-number. -/
def isNaN : Value → Bool
  | .number (.double .nan) => true
  | _ => false

mutual

/-- Whether two values are the same. -/
def same : Value → Value → Bool
  | .null, .null => true
  | .bool a, w => (w.numeric?.map (Number.same (.int (if a then 1 else 0)))).getD false
  | .number a, w => (w.numeric?.map a.same).getD false
  | .text a, .text b => a == b
  | .instant a, .instant b => a.same b
  | .array a, .array b => sameItems a b
  | .object a, .object b => a.length == b.length && sameMembers a b
  | _, _ => false

/-- Whether two lists of values are the same item by item. -/
def sameItems : List Value → List Value → Bool
  | [], [] => true
  | v :: vs, w :: ws => ((v.isNaN && w.isNaN) || v.same w) && sameItems vs ws
  | _, _ => false

/-- Whether all members of the first object are the same in the second. -/
def sameMembers : List (String × Value) → List (String × Value) → Bool
  | [], _ => true
  | (k, v) :: rest, ms =>
    (match Document.get? k ms with
      | some w => (v.isNaN && w.isNaN) || v.same w
      | none => false) && sameMembers rest ms

end

/-- Whether a value can be a key: arrays and objects cannot. -/
def isKey : Value → Bool
  | .array _ => false
  | .object _ => false
  | _ => true

example : (array [.bool true, .int 0]).same (array [.int 1, .bool false]) = true ∧
    (object [("a", .null), ("b", .int 2)]).same (object [("b", .int 2), ("a", .null)]) = true := by
  decide +kernel

end Catalog.Value
