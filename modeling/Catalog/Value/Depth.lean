import Catalog.Value.Basic

/-!
# The depth of a value

How many values there are on the longest way inward, from a value to one that holds nothing.
-/

namespace Catalog.Value

mutual

/-- The number of values on the longest way inward, the value itself included. -/
def depth : Value → Nat
  | .array items => 1 + depthOfItems items
  | .object members => 1 + depthOfMembers members
  | _ => 1

/-- The depth of the deepest of some values. -/
def depthOfItems : List Value → Nat
  | [] => 0
  | v :: rest => max v.depth (depthOfItems rest)

/-- The depth of the deepest value of some members. -/
def depthOfMembers : List (String × Value) → Nat
  | [] => 0
  | (_, v) :: rest => max v.depth (depthOfMembers rest)

end

example : (array [.array [], .int 5]).depth = 2 := by decide

end Catalog.Value
