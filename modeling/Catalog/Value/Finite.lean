import Catalog.Value.Basic

/-!
# Values of finite numbers

JSON has finite numbers only. A value whose numbers are all finite can be sent as it is; of any
other one `Value.onlyFinite` makes such a value.
-/

namespace Catalog

/-- Whether a number is finite. -/
def Number.isFinite : Number → Bool
  | .int _ => true
  | .double (.finite _ _ _ _) => true
  | .double _ => false

namespace Value

mutual

/-- Whether all numbers in a value are finite. -/
def isFinite : Value → Bool
  | .number n => n.isFinite
  | .array items => areFinite items
  | .object members => membersAreFinite members
  | _ => true

/-- Whether all numbers in some values are finite. -/
def areFinite : List Value → Bool
  | [] => true
  | v :: rest => v.isFinite && areFinite rest

/-- Whether all numbers in some members are finite. -/
def membersAreFinite : List (String × Value) → Bool
  | [] => true
  | (_, v) :: rest => v.isFinite && membersAreFinite rest

end

mutual

/-- The value with null in the place of each number that is not finite. -/
def onlyFinite : Value → Value
  | .number n => if n.isFinite then .number n else .null
  | .array items => .array (itemsOnlyFinite items)
  | .object members => .object (membersOnlyFinite members)
  | v => v

/-- The values with null in the place of each number that is not finite. -/
def itemsOnlyFinite : List Value → List Value
  | [] => []
  | v :: rest => v.onlyFinite :: itemsOnlyFinite rest

/-- The members with null in the place of each number that is not finite. -/
def membersOnlyFinite : List (String × Value) → List (String × Value)
  | [] => []
  | (k, v) :: rest => (k, v.onlyFinite) :: membersOnlyFinite rest

end

mutual

/-- What is made finite is finite. -/
theorem isFinite_onlyFinite (v : Value) : v.onlyFinite.isFinite = true := by
  match v with
  | .number n =>
    simp only [onlyFinite]
    split
    · next h => simpa [isFinite] using h
    · simp [isFinite]
  | .array items => simpa [onlyFinite, isFinite] using areFinite_itemsOnlyFinite items
  | .object members =>
    simpa [onlyFinite, isFinite] using membersAreFinite_membersOnlyFinite members
  | .null | .bool _ | .text _ | .instant _ => simp [onlyFinite, isFinite]

theorem areFinite_itemsOnlyFinite (vs : List Value) : areFinite (itemsOnlyFinite vs) = true := by
  match vs with
  | [] => simp [itemsOnlyFinite, areFinite]
  | v :: rest =>
    simp [itemsOnlyFinite, areFinite, isFinite_onlyFinite v, areFinite_itemsOnlyFinite rest]

theorem membersAreFinite_membersOnlyFinite (ms : List (String × Value)) :
    membersAreFinite (membersOnlyFinite ms) = true := by
  match ms with
  | [] => simp [membersOnlyFinite, membersAreFinite]
  | (_, v) :: rest =>
    simp [membersOnlyFinite, membersAreFinite, isFinite_onlyFinite v,
      membersAreFinite_membersOnlyFinite rest]

end

example : (array [.number (.double .nan), .int 1]).onlyFinite.isFinite = true := by
  decide

end Value

end Catalog
