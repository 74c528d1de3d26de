import Catalog.Query.Coercion
import Catalog.Query.Filter
import Catalog.Text.PatternReader
import Catalog.Value.JsonReader

/-!
# Reading filters

A filter is given as an object, or as JSON text. Its parts are read in a fixed order, so that of
several mistakes always the same one is reported: condition, limit, skip, lookups, includes, order,
fields, set.

* `Condition.read` reads the condition, an object whose members are fields with what they are to be,
  or connectives;
* `Filter.read` reads a whole filter, with filters nested to a bounded depth.
-/

namespace Catalog

open Text

/-! ## Conditions -/

/-- Whether an option counts as true: a text does unless it is empty, `0` or `false`. -/
def isOn : Value → Bool
  | .text s => !(["false", "0", ""].contains (lower (trim s)))
  | v => v.truthy

/-- The operands that a value lists: the items of an array, the parts of a text between commas, or
    the value alone. -/
def operandsOf : Value → List Value
  | .array items => items
  | .text s => (splitOn ',' s).map fun part => .text (trim part)
  | v => [v]

namespace Leaf

/-- A leaf with an operand that is a pattern. -/
def readPattern (path : String) (operator : Operator) : Value → Outcome Leaf
  | .text s =>
    if operator = .regexp then
      match Pattern.read s with
      | .ok _ => .ok { path, operator, operand := .text s }
      | .error .malformed => refuseFilter (.invalidPattern path)
      | .error .tooManyTimes => giveUp .pattern
    else .ok { path, operator, operand := .text s }
  | _ => refuseFilter (.patternNotText operator.name path)

/-- The leaf of an operator and its operand, with a type hint unless it is null. -/
def read (path : String) (hint : Value) (operator : Operator) (v : Value) : Outcome Leaf :=
  match operator with
  | .between => do
    let operands := operandsOf v
    if operands.length ≠ 2 then refuseFilter (.rangeEnds path)
    let (operand, literal) ← coerceEach hint operands
    return { path, operator, operand, literal }
  | .inq | .nin => do
    let (operand, literal) ← coerceEach hint (operandsOf v)
    return { path, operator, operand, literal }
  | .present => .ok { path, operator, operand := .bool (isOn v) }
  | .like | .nlike | .ilike | .nilike | .regexp => readPattern path operator v
  | _ => do
    let (operand, literal) ← coerce hint v
    return { path, operator, operand, literal := literal.map .text }

end Leaf

namespace Condition

/-- Whether a member of an object says something about one field: an operator, a type hint or
    options. -/
def isLeafKey (key : String) : Bool :=
  (Operator.ofName? key).isSome || key == "type" || key == "options"

/-- The operator that a key stands for; with the option `i` patterns are found in any case. -/
def operatorOf? (options key : String) : Option Operator :=
  let anyCase := options.toList.contains 'i'
  match Operator.ofName? key with
  | some .like => some (if anyCase then .ilike else .like)
  | some .nlike => some (if anyCase then .nilike else .nlike)
  | o => o

/-- The condition on one field that an object of operators stands for. -/
def readOperators (path : String) (members : List (String × Value)) : Outcome Condition := do
  let hint := Value.orNull (Document.get? "type" members)
  let options := lower ((Document.get? "options" members).getD (.text "")).display
  let leaves ← members.filterMapM fun (key, v) =>
    match operatorOf? options key with
    | some operator => do return some (Condition.leaf (← Leaf.read path hint operator v))
    | none => pure none
  if leaves.isEmpty then refuseFilter (.noOperator path)
  return conj leaves

/-- The connective that a key stands for, which it does only outside the fields of a field. -/
def connective? (within key : String) : Option Connective :=
  if within ≠ "" then none
  else if key = "and" then some .and
  else if key = "or" then some .or
  else none

/-- Conditions under a connective, at least one. -/
def connected (c : Connective) (cs : List Condition) : Outcome Condition :=
  if cs.isEmpty then refuseFilter (.emptyConnective c)
  else .ok <|
    match c with
    | .and => conj cs
    | .or => disj cs

mutual

/-- The conditions that the members of an object stand for; `within` is the path of the field they
    belong to, with a point after it. -/
def readMembers (within : String) : List (String × Value) → Outcome (List Condition)
  | [] => .ok []
  | (key, v) :: rest => do
    let c ← match connective? within key with
      | some c => connected c (← readConnected v)
      | none => readField (within ++ key) v
    return c :: (← readMembers within rest)

/-- The conditions that a connective connects: an array of objects, or one object. -/
def readConnected : Value → Outcome (List Condition)
  | .array items => readItems items
  | .object [] => .ok []
  | .object members => do return [conj (← readMembers "" members)]
  | .null => .ok []
  | .text s => if s.isEmpty then .ok [] else refuseFilter .whereNotObject
  | _ => refuseFilter .whereNotObject

/-- The conditions that the objects in an array stand for. -/
def readItems : List Value → Outcome (List Condition)
  | [] => .ok []
  | .object members :: rest => do
    let c := conj (← readMembers "" members)
    return c :: (← readItems rest)
  | _ :: _ => refuseFilter .whereNotObject

/-- The condition that the value next to a field stands for: operators, fields of the field, or what
    the field is equal to. -/
def readField (path : String) : Value → Outcome Condition
  | .object [] => refuseFilter (.emptyCondition path)
  | .object members =>
    if members.all fun m => isLeafKey m.1 then readOperators path members
    else do return conj (← readMembers (path ++ ".") members)
  | .array items => do
    let (operand, literal) ← coerceEach .null items
    return .leaf { path, operator := .eq, operand, literal }
  | v => do
    let (operand, literal) ← coerce .null v
    return .leaf { path, operator := .eq, operand, literal := literal.map .text }

end

/-- Reads a condition. -/
def read : Value → Outcome Condition
  | .object members => do return conj (← readMembers "" members)
  | _ => refuseFilter .whereNotObject

end Condition

/-! ## Pages, order and fields -/

/-- Whether a value says nothing about a number: null and the empty text. -/
def isUnsaid : Value → Bool
  | .null => true
  | .text s => s.isEmpty
  | _ => false

/-- A page bound. -/
def readBound (bound : PageBound) (v : Value) : Outcome Nat :=
  match v with
  | .bool _ => refuseFilter (.booleanBound bound)
  | v =>
    match Numeral.int? (trim v.display) with
    | some (.ofNat n) => .ok n
    | some _ => refuseFilter (.negative bound)
    | none => refuseFilter (.notWhole bound v)

/-- The limit that a filter says, or else the given one; no more than the greatest allowed. A limit
    of zero says nothing. -/
def readLimit (v : Value) (default maximum : Option Int) : Outcome (Option Int) := do
  let said ← if isUnsaid v then pure 0 else readBound .limit v
  let limit := if said = 0 then default else some (said : Int)
  return match maximum, limit with
    | some m, some l => some (if l > m then m else l)
    | some m, none => some m
    | none, l => l

/-- The number of records to leave out first. -/
def readSkip (v : Value) : Outcome Nat := if isUnsaid v then pure 0 else readBound .skip v

/-- The things that a value lists: none if it is blank, the items of an array, or the value. -/
def listOf (v : Value) : List Value :=
  if v.isBlank then []
  else
    match v with
    | .array items => items
    | v => [v]

/-- A field to sort by, written as its path and perhaps a direction; blanks alone write nothing. -/
def readOrderKey (v : Value) : Outcome (Option OrderKey) :=
  match words v.display with
  | [] => .ok none
  | [path] => .ok (some { path })
  | [path, direction] =>
    if SetExpr.sameLetters "desc".toList direction.toList then
      .ok (some { path, descending := true })
    else if SetExpr.sameLetters "asc".toList direction.toList then .ok (some { path })
    else refuseFilter (.orderClause v)
  | _ => refuseFilter (.orderClause v)

/-- The fields to sort by, in an array or between the commas of a text. -/
def readOrder (v : Value) : Outcome (List OrderKey) :=
  let items := match v with
    | .null => []
    | .array items => items
    | .text s => if s.isEmpty then [] else (splitOn ',' s).map .text
    | v => (splitOn ',' v.display).map .text
  items.filterMapM readOrderKey

/-- The fields to show. In an object those that are on are kept; if none is, all are dropped. -/
def readFields : Value → Outcome (Option Projection)
  | .null => .ok none
  | .array items =>
    .ok (if items.isEmpty then none else some (.keep (items.map Value.display)))
  | .text s =>
    .ok (if s.isEmpty then none
      else some (.keep (((splitOn ',' s).map trim).filter fun n => !n.isEmpty)))
  | .object members =>
    let kept := (members.filter fun m => isOn m.2).map Prod.fst
    .ok (if members.isEmpty then none
      else if kept.isEmpty then some (.drop (members.map Prod.fst))
      else some (.keep kept))
  | _ => refuseFilter .fieldsNotObject

/-! ## Filters -/

/-- A part of a query that is given as it is or as JSON text; null if it is missing or blank. -/
def unwrapped (v : Value) : Outcome Value :=
  match v with
  | .text s =>
    if (trim s).isEmpty then .ok .null
    else
      match Json.read (trim s) with
      | .ok v => .ok v
      | .error .tooDeep => giveUp .tooDeep
      | .error _ => refuseFilter .malformedText
  | v => .ok v

/-- The object that a filter is, empty if it is missing. -/
def loadFilter (v : Value) : Outcome Document := do
  match ← unwrapped v with
  | .null => return []
  | .object members => return members
  | _ => refuseFilter .filterNotObject

/-- The name of a part with a scope of its own, under a key of an object; it may not be missing. -/
def scopedName? (key : String) (members : List (String × Value)) : Option String :=
  (Document.get? key members).bind fun v => if v.truthy then some v.display else none

/-- What a lookup says: the field, and the filter on what is looked up. -/
def readLookup (readScope : Value → Outcome Filter) (v : Value) : Outcome (Scoped Filter) :=
  match v with
  | .object members =>
    match scopedName? "prop" members with
    | some name => do
      return { name, scope := ← readScope (Value.orNull (Document.get? "scope" members)) }
    | none => refuseFilter .lookupWithoutProp
  | _ => refuseFilter .lookupWithoutProp

/-- What an include says: its name, and the filter on what is included. -/
def readInclude (readScope : Value → Outcome Filter) (v : Value) : Outcome (Scoped Filter) :=
  match v with
  | .text name => .ok { name, scope := {} }
  | .object members =>
    match scopedName? "relation" members with
    | some name => do
      return { name, scope := ← readScope (Value.orNull (Document.get? "scope" members)) }
    | none => refuseFilter .includeWithoutRelation
  | _ => refuseFilter .includeWithoutRelation

/-- The bounds that the reader of a filter keeps to. -/
structure FilterBounds where
  /-- The limit of a filter that says none. -/
  defaultLimit : Option Int := none
  /-- The greatest limit. -/
  maximumLimit : Option Int := none
  /-- How deep filters may be nested. -/
  depth : Int := 5

/-- Reads a filter; `levels` is one more than how deep filters may be nested in it. -/
def Filter.readLevels (bounds : FilterBounds) (defaultLimit maximumLimit : Option Int)
    (levels : Nat) (v : Value) : Outcome Filter := do
  let members ← loadFilter v
  let get (key : String) : Value := Value.orNull (Document.get? key members)
  match levels with
  | 0 => refuseFilter (.tooDeep bounds.depth)
  | levels + 1 =>
    let where_ := get "where"
    let condition ← if where_.isBlank then pure .always else Condition.read where_
    let limit ← readLimit (get "limit") defaultLimit maximumLimit
    let skip ← readSkip (Value.orNull ((Document.get? "skip" members).or
      (Document.get? "offset" members)))
    let readScope := Filter.readLevels bounds none none levels
    let lookups ← (listOf (get "lookup")).mapM (readLookup readScope)
    let includes ← (listOf (get "include")).mapM (readInclude readScope)
    let order ← readOrder (get "order")
    let fields ← readFields (get "fields")
    let set ← SetExpr.read (get "set")
    return { condition, order, limit, skip, fields, lookups, includes, set }

/-- Reads a filter. -/
def Filter.read (bounds : FilterBounds) (v : Value) : Outcome Filter :=
  readLevels bounds bounds.defaultLimit bounds.maximumLimit (bounds.depth + 1).toNat v

end Catalog
