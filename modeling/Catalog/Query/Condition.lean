import Catalog.Value.Basic

/-!
# Conditions

A condition on a document is a tree of *leaves*, each of which compares the value at a path with an
operand, under conjunctions and disjunctions. `always` and `never` are their neutral elements.

`Condition.conj` and `Condition.disj` build them in a normal form: neutral elements are left out,
nested conjunctions are made flat, and what is left of one member is that member.
-/

namespace Catalog

/-- How a leaf compares the value at its path with its operand. -/
inductive Operator where
  /-- Equal. -/
  | eq
  /-- Not equal. -/
  | neq
  /-- Greater. -/
  | gt
  /-- Greater or equal. -/
  | gte
  /-- Less. -/
  | lt
  /-- Less or equal. -/
  | lte
  /-- Between two ends, both included. -/
  | between
  /-- Equal to one of several. -/
  | inq
  /-- Equal to none of several. -/
  | nin
  /-- A text that a wildcard pattern is found in. -/
  | like
  /-- No such text. -/
  | nlike
  /-- A text that a wildcard pattern is found in, whatever the case of the letters. -/
  | ilike
  /-- No such text. -/
  | nilike
  /-- A text that a regular expression is found in. -/
  | regexp
  /-- There or, if the operand does not count as true, not there. -/
  | present
deriving DecidableEq, Repr

namespace Operator

/-- All operators. -/
def all : List Operator :=
  [.eq, .neq, .gt, .gte, .lt, .lte, .between, .inq, .nin, .like, .nlike, .ilike, .nilike, .regexp,
    .present]

/-- The name of an operator. -/
def name : Operator → String
  | .eq => "eq"
  | .neq => "neq"
  | .gt => "gt"
  | .gte => "gte"
  | .lt => "lt"
  | .lte => "lte"
  | .between => "between"
  | .inq => "inq"
  | .nin => "nin"
  | .like => "like"
  | .nlike => "nlike"
  | .ilike => "ilike"
  | .nilike => "nilike"
  | .regexp => "regexp"
  | .present => "exists"

/-- The operator with a name. -/
def ofName? (s : String) : Option Operator := all.find? fun o => o.name = s

theorem ofName?_name (o : Operator) : ofName? o.name = some o := by
  cases o <;> decide

end Operator

/-- The text that an operand was inferred from: a field that holds it as a text is equal too. -/
inductive Literal where
  /-- The text of an operand. -/
  | text (s : String)
  /-- The texts of the members of an operand, in line with them. -/
  | each (items : List (Option String))
deriving DecidableEq, Repr

/-- A comparison of the value at a path with an operand. -/
structure Leaf where
  /-- The path. -/
  path : String
  /-- The operator. -/
  operator : Operator
  /-- The operand. -/
  operand : Value
  /-- The text that the operand was inferred from, if it was. -/
  literal : Option Literal := none

/-- A condition on a document. -/
inductive Condition where
  /-- Every document meets it. -/
  | always
  /-- No document meets it. -/
  | never
  /-- A comparison. -/
  | leaf (l : Leaf)
  /-- All of several conditions. -/
  | and (members : List Condition)
  /-- Some of several conditions. -/
  | or (members : List Condition)
deriving Inhabited

namespace Condition

/-- A leaf without a literal. -/
def compare (path : String) (operator : Operator) (operand : Value) : Condition :=
  .leaf { path, operator, operand }

/-- The value at a path is equal to an operand. -/
def equals (path : String) (operand : Value) : Condition := compare path .eq operand

/-- The members of a flat conjunction of conditions; none if one of them is `never`. -/
def conjuncts? : List Condition → Option (List Condition)
  | [] => some []
  | .always :: cs => conjuncts? cs
  | .never :: _ => none
  | .and ds :: cs => (conjuncts? cs).map (ds ++ ·)
  | c :: cs => (conjuncts? cs).map (c :: ·)

/-- The conjunction of conditions. -/
def conj (cs : List Condition) : Condition :=
  match conjuncts? cs with
  | none => .never
  | some [] => .always
  | some [c] => c
  | some ds => .and ds

/-- The members of a flat disjunction of conditions; none if one of them is `always`. -/
def disjuncts? : List Condition → Option (List Condition)
  | [] => some []
  | .never :: cs => disjuncts? cs
  | .always :: _ => none
  | .or ds :: cs => (disjuncts? cs).map (ds ++ ·)
  | c :: cs => (disjuncts? cs).map (c :: ·)

/-- The disjunction of conditions. -/
def disj (cs : List Condition) : Condition :=
  match disjuncts? cs with
  | none => .always
  | some [] => .never
  | some [c] => c
  | some ds => .or ds

mutual

/-- The condition on the member `key` of a document that the condition is on that member. -/
def prefixed (key : String) : Condition → Condition
  | .always => .always
  | .never => .never
  | .leaf l => .leaf { l with path := key ++ "." ++ l.path }
  | .and cs => .and (prefixedAll key cs)
  | .or cs => .or (prefixedAll key cs)

/-- Each of several conditions on the member `key`. -/
def prefixedAll (key : String) : List Condition → List Condition
  | [] => []
  | c :: cs => c.prefixed key :: prefixedAll key cs

end

theorem prefixedAll_eq (key : String) (cs : List Condition) :
    prefixedAll key cs = cs.map (prefixed key) := by
  induction cs with
  | nil => rfl
  | cons c cs ih => simp [prefixedAll, ih]

end Condition

end Catalog
