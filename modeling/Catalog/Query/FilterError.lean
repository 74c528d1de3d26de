import Catalog.Record.Family
import Catalog.Value.Display

/-!
# Why a filter is refused

The causes for which a filter, a set expression or a value in one of them is not accepted, each
with the sentence that tells the caller.
-/

namespace Catalog

/-- A page bound of a filter. -/
inductive PageBound where
  /-- The number of records to return. -/
  | limit
  /-- The number of records to leave out first. -/
  | skip
deriving DecidableEq, Repr

/-- The name of a page bound. -/
def PageBound.name : PageBound → String
  | .limit => "limit"
  | .skip => "skip"

/-- A connective of conditions and of set expressions. -/
inductive Connective where
  /-- All of them. -/
  | and
  /-- Some of them. -/
  | or
deriving DecidableEq, Repr

/-- The name of a connective. -/
def Connective.name : Connective → String
  | .and => "and"
  | .or => "or"

/-- Why a filter or set expression is refused. -/
inductive FilterError where
  /-- A value that should be a number is none. -/
  | notNumber (value : Value)
  /-- A value that should be a date is none. -/
  | notDate (value : Value)
  /-- A value that should be a boolean is none. -/
  | notBoolean (value : Value)
  /-- A type hint is not known. -/
  | unknownHint (hint : String)
  /-- A text is no JSON. -/
  | malformedText
  /-- The filter is no object. -/
  | filterNotObject
  /-- Scopes are nested too deep. -/
  | tooDeep (allowed : Int)
  /-- A page bound is a boolean. -/
  | booleanBound (bound : PageBound)
  /-- A page bound is no whole number. -/
  | notWhole (bound : PageBound) (value : Value)
  /-- A page bound is negative. -/
  | negative (bound : PageBound)
  /-- A lookup does not say what to look up. -/
  | lookupWithoutProp
  /-- An include does not say what to include. -/
  | includeWithoutRelation
  /-- An order clause is not a field and a direction. -/
  | orderClause (item : Value)
  /-- The projection is no object. -/
  | fieldsNotObject
  /-- A where clause is no object. -/
  | whereNotObject
  /-- A connective has no members. -/
  | emptyConnective (connective : Connective)
  /-- A field has an empty condition. -/
  | emptyCondition (path : String)
  /-- A field has a condition without operators. -/
  | noOperator (path : String)
  /-- A range has not exactly two ends. -/
  | rangeEnds (path : String)
  /-- A pattern is no text. -/
  | patternNotText (operator path : String)
  /-- A regular expression is not well formed. -/
  | invalidPattern (path : String)
  /-- A set expression is no object. -/
  | setNotObject (kindName : String)
  /-- A connective of sets has no members. -/
  | emptySet (connective : Connective)
  /-- Something that a family does not have is to be included. -/
  | unknownInclude (name : String) (family : Family)

/-- The type hints for values in filters. -/
def typeHints : List String := ["number", "date", "string", "boolean"]

namespace FilterError

/-- The sentence that tells the caller. -/
def message : FilterError → String
  | .notNumber v => s!"Value {v.inline} is not a number."
  | .notDate v => s!"Value {v.inline} is not an ISO-8601 date."
  | .notBoolean v => s!"Value {v.inline} is not a boolean."
  | .unknownHint hint =>
    "Unknown type hint '" ++ hint ++ "'. Use any of: " ++ ", ".intercalate typeHints
  | .malformedText => "Filter is neither bracket syntax nor valid JSON."
  | .filterNotObject => "Filter must be an object."
  | .tooDeep allowed => s!"Lookups are nested deeper than the allowed {allowed} levels."
  | .booleanBound b => s!"Filter {b.name} must be an integer."
  | .notWhole b v => s!"Filter {b.name} must be an integer, got {v.inline}."
  | .negative b => s!"Filter {b.name} must not be negative."
  | .lookupWithoutProp => "Each lookup needs a 'prop'."
  | .includeWithoutRelation => "Each include needs a 'relation'."
  | .orderClause item => s!"Invalid order clause '{item.display}'. Use '<field> ASC|DESC'."
  | .fieldsNotObject => "Filter fields must be an object of field -> boolean."
  | .whereNotObject => "Where clause must be an object."
  | .emptyConnective c => s!"'{c.name}' needs at least one condition."
  | .emptyCondition path => s!"Empty condition for field '{path}'."
  | .noOperator path => s!"No operator given for field '{path}'."
  | .rangeEnds path => s!"'between' on '{path}' needs exactly two values."
  | .patternNotText operator path => s!"'{operator}' on '{path}' needs a string pattern."
  | .invalidPattern path => s!"Invalid regexp on '{path}'"
  | .setNotObject kindName => s!"Set expression must be an object, got {kindName}."
  | .emptySet c => s!"Set '{c.name}' needs at least one member."
  | .unknownInclude name family =>
    let available := (family.includes.map fun (n, _, _) => n).mergeSort fun a b => decide (a ≤ b)
    let listed := if available.isEmpty then "none" else ", ".intercalate available
    s!"Unknown include '{name}' for {family.segment}. Available: {listed}"

end FilterError

end Catalog
