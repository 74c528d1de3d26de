import Catalog.Query.Bracket
import Catalog.Query.FilterReader
import Catalog.Value.Json

/-!
# Scopes

A rule holds within a scope: the records that a filter and a set select. A scope is written as a
query string in which `${path}` stands for the value of a record at a path, percent-encoded so that
no value can be taken for a part of the query. A set of owners, or an audience, that names nobody is
about the owners of the record.

* `Template.parts` cuts a written scope into characters and placeholders;
* `Template.render` fills it in for a record;
* `Scope.read` reads what has been filled in.
-/

namespace Catalog

open Text

/-! ## Templates -/

namespace Template

/-- A part of a template. -/
inductive Part where
  /-- A character that stands for itself. -/
  | char (c : Char)
  /-- A placeholder for the value at a path. -/
  | placeholder (path : String)
deriving DecidableEq, Repr

/-- The path of a placeholder, after its opening brace; it is not empty. -/
def path? (cs : List Char) : Option (List Char) :=
  let path := cs.takeWhile (· ≠ '\x7d')
  if path.isEmpty || path.length == cs.length then none else some path

/-- The parts of a template; the first `skip` characters belong to a placeholder already found. -/
def partsFrom : Nat → List Char → List Part
  | _, [] => []
  | skip + 1, _ :: cs => partsFrom skip cs
  | 0, c :: cs =>
    match if c = '$' ∧ cs.head? = some '\x7b' then path? cs.tail else none with
    | some path =>
      .placeholder (trim (String.ofList path)) :: partsFrom (path.length + 2) cs
    | none => .char c :: partsFrom 0 cs

/-- The parts of a template. -/
def parts (template : String) : List Part := partsFrom 0 template.toList

/-- The text of a value in a scope: arrays with commas between their items, objects as JSON, and
    nothing for null. -/
def valueText : Value → String
  | .null => ""
  | .array items => ",".intercalate (items.map Value.display)
  | .object members => (Value.object members).json false
  | .bool b => if b then "true" else "false"
  | v => v.display

/-- What a part stands for, for a record. Commas and colons are not percent-encoded. -/
def Part.render (record : Value) : Part → List Char
  | .char c => [c]
  | .placeholder path =>
    Percent.encode [',', ':'] (valueText (Value.orNull (record.path? path))).toList

/-- The template with its placeholders filled in for a record. -/
def render (template : String) (record : Value) : String :=
  String.ofList ((parts template).flatMap (Part.render record))

example : render "a=$\x7b x.y \x7d&b" (.object [("x", .object [("y", .text "p&q")])]) =
    "a=p%26q&b" := by
  decide +kernel

end Template

/-! ## Scopes -/

/-- The records that a filter and a set select. -/
structure Scope where
  /-- The filter. -/
  filter : Filter := {}
  /-- The set. -/
  set : Option SetExpr := none

/-- The ids that a field lists; nothing else than a collection does. -/
def idsIn (field : String) (record : Document) : Except Fault (List String) := do
  let v := Value.orNull (record.get? field)
  if v.truthy then return (← orFault .shape v.elements?).map Value.display else return []

/-- The owners of a record. -/
def ownersOf (record : Document) : Except Fault Audience := do
  return { users := ← idsIn "_ownerUsers" record, groups := ← idsIn "_ownerGroups" record }

mutual

/-- The set expression with an audience for the sets of owners and the audiences without one. -/
def SetExpr.fill (audience : Audience) : SetExpr → SetExpr
  | .named name none =>
    .named name (if name = "owners" ∨ name = "audience" then some audience else none)
  | .named name (some a) => .named name (some a)
  | .and es => .and (SetExpr.fillAll audience es)
  | .or es => .or (SetExpr.fillAll audience es)

/-- The set expressions with an audience for the sets of owners and the audiences without one. -/
def SetExpr.fillAll (audience : Audience) : List SetExpr → List SetExpr
  | [] => []
  | e :: es => e.fill audience :: SetExpr.fillAll audience es

end

namespace Scope

/-- Reads a scope from a query string: `filter` or, without one, `where`, and `set`. An empty one
    selects everything. -/
def read (query : String) (owners : Option Audience) : Outcome Scope := do
  if (trim query).isEmpty then return {}
  match ← decodeQuery query with
  | .object members =>
    let get (key : String) : Value := Value.orNull (Document.get? key members)
    let given := get "filter"
    let filter := match given, Document.get? "where" members with
      | .null, some w => .object [("where", w)]
      | v, _ => v
    let set ← SetExpr.read (get "set")
    let set := match owners with
      | some a => set.map (SetExpr.fill a)
      | none => set
    return { filter := ← Filter.read {} filter, set }
  | _ => giveUp .shape

end Scope

end Catalog
