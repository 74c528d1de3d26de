import Catalog.Value.Basic
import Catalog.Text.Blank

/-!
# Dotted paths

A path `a.b.c` names a member of a member of a member. Reading it *fans out* through arrays: an
array on the way stands for the values that its items have at the rest of the path, where an item
whose value is an array contributes that array's items; if no item has one, the array has none
either. An array at the end of the path is the value itself.

Writing and removing do not fan out. Writing makes an object of whatever is in the way; removing
stops at it.

* `Value.resolve` reads, `Document.putPath` writes and `Document.erasePath` removes a path.
-/

namespace Catalog

/-- The steps of a dotted path, at least one. -/
def pathSteps (path : String) : List String := Text.splitOn '.' path

/-- A path that goes on from a key without dots. -/
theorem pathSteps_append {key : String} (h : '.' ∉ key.toList) (path : String) :
    pathSteps (key ++ "." ++ path) = key :: pathSteps path := by
  have chars : (key ++ "." ++ path).toList = key.toList ++ '.' :: path.toList := by
    simp [String.toList_append]
  rw [pathSteps, Text.splitOn, chars, Text.splitChars_append h, List.map_cons,
    String.ofList_toList]
  rfl

/-- The value of an array on the way to a path's end, made of what its items contributed. -/
def Value.gathered (found : List Value) : Option Value :=
  if found.isEmpty then none else some (.array found)

/-- What one item's value contributes: an array its items, any other value itself. -/
def Value.contribution : Option Value → List Value
  | none => []
  | some (.array items) => items
  | some v => [v]

namespace Value

mutual

/-- The value at the end of a path. -/
def resolve : Value → List String → Option Value
  | v, [] => some v
  | .object members, step :: steps => resolveMember members step steps
  | .array items, step :: steps => gathered (resolveItems items (step :: steps))
  | _, _ :: _ => none

/-- The value at the end of a path that starts with a key of an object. -/
def resolveMember : List (String × Value) → String → List String → Option Value
  | [], _, _ => none
  | (k, v) :: rest, step, steps =>
    if k = step then v.resolve steps else resolveMember rest step steps

/-- What the items of an array contribute to a path. -/
def resolveItems : List Value → List String → List Value
  | [], _ => []
  | v :: rest, steps => contribution (v.resolve steps) ++ resolveItems rest steps

end

/-- The value at the end of a dotted path. -/
def path? (path : String) (v : Value) : Option Value := v.resolve (pathSteps path)

/-- Finding a member by its key and reading on in it. -/
theorem resolveMember_eq (members : List (String × Value)) (step : String) (steps : List String) :
    resolveMember members step steps = (Document.get? step members).bind (·.resolve steps) := by
  induction members with
  | nil => simp [resolveMember, Document.get?]
  | cons m rest ih =>
    obtain ⟨k, v⟩ := m
    simp only [resolveMember, Document.get?]
    split <;> simp [ih]

/-- The items of an array contribute one after the other. -/
theorem resolveItems_eq (items : List Value) (steps : List String) :
    resolveItems items steps = items.flatMap fun v => contribution (v.resolve steps) := by
  induction items with
  | nil => simp [resolveItems]
  | cons v rest ih => simp [resolveItems, ih]

end Value

namespace Document

/-- The value at the end of a dotted path. -/
def path? (path : String) (doc : Document) : Option Value := (Value.object doc).path? path

/-- Whether a dotted path leads to a value. -/
def hasPath (path : String) (doc : Document) : Bool := (doc.path? path).isSome

/-- Writes a value at the end of a path. -/
def putSteps (value : Value) : List String → Document → Document
  | [], doc => doc
  | [step], doc => doc.put step value
  | step :: steps, doc =>
    let inner := match doc.get? step with
      | some (.object members) => members
      | _ => []
    doc.put step (.object (putSteps value steps inner))

/-- Writes a value at the end of a dotted path. -/
def putPath (path : String) (value : Value) (doc : Document) : Document :=
  doc.putSteps value (pathSteps path)

/-- Removes the member at the end of a path, if objects lead to it. -/
def eraseSteps : List String → Document → Document
  | [], doc => doc
  | [step], doc => doc.erase step
  | step :: steps, doc =>
    match doc.get? step with
    | some (.object members) => doc.put step (.object (eraseSteps steps members))
    | _ => doc

/-- Removes the member at the end of a dotted path, if objects lead to it. -/
def erasePath (path : String) (doc : Document) : Document := doc.eraseSteps (pathSteps path)

example : (path? "l.x" [("l", .array [.object [("x", .int 1)], .int 5,
    .object [("x", .array [.int 2, .int 3])]])]).isSome = true := by decide

end Document

end Catalog
