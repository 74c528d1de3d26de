import Catalog.Record.Family
import Catalog.Text.Blank
import Catalog.Value.Basic

/-!
# References

A reference `scheme://authority/segment/id` names a record by its family and id. `Reference.write`
writes the reference to a record on a host, and `Reference.read?` reads one: the scheme is a letter
followed by letters, digits, `+`, `.` or `-`; the authority is not empty; the segment is that of a
family; and the id is not empty and free of `?` and `#`. None of them has a `/`. Blanks around a
reference do not count.
-/

namespace Catalog

/-- A record named by its family and id. -/
structure Reference where
  /-- The family of the record. -/
  family : Family
  /-- The id of the record. -/
  id : String
deriving DecidableEq, Repr

namespace Reference

open Text

/-- The reference to a record on a host, whose trailing slashes do not count. -/
def write (host : String) (r : Reference) : String :=
  String.ofList (dropEndWhile (· == '/') host.toList) ++ "/" ++ r.family.segment ++ "/" ++ r.id

/-- A character that a scheme may go on with. -/
def isSchemeChar (c : Char) : Bool := c.isAlphanum || c == '+' || c == '.' || c == '-'

/-- What follows the scheme and its `://` in a text. -/
def afterScheme? (cs : List Char) : Option (List Char) :=
  match cs with
  | [] => none
  | c :: rest =>
    if c.isAlpha then
      match rest.dropWhile isSchemeChar with
      | ':' :: '/' :: '/' :: rest => some rest
      | _ => none
    else none

/-- Reads a reference. -/
def read? (s : String) : Option Reference := do
  match splitChars '/' (← afterScheme? (trimWhile isBlank s.toList)) with
  | [authority, segment, id] =>
    guard (!authority.isEmpty && !id.isEmpty && !id.contains '?' && !id.contains '#')
    let family ← Family.ofSegment? (String.ofList segment)
    return { family, id := String.ofList id }
  | _ => none

/-- Reads a reference from a value; only texts are references. -/
def ofValue? : Value → Option Reference
  | .text s => read? s
  | _ => none

example : read? " tapp://localhost/lists/9 " = some ⟨.lists, "9"⟩ := by decide
example : read? "tapp://localhost/entities/1?x=1" = none := by decide

end Reference

end Catalog
