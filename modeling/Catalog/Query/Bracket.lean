import Catalog.Failure
import Catalog.Number.Numeral
import Catalog.Text.Percent

/-!
# Bracket queries

A query string `a[b][0][c]=v&…` writes a value of nested objects and arrays. Its parts are read from
left to right: each writes a text at the path of its key, where a repeated key, or a `[]` after a
key, collects several texts in an array. Then every object whose keys are all numerals becomes an
array in the order of its keys.

* `Bracket.pairs` cuts a query string into keys and values;
* `Bracket.assign` writes one of them into a document;
* `Bracket.listed` makes arrays of the objects with numerals for keys;
* `decodeQuery` does all of it.
-/

namespace Catalog

open Text

namespace Bracket

/-- A part of a query string in plain characters: `+` stands for a blank. -/
def plain (cs : List Char) : String :=
  String.ofList (Percent.decode (cs.map fun c => if c = '+' then ' ' else c))

/-- The keys and values of a query string; a key without `=` has the empty value. -/
def pairs (query : String) : List (String × String) :=
  ((splitChars '&' query.toList).filter fun part => !part.isEmpty).map fun part =>
    (plain (part.takeWhile (· ≠ '=')), plain ((part.dropWhile (· ≠ '=')).drop 1))

/-- What stands between brackets in a text: from each opening one to the next closing one. `inside`
    holds the characters since an opening bracket, in reverse. -/
def steps (inside : Option (List Char)) : List Char → List String
  | [] => []
  | c :: cs =>
    match inside with
    | none => if c = '[' then steps (some []) cs else steps none cs
    | some found =>
      if c = ']' then String.ofList found.reverse :: steps none cs else steps (some (c :: found)) cs

/-- The path of a key: what comes before the first bracket, and what the brackets hold. -/
def path (key : String) : List String :=
  String.ofList (key.toList.takeWhile (· ≠ '[')) :: steps none (key.toList.dropWhile (· ≠ '['))

/-- Collects a text at a key whose path goes on with `[]`. -/
def collect (key value : String) (doc : Document) : Document :=
  match doc.get? key with
  | none => doc.put key (.array [.text value])
  | some (.array items) => doc.put key (.array (items ++ [.text value]))
  | some _ => doc

/-- Writes a text at the last key of a path, beside the texts that are there. -/
def assignLast (key value : String) (doc : Document) : Document :=
  match doc.get? key with
  | none => doc.put key (.text value)
  | some (.array items) => doc.put key (.array (items ++ [.text value]))
  | some (.object _) => doc
  | some v => doc.put key (.array [v, .text value])

/-- The object at a key; an empty one if there is none. -/
def objectAt (key : String) (doc : Document) : Document :=
  match doc.get? key with
  | some (.object members) => members
  | _ => []

/-- Writes a text at a path. -/
def assign (value : String) : List String → Document → Document
  | [], doc => doc
  | [key], doc => assignLast key value doc
  | key :: next :: rest, doc =>
    if next = "" then collect key value doc
    else doc.put key (.object (assign value (next :: rest) (objectAt key doc)))

/-- Whether a key is a numeral. -/
def isNumeral (key : String) : Bool := !key.isEmpty && key.toList.all isDigitLike

/-- The values of an object in the order of the numerals that are its keys. -/
def inOrder (members : List (String × Value)) : Except Fault (List Value) := do
  let numbered ← members.mapM fun (key, v) => do
    return (← orFault .notANumeral (Numeral.int? key), v)
  return (numbered.mergeSort fun a b => decide (a.1 ≤ b.1)).map Prod.snd

/-- The array or object that members with values in their final form make. -/
def arranged (members : List (String × Value)) : Except Fault Value :=
  if !members.isEmpty && members.all fun m => isNumeral m.1 then .array <$> inOrder members
  else .ok (.object members)

mutual

/-- The value with all objects whose keys are numerals made into arrays. -/
def listed : Value → Except Fault Value
  | .object members => do arranged (← listedMembers members)
  | .array items => .array <$> listedItems items
  | v => .ok v

/-- The members of an object with their values in their final form. -/
def listedMembers : List (String × Value) → Except Fault (List (String × Value))
  | [] => .ok []
  | (key, v) :: rest => do return (key, ← listed v) :: (← listedMembers rest)

/-- The items of an array in their final form. -/
def listedItems : List Value → Except Fault (List Value)
  | [] => .ok []
  | v :: rest => do return (← listed v) :: (← listedItems rest)

end

/-- The document that the parts of a query string write, before arrays are made. -/
def written (parts : List (String × String)) : Document :=
  parts.foldl (fun doc part => assign part.2 (path part.1) doc) []

end Bracket

/-- The value that a query string writes. -/
def decodeQuery (query : String) : Except Fault Value :=
  Bracket.listed (.object (Bracket.written (Bracket.pairs query)))

end Catalog
