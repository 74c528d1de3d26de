import Catalog.Value.Display
import Catalog.Value.Path

/-!
# JSON text

`Value.json` writes a value as JSON text in ASCII, with a blank after each comma and colon, and the
members of an object in their order or in the order of their keys. Moments, which JSON does not
have, are written as the texts that show them, and the numbers that are not finite by their names.
-/

namespace Catalog

namespace Json

/-- One character of a JSON text between quotes. -/
def escapeChar (c : Char) : List Char :=
  let n := c.toNat
  if c = '"' ∨ c = '\\' then ['\\', c]
  else if c = '\n' then ['\\', 'n']
  else if c = '\r' then ['\\', 'r']
  else if c = '\t' then ['\\', 't']
  else if c = '\x0c' then ['\\', 'f']
  else if c = '\x08' then ['\\', 'b']
  else if 32 ≤ n ∧ n < 127 then [c]
  else if n < 0x10000 then '\\' :: 'u' :: Text.hexDigits 4 n
  else
    let m := n - 0x10000
    '\\' :: 'u' :: Text.hexDigits 4 (0xD800 + m / 1024) ++
      '\\' :: 'u' :: Text.hexDigits 4 (0xDC00 + m % 1024)

/-- A text between quotes. -/
def quoted (s : String) : String :=
  String.ofList ('"' :: s.toList.flatMap escapeChar ++ ['"'])

/-- A number. -/
def number : Number → String
  | .double .nan => "NaN"
  | .double (.infinite negative) => if negative then "-Infinity" else "Infinity"
  | n => n.text

/-- The members of an object, each written already, in the order of their keys. -/
def sortByKey (members : List (String × String)) : List (String × String) :=
  members.mergeSort fun a b => decide (a.1 ≤ b.1)

/-- An object whose members are written already. -/
def object (sorted : Bool) (members : List (String × String)) : String :=
  let ordered := if sorted then sortByKey members else members
  "\x7b" ++ ", ".intercalate (ordered.map fun m => quoted m.1 ++ ": " ++ m.2) ++ "\x7d"

end Json

namespace Value

mutual

/-- The value as JSON text; `sorted` puts the members of objects in the order of their keys. -/
def json (sorted : Bool) : Value → String
  | .null => "null"
  | .bool b => if b then "true" else "false"
  | .number n => Json.number n
  | .text s => Json.quoted s
  | .instant t => Json.quoted (Value.instant t).display
  | .array items => "[" ++ ", ".intercalate (jsonItems sorted items) ++ "]"
  | .object members => Json.object sorted (jsonMembers sorted members)

/-- The items of an array as JSON texts. -/
def jsonItems (sorted : Bool) : List Value → List String
  | [] => []
  | v :: rest => v.json sorted :: jsonItems sorted rest

/-- The members of an object with their values as JSON texts. -/
def jsonMembers (sorted : Bool) : List (String × Value) → List (String × String)
  | [] => []
  | (k, v) :: rest => (k, v.json sorted) :: jsonMembers sorted rest

end

end Value

end Catalog
