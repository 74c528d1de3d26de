import Catalog.Value.Basic
import Catalog.Text.Quoted

/-!
# Values as text

How a value is shown in a message and made into a text. On its own a text is itself (`display`);
inside another value and where it is quoted, it stands between quotes (`inline`).
-/

namespace Catalog

namespace Value

mutual

/-- The value as it is quoted. -/
def inline : Value → String
  | .null => "None"
  | .bool b => if b then "True" else "False"
  | .number n => n.text
  | .text s => Text.quoted s
  | .instant t => t.inline
  | .array items => "[" ++ ", ".intercalate (inlineItems items) ++ "]"
  | .object members => "\x7b" ++ ", ".intercalate (inlineMembers members) ++ "\x7d"

/-- The items of an array as they are quoted. -/
def inlineItems : List Value → List String
  | [] => []
  | v :: rest => v.inline :: inlineItems rest

/-- The members of an object as they are quoted. -/
def inlineMembers : List (String × Value) → List String
  | [] => []
  | (k, v) :: rest => (Text.quoted k ++ ": " ++ v.inline) :: inlineMembers rest

end

/-- The value as a text. -/
def display : Value → String
  | .text s => s
  | .instant t => t.text
  | v => v.inline

example : (object [("a", .array [.text "it's", .null]), ("b", .bool true)]).display =
    "\x7b'a': [\"it's\", None], 'b': True\x7d" := by decide

end Value

end Catalog
