import Catalog.Text.Blank
import Catalog.Text.LetterCase

/-!
# Wildcards

In a wildcard pattern each `%` stands for any run of characters, and the pattern may be found
anywhere in a text. So a text matches if the parts between the signs occur in it one after the
other; taking the first occurrence of each part leaves the most room for those that follow.
-/

namespace Catalog.Text.Wildcard

/-- What follows a part at the beginning of a text, if it is there. -/
def afterPart? (same : Char → Char → Bool) : List Char → List Char → Option (List Char)
  | [], cs => some cs
  | _ :: _, [] => none
  | p :: ps, c :: cs => if same p c then afterPart? same ps cs else none

/-- What follows the first occurrence of a part in a text. -/
def afterFirst? (same : Char → Char → Bool) (part : List Char) : List Char → Option (List Char)
  | [] => afterPart? same part []
  | c :: cs =>
    match afterPart? same part (c :: cs) with
    | some rest => some rest
    | none => afterFirst? same part cs

/-- Whether parts occur in a text one after the other. -/
def occur (same : Char → Char → Bool) (parts : List (List Char)) (cs : List Char) : Bool :=
  (parts.foldlM (fun rest part => afterFirst? same part rest) cs).isSome

/-- Whether a text matches a wildcard pattern. -/
def matched (ignoreCase : Bool) (pattern s : String) : Bool :=
  let same := if ignoreCase then sameCase else fun a b => a == b
  occur same (splitChars '%' pattern.toList) s.toList

example : matched false "a%c" "xabcx" = true ∧ matched false "c%a" "abc" = false := by
  decide
example : matched true "É%" "café" = true := by decide

end Catalog.Text.Wildcard
