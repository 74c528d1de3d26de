import Catalog.Text.Blank
import Catalog.Text.LetterCase

/-!
# Slugs

A slug is what is left of a text when it may hold small letters and digits of ASCII only: each run
of other characters becomes one hyphen, and there is none at the ends.
-/

namespace Catalog

open Text

/-- A character of a slug other than the hyphen. -/
def isSlugChar (c : Char) : Bool := c.isLower || c.isDigit

/-- The characters with each run of those that no slug holds replaced by a hyphen; `inRun` says
    whether such a run is under way. -/
def hyphenated (inRun : Bool) : List Char → List Char
  | [] => []
  | c :: cs =>
    if isSlugChar c then c :: hyphenated false cs
    else if inRun then hyphenated true cs
    else '-' :: hyphenated true cs

/-- The slug of a text. -/
def slugify (s : String) : String :=
  String.ofList (trimWhile (· == '-') (hyphenated false (lower (trim s)).toList))

example : slugify " Hello, World! " = "hello-world" := by decide

end Catalog
