import Catalog.Text.Blank
import Catalog.Text.Percent

/-!
# Request targets

What a request is aimed at: a path and a query string. They are written as a reference: the query
follows the first `?`, and what follows `#` does not count.

* A path that begins with two slashes names a host before its next slash, which does not count
  either. It always begins with one slash.
* The segment `.` stands for nothing, and `..` takes back the segment before it.
* A path is percent-decoded twice, so that an encoded per cent sign may begin a triple itself.
* What follows a `?` that comes up in decoding is in the path, and it is in the query too, before
  the query that is written.
-/

namespace Catalog.Http

open Text

/-- What a request is aimed at. -/
structure Target where
  /-- The path, decoded. -/
  path : List Char
  /-- The query string, percent-encoded. -/
  query : String
deriving DecidableEq, Repr

namespace Target

/-- The path without a host and with one slash at its beginning. -/
def rooted : List Char → List Char
  | '/' :: '/' :: rest => '/' :: (rest.dropWhile (· ≠ '/')).dropWhile (· = '/')
  | path => '/' :: path.dropWhile (· = '/')

/-- The segments of a path without `.` and `..`; `above` holds those before, in reverse. The empty
    segment before the first slash cannot be taken back. -/
def settle (above : List (List Char)) : List (List Char) → List (List Char)
  | [] => above.reverse
  | segment :: rest =>
    if segment = ['.'] then settle above rest
    else if segment = ['.', '.'] then
      settle (if above = [[]] then above else above.drop 1) rest
    else settle (segment :: above) rest

/-- The path without segments `.` and `..`. -/
def settled (path : List Char) : List Char :=
  match ['/'].intercalate (settle [] (splitChars '/' path)) with
  | [] => ['/']
  | path => path

/-- The query of a reference with a decoded path, in which tabs and line ends do not count. -/
def queryWithin (path query : List Char) : List Char :=
  let shown := path.filter fun c => c ≠ '\t' && c ≠ '\n' && c ≠ '\r'
  let reference := if query.isEmpty then shown else shown ++ '?' :: query
  ((reference.takeWhile (· ≠ '#')).dropWhile (· ≠ '?')).drop 1

/-- Reads what is written as a target. -/
def read (target : String) : Target :=
  let reference := target.toList.takeWhile (· ≠ '#')
  let encoded := settled (rooted (reference.takeWhile (· ≠ '?')))
  let path := Percent.decode (Percent.decode encoded)
  let query := (reference.dropWhile (· ≠ '?')).drop 1
  { path, query := String.ofList (queryWithin path query) }

example : read "//host/a/./b/../%2563?x=1#y" = ⟨"/a/c".toList, "x=1"⟩ := by decide
example : read "/a%3Fb?c" = ⟨"/a?b".toList, "b?c"⟩ := by decide
example : read "/.." = ⟨"/".toList, ""⟩ := by decide

end Target

end Catalog.Http
