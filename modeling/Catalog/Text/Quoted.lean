import Catalog.Text.Printable

/-!
# Quoted text

A text is shown between quotes with escapes for what cannot be seen. The quotes are single ones,
unless the text holds a single quote and no double quote. The quote in use and the backslash are
written after a backslash, tab, line feed and carriage return by their letters, and any other
character that is not printable by its code point in hexadecimal.
-/

namespace Catalog.Text

/-- The hexadecimal digit, in lower case, with a value below sixteen. -/
def hexDigit (d : Nat) : Char := Nat.digitChar (d % 16)

/-- The last `width` hexadecimal digits of a number. -/
def hexDigits : Nat → Nat → List Char
  | 0, _ => []
  | width + 1, n => hexDigits width (n / 16) ++ [hexDigit n]

/-- The quotes around a text: single ones unless it holds a single but no double quote. -/
def quoteFor (cs : List Char) : Char :=
  if cs.contains '\'' && !cs.contains '"' then '"' else '\''

/-- One character of a text between the given quotes. -/
def quoteChar (quote c : Char) : List Char :=
  let n := c.toNat
  if c = quote || c = '\\' then ['\\', c]
  else if c = '\t' then ['\\', 't']
  else if c = '\n' then ['\\', 'n']
  else if c = '\r' then ['\\', 'r']
  else if isPrintable c then [c]
  else if n < 0x100 then '\\' :: 'x' :: hexDigits 2 n
  else if n < 0x10000 then '\\' :: 'u' :: hexDigits 4 n
  else '\\' :: 'U' :: hexDigits 8 n

/-- The text between quotes, with escapes. -/
def quoted (s : String) : String :=
  let quote := quoteFor s.toList
  String.ofList (quote :: s.toList.flatMap (quoteChar quote) ++ [quote])

example : quoted "it's" = "\"it's\"" := by decide
example : quoted "a\n'\"\\" = "'a\\n\\'\"\\\\'" := by decide

end Catalog.Text
