import Catalog.Number.Numeral
import Catalog.Value.Basic

/-!
# Whole numbers from values

The whole number that a value is taken for: a number without its fraction, a truth value as one or
zero, and a text that is a whole numeral.
-/

namespace Catalog.Value

/-- The whole number that a value is taken for. -/
def whole? : Value → Option Int
  | .number n => n.truncate?
  | .bool b => some (if b then 1 else 0)
  | .text s => Numeral.int? s
  | _ => none

end Catalog.Value
